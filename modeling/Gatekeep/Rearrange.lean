import Gatekeep.LatticeCheck

/-!
# Gatekeep.Rearrange

Reordering and repeating the children of conjunctions and disjunctions, in policies and in their
conditions, at any depth.

`Condition.Rearranged` and `Policy.Rearranged` are the least congruences that relate two nodes whose
lists of children have the same members. Over outcomes that pass the lattice check the effect of a
policy is the same for all its rearrangements (`effect_rearranged`).
-/

namespace Gatekeep

/-! ## Conditions -/

/-- The same condition up to the order and number of children. Lists with the same members are
permutations of each other up to repetition. -/
inductive Condition.Rearranged : Condition → Condition → Prop
  | refl (c : Condition) : Rearranged c c
  | trans {c d e : Condition} (first : Rearranged c d) (second : Rearranged d e) : Rearranged c e
  | all {cs ds : List Condition} (same : ∀ c, c ∈ cs ↔ c ∈ ds) : Rearranged (.all cs) (.all ds)
  | any {cs ds : List Condition} (same : ∀ c, c ∈ cs ↔ c ∈ ds) : Rearranged (.any cs) (.any ds)
  | not {c d : Condition} (inner : Rearranged c d) : Rearranged (.not c) (.not d)
  | allArm (before : List Condition) {c d : Condition} (after : List Condition)
      (arm : Rearranged c d) : Rearranged (.all (before ++ c :: after)) (.all (before ++ d :: after))
  | anyArm (before : List Condition) {c d : Condition} (after : List Condition)
      (arm : Rearranged c d) : Rearranged (.any (before ++ c :: after)) (.any (before ++ d :: after))

theorem List.isEmpty_congr {α : Type} {l l' : List α} (h : ∀ a, a ∈ l ↔ a ∈ l') :
    l.isEmpty = l'.isEmpty := by
  rw [Bool.eq_iff_iff, List.isEmpty_iff, List.isEmpty_iff, List.eq_nil_iff_forall_not_mem,
    List.eq_nil_iff_forall_not_mem]
  exact forall_congr' fun a => not_congr (h a)

theorem Condition.Rearranged.holds {c d : Condition} (h : c.Rearranged d) (v : FactId → Bool) :
    c.holds v = d.holds v := by
  induction h with
  | refl c => rfl
  | trans _ _ ih₁ ih₂ => exact ih₁.trans ih₂
  | @all cs ds same =>
    have hall : cs.all (Condition.holds v) = ds.all (Condition.holds v) := by
      rw [Bool.eq_iff_iff, List.all_eq_true, List.all_eq_true]
      exact forall_congr' fun c => imp_congr (same c) Iff.rfl
    rw [Condition.holds, Condition.holds, holdsAll_eq_all, holdsAll_eq_all, hall,
      List.isEmpty_congr same]
  | @any cs ds same =>
    rw [Condition.holds, Condition.holds, holdsAny_eq_any, holdsAny_eq_any, Bool.eq_iff_iff,
      List.any_eq_true, List.any_eq_true]
    exact exists_congr fun c => and_congr (same c) Iff.rfl
  | not _ ih => rw [Condition.holds, Condition.holds, ih]
  | allArm before after _ ih =>
    rw [Condition.holds, Condition.holds, holdsAll_eq_all, holdsAll_eq_all]
    rw [List.isEmpty_eq_false_iff.mpr (by simp), List.isEmpty_eq_false_iff.mpr (by simp)]
    simp [ih]
  | anyArm before after _ ih =>
    rw [Condition.holds, Condition.holds, holdsAny_eq_any, holdsAny_eq_any]
    simp [ih]

/-! ## Policies -/

section Policies

variable {O : Type}

inductive Policy.Rearranged : Policy O → Policy O → Prop
  | refl (p : Policy O) : Rearranged p p
  | trans {p q r : Policy O} (first : Rearranged p q) (second : Rearranged q r) : Rearranged p r
  | all {ps qs : List (Policy O)} (same : ∀ p, p ∈ ps ↔ p ∈ qs) : Rearranged (.all ps) (.all qs)
  | any {ps qs : List (Policy O)} (same : ∀ p, p ∈ ps ↔ p ∈ qs) : Rearranged (.any ps) (.any qs)
  | grant (g : Grant O) {c : Condition} (condition : g.condition.Rearranged c) :
      Rearranged (.grant g) (.grant { g with condition := c })
  | allArm (before : List (Policy O)) {p q : Policy O} (after : List (Policy O))
      (arm : Rearranged p q) : Rearranged (.all (before ++ p :: after)) (.all (before ++ q :: after))
  | anyArm (before : List (Policy O)) {p q : Policy O} (after : List (Policy O))
      (arm : Rearranged p q) : Rearranged (.any (before ++ p :: after)) (.any (before ++ q :: after))
  | orElse {primary primary' fallback fallback' : Policy O} (primaries : Rearranged primary primary')
      (fallbacks : Rearranged fallback fallback') :
      Rearranged (.orElse primary fallback) (.orElse primary' fallback')

mutual

/-- The outcomes a policy names. -/
def Policy.outcomes : Policy O → List O
  | .permit outcome => [outcome]
  | .deny => []
  | .grant g => [g.outcome]
  | .all policies | .any policies => outcomesOf policies
  | .orElse primary fallback => outcomes primary ++ outcomes fallback

def Policy.outcomesOf : List (Policy O) → List O
  | [] => []
  | p :: ps => Policy.outcomes p ++ Policy.outcomesOf ps

end

theorem Policy.outcomesOf_eq_flatMap (ps : List (Policy O)) :
    outcomesOf ps = ps.flatMap outcomes := by
  induction ps with
  | nil => rfl
  | cons p ps ih => rw [outcomesOf, ih, List.flatMap_cons]

theorem Policy.mem_outcomesOf {ps : List (Policy O)} {o : O} :
    o ∈ outcomesOf ps ↔ ∃ p ∈ ps, o ∈ p.outcomes := by
  rw [outcomesOf_eq_flatMap, List.mem_flatMap]

theorem Policy.Rearranged.mem_outcomes {p q : Policy O} (h : p.Rearranged q) (o : O) :
    o ∈ p.outcomes ↔ o ∈ q.outcomes := by
  induction h with
  | refl p => rfl
  | trans _ _ ih₁ ih₂ => exact ih₁.trans ih₂
  | all same =>
    rw [Policy.outcomes, Policy.outcomes, mem_outcomesOf, mem_outcomesOf]
    exact exists_congr fun p => and_congr (same p) Iff.rfl
  | any same =>
    rw [Policy.outcomes, Policy.outcomes, mem_outcomesOf, mem_outcomesOf]
    exact exists_congr fun p => and_congr (same p) Iff.rfl
  | grant g _ => rfl
  | allArm before after _ ih =>
    rw [Policy.outcomes, Policy.outcomes, outcomesOf_eq_flatMap, outcomesOf_eq_flatMap,
      List.flatMap_append, List.flatMap_append, List.flatMap_cons, List.flatMap_cons]
    simp only [List.mem_append, ih]
  | anyArm before after _ ih =>
    rw [Policy.outcomes, Policy.outcomes, outcomesOf_eq_flatMap, outcomesOf_eq_flatMap,
      List.flatMap_append, List.flatMap_append, List.flatMap_cons, List.flatMap_cons]
    simp only [List.mem_append, ih]
  | orElse _ _ ihp ihf =>
    rw [Policy.outcomes, Policy.outcomes, List.mem_append, List.mem_append, ihp, ihf]

theorem Grant.effect_result (v : FactId → Bool) (g : Grant O) :
    (g.result v).effect = if g.condition.holds v then .permit g.outcome else .deny := by
  rw [Grant.result, grantResult, Condition.eval]
  split <;> rfl

variable [Lattice O]

theorem Policy.effect_grant (v : FactId → Bool) (g : Grant O) :
    (Policy.grant g).effect v = if g.condition.holds v then .permit g.outcome else .deny := by
  rw [effect, effectWith, Grant.effect_result]

variable {S : Set O} (hlat : LatticeOn (Lattice.meet : O → O → O) Lattice.join S)
include hlat

/-- A policy that names only outcomes in `S` permits only outcomes in `S`. -/
theorem Policy.effect_within (v : FactId → Bool) (p : Policy O) :
    (∀ o ∈ p.outcomes, o ∈ S) → (p.effect v).Within S := by
  have harms : ∀ ps : List (Policy O), (∀ o ∈ outcomesOf ps, o ∈ S) →
      (∀ p ∈ ps, (∀ o ∈ p.outcomes, o ∈ S) → (p.effect v).Within S) →
      ∀ e ∈ ps.map (effect v), e.Within S := by
    intro ps hS ih
    refine List.forall_mem_map.mpr fun p hp => ih p hp fun o ho => ?_
    exact hS o (mem_outcomesOf.mpr ⟨p, hp, ho⟩)
  induction p using Policy.ind with
  | permit out =>
    intro hS o ho
    cases ho
    exact hS out List.mem_cons_self
  | deny =>
    intro _ o ho
    cases ho
  | grant g =>
    intro hS o ho
    rw [effect_grant] at ho
    split at ho
    · cases ho
      exact hS _ List.mem_cons_self
    · cases ho
  | all ps ih =>
    intro hS
    rw [effect_all]
    exact Effect.all_within hlat (harms ps hS ih)
  | any ps ih =>
    intro hS
    rw [effect_any]
    exact Effect.any_within hlat (harms ps hS ih)
  | orElse primary fallback ihp ihf =>
    intro hS
    rw [outcomes, List.forall_mem_append] at hS
    rw [effect_orElse]
    split
    · exact ihp hS.1
    · exact ihf hS.2

theorem Policy.Rearranged.effect_eq {p q : Policy O} (h : p.Rearranged q) (v : FactId → Bool) :
    (∀ o ∈ p.outcomes, o ∈ S) → p.effect v = q.effect v := by
  have hwithin : ∀ ps : List (Policy O), (∀ o ∈ outcomesOf ps, o ∈ S) →
      ∀ e ∈ ps.map (Policy.effect v), e.Within S := by
    intro ps hS
    refine List.forall_mem_map.mpr fun p hp => p.effect_within hlat v fun o ho => ?_
    exact hS o (mem_outcomesOf.mpr ⟨p, hp, ho⟩)
  have hmap : ∀ {ps qs : List (Policy O)}, (∀ p, p ∈ ps ↔ p ∈ qs) →
      ∀ e, e ∈ ps.map (Policy.effect v) ↔ e ∈ qs.map (Policy.effect v) := by
    intro ps qs same e
    rw [List.mem_map, List.mem_map]
    exact exists_congr fun p => and_congr (same p) Iff.rfl
  induction h with
  | refl p => exact fun _ => rfl
  | trans h₁ _ ih₁ ih₂ =>
    intro hS
    exact (ih₁ hS).trans (ih₂ fun o ho => hS o ((h₁.mem_outcomes o).mpr ho))
  | @all ps qs same =>
    intro hS
    rw [effect_all, effect_all]
    exact Effect.all_congr hlat (hwithin ps hS) (hmap same)
  | @any ps qs same =>
    intro hS
    rw [effect_any, effect_any]
    exact Effect.any_congr hlat (hwithin ps hS) (hmap same)
  | grant g hc =>
    intro _
    rw [effect_grant, effect_grant, hc.holds]
  | @allArm before p q after _ ih =>
    intro hS
    have harm := ih fun o ho => hS o (mem_outcomesOf.mpr ⟨p, by simp, ho⟩)
    rw [effect_all, effect_all, List.map_append, List.map_append, List.map_cons, List.map_cons,
      harm]
  | @anyArm before p q after _ ih =>
    intro hS
    have harm := ih fun o ho => hS o (mem_outcomesOf.mpr ⟨p, by simp, ho⟩)
    rw [effect_any, effect_any, List.map_append, List.map_append, List.map_cons, List.map_cons,
      harm]
  | orElse _ _ ihp ihf =>
    intro hS
    rw [Policy.outcomes, List.forall_mem_append] at hS
    rw [effect_orElse, effect_orElse, ihp hS.1, ihf hS.2]

end Policies

section Checked

variable {O : Type} [Lattice O] [DecidableEq O]

theorem arms_within {values : List O} (hcheck : checkLattice values = .ok ()) (facts : KnownFacts)
    {ps : List (Policy O)} (hS : ∀ o ∈ Policy.outcomesOf ps, o ∈ values) :
    ∀ e ∈ ps.map fun p => (evaluate p facts).effect, e.Within {o | o ∈ values} := by
  refine List.forall_mem_map.mpr fun p hp => ?_
  rw [effect_evaluate]
  refine p.effect_within (latticeOn_of_checkLattice hcheck) _ fun o ho => ?_
  exact hS o (Policy.mem_outcomesOf.mpr ⟨p, hp, ho⟩)

/-- Over outcomes that pass the lattice check, rearranging a policy leaves its effect alone, the
outcome of a conjunction is the greatest lower bound of its arms' outcomes among those checked, and
that of a disjunction the least upper bound of its permitting arms' outcomes. -/
theorem effect_rearranged (values : List O) (hcheck : checkLattice values = .ok ())
    (facts : KnownFacts) :
    (∀ p q : Policy O, (∀ o ∈ p.outcomes, o ∈ values) → p.Rearranged q →
      (evaluate q facts).effect = (evaluate p facts).effect) ∧
    (∀ (ps : List (Policy O)) (g : O), (∀ o ∈ (Policy.all ps).outcomes, o ∈ values) →
      (evaluate (.all ps) facts).effect = .permit g →
      g ∈ values ∧
      (∀ p ∈ ps, ∃ o, (evaluate p facts).effect = .permit o ∧ Lattice.meet g o = g) ∧
      ∀ c ∈ values, (∀ p ∈ ps, ∀ o, (evaluate p facts).effect = .permit o →
        Lattice.meet c o = c) → Lattice.meet c g = c) ∧
    (∀ (ps : List (Policy O)) (g : O), (∀ o ∈ (Policy.any ps).outcomes, o ∈ values) →
      (evaluate (.any ps) facts).effect = .permit g →
      g ∈ values ∧
      (∀ p ∈ ps, ∀ o, (evaluate p facts).effect = .permit o → Lattice.meet o g = o) ∧
      ∀ c ∈ values, (∀ p ∈ ps, ∀ o, (evaluate p facts).effect = .permit o →
        Lattice.meet o c = o) → Lattice.meet g c = g) := by
  have hlat := latticeOn_of_checkLattice hcheck
  refine ⟨fun p q hS h => ?_, fun ps g hS hg => ?_, fun ps g hS hg => ?_⟩
  · rw [effect_evaluate, effect_evaluate]
    exact (h.effect_eq hlat facts.truth hS).symm
  · have hin := arms_within hcheck facts hS
    rw [effect_evaluate_all] at hg
    obtain ⟨hlower, hgreatest⟩ := Effect.all_greatest hlat hin hg
    refine ⟨Effect.all_within hlat hin g hg, fun p hp => ?_, fun c hc hbelow => ?_⟩
    · exact hlower _ (List.mem_map.mpr ⟨p, hp, rfl⟩)
    · refine hgreatest c hc fun o ho => ?_
      obtain ⟨p, hp, hpo⟩ := List.mem_map.mp ho
      exact hbelow p hp o hpo
  · have hin := arms_within hcheck facts hS
    rw [effect_evaluate_any] at hg
    obtain ⟨hupper, hleast⟩ := Effect.any_least hlat hin hg
    refine ⟨Effect.any_within hlat hin g hg, fun p hp o ho => ?_, fun c hc habove => ?_⟩
    · exact hupper o (List.mem_map.mpr ⟨p, hp, ho⟩)
    · refine hleast c hc fun o ho => ?_
      obtain ⟨p, hp, hpo⟩ := List.mem_map.mp ho
      exact habove p hp o hpo

end Checked

open Sample in
theorem effect_rearranged_scopes :
    checkLattice [Scope.left, .right, .both, .none] = .ok () ∧
    (∀ p q : Policy Scope, (∀ o ∈ p.outcomes, o ∈ [Scope.left, .right, .both, .none]) →
      p.Rearranged q →
      (evaluate q KnownFacts.new).effect = (evaluate p KnownFacts.new).effect) :=
  ⟨by decide, (effect_rearranged _ (by decide) KnownFacts.new).1⟩

end Gatekeep
