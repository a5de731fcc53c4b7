import Gatekeep.Decisive
import Gatekeep.LatticeCheck

/-!
# Gatekeep.Decisive.Order

What the order of the arms does to the obligations of a decision. The combined outcome is the same
in every order, but the obligations are carried along a left fold that looks at the outcome so far:
`obligations_perm_iff` says for which arms every order gives the same ones.

Where the outcomes are a total order with its maximum as join, a disjunction has the obligations of
the arms with the greatest outcome (`obligations_any_greatest`).
-/

namespace Gatekeep

variable {O : Type}

section Order

variable [Lattice O]

/-- For each obligation: no arm that has the combined outcome carries it, or all of them do and the
other arms do not combine to that outcome by themselves. -/
def AllOrderFree [DecidableEq O] (ds : List (Decision O)) : Prop :=
  ∀ x : ObligationId,
    (∀ d ∈ ds, d.effect = Effect.all (ds.map Decision.effect) → x ∉ d.obligations) ∨
    (∀ d ∈ ds, d.effect = Effect.all (ds.map Decision.effect) → x ∈ d.obligations) ∧
      Effect.all ((ds.filter fun d => d.effect ≠ Effect.all (ds.map Decision.effect)).map
        Decision.effect) ≠ Effect.all (ds.map Decision.effect)

/-- For each obligation: an arm that has the combined outcome carries it, or the arms without it do
not combine to that outcome, or each arm that carries it lies under a grade `b` that every arm is
either at most or strictly above, and some arm is strictly above. -/
def AnyOrderFree (ds : List (Decision O)) : Prop :=
  ∀ x : ObligationId,
    (∃ d ∈ ds, d.effect = Effect.any (ds.map Decision.effect) ∧ x ∈ d.obligations) ∨
    Effect.any ((ds.filter fun d => x ∉ d.obligations).map Decision.effect) ≠
      Effect.any (ds.map Decision.effect) ∨
    ∀ d ∈ ds, x ∈ d.obligations → ∃ b : Effect O, d.effect.AtMost b ∧
      (∀ c ∈ ds, c.effect.AtMost b ∨ b.Below c.effect) ∧ ∃ c ∈ ds, b.Below c.effect

theorem anyOrderFree_iff [SemilatticeSup O] (hjoin : ∀ a b : O, Lattice.join a b = a ⊔ b)
    (ds : List (Decision O)) :
    AnyOrderFree ds ↔ Graded.JoinOrderFree (ds.map Decision.raised) := by
  have hgrade : ∀ l : List (Decision O), Graded.grade (l.map Decision.raised) =
      (Effect.any (l.map Decision.effect)).toWithBot :=
    grade_raised hjoin Decision.effect Decision.obligations
  refine forall_congr' fun x => or_congr ?_ (or_congr (not_congr ?_) ?_)
  · rw [hgrade]
    simp only [List.mem_map, exists_exists_and_eq_and]
    refine exists_congr fun d => and_congr_right fun _ => and_congr ?_ Iff.rfl
    exact Effect.toWithBot_injective.eq_iff.symm
  · rw [List.filter_map, hgrade, hgrade, Effect.toWithBot_injective.eq_iff]
    refine iff_of_eq (congrArg (fun l => Effect.any (List.map Decision.effect l) = _)
      (List.filter_congr fun d _ => ?_))
    exact decide_eq_decide.mpr Iff.rfl
  · simp only [List.forall_mem_map]
    refine forall₂_congr fun d _ => imp_congr_right fun _ => ?_
    rw [Effect.toWithBot_surjective.exists]
    refine exists_congr fun b => and_congr (Effect.atMost_iff hjoin _ _) (and_congr ?_ ?_)
    · simp only [List.forall_mem_map]
      exact forall₂_congr fun c _ =>
        or_congr (Effect.atMost_iff hjoin _ _) (Effect.below_iff hjoin _ _)
    · simp only [List.mem_map, exists_exists_and_eq_and]
      exact exists_congr fun c => and_congr_right fun _ => Effect.below_iff hjoin _ _

theorem allOrderFree_iff [DecidableEq O] [SemilatticeInf O]
    (hmeet : ∀ a b : O, Lattice.meet a b = a ⊓ b) {ds : List (Decision O)}
    (hp : ∀ d ∈ ds, d.effect.isPermit = true) :
    AllOrderFree ds ↔ Graded.MeetOrderFree (ds.map Decision.lowered) := by
  have hfloor : ∀ l : List (Decision O), (∀ d ∈ l, d ∈ ds) →
      Graded.floor (l.map Decision.lowered) =
        (Effect.all (l.map Decision.effect)).toWithTop := fun l hl =>
    floor_lowered hmeet Decision.effect Decision.obligations fun d hd => hp d (hl d hd)
  have hds := hfloor ds fun _ h => h
  have heq : ∀ d : Decision O, d.lowered.1 = Graded.floor (ds.map Decision.lowered) ↔
      d.effect = Effect.all (ds.map Decision.effect) := by
    intro d
    rw [hds]
    exact Effect.toWithTop_injective.eq_iff
  refine forall_congr' fun x => or_congr ?_ (and_congr ?_ (not_congr ?_))
  · simp only [List.forall_mem_map]
    exact forall₂_congr fun d _ => imp_congr (heq d).symm Iff.rfl
  · simp only [List.forall_mem_map]
    exact forall₂_congr fun d _ => imp_congr (heq d).symm Iff.rfl
  · rw [List.filter_map, hfloor _ fun _ h => List.mem_of_mem_filter h]
    simp only [hds, Effect.toWithTop_injective.eq_iff]
    refine iff_of_eq (congrArg (fun l => Effect.all (List.map Decision.effect l) = _)
      (List.filter_congr fun d _ => ?_))
    refine decide_eq_decide.mpr (not_congr ?_)
    rw [← heq d, hds]

variable [DecidableEq O] [Lattice.Lawful O]

theorem any_perm_iff (ps : List (Policy O)) (facts : KnownFacts) :
    (∀ qs, qs.Perm ps → ∀ x, x ∈ (evaluate (.any qs) facts).obligations ↔
        x ∈ (evaluate (.any ps) facts).obligations) ↔
      AnyOrderFree (ps.map fun p => evaluate p facts) := by
  let _ := Lattice.Lawful.joinOrder O
  have hjoin : ∀ a b : O, Lattice.join a b = a ⊔ b := fun _ _ => rfl
  simp only [mem_obligations_evaluate_any hjoin]
  rw [anyOrderFree_iff hjoin, ← Graded.joinAll_perm_iff, List.map_map]
  exact (Graded.forall_perm_map_iff (f := fun arms => (Graded.joinAll arms).2)).symm

omit [Lattice.Lawful O] in
/-- A conjunction with a denying arm has no obligations. -/
theorem obligations_all_of_deny {ps : List (Policy O)} {facts : KnownFacts} {p : Policy O}
    (hp : p ∈ ps) (hd : (evaluate p facts).effect = .deny) :
    (evaluate (.all ps) facts).obligations = [] := by
  refine ((coherent_evaluate _ facts).deny ?_).1
  rw [effect_evaluate_all]
  exact Effect.all_of_deny (List.mem_map.mpr ⟨p, hp, hd⟩)

theorem all_perm_iff (ps : List (Policy O)) (facts : KnownFacts) :
    (∀ qs, qs.Perm ps → ∀ x, x ∈ (evaluate (.all qs) facts).obligations ↔
        x ∈ (evaluate (.all ps) facts).obligations) ↔
      AllOrderFree (ps.map fun p => evaluate p facts) := by
  by_cases hp : ∀ p ∈ ps, (evaluate p facts).isPermit = true
  · let _ := Lattice.Lawful.meetOrder O
    have hmeet : ∀ a b : O, Lattice.meet a b = a ⊓ b := fun _ _ => rfl
    have htop : ∀ t ∈ ps.map fun p => (evaluate p facts).lowered, t.1 ≠ ⊤ := by
      refine List.forall_mem_map.mpr fun p hmem => ?_
      obtain ⟨o, ho⟩ := Effect.isPermit_eq_true.mp (hp p hmem)
      simp [Decision.lowered, lowered, ho, Effect.toWithTop]
    rw [allOrderFree_iff hmeet (List.forall_mem_map.mpr hp), List.map_map,
      show (Decision.lowered ∘ fun p => evaluate p facts) =
        (fun p : Policy O => (evaluate p facts).lowered) from rfl,
      ← Graded.meetAll_perm_iff htop]
    refine Iff.trans ?_ (Graded.forall_perm_map_iff (f := fun arms => (Graded.meetAll arms).2)).symm
    refine forall₂_congr fun qs hqs => forall_congr' fun x => ?_
    have hq : ∀ q ∈ qs, (evaluate q facts).isPermit = true :=
      fun q hq => hp q (hqs.mem_iff.mp hq)
    rw [mem_obligations_evaluate_all hmeet hq, mem_obligations_evaluate_all hmeet hp]
  · -- some arm denies, so no order has any obligation
    obtain ⟨p, hmem, hdeny⟩ : ∃ p ∈ ps, (evaluate p facts).effect = .deny := by
      simp only [not_forall, Bool.not_eq_true] at hp
      obtain ⟨p, hmem, hd⟩ := hp
      exact ⟨p, hmem, Effect.isPermit_eq_false.mp hd⟩
    refine iff_of_true (fun qs hqs x => ?_) fun x => .inl ?_
    · rw [obligations_all_of_deny (hqs.mem_iff.mpr hmem) hdeny, obligations_all_of_deny hmem hdeny]
    · rw [Effect.all_of_deny (List.mem_map.mpr ⟨_, List.mem_map_of_mem hmem, hdeny⟩)]
      refine List.forall_mem_map.mpr fun q _ hq => ?_
      rw [((coherent_evaluate q facts).deny hq).1]
      exact List.not_mem_nil

/-- For which arms the obligations of a conjunction and of a disjunction are the same in every
order. -/
theorem obligations_perm_iff (ps : List (Policy O)) (facts : KnownFacts) :
    ((∀ qs, qs.Perm ps → ∀ x, x ∈ (evaluate (.all qs) facts).obligations ↔
        x ∈ (evaluate (.all ps) facts).obligations) ↔
      AllOrderFree (ps.map fun p => evaluate p facts)) ∧
    ((∀ qs, qs.Perm ps → ∀ x, x ∈ (evaluate (.any qs) facts).obligations ↔
        x ∈ (evaluate (.any ps) facts).obligations) ↔
      AnyOrderFree (ps.map fun p => evaluate p facts)) :=
  ⟨all_perm_iff ps facts, any_perm_iff ps facts⟩

end Order

namespace Sample

def grantScope (scope : Scope) (obligations : List ObligationId) : Policy Scope :=
  .grant ⟨scope, .always, .none, .forbidden, obligations, .none⟩

def reportBoth : ObligationId := ⟨"report-both", by decide⟩

end Sample

open Sample in
theorem obligations_perm_iff_scopes :
    ((∀ qs, qs.Perm [grantScope .both [notifyOwner], grantScope .left []] →
        ∀ x, x ∈ (evaluate (.all qs) KnownFacts.new).obligations ↔
          x ∈ (evaluate (.all [grantScope .both [notifyOwner], grantScope .left []])
            KnownFacts.new).obligations) ↔
      AllOrderFree ([grantScope .both [notifyOwner], grantScope .left []].map fun p =>
        evaluate p KnownFacts.new)) ∧
    ((∀ qs, qs.Perm [grantScope .both [notifyOwner], grantScope .left []] →
        ∀ x, x ∈ (evaluate (.any qs) KnownFacts.new).obligations ↔
          x ∈ (evaluate (.any [grantScope .both [notifyOwner], grantScope .left []])
            KnownFacts.new).obligations) ↔
      AnyOrderFree ([grantScope .both [notifyOwner], grantScope .left []].map fun p =>
        evaluate p KnownFacts.new)) :=
  obligations_perm_iff _ _

open Sample in
/-- On a tie a conjunction keeps the obligations of its first arm only. A disjunction that first
reaches an outcome by joining two others keeps their obligations beside those of an arm that has
the outcome itself. -/
theorem obligations_depend_on_order :
    (¬ ∀ x, x ∈ (evaluate (.all [grantScope .both [notifyOwner], grantScope .both [logAccess]])
          KnownFacts.new).obligations ↔
        x ∈ (evaluate (.all [grantScope .both [logAccess], grantScope .both [notifyOwner]])
          KnownFacts.new).obligations) ∧
      ¬ ∀ x, x ∈ (evaluate (.any [grantScope .left [notifyOwner], grantScope .right [logAccess],
          grantScope .both [reportBoth]]) KnownFacts.new).obligations ↔
        x ∈ (evaluate (.any [grantScope .both [reportBoth], grantScope .left [notifyOwner],
          grantScope .right [logAccess]]) KnownFacts.new).obligations := by
  constructor
  · intro h
    have hx := h notifyOwner
    revert hx
    decide
  · intro h
    have hx := h notifyOwner
    revert hx
    decide

/-! ## Total orders -/

section Total

variable [Lattice O] [LinearOrder O] [DecidableEq O]

/-- Over a total order a disjunction has exactly the obligations of its arms with the greatest
outcome. -/
theorem obligations_any_greatest (hjoin : ∀ a b : O, Lattice.join a b = max a b)
    (ps : List (Policy O)) (facts : KnownFacts) (x : ObligationId) :
    x ∈ (evaluate (.any ps) facts).obligations ↔
      ∃ p ∈ ps, ∃ o, (evaluate p facts).effect = .permit o ∧
        (∀ q ∈ ps, ∀ o', (evaluate q facts).effect = .permit o' → o' ≤ o) ∧
        x ∈ (evaluate p facts).obligations := by
  rw [mem_obligations_evaluate_any hjoin, Graded.mem_joinAll_linear]
  simp only [List.mem_map, exists_exists_and_eq_and]
  refine exists_congr fun p => and_congr_right fun hmem => ?_
  constructor
  · rintro ⟨hgrade, hx⟩
    have hx : x ∈ (evaluate p facts).obligations := hx
    -- an arm with obligations permits
    cases he : (evaluate p facts).effect with
    | deny =>
      rw [((coherent_evaluate p facts).deny he).1] at hx
      cases hx
    | permit o =>
      refine ⟨o, rfl, fun q hq o' ho' => ?_, hx⟩
      have hle := Graded.le_grade (List.mem_map_of_mem (f := fun p => (evaluate p facts).raised) hq)
      rw [← hgrade] at hle
      simpa [Decision.raised, raised, he, ho', Effect.toWithBot] using hle
  · rintro ⟨o, ho, hmax, hx⟩
    refine ⟨le_antisymm (Graded.le_grade (List.mem_map_of_mem hmem)) ?_, hx⟩
    refine Graded.grade_le.mpr (List.forall_mem_map.mpr fun q hq => ?_)
    cases he : (evaluate q facts).effect with
    | deny => simp [Decision.raised, raised, he, Effect.toWithBot]
    | permit o' => simpa [Decision.raised, raised, he, ho, Effect.toWithBot] using hmax q hq o' he

end Total

namespace Sample

theorem Tier.join_eq_max (a b : Tier) : Lattice.join a b = max a b := by
  cases a <;> cases b <;> rfl

def grantTier (tier : Tier) (obligations : List ObligationId) : Policy Tier :=
  .grant ⟨tier, .always, none, .forbidden, obligations, none⟩

end Sample

open Sample in
theorem obligations_any_greatest_tiers :
    logAccess ∈ (evaluate (.any [grantTier .full [notifyOwner], grantTier .shared [],
        grantTier .full [logAccess]]) KnownFacts.new).obligations ↔
      ∃ p ∈ [grantTier .full [notifyOwner], grantTier .shared [], grantTier .full [logAccess]],
        ∃ o, (evaluate p KnownFacts.new).effect = .permit o ∧
          (∀ q ∈ [grantTier .full [notifyOwner], grantTier .shared [], grantTier .full [logAccess]],
            ∀ o', (evaluate q KnownFacts.new).effect = .permit o' → o' ≤ o) ∧
          logAccess ∈ (evaluate p KnownFacts.new).obligations :=
  obligations_any_greatest Tier.join_eq_max _ _ _

end Gatekeep
