import Gatekeep.Fold
import Gatekeep.Reduction.Policy

/-!
# Gatekeep.Obligations

Where the obligations of a result come from: each one is that of a grant of the policy
(`mem_obligations_resultWith`). So a policy without obligations leaves a residue without
obligations (`carriesObligation_residue`). The obligations that a residual produces are those of
clauses that hold, with the ones discharged during partial evaluation among them
(`obligations_from_clauses_that_hold`).
-/

namespace Gatekeep

section Obligations

variable {O : Type}

theorem mem_unionObligations {o : ObligationId} (target source : List ObligationId) :
    o ∈ unionObligations target source ↔ o ∈ target ∨ o ∈ source := by
  unfold unionObligations
  induction source generalizing target with
  | nil => simp
  | cons o' source ih =>
    rw [List.foldl_cons, ih, List.mem_cons]
    split
    · rename_i h
      have hmem : o' ∈ target := by simpa using h
      constructor
      · rintro (h | h)
        · exact .inl h
        · exact .inr (.inr h)
      · rintro (h | rfl | h)
        · exact .inl h
        · exact .inl hmem
        · exact .inr h
    · rw [List.mem_append, List.mem_singleton, or_assoc]

variable [Lattice O] [DecidableEq O] {o : ObligationId}

theorem Permit.mem_obligations_meet {p q : Permit O} (h : o ∈ (p.meet q).obligations) :
    o ∈ p.obligations ∨ o ∈ q.obligations := by
  unfold meet at h
  dsimp only at h
  split at h
  · exact .inl h
  · split at h
    · exact .inr h
    · cases h

theorem Permit.mem_obligations_join {p q : Permit O} (h : o ∈ (p.join q).obligations) :
    o ∈ p.obligations ∨ o ∈ q.obligations := by
  unfold join at h
  dsimp only at h
  split at h
  · exact (mem_unionObligations _ _).mp h
  · split at h
    · exact .inr h
    · split at h
      · exact .inl h
      · exact (mem_unionObligations _ _).mp h

/-- The combinations make up no obligation. -/
theorem EvalResult.closed_obligations {P : ObligationId → Prop} :
    Closed fun r : EvalResult O => ∀ o ∈ r.obligations, P o where
  constant _ _ ho := by cases ho
  generic _ ho := by cases ho
  permitted _ _ hr _ := hr
  denied _ _ _ _ ho := by cases ho
  meet _ _ hp hq o ho := (Permit.mem_obligations_meet ho).elim (hp o) (hq o)
  join _ _ hp hq o ho := (Permit.mem_obligations_join ho).elim (hp o) (hq o)

/-- Each obligation of a result is one of a grant's. -/
theorem Policy.mem_obligations_resultWith {leaf : Grant O → EvalResult O} (p : Policy O)
    (ho : o ∈ (p.resultWith leaf).obligations) : ∃ g ∈ p.grants, o ∈ (leaf g).obligations := by
  have hclosed := EvalResult.closed_obligations (O := O)
    (P := fun o => ∃ g ∈ p.grants, o ∈ (leaf g).obligations)
  exact hclosed.resultWith p (fun g hg _ ho => ⟨g, hg, ho⟩) o ho

/-! ## Policies without obligations -/

/-- No grant of the policy carries an obligation. -/
def Policy.ObligationFree (p : Policy O) : Prop := ∀ g ∈ p.grants, g.obligations = []

instance (p : Policy O) : Decidable p.ObligationFree :=
  inferInstanceAs (Decidable (∀ g ∈ p.grants, g.obligations = []))

omit [Lattice O] [DecidableEq O] in
theorem Policy.grants_settledFirst {u : FactId → Option Bool} {g : Grant O} (p : Policy O) :
    g ∈ (p.settledFirst u).grants ↔ g ∈ p.grants := by
  have harms : ∀ ps : List (Policy O),
      (∀ p ∈ ps, g ∈ (p.settledFirst u).grants ↔ g ∈ p.grants) →
      (g ∈ grantsOf (settledArms u ps ++ openArms u ps) ↔ g ∈ grantsOf ps) := by
    intro ps ih
    simp only [mem_grantsOf, (settledFirst_perm u ps).mem_iff, List.mem_map, ↓existsAndEq,
      and_true]
    exact exists_congr fun p => and_congr_right (ih p)
  induction p using Policy.ind with
  | permit out => rfl
  | deny => rfl
  | grant g' => rfl
  | all ps ih => exact harms ps ih
  | any ps ih => exact harms ps ih
  | orElse primary fallback ihp ihf =>
    rw [settledFirst, grants, grants, List.mem_append, List.mem_append]
    exact or_congr ihp ihf

section Residue

variable {u : FactId → Option Bool} {w : FactId → Bool}

theorem Policy.obligations_settledResult {p : Policy O} (h : p.ObligationFree) :
    (p.settledResult u w).obligations = [] := by
  refine List.eq_nil_iff_forall_not_mem.mpr fun o ho => ?_
  obtain ⟨g, hg, ho⟩ := mem_obligations_resultWith _ ho
  have hobs := h g ((grants_settledFirst p).mp hg)
  unfold Grant.result grantResult at ho
  split at ho
  · rw [hobs] at ho; cases ho
  · cases ho

theorem Policy.carriesObligation_constant {p : Policy O} (h : p.ObligationFree) :
    (p.settledResult u w).constant.carriesObligation = false := by
  have hobs := obligations_settledResult (u := u) (w := w) h
  unfold EvalResult.constant policyFromDecision EvalResult.toDecision
  split
  · rw [ResidualPolicy.carriesObligation_permitWithTrace, hobs]
    rfl
  · rfl
  · rfl
  · rfl

omit [Lattice O] [DecidableEq O] in
theorem Policy.ObligationFree.arm {ps : List (Policy O)}
    (h : ∀ g ∈ grantsOf ps, g.obligations = []) {p : Policy O} (hp : p ∈ ps) : p.ObligationFree :=
  fun g hg => h g (mem_grantsOf.mpr ⟨p, hp, hg⟩)

theorem Policy.carriesObligation_residues {ps : List (Policy O)}
    (h : ∀ g ∈ grantsOf ps, g.obligations = [])
    (ih : ∀ p ∈ ps, p.ObligationFree → (residue u w p).carriesObligation = false) :
    (residues u w ps).any ResidualPolicy.carriesObligation = false := by
  rw [residues_eq_map, List.any_map, List.any_eq_false]
  intro p hp
  have hmem := (List.mem_filter.mp hp).1
  simp [ih p hmem (.arm h hmem)]

theorem Policy.carriesObligation_grantedArms {ps : List (Policy O)}
    (h : ∀ g ∈ grantsOf ps, g.obligations = []) :
    (grantedArms u w ps).any ResidualPolicy.carriesObligation = false := by
  rw [grantedArms, List.any_map, List.any_eq_false]
  intro p hp
  simp [carriesObligation_constant (.arm h (List.mem_filter.mp hp).1)]

/-- What is left of a policy without obligations has none either. -/
theorem Policy.carriesObligation_residue (p : Policy O) :
    p.ObligationFree → (residue u w p).carriesObligation = false := by
  induction p using Policy.ind with
  | permit out => exact fun _ => rfl
  | deny => exact fun _ => rfl
  | grant g =>
    intro h
    rw [residue, ResidualPolicy.carriesObligation_grant, h g List.mem_cons_self]
    rfl
  | all ps ih =>
    intro h
    rw [residue, ResidualPolicy.carriesObligation_all, List.any_append,
      carriesObligation_grantedArms h, carriesObligation_residues h ih]
    rfl
  | any ps ih =>
    intro h
    rw [residue, ResidualPolicy.carriesObligation_any, List.any_append,
      carriesObligation_residues h ih, Bool.or_false]
    split
    · rw [List.any_eq_false]
      intro r hr
      simp only [firstDenied, Option.mem_toList, Option.map_eq_some_iff] at hr
      obtain ⟨q, hq, rfl⟩ := hr
      simp [carriesObligation_constant (.arm h (List.mem_of_find?_eq_some hq))]
    · exact carriesObligation_grantedArms h
  | orElse primary fallback ihp ihf =>
    intro h
    rw [ObligationFree, grants, List.forall_mem_append] at h
    rw [residue]
    split
    · exact ihf h.2
    · rw [ResidualPolicy.carriesObligation_orElse, ihp h.1, Bool.false_or]
      split
      · exact ihf h.2
      · exact carriesObligation_constant h.2

end Residue

/-! ## The clauses that hold -/

section Leaves

variable {v : FactId → Bool}

omit [Lattice O] [DecidableEq O] in
theorem ResidualPolicy.carriesObligation_eq_any_leaves (r : ResidualPolicy O) :
    r.carriesObligation = r.leaves.any carriesObligation := by
  have harms : ∀ rs : List (ResidualPolicy O),
      (∀ r ∈ rs, r.carriesObligation = r.leaves.any carriesObligation) →
      rs.any carriesObligation = (leavesOf rs).any carriesObligation := by
    intro rs ih
    rw [Bool.eq_iff_iff, leavesOf_eq_flatMap, List.any_flatMap, List.any_eq_true, List.any_eq_true]
    exact exists_congr fun r => and_congr_right fun hr => by rw [ih r hr]
  induction r using ResidualPolicy.ind with
  | permit o => rfl
  | deny => rfl
  | permitWithTrace o obs satisfied label => simp [leaves]
  | denyWithTrace denied unsatisfied label reason shape => rfl
  | grant g => simp [leaves]
  | all rs ih => exact (carriesObligation_all rs).trans (harms rs ih)
  | any rs ih => exact (carriesObligation_any rs).trans (harms rs ih)
  | orElse primary fallback ihp ihf => rw [carriesObligation_orElse, leaves, List.any_append, ihp, ihf]

/-- The obligations a leaf has when it permits. -/
def ResidualPolicy.clauseObligations (v : FactId → Bool) : ResidualPolicy O → List ObligationId
  | .permitWithTrace _ obligations _ _ => obligations
  | .grant g => if g.condition.holds v then g.obligations else []
  | _ => []

omit [Lattice O] [DecidableEq O] in
theorem Grant.obligations_result (g : Grant O) :
    (g.result v).obligations = if g.condition.holds v then g.obligations else [] := by
  rw [Grant.result, grantResult, Condition.eval]
  split <;> rfl

/-- Each obligation of a result is carried by a leaf that permits. -/
theorem ResidualPolicy.mem_obligations_result (r : ResidualPolicy O)
    (ho : o ∈ (r.result v).obligations) : ∃ leaf ∈ r.leaves, o ∈ leaf.clauseObligations v := by
  have hclosed := EvalResult.closed_obligations (O := O)
    (P := fun o => ∃ leaf ∈ r.leaves, o ∈ leaf.clauseObligations v)
  refine hclosed.result ?_ ?_ ?_ r (List.Subset.refl _) o ho
  · exact fun out obs satisfied label hleaf _ ho => ⟨_, hleaf, ho⟩
  · intro denied unsatisfied label reason shape _ _ ho
    cases ho
  · intro g hg o ho
    rw [g.obligations_result] at ho
    exact ⟨_, hg, ho⟩

/-- Each obligation of a decision is carried by a clause that permits: by a settled permit, or by a
grant whose condition holds. So a residual or a policy that carries no obligation decides without
one, whatever the facts. -/
theorem obligations_from_clauses_that_hold (r : ResidualPolicy O) (p : Policy O)
    (facts : KnownFacts) :
    (∀ o ∈ (evaluateResidual r facts).obligations,
      (∃ outcome obligations satisfied label,
        .permitWithTrace outcome obligations satisfied label ∈ r.leaves ∧ o ∈ obligations) ∨
      ∃ g, .grant g ∈ r.leaves ∧ g.condition.holds facts.truth = true ∧ o ∈ g.obligations) ∧
    (r.carriesObligation = false → (evaluateResidual r facts).obligations = []) ∧
    (∀ o ∈ (evaluate p facts).obligations,
      ∃ g ∈ p.grants, g.condition.holds facts.truth = true ∧ o ∈ g.obligations) ∧
    (p.ObligationFree → (evaluate p facts).obligations = []) := by
  have hresidual : ∀ o ∈ (evaluateResidual r facts).obligations,
      (∃ outcome obligations satisfied label,
        .permitWithTrace outcome obligations satisfied label ∈ r.leaves ∧ o ∈ obligations) ∨
      ∃ g, .grant g ∈ r.leaves ∧ g.condition.holds facts.truth = true ∧ o ∈ g.obligations := by
    intro o ho
    rw [evaluateResidual_eq] at ho
    obtain ⟨leaf, hleaf, ho⟩ := r.mem_obligations_result ho
    cases leaf with
    | permitWithTrace outcome obligations satisfied label =>
      exact .inl ⟨outcome, obligations, satisfied, label, hleaf, ho⟩
    | grant g =>
      rw [ResidualPolicy.clauseObligations, List.mem_ite_nil_right] at ho
      exact .inr ⟨g, hleaf, ho⟩
    | _ => cases ho
  have hpolicy : ∀ o ∈ (evaluate p facts).obligations,
      ∃ g ∈ p.grants, g.condition.holds facts.truth = true ∧ o ∈ g.obligations := by
    intro o ho
    rw [evaluate_eq] at ho
    obtain ⟨g, hg, ho⟩ := p.mem_obligations_resultWith ho
    rw [g.obligations_result, List.mem_ite_nil_right] at ho
    exact ⟨g, hg, ho⟩
  refine ⟨hresidual, fun hcarries => ?_, hpolicy, fun hfree => ?_⟩
  · rw [r.carriesObligation_eq_any_leaves, List.any_eq_false] at hcarries
    refine List.eq_nil_iff_forall_not_mem.mpr fun o ho => ?_
    rcases hresidual o ho with ⟨outcome, obs, satisfied, label, hleaf, ho⟩ | ⟨g, hleaf, -, ho⟩
    · have hnone := hcarries _ hleaf
      simp only [ResidualPolicy.carriesObligation_permitWithTrace, Bool.not_eq_true,
        Bool.not_eq_false', List.isEmpty_iff] at hnone
      rw [hnone] at ho
      cases ho
    · have hnone := hcarries _ hleaf
      simp only [ResidualPolicy.carriesObligation_grant, Bool.not_eq_true, Bool.not_eq_false',
        List.isEmpty_iff] at hnone
      rw [hnone] at ho
      cases ho
  · refine List.eq_nil_iff_forall_not_mem.mpr fun o ho => ?_
    obtain ⟨g, hg, -, ho⟩ := hpolicy o ho
    rw [hfree g hg] at ho
    cases ho

end Leaves

end Obligations

end Gatekeep
