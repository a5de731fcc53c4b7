import Gatekeep.CompletionTrace
import Gatekeep.Obligations

/-!
# Gatekeep.Reduction.Open

A pending residual asks only about unknown facts. Its grants are grants of the policy whose
conditions the known facts do not settle, each with what is left of its condition (`grants_residue`).
What is left of an open condition has at least one fact, no known one, and no constant in it
(`residue_open`), so the residual asks about unknown facts of the policy (`facts_residue`).
-/

namespace Gatekeep

/-! ## Conditions -/

namespace Condition

mutual

/-- No part of the condition is a constant: neither `always` nor `never`, nor an empty conjunction or
disjunction. -/
def NoConstants : Condition → Prop
  | .always | .never => False
  | .has _ => True
  | .not inner => NoConstants inner
  | .all conditions | .any conditions => conditions ≠ [] ∧ NoConstantsEach conditions

def NoConstantsEach : List Condition → Prop
  | [] => True
  | c :: cs => NoConstants c ∧ NoConstantsEach cs

end

theorem noConstantsEach_iff {cs : List Condition} :
    NoConstantsEach cs ↔ ∀ c ∈ cs, c.NoConstants := by
  induction cs with
  | nil => simp [NoConstantsEach]
  | cons c cs ih => rw [NoConstantsEach, ih, List.forall_mem_cons]

variable {u : FactId → Option Bool}

/-- What makes the residue of a condition a question about unknown facts of it. -/
structure Open (u : FactId → Option Bool) (c residue : Condition) : Prop where
  facts : ∀ f ∈ residue.facts, f ∈ c.facts ∧ u f = none
  nonempty : residue.facts ≠ []
  noConstants : residue.NoConstants

/-- A conjunction or disjunction of open residues is one, and so is a single one left by itself. -/
theorem open_closeAs {cs : List Condition} {combine : List Condition → Condition}
    (hfacts : ∀ l, (combine l).facts = factsOf l)
    (hconst : ∀ l, (combine l).NoConstants ↔ l ≠ [] ∧ NoConstantsEach l)
    (hopen : none ∈ cs.map (kleene u))
    (ih : ∀ c ∈ cs, c.kleene u = none → Open u c (c.residue u)) :
    Open u (combine cs) (closeAs combine (residues u cs)) := by
  have harms : ∀ r ∈ residues u cs, ∃ c ∈ cs, Open u c r := by
    rw [residues_eq_map]
    refine List.forall_mem_map.mpr fun c hc => ?_
    rw [List.mem_filter, decide_eq_true_eq] at hc
    exact ⟨c, hc.1, ih c hc.1 hc.2⟩
  have hne : residues u cs ≠ [] := fun h => (residues_eq_nil u).mp h hopen
  have hmem : ∀ c ∈ cs, ∀ f ∈ c.facts, f ∈ (combine cs).facts := by
    intro c hc f hf
    rw [hfacts, factsOf_eq_flatMap, List.mem_flatMap]
    exact ⟨c, hc, hf⟩
  cases hl : residues u cs with
  | nil => exact absurd hl hne
  | cons r rs =>
    rw [hl] at harms
    cases rs with
    | nil =>
      obtain ⟨c, hc, hr⟩ := harms r List.mem_cons_self
      exact ⟨fun f hf => ⟨hmem c hc f (hr.facts f hf).1, (hr.facts f hf).2⟩, hr.nonempty,
        hr.noConstants⟩
    | cons r' rs =>
      have hclose : closeAs combine (r :: r' :: rs) = combine (r :: r' :: rs) := rfl
      rw [hclose]
      refine ⟨fun f hf => ?_, fun h => ?_, (hconst _).mpr ⟨List.cons_ne_nil _ _, ?_⟩⟩
      · rw [hfacts, factsOf_eq_flatMap, List.mem_flatMap] at hf
        obtain ⟨r'', hr'', hf⟩ := hf
        obtain ⟨c, hc, ho⟩ := harms r'' hr''
        exact ⟨hmem c hc f (ho.facts f hf).1, (ho.facts f hf).2⟩
      · obtain ⟨c, -, ho⟩ := harms r List.mem_cons_self
        rw [hfacts, factsOf, List.append_eq_nil_iff] at h
        exact ho.nonempty h.1
      · refine noConstantsEach_iff.mpr fun r'' hr'' => ?_
        obtain ⟨c, -, ho⟩ := harms r'' hr''
        exact ho.noConstants

theorem residue_open (c : Condition) : c.kleene u = none → Open u c (c.residue u) := by
  induction c using Condition.ind with
  | always =>
    intro h
    cases h
  | never =>
    intro h
    cases h
  | has fact =>
    intro h
    refine ⟨fun f hf => ⟨hf, ?_⟩, List.cons_ne_nil _ _, trivial⟩
    rw [List.mem_singleton.mp hf]
    exact h
  | not inner ih =>
    intro h
    have hi := ih (Kleene.neg_eq_none.mp h)
    exact ⟨hi.facts, hi.nonempty, hi.noConstants⟩
  | all cs ih =>
    intro h
    refine open_closeAs (fun _ => rfl) (fun _ => Iff.rfl) ?_ ih
    rw [kleene, kleenes_eq_map] at h
    split at h
    · cases h
    · exact Kleene.conj_eq_none h
  | any cs ih =>
    intro h
    refine open_closeAs (fun _ => rfl) (fun _ => Iff.rfl) ?_ ih
    rw [kleene, kleenes_eq_map] at h
    exact Kleene.disj_eq_none h

theorem probes_subset_facts (c : Condition) : c.probes u ⊆ c.facts := by
  induction c using Condition.ind with
  | always => exact List.nil_subset _
  | never => exact List.nil_subset _
  | has fact =>
    rw [probes]
    split
    · exact List.nil_subset _
    · exact List.Subset.refl _
  | not inner ih => exact ih
  | all cs ih =>
    rw [facts, factsOf_eq_flatMap]
    exact List.Subset.trans (probesAll_subset cs) (flatMap_subset ih)
  | any cs ih =>
    rw [facts, factsOf_eq_flatMap]
    exact List.Subset.trans (probesAny_subset cs) (flatMap_subset ih)

end Condition

/-! ## Policies and residuals -/

section Policies

variable {O : Type}

mutual

def ResidualPolicy.facts : ResidualPolicy O → List FactId
  | .permit _ | .deny | .permitWithTrace .. | .denyWithTrace .. => []
  | .grant g => g.condition.facts
  | .all policies | .any policies => factsOf policies
  | .orElse primary fallback => facts primary ++ facts fallback

def ResidualPolicy.factsOf : List (ResidualPolicy O) → List FactId
  | [] => []
  | r :: rs => ResidualPolicy.facts r ++ ResidualPolicy.factsOf rs

end

mutual

/-- The grants of a residual, in source order. -/
def ResidualPolicy.grants : ResidualPolicy O → List (Grant O)
  | .permit _ | .deny | .permitWithTrace .. | .denyWithTrace .. => []
  | .grant g => [g]
  | .all policies | .any policies => grantsOf policies
  | .orElse primary fallback => grants primary ++ grants fallback

def ResidualPolicy.grantsOf : List (ResidualPolicy O) → List (Grant O)
  | [] => []
  | r :: rs => ResidualPolicy.grants r ++ ResidualPolicy.grantsOf rs

end

theorem ResidualPolicy.factsOf_eq_flatMap (rs : List (ResidualPolicy O)) :
    factsOf rs = rs.flatMap facts := by
  induction rs with
  | nil => rfl
  | cons r rs ih => rw [factsOf, ih, List.flatMap_cons]

theorem ResidualPolicy.grantsOf_eq_flatMap (rs : List (ResidualPolicy O)) :
    grantsOf rs = rs.flatMap grants := by
  induction rs with
  | nil => rfl
  | cons r rs ih => rw [grantsOf, ih, List.flatMap_cons]

/-- Two collections agree when they agree on each item. -/
theorem mem_flatMap_congr {α β γ : Type} {xs : List α} {f : α → List β} {g : α → List γ} {b : β}
    {P : γ → Prop} (h : ∀ x ∈ xs, b ∈ f x ↔ ∃ c ∈ g x, P c) :
    b ∈ xs.flatMap f ↔ ∃ c ∈ xs.flatMap g, P c := by
  rw [List.mem_flatMap]
  constructor
  · rintro ⟨x, hx, hb⟩
    obtain ⟨c, hc, hp⟩ := (h x hx).mp hb
    exact ⟨c, List.mem_flatMap.mpr ⟨x, hx, hc⟩, hp⟩
  · rintro ⟨c, hc, hp⟩
    obtain ⟨x, hx, hc⟩ := List.mem_flatMap.mp hc
    exact ⟨x, hx, (h x hx).mpr ⟨c, hc, hp⟩⟩

theorem Policy.mem_facts_iff {fact : FactId} (p : Policy O) :
    fact ∈ p.facts ↔ ∃ g ∈ p.grants, fact ∈ g.condition.facts := by
  have harms : ∀ ps : List (Policy O),
      (∀ p ∈ ps, fact ∈ p.facts ↔ ∃ g ∈ p.grants, fact ∈ g.condition.facts) →
      (fact ∈ factsOf ps ↔ ∃ g ∈ grantsOf ps, fact ∈ g.condition.facts) := by
    intro ps ih
    rw [factsOf_eq_flatMap, grantsOf_eq_flatMap]
    exact mem_flatMap_congr ih
  induction p using Policy.ind with
  | permit o => simp [facts, grants]
  | deny => simp [facts, grants]
  | grant g => simp [facts, grants]
  | all ps ih => exact harms ps ih
  | any ps ih => exact harms ps ih
  | orElse primary fallback ihp ihf =>
    rw [facts, grants, List.mem_append]
    refine (or_congr ihp ihf).trans ?_
    simp only [List.mem_append, or_and_right, exists_or]

theorem ResidualPolicy.mem_facts_iff {fact : FactId} (r : ResidualPolicy O) :
    fact ∈ r.facts ↔ ∃ g ∈ r.grants, fact ∈ g.condition.facts := by
  have harms : ∀ rs : List (ResidualPolicy O),
      (∀ r ∈ rs, fact ∈ r.facts ↔ ∃ g ∈ r.grants, fact ∈ g.condition.facts) →
      (fact ∈ factsOf rs ↔ ∃ g ∈ grantsOf rs, fact ∈ g.condition.facts) := by
    intro rs ih
    rw [factsOf_eq_flatMap, grantsOf_eq_flatMap]
    exact mem_flatMap_congr ih
  induction r using ResidualPolicy.ind with
  | permit o => simp [facts, grants]
  | deny => simp [facts, grants]
  | permitWithTrace o obs satisfied label => simp [facts, grants]
  | denyWithTrace denied unsatisfied label reason shape => simp [facts, grants]
  | grant g => simp [facts, grants]
  | all rs ih => exact harms rs ih
  | any rs ih => exact harms rs ih
  | orElse primary fallback ihp ihf =>
    rw [facts, grants, List.mem_append]
    refine (or_congr ihp ihf).trans ?_
    simp only [List.mem_append, or_and_right, exists_or]

theorem mem_collectResidualPolicyFacts {fact : FactId} (r : ResidualPolicy O) :
    ∀ s : FactSet, fact ∈ collectResidualPolicyFacts r s ↔ fact ∈ s ∨ fact ∈ r.facts := by
  have harms : ∀ rs : List (ResidualPolicy O),
      (∀ r ∈ rs, ∀ s : FactSet, fact ∈ collectResidualPolicyFacts r s ↔
        fact ∈ s ∨ fact ∈ r.facts) →
      ∀ s : FactSet, fact ∈ collectResidualPoliciesFacts rs s ↔
        fact ∈ s ∨ fact ∈ ResidualPolicy.factsOf rs := by
    intro rs
    induction rs with
    | nil => intro _ s; simp [collectResidualPoliciesFacts, ResidualPolicy.factsOf]
    | cons r rs ihrs =>
      intro ih s
      rw [collectResidualPoliciesFacts, ihrs fun r' hr' => ih r' (List.mem_cons_of_mem _ hr'),
        ih r List.mem_cons_self, ResidualPolicy.factsOf, List.mem_append, or_assoc]
  induction r using ResidualPolicy.ind with
  | permit o => intro s; simp [collectResidualPolicyFacts, ResidualPolicy.facts]
  | deny => intro s; simp [collectResidualPolicyFacts, ResidualPolicy.facts]
  | permitWithTrace o obs satisfied label =>
    intro s; simp [collectResidualPolicyFacts, ResidualPolicy.facts]
  | denyWithTrace denied unsatisfied label reason shape =>
    intro s; simp [collectResidualPolicyFacts, ResidualPolicy.facts]
  | grant g => intro s; exact mem_collectConditionFacts _ s
  | all rs ih => exact harms rs ih
  | any rs ih => exact harms rs ih
  | orElse primary fallback ihp ihf =>
    intro s
    rw [collectResidualPolicyFacts, ihf, ihp, ResidualPolicy.facts, List.mem_append, or_assoc]

theorem mem_requiredResidualFacts {fact : FactId} (r : ResidualPolicy O) :
    fact ∈ requiredResidualFacts r ↔ fact ∈ r.facts := by
  rw [requiredResidualFacts, mem_collectResidualPolicyFacts]
  simp

theorem Policy.probes_subset_facts {u : FactId → Option Bool} (p : Policy O) :
    p.probes u ⊆ p.facts := by
  induction p using Policy.ind with
  | permit o => exact List.nil_subset _
  | deny => exact List.nil_subset _
  | grant g => exact g.condition.probes_subset_facts
  | all ps ih =>
    rw [facts, factsOf_eq_flatMap]
    exact List.Subset.trans (probesAll_subset ps) (Condition.flatMap_subset ih)
  | any ps ih =>
    rw [probes, probesAny_eq_flatMap, facts, factsOf_eq_flatMap]
    exact Condition.flatMap_subset ih
  | orElse primary fallback ihp ihf =>
    rw [probes, facts]
    refine List.append_subset.mpr ⟨List.subset_append_of_subset_left _ ihp, ?_⟩
    split
    · exact List.nil_subset _
    · exact List.subset_append_of_subset_right _ ihf

/-! ## What is left of an open policy -/

/-- What is left of an open grant. -/
def Grant.residue (u : FactId → Option Bool) (g : Grant O) : Grant O :=
  { g with condition := g.condition.residue u }

/-- The grants `l` are open grants among `l'`, each with what is left of its condition. -/
def OpenGrants (u : FactId → Option Bool) (l l' : List (Grant O)) : Prop :=
  ∀ g ∈ l, ∃ g' ∈ l', g'.condition.kleene u = none ∧ g = g'.residue u

theorem OpenGrants.mono {u : FactId → Option Bool} {l l' m : List (Grant O)}
    (h : OpenGrants u l l') (hm : l' ⊆ m) : OpenGrants u l m := by
  intro g hg
  obtain ⟨g', hg', hopen⟩ := h g hg
  exact ⟨g', hm hg', hopen⟩

theorem OpenGrants.append {u : FactId → Option Bool} {l l' m : List (Grant O)}
    (h : OpenGrants u l m) (h' : OpenGrants u l' m) : OpenGrants u (l ++ l') m :=
  fun g hg => (List.mem_append.mp hg).elim (h g) (h' g)

theorem EvalResult.grants_constant (r : EvalResult O) : r.constant.grants = [] := by
  unfold constant policyFromDecision
  split <;> rfl

variable [Lattice O] [DecidableEq O] {u : FactId → Option Bool} {w : FactId → Bool}

namespace Policy

theorem grants_grantedArms (ps : List (Policy O)) :
    ResidualPolicy.grantsOf (grantedArms u w ps) = [] := by
  rw [ResidualPolicy.grantsOf_eq_flatMap, grantedArms, List.flatMap_map]
  exact List.flatMap_eq_nil_iff.mpr fun p _ => EvalResult.grants_constant _

theorem grants_firstDenied (ps : List (Policy O)) :
    ResidualPolicy.grantsOf (firstDenied u w ps).toList = [] := by
  rw [ResidualPolicy.grantsOf_eq_flatMap, firstDenied]
  refine List.flatMap_eq_nil_iff.mpr fun r hr => ?_
  rw [Option.mem_toList, Option.map_eq_some_iff] at hr
  obtain ⟨p, -, rfl⟩ := hr
  exact EvalResult.grants_constant _

/-- The grants of open arms, when each arm's are open grants and there is one. -/
theorem grants_residues {ps : List (Policy O)} (hopen : ∃ p ∈ ps, verdict u p = none)
    (ih : ∀ p ∈ ps, verdict u p = none →
      OpenGrants u (residue u w p).grants p.grants ∧ (residue u w p).grants ≠ []) :
    OpenGrants u (ResidualPolicy.grantsOf (residues u w ps)) (grantsOf ps) ∧
      ResidualPolicy.grantsOf (residues u w ps) ≠ [] := by
  rw [ResidualPolicy.grantsOf_eq_flatMap, residues_eq_map, List.flatMap_map]
  constructor
  · intro g hg
    obtain ⟨p, hp, hg⟩ := List.mem_flatMap.mp hg
    rw [List.mem_filter, decide_eq_true_eq] at hp
    obtain ⟨g', hg', hres⟩ := (ih p hp.1 hp.2).1 g hg
    exact ⟨g', mem_grantsOf.mpr ⟨p, hp.1, hg'⟩, hres⟩
  · obtain ⟨p, hp, hv⟩ := hopen
    intro hnil
    refine (ih p hp hv).2 (List.flatMap_eq_nil_iff.mp hnil p ?_)
    exact List.mem_filter.mpr ⟨hp, decide_eq_true hv⟩

/-- The grants of what is left of an open policy are open grants of it, and there is one. -/
theorem grants_residue (p : Policy O) : verdict u p = none →
    OpenGrants u (residue u w p).grants p.grants ∧ (residue u w p).grants ≠ [] := by
  induction p using Policy.ind with
  | permit o =>
    intro h
    cases h
  | deny =>
    intro h
    cases h
  | grant g =>
    intro h
    refine ⟨fun g' hg' => ⟨g, List.mem_cons_self, h, ?_⟩, List.cons_ne_nil _ _⟩
    exact List.mem_singleton.mp hg'
  | all ps ih =>
    intro h
    obtain ⟨hg, hne⟩ := grants_residues (w := w) (verdict_all_eq_none h).1 ih
    rw [residue, ResidualPolicy.grants, ResidualPolicy.grantsOf_eq_flatMap, List.flatMap_append,
      ← ResidualPolicy.grantsOf_eq_flatMap, ← ResidualPolicy.grantsOf_eq_flatMap,
      grants_grantedArms, List.nil_append]
    exact ⟨hg, hne⟩
  | any ps ih =>
    intro h
    obtain ⟨hg, hne⟩ := grants_residues (w := w) (verdict_any_eq_none h) ih
    have hfirst : ResidualPolicy.grantsOf (if (grantedArms u w ps).isEmpty then
        (firstDenied u w ps).toList else grantedArms u w ps) = [] := by
      split
      · exact grants_firstDenied ps
      · exact grants_grantedArms ps
    rw [residue, ResidualPolicy.grants, ResidualPolicy.grantsOf_eq_flatMap, List.flatMap_append,
      ← ResidualPolicy.grantsOf_eq_flatMap, ← ResidualPolicy.grantsOf_eq_flatMap, hfirst,
      List.nil_append]
    exact ⟨hg, hne⟩
  | orElse primary fallback ihp ihf =>
    intro h
    rw [residue, grants]
    split
    · rename_i hp
      rw [verdict, hp] at h
      obtain ⟨hg, hne⟩ := ihf h
      exact ⟨hg.mono (List.subset_append_right _ _), hne⟩
    · rename_i hp
      obtain ⟨hg, hne⟩ := ihp (verdict_primary h hp)
      refine ⟨(hg.mono (List.subset_append_left _ _)).append ?_, ?_⟩
      · split
        · rename_i hf
          exact (ihf hf).1.mono (List.subset_append_right _ _)
        · rw [EvalResult.grants_constant]
          intro g hg
          cases hg
      · rw [ResidualPolicy.grants]
        exact fun h => hne (List.append_eq_nil_iff.mp h).1

/-- What is left of an open policy asks about unknown facts of the policy, and about one at least. -/
theorem facts_residue {p : Policy O} (hv : verdict u p = none) :
    (∀ f ∈ (residue u w p).facts, f ∈ p.facts ∧ u f = none) ∧ (residue u w p).facts ≠ [] := by
  obtain ⟨hopen, hne⟩ := grants_residue (w := w) p hv
  constructor
  · intro f hf
    obtain ⟨g, hg, hf⟩ := (residue u w p).mem_facts_iff.mp hf
    obtain ⟨g', hg', hk, rfl⟩ := hopen g hg
    obtain ⟨hf, hu⟩ := (g'.condition.residue_open hk).facts f hf
    exact ⟨p.mem_facts_iff.mpr ⟨g', hg', hf⟩, hu⟩
  · obtain ⟨g, hg⟩ := List.exists_mem_of_ne_nil _ hne
    obtain ⟨g', -, hk, rfl⟩ := hopen g hg
    obtain ⟨f, hf⟩ := List.exists_mem_of_ne_nil _ (g'.condition.residue_open hk).nonempty
    exact List.ne_nil_of_mem ((residue u w p).mem_facts_iff.mpr ⟨_, hg, hf⟩)

end Policy

end Policies

end Gatekeep
