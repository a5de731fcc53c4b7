import Gatekeep.Sql.Deferred

/-!
# Gatekeep.Sql.Visits

What lowering asks the application about, and in which order. The two traversals of a residual
reach the same leaves, those outside a fallback that carries an obligation, from left to right
(`keptLeaves`); at a leaf the filter asks for the predicates of its facts, and the full lowering also
for the projection of its outcome. Only leaves can fail, so each traversal fails as the first leaf
does that fails (`failure_tryFoldPruned`).

`lower_refines_lowerFilter` compares the two traversals; `lowerFilter_fails_on_unmapped` says when
the filter fails and with which fact.
-/

namespace Gatekeep

open Result

namespace ResidualPolicy

variable {O T : Type}

mutual

/-- The leaves that are not inside a fallback that carries an obligation, in source order. -/
def keptLeaves : ResidualPolicy O → List (ResidualPolicy O)
  | .permit outcome => [.permit outcome]
  | .deny => [.deny]
  | .permitWithTrace outcome obligations satisfied label =>
    [.permitWithTrace outcome obligations satisfied label]
  | .denyWithTrace denied unsatisfied label reason shape =>
    [.denyWithTrace denied unsatisfied label reason shape]
  | .grant g => [.grant g]
  | .all policies | .any policies => keptLeavesOf policies
  | .orElse primary fallback =>
    keptLeaves primary ++ if fallback.carriesObligation then [] else keptLeaves fallback

def keptLeavesOf : List (ResidualPolicy O) → List (ResidualPolicy O)
  | [] => []
  | policy :: policies => keptLeaves policy ++ keptLeavesOf policies

end

/-- The facts of the grants that are not inside a fallback that carries an obligation, in source
order. -/
def keptFacts (r : ResidualPolicy O) : List FactId := r.keptLeaves.flatMap facts

/-- Something lowering needs from the application. -/
inductive Visit (O : Type) where
  | fact (fact : FactId)
  | outcome (outcome : O)

def leafVisits : ResidualPolicy O → List (Visit O)
  | .permit outcome | .permitWithTrace outcome _ _ _ => [.outcome outcome]
  | .grant g => g.condition.facts.map .fact ++ [.outcome g.outcome]
  | _ => []

/-- What the full lowering needs, in the order in which it asks. -/
def visits (r : ResidualPolicy O) : List (Visit O) := r.keptLeaves.flatMap leafVisits

theorem keptLeavesOf_eq_flatMap (rs : List (ResidualPolicy O)) :
    keptLeavesOf rs = rs.flatMap keptLeaves := by
  induction rs with
  | nil => rfl
  | cons r rs ih => rw [keptLeavesOf, ih, List.flatMap_cons]

theorem facts_of_mem_keptLeaves (r : ResidualPolicy O) :
    ∀ leaf ∈ r.keptLeaves, leaf.facts ⊆ r.facts := by
  have harms : ∀ rs : List (ResidualPolicy O),
      (∀ r ∈ rs, ∀ leaf ∈ r.keptLeaves, leaf.facts ⊆ r.facts) →
      ∀ leaf ∈ keptLeavesOf rs, leaf.facts ⊆ factsOf rs := by
    intro rs ih leaf hleaf fact hfact
    rw [keptLeavesOf_eq_flatMap, List.mem_flatMap] at hleaf
    obtain ⟨r, hr, hleaf⟩ := hleaf
    rw [factsOf_eq_flatMap, List.mem_flatMap]
    exact ⟨r, hr, ih r hr leaf hleaf hfact⟩
  induction r using ResidualPolicy.ind with
  | permit o => simp [keptLeaves]
  | deny => simp [keptLeaves]
  | permitWithTrace o obs satisfied label => simp [keptLeaves]
  | denyWithTrace denied unsatisfied label reason shape => simp [keptLeaves]
  | grant g => simp [keptLeaves]
  | all rs ih => exact harms rs ih
  | any rs ih => exact harms rs ih
  | orElse primary fallback ihp ihf =>
    intro leaf hleaf fact hfact
    rw [keptLeaves, List.mem_append] at hleaf
    rw [facts, List.mem_append]
    rcases hleaf with hleaf | hleaf
    · exact .inl (ihp leaf hleaf hfact)
    · split at hleaf
      · cases hleaf
      · exact .inr (ihf leaf hleaf hfact)

theorem keptFacts_subset_facts (r : ResidualPolicy O) : r.keptFacts ⊆ r.facts := by
  intro fact hfact
  obtain ⟨leaf, hleaf, hfact⟩ := List.mem_flatMap.mp hfact
  exact r.facts_of_mem_keptLeaves leaf hleaf hfact

theorem mem_keptFacts_of_visit {r : ResidualPolicy O} {fact : FactId}
    (h : .fact fact ∈ r.visits) : fact ∈ r.keptFacts := by
  obtain ⟨leaf, hleaf, h⟩ := List.mem_flatMap.mp h
  refine List.mem_flatMap.mpr ⟨leaf, hleaf, ?_⟩
  cases leaf with
  | grant g => simpa [leafVisits, facts] using h
  | _ => simp [leafVisits] at h

/-! ## The first leaf that fails -/

section Failure

variable {ε : Type} {visitor : ResidualPolicyNode O T → Except ε T}
  {leafFailure : ResidualPolicy O → Option ε}

/-- A pruned traversal whose visitor fails at no inner node fails as the first leaf it reaches that
fails. -/
theorem failure_tryFoldPruned
    (permit : ∀ o, failure (visitor (.permit o)) = leafFailure (.permit o))
    (deny : failure (visitor .deny) = leafFailure .deny)
    (permitWithTrace : ∀ o obs satisfied label,
      failure (visitor (.permitWithTrace o obs satisfied label)) =
        leafFailure (.permitWithTrace o obs satisfied label))
    (denyWithTrace : ∀ denied unsatisfied label reason shape,
      failure (visitor (.denyWithTrace denied unsatisfied label reason shape)) =
        leafFailure (.denyWithTrace denied unsatisfied label reason shape))
    (grant : ∀ g, failure (visitor (.grant g)) = leafFailure (.grant g))
    (all : ∀ rs ts, failure (visitor (.all rs ts)) = none)
    (any : ∀ rs ts, failure (visitor (.any rs ts)) = none)
    (orElse : ∀ primary fallback tp tf,
      failure (visitor (.orElse primary fallback tp tf)) = none)
    (r : ResidualPolicy O) :
    failure (r.tryFoldPruned (fun b => .ok (SqlxLowerer.shouldDescend b)) visitor) =
      r.keptLeaves.findSome? leafFailure := by
  have harms : ∀ rs : List (ResidualPolicy O),
      (∀ r ∈ rs, failure (r.tryFoldPruned (fun b => .ok (SqlxLowerer.shouldDescend b)) visitor) =
        r.keptLeaves.findSome? leafFailure) →
      failure (tryFoldPrunedArms (fun b => .ok (SqlxLowerer.shouldDescend b)) visitor rs) =
        (keptLeavesOf rs).findSome? leafFailure := by
    intro rs
    induction rs with
    | nil => exact fun _ => rfl
    | cons r rs ihrs =>
      intro ih
      rw [tryFoldPrunedArms, keptLeavesOf, List.findSome?_append, ← ih r List.mem_cons_self,
        ← ihrs fun r' hr' => ih r' (List.mem_cons_of_mem _ hr')]
      refine failure_bind fun t _ => ?_
      exact failure_bind_of_ok fun ts _ => rfl
  induction r using ResidualPolicy.ind with
  | permit o => exact (permit o).trans (List.findSome?_singleton ..).symm
  | deny => exact deny.trans (List.findSome?_singleton ..).symm
  | permitWithTrace o obs satisfied label =>
    exact (permitWithTrace o obs satisfied label).trans (List.findSome?_singleton ..).symm
  | denyWithTrace denied unsatisfied label reason shape =>
    exact (denyWithTrace denied unsatisfied label reason shape).trans
      (List.findSome?_singleton ..).symm
  | grant g => exact (grant g).trans (List.findSome?_singleton ..).symm
  | all rs ih =>
    rw [tryFoldPruned, keptLeaves, ← harms rs ih]
    exact failure_bind_of_ok fun ts _ => all rs ts
  | any rs ih =>
    rw [tryFoldPruned, keptLeaves, ← harms rs ih]
    exact failure_bind_of_ok fun ts _ => any rs ts
  | orElse primary fallback ihp ihf =>
    rw [tryFoldPruned, keptLeaves, List.findSome?_append, ← ihp]
    refine failure_bind fun tp _ => ?_
    rw [ok_bind, SqlxLowerer.shouldDescend]
    cases fallback.carriesObligation with
    | true => exact orElse primary fallback tp none
    | false =>
      exact (failure_bind_of_ok fun tf _ => orElse primary fallback tp (some tf)).trans ihf

end Failure

end ResidualPolicy

theorem findSome?_flatMap {α β γ : Type} (xs : List α) (f : α → List β) (p : β → Option γ) :
    (xs.flatMap f).findSome? p = xs.findSome? fun x => (f x).findSome? p := by
  induction xs with
  | nil => rfl
  | cons x xs ih =>
    rw [List.flatMap_cons, List.findSome?_append, ih, List.findSome?_cons]
    cases (f x).findSome? p <;> rfl

namespace SqlxLowerer

variable {O : Type} (L : SqlxLowerer O) (cx : Context)

/-- The fact has no predicate. -/
def missing (fact : FactId) : Bool := (L.predicates fact cx).isNone

theorem failure_lowerCondition (c : Condition) :
    failure (L.lowerCondition cx c) = (c.facts.find? (L.missing cx)).map .unlowerable := by
  have hset : ∀ cs : List Condition,
      (∀ c ∈ cs, failure (L.lowerCondition cx c) =
        (c.facts.find? (L.missing cx)).map .unlowerable) →
      failure (L.lowerConditions cx cs) =
        ((Condition.factsOf cs).find? (L.missing cx)).map .unlowerable := by
    intro cs
    induction cs with
    | nil => exact fun _ => rfl
    | cons c cs ihcs =>
      intro ih
      rw [lowerConditions, Condition.factsOf, List.find?_append, Option.map_or,
        ← ih c List.mem_cons_self, ← ihcs fun c' hc' => ih c' (List.mem_cons_of_mem _ hc')]
      refine failure_bind fun f _ => ?_
      exact failure_bind_of_ok fun fs _ => rfl
  have hconnected : ∀ (separator : Connective) (cs : List Condition),
      failure (lowerConditionSet cs separator .false (L.lowerConditions cx cs)) =
        failure (L.lowerConditions cx cs) := by
    intro separator cs
    cases cs with
    | nil => rfl
    | cons c cs => exact failure_map _ _
  induction c using Condition.ind with
  | always => rfl
  | never => rfl
  | has fact =>
    rw [lowerCondition, Condition.facts]
    cases h : L.predicates fact cx <;> simp [missing, h]
  | not inner ih => exact (failure_map _ _).trans ih
  | all cs ih => exact (hconnected .and cs).trans (hset cs ih)
  | any cs ih => exact (hconnected .or cs).trans (hset cs ih)

/-- The filter fails on the first fact it needs that has no predicate. -/
theorem failure_lowerFilter (r : ResidualPolicy O) :
    failure (L.lowerFilter cx r) = (r.keptFacts.find? (L.missing cx)).map .unlowerable := by
  have hfold : failure (r.tryFoldPruned (fun b => .ok (shouldDescend b)) (L.lowerFilterNode cx)) =
      r.keptLeaves.findSome? fun leaf => (leaf.facts.find? (L.missing cx)).map .unlowerable := by
    refine r.failure_tryFoldPruned (fun o => rfl) rfl (fun o obs satisfied label => rfl)
      (fun denied unsatisfied label reason shape => rfl) ?_ (fun rs ts => rfl) (fun rs ts => rfl) ?_
    · exact fun g => L.failure_lowerCondition cx g.condition
    · intro primary fallback tp tf
      simp only [lowerFilterNode]
      split
      · rfl
      · cases tf <;> rfl
  rw [lowerFilter, failure_bind_of_ok fun f _ => rfl, hfold, ResidualPolicy.keptFacts,
    List.find?_flatMap, List.map_findSome?]
  rfl

/-- Why the application's answer to a visit stops the full lowering. -/
def refusal : ResidualPolicy.Visit O → Option LowerError
  | .fact fact => if L.missing cx fact then some (.unlowerable fact) else none
  | .outcome outcome => failure (L.projection outcome)

theorem findSome?_refusal_fact (facts : List FactId) :
    (facts.map ResidualPolicy.Visit.fact).findSome? (L.refusal cx) =
      (facts.find? (L.missing cx)).map .unlowerable := by
  induction facts with
  | nil => rfl
  | cons fact facts ih =>
    rw [List.map_cons, List.findSome?_cons, List.find?_cons, refusal, ih]
    cases L.missing cx fact <;> rfl

/-- The full lowering fails on the first answer that refuses it. -/
theorem failure_lower (r : ResidualPolicy O) :
    failure (L.lower cx r) = r.visits.findSome? (L.refusal cx) := by
  have hfold : failure (L.lowerPolicy cx r) =
      r.keptLeaves.findSome? fun leaf => leaf.leafVisits.findSome? (L.refusal cx) := by
    have hpermit : ∀ o, failure (L.lowerNode cx (.permit o)) =
        (ResidualPolicy.leafVisits (.permit o)).findSome? (L.refusal cx) := by
      intro o
      rw [lowerNode, failure_bind_of_ok fun f _ => rfl]
      exact (List.findSome?_singleton ..).symm
    refine r.failure_tryFoldPruned hpermit rfl (fun o obs satisfied label => hpermit o)
      (fun denied unsatisfied label reason shape => rfl) ?_ (fun rs ts => rfl) (fun rs ts => rfl) ?_
    · intro g
      rw [lowerNode, ResidualPolicy.leafVisits, List.findSome?_append, findSome?_refusal_fact,
        ← failure_lowerCondition, List.findSome?_singleton]
      refine failure_bind fun f _ => ?_
      exact failure_bind_of_ok fun o _ => rfl
    · intro primary fallback tp tf
      simp only [lowerNode]
      split
      · rfl
      · cases tf <;> rfl
  rw [lower, failure_bind_of_ok fun l _ => rfl, hfold, ResidualPolicy.visits,
    findSome?_flatMap]

/-! ## The two traversals -/

variable {L cx}

/-- The filter-only traversal succeeds with this filter. -/
def Filters (L : SqlxLowerer O) (cx : Context) (r : ResidualPolicy O) (l : Lowered) : Prop :=
  r.tryFoldPruned (fun b => .ok (shouldDescend b)) (L.lowerFilterNode cx) = .ok l.filter

theorem filters_lowerPolicy (r : ResidualPolicy O) : ∀ l, L.lowerPolicy cx r = .ok l →
    L.Filters cx r l := by
  have harms : ∀ {rs : List (ResidualPolicy O)} {ts : List Lowered},
      List.Forall₂ (L.Filters cx) rs ts →
      ResidualPolicy.tryFoldPrunedArms (fun b => .ok (shouldDescend b)) (L.lowerFilterNode cx) rs =
        .ok (ts.map Lowered.filter) := by
    intro rs ts h
    induction h with
    | nil => rfl
    | cons hr _ ih =>
      rw [ResidualPolicy.tryFoldPrunedArms, hr, ok_bind, ih]
      rfl
  refine ResidualPolicy.tryFoldPruned_ok (P := L.Filters cx) ?_ ?_ ?_ ?_ ?_ ?_ ?_ ?_ ?_ r
  · intro o l h
    obtain ⟨grade, -, h⟩ := bind_eq_ok.mp h
    cases h
    rfl
  · intro l h
    cases h
    rfl
  · intro o obs satisfied label l h
    obtain ⟨grade, -, h⟩ := bind_eq_ok.mp h
    cases h
    rfl
  · intro denied unsatisfied label reason shape l h
    cases h
    rfl
  · intro g l h
    obtain ⟨filter, hf, h⟩ := bind_eq_ok.mp h
    obtain ⟨outcome, -, h⟩ := bind_eq_ok.mp h
    cases h
    exact hf
  · intro rs ts l harm h
    cases h
    rw [Filters, ResidualPolicy.tryFoldPruned, harms harm]
    rfl
  · intro rs ts l harm h
    cases h
    rw [Filters, ResidualPolicy.tryFoldPruned, harms harm]
    rfl
  · intro primary fallback tp tf l _ hp hf hd h
    have hc : fallback.carriesObligation = false := by simpa [shouldDescend] using hd
    simp only [lowerNode, hc] at h
    cases h
    rw [Filters, ResidualPolicy.tryFoldPruned, hp, ok_bind, ok_bind, hd, if_pos rfl, hf, ok_bind]
    simp [lowerFilterNode, hc]
  · intro primary fallback tp l hp hd h
    have hc : fallback.carriesObligation = true := by simpa [shouldDescend] using hd
    simp only [lowerNode, hc] at h
    cases h
    rw [Filters, ResidualPolicy.tryFoldPruned, hp, ok_bind, ok_bind, hd]
    simp [lowerFilterNode, hc]

theorem lowerFilter_of_lower {r : ResidualPolicy O} {lowered : Lowered}
    (h : L.lower cx r = .ok lowered) : L.lowerFilter cx r = .ok lowered.filter := by
  obtain ⟨l, hl, h⟩ := bind_eq_ok.mp h
  cases h
  rw [lowerFilter, filters_lowerPolicy r l hl]
  rfl

/-- The full lowering emits the filter of the filter-only lowering. It fails where that fails, and
otherwise only because the projection refuses an outcome, the first answer that refuses. -/
theorem lower_refines_lowerFilter (L : SqlxLowerer O) (cx : Context) (r : ResidualPolicy O) :
    (∀ lowered, L.lower cx r = .ok lowered → L.lowerFilter cx r = .ok lowered.filter) ∧
    (∀ fact, L.lowerFilter cx r = .error (.unlowerable fact) →
      ∃ e, L.lower cx r = .error e) ∧
    ∀ e filter, L.lower cx r = .error e → L.lowerFilter cx r = .ok filter →
      ∃ before outcome after, r.visits = before ++ .outcome outcome :: after ∧
        L.projection outcome = .error e ∧ ∀ visit ∈ before, L.refusal cx visit = none := by
  refine ⟨fun lowered h => lowerFilter_of_lower h, ?_, ?_⟩
  · intro fact h
    cases hl : L.lower cx r with
    | error e => exact ⟨e, rfl⟩
    | ok lowered =>
      rw [lowerFilter_of_lower hl] at h
      cases h
  · intro e filter hl hf
    have hmapped : ∀ fact ∈ r.keptFacts, ¬ L.missing cx fact = true := by
      have hnone := failure_eq_none.mpr ⟨filter, hf⟩
      rw [failure_lowerFilter, Option.map_eq_none_iff] at hnone
      exact List.find?_eq_none.mp hnone
    have hfirst := failure_eq_some.mpr hl
    rw [failure_lower, List.findSome?_eq_some_iff] at hfirst
    obtain ⟨before, visit, after, hvisits, hrefused, hbefore⟩ := hfirst
    cases visit with
    | fact fact =>
      have hkept : fact ∈ r.keptFacts :=
        ResidualPolicy.mem_keptFacts_of_visit (hvisits ▸ by simp)
      rw [refusal, if_neg (hmapped fact hkept)] at hrefused
      cases hrefused
    | outcome outcome =>
      exact ⟨before, outcome, after, hvisits, failure_eq_some.mp hrefused, hbefore⟩

/-! ## Facts without a predicate -/

theorem mem_unmappedFacts {r : ResidualPolicy O} {fact : FactId} :
    fact ∈ L.unmappedFacts r cx ↔ fact ∈ r.facts ∧ L.missing cx fact = true := by
  rw [unmappedFacts, List.mem_filter, Std.ExtTreeSet.mem_toList, mem_requiredResidualFacts]
  rfl

/-- The filter is lowered exactly when every fact it needs has a predicate. Otherwise it names the
first fact in source order that has none, which the list of unmapped facts has too. -/
theorem lowerFilter_fails_on_unmapped (L : SqlxLowerer O) (cx : Context) (r : ResidualPolicy O) :
    ((∃ filter, L.lowerFilter cx r = .ok filter) ↔
      ∀ fact ∈ r.keptFacts, (L.predicates fact cx).isSome = true) ∧
    (∀ e, L.lowerFilter cx r = .error e →
      ∃ fact, e = .unlowerable fact ∧
        r.keptFacts.find? (fun fact => (L.predicates fact cx).isNone) = some fact ∧
        fact ∈ L.unmappedFacts r cx) ∧
    (L.unmappedFacts r cx = [] → ∃ filter, L.lowerFilter cx r = .ok filter) := by
  have hok : (∃ filter, L.lowerFilter cx r = .ok filter) ↔
      ∀ fact ∈ r.keptFacts, ¬ L.missing cx fact = true := by
    rw [← failure_eq_none, failure_lowerFilter, Option.map_eq_none_iff, List.find?_eq_none]
  refine ⟨?_, ?_, ?_⟩
  · rw [hok]
    refine forall₂_congr fun fact _ => ?_
    rw [missing, Option.isSome_iff_ne_none, Option.isNone_iff_eq_none]
  · intro e he
    have hfirst := failure_eq_some.mpr he
    rw [failure_lowerFilter, Option.map_eq_some_iff] at hfirst
    obtain ⟨fact, hfind, rfl⟩ := hfirst
    refine ⟨fact, rfl, hfind, mem_unmappedFacts.mpr ⟨?_, ?_⟩⟩
    · exact r.keptFacts_subset_facts (List.mem_of_find?_eq_some hfind)
    · exact List.find?_some hfind
  · intro hnil
    rw [hok]
    intro fact hfact hmissing
    have hmem : fact ∈ L.unmappedFacts r cx :=
      mem_unmappedFacts.mpr ⟨r.keptFacts_subset_facts hfact, hmissing⟩
    rw [hnil] at hmem
    cases hmem

end SqlxLowerer

end Gatekeep
