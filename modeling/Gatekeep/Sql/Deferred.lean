import Gatekeep.Reduction.Open
import Gatekeep.Sql.Lower

/-!
# Gatekeep.Sql.Deferred

Lowering asks for the predicates of the facts of the residual and no others (`lower_congr`), and the
facts of a pending residual are facts that partial evaluation left unknown. A fact that is already
decided therefore needs no SQL mapping (`pending_only_open`).
-/

namespace Gatekeep

namespace ResidualPolicy

variable {O T : Type} {m : Type → Type} [Monad m] {descend : ResidualPolicyBranch O → m Bool}
  {visitor visitor' : ResidualPolicyNode O T → m T}

/-- Two visitors that differ at most on grants that are not in the residual fold it alike. -/
theorem tryFoldPruned_congr
    (hnode : ∀ node, (∀ g, node ≠ .grant g) → visitor' node = visitor node) (r : ResidualPolicy O) :
    (∀ g ∈ r.grants, visitor' (.grant g) = visitor (.grant g)) →
      r.tryFoldPruned descend visitor' = r.tryFoldPruned descend visitor := by
  have harms : ∀ rs : List (ResidualPolicy O),
      (∀ r ∈ rs, (∀ g ∈ r.grants, visitor' (.grant g) = visitor (.grant g)) →
        r.tryFoldPruned descend visitor' = r.tryFoldPruned descend visitor) →
      (∀ g ∈ grantsOf rs, visitor' (.grant g) = visitor (.grant g)) →
        tryFoldPrunedArms descend visitor' rs = tryFoldPrunedArms descend visitor rs := by
    intro rs
    induction rs with
    | nil => exact fun _ _ => rfl
    | cons r rs ihrs =>
      intro ih hg
      rw [grantsOf, List.forall_mem_append] at hg
      rw [tryFoldPrunedArms, tryFoldPrunedArms, ih r List.mem_cons_self hg.1,
        ihrs (fun r' hr' => ih r' (List.mem_cons_of_mem _ hr')) hg.2]
  induction r using ResidualPolicy.ind with
  | permit o => exact fun _ => hnode _ (by simp)
  | deny => exact fun _ => hnode _ (by simp)
  | permitWithTrace o obs satisfied label => exact fun _ => hnode _ (by simp)
  | denyWithTrace denied unsatisfied label reason shape => exact fun _ => hnode _ (by simp)
  | grant g => exact fun hg => hg g List.mem_cons_self
  | all rs ih =>
    intro hg
    rw [tryFoldPruned, tryFoldPruned, harms rs ih hg]
    refine bind_congr fun arms => ?_
    exact hnode _ (by simp)
  | any rs ih =>
    intro hg
    rw [tryFoldPruned, tryFoldPruned, harms rs ih hg]
    refine bind_congr fun arms => ?_
    exact hnode _ (by simp)
  | orElse primary fallback ihp ihf =>
    intro hg
    rw [grants, List.forall_mem_append] at hg
    rw [tryFoldPruned, tryFoldPruned, ihp hg.1, ihf hg.2]
    have hor : ∀ tp tf, visitor' (.orElse primary fallback tp tf) =
        visitor (.orElse primary fallback tp tf) := fun tp tf => hnode _ (by simp)
    simp only [hor]

end ResidualPolicy

namespace SqlxLowerer

variable {O : Type} {L : SqlxLowerer O} {cx : Context}
  {predicates' : FactId → Context → Option SqlxFragment}

/-- The query-deferred facts without a trusted SQL mapping. -/
def unmappedFacts (L : SqlxLowerer O) (residual : ResidualPolicy O) (cx : Context) : List FactId :=
  (requiredResidualFacts residual).toList.filter fun fact => (L.predicates fact cx).isNone

theorem lowerCondition_congr (c : Condition) :
    (∀ fact ∈ c.facts, predicates' fact cx = L.predicates fact cx) →
      { L with predicates := predicates' }.lowerCondition cx c = L.lowerCondition cx c := by
  have hset : ∀ cs : List Condition,
      (∀ c ∈ cs, (∀ fact ∈ c.facts, predicates' fact cx = L.predicates fact cx) →
        { L with predicates := predicates' }.lowerCondition cx c = L.lowerCondition cx c) →
      (∀ fact ∈ Condition.factsOf cs, predicates' fact cx = L.predicates fact cx) →
        { L with predicates := predicates' }.lowerConditions cx cs = L.lowerConditions cx cs := by
    intro cs
    induction cs with
    | nil => exact fun _ _ => rfl
    | cons c cs ihcs =>
      intro ih hf
      rw [Condition.factsOf, List.forall_mem_append] at hf
      rw [lowerConditions, lowerConditions, ih c List.mem_cons_self hf.1,
        ihcs (fun c' hc' => ih c' (List.mem_cons_of_mem _ hc')) hf.2]
  induction c using Condition.ind with
  | always => exact fun _ => rfl
  | never => exact fun _ => rfl
  | has fact =>
    intro hf
    simp only [lowerCondition, hf fact List.mem_cons_self]
  | not inner ih =>
    intro hf
    rw [lowerCondition, lowerCondition, ih hf]
  | all cs ih =>
    intro hf
    rw [lowerCondition, lowerCondition, hset cs ih hf]
  | any cs ih =>
    intro hf
    rw [lowerCondition, lowerCondition, hset cs ih hf]

section Policies

variable {r : ResidualPolicy O} (h : ∀ fact ∈ r.facts, predicates' fact cx = L.predicates fact cx)
include h

theorem lowerCondition_grants_congr {g : Grant O} (hg : g ∈ r.grants) :
    { L with predicates := predicates' }.lowerCondition cx g.condition =
      L.lowerCondition cx g.condition :=
  lowerCondition_congr _ fun fact hf => h fact (r.mem_facts_iff.mpr ⟨g, hg, hf⟩)

theorem lower_congr : { L with predicates := predicates' }.lower cx r = L.lower cx r := by
  have hpolicy : { L with predicates := predicates' }.lowerPolicy cx r = L.lowerPolicy cx r := by
    refine r.tryFoldPruned_congr (fun node hnode => ?_) fun g hg => ?_
    · cases node with
      | grant g => exact absurd rfl (hnode g)
      | _ => rfl
    · rw [lowerNode, lowerNode, lowerCondition_grants_congr h hg]
  rw [lower, lower, hpolicy]
  rfl

theorem lowerFilter_congr :
    { L with predicates := predicates' }.lowerFilter cx r = L.lowerFilter cx r := by
  have hpolicy : r.tryFoldPruned (fun branch => .ok (shouldDescend branch))
        ({ L with predicates := predicates' }.lowerFilterNode cx) =
      r.tryFoldPruned (fun branch => .ok (shouldDescend branch)) (L.lowerFilterNode cx) := by
    refine r.tryFoldPruned_congr (fun node hnode => ?_) fun g hg => ?_
    · cases node with
      | grant g => exact absurd rfl (hnode g)
      | _ => rfl
    · rw [lowerFilterNode, lowerFilterNode, lowerCondition_grants_congr h hg]
  rw [lowerFilter, lowerFilter, hpolicy]
  rfl

theorem unmappedFacts_congr :
    { L with predicates := predicates' }.unmappedFacts r cx = L.unmappedFacts r cx := by
  refine List.filter_congr fun fact hf => ?_
  rw [Std.ExtTreeSet.mem_toList, mem_requiredResidualFacts] at hf
  exact congrArg Option.isNone (h fact hf)

end Policies

end SqlxLowerer

/-! ## What a pending result asks and has asked -/

section Pending

variable {O : Type} [Lattice O] [DecidableEq O] {p : Policy O} {facts : PartialFacts}
  {r : ResidualPolicy O} {consulted : Consulted}

/-- A pending result is the residue of an open policy beside the facts read to get there. -/
theorem pending_eq (h : partialEvaluate p facts = .pending r consulted) :
    p.verdict facts.truth = none ∧ r = p.residue facts.truth (partialToKnown facts).truth ∧
      consulted = logged facts.presence (p.probes facts.truth) := by
  rw [partialEvaluate, reducePolicy_eq, Policy.reduced] at h
  split at h
  · cases h
  · rename_i hv
    cases h
    exact ⟨hv, rfl, rfl⟩

theorem consulted_known (h : partialEvaluate p facts = .pending r consulted) :
    ∀ e ∈ consulted, e.1 ∈ requiredFacts p ∧ e.2 = facts.presence e.1 ∧ e.2 ≠ .unknown := by
  obtain ⟨-, -, rfl⟩ := pending_eq h
  intro e he
  obtain ⟨hprobe, hpresence⟩ := mem_tag.mp ((FirstSeen.mem_of_mem_extend he).resolve_left nofun)
  refine ⟨(mem_requiredFacts p).mpr (p.probes_subset_facts hprobe), hpresence, ?_⟩
  rw [hpresence]
  exact fun hu => p.known_of_mem_probes hprobe (PartialFacts.truth_eq_none.mpr hu)

theorem requiredResidualFacts_unknown (h : partialEvaluate p facts = .pending r consulted) :
    ∀ fact ∈ requiredResidualFacts r, fact ∈ requiredFacts p ∧ facts.presence fact = .unknown := by
  obtain ⟨hv, rfl, -⟩ := pending_eq h
  intro fact hfact
  obtain ⟨hf, hu⟩ := (Policy.facts_residue hv).1 fact ((mem_requiredResidualFacts _).mp hfact)
  exact ⟨(mem_requiredFacts p).mpr hf, PartialFacts.truth_eq_none.mp hu⟩

/-- A pending residual contains only open questions. -/
theorem pending_only_open (h : partialEvaluate p facts = .pending r consulted) :
    (∃ fact, fact ∈ requiredResidualFacts r) ∧
    (∀ fact ∈ requiredResidualFacts r,
      fact ∈ requiredFacts p ∧ facts.presence fact = .unknown) ∧
    (∀ g ∈ r.grants, g.condition.NoConstants) ∧
    (∀ e ∈ consulted, e.1 ∈ requiredFacts p ∧ e.2 = facts.presence e.1 ∧ e.2 ≠ .unknown) ∧
    (consulted.map Prod.fst).Nodup ∧
    (∀ e ∈ consulted, e.1 ∉ requiredResidualFacts r) ∧
    ∀ (L : SqlxLowerer O) (cx : Context) (predicates' : FactId → Context → Option SqlxFragment),
      (∀ fact, facts.presence fact = .unknown → predicates' fact cx = L.predicates fact cx) →
      { L with predicates := predicates' }.lower cx r = L.lower cx r ∧
      { L with predicates := predicates' }.lowerFilter cx r = L.lowerFilter cx r ∧
      { L with predicates := predicates' }.unmappedFacts r cx = L.unmappedFacts r cx := by
  have hunknown := requiredResidualFacts_unknown h
  have hknown := consulted_known h
  refine ⟨?_, hunknown, ?_, hknown, ?_, ?_, ?_⟩
  · obtain ⟨hv, rfl, -⟩ := pending_eq h
    obtain ⟨fact, hf⟩ := List.exists_mem_of_ne_nil _ (Policy.facts_residue hv).2
    exact ⟨fact, (mem_requiredResidualFacts _).mpr hf⟩
  · obtain ⟨hv, rfl, -⟩ := pending_eq h
    intro g hg
    obtain ⟨g', -, hk, rfl⟩ := (p.grants_residue hv).1 g hg
    exact (g'.condition.residue_open hk).noConstants
  · obtain ⟨-, -, rfl⟩ := pending_eq h
    exact FirstSeen.nodup_keys_extend _ List.nodup_nil
  · intro e he hasked
    obtain ⟨-, hpresence, hne⟩ := hknown e he
    exact hne (hpresence.trans (hunknown e.1 hasked).2)
  · intro L cx predicates' hagree
    have hasked : ∀ fact ∈ r.facts, predicates' fact cx = L.predicates fact cx := fun fact hf =>
      hagree fact (hunknown fact ((mem_requiredResidualFacts r).mpr hf)).2
    exact ⟨SqlxLowerer.lower_congr hasked, SqlxLowerer.lowerFilter_congr hasked,
      SqlxLowerer.unmappedFacts_congr hasked⟩

end Pending

namespace Sample

/-- Two arms that ask for membership, the second also for ownership. -/
def memberAndOwner : Policy Unit :=
  .all [grantIf (.has member) [], grantIf (.all [.has member, .has owner]) []]

/-- What is left of `memberAndOwner` for a member. -/
def ownerLeft : ResidualPolicy Unit :=
  .all [.permitWithTrace () [] [member] none, .grant ⟨(), .has owner, none, .forbidden, [], none⟩]

end Sample

open Sample in
theorem pending_only_open_member :
    partialEvaluate memberAndOwner (ownerUnknown .present) =
        .pending ownerLeft [(member, .present)] ∧
      (∀ fact ∈ requiredResidualFacts ownerLeft,
        fact ∈ requiredFacts memberAndOwner ∧ (ownerUnknown .present).presence fact = .unknown) ∧
      (∀ g ∈ ownerLeft.grants, g.condition.NoConstants) ∧
      ∀ e ∈ [(member, Presence.present)], e.1 ∉ requiredResidualFacts ownerLeft := by
  have h : partialEvaluate memberAndOwner (ownerUnknown .present) =
      .pending ownerLeft [(member, .present)] := rfl
  obtain ⟨-, hunknown, hconst, -, -, hdisjoint, -⟩ := pending_only_open h
  exact ⟨h, hunknown, hconst, hdisjoint⟩

end Gatekeep
