import Gatekeep.Authorization.Boundary
import Gatekeep.Trace

/-!
# Gatekeep.Replay

Reconstructing a recorded decision, `replay.rs`.

Replay sees less than the decision did: the observations that the evidence retained, and neither
the facts nor their source. `replay_assembled` says that this is enough exactly when the retained
observations cover what the policy requires. It rests on two facts: the retained booleans are those
of the facts (`presence_retained`), and evaluation reads only required facts.
-/

namespace Gatekeep

open Traced

inductive ReplayError where
  | policyMismatch
  | missingObservations (facts : List FactId)
deriving DecidableEq

/-- The facts that observations retain. -/
def retained (observations : List FactObservation) : KnownFacts :=
  KnownFacts.fromKnownEntries (observations.map fun o => (o.fact, o.expected))

section Replay

variable {O : Type} [Lattice O] [DecidableEq O]

def PreparedPolicy.replay (policy : PreparedPolicy O) (entry : AuditEntry) :
    Except ReplayError (Decision O) :=
  if policy.anchor ≠ entry.anchor then .error .policyMismatch
  else
    let facts := retained entry.factResolution.observations
    let missing := policy.required.filter fun fact => (facts.observation fact).isNone
    if !missing.isEmpty then .error (.missingObservations missing)
    else .ok (evaluate policy.policy facts)

end Replay

/-! ## Retained facts -/

theorem FactObservation.expected_ne_unknown (o : FactObservation) : o.expected ≠ .unknown := by
  unfold expected
  split <;> decide

theorem observation_retained (observations : List FactObservation) (fact : FactId) :
    (retained observations).observation fact =
      (Facts.fromEntries (observations.map fun o => (o.fact, o.expected))).observation fact := by
  have hall : ((observations.map fun o => (o.fact, o.expected)).filter fun e => e.2 != .unknown) =
      observations.map fun o => (o.fact, o.expected) := by
    rw [List.filter_eq_self]
    intro e he
    obtain ⟨o, -, rfl⟩ := List.mem_map.mp he
    simpa using o.expected_ne_unknown
  show (Facts.fromEntries (List.filter _ _)).observation fact = _
  rw [hall]

/-- Whether any of the observations is of a fact. -/
def covers (observations : List FactObservation) (fact : FactId) : Bool :=
  observations.any fun o => o.fact == fact

theorem covers_eq_true {observations : List FactObservation} {fact : FactId} :
    covers observations fact = true ↔ ∃ o ∈ observations, o.fact = fact := by
  simp [covers]

theorem observation_retained_uncovered {observations : List FactObservation} {fact : FactId}
    (h : covers observations fact = false) : (retained observations).observation fact = none := by
  rw [observation_retained, Facts.fromEntries, Facts.observation_foldl_of_not_mem]
  · exact Facts.observation_empty fact
  · intro e he hfact
    obtain ⟨o, ho, rfl⟩ := List.mem_map.mp he
    have := covers_eq_true.mpr ⟨o, ho, hfact⟩
    rw [h] at this
    cases this

/-- A covered fact is retained as the resolution has it. -/
theorem observation_retained_covered {facts : KnownFacts} {observations : List FactObservation}
    (hmatch : ∀ o ∈ observations, facts.observation o.fact = some o.expected) {fact : FactId}
    (h : covers observations fact = true) :
    (retained observations).observation fact = facts.observation fact := by
  obtain ⟨o, ho, rfl⟩ := covers_eq_true.mp h
  rw [hmatch o ho, observation_retained, Facts.fromEntries]
  refine Facts.observation_foldl_of_mem _ _ _ _ (List.mem_map.mpr ⟨o, ho, rfl⟩) ?_
  intro e he hfact
  obtain ⟨o', ho', rfl⟩ := List.mem_map.mp he
  have hsame := hmatch o' ho'
  rw [show o'.fact = o.fact from hfact, hmatch o ho] at hsame
  exact (Option.some.inj hsame).symm

/-! ## Replaying -/

section Results

variable {O : Type} [Lattice O] [DecidableEq O]

/-- The required facts that no observation covers, in their order. -/
def PreparedPolicy.uncovered (policy : PreparedPolicy O) (observations : List FactObservation) :
    List FactId := policy.required.filter fun fact => !covers observations fact

/-- Evaluation reads required facts only, so the retained ones do. -/
theorem evaluate_retained {policy : PreparedPolicy O} {facts : KnownFacts}
    {observations : List FactObservation}
    (hmatch : ∀ o ∈ observations, facts.observation o.fact = some o.expected)
    (hcovered : policy.uncovered observations = []) :
    evaluate policy.policy (retained observations) = evaluate policy.policy facts := by
  refine evaluate_congr fun fact hfact => ?_
  have hmem : fact ∈ policy.required := policy.mem_required.mpr (consulted_required hfact)
  have hcovers : covers observations fact = true := by
    simpa using List.filter_eq_nil_iff.mp hcovered fact hmem
  exact KnownFacts.presence_eq_of_observation (observation_retained_covered hmatch hcovers)

omit [Lattice O] [DecidableEq O] in
/-- What replay reports missing is what the observations do not cover. -/
theorem missing_eq_uncovered (policy : PreparedPolicy O) {facts : KnownFacts}
    {observations : List FactObservation}
    (hmatch : ∀ o ∈ observations, facts.observation o.fact = some o.expected) :
    (policy.required.filter fun fact => ((retained observations).observation fact).isNone) =
      policy.uncovered observations := by
  refine List.filter_congr fun fact hfact => ?_
  cases hcovers : covers observations fact with
  | true =>
    rw [observation_retained_covered hmatch hcovers]
    obtain ⟨o, ho, rfl⟩ := covers_eq_true.mp hcovers
    rw [hmatch o ho]
    rfl
  | false =>
    rw [observation_retained_uncovered hcovers]
    rfl

omit [Lattice O] [DecidableEq O] in
/-- In which order observations are attached does not matter. -/
theorem uncovered_withObservations (policy : PreparedPolicy O) {base r : FactResolution KnownFacts}
    {observations : List FactObservation} (h : base.withObservations observations = .ok r) :
    policy.uncovered r.observations = policy.uncovered observations := by
  have hsorted : r.observations = FactObservation.sort observations := by
    unfold FactResolution.withObservations at h
    split at h
    · cases h
    · split at h
      · cases h
      · cases h; rfl
  have hperm : (FactObservation.sort observations).Perm observations :=
    List.perm_insertionSort FactObservation.Ordered observations
  refine List.filter_congr fun fact _ => ?_
  rw [hsorted, covers, covers, hperm.any_eq]

variable [Serialize O]

/-- Replay reproduces the recorded decision when the retained observations cover the required facts,
and otherwise names the required facts they do not cover. -/
theorem replay_assembled {σ Resolver R A T : Type} (a : Authorizer σ Resolver A)
    (policy : PreparedPolicy O) (cx : Context) (resolution : FactResolution KnownFacts) (w : σ)
    (pending : PendingDecision O)
    (h : ((a.prepareResolution policy cx resolution : Authorizer.Run σ R A T _) w).result =
      .ok pending) :
    (policy.uncovered resolution.observations = [] →
      policy.replay pending.entry = .ok pending.decision) ∧
    (policy.uncovered resolution.observations ≠ [] → policy.replay pending.entry =
      .error (.missingObservations (policy.uncovered resolution.observations))) ∧
    ∀ (base : FactResolution KnownFacts) (observations : List FactObservation),
      base.withObservations observations = .ok resolution →
      policy.uncovered resolution.observations = policy.uncovered observations := by
  obtain ⟨r, calls, w', -, ⟨pending', hrun, hassembled⟩ | ⟨e, hrun, -⟩⟩ :=
    a.assemble_cases (R := R) (T := T) policy.policy policy.anchor (some policy.required) cx
      resolution w
  swap
  · rw [Authorizer.prepareResolution, hrun] at h
    cases h
  rw [Authorizer.prepareResolution, hrun] at h
  cases h
  obtain ⟨evidence, occurrence, hevidence, -, hentry⟩ := hassembled.built
  obtain ⟨hobservations, hmatch⟩ := FactResolutionEvidence.observations_fromResolution hevidence
  obtain ⟨trace, reason, -, -, -, hrecord⟩ := AuditEntry.fromDecision_eq_ok.mp hentry
  have hanchor : pending.entry.anchor = policy.anchor := by rw [hrecord]
  have hretained : pending.entry.factResolution.observations = resolution.observations := by
    rw [hrecord]
    exact hobservations
  have hreplay : policy.replay pending.entry =
      if !(policy.uncovered resolution.observations).isEmpty then
        .error (.missingObservations (policy.uncovered resolution.observations))
      else .ok (evaluate policy.policy (retained resolution.observations)) := by
    unfold PreparedPolicy.replay
    rw [if_neg (by simp [hanchor])]
    simp only [hretained, missing_eq_uncovered policy hmatch]
  refine ⟨fun hcovered => ?_, fun huncovered => ?_, fun base observations hattached => ?_⟩
  · rw [hreplay, hcovered, hassembled.decision, evaluate_retained hmatch hcovered]
    rfl
  · rw [hreplay, if_pos (by simpa using huncovered)]
  · exact uncovered_withObservations policy hattached

end Results

namespace Sample

/-- The owner is present, and observed. -/
def ownerObserved : FactResolution KnownFacts where
  facts := KnownFacts.new.withPresent owner
  metadata := none
  observedAt := noon
  observations := [⟨owner, true, none, noon, by decide, rfl⟩]
  window := rfl
  canonical := ⟨by decide, List.pairwise_singleton _ _⟩

def owners : PreparedPolicy Unit :=
  ⟨grantIf (.has owner) [], anchor, requiredList (grantIf (.has owner) []), rfl⟩

/-- Nothing but a clock at noon and fresh identities. -/
def atNoon : Authorizer Unit Unit Unit where
  resolver := ()
  auditSink _ w := (.ok (), w)
  observer _ w := w
  clock w := (noon, w)
  ids w := (generatedId, w)
  digest _ := .ok ⟨Vector.replicate 32 0⟩

theorem ownerObserved_pending :
    ((atNoon.prepareResolution owners request ownerObserved :
      Authorizer.Run Unit Unit Unit Unit _) ()).result.toOption.isSome = true := by
  decide +kernel

end Sample

open Sample in
theorem replay_ownerObserved :
    ∃ pending, ((atNoon.prepareResolution owners request ownerObserved :
        Authorizer.Run Unit Unit Unit Unit _) ()).result = .ok pending ∧
      owners.replay pending.entry = .ok pending.decision := by
  have hsome := ownerObserved_pending
  cases hrun : ((atNoon.prepareResolution owners request ownerObserved :
      Authorizer.Run Unit Unit Unit Unit _) ()).result with
  | error e =>
    rw [hrun] at hsome
    cases hsome
  | ok pending =>
    refine ⟨pending, rfl, ?_⟩
    exact (replay_assembled atNoon owners request ownerObserved () pending hrun).1
      (by decide +kernel)

end Gatekeep
