import Gatekeep.Wire

/-!
# Gatekeep.Observations

Selected observations on every way into a resolution or its evidence: the constructors, the decoders
and `from_resolution`. Each way checks before or after sorting, and all of them end with the same
thing, observations in strict fact order that agree with the facts beside them
(`selected_observations_canonical`). The checks do not depend on the order of what is given, so
neither does the result (`withObservations_perm`).
-/

namespace Gatekeep

open Serde

namespace FactObservation

variable {os os' : List FactObservation}

theorem distinct_eq (seen : List FactId) (os : List FactObservation) :
    distinct seen os = .ok () ∨ distinct seen os = .error .duplicate := by
  induction os generalizing seen with
  | nil => exact .inl rfl
  | cons o os ih =>
    rw [distinct]
    split
    · exact .inr rfl
    · exact ih _

theorem validateAll_eq (os : List FactObservation) :
    validateAll os = if os.length > maxFactObservations then .error .tooMany
      else if (os.map fact).Nodup then .ok () else .error .duplicate := by
  unfold validateAll
  have hok : distinct [] os = .ok () ↔ (os.map fact).Nodup := by
    rw [distinct_eq_ok]
    simp
  split
  · rfl
  · split
    · rename_i h
      exact hok.mpr h
    · rename_i h
      exact (distinct_eq [] os).resolve_left fun hd => h (hok.mp hd)

theorem matchEach_eq (observed : FactId → Option Presence) (os : List FactObservation) :
    matchEach observed os = if ∀ o ∈ os, observed o.fact = some o.expected then .ok ()
      else .error .mismatch := by
  induction os with
  | nil => rfl
  | cons o os ih =>
    rw [matchEach, ih]
    simp only [List.forall_mem_cons]
    by_cases h : observed o.fact = some o.expected
    · simp only [h, ne_eq, not_true, if_false, true_and]
    · simp only [h, ne_eq, not_false_eq_true, if_true, false_and, if_false]

theorem validateAll_perm (h : os.Perm os') : validateAll os = validateAll os' := by
  rw [validateAll_eq, validateAll_eq, h.length_eq]
  simp only [(h.map fact).nodup_iff]

theorem matchEach_perm (observed : FactId → Option Presence) (h : os.Perm os') :
    matchEach observed os = matchEach observed os' := by
  rw [matchEach_eq, matchEach_eq]
  simp only [h.mem_iff]

theorem sort_perm (os : List FactObservation) : (sort os).Perm os :=
  List.perm_insertionSort Ordered os

/-- There is one way to order observations of different facts. -/
theorem sort_eq_of_perm (hvalid : validateAll os = .ok ()) (h : os.Perm os') :
    sort os = sort os' := by
  have hvalid' : validateAll os' = .ok () := validateAll_perm h ▸ hvalid
  refine List.Perm.eq_of_pairwise ?_ (canonical_sort hvalid).ordered (canonical_sort hvalid').ordered
    ((sort_perm os).trans (h.trans (sort_perm os').symm))
  intro a b _ _ hab hba
  have hswap : compare b.fact a.fact = (compare a.fact b.fact).swap := Std.OrientedCmp.eq_swap
  rw [hswap, hab] at hba
  cases hba

end FactObservation

/-- Fact bundles whose explicit entries can be looked up. -/
class ObservationFacts (F : Type) where
  observation : F → FactId → Option Presence

instance instObservationFactsKnownFacts : ObservationFacts KnownFacts := ⟨KnownFacts.observation⟩

instance instObservationFactsPartialFacts : ObservationFacts PartialFacts :=
  ⟨PartialFacts.observation⟩

namespace Wire

variable {F : Type} [ObservationFacts F]

/-- The checks of the decoder of a resolution, which sorts last. -/
def checkResolution (facts : F) (metadata : Option FactResolutionMetadata)
    (observedAt : OffsetDateTime) (observations : List FactObservation) :
    Except (Error WireError) (FactResolution F) :=
  match hv : FactObservation.validateAll observations with
  | .error e => .error (.custom (.observation e))
  | .ok () =>
    match FactObservation.matchEach (ObservationFacts.observation facts) observations with
    | .error e => .error (.custom (.observation e))
    | .ok () =>
      match FactResolution.new facts metadata observedAt with
      | .error e => .error (.custom (.resolution e))
      | .ok resolution =>
        .ok { resolution with
          observations := FactObservation.sort observations
          canonical := FactObservation.canonical_sort hv }

def readFactResolution (time : Codec WireError OffsetDateTime) (readFacts : Reader WireError F) :
    Reader WireError (FactResolution F) := fun j => do
  let r ← Record.ofJson ["facts", "metadata", "observed_at", "observations"] j
  let facts ← r.required 0 "facts" readFacts
  let metadata ← r.optional 1 "metadata" (factResolutionMetadata time).read
  let observedAt ← r.required 2 "observed_at" time.read
  let observations ← r.defaulted 3 "observations" [] (list (factObservation time)).read
  checkResolution facts metadata observedAt observations

end Wire

/-! ## What can be obtained -/

/-- A resolution of known facts that some sequence of constructors and decoders gives. -/
inductive FactResolution.Obtained : FactResolution KnownFacts → Prop
  | new {facts : KnownFacts} {metadata : Option FactResolutionMetadata}
      {observedAt : OffsetDateTime} {r : FactResolution KnownFacts}
      (h : FactResolution.new facts metadata observedAt = .ok r) : Obtained r
  | withObservations {r r' : FactResolution KnownFacts} {observations : List FactObservation}
      (h : Obtained r) (hr : r.withObservations observations = .ok r') : Obtained r'
  | deserialized {time : Codec WireError OffsetDateTime} {readFacts : Reader WireError KnownFacts}
      {j : Json} {r : FactResolution KnownFacts}
      (h : Wire.readFactResolution time readFacts j = .ok r) : Obtained r

/-- Evidence that some sequence of them gives. -/
inductive FactResolutionEvidence.Obtained (digest : KnownFacts → Except PostcardError EvidenceDigest) :
    FactResolutionEvidence → Prop
  | fromResolution {r : FactResolution KnownFacts} {e : FactResolutionEvidence} (h : r.Obtained)
      (he : FactResolutionEvidence.fromResolution digest r = .ok e) : Obtained digest e
  | deserialized {time : Codec WireError OffsetDateTime} {j : Json} {e : FactResolutionEvidence}
      (h : (Wire.factResolutionEvidence time).read j = .ok e) : Obtained digest e

namespace FactResolution

/-- The facts have every observation, with its boolean. -/
def Matched (r : FactResolution KnownFacts) : Prop :=
  ∀ o ∈ r.observations, r.facts.observation o.fact = some o.expected

theorem observations_new {facts : KnownFacts} {metadata : Option FactResolutionMetadata}
    {observedAt : OffsetDateTime} {r : FactResolution KnownFacts}
    (h : FactResolution.new facts metadata observedAt = .ok r) :
    r.facts = facts ∧ r.observations = [] := by
  unfold FactResolution.new at h
  split at h
  · cases h
  · cases h
    exact ⟨rfl, rfl⟩

/-- Sorting what matches keeps it so. -/
theorem matched_sort {facts : KnownFacts} {os : List FactObservation}
    (h : FactObservation.matchEach facts.observation os = .ok ()) :
    ∀ o ∈ FactObservation.sort os, facts.observation o.fact = some o.expected :=
  fun o ho => FactObservation.matchEach_eq_ok.mp h o ((FactObservation.sort_perm os).mem_iff.mp ho)

theorem matched_withObservations {r r' : FactResolution KnownFacts} {os : List FactObservation}
    (h : r.withObservations os = .ok r') : r'.Matched := by
  unfold withObservations at h
  split at h
  · cases h
  · split at h
    · cases h
    · rename_i hmatch
      cases h
      exact matched_sort hmatch

theorem matched_checkResolution {facts : KnownFacts} {metadata : Option FactResolutionMetadata}
    {observedAt : OffsetDateTime} {os : List FactObservation} {r : FactResolution KnownFacts}
    (h : Wire.checkResolution facts metadata observedAt os = .ok r) : r.Matched := by
  unfold Wire.checkResolution at h
  split at h
  · cases h
  · split at h
    · cases h
    · rename_i hmatch
      split at h
      · cases h
      · rename_i base hbase
        cases h
        unfold Matched
        dsimp only
        rw [(observations_new hbase).1]
        exact matched_sort hmatch

theorem Obtained.matched {r : FactResolution KnownFacts} (h : r.Obtained) : r.Matched := by
  cases h with
  | new h =>
    intro o ho
    rw [(observations_new h).2] at ho
    cases ho
  | withObservations _ hr => exact matched_withObservations hr
  | deserialized h =>
    obtain ⟨record, -, h⟩ := Result.bind_eq_ok.mp h
    obtain ⟨facts, -, h⟩ := Result.bind_eq_ok.mp h
    obtain ⟨metadata, -, h⟩ := Result.bind_eq_ok.mp h
    obtain ⟨observedAt, -, h⟩ := Result.bind_eq_ok.mp h
    obtain ⟨observations, -, h⟩ := Result.bind_eq_ok.mp h
    exact matched_checkResolution h

theorem withObservations_of_invalid (r : FactResolution KnownFacts) {os : List FactObservation}
    {e : ObservationError} (h : FactObservation.validateAll os = .error e) :
    r.withObservations os = .error e := by
  unfold withObservations
  split
  · rename_i e' he
    rw [h] at he
    cases he
    rfl
  · rename_i hok
    rw [h] at hok
    cases hok

theorem withObservations_of_valid (r : FactResolution KnownFacts) {os : List FactObservation}
    (h : FactObservation.validateAll os = .ok ()) :
    r.withObservations os = (FactObservation.matchEach r.facts.observation os).map fun _ =>
      { r with
        observations := FactObservation.sort os
        canonical := FactObservation.canonical_sort h } := by
  unfold withObservations
  split
  · rename_i e he
    rw [h] at he
    cases he
  · split <;> rename_i hmatch <;> rw [hmatch] <;> rfl

/-- Neither the result nor the error depends on the order of the observations. -/
theorem withObservations_perm (r : FactResolution KnownFacts) {os os' : List FactObservation}
    (h : os.Perm os') : r.withObservations os = r.withObservations os' := by
  have hsame := FactObservation.validateAll_perm h
  cases hvalid : FactObservation.validateAll os with
  | error e =>
    rw [r.withObservations_of_invalid hvalid, r.withObservations_of_invalid (hsame ▸ hvalid)]
  | ok =>
    have hsort := FactObservation.sort_eq_of_perm hvalid h
    rw [r.withObservations_of_valid hvalid, r.withObservations_of_valid (hsame ▸ hvalid),
      FactObservation.matchEach_perm _ h]
    simp only [hsort]

end FactResolution

/-- The comparison of observations and facts succeeds once more. -/
theorem FactResolutionEvidence.fromResolution_ne_observation
    (digest : KnownFacts → Except PostcardError EvidenceDigest) {r : FactResolution KnownFacts}
    (h : r.Matched) (e : ObservationError) :
    FactResolutionEvidence.fromResolution digest r ≠ .error (.observation e) := by
  have hmatch : FactObservation.matchAll r.observations r.facts.observation = .ok () :=
    Result.check_eq_ok.mpr ⟨r.canonical.validateAll, FactObservation.matchEach_eq_ok.mpr h⟩
  rw [FactResolutionEvidence.fromResolution, hmatch]
  show (((digest r.facts).mapError FactResolutionEvidenceError.serialization) >>= _) ≠ _
  cases digest r.facts with
  | error text =>
    intro herror
    cases herror
  | ok d =>
    intro herror
    cases herror

/-- However a resolution or its evidence came about, its observations are bounded and in strict fact
order, and those of a resolution are borne out by its facts. What attaching observations does is
independent of their order, evidence is never refused for its observations, and evidence is read
back as it was written. -/
theorem selected_observations_canonical (time : Codec WireError OffsetDateTime)
    (digest : KnownFacts → Except PostcardError EvidenceDigest) :
    (∀ r : FactResolution KnownFacts, r.Obtained →
      r.observations.Pairwise (fun a b => compare a.fact b.fact = .lt) ∧
      r.observations.length ≤ 256 ∧
      ∀ o ∈ r.observations, r.facts.observation o.fact =
        some (if o.value then Presence.present else Presence.absent)) ∧
    (∀ e : FactResolutionEvidence, e.Obtained digest →
      e.observations.Pairwise (fun a b => compare a.fact b.fact = .lt) ∧
      e.observations.length ≤ 256) ∧
    (∀ (r : FactResolution KnownFacts) (os os' : List FactObservation), os.Perm os' →
      r.withObservations os = r.withObservations os') ∧
    (∀ r : FactResolution KnownFacts, r.Obtained → ∀ e,
      FactResolutionEvidence.fromResolution digest r ≠ .error (.observation e)) ∧
    ∀ e : FactResolutionEvidence,
      (Wire.factResolutionEvidence time).read ((Wire.factResolutionEvidence time).write e) = .ok e :=
  ⟨fun r h => ⟨r.canonical.ordered, r.canonical.bounded, h.matched⟩,
    fun e _ => ⟨e.canonical.ordered, e.canonical.bounded⟩,
    fun r _ _ => r.withObservations_perm,
    fun _ h => FactResolutionEvidence.fromResolution_ne_observation digest h.matched,
    (Wire.factResolutionEvidence time).read_write⟩

end Gatekeep
