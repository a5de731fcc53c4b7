import Gatekeep.Context
import Gatekeep.Facts
import Gatekeep.Support.Result

/-!
# Gatekeep.Resolution

What a resolver returns with its facts, `resolution.rs` and `observation.rs`: metadata with a
freshness deadline, and selected observations. The constructors keep observations canonical,
at most `maxFactObservations` of them and strictly ordered by fact (`Canonical`), and never accept
a deadline before the observation. Both facts are fields of the structures here.
-/

namespace Gatekeep

inductive FactResolutionError where
  | invalidFreshnessWindow (observedAt freshUntil : OffsetDateTime)
  | expired (receivedAt freshUntil : OffsetDateTime)
  | observedInFuture (observedAt receivedAt : OffsetDateTime)
deriving DecidableEq

/-- The check that a deadline is not before the observation. -/
def freshnessWindow (freshUntil : Option OffsetDateTime) (observedAt : OffsetDateTime) :
    Except FactResolutionError Unit :=
  match freshUntil with
  | some freshUntil =>
    if freshUntil < observedAt then .error (.invalidFreshnessWindow observedAt freshUntil)
    else .ok ()
  | none => .ok ()

/-- The check of an observation against the time at which it is used. -/
def freshAt (freshUntil : Option OffsetDateTime) (observedAt receivedAt : OffsetDateTime) :
    Except FactResolutionError Unit :=
  if observedAt > receivedAt then .error (.observedInFuture observedAt receivedAt)
  else
    match freshUntil with
    | some freshUntil =>
      if receivedAt ≥ freshUntil then .error (.expired receivedAt freshUntil) else .ok ()
    | none => .ok ()

theorem freshnessWindow_eq_ok {freshUntil : Option OffsetDateTime} {observedAt : OffsetDateTime} :
    freshnessWindow freshUntil observedAt = .ok () ↔ ∀ d, freshUntil = some d → observedAt ≤ d := by
  unfold freshnessWindow
  cases freshUntil with
  | none => simp
  | some d => simp [OffsetDateTime.not_lt]

/-- In the past, and before the deadline if there is one. -/
theorem freshAt_eq_ok {freshUntil : Option OffsetDateTime} {observedAt receivedAt : OffsetDateTime} :
    freshAt freshUntil observedAt receivedAt = .ok () ↔
      observedAt ≤ receivedAt ∧ ∀ d, freshUntil = some d → receivedAt < d := by
  unfold freshAt
  rw [← OffsetDateTime.not_lt]
  by_cases hpast : receivedAt < observedAt
  · simp [hpast]
  · cases freshUntil with
    | none => simp [hpast]
    | some d => simp [hpast, OffsetDateTime.not_le]

structure FactResolutionMetadata where
  source : BindingProvenance
  revision : Option BindingProvenance
  freshUntil : Option OffsetDateTime
deriving DecidableEq

/-- The deadline in optional metadata. -/
def metadataFreshUntil (metadata : Option FactResolutionMetadata) : Option OffsetDateTime :=
  metadata.bind FactResolutionMetadata.freshUntil

/-! ## Observations -/

def maxFactObservations : Nat := 256

inductive ObservationError where
  | invalidIdentity
  | tooMany
  | duplicate
  | mismatch
  | freshness (error : FactResolutionError)
deriving DecidableEq

def observationIdentityValid (fact : FactId) : Bool :=
  !(fact.value.utf8ByteSize > 128 || fact.value.toList.any isControl)

/-- A selected boolean observation and bounded source metadata. -/
structure FactObservation where
  fact : FactId
  value : Bool
  metadata : Option FactResolutionMetadata
  observedAt : OffsetDateTime
  identity : observationIdentityValid fact = true
  window : freshnessWindow (metadataFreshUntil metadata) observedAt = .ok ()
deriving DecidableEq

namespace FactObservation

def new (fact : FactId) (value : Bool) (metadata : Option FactResolutionMetadata)
    (observedAt : OffsetDateTime) : Except ObservationError FactObservation :=
  if hid : observationIdentityValid fact then
    match hw : freshnessWindow (metadataFreshUntil metadata) observedAt with
    | .error e => .error (.freshness e)
    | .ok () => .ok ⟨fact, value, metadata, observedAt, hid, hw⟩
  else .error .invalidIdentity

theorem new_fields (o : FactObservation) :
    new o.fact o.value o.metadata o.observedAt = .ok o := by
  unfold new
  rw [dif_pos o.identity]
  split
  · rename_i e he
    rw [o.window] at he
    cases he
  · rfl

def validateAt (o : FactObservation) (now : OffsetDateTime) : Except FactResolutionError Unit :=
  freshAt (metadataFreshUntil o.metadata) o.observedAt now

/-- The loop of `validate_all`; `seen` are the identities so far. -/
def distinct (seen : List FactId) : List FactObservation → Except ObservationError Unit
  | [] => .ok ()
  | o :: os => if o.fact ∈ seen then .error .duplicate else distinct (o.fact :: seen) os

def validateAll (observations : List FactObservation) : Except ObservationError Unit :=
  if observations.length > maxFactObservations then .error .tooMany else distinct [] observations

/-- The presence an observation claims. -/
def expected (o : FactObservation) : Presence := if o.value then .present else .absent

/-- The loop of `match_all`. -/
def matchEach (observed : FactId → Option Presence) :
    List FactObservation → Except ObservationError Unit
  | [] => .ok ()
  | o :: os => if observed o.fact ≠ some o.expected then .error .mismatch else matchEach observed os

theorem matchEach_eq_ok {observed : FactId → Option Presence} {os : List FactObservation} :
    matchEach observed os = .ok () ↔ ∀ o ∈ os, observed o.fact = some o.expected := by
  induction os with
  | nil => simp [matchEach]
  | cons o os ih =>
    rw [matchEach, List.forall_mem_cons]
    split
    · rename_i hne
      simp [hne]
    · rename_i heq
      rw [ih]
      exact ⟨fun h => ⟨not_not.mp heq, h⟩, fun h => h.2⟩

def matchAll (observations : List FactObservation) (observed : FactId → Option Presence) :
    Except ObservationError Unit := do
  validateAll observations
  matchEach observed observations

/-- The order in which observations are kept. -/
def Ordered (a b : FactObservation) : Prop := (compare a.fact b.fact).isLE = true

instance : DecidableRel Ordered := fun _ _ => inferInstanceAs (Decidable (_ = _))

/-- `sort_by` the fact identity. -/
def sort (observations : List FactObservation) : List FactObservation :=
  observations.insertionSort Ordered

/-- Bounded, and strictly ordered by fact. -/
structure Canonical (observations : List FactObservation) : Prop where
  bounded : observations.length ≤ maxFactObservations
  ordered : observations.Pairwise fun a b => compare a.fact b.fact = .lt

theorem distinct_eq_ok {seen : List FactId} {os : List FactObservation} :
    distinct seen os = .ok () ↔
      (os.map FactObservation.fact).Nodup ∧ ∀ o ∈ os, o.fact ∉ seen := by
  induction os generalizing seen with
  | nil => simp [distinct]
  | cons o os ih =>
    rw [distinct, List.map_cons, List.nodup_cons, List.forall_mem_cons]
    split
    · rename_i h
      simp [h]
    · rename_i h
      rw [ih]
      simp only [List.mem_cons, not_or, List.mem_map, not_exists, not_and]
      constructor
      · rintro ⟨hnodup, hseen⟩
        exact ⟨⟨fun o' ho' => (hseen o' ho').1, hnodup⟩, h, fun o' ho' => (hseen o' ho').2⟩
      · rintro ⟨⟨hne, hnodup⟩, -, hseen⟩
        exact ⟨hnodup, fun o' ho' => ⟨hne o' ho', hseen o' ho'⟩⟩

theorem validateAll_eq_ok {os : List FactObservation} :
    validateAll os = .ok () ↔
      os.length ≤ maxFactObservations ∧ (os.map FactObservation.fact).Nodup := by
  unfold validateAll
  split
  · rename_i h
    simp [not_le.mpr h]
  · rename_i h
    rw [distinct_eq_ok]
    simp [not_lt.mp h]

theorem canonical_nil : Canonical [] := ⟨by decide, .nil⟩

/-- Sorting accepted observations makes them canonical. -/
theorem canonical_sort {os : List FactObservation} (h : validateAll os = .ok ()) :
    Canonical (sort os) := by
  obtain ⟨hlen, hnodup⟩ := validateAll_eq_ok.mp h
  have hperm : (sort os).Perm os := List.perm_insertionSort Ordered os
  have : Std.Total Ordered := ⟨fun a b => by
    unfold Ordered
    rw [@Std.OrientedCmp.eq_swap _ compare _ b.fact a.fact]
    cases compare a.fact b.fact <;> simp⟩
  have : IsTrans FactObservation Ordered := ⟨fun a b c => Std.TransCmp.isLE_trans⟩
  have hsorted : (sort os).Pairwise Ordered := List.pairwise_insertionSort Ordered os
  have hdistinct : (sort os).Pairwise fun a b => a.fact ≠ b.fact :=
    List.pairwise_map.mp ((hperm.map FactObservation.fact).nodup_iff.mpr hnodup)
  refine ⟨hperm.length_eq ▸ hlen, (hsorted.and hdistinct).imp fun {a b} hab => ?_⟩
  obtain ⟨hle, hne⟩ := hab
  unfold Ordered at hle
  cases hc : compare a.fact b.fact with
  | lt => rfl
  | eq => exact absurd (Std.LawfulEqCmp.eq_of_compare hc) hne
  | gt => rw [hc] at hle; cases hle

theorem validateAll_of_sort {os : List FactObservation} (h : validateAll (sort os) = .ok ()) :
    validateAll os = .ok () := by
  have hperm : (sort os).Perm os := List.perm_insertionSort Ordered os
  obtain ⟨hlen, hnodup⟩ := validateAll_eq_ok.mp h
  exact validateAll_eq_ok.mpr
    ⟨hperm.length_eq ▸ hlen, (hperm.map FactObservation.fact).nodup_iff.mp hnodup⟩

theorem Canonical.validateAll {os : List FactObservation} (h : Canonical os) :
    validateAll os = .ok () := by
  refine validateAll_eq_ok.mpr ⟨h.bounded, List.pairwise_map.mpr (h.ordered.imp fun {a b} hlt => ?_)⟩
  intro heq
  rw [heq, @Std.ReflCmp.compare_self _ compare _ b.fact] at hlt
  cases hlt

theorem Canonical.sort {os : List FactObservation} (h : Canonical os) : sort os = os :=
  List.Pairwise.insertionSort_eq (h.ordered.imp fun hlt => by rw [Ordered, hlt]; rfl)

end FactObservation

/-! ## Resolutions -/

/-- One atomic result from a fact resolver. -/
structure FactResolution (F : Type) where
  facts : F
  metadata : Option FactResolutionMetadata
  observedAt : OffsetDateTime
  observations : List FactObservation
  window : freshnessWindow (metadataFreshUntil metadata) observedAt = .ok ()
  canonical : FactObservation.Canonical observations

namespace FactResolution

variable {F : Type}

def new (facts : F) (metadata : Option FactResolutionMetadata) (observedAt : OffsetDateTime) :
    Except FactResolutionError (FactResolution F) :=
  match h : freshnessWindow (metadataFreshUntil metadata) observedAt with
  | .error e => .error e
  | .ok () => .ok ⟨facts, metadata, observedAt, [], h, FactObservation.canonical_nil⟩

/-- Attach observations, checked against the facts. -/
def withObservations (r : FactResolution KnownFacts) (observations : List FactObservation) :
    Except ObservationError (FactResolution KnownFacts) :=
  match hv : FactObservation.validateAll observations with
  | .error e => .error e
  | .ok () =>
    match FactObservation.matchEach r.facts.observation observations with
    | .error e => .error e
    | .ok () =>
      .ok { r with
        observations := FactObservation.sort observations
        canonical := FactObservation.canonical_sort hv }

/-- The observations are checked first, then the set. -/
def validateAt (r : FactResolution F) (receivedAt : OffsetDateTime) :
    Except FactResolutionError Unit := do
  r.observations.forM fun o => o.validateAt receivedAt
  freshAt (metadataFreshUntil r.metadata) r.observedAt receivedAt

theorem validateAt_eq_ok {r : FactResolution F} {receivedAt : OffsetDateTime} :
    r.validateAt receivedAt = .ok () ↔
      (∀ o ∈ r.observations, o.validateAt receivedAt = .ok ()) ∧
        freshAt (metadataFreshUntil r.metadata) r.observedAt receivedAt = .ok () := by
  unfold validateAt
  rw [Result.check_eq_ok, Result.forM_eq_ok]

end FactResolution

/-! ## Evidence -/

/-- Bounded evidence for the complete resolved fact set used by one decision. -/
structure FactResolutionEvidence where
  source : Option BindingProvenance
  revision : Option BindingProvenance
  observedAt : OffsetDateTime
  freshUntil : Option OffsetDateTime
  factSetDigest : EvidenceDigest
  observations : List FactObservation
  window : freshnessWindow freshUntil observedAt = .ok ()
  canonical : FactObservation.Canonical observations
deriving DecidableEq

/-- The text of an error of `postcard`. -/
abbrev PostcardError := String

inductive FactResolutionEvidenceError where
  | observation (error : ObservationError)
  | serialization (error : PostcardError)
deriving DecidableEq

namespace FactResolutionEvidence

def validate (e : FactResolutionEvidence) : Except FactResolutionError Unit :=
  freshnessWindow e.freshUntil e.observedAt

/-- `digest` stands for the hash of the deterministic fact encoding. -/
def fromResolution (digest : KnownFacts → Except PostcardError EvidenceDigest)
    (r : FactResolution KnownFacts) :
    Except FactResolutionEvidenceError FactResolutionEvidence := do
  (FactObservation.matchAll r.observations r.facts.observation).mapError .observation
  let factSetDigest ← (digest r.facts).mapError .serialization
  return {
    source := r.metadata.map FactResolutionMetadata.source
    revision := r.metadata.bind FactResolutionMetadata.revision
    observedAt := r.observedAt
    freshUntil := metadataFreshUntil r.metadata
    factSetDigest
    observations := r.observations
    window := r.window
    canonical := r.canonical }

/-- The observations in evidence are those of the resolution, and its facts bear them out. -/
theorem observations_fromResolution {digest : KnownFacts → Except PostcardError EvidenceDigest}
    {r : FactResolution KnownFacts} {e : FactResolutionEvidence}
    (h : fromResolution digest r = .ok e) :
    e.observations = r.observations ∧
      ∀ o ∈ r.observations, r.facts.observation o.fact = some o.expected := by
  unfold fromResolution at h
  obtain ⟨hmatch, hrest⟩ := Result.check_eq_ok.mp h
  obtain ⟨-, heach⟩ := Result.check_eq_ok.mp (Result.mapError_eq_ok.mp hmatch)
  obtain ⟨factSetDigest, -, he⟩ := Result.bind_eq_ok.mp hrest
  cases he
  exact ⟨rfl, FactObservation.matchEach_eq_ok.mp heach⟩

end FactResolutionEvidence

end Gatekeep
