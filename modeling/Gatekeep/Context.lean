import Gatekeep.Identity
import Gatekeep.Instant

/-!
# Gatekeep.Context

Tenant bindings and the request context, `tenant.rs` and `context.rs`. A binding carries the
window its constructor checked; a context carries that its tenant is its binding's tenant.
-/

namespace Gatekeep

/-! ## Tenant bindings -/

def maxProvenanceChars : Nat := 128

def provenanceValid (value : String) : Bool :=
  !(isBlank value || value.toList.any isControl || value.length > maxProvenanceChars)

inductive TenantBindingError where
  | invalidProvenance (value : String)
  | invalidWindow
  | notYetValid (validFrom now : OffsetDateTime)
  | stale (validUntil now : OffsetDateTime)
  | authenticatedInFuture (authenticatedAt now : OffsetDateTime)
deriving DecidableEq

/-- Bounded application-supplied provenance for a tenant or resolver binding. -/
structure BindingProvenance where
  value : String
  valid : provenanceValid value = true
deriving DecidableEq

def BindingProvenance.new (value : String) : Except TenantBindingError BindingProvenance :=
  if h : provenanceValid value then .ok ⟨value, h⟩ else .error (.invalidProvenance value)

theorem BindingProvenance.new_value (p : BindingProvenance) :
    BindingProvenance.new p.value = .ok p := by
  rw [BindingProvenance.new, dif_pos p.valid]

/-- Fixed-size digest carried as evidence. -/
structure EvidenceDigest where
  bytes : Vector UInt8 32
deriving DecidableEq

inductive BindingAuthority where
  | issuer (issuer : BindingProvenance) (keyId : Option BindingProvenance)
  | provider (provider : BindingProvenance) (keyId : Option BindingProvenance)
deriving DecidableEq

structure TenantBindingEvidence where
  authority : BindingAuthority
  authenticatedAt : OffsetDateTime
  claimsDigest : EvidenceDigest
deriving DecidableEq

/-- An application-verified tenant binding with an explicit validity window. -/
structure ApplicationVerifiedTenantBinding where
  tenant : TenantId
  evidence : TenantBindingEvidence
  validFrom : OffsetDateTime
  validUntil : OffsetDateTime
  window : ¬(validUntil ≤ validFrom ∨ evidence.authenticatedAt > validUntil)
deriving DecidableEq

namespace ApplicationVerifiedTenantBinding

def new (tenant : TenantId) (evidence : TenantBindingEvidence)
    (validFrom validUntil : OffsetDateTime) :
    Except TenantBindingError ApplicationVerifiedTenantBinding :=
  if h : validUntil ≤ validFrom ∨ evidence.authenticatedAt > validUntil then .error .invalidWindow
  else .ok ⟨tenant, evidence, validFrom, validUntil, h⟩

theorem new_fields (b : ApplicationVerifiedTenantBinding) :
    new b.tenant b.evidence b.validFrom b.validUntil = .ok b := by
  rw [new, dif_neg b.window]

def validateAt (b : ApplicationVerifiedTenantBinding) (now : OffsetDateTime) :
    Except TenantBindingError Unit :=
  if b.evidence.authenticatedAt > now then
    .error (.authenticatedInFuture b.evidence.authenticatedAt now)
  else if now < b.validFrom then .error (.notYetValid b.validFrom now)
  else if now ≥ b.validUntil then .error (.stale b.validUntil now)
  else .ok ()

theorem validateAt_eq_ok {b : ApplicationVerifiedTenantBinding} {now : OffsetDateTime} :
    b.validateAt now = .ok () ↔
      b.evidence.authenticatedAt ≤ now ∧ b.validFrom ≤ now ∧ now < b.validUntil := by
  unfold validateAt
  by_cases hauth : b.evidence.authenticatedAt > now
  · simp [hauth, ← OffsetDateTime.not_lt]
  · by_cases hfrom : now < b.validFrom
    · simp [hauth, hfrom, ← OffsetDateTime.not_lt]
    · have hpast := OffsetDateTime.not_lt.mp hauth
      have hvalid := OffsetDateTime.not_lt.mp hfrom
      simp [hauth, hfrom, hpast, hvalid, OffsetDateTime.not_le]

end ApplicationVerifiedTenantBinding

/-- A binding for an explicitly trusted internal service. -/
structure TrustedServiceBinding where
  tenant : TenantId
  service : BindingProvenance
deriving DecidableEq

def TrustedServiceBinding.new (tenant : TenantId) (service : String) :
    Except TenantBindingError TrustedServiceBinding :=
  (BindingProvenance.new service).map fun service => ⟨tenant, service⟩

inductive TenantBinding where
  | applicationVerified (binding : ApplicationVerifiedTenantBinding)
  | trustedService (binding : TrustedServiceBinding)
deriving DecidableEq

namespace TenantBinding

def tenant : TenantBinding → TenantId
  | .applicationVerified binding => binding.tenant
  | .trustedService binding => binding.tenant

def validateAt (binding : TenantBinding) (now : OffsetDateTime) : Except TenantBindingError Unit :=
  match binding with
  | .applicationVerified binding => binding.validateAt now
  | .trustedService _ => .ok ()

end TenantBinding

/-! ## Decision occurrences -/

inductive DecisionAuditOccurrenceError where
  | reservedLegacyIdentity
  | outOfRange
  | nonCanonical
deriving DecidableEq

/-- The stable identity and authoritative occurrence time for one decision. -/
@[ext] structure DecisionAuditOccurrence where
  decisionAuditId : DecisionAuditId
  occurredAt : OffsetDateTime
deriving DecidableEq

namespace DecisionAuditOccurrence

def maxPortableUnixSeconds : Int := 253402300799

def new (decisionAuditId : DecisionAuditId) (occurredAt : OffsetDateTime) :
    Except DecisionAuditOccurrenceError DecisionAuditOccurrence :=
  if startsWith decisionAuditId.value "legacy-" then .error .reservedLegacyIdentity
  else if h : 0 ≤ occurredAt.unixTimestamp ∧ occurredAt.unixTimestamp ≤ maxPortableUnixSeconds then
    match checkedSub occurredAt.nanosecond (occurredAt.nanosecond % 1000) with
    | none => .error .outOfRange
    | some normalizedNanosecond =>
      if occurredAt.unixTimestamp = maxPortableUnixSeconds ∧ normalizedNanosecond > 999999000 then
        .error .outOfRange
      else
        match hn : occurredAt.replaceNanosecond normalizedNanosecond with
        | none => .error .outOfRange
        | some normalized =>
          .ok ⟨decisionAuditId, normalized.toUtc (by
            rw [OffsetDateTime.seconds_replaceNanosecond hn]
            simp only [OffsetDateTime.unixTimestamp, maxPortableUnixSeconds] at h
            simp only [minLocalSeconds, maxLocalSeconds]
            omega)⟩
  else .error .outOfRange

/-- Whether a value keeps what its constructor established. -/
def validate (o : DecisionAuditOccurrence) : Except DecisionAuditOccurrenceError Unit :=
  match new o.decisionAuditId o.occurredAt with
  | .error e => .error e
  | .ok _ =>
    if o.occurredAt.offset ≠ 0 ∨ o.occurredAt.nanosecond % 1000 ≠ 0 then .error .nonCanonical
    else .ok ()

theorem floor_le (t : OffsetDateTime) : t.nanosecond - t.nanosecond % 1000 ≤ 999999000 := by
  have hlt : t.nanosecond < 1000000000 := t.nano_lt
  omega

/-- Every portable instant of an ordinary identity is accepted. -/
theorem new_of_range {id : DecisionAuditId} {t : OffsetDateTime}
    (hlegacy : startsWith id.value "legacy-" = false)
    (hrange : 0 ≤ t.unixTimestamp ∧ t.unixTimestamp ≤ maxPortableUnixSeconds) :
    ∃ o, new id t = .ok o := by
  have hfloor := floor_le t
  unfold new
  rw [if_neg (by simp [hlegacy]), dif_pos hrange, checkedSub_mod]
  dsimp only
  rw [if_neg (by omega)]
  split
  · rename_i hnone
    rw [OffsetDateTime.replaceNanosecond, dif_pos (by omega)] at hnone
    cases hnone
  · exact ⟨_, rfl⟩

theorem range_of_new {id : DecisionAuditId} {t : OffsetDateTime} {o : DecisionAuditOccurrence}
    (h : new id t = .ok o) : 0 ≤ t.unixTimestamp ∧ t.unixTimestamp ≤ maxPortableUnixSeconds := by
  unfold new at h
  split at h
  · cases h
  · split at h
    · assumption
    · cases h

/-- What the constructor makes: the same second, in UTC, at whole microseconds. -/
theorem new_eq_ok {id : DecisionAuditId} {t : OffsetDateTime} {o : DecisionAuditOccurrence}
    (h : new id t = .ok o) :
    startsWith id.value "legacy-" = false ∧ o.decisionAuditId = id ∧
      o.occurredAt.seconds = t.seconds ∧ o.occurredAt.nano = t.nano - t.nano % 1000 ∧
      o.occurredAt.offset = 0 := by
  unfold new at h
  split at h
  · cases h
  rename_i hlegacy
  split at h
  swap
  · cases h
  rw [checkedSub_mod] at h
  dsimp only at h
  split at h
  · cases h
  split at h
  · cases h
  rename_i normalized hn
  cases h
  unfold OffsetDateTime.replaceNanosecond at hn
  split at hn
  · cases hn
    exact ⟨by simpa using hlegacy, rfl, rfl, rfl, rfl⟩
  · cases hn

/-- What the constructor makes passes the check. -/
theorem validate_of_new {id : DecisionAuditId} {t : OffsetDateTime} {o : DecisionAuditOccurrence}
    (h : new id t = .ok o) : o.validate = .ok () := by
  obtain ⟨hlegacy, hid, hseconds, hnano, hoffset⟩ := new_eq_ok h
  have hmicro : o.occurredAt.nano % 1000 = 0 := by
    rw [hnano]
    omega
  have hrange : 0 ≤ o.occurredAt.unixTimestamp ∧
      o.occurredAt.unixTimestamp ≤ maxPortableUnixSeconds := by
    unfold OffsetDateTime.unixTimestamp
    rw [hseconds]
    exact range_of_new h
  obtain ⟨o', ho'⟩ := new_of_range (hid ▸ hlegacy) hrange
  unfold validate
  rw [ho']
  exact if_neg (by simp [OffsetDateTime.nanosecond, hoffset, hmicro])

/-- A value that passes its check is what the constructor makes of its parts. -/
theorem new_of_validate {o : DecisionAuditOccurrence} (h : o.validate = .ok ()) :
    new o.decisionAuditId o.occurredAt = .ok o := by
  unfold validate at h
  split at h
  · cases h
  rename_i o' ho'
  split at h
  · cases h
  rename_i hcanonical
  obtain ⟨hoffset, hmicro⟩ : o.occurredAt.offset = 0 ∧ o.occurredAt.nano % 1000 = 0 := by
    simpa [OffsetDateTime.nanosecond] using hcanonical
  obtain ⟨-, hid, hseconds, hnano, hutc⟩ := new_eq_ok ho'
  rw [hmicro, Nat.sub_zero] at hnano
  have htime : o'.occurredAt = o.occurredAt :=
    OffsetDateTime.ext hseconds hnano (hutc.trans hoffset.symm)
  rw [ho', show o' = o from DecisionAuditOccurrence.ext hid htime]

end DecisionAuditOccurrence

/-! ## The request context -/

inductive ContextError where
  | tenantMismatch (expected bound : TenantId)
  | binding (error : TenantBindingError)
deriving DecidableEq

/-- Request-scoped data passed to adapter boundaries. -/
structure Context where
  tenant : TenantId
  binding : TenantBinding
  principal : SubjectRef
  subjects : Std.ExtTreeMap SubjectSlot SubjectRef
  locale : Locale
  requestId : Option RequestId
  decisionAuditOccurrence : Option DecisionAuditOccurrence
  bound : tenant = binding.tenant

namespace Context

def newAt (tenant : TenantId) (binding : TenantBinding) (principal : SubjectRef) (locale : Locale)
    (now : OffsetDateTime) : Except ContextError Context :=
  if h : tenant = binding.tenant then
    match binding.validateAt now with
    | .error e => .error (.binding e)
    | .ok () => .ok ⟨tenant, binding, principal, ∅, locale, none, none, h⟩
  else .error (.tenantMismatch tenant binding.tenant)

def fromApplicationVerified (binding : ApplicationVerifiedTenantBinding) (principal : SubjectRef)
    (locale : Locale) (now : OffsetDateTime) : Except ContextError Context :=
  newAt binding.tenant (.applicationVerified binding) principal locale now

def fromTrustedService (binding : TrustedServiceBinding) (principal : SubjectRef) (locale : Locale)
    (now : OffsetDateTime) : Except ContextError Context :=
  newAt binding.tenant (.trustedService binding) principal locale now

def validateAt (cx : Context) (now : OffsetDateTime) : Except ContextError Unit :=
  if cx.tenant = cx.binding.tenant then
    match cx.binding.validateAt now with
    | .error e => .error (.binding e)
    | .ok () => .ok ()
  else .error (.tenantMismatch cx.tenant cx.binding.tenant)

theorem validateAt_eq_ok {cx : Context} {now : OffsetDateTime} :
    cx.validateAt now = .ok () ↔
      cx.tenant = cx.binding.tenant ∧ cx.binding.validateAt now = .ok () := by
  unfold validateAt
  split
  · rename_i h
    cases cx.binding.validateAt now <;> simp [h]
  · rename_i h
    simp [h]

def withSubject (cx : Context) (slot : SubjectSlot) (subject : SubjectRef) : Context :=
  { cx with subjects := cx.subjects.insert slot subject }

def withRequestId (cx : Context) (requestId : RequestId) : Context :=
  { cx with requestId := some requestId }

def withDecisionAuditOccurrence (cx : Context) (occurrence : DecisionAuditOccurrence) : Context :=
  { cx with decisionAuditOccurrence := some occurrence }

end Context

namespace Sample

def acme : TenantId := ⟨"acme", by decide⟩

def request : Context where
  tenant := acme
  binding := .trustedService ⟨acme, ⟨"worker", by decide⟩⟩
  principal := ⟨⟨"user", by decide⟩, ⟨"u1", by decide⟩⟩
  subjects := ∅
  locale := ⟨"en", by decide⟩
  requestId := none
  decisionAuditOccurrence := none
  bound := rfl

/-- `request` under a request id. -/
def traced : Context := { request with requestId := some ⟨"r1", by decide⟩ }

def noon : OffsetDateTime :=
  ⟨1767268800, 0, 0, OffsetDateTime.zero_nano_lt, OffsetDateTime.zero_offset_bound, by decide⟩

def occurrence : DecisionAuditOccurrence := ⟨⟨"d1", by decide⟩, noon⟩

end Sample

end Gatekeep
