import Gatekeep.Audit
import Gatekeep.Support.Serde

/-!
# Gatekeep.Wire

The JSON form of an audit entry, record by record, as the derived and hand-written serde
implementations of the source give it. Most records have a `Codec`: they read back as they were
written, although their decoders run the constructors' checks again.

Two do not. A decision identity may be one of imported history, which the decoder refuses. And a
deny clause keeps its requested outcome in an optional field, so an outcome that serializes to
`null` is read back as no outcome at all (`readClause_writeClause`, `TraceClause.durable`). What
that does to a whole entry is `readEntry_writeEntry`.

The form of a time is the `time` crate's; it is the parameter `time`.
-/

namespace Gatekeep

open Serde

/-- The errors that decoders of the source raise themselves. -/
inductive WireError where
  | identity (error : GatekeepError)
  | binding (error : TenantBindingError)
  | resolution (error : FactResolutionError)
  | observation (error : ObservationError)
  | occurrence (error : DecisionAuditOccurrenceError)
  | entry (error : AuditEntryError)
  | policyHashVersion (actual expected : UInt16)
  | schemaVersion (actual expected : UInt16)
deriving DecidableEq

/-- `map_err(D::Error::custom)`. -/
def customError {ε α : Type} (wrap : ε → WireError) (x : Except ε α) :
    Except (Error WireError) α :=
  x.mapError fun e => .custom (wrap e)

@[simp] theorem customError_ok {ε α : Type} (wrap : ε → WireError) (a : α) :
    customError wrap (.ok a) = .ok a := rfl

theorem customError_eq_ok {ε α : Type} {wrap : ε → WireError} {x : Except ε α} {a : α} :
    customError wrap x = .ok a ↔ x = .ok a := Result.mapError_eq_ok

namespace Wire

def text : Codec WireError String := str

def flag : Codec WireError Bool := bool

/-! ## Identities -/

def ownedId (field : String) (h : field ≠ "decision_audit_id") : Codec WireError (OwnedId field) :=
  checked OwnedId.value (OwnedId.new field) .identity fun a => a.new_value h

def factId : Codec WireError FactId := ownedId _ (by decide)
def clauseLabel : Codec WireError ClauseLabel := ownedId _ (by decide)
def obligationId : Codec WireError ObligationId := ownedId _ (by decide)
def policyHash : Codec WireError PolicyHash := ownedId _ (by decide)
def policyId : Codec WireError PolicyId := ownedId _ (by decide)
def reasonCode : Codec WireError ReasonCode := ownedId _ (by decide)
def requestId : Codec WireError RequestId := ownedId _ (by decide)

def tenantId : Codec WireError TenantId :=
  checked TenantId.value TenantId.new .identity TenantId.new_value

def locale : Codec WireError Locale :=
  checked Locale.value Locale.new .identity Locale.new_value

/-- A map whose keys are identifiers. -/
def keyed {α : Type} (field : String) (h : field ≠ "decision_audit_id") (c : Codec WireError α) :
    Codec WireError (Std.ExtTreeMap (OwnedId field) α) :=
  Serde.map OwnedId.value (fun key => customError .identity (OwnedId.new field key))
    (fun a => by rw [a.new_value h, customError_ok]) c

def readDecisionAuditId : Reader WireError DecisionAuditId := fun j => do
  let value ← readStr j
  customError .identity (OwnedId.new "decision_audit_id" value)

theorem readDecisionAuditId_str {id : DecisionAuditId}
    (h : startsWith id.value "legacy-" = false) : readDecisionAuditId (.str id.value) = .ok id := by
  rw [readDecisionAuditId, readStr, Result.ok_bind, OwnedId.new_value_of_unreserved id h,
    customError_ok]

def subjectRef : Codec WireError SubjectRef where
  write s := .obj [("kind", text.write s.kind.value), ("id", text.write s.id.value)]
  read j := do
    let r ← Record.ofJson ["kind", "id"] j
    let kind ← r.required 0 "kind" text.read
    let id ← r.required 1 "id" text.read
    customError .identity (SubjectRef.new kind id)
  read_write s := by
    rw [Record.ofJson_obj (by simp), Result.ok_bind, Record.required_write rfl, Result.ok_bind,
      Record.required_write rfl, Result.ok_bind, SubjectRef.new_value, customError_ok]
  write_ne_null _ := nofun

/-! ## Enumerations without contents -/

def presence : Codec WireError Presence :=
  Serde.unit [("Present", .present), ("Absent", .absent), ("Unknown", .unknown)]
    (fun
      | .present => "Present"
      | .absent => "Absent"
      | .unknown => "Unknown")
    (fun p => by cases p <;> rfl)

def effectKind : Codec WireError EffectKind :=
  Serde.unit [("Permit", .permit), ("Deny", .deny)]
    (fun
      | .permit => "Permit"
      | .deny => "Deny")
    (fun e => by cases e <;> rfl)

def denyShape : Codec WireError DenyShape :=
  Serde.unit [("Forbidden", .forbidden), ("Hidden", .hidden)]
    (fun
      | .forbidden => "Forbidden"
      | .hidden => "Hidden")
    (fun s => by cases s <;> rfl)

/-! ## Bindings -/

def bindingProvenance : Codec WireError BindingProvenance :=
  checked BindingProvenance.value BindingProvenance.new .binding BindingProvenance.new_value

def bytes : Codec WireError (List UInt8) := list u8

def evidenceDigest : Codec WireError EvidenceDigest where
  write d := bytes.write d.bytes.toList
  read j := do
    let digest ← bytes.read j
    if h : digest.length = 32 then .ok ⟨⟨digest.toArray, h⟩⟩ else .error .invalidLength
  read_write d := by
    rw [bytes.read_write, Result.ok_bind, dif_pos (by simp)]
    rfl
  write_ne_null _ := nofun

def readBindingAuthority : Reader WireError BindingAuthority := fun j => do
  let (name, content) ← readVariant j
  match name with
  | "Issuer" =>
    let r ← readContent content >>= Record.ofJson ["issuer", "key_id"]
    let issuer ← r.required 0 "issuer" bindingProvenance.read
    let keyId ← r.optional 1 "key_id" bindingProvenance.read
    return .issuer issuer keyId
  | "Provider" =>
    let r ← readContent content >>= Record.ofJson ["provider", "key_id"]
    let provider ← r.required 0 "provider" bindingProvenance.read
    let keyId ← r.optional 1 "key_id" bindingProvenance.read
    return .provider provider keyId
  | _ => .error (.unknownVariant name)

def bindingAuthority : Codec WireError BindingAuthority where
  write
    | .issuer issuer keyId => .obj [("Issuer", .obj [
        ("issuer", bindingProvenance.write issuer),
        ("key_id", writeOption bindingProvenance.write keyId)])]
    | .provider provider keyId => .obj [("Provider", .obj [
        ("provider", bindingProvenance.write provider),
        ("key_id", writeOption bindingProvenance.write keyId)])]
  read := readBindingAuthority
  read_write a := by
    cases a <;>
    · simp only [readBindingAuthority, readVariant, readContent, Result.ok_bind]
      rw [Record.ofJson_obj (by simp), Result.ok_bind, Record.required_write rfl, Result.ok_bind,
        Record.optional_write rfl]
      rfl
  write_ne_null a := by cases a <;> nofun

section Times

variable (time : Codec WireError OffsetDateTime)

def tenantBindingEvidence : Codec WireError TenantBindingEvidence where
  write e := .obj [
    ("authority", bindingAuthority.write e.authority),
    ("authenticated_at", time.write e.authenticatedAt),
    ("claims_digest", evidenceDigest.write e.claimsDigest)]
  read j := do
    let r ← Record.ofJson ["authority", "authenticated_at", "claims_digest"] j
    let authority ← r.required 0 "authority" bindingAuthority.read
    let authenticatedAt ← r.required 1 "authenticated_at" time.read
    let claimsDigest ← r.required 2 "claims_digest" evidenceDigest.read
    return ⟨authority, authenticatedAt, claimsDigest⟩
  read_write e := by
    rw [Record.ofJson_obj (by simp), Result.ok_bind, Record.required_write rfl, Result.ok_bind,
      Record.required_write rfl, Result.ok_bind, Record.required_write rfl]
    rfl
  write_ne_null _ := nofun

def applicationVerifiedTenantBinding : Codec WireError ApplicationVerifiedTenantBinding where
  write b := .obj [
    ("tenant", tenantId.write b.tenant),
    ("evidence", (tenantBindingEvidence time).write b.evidence),
    ("valid_from", time.write b.validFrom),
    ("valid_until", time.write b.validUntil)]
  read j := do
    let r ← Record.ofJson ["tenant", "evidence", "valid_from", "valid_until"] j
    let tenant ← r.required 0 "tenant" tenantId.read
    let evidence ← r.required 1 "evidence" (tenantBindingEvidence time).read
    let validFrom ← r.required 2 "valid_from" time.read
    let validUntil ← r.required 3 "valid_until" time.read
    customError .binding (ApplicationVerifiedTenantBinding.new tenant evidence validFrom validUntil)
  read_write b := by
    rw [Record.ofJson_obj (by simp), Result.ok_bind, Record.required_write rfl, Result.ok_bind,
      Record.required_write rfl, Result.ok_bind, Record.required_write rfl, Result.ok_bind,
      Record.required_write rfl, Result.ok_bind, ApplicationVerifiedTenantBinding.new_fields,
      customError_ok]
  write_ne_null _ := nofun

def trustedServiceBinding : Codec WireError TrustedServiceBinding where
  write b := .obj [
    ("tenant", tenantId.write b.tenant),
    ("service", bindingProvenance.write b.service)]
  read j := do
    let r ← Record.ofJson ["tenant", "service"] j
    let tenant ← r.required 0 "tenant" tenantId.read
    let service ← r.required 1 "service" bindingProvenance.read
    return ⟨tenant, service⟩
  read_write b := by
    rw [Record.ofJson_obj (by simp), Result.ok_bind, Record.required_write rfl, Result.ok_bind,
      Record.required_write rfl]
    rfl
  write_ne_null _ := nofun

def readTenantBinding : Reader WireError TenantBinding := fun j => do
  let (name, content) ← readVariant j
  match name with
  | "ApplicationVerified" =>
    (readContent content >>= (applicationVerifiedTenantBinding time).read).map
      .applicationVerified
  | "TrustedService" => (readContent content >>= trustedServiceBinding.read).map .trustedService
  | _ => .error (.unknownVariant name)

def tenantBinding : Codec WireError TenantBinding where
  write
    | .applicationVerified b =>
      .obj [("ApplicationVerified", (applicationVerifiedTenantBinding time).write b)]
    | .trustedService b => .obj [("TrustedService", trustedServiceBinding.write b)]
  read := readTenantBinding time
  read_write b := by
    cases b <;>
    · simp only [readTenantBinding, readVariant, readContent, Result.ok_bind, Codec.read_write]
      rfl
  write_ne_null b := by cases b <;> nofun

/-! ## Fact resolution -/

def factResolutionMetadata : Codec WireError FactResolutionMetadata where
  write m := .obj [
    ("source", bindingProvenance.write m.source),
    ("revision", writeOption bindingProvenance.write m.revision),
    ("fresh_until", writeOption time.write m.freshUntil)]
  read j := do
    let r ← Record.ofJson ["source", "revision", "fresh_until"] j
    let source ← r.required 0 "source" bindingProvenance.read
    let revision ← r.optional 1 "revision" bindingProvenance.read
    let freshUntil ← r.optional 2 "fresh_until" time.read
    return ⟨source, revision, freshUntil⟩
  read_write m := by
    rw [Record.ofJson_obj (by simp), Result.ok_bind, Record.required_write rfl, Result.ok_bind,
      Record.optional_write rfl, Result.ok_bind, Record.optional_write rfl]
    rfl
  write_ne_null _ := nofun

def factObservation : Codec WireError FactObservation where
  write o := .obj [
    ("fact", factId.write o.fact),
    ("value", flag.write o.value),
    ("metadata", writeOption (factResolutionMetadata time).write o.metadata),
    ("observed_at", time.write o.observedAt)]
  read j := do
    let r ← Record.ofJson ["fact", "value", "metadata", "observed_at"] j
    let fact ← r.required 0 "fact" factId.read
    let value ← r.required 1 "value" flag.read
    let metadata ← r.optional 2 "metadata" (factResolutionMetadata time).read
    let observedAt ← r.required 3 "observed_at" time.read
    customError .observation (FactObservation.new fact value metadata observedAt)
  read_write o := by
    rw [Record.ofJson_obj (by simp), Result.ok_bind, Record.required_write rfl, Result.ok_bind,
      Record.required_write rfl, Result.ok_bind, Record.optional_write rfl, Result.ok_bind,
      Record.required_write rfl, Result.ok_bind, FactObservation.new_fields, customError_ok]
  write_ne_null _ := nofun

/-- The checks of the decoder of evidence, on sorted observations. -/
def checkEvidence (source revision : Option BindingProvenance) (observedAt : OffsetDateTime)
    (freshUntil : Option OffsetDateTime) (factSetDigest : EvidenceDigest)
    (observations : List FactObservation) : Except (Error WireError) FactResolutionEvidence :=
  match window : freshnessWindow freshUntil observedAt with
  | .error e => .error (.custom (.resolution e))
  | .ok () =>
    match hv : FactObservation.validateAll (FactObservation.sort observations) with
    | .error e => .error (.custom (.observation e))
    | .ok () =>
      .ok {
        source, revision, observedAt, freshUntil, factSetDigest, window
        observations := FactObservation.sort observations
        canonical := FactObservation.canonical_sort (FactObservation.validateAll_of_sort hv) }

theorem checkEvidence_fields (e : FactResolutionEvidence) :
    checkEvidence e.source e.revision e.observedAt e.freshUntil e.factSetDigest e.observations =
      .ok e := by
  unfold checkEvidence
  split
  · rename_i err herr
    rw [e.window] at herr
    cases herr
  split
  · rename_i err herr
    rw [e.canonical.sort, e.canonical.validateAll] at herr
    cases herr
  · congr
    exact e.canonical.sort

def factResolutionEvidence : Codec WireError FactResolutionEvidence where
  write e := .obj ([
    ("source", writeOption bindingProvenance.write e.source),
    ("revision", writeOption bindingProvenance.write e.revision),
    ("observed_at", time.write e.observedAt),
    ("fresh_until", writeOption time.write e.freshUntil),
    ("fact_set_digest", evidenceDigest.write e.factSetDigest)] ++
    if e.observations.isEmpty then []
    else [("observations", (list (factObservation time)).write e.observations)])
  read j := do
    let r ← Record.ofJson ["source", "revision", "observed_at", "fresh_until", "fact_set_digest",
      "observations"] j
    let source ← r.optional 0 "source" bindingProvenance.read
    let revision ← r.optional 1 "revision" bindingProvenance.read
    let observedAt ← r.required 2 "observed_at" time.read
    let freshUntil ← r.optional 3 "fresh_until" time.read
    let factSetDigest ← r.required 4 "fact_set_digest" evidenceDigest.read
    let observations ← r.defaulted 5 "observations" [] (list (factObservation time)).read
    checkEvidence source revision observedAt freshUntil factSetDigest observations
  read_write e := by
    have hcheck := checkEvidence_fields e
    rw [Record.ofJson_obj (by split <;> simp), Result.ok_bind, Record.optional_write rfl,
      Result.ok_bind, Record.optional_write rfl, Result.ok_bind, Record.required_write rfl,
      Result.ok_bind, Record.optional_write rfl, Result.ok_bind, Record.required_write rfl,
      Result.ok_bind]
    cases hobs : e.observations with
    | nil =>
      rw [hobs] at hcheck
      rw [Record.defaulted_of_absent rfl, Result.ok_bind, hcheck]
    | cons o os =>
      rw [hobs] at hcheck
      rw [Record.defaulted_write rfl, Result.ok_bind, hcheck]
  write_ne_null _ := nofun

end Times

/-! ## Anchors, traces and denial reasons -/

def version : Codec WireError UInt16 := u16

def policyAnchor : Codec WireError PolicyAnchor where
  write a := .obj [
    ("policy_id", policyId.write a.policyId),
    ("policy_hash", policyHash.write a.policyHash),
    ("policy_hash_version", version.write a.policyHashVersion)]
  read j := do
    let r ← Record.ofJson ["policy_id", "policy_hash", "policy_hash_version"] j
    let id ← r.required 0 "policy_id" policyId.read
    let hash ← r.required 1 "policy_hash" policyHash.read
    let hashVersion ← r.required 2 "policy_hash_version" version.read
    if h : hashVersion = policyHashFormatVersion then .ok ⟨id, hash, hashVersion, h⟩
    else .error (.custom (.policyHashVersion hashVersion policyHashFormatVersion))
  read_write a := by
    rw [Record.ofJson_obj (by simp), Result.ok_bind, Record.required_write rfl, Result.ok_bind,
      Record.required_write rfl, Result.ok_bind, Record.required_write rfl, Result.ok_bind,
      dif_pos a.current]
  write_ne_null _ := nofun

def obligationIds : Codec WireError (List ObligationId) := list obligationId

def factIds : Codec WireError (List FactId) := list factId

def consulted : Codec WireError Consulted := list (pair factId presence)

/-- Any JSON value is a trace value. -/
def readValue : Reader WireError TraceValue := .ok

def readReasonValue : Reader WireError ReasonValue := fun j => do
  let (name, content) ← readVariant j
  match name with
  | "Str" => (readContent content >>= text.read).map .str
  | "Int" => (readContent content >>= i64.read).map .int
  | "Fact" => (readContent content >>= factId.read).map .fact
  | "Outcome" => (readContent content >>= readValue).map .outcome
  | _ => .error (.unknownVariant name)

def reasonValue : Codec WireError ReasonValue where
  write
    | .str value => .obj [("Str", text.write value)]
    | .int value => .obj [("Int", (i64 (ε := WireError)).write value)]
    | .fact fact => .obj [("Fact", factId.write fact)]
    | .outcome value => .obj [("Outcome", value)]
  read := readReasonValue
  read_write v := by
    cases v <;>
    · simp only [readReasonValue, readVariant, readContent, Result.ok_bind, Codec.read_write]
      rfl
  write_ne_null v := by cases v <;> nofun

def params : Codec WireError (Std.ExtTreeMap ParamKey ReasonValue) :=
  keyed _ (by decide) reasonValue

def denialReason : Codec WireError DenialReason where
  write d := .obj [
    ("code", reasonCode.write d.code),
    ("params", params.write d.params),
    ("shape", denyShape.write d.shape)]
  read j := do
    let r ← Record.ofJson ["code", "params", "shape"] j
    let code ← r.required 0 "code" reasonCode.read
    let params ← r.required 1 "params" params.read
    let shape ← r.required 2 "shape" denyShape.read
    return ⟨code, params, shape⟩
  read_write d := by
    rw [Record.ofJson_obj (by simp), Result.ok_bind, Record.required_write rfl, Result.ok_bind,
      Record.required_write rfl, Result.ok_bind, Record.required_write rfl]
    rfl
  write_ne_null _ := nofun

def writeClause : TraceClause → Json
  | .permit granted satisfied label => .obj [("Permit", .obj [
      ("granted", granted),
      ("satisfied", factIds.write satisfied),
      ("label", writeOption clauseLabel.write label)])]
  | .deny denied unsatisfied label reason shape => .obj [("Deny", .obj [
      ("denied", writeOption id denied),
      ("unsatisfied", factIds.write unsatisfied),
      ("label", writeOption clauseLabel.write label),
      ("reason", writeOption reasonCode.write reason),
      ("shape", denyShape.write shape)])]

def readClause : Reader WireError TraceClause := fun j => do
  let (name, content) ← readVariant j
  match name with
  | "Permit" =>
    let r ← readContent content >>= Record.ofJson ["granted", "satisfied", "label"]
    let granted ← r.required 0 "granted" readValue
    let satisfied ← r.required 1 "satisfied" factIds.read
    let label ← r.optional 2 "label" clauseLabel.read
    return .permit granted satisfied label
  | "Deny" =>
    let r ← readContent content >>=
      Record.ofJson ["denied", "unsatisfied", "label", "reason", "shape"]
    let denied ← r.optional 0 "denied" readValue
    let unsatisfied ← r.required 1 "unsatisfied" factIds.read
    let label ← r.optional 2 "label" clauseLabel.read
    let reason ← r.optional 3 "reason" reasonCode.read
    let shape ← r.required 4 "shape" denyShape.read
    return .deny denied unsatisfied label reason shape
  | _ => .error (.unknownVariant name)

def writeTrace (t : Trace) : Json :=
  .obj [("consulted", consulted.write t.consulted), ("decisive", writeClause t.decisive)]

def readTrace : Reader WireError Trace := fun j => do
  let r ← Record.ofJson ["consulted", "decisive"] j
  let consulted ← r.required 0 "consulted" consulted.read
  let decisive ← r.required 1 "decisive" readClause
  return ⟨consulted, decisive⟩

end Wire

/-- What a clause reads back as: a requested outcome of `null` is lost. -/
def TraceClause.durable : TraceClause → TraceClause
  | .permit granted satisfied label => .permit granted satisfied label
  | .deny denied unsatisfied label reason shape =>
    .deny (denied.filter (· ≠ .null)) unsatisfied label reason shape

theorem TraceClause.durable_eq_self {c : TraceClause} : c.durable = c ↔ c.denied ≠ some .null := by
  cases c with
  | permit => simp [durable, denied]
  | deny d => cases d <;> simp [durable, denied, Option.filter_eq_some_iff]

/-- What the fields of an entry read back as. -/
def AuditRecord.durable (r : AuditRecord) : AuditRecord :=
  { r with
    decisive := r.decisive.durable
    trace := ⟨r.trace.consulted, r.trace.decisive.durable⟩ }

theorem AuditRecord.durable_eq_self {r : AuditRecord} (h : r.decisive = r.trace.decisive)
    (hd : r.decisive.denied ≠ some .null) : r.durable = r := by
  have hdecisive : r.decisive.durable = r.decisive := TraceClause.durable_eq_self.mpr hd
  have htrace : r.trace.decisive.durable = r.trace.decisive := h ▸ hdecisive
  rw [durable, hdecisive, htrace]

namespace Wire

theorem readOption_value (value : Option TraceValue) :
    readOption readValue (writeOption id value) = .ok (value.filter (· ≠ .null)) := by
  cases value with
  | none => rfl
  | some value =>
    rw [writeOption, id]
    by_cases h : value = .null
    · subst h; rfl
    · rw [readOption_of_ne_null h, Option.filter_some_pos (by simpa using h)]
      rfl

theorem readClause_writeClause (c : TraceClause) : readClause (writeClause c) = .ok c.durable := by
  cases c with
  | permit granted satisfied label =>
    simp only [writeClause, readClause, readVariant, readContent, Result.ok_bind]
    rw [Record.ofJson_obj (by simp), Result.ok_bind, Record.required_of_find rfl, readValue,
      Result.ok_bind, Record.required_write rfl, Result.ok_bind, Record.optional_write rfl]
    rfl
  | deny denied unsatisfied label reason shape =>
    simp only [writeClause, readClause, readVariant, readContent, Result.ok_bind]
    rw [Record.ofJson_obj (by simp), Result.ok_bind, Record.optional_of_find rfl, readOption_value,
      Result.ok_bind, Record.required_write rfl, Result.ok_bind, Record.optional_write rfl,
      Result.ok_bind, Record.optional_write rfl, Result.ok_bind, Record.required_write rfl]
    rfl

theorem readTrace_writeTrace (t : Trace) :
    readTrace (writeTrace t) = .ok ⟨t.consulted, t.decisive.durable⟩ := by
  rw [readTrace, writeTrace, Record.ofJson_obj (by simp), Result.ok_bind,
    Record.required_write rfl, Result.ok_bind, Record.required_of_find rfl,
    readClause_writeClause]
  rfl

/-! ## Entries -/

section Entries

variable (time : Codec WireError OffsetDateTime)

def subjects : Codec WireError (Std.ExtTreeMap SubjectSlot SubjectRef) :=
  keyed _ (by decide) subjectRef

def writeEntry (e : AuditRecord) : Json := .obj [
  ("schema_version", version.write e.schemaVersion),
  ("decision_audit_id", .str e.decisionAuditId.value),
  ("occurred_at", time.write e.occurredAt),
  ("request_id", writeOption requestId.write e.requestId),
  ("anchor", policyAnchor.write e.anchor),
  ("effect", effectKind.write e.effect),
  ("obligations", obligationIds.write e.obligations),
  ("consulted", consulted.write e.consulted),
  ("decisive", writeClause e.decisive),
  ("denial_reason", writeOption denialReason.write e.denialReason),
  ("trace", writeTrace e.trace),
  ("binding", (tenantBinding time).write e.binding),
  ("fact_resolution", (factResolutionEvidence time).write e.factResolution),
  ("tenant", tenantId.write e.tenant),
  ("principal", subjectRef.write e.principal),
  ("subjects", subjects.write e.subjects),
  ("locale", locale.write e.locale)]

/-- `AuditEntryWire`: the fields as they are read, before the entry is rebuilt. -/
def readRecord : Reader WireError AuditRecord := fun j => do
  let r ← Record.ofJson ["schema_version", "decision_audit_id", "occurred_at", "request_id",
    "anchor", "effect", "obligations", "consulted", "decisive", "denial_reason", "trace", "binding",
    "fact_resolution", "tenant", "principal", "subjects", "locale"] j
  let schemaVersion ← r.required 0 "schema_version" version.read
  let decisionAuditId ← r.required 1 "decision_audit_id" readDecisionAuditId
  let occurredAt ← r.required 2 "occurred_at" time.read
  let requestId ← r.optional 3 "request_id" requestId.read
  let anchor ← r.required 4 "anchor" policyAnchor.read
  let effect ← r.required 5 "effect" effectKind.read
  let obligations ← r.required 6 "obligations" obligationIds.read
  let consulted ← r.required 7 "consulted" consulted.read
  let decisive ← r.required 8 "decisive" readClause
  let denialReason ← r.optional 9 "denial_reason" denialReason.read
  let trace ← r.required 10 "trace" readTrace
  let binding ← r.required 11 "binding" (tenantBinding time).read
  let factResolution ← r.required 12 "fact_resolution" (factResolutionEvidence time).read
  let tenant ← r.required 13 "tenant" tenantId.read
  let principal ← r.required 14 "principal" subjectRef.read
  let subjects ← r.defaulted 15 "subjects" ∅ subjects.read
  let locale ← r.required 16 "locale" locale.read
  return {
    schemaVersion, decisionAuditId, occurredAt, requestId, anchor, effect, obligations, consulted
    decisive, denialReason, trace, binding, factResolution, tenant, principal, subjects, locale }

def readEntry : Reader WireError AuditEntry := fun j => do
  let wire ← readRecord time j
  if wire.schemaVersion ≠ 1 ∧ wire.schemaVersion ≠ auditEntrySchemaVersion then
    .error (.custom (.schemaVersion wire.schemaVersion auditEntrySchemaVersion))
  let occurrence ← customError .occurrence
    (DecisionAuditOccurrence.new wire.decisionAuditId wire.occurredAt)
  let entry ← customError .entry (AuditEntry.new occurrence wire.toAuditFields)
  customError .entry
    (AuditEntry.ofRecord { entry.toAuditRecord with schemaVersion := wire.schemaVersion })

variable {time}

theorem readRecord_writeEntry {r : AuditRecord}
    (h : startsWith r.decisionAuditId.value "legacy-" = false) :
    readRecord time (writeEntry time r) = .ok r.durable := by
  rw [readRecord, writeEntry, Record.ofJson_obj (by simp), Result.ok_bind,
    Record.required_write rfl, Result.ok_bind,
    Record.required_of_find rfl, readDecisionAuditId_str h, Result.ok_bind,
    Record.required_write rfl, Result.ok_bind, Record.optional_write rfl, Result.ok_bind,
    Record.required_write rfl, Result.ok_bind, Record.required_write rfl, Result.ok_bind,
    Record.required_write rfl, Result.ok_bind, Record.required_write rfl, Result.ok_bind,
    Record.required_of_find rfl, readClause_writeClause, Result.ok_bind,
    Record.optional_write rfl, Result.ok_bind,
    Record.required_of_find rfl, readTrace_writeTrace, Result.ok_bind,
    Record.required_write rfl, Result.ok_bind, Record.required_write rfl, Result.ok_bind,
    Record.required_write rfl, Result.ok_bind, Record.required_write rfl, Result.ok_bind,
    Record.defaulted_write rfl, Result.ok_bind, Record.required_write rfl]
  rfl

/-- What the decoder does with the fields it has read: the entry is rebuilt by its constructor, so
every check runs again. -/
theorem readEntry_eq_ok {j : Json} {e : AuditEntry} :
    readEntry time j = .ok e ↔ ∃ wire, readRecord time j = .ok wire ∧
      DecisionAuditOccurrence.new wire.decisionAuditId wire.occurredAt =
        .ok ⟨e.decisionAuditId, e.occurredAt⟩ ∧
      e.toAuditRecord =
        { wire with decisionAuditId := e.decisionAuditId, occurredAt := e.occurredAt } := by
  unfold readEntry
  simp only [Result.bind_eq_ok, Result.guard_eq_ok, customError_eq_ok, AuditEntry.ofRecord_eq_ok,
    AuditEntry.new_eq_ok]
  constructor
  · rintro ⟨wire, hwire, -, occurrence, hnew, entry, ⟨-, hentry⟩, he⟩
    rw [← he, ← hentry]
    exact ⟨wire, hwire, hnew, rfl⟩
  · rintro ⟨wire, hwire, hnew, he⟩
    obtain ⟨hversion, -, hmatch, hoccurrence, htenant, hsemantics⟩ :=
      AuditRecord.validateCurrent_eq_ok.mp e.valid
    -- the constructor writes the current version first, which is checked no more strictly
    let current : AuditEntry :=
      ⟨{ e.toAuditRecord with schemaVersion := auditEntrySchemaVersion },
        AuditRecord.validateCurrent_eq_ok.mpr
          ⟨.inr rfl, fun h => absurd h (show ¬(2 : UInt16) = 1 by decide), hmatch, hoccurrence, htenant, hsemantics⟩⟩
    have hfields : wire.toAuditFields = e.toAuditFields := by rw [he]
    have hwireVersion : wire.schemaVersion = e.schemaVersion := by rw [he]
    refine ⟨wire, hwire, ?_, _, hnew, current, ⟨hoccurrence, ?_⟩, ?_⟩
    · rw [hwireVersion]
      exact fun h => hversion.elim h.1 h.2
    · rw [hfields]
    · rw [hwireVersion]

/-- An entry reads back unchanged unless its clause has a requested outcome of `null`. -/
theorem readEntry_writeEntry (e : AuditEntry) :
    readEntry time (writeEntry time e.toAuditRecord) = .ok e ↔
      e.decisive.denied ≠ some .null := by
  have hread : readRecord time (writeEntry time e.toAuditRecord) = .ok e.durable :=
    readRecord_writeEntry e.unreserved
  rw [readEntry_eq_ok]
  constructor
  · rintro ⟨wire, hwire, -, he⟩
    rw [hread] at hwire
    cases hwire
    exact TraceClause.durable_eq_self.mp (congrArg (fun r : AuditRecord => r.decisive) he).symm
  · intro hd
    have hself := AuditRecord.durable_eq_self
      (AuditRecord.decisive_eq_of_validateCurrent e.valid) hd
    exact ⟨e.toAuditRecord, by rw [hread, hself], e.occurrence_new, rfl⟩

end Entries

end Wire

end Gatekeep
