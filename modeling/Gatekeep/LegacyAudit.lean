import Gatekeep.Wire

/-!
# Gatekeep.LegacyAudit

Historical audit entries, `LegacyAuditEntry` in `audit.rs`. Their decoder denies unknown fields, and
the current format requires a version that the historical one does not have, so no document is both
(`readLegacyEntry_excludes_readEntry`).
-/

namespace Gatekeep

open Serde

/-- Policy anchor of pre-4.0 audit data. -/
structure LegacyPolicyAnchor where
  policyId : PolicyId
  policyHash : PolicyHash
deriving DecidableEq

/-- Historical audit shape, used only by an explicit migration decoder. -/
structure LegacyAuditEntry where
  decisionAuditId : String
  occurredAt : OffsetDateTime
  requestId : Option RequestId
  anchor : LegacyPolicyAnchor
  effect : EffectKind
  obligations : List ObligationId
  consulted : Consulted
  decisive : TraceClause
  denialReason : Option DenialReason
  trace : Trace
  binding : Option TenantBinding
  factResolution : Option FactResolutionEvidence
  tenant : TenantId
  principal : SubjectRef
  subjects : Std.ExtTreeMap SubjectSlot SubjectRef
  locale : Locale

namespace Wire

def readLegacyAnchor : Reader WireError LegacyPolicyAnchor := fun j => do
  let r ← Record.ofJsonStrict ["policy_id", "policy_hash"] j
  let policyId ← r.required 0 "policy_id" policyId.read
  let policyHash ← r.required 1 "policy_hash" policyHash.read
  return ⟨policyId, policyHash⟩

def legacyNames : List String :=
  ["decision_audit_id", "occurred_at", "request_id", "anchor", "effect", "obligations", "consulted",
    "decisive", "denial_reason", "trace", "binding", "fact_resolution", "tenant", "principal",
    "subjects", "locale"]

section Entries

variable (time : Codec WireError OffsetDateTime)

def readLegacyEntry : Reader WireError LegacyAuditEntry := fun j => do
  let r ← Record.ofJsonStrict legacyNames j
  let decisionAuditId ← r.required 0 "decision_audit_id" text.read
  let occurredAt ← r.required 1 "occurred_at" time.read
  let requestId ← r.optional 2 "request_id" requestId.read
  let anchor ← r.required 3 "anchor" readLegacyAnchor
  let effect ← r.required 4 "effect" effectKind.read
  let obligations ← r.required 5 "obligations" obligationIds.read
  let consulted ← r.required 6 "consulted" consulted.read
  let decisive ← r.required 7 "decisive" readClause
  let denialReason ← r.optional 8 "denial_reason" denialReason.read
  let trace ← r.required 9 "trace" readTrace
  let binding ← r.defaulted 10 "binding" none (readOption (tenantBinding time).read)
  let factResolution ←
    r.defaulted 11 "fact_resolution" none (readOption (factResolutionEvidence time).read)
  let tenant ← r.required 12 "tenant" tenantId.read
  let principal ← r.required 13 "principal" subjectRef.read
  let subjects ← r.defaulted 14 "subjects" ∅ subjects.read
  let locale ← r.required 15 "locale" locale.read
  return {
    decisionAuditId, occurredAt, requestId, anchor, effect, obligations, consulted, decisive
    denialReason, trace, binding, factResolution, tenant, principal, subjects, locale }

variable {time}

/-- How a current entry begins. -/
theorem readRecord_opened {j : Json} {wire : AuditRecord} (h : readRecord time j = .ok wire) :
    ∃ names r version', Record.ofJson (ε := WireError) names j = .ok r ∧
      r.required 0 "schema_version" version.read = .ok version' := by
  obtain ⟨r, hr, h⟩ := Result.bind_eq_ok.mp h
  obtain ⟨version', hversion, -⟩ := Result.bind_eq_ok.mp h
  exact ⟨_, r, version', hr, hversion⟩

/-- How a historical entry begins. -/
theorem readLegacyEntry_opened {j : Json} {entry : LegacyAuditEntry}
    (h : readLegacyEntry time j = .ok entry) :
    ∃ r id, Record.ofJsonStrict (ε := WireError) legacyNames j = .ok r ∧
      r.required 0 "decision_audit_id" text.read = .ok id := by
  obtain ⟨r, hr, h⟩ := Result.bind_eq_ok.mp h
  obtain ⟨id, hid, -⟩ := Result.bind_eq_ok.mp h
  exact ⟨r, id, hr, hid⟩

theorem text_read_ne_ok {j : Json} {v : UInt16} {s : String} (h : version.read j = .ok v) :
    text.read j ≠ .ok s := by
  cases j with
  | int n => exact nofun
  | _ => cases h

/-- No document is a current and a historical entry. -/
theorem readLegacyEntry_excludes_readEntry {j : Json} {entry : AuditEntry}
    {legacy : LegacyAuditEntry} (h : readEntry time j = .ok entry)
    (hlegacy : readLegacyEntry time j = .ok legacy) : False := by
  obtain ⟨wire, hwire, -⟩ := readEntry_eq_ok.mp h
  obtain ⟨names, r, version', hr, hversion⟩ := readRecord_opened hwire
  obtain ⟨r', id, hr', hid⟩ := readLegacyEntry_opened hlegacy
  exact Record.required_excludes_strict hr hr' hversion hid (by decide) fun _ => text_read_ne_ok

/-- What a current entry is written as is not a historical entry. -/
theorem readLegacyEntry_writeEntry (record : AuditRecord) (legacy : LegacyAuditEntry) :
    readLegacyEntry time (writeEntry time record) ≠ .ok legacy := by
  intro h
  obtain ⟨r, id, hr, -⟩ := readLegacyEntry_opened h
  cases Record.find_strict hr (show "schema_version" ∉ legacyNames by decide) 0

end Entries

end Wire

end Gatekeep
