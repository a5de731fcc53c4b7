import Gatekeep.Authorization
import Gatekeep.LegacyAudit
import Gatekeep.Sql.AuditEvent

/-!
# Gatekeep.Sql.AttemptEvent

The two other kinds of audit events: failed attempts, `audit/attempt.rs` of `gatekeep-sqlx`, and
historical decisions, `decode_legacy_decision_audit` in `audit/mod.rs`.

A recorded attempt is read back (`decodeAuthorizationAttempt_eventFromAttempt`), and the three
decoders are mutually exclusive (`decoders_exclusive`): an attempt has an event type of its own, and
a historical decision has the type of a current one and differs in its payload.
-/

namespace Gatekeep

open Serde

/-! ## The JSON form of an attempt -/

theorem AttemptRecord.occurrence_valid {r : AttemptRecord} (h : r.validate = .ok ()) :
    r.occurrence.validate = .ok () := by
  unfold validate at h
  rw [Result.guard_eq_ok, Result.guard_eq_ok] at h
  exact Result.mapError_eq_ok.mp h.2.2

theorem AuthorizationAttempt.ofRecord_self (e : AuthorizationAttempt) :
    ofRecord e.toAttemptRecord = .ok e := by
  unfold ofRecord
  split
  · rename_i error herror
    rw [e.valid] at herror
    cases herror
  · rfl

namespace Wire

def attemptFailure : Codec WireError AttemptFailure :=
  Serde.unit [("Resolution", .resolution), ("Evidence", .evidence), ("Trace", .trace)]
    (fun
      | .resolution => "Resolution"
      | .evidence => "Evidence"
      | .trace => "Trace")
    (fun f => by cases f <;> rfl)

section Attempts

variable (time : Codec WireError OffsetDateTime)

def writeOccurrence (o : DecisionAuditOccurrence) : Json := .obj [
  ("decision_audit_id", .str o.decisionAuditId.value),
  ("occurred_at", time.write o.occurredAt)]

def readOccurrence : Reader WireError DecisionAuditOccurrence := fun j => do
  let r ← Record.ofJson ["decision_audit_id", "occurred_at"] j
  let decisionAuditId ← r.required 0 "decision_audit_id" readDecisionAuditId
  let occurredAt ← r.required 1 "occurred_at" time.read
  customError .occurrence (DecisionAuditOccurrence.new decisionAuditId occurredAt)

def writeAttempt (e : AttemptRecord) : Json := .obj [
  ("schema_version", version.write e.schemaVersion),
  ("occurrence", writeOccurrence time e.occurrence),
  ("anchor", policyAnchor.write e.anchor),
  ("tenant", tenantId.write e.tenant),
  ("binding", (tenantBinding time).write e.binding),
  ("principal", subjectRef.write e.principal),
  ("subjects", subjects.write e.subjects),
  ("request_id", writeOption requestId.write e.requestId),
  ("failure", attemptFailure.write e.failure)]

/-- `AttemptWire`: the fields before they are checked. -/
def readAttempt : Reader WireError AttemptRecord := fun j => do
  let r ← Record.ofJson ["schema_version", "occurrence", "anchor", "tenant", "binding", "principal",
    "subjects", "request_id", "failure"] j
  let schemaVersion ← r.required 0 "schema_version" version.read
  let occurrence ← r.required 1 "occurrence" (readOccurrence time)
  let anchor ← r.required 2 "anchor" policyAnchor.read
  let tenant ← r.required 3 "tenant" tenantId.read
  let binding ← r.required 4 "binding" (tenantBinding time).read
  let principal ← r.required 5 "principal" subjectRef.read
  let subjects ← r.required 6 "subjects" subjects.read
  let requestId ← r.optional 7 "request_id" requestId.read
  let failure ← r.required 8 "failure" attemptFailure.read
  return {
    schemaVersion, occurrence, anchor, tenant, binding, principal, subjects, requestId, failure }

variable {time}

theorem readOccurrence_writeOccurrence {o : DecisionAuditOccurrence} (h : o.validate = .ok ()) :
    readOccurrence time (writeOccurrence time o) = .ok o := by
  have hnew := DecisionAuditOccurrence.new_of_validate h
  have hid := readDecisionAuditId_str (DecisionAuditOccurrence.new_eq_ok hnew).1
  rw [readOccurrence, writeOccurrence, Record.ofJson_obj (by simp), Result.ok_bind,
    Record.required_of_find rfl, hid, Result.ok_bind, Record.required_write rfl, Result.ok_bind,
    hnew, customError_ok]

theorem readAttempt_writeAttempt {r : AttemptRecord} (h : r.validate = .ok ()) :
    readAttempt time (writeAttempt time r) = .ok r := by
  rw [readAttempt, writeAttempt, Record.ofJson_obj (by simp), Result.ok_bind,
    Record.required_write rfl, Result.ok_bind, Record.required_of_find rfl,
    readOccurrence_writeOccurrence (AttemptRecord.occurrence_valid h),
    Result.ok_bind, Record.required_write rfl, Result.ok_bind, Record.required_write rfl,
    Result.ok_bind, Record.required_write rfl, Result.ok_bind, Record.required_write rfl,
    Result.ok_bind, Record.required_write rfl, Result.ok_bind, Record.optional_write rfl,
    Result.ok_bind, Record.required_write rfl]
  rfl

end Attempts

end Wire

/-! ## Attempts -/

def attemptAuditEventType : String := "gatekeep.authorization_attempt_failed"

/-- What `serde_json` reports for an attempt: the text, a field, or `AttemptWire`'s conversion. -/
inductive AttemptPayloadError where
  | payload (error : PayloadError)
  | attempt (error : AttemptValidationError)
deriving DecidableEq

inductive AttemptAuditEventError (ε : Type) where
  | payloadTooLarge
  | attempt (error : AttemptValidationError)
  | event (error : ε)
  | json (error : AttemptPayloadError)
  | shape
deriving DecidableEq

def attemptAuditEventId (id : DecisionAuditId) : String := "gatekeep-attempt-" ++ id.value

/-- The event of an attempt with the given payload. -/
def DecisionAuditConfig.attemptEvent (config : DecisionAuditConfig) (entry : AuthorizationAttempt)
    (payload : Bytes) : Event where
  stream := config.stream
  id := attemptAuditEventId entry.occurrence.decisionAuditId
  source := config.source
  eventType := attemptAuditEventType
  time := some entry.occurrence.occurredAt
  datacontenttype := some decisionAuditContentType
  data := some (.json payload)

section Events

variable {ε : Type} (dovecote : Dovecote ε) (json : SerdeJson)
  (time : Codec WireError OffsetDateTime) (config : DecisionAuditConfig)

def eventFromAttempt (entry : AuthorizationAttempt) :
    Except (AttemptAuditEventError ε) (String × Event) := do
  entry.validate.mapError .attempt
  let payload ← (json.toVec (Wire.writeAttempt time entry.toAttemptRecord)).mapError fun e =>
    .json (.payload (.text e))
  if payload.length > maxAuditPayloadBytes then .error .payloadTooLarge
  (dovecote.eventId (attemptAuditEventId entry.occurrence.decisionAuditId)).mapError .event
  (dovecote.eventType attemptAuditEventType).mapError .event
  (dovecote.contentType decisionAuditContentType).mapError .event
  (dovecote.json payload).mapError .event
  let event := config.attemptEvent entry payload
  (dovecote.build event).mapError .event
  (dovecote.tenantId entry.tenant.value).mapError .event
  return (entry.tenant.value, event)

def decodeAttemptPayload (payload : Bytes) : Except AttemptPayloadError AuthorizationAttempt := do
  let doc ← (json.fromSlice payload).mapError fun e => .payload (.text e)
  let wire ← (Wire.readAttempt time doc).mapError fun e => .payload (.data e)
  (AuthorizationAttempt.ofRecord wire).mapError .attempt

def decodeAuthorizationAttempt (paged : PagedEvent) :
    Except (AttemptAuditEventError ε) AuthorizationAttempt := do
  let event := paged.event
  if event.stream ≠ config.stream ∨ event.source ≠ config.source ∨
      event.eventType ≠ attemptAuditEventType ∨
      event.datacontenttype ≠ some decisionAuditContentType then
    .error .shape
  match event.data with
  | some (.json payload) =>
    if payload.length > maxAuditPayloadBytes then .error .shape
    let entry ← (decodeAttemptPayload json time payload).mapError .json
    if entry.tenant.value ≠ paged.tenantId ∨
        event.time.map OffsetDateTime.instant ≠ some entry.occurrence.occurredAt.instant ∨
        event.id ≠ attemptAuditEventId entry.occurrence.decisionAuditId then
      .error .shape
    entry.validate.mapError .attempt
    return entry
  | _ => .error .shape

/-! ## Historical decisions -/

inductive LegacyDecisionAuditDecodeError where
  | unexpectedShape (field : String)
  | missingPayload
  | json (error : PayloadError)
  | identity
  | tenant
deriving DecidableEq

def decodeLegacyDecisionAudit (paged : PagedEvent) :
    Except LegacyDecisionAuditDecodeError LegacyAuditEntry := do
  let event := paged.event
  if event.stream ≠ config.stream ∨ event.source ≠ config.source ∨
      event.eventType ≠ config.eventType ∨
      event.datacontenttype ≠ some decisionAuditContentType then
    .error (.unexpectedShape "attributes")
  match event.data with
  | some (.json payload) =>
    let doc ← (json.fromSlice payload).mapError fun e => .json (.text e)
    let entry ← (Wire.readLegacyEntry time doc).mapError fun e => .json (.data e)
    if event.id ≠ "gatekeep-audit-" ++ entry.decisionAuditId ∨
        event.time.map OffsetDateTime.instant ≠ some entry.occurredAt.instant then
      .error .identity
    if paged.tenantId ≠ entry.tenant.value then .error .tenant
    return entry
  | _ => .error .missingPayload

/-! ## What each accepts -/

variable {dovecote json time config}

theorem eventFromAttempt_event {entry : AuthorizationAttempt} {tenant : String} {event : Event}
    (h : eventFromAttempt dovecote json time config entry = .ok (tenant, event)) :
    ∃ payload, json.toVec (Wire.writeAttempt time entry.toAttemptRecord) = .ok payload ∧
      payload.length ≤ maxAuditPayloadBytes ∧ tenant = entry.tenant.value ∧
      event = config.attemptEvent entry payload := by
  unfold eventFromAttempt at h
  simp only [Result.bind_eq_ok, Result.guard_eq_ok, Result.mapError_eq_ok, Result.pure_eq_ok,
    Except.ok.injEq, Prod.mk.injEq, gt_iff_lt, not_lt] at h
  obtain ⟨_, -, payload, hvec, hsize, _, -, _, -, _, -, _, -, _, -, _, -, rfl, rfl⟩ := h
  exact ⟨payload, hvec, hsize, rfl, rfl⟩

/-- A recorded attempt is read back. -/
theorem decodeAuthorizationAttempt_eventFromAttempt {entry : AuthorizationAttempt} {tenant : String}
    {event : Event} (h : eventFromAttempt dovecote json time config entry = .ok (tenant, event))
    (hjson : json.Faithful (Wire.writeAttempt time entry.toAttemptRecord)) :
    decodeAuthorizationAttempt (ε := ε) json time config ⟨tenant, event⟩ = .ok entry := by
  obtain ⟨payload, hvec, hsize, rfl, rfl⟩ := eventFromAttempt_event h
  have hpayload : decodeAttemptPayload json time payload = .ok entry := by
    rw [decodeAttemptPayload, hjson payload hvec]
    simp only [Except.mapError, Result.ok_bind, Wire.readAttempt_writeAttempt entry.valid,
      entry.ofRecord_self]
  unfold decodeAuthorizationAttempt
  refine Result.guard_eq_ok.mpr ⟨by simp [DecisionAuditConfig.attemptEvent], ?_⟩
  show (if _ then _ else _) = _
  refine Result.guard_eq_ok.mpr ⟨by omega, ?_⟩
  rw [hpayload]
  refine Result.guard_eq_ok.mpr ⟨by simp [DecisionAuditConfig.attemptEvent], ?_⟩
  rw [entry.valid]
  rfl

theorem eventType_of_attempt {paged : PagedEvent}
    (h : (decodeAuthorizationAttempt (ε := ε) json time config paged).isOk) :
    paged.event.eventType = attemptAuditEventType := by
  obtain ⟨entry, h⟩ := Result.isOk_iff.mp h
  unfold decodeAuthorizationAttempt at h
  obtain ⟨hshape, -⟩ := Result.guard_eq_ok.mp h
  simp only [not_or, not_not, ne_eq] at hshape
  exact hshape.2.2.1

theorem decodeLegacyDecisionAudit_read {paged : PagedEvent} {entry : LegacyAuditEntry}
    (h : decodeLegacyDecisionAudit json time config paged = .ok entry) :
    paged.event.eventType = decisionAuditEventType ∧
      ∃ payload doc, paged.event.data = some (.json payload) ∧
        json.fromSlice payload = .ok doc ∧ Wire.readLegacyEntry time doc = .ok entry := by
  unfold decodeLegacyDecisionAudit at h
  obtain ⟨hshape, h⟩ := Result.guard_eq_ok.mp h
  simp only [not_or, not_not, ne_eq] at hshape
  refine ⟨hshape.2.2.1.trans config.eventType_eq, ?_⟩
  split at h
  · rename_i payload hdata
    simp only [Result.bind_eq_ok, Result.guard_eq_ok, Result.mapError_eq_ok, Result.pure_eq_ok,
      Except.ok.injEq] at h
    obtain ⟨doc, hdoc, entry', hentry, -, -, rfl⟩ := h
    exact ⟨payload, doc, hdata, hdoc, hentry⟩
  · cases h

theorem decodeDecisionAudit_read {paged : PagedEvent} {entry : AuditEntry}
    (h : decodeDecisionAudit json time config paged = .ok entry) :
    paged.event.eventType = decisionAuditEventType ∧
      ∃ payload doc, paged.event.data = some (.json payload) ∧
        json.fromSlice payload = .ok doc ∧ Wire.readEntry time doc = .ok entry := by
  obtain ⟨hevent, -⟩ := decodeDecisionAudit_eq_ok.mp h
  obtain ⟨-, -, htype, -, -, -, payload, hdata, hpayload⟩ := decodeEvent_eq_ok.mp hevent
  obtain ⟨-, doc, hdoc, hentry⟩ := decodePayload_eq_ok.mp hpayload
  exact ⟨htype.trans config.eventType_eq, payload, doc, hdata, hdoc, hentry⟩

theorem eventType_of_legacy {paged : PagedEvent}
    (h : (decodeLegacyDecisionAudit json time config paged).isOk) :
    paged.event.eventType = decisionAuditEventType := by
  obtain ⟨entry, h⟩ := Result.isOk_iff.mp h
  exact (decodeLegacyDecisionAudit_read h).1

theorem eventType_of_decision {paged : PagedEvent}
    (h : (decodeDecisionAudit json time config paged).isOk) :
    paged.event.eventType = decisionAuditEventType := by
  obtain ⟨entry, h⟩ := Result.isOk_iff.mp h
  exact (decodeDecisionAudit_read h).1

/-- Both decoders of decisions read the same document, and no document is of both formats. -/
theorem not_decision_and_legacy (paged : PagedEvent) :
    ¬((decodeDecisionAudit json time config paged).isOk ∧
      (decodeLegacyDecisionAudit json time config paged).isOk) := by
  rintro ⟨hdecision, hlegacy⟩
  obtain ⟨entry, hdecision⟩ := Result.isOk_iff.mp hdecision
  obtain ⟨legacy, hlegacy⟩ := Result.isOk_iff.mp hlegacy
  obtain ⟨-, payload, doc, hdata, hdoc, hread⟩ := decodeDecisionAudit_read hdecision
  obtain ⟨-, payload', doc', hdata', hdoc', hread'⟩ := decodeLegacyDecisionAudit_read hlegacy
  cases hdata.symm.trans hdata'
  cases hdoc.symm.trans hdoc'
  exact Wire.readLegacyEntry_excludes_readEntry hread hread'

/-- The document of an entry is not of the historical format. -/
theorem not_legacy_eventFromEntry {entry : AuditEntry} {tenant tenant' : String} {event : Event}
    {config' : DecisionAuditConfig}
    (h : eventFromEntry dovecote json time config entry = .ok (tenant, event))
    (hjson : json.Faithful (Wire.writeEntry time entry.toAuditRecord)) :
    ¬(decodeLegacyDecisionAudit json time config' ⟨tenant', event⟩).isOk := by
  intro hlegacy
  obtain ⟨-, payload, hvec, -, -, -, -, -, rfl⟩ := eventFromEntry_eq_ok.mp h
  obtain ⟨legacy, hlegacy⟩ := Result.isOk_iff.mp hlegacy
  obtain ⟨-, payload', doc, hdata, hdoc, hread⟩ := decodeLegacyDecisionAudit_read hlegacy
  cases hdata
  cases (hjson payload hvec).symm.trans hdoc
  exact Wire.readLegacyEntry_writeEntry _ _ hread

/-- The two kinds of event identities differ in their eleventh letter. -/
theorem eventId_ne (id id' : String) : "gatekeep-audit-" ++ id ≠ "gatekeep-attempt-" ++ id' := by
  intro h
  have hletter := congrArg (fun text : String => text.toList[10]?) h
  simp at hletter

theorem eventType_ne : decisionAuditEventType ≠ attemptAuditEventType := by decide

/-- The three decoders are mutually exclusive, on every stored item and on the events of entries and
attempts. -/
theorem decoders_exclusive (dovecote : Dovecote ε) (json : SerdeJson)
    (time : Codec WireError OffsetDateTime) :
    (∀ (config : DecisionAuditConfig) (paged : PagedEvent),
      ¬((decodeDecisionAudit json time config paged).isOk ∧
        (decodeLegacyDecisionAudit json time config paged).isOk) ∧
      ¬((decodeDecisionAudit json time config paged).isOk ∧
        (decodeAuthorizationAttempt (ε := ε) json time config paged).isOk) ∧
      ¬((decodeLegacyDecisionAudit json time config paged).isOk ∧
        (decodeAuthorizationAttempt (ε := ε) json time config paged).isOk)) ∧
    (∀ (config config' : DecisionAuditConfig) (entry : AuditEntry) (attempt : AuthorizationAttempt)
      (tenant tenant' : String) (event event' : Event),
      eventFromEntry dovecote json time config entry = .ok (tenant, event) →
      eventFromAttempt dovecote json time config' attempt = .ok (tenant', event') →
      event.id ≠ event'.id) ∧
    (∀ (config : DecisionAuditConfig) (entry : AuditEntry) (tenant : String) (event : Event),
      eventFromEntry dovecote json time config entry = .ok (tenant, event) →
      ∀ (config' : DecisionAuditConfig) (tenant' : String),
        (json.Faithful (Wire.writeEntry time entry.toAuditRecord) →
          ¬(decodeLegacyDecisionAudit json time config' ⟨tenant', event⟩).isOk) ∧
        ¬(decodeAuthorizationAttempt (ε := ε) json time config' ⟨tenant', event⟩).isOk) ∧
    ∀ (config : DecisionAuditConfig) (attempt : AuthorizationAttempt) (tenant : String)
      (event : Event), eventFromAttempt dovecote json time config attempt = .ok (tenant, event) →
      ∀ (config' : DecisionAuditConfig) (tenant' : String),
        ¬(decodeDecisionAudit json time config' ⟨tenant', event⟩).isOk ∧
        ¬(decodeLegacyDecisionAudit json time config' ⟨tenant', event⟩).isOk := by
  refine ⟨?_, ?_, ?_, ?_⟩
  · intro config paged
    refine ⟨not_decision_and_legacy paged, ?_, ?_⟩
    · rintro ⟨hdecision, hattempt⟩
      exact eventType_ne ((eventType_of_decision hdecision).symm.trans
        (eventType_of_attempt hattempt))
    · rintro ⟨hlegacy, hattempt⟩
      exact eventType_ne ((eventType_of_legacy hlegacy).symm.trans (eventType_of_attempt hattempt))
  · intro config config' entry attempt tenant tenant' event event' hentry hattempt
    obtain ⟨-, payload, -, -, -, -, -, -, rfl⟩ := eventFromEntry_eq_ok.mp hentry
    obtain ⟨payload', -, -, -, rfl⟩ := eventFromAttempt_event hattempt
    exact eventId_ne _ _
  · intro config entry tenant event hentry config' tenant'
    refine ⟨not_legacy_eventFromEntry hentry, fun hattempt => ?_⟩
    obtain ⟨-, payload, -, -, -, -, -, -, rfl⟩ := eventFromEntry_eq_ok.mp hentry
    exact eventType_ne (config.eventType_eq.symm.trans (eventType_of_attempt hattempt))
  · intro config attempt tenant event hattempt config' tenant'
    obtain ⟨payload, -, -, -, rfl⟩ := eventFromAttempt_event hattempt
    exact ⟨fun hdecision => eventType_ne (eventType_of_decision hdecision).symm,
      fun hlegacy => eventType_ne (eventType_of_legacy hlegacy).symm⟩

end Events

open Sample in
theorem decoders_exclusive_tier :
    ∃ event, eventFromEntry dovecote (serdeJson (doc tierEntry)) timeTuple config tierEntry =
        .ok ("acme", event) ∧
      ¬(decodeLegacyDecisionAudit (serdeJson (doc tierEntry)) timeTuple config
        ⟨"acme", event⟩).isOk ∧
      ¬(decodeAuthorizationAttempt (ε := String) (serdeJson (doc tierEntry)) timeTuple config
        ⟨"acme", event⟩).isOk := by
  have hrejected := (decoders_exclusive dovecote (serdeJson (doc tierEntry)) timeTuple).2.2.1 config
    tierEntry "acme" _ eventFromEntry_tierEntry config "acme"
  exact ⟨_, eventFromEntry_tierEntry, hrejected.1 (serdeJson_faithful _), hrejected.2⟩

end Gatekeep
