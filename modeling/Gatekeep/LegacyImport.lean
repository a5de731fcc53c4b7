import Gatekeep.Sql.AttemptEvent

/-!
# Gatekeep.LegacyImport

Historical audit entries become current ones, `LegacyAuditEntry::into_current` in `audit.rs`: the
caller supplies an occurrence, a binding, evidence and the format of the historical hash, and the
result passes every check of a current entry.

`intoCurrent_eq_ok` says exactly when this succeeds and with what. `legacy_export_import` is that
nothing is lost on the way: the historical form of a current entry is imported back as the entry,
unless its decisive clause has a requested outcome of `null`. No entry read from history has one, so
that an imported entry can be recorded and read back (`imported_history_decodes`).
-/

namespace Gatekeep

open Serde

namespace LegacyAuditEntry

variable (e : LegacyAuditEntry)

def validateSemantics : Except AuditEntryError Unit :=
  validateAuditSemantics e.effect e.obligations e.consulted e.decisive e.denialReason e.trace

/-- The arguments for the constructor of current entries. -/
def fields (binding : TenantBinding) (factResolution : FactResolutionEvidence) : AuditFields where
  requestId := e.requestId
  anchor := PolicyAnchor.new e.anchor.policyId e.anchor.policyHash
  effect := e.effect
  obligations := e.obligations
  consulted := e.consulted
  decisive := e.decisive
  denialReason := e.denialReason
  trace := e.trace
  binding := binding
  factResolution := factResolution
  tenant := e.tenant
  principal := e.principal
  subjects := e.subjects
  locale := e.locale

def intoCurrent (occurrence : DecisionAuditOccurrence) (hashVersion : UInt16)
    (binding : TenantBinding) (factResolution : FactResolutionEvidence) :
    Except AuditEntryError AuditEntry := do
  e.validateSemantics
  if hashVersion ≠ policyHashFormatVersion then
    .error (.unsupportedPolicyHashVersion policyHashFormatVersion hashVersion)
  AuditEntry.new occurrence (e.fields binding factResolution)

/-- What the historical shape keeps of a current record. -/
def ofRecord (r : AuditRecord) (binding : Option TenantBinding)
    (factResolution : Option FactResolutionEvidence) : LegacyAuditEntry where
  decisionAuditId := r.decisionAuditId.value
  occurredAt := r.occurredAt
  requestId := r.requestId
  anchor := ⟨r.anchor.policyId, r.anchor.policyHash⟩
  effect := r.effect
  obligations := r.obligations
  consulted := r.consulted
  decisive := r.decisive
  denialReason := r.denialReason
  trace := r.trace
  binding := binding
  factResolution := factResolution
  tenant := r.tenant
  principal := r.principal
  subjects := r.subjects
  locale := r.locale

/-- What the fields of a historical entry read back as. -/
def durable : LegacyAuditEntry :=
  { e with
    decisive := e.decisive.durable
    trace := ⟨e.trace.consulted, e.trace.decisive.durable⟩ }

end LegacyAuditEntry

/-! ## The JSON form -/

namespace Wire

def writeLegacyAnchor (a : LegacyPolicyAnchor) : Json := .obj [
  ("policy_id", policyId.write a.policyId),
  ("policy_hash", policyHash.write a.policyHash)]

section Entries

variable (time : Codec WireError OffsetDateTime)

def writeLegacyEntry (e : LegacyAuditEntry) : Json := .obj [
  ("decision_audit_id", text.write e.decisionAuditId),
  ("occurred_at", time.write e.occurredAt),
  ("request_id", writeOption requestId.write e.requestId),
  ("anchor", writeLegacyAnchor e.anchor),
  ("effect", effectKind.write e.effect),
  ("obligations", obligationIds.write e.obligations),
  ("consulted", consulted.write e.consulted),
  ("decisive", writeClause e.decisive),
  ("denial_reason", writeOption denialReason.write e.denialReason),
  ("trace", writeTrace e.trace),
  ("binding", writeOption (tenantBinding time).write e.binding),
  ("fact_resolution", writeOption (factResolutionEvidence time).write e.factResolution),
  ("tenant", tenantId.write e.tenant),
  ("principal", subjectRef.write e.principal),
  ("subjects", subjects.write e.subjects),
  ("locale", locale.write e.locale)]

variable {time}

theorem readLegacyAnchor_write (a : LegacyPolicyAnchor) :
    readLegacyAnchor (writeLegacyAnchor a) = .ok a := by
  rw [readLegacyAnchor, writeLegacyAnchor, Record.ofJsonStrict_obj (by rfl) (by decide),
    Result.ok_bind, Record.required_write rfl, Result.ok_bind, Record.required_write rfl]
  rfl

theorem readLegacyEntry_writeLegacyEntry (e : LegacyAuditEntry) :
    readLegacyEntry time (writeLegacyEntry time e) = .ok e.durable := by
  rw [readLegacyEntry, writeLegacyEntry, Record.ofJsonStrict_obj (by rfl) (by decide),
    Result.ok_bind, Record.required_write rfl, Result.ok_bind, Record.required_write rfl,
    Result.ok_bind, Record.optional_write rfl, Result.ok_bind,
    Record.required_of_find rfl, readLegacyAnchor_write, Result.ok_bind,
    Record.required_write rfl, Result.ok_bind, Record.required_write rfl, Result.ok_bind,
    Record.required_write rfl, Result.ok_bind,
    Record.required_of_find rfl, readClause_writeClause, Result.ok_bind,
    Record.optional_write rfl, Result.ok_bind,
    Record.required_of_find rfl, readTrace_writeTrace, Result.ok_bind,
    Record.defaulted_writeOption rfl, Result.ok_bind, Record.defaulted_writeOption rfl,
    Result.ok_bind, Record.required_write rfl, Result.ok_bind, Record.required_write rfl,
    Result.ok_bind, Record.defaulted_write rfl, Result.ok_bind, Record.required_write rfl]
  rfl

/-- A requested outcome that was read is not `null`. -/
theorem readOption_value_ne_null {j : Json} {value : Option TraceValue}
    (h : readOption readValue j = .ok value) : value ≠ some .null := by
  by_cases hj : j = .null
  · subst hj
    cases h
    nofun
  · rw [readOption_of_ne_null hj] at h
    cases h
    exact fun heq => hj (Option.some.inj heq)

theorem optional_value_ne_null {r : Record} {index : Nat} {name : String}
    {value : Option TraceValue} (h : r.optional index name readValue = .ok value) :
    value ≠ some .null := by
  unfold Record.optional at h
  split at h
  · exact readOption_value_ne_null h
  · cases h
    nofun
  · cases h

theorem denied_of_readClause {j : Json} {c : TraceClause} (h : readClause j = .ok c) :
    c.denied ≠ some .null := by
  obtain ⟨⟨name, content⟩, -, h⟩ := Result.bind_eq_ok.mp h
  dsimp only at h
  split at h
  · simp only [Result.bind_eq_ok, Result.pure_eq_ok, Except.ok.injEq] at h
    obtain ⟨r, -, granted, -, satisfied, -, label, -, rfl⟩ := h
    nofun
  · simp only [Result.bind_eq_ok, Result.pure_eq_ok, Except.ok.injEq] at h
    obtain ⟨r, -, denied, hdenied, unsatisfied, -, label, -, reason, -, shape, -, rfl⟩ := h
    exact optional_value_ne_null hdenied
  · cases h

theorem denied_of_readLegacyEntry {j : Json} {e : LegacyAuditEntry}
    (h : readLegacyEntry time j = .ok e) : e.decisive.denied ≠ some .null := by
  unfold readLegacyEntry at h
  simp only [Result.bind_eq_ok, Result.pure_eq_ok, Except.ok.injEq] at h
  obtain ⟨_, -, _, -, _, -, _, -, _, -, _, -, _, -, _, -, decisive, hdecisive, _, -, _, -, _, -,
    _, -, _, -, _, -, _, -, _, -, rfl⟩ := h
  obtain ⟨j', -, hread⟩ := Record.required_eq_ok.mp hdecisive
  exact denied_of_readClause hread

end Entries

end Wire

/-! ## What is imported -/

namespace LegacyAuditEntry

variable {e : LegacyAuditEntry} {occurrence : DecisionAuditOccurrence} {hashVersion : UInt16}
  {binding : TenantBinding} {factResolution : FactResolutionEvidence} {current : AuditEntry}

theorem intoCurrent_eq_ok :
    e.intoCurrent occurrence hashVersion binding factResolution = .ok current ↔
      e.validateSemantics = .ok () ∧ hashVersion = policyHashFormatVersion ∧
      occurrence.validate = .ok () ∧
      { toAuditFields := e.fields binding factResolution
        schemaVersion := auditEntrySchemaVersion
        decisionAuditId := occurrence.decisionAuditId
        occurredAt := occurrence.occurredAt : AuditRecord } = current.toAuditRecord := by
  rw [intoCurrent, Result.check_eq_ok, Result.guard_eq_ok, not_not, AuditEntry.new_eq_ok]

end LegacyAuditEntry

/-- The entry in the current schema. -/
def AuditEntry.upgraded (e : AuditEntry) : AuditEntry where
  toAuditRecord := { e.toAuditRecord with schemaVersion := auditEntrySchemaVersion }
  valid := by
    obtain ⟨-, -, hobservations, hoccurrence, htenant, hsemantics⟩ :=
      AuditRecord.validateCurrent_eq_ok.mp e.valid
    refine AuditRecord.validateCurrent_eq_ok.mpr ⟨.inr rfl, fun h => ?_, hobservations, hoccurrence,
      htenant, hsemantics⟩
    exact absurd (show auditEntrySchemaVersion = 1 from h) (by decide)

theorem PolicyAnchor.new_fields (a : PolicyAnchor) : new a.policyId a.policyHash = a := by
  obtain ⟨id, hash, version, hcurrent⟩ := a
  subst hcurrent
  rfl

section Import

variable {ε : Type} {dovecote : Dovecote ε} {json : SerdeJson}
  {time : Codec WireError OffsetDateTime} {config : DecisionAuditConfig}

theorem decodeLegacyDecisionAudit_eq_ok {paged : PagedEvent} {entry : LegacyAuditEntry} :
    decodeLegacyDecisionAudit json time config paged = .ok entry ↔
      paged.event.stream = config.stream ∧ paged.event.source = config.source ∧
      paged.event.eventType = config.eventType ∧
      paged.event.datacontenttype = some decisionAuditContentType ∧
      paged.event.id = "gatekeep-audit-" ++ entry.decisionAuditId ∧
      paged.event.time.map OffsetDateTime.instant = some entry.occurredAt.instant ∧
      paged.tenantId = entry.tenant.value ∧
      ∃ payload doc, paged.event.data = some (.json payload) ∧ json.fromSlice payload = .ok doc ∧
        Wire.readLegacyEntry time doc = .ok entry := by
  unfold decodeLegacyDecisionAudit
  rw [Result.guard_eq_ok]
  simp only [not_or, not_not, ne_eq, and_assoc]
  refine and_congr_right fun _ => and_congr_right fun _ => and_congr_right fun _ =>
    and_congr_right fun _ => ?_
  split
  · rename_i payload hdata
    simp only [Result.bind_eq_ok, Result.guard_eq_ok, Result.mapError_eq_ok, Result.pure_eq_ok,
      Except.ok.injEq, not_or, not_not]
    constructor
    · rintro ⟨doc, hdoc, e, hread, ⟨hid, htime⟩, htenant, rfl⟩
      exact ⟨hid, htime, htenant, payload, doc, hdata, hdoc, hread⟩
    · rintro ⟨hid, htime, htenant, payload', doc, hdata', hdoc, hread⟩
      rw [hdata] at hdata'
      cases hdata'
      exact ⟨doc, hdoc, entry, hread, ⟨hid, htime⟩, htenant, rfl⟩
  · rename_i hnone
    refine ⟨fun h => (nomatch h), ?_⟩
    rintro ⟨-, -, -, payload, doc, hdata, -⟩
    exact absurd hdata (hnone payload)

theorem durable_ofRecord {e : AuditEntry} (h : e.decisive.denied ≠ some .null)
    (binding : Option TenantBinding) (factResolution : Option FactResolutionEvidence) :
    (LegacyAuditEntry.ofRecord e.toAuditRecord binding factResolution).durable =
      LegacyAuditEntry.ofRecord e.toAuditRecord binding factResolution := by
  have hdecisive : e.decisive.durable = e.decisive := TraceClause.durable_eq_self.mpr h
  have htrace : e.trace.decisive.durable = e.trace.decisive := by
    rw [← AuditRecord.decisive_eq_of_validateCurrent e.valid]
    exact hdecisive
  simp only [LegacyAuditEntry.durable, LegacyAuditEntry.ofRecord, hdecisive, htrace]

/-- With what it was made of, the historical form of an entry is imported as the entry. -/
theorem intoCurrent_ofRecord (e : AuditEntry) (binding : Option TenantBinding)
    (factResolution : Option FactResolutionEvidence) :
    (LegacyAuditEntry.ofRecord e.toAuditRecord binding factResolution).intoCurrent e.occurrence
      e.anchor.policyHashVersion e.binding e.factResolution = .ok e.upgraded := by
  obtain ⟨-, -, -, hoccurrence, -, hsemantics⟩ := AuditRecord.validateCurrent_eq_ok.mp e.valid
  refine LegacyAuditEntry.intoCurrent_eq_ok.mpr ⟨hsemantics, e.anchor.current, hoccurrence, ?_⟩
  simp only [LegacyAuditEntry.fields, LegacyAuditEntry.ofRecord, PolicyAnchor.new_fields]
  rfl

/-- The historical form of any current entry, with or without its binding and evidence, is read and
imported back as the entry, in the current schema, exactly when the decisive clause has no requested
outcome of `null`. -/
theorem legacy_export_import (e : AuditEntry) (binding : Option TenantBinding)
    (factResolution : Option FactResolutionEvidence) :
    ∃ legacy, Wire.readLegacyEntry time (Wire.writeLegacyEntry time
        (LegacyAuditEntry.ofRecord e.toAuditRecord binding factResolution)) = .ok legacy ∧
      (legacy.intoCurrent e.occurrence e.anchor.policyHashVersion e.binding e.factResolution =
          .ok e.upgraded ↔
        e.decisive.denied ≠ some .null) := by
  refine ⟨_, Wire.readLegacyEntry_writeLegacyEntry _, fun h => ?_, fun h => ?_⟩
  · obtain ⟨-, -, -, hrecord⟩ := LegacyAuditEntry.intoCurrent_eq_ok.mp h
    have hdecisive : e.decisive.durable = e.decisive :=
      congrArg (fun r : AuditRecord => r.decisive) hrecord
    exact TraceClause.durable_eq_self.mp hdecisive
  · rw [durable_ofRecord h]
    exact intoCurrent_ofRecord e binding factResolution

/-- A historical event that was imported and recorded is read back as the imported entry: under the
occurrence that was supplied for it, in the tenant it was stored for, and with every decision field
of the historical entry. The new event is not of the historical format. -/
theorem imported_history_decodes {paged : PagedEvent} {legacy : LegacyAuditEntry}
    {occurrence : DecisionAuditOccurrence} {hashVersion : UInt16} {binding : TenantBinding}
    {factResolution : FactResolutionEvidence} {current : AuditEntry} {tenant : String}
    {event : Event} (hlegacy : decodeLegacyDecisionAudit json time config paged = .ok legacy)
    (himport : legacy.intoCurrent occurrence hashVersion binding factResolution = .ok current)
    (hevent : eventFromEntry dovecote json time config current = .ok (tenant, event))
    (hjson : json.Faithful (Wire.writeEntry time current.toAuditRecord)) :
    decodeDecisionAudit json time config ⟨tenant, event⟩ = .ok current ∧
      ¬(decodeLegacyDecisionAudit json time config ⟨tenant, event⟩).isOk ∧
      tenant = paged.tenantId ∧ current.occurrence = occurrence ∧
      LegacyAuditEntry.ofRecord current.toAuditRecord legacy.binding legacy.factResolution =
        { legacy with
          decisionAuditId := occurrence.decisionAuditId.value
          occurredAt := occurrence.occurredAt } := by
  obtain ⟨-, -, -, hrecord⟩ := LegacyAuditEntry.intoCurrent_eq_ok.mp himport
  obtain ⟨-, -, -, -, -, -, htenant, payload, doc, -, -, hread⟩ :=
    decodeLegacyDecisionAudit_eq_ok.mp hlegacy
  have hdenied : current.decisive.denied ≠ some .null := by
    rw [← hrecord]
    exact Wire.denied_of_readLegacyEntry hread
  refine ⟨(decodeDecisionAudit_eventFromEntry hevent hjson).mpr hdenied,
    not_legacy_eventFromEntry hevent hjson, ?_, ?_, ?_⟩
  · obtain ⟨-, -, -, -, -, -, -, hcurrent, -⟩ := eventFromEntry_eq_ok.mp hevent
    rw [hcurrent, htenant, ← hrecord]
    rfl
  · rw [AuditEntry.occurrence, ← hrecord]
  · rw [← hrecord]
    rfl

end Import

namespace Sample

/-- `serde_json` as it behaves on two documents. -/
def serdeJsonOn (first second : Json) : SerdeJson where
  toVec j := .ok (payload j)
  fromSlice text :=
    if text = payload first then .ok first
    else if text = payload second then .ok second
    else .error "expected value"

theorem serdeJsonOn_first (first second : Json) :
    (serdeJsonOn first second).fromSlice (payload first) = .ok first := if_pos rfl

theorem serdeJsonOn_faithful {first second : Json} (h : payload second ≠ payload first) :
    (serdeJsonOn first second).Faithful second := by
  rintro _ ⟨⟩
  exact (if_neg h).trans (if_pos rfl)

/-- The historical form of an entry, without the binding and the evidence it was made with. -/
def history (e : AuditEntry) : LegacyAuditEntry :=
  LegacyAuditEntry.ofRecord e.toAuditRecord none none

def historyDoc (e : AuditEntry) : Json := Wire.writeLegacyEntry timeTuple (history e)

theorem decodeLegacyDecisionAudit_history {e : AuditEntry} (h : e.decisive.denied ≠ some .null)
    (second : Json) :
    decodeLegacyDecisionAudit (serdeJsonOn (historyDoc e) second) timeTuple config
      ⟨e.tenant.value, config.event e (payload (historyDoc e))⟩ = .ok (history e) := by
  have hread : Wire.readLegacyEntry timeTuple (historyDoc e) = .ok (history e) := by
    rw [historyDoc, Wire.readLegacyEntry_writeLegacyEntry, history, durable_ofRecord h]
  exact decodeLegacyDecisionAudit_eq_ok.mpr ⟨rfl, rfl, rfl, rfl, rfl, rfl, rfl, _, _, rfl,
    serdeJsonOn_first _ _, hread⟩

theorem eventFromEntry_on {e : AuditEntry} {tenant : String} {event : Event} (first second : Json)
    (h : eventFromEntry dovecote (serdeJson (doc e)) timeTuple config e = .ok (tenant, event)) :
    eventFromEntry dovecote (serdeJsonOn first second) timeTuple config e =
      .ok (tenant, event) := by
  rw [eventFromEntry_eq_ok] at h ⊢
  exact h

end Sample

open Sample in
/-- The graded denial of a stranger goes from history to a current event and back. -/
theorem imported_history_decodes_tier :
    let json := serdeJsonOn (historyDoc tierEntry) (doc tierEntry.upgraded)
    ∃ event,
      eventFromEntry dovecote json timeTuple config tierEntry.upgraded = .ok ("acme", event) ∧
      decodeDecisionAudit json timeTuple config ⟨"acme", event⟩ = .ok tierEntry.upgraded := by
  intro json
  have hdenied : tierEntry.decisive.denied ≠ some .null := by decide +kernel
  have hne : payload (doc tierEntry.upgraded) ≠ payload (historyDoc tierEntry) := by decide +kernel
  have hevent := eventFromEntry_on (historyDoc tierEntry) (doc tierEntry.upgraded)
    (eventFromEntry_of_small tierEntry.upgraded (by decide +kernel) (by decide +kernel)
      (by decide +kernel))
  exact ⟨_, hevent, (imported_history_decodes (decodeLegacyDecisionAudit_history hdenied _)
    (intoCurrent_ofRecord tierEntry none none) hevent (serdeJsonOn_faithful hne)).1⟩

end Gatekeep
