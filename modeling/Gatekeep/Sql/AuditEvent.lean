import Gatekeep.Sql.Filter
import Gatekeep.Wire

/-!
# Gatekeep.Sql.AuditEvent

The Dovecote events of decision audits, `audit/mod.rs` of `gatekeep-sqlx`: an entry becomes an
event with a JSON payload, and a page item is decoded back into an entry.

Three things outside the source are parameters: what `dovecote` accepts (`Dovecote`; it keeps the
texts and bytes it is given), the text form of JSON (`SerdeJson`) and the form of a time.

`decodeDecisionAudit_eventFromEntry` says which entries come back: those whose decisive clause has
no requested outcome of `null`. For a decision of `evaluate` this is
`decodeDecisionAudit_fromDecision`.
-/

namespace Gatekeep

open Serde

/-! ## Outside the source -/

abbrev Bytes := List UInt8

inductive EventData where
  | json (payload : Bytes)
  | other (payload : Bytes)
deriving DecidableEq

/-- The attributes of an event, the same before and after storage. -/
structure Event where
  stream : String
  id : String
  source : String
  eventType : String
  time : Option OffsetDateTime
  datacontenttype : Option String
  data : Option EventData
deriving DecidableEq

/-- An event with the tenant it was stored for. -/
structure PagedEvent where
  tenantId : String
  event : Event
deriving DecidableEq

/-- The checks of `dovecote`, with its validation errors `ε`. -/
structure Dovecote (ε : Type) where
  streamName : String → Except ε Unit
  eventId : String → Except ε Unit
  eventSource : String → Except ε Unit
  eventType : String → Except ε Unit
  contentType : String → Except ε Unit
  tenantId : String → Except ε Unit
  json : Bytes → Except ε Unit
  build : Event → Except ε Unit

structure SerdeJson where
  toVec : Json → Except JsonError Bytes
  fromSlice : Bytes → Except JsonError Json

/-- The text of a document is read back as the document. -/
def SerdeJson.Faithful (json : SerdeJson) (doc : Json) : Prop :=
  ∀ payload, json.toVec doc = .ok payload → json.fromSlice payload = .ok doc

/-! ## Configuration -/

def defaultAuditStream : String := "gatekeep-audit"
def decisionAuditEventType : String := "gatekeep.decision_audit_recorded"
def decisionAuditContentType : String := "application/json"
def maxAuditPayloadBytes : Nat := 1048576

/-- Configuration required to write audit events. Only the source is the application's. -/
structure DecisionAuditConfig where
  source : String
  stream : String
  eventType : String
  contentType : String
  stream_eq : stream = defaultAuditStream
  eventType_eq : eventType = decisionAuditEventType
  contentType_eq : contentType = decisionAuditContentType
deriving DecidableEq

inductive DecisionAuditConfigError (ε : Type) where
  | source (value : String)
  | sourceValue (error : ε)
  | stream (error : ε)
  | eventType (error : ε)
  | contentType (error : ε)
deriving DecidableEq

section Events

variable {ε : Type} (dovecote : Dovecote ε)

/-- `urlScheme` is the scheme of an absolute URI. -/
def DecisionAuditConfig.new (urlScheme : String → Option String) (source : String) :
    Except (DecisionAuditConfigError ε) DecisionAuditConfig := do
  match urlScheme source with
  | none => .error (.source source)
  | some scheme => if scheme.isEmpty then .error (.source source)
  (dovecote.eventSource source).mapError .sourceValue
  (dovecote.streamName defaultAuditStream).mapError .stream
  (dovecote.eventType decisionAuditEventType).mapError .eventType
  (dovecote.contentType decisionAuditContentType).mapError .contentType
  return ⟨source, _, _, _, rfl, rfl, rfl⟩

/-! ## From entry to event -/

inductive DecisionAuditEventError (ε : Type) where
  | payloadTooLarge
  | entry (error : AuditEntryError)
  | json (error : JsonError)
  | identity (error : GatekeepError)
  | validation (error : ε)
deriving DecidableEq

def decisionAuditEventId (id : DecisionAuditId) : String := "gatekeep-audit-" ++ id.value

/-- The event of an entry with the given payload. -/
def DecisionAuditConfig.event (config : DecisionAuditConfig) (entry : AuditEntry)
    (payload : Bytes) : Event where
  stream := config.stream
  id := decisionAuditEventId entry.decisionAuditId
  source := config.source
  eventType := config.eventType
  time := some entry.occurredAt
  datacontenttype := some config.contentType
  data := some (.json payload)

variable (json : SerdeJson) (time : Codec WireError OffsetDateTime) (config : DecisionAuditConfig)

def eventFromEntry (entry : AuditEntry) : Except (DecisionAuditEventError ε) (String × Event) := do
  entry.validateCurrent.mapError .entry
  let _ ← (OwnedId.new "decision_audit_id" entry.decisionAuditId.value).mapError .identity
  (dovecote.eventId (decisionAuditEventId entry.decisionAuditId)).mapError .validation
  let payload ← (json.toVec (Wire.writeEntry time entry.toAuditRecord)).mapError .json
  if payload.length > maxAuditPayloadBytes then .error .payloadTooLarge
  (dovecote.json payload).mapError .validation
  let event := config.event entry payload
  (dovecote.build event).mapError .validation
  (dovecote.tenantId entry.tenant.value).mapError .validation
  return (entry.tenant.value, event)

/-! ## From event to entry -/

/-- What `serde_json::from_slice` reports: the text or the value. -/
inductive PayloadError where
  | text (error : JsonError)
  | data (error : Serde.Error WireError)
deriving DecidableEq

inductive DecisionAuditDecodeError where
  | entry (error : AuditEntryError)
  | unexpectedShape (field : String)
  | missingPayload
  | json (error : PayloadError)
  | identity (error : GatekeepError)
deriving DecidableEq

def decodePayload (payload : Bytes) : Except DecisionAuditDecodeError AuditEntry := do
  if payload.length > maxAuditPayloadBytes then .error (.unexpectedShape "payload size")
  let doc ← (json.fromSlice payload).mapError fun e => .json (.text e)
  (Wire.readEntry time doc).mapError fun e => .json (.data e)

/-- Times are compared by the instants they denote. -/
def decodeEvent (event : Event) : Except DecisionAuditDecodeError AuditEntry := do
  if event.stream ≠ config.stream ∨ event.source ≠ config.source ∨
      event.eventType ≠ config.eventType ∨
      event.datacontenttype ≠ some decisionAuditContentType then
    .error (.unexpectedShape "attributes")
  match event.data with
  | some (.json payload) =>
    let entry ← decodePayload json time payload
    if event.id ≠ decisionAuditEventId entry.decisionAuditId ∨
        event.time.map OffsetDateTime.instant ≠ some entry.occurredAt.instant then
      .error (.unexpectedShape "identity or occurrence time")
    let _ ← (OwnedId.new "decision_audit_id" entry.decisionAuditId.value).mapError .identity
    return entry
  | _ => .error .missingPayload

def decodeDecisionAudit (paged : PagedEvent) : Except DecisionAuditDecodeError AuditEntry := do
  let entry ← decodeEvent json time config paged.event
  if paged.tenantId ≠ entry.tenant.value then .error (.unexpectedShape "tenant")
  entry.validateCurrent.mapError .entry
  return entry

/-! ## The round trip -/

variable {dovecote json time config} {entry : AuditEntry}

theorem eventFromEntry_eq_ok {tenant : String} {event : Event} :
    eventFromEntry dovecote json time config entry = .ok (tenant, event) ↔
      dovecote.eventId (decisionAuditEventId entry.decisionAuditId) = .ok () ∧
      ∃ payload, json.toVec (Wire.writeEntry time entry.toAuditRecord) = .ok payload ∧
        payload.length ≤ maxAuditPayloadBytes ∧ dovecote.json payload = .ok () ∧
        dovecote.build (config.event entry payload) = .ok () ∧
        dovecote.tenantId entry.tenant.value = .ok () ∧
        tenant = entry.tenant.value ∧ event = config.event entry payload := by
  unfold eventFromEntry
  simp only [entry.valid, OwnedId.new_value_of_unreserved _ entry.unreserved, Result.bind_eq_ok,
    Result.mapError_eq_ok, Result.guard_eq_ok, Result.pure_eq_ok, Except.ok.injEq, Prod.mk.injEq,
    gt_iff_lt, not_lt]
  constructor
  · rintro ⟨_, -, _, -, _, hid, payload, hvec, hsize, _, hjson, _, hbuild, _, htenant, rfl, rfl⟩
    exact ⟨hid, payload, hvec, hsize, hjson, hbuild, htenant, rfl, rfl⟩
  · rintro ⟨hid, payload, hvec, hsize, hjson, hbuild, htenant, rfl, rfl⟩
    exact ⟨(), trivial, _, rfl, (), hid, payload, hvec, hsize, (), hjson, (), hbuild, (), htenant,
      rfl, rfl⟩

theorem decodePayload_eq_ok {payload : Bytes} :
    decodePayload json time payload = .ok entry ↔
      payload.length ≤ maxAuditPayloadBytes ∧
      ∃ doc, json.fromSlice payload = .ok doc ∧ Wire.readEntry time doc = .ok entry := by
  unfold decodePayload
  simp only [Result.guard_eq_ok, Result.bind_eq_ok, Result.mapError_eq_ok, gt_iff_lt, not_lt]

theorem decodeEvent_eq_ok {event : Event} :
    decodeEvent json time config event = .ok entry ↔
      event.stream = config.stream ∧ event.source = config.source ∧
      event.eventType = config.eventType ∧
      event.datacontenttype = some decisionAuditContentType ∧
      event.id = decisionAuditEventId entry.decisionAuditId ∧
      event.time.map OffsetDateTime.instant = some entry.occurredAt.instant ∧
      ∃ payload, event.data = some (.json payload) ∧
        decodePayload json time payload = .ok entry := by
  unfold decodeEvent
  rw [Result.guard_eq_ok]
  simp only [not_or, not_not, ne_eq, and_assoc]
  refine and_congr_right fun _ => and_congr_right fun _ => and_congr_right fun _ =>
    and_congr_right fun _ => ?_
  split
  · rename_i payload hdata
    simp only [Result.bind_eq_ok, Result.guard_eq_ok, Result.mapError_eq_ok, Result.pure_eq_ok,
      Except.ok.injEq, not_or, not_not]
    constructor
    · rintro ⟨e, hpayload, ⟨hid, htime⟩, _, -, rfl⟩
      exact ⟨hid, htime, payload, hdata, hpayload⟩
    · rintro ⟨hid, htime, payload', hdata', hpayload⟩
      rw [hdata] at hdata'
      cases hdata'
      exact ⟨entry, hpayload, ⟨hid, htime⟩, _,
        OwnedId.new_value_of_unreserved _ entry.unreserved, rfl⟩
  · rename_i hnone
    refine ⟨fun h => (nomatch h), ?_⟩
    rintro ⟨-, -, payload, hdata, -⟩
    exact absurd hdata (hnone payload)

/-- The check after decoding cannot fail: an entry carries that it passed. -/
theorem decodeDecisionAudit_eq_ok {paged : PagedEvent} :
    decodeDecisionAudit json time config paged = .ok entry ↔
      decodeEvent json time config paged.event = .ok entry ∧
      paged.tenantId = entry.tenant.value := by
  unfold decodeDecisionAudit
  simp only [Result.bind_eq_ok, Result.guard_eq_ok, Result.mapError_eq_ok, Result.pure_eq_ok,
    Except.ok.injEq, not_not, ne_eq]
  constructor
  · rintro ⟨e, hevent, htenant, _, -, rfl⟩
    exact ⟨hevent, htenant⟩
  · rintro ⟨hevent, htenant⟩
    exact ⟨entry, hevent, htenant, (), entry.valid, rfl⟩

/-- An accepted entry comes back unless its decisive clause has a requested outcome of `null`. -/
theorem decodeDecisionAudit_eventFromEntry {tenant : String} {event : Event}
    (h : eventFromEntry dovecote json time config entry = .ok (tenant, event))
    (hjson : json.Faithful (Wire.writeEntry time entry.toAuditRecord)) :
    decodeDecisionAudit json time config ⟨tenant, event⟩ = .ok entry ↔
      entry.decisive.denied ≠ some .null := by
  obtain ⟨-, payload, hvec, hsize, -, -, -, rfl, rfl⟩ := eventFromEntry_eq_ok.mp h
  have hpayload : decodePayload json time payload = .ok entry ↔
      Wire.readEntry time (Wire.writeEntry time entry.toAuditRecord) = .ok entry := by
    simp [decodePayload_eq_ok, hsize, hjson payload hvec]
  rw [decodeDecisionAudit_eq_ok, decodeEvent_eq_ok, ← Wire.readEntry_writeEntry, ← hpayload]
  constructor
  · rintro ⟨⟨-, -, -, -, -, -, payload', hdata, hok⟩, -⟩
    cases hdata
    exact hok
  · intro hok
    exact ⟨⟨rfl, rfl, rfl, congrArg some config.contentType_eq, rfl, rfl, payload, rfl, hok⟩, rfl⟩

/-- Which audit events of evaluated decisions can be read back: all but those of a denial whose
decisive clause has a requested outcome that serializes to `null`. -/
theorem decodeDecisionAudit_fromDecision {O : Type} [Lattice O] [DecidableEq O] [Serialize O]
    (p : Policy O) (facts : KnownFacts) {occurrence : DecisionAuditOccurrence}
    {anchor : PolicyAnchor} {context : Context} {evidence : FactResolutionEvidence}
    {tenant : String} {event : Event}
    (hentry : AuditEntry.fromDecision occurrence anchor (evaluate p facts) context evidence =
      .ok entry)
    (hevent : eventFromEntry dovecote json time config entry = .ok (tenant, event))
    (hjson : json.Faithful (Wire.writeEntry time entry.toAuditRecord)) :
    decodeDecisionAudit json time config ⟨tenant, event⟩ = .ok entry ↔
      ∀ o, (evaluate p facts).trace.decisive.denied = some o →
        Serialize.toValue o ≠ .ok .null := by
  rw [decodeDecisionAudit_eventFromEntry hevent hjson, ne_eq,
    AuditEntry.denied_fromDecision hentry]
  simp

end Events

/-! ## A decision whose event is lost

The parameters as they behave on the events below: times are the tuples of the `time` crate, payloads
compact JSON text. -/

namespace Sample

/-- Days from the Unix epoch to the first day of a year. -/
def daysBefore (year : Int) : Int :=
  365 * (year - 1970) + (year - 1) / 4 - (year - 1) / 100 + (year - 1) / 400 - 477

/-- The year of a day counted from the Unix epoch. -/
def yearOf (day : Int) : Int :=
  let z := day + 719468
  let doe := z % 146097
  let yoe := (doe - doe / 1460 + doe / 36524 - doe / 146096) / 365
  let doy := doe - (365 * yoe + yoe / 4 - yoe / 100)
  -- years are counted from March here, so the last days belong to the next one
  z / 146097 * 400 + yoe + if doy < 306 then 0 else 1

/-- Year, day of the year, hour, minute, second, nanosecond, and the three parts of the offset. -/
def writeTime (t : OffsetDateTime) : Json :=
  let l := t.seconds + t.offset
  let year := yearOf (l / 86400)
  .arr [.int year, .int (l / 86400 - daysBefore year + 1), .int (l % 86400 / 3600),
    .int (l % 3600 / 60), .int (l % 60), .int t.nano, .int (t.offset.tdiv 3600),
    .int ((t.offset.tmod 3600).tdiv 60), .int (t.offset.tmod 60)]

def timeOf : Reader WireError OffsetDateTime
  | .arr [.int year, .int ordinal, .int hour, .int minute, .int second, .int nano,
      .int offsetHours, .int offsetMinutes, .int offsetSeconds] =>
    let offset := offsetHours * 3600 + offsetMinutes * 60 + offsetSeconds
    let seconds :=
      (daysBefore year + ordinal - 1) * 86400 + hour * 3600 + minute * 60 + second - offset
    if h : nano.toNat < 1000000000 ∧ (-93599 ≤ offset ∧ offset ≤ 93599) ∧
        minLocalSeconds ≤ seconds + offset ∧ seconds + offset ≤ maxLocalSeconds then
      .ok ⟨seconds, nano.toNat, offset, h.1, h.2.1, h.2.2⟩
    else .error .invalidValue
  | _ => .error .invalidType

/-- The parts of a tuple are all in range when writing the time gives the tuple again. -/
def readTime : Reader WireError OffsetDateTime := fun j => do
  let t ← timeOf j
  if writeTime t = j then .ok t else .error .invalidValue

theorem offset_parts (offset : Int) :
    offset.tdiv 3600 * 3600 + (offset.tmod 3600).tdiv 60 * 60 + offset.tmod 60 = offset := by
  have hhours := Int.tmod_add_mul_tdiv offset 3600
  have hminutes := Int.tmod_add_mul_tdiv (offset.tmod 3600) 60
  rw [Int.tmod_tmod_of_dvd offset (by decide)] at hminutes
  omega

theorem timeOf_writeTime (t : OffsetDateTime) : timeOf (writeTime t) = .ok t := by
  have hoffset := offset_parts t.offset
  have hseconds (l first : Int) : (first + (l / 86400 - first + 1) - 1) * 86400 +
      l % 86400 / 3600 * 3600 + l % 3600 / 60 * 60 + l % 60 - t.offset = l - t.offset := by
    omega
  simp only [timeOf, writeTime, hoffset, hseconds, Int.add_sub_cancel, Int.toNat_natCast]
  rw [dif_pos ⟨t.nano_lt, t.offset_bound, t.inRange⟩]

def timeTuple : Codec WireError OffsetDateTime where
  write := writeTime
  read := readTime
  read_write t := by
    rw [readTime, timeOf_writeTime, Result.ok_bind]
    exact if_pos rfl
  write_ne_null _ := nofun

/-- A text in quotes; no text below needs an escape. -/
def quoted (s : String) : List Char := '"' :: s.toList ++ ['"']

def enclosed (left right : Char) (items : List (List Char)) : List Char :=
  left :: (items.intersperse [',']).flatten ++ [right]

mutual

def compact : Json → List Char
  | .null => "null".toList
  | .bool b => (toString b).toList
  | .int n => (toString n).toList
  | .decimal literal => literal.toList
  | .str s => quoted s
  | .arr items => enclosed '[' ']' (compactItems items)
  | .obj fields => enclosed '\x7b' '\x7d' (compactFields fields)

def compactItems : List Json → List (List Char)
  | [] => []
  | j :: js => compact j :: compactItems js

def compactFields : List (String × Json) → List (List Char)
  | [] => []
  | (k, j) :: fields => (quoted k ++ ':' :: compact j) :: compactFields fields

end

def payload (doc : Json) : Bytes := (compact doc).flatMap String.utf8EncodeChar

/-- `serde_json` as it behaves on one document. -/
def serdeJson (doc : Json) : SerdeJson where
  toVec j := .ok (payload j)
  fromSlice text := if text = payload doc then .ok doc else .error "expected value"

theorem serdeJson_faithful (doc : Json) : (serdeJson doc).Faithful doc := by
  rintro _ ⟨⟩
  exact if_pos rfl

def nonempty (s : String) : Except String Unit := if s.isEmpty then .error "empty" else .ok ()

def dovecote : Dovecote String where
  streamName := nonempty
  eventId := nonempty
  eventSource := nonempty
  eventType := nonempty
  contentType := nonempty
  tenantId := nonempty
  json _ := .ok ()
  build _ := .ok ()

def config : DecisionAuditConfig := ⟨"https://audit.example.test/gatekeep", _, _, _, rfl, rfl, rfl⟩

def evidence : FactResolutionEvidence where
  source := none
  revision := none
  observedAt := noon
  freshUntil := none
  factSetDigest := ⟨Vector.replicate 32 0⟩
  observations := []
  window := rfl
  canonical := FactObservation.canonical_nil

/-- Grant `outcome` to owners, with a reason for everyone else. -/
def ownerOnly {O : Type} (outcome : O) : Policy O :=
  .grant ⟨outcome, .has owner, none, .forbidden, [], some ⟨"not_owner", by decide⟩⟩

def stranger : KnownFacts :=
  ownerKnown .absent .absent Presence.absent_ne_unknown Presence.absent_ne_unknown

instance : Serialize Tier where
  toValue
    | .shared => .ok (.str "Shared")
    | .full => .ok (.str "Full")

/-- The entry of the decision that denies a stranger. -/
def denial {O : Type} [Lattice O] [DecidableEq O] [Serialize O] (outcome : O) :
    Except AuditConstructionError AuditEntry :=
  AuditEntry.fromDecision occurrence anchor (evaluate (ownerOnly outcome) stranger) request evidence

def built (x : Except AuditConstructionError AuditEntry) (h : x.toOption.isSome = true) :
    AuditEntry := x.toOption.get h

theorem eq_ok_built {x : Except AuditConstructionError AuditEntry}
    (h : x.toOption.isSome = true) : x = .ok (built x h) := by
  cases x with
  | error e => cases h
  | ok e => rfl

def doc (e : AuditEntry) : Json := Wire.writeEntry timeTuple e.toAuditRecord

theorem eventFromEntry_of_small (e : AuditEntry) (hid : e.decisionAuditId.value = "d1")
    (htenant : e.tenant = acme) (hsize : (payload (doc e)).length ≤ maxAuditPayloadBytes) :
    eventFromEntry dovecote (serdeJson (doc e)) timeTuple config e =
      .ok ("acme", config.event e (payload (doc e))) := by
  have hevent : dovecote.eventId (decisionAuditEventId e.decisionAuditId) = .ok () := by
    unfold decisionAuditEventId
    rw [hid]
    decide
  have htenantId : dovecote.tenantId e.tenant.value = .ok () := by
    rw [htenant]
    decide
  exact eventFromEntry_eq_ok.mpr ⟨hevent, payload (doc e), rfl, hsize, rfl, rfl, htenantId,
    congrArg TenantId.value htenant.symm, rfl⟩

def failure {ε α : Type} : Except ε α → Option ε
  | .error e => some e
  | .ok _ => none

theorem eq_error_of_failure {ε α : Type} {x : Except ε α} {e : ε} (h : failure x = some e) :
    x = .error e := by
  cases x with
  | error e' => cases h; rfl
  | ok a => cases h

/-- The denial of a graded outcome, and of the unit outcome. -/
def tierEntry : AuditEntry := built (denial Tier.full) (by decide +kernel)
def unitEntry : AuditEntry := built (denial ()) (by decide +kernel)

theorem eventFromEntry_tierEntry :
    eventFromEntry dovecote (serdeJson (doc tierEntry)) timeTuple config tierEntry =
      .ok ("acme", config.event tierEntry (payload (doc tierEntry))) :=
  eventFromEntry_of_small tierEntry (by decide +kernel) (by decide +kernel) (by decide +kernel)

theorem eventFromEntry_unitEntry :
    eventFromEntry dovecote (serdeJson (doc unitEntry)) timeTuple config unitEntry =
      .ok ("acme", config.event unitEntry (payload (doc unitEntry))) :=
  eventFromEntry_of_small unitEntry (by decide +kernel) (by decide +kernel) (by decide +kernel)

end Sample

open Sample in
theorem decodeDecisionAudit_fromDecision_tier :
    ∃ entry event, denial Tier.full = .ok entry ∧
      eventFromEntry dovecote (serdeJson (doc entry)) timeTuple config entry =
        .ok ("acme", event) ∧
      decodeDecisionAudit (serdeJson (doc entry)) timeTuple config ⟨"acme", event⟩ = .ok entry := by
  have hentry : denial Tier.full = .ok tierEntry := eq_ok_built _
  refine ⟨tierEntry, _, hentry, eventFromEntry_tierEntry, ?_⟩
  refine (decodeDecisionAudit_fromDecision (ownerOnly Tier.full) stranger hentry
    eventFromEntry_tierEntry (serdeJson_faithful _)).mpr fun o ho => ?_
  cases ho
  nofun

open Sample in
/-- With the unit outcome the denial reason has a parameter that the clause read back has not. -/
theorem unit_denial_undecodable :
    ∃ entry event, AuditEntry.fromDecision occurrence anchor
        (evaluate (ownerOnly ()) stranger) request evidence = .ok entry ∧
      eventFromEntry dovecote (serdeJson (doc entry)) timeTuple config entry =
        .ok ("acme", event) ∧
      (serdeJson (doc entry)).Faithful (doc entry) ∧
      decodeDecisionAudit (serdeJson (doc entry)) timeTuple config ⟨"acme", event⟩ =
        .error (.json (.data (.custom (.entry .denialReasonMismatch)))) :=
  ⟨unitEntry, _, eq_ok_built _, eventFromEntry_unitEntry, serdeJson_faithful _,
    eq_error_of_failure (by decide +kernel)⟩

end Gatekeep
