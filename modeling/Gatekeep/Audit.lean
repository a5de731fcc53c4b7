import Gatekeep.Evaluate
import Gatekeep.Resolution
import Gatekeep.Support.Result

/-!
# Gatekeep.Audit

The durable record of a decision, `audit.rs` and the trace part of `decision.rs`. `AuditEntry` is
built only by constructors that end in `validateCurrent`, so it carries that the check passed.

An outcome enters the record as the JSON value its type serializes to (`Serialize`).
-/

namespace Gatekeep

/-- The text of an error of `serde_json`. -/
abbrev JsonError := String

/-- `serde_json::to_value` at an outcome type. -/
class Serialize (O : Type) where
  toValue : O → Except JsonError TraceValue

instance : Serialize Unit where
  toValue _ := .ok .null

/-! ## Durable traces -/

inductive TraceClause where
  | permit (granted : TraceValue) (satisfied : List FactId) (label : Option ClauseLabel)
  | deny (denied : Option TraceValue) (unsatisfied : List FactId) (label : Option ClauseLabel)
      (reason : Option ReasonCode) (shape : DenyShape)
deriving DecidableEq

/-- The requested outcome of a deny clause. -/
def TraceClause.denied : TraceClause → Option TraceValue
  | .permit .. => none
  | .deny denied .. => denied

/-- Durable, non-generic decision trace. -/
structure Trace where
  consulted : Consulted
  decisive : TraceClause
deriving DecidableEq

inductive ReasonValue where
  | str (value : String)
  | int (value : Int64)
  | fact (fact : FactId)
  | outcome (value : TraceValue)
deriving DecidableEq

/-- Stable denial reason emitted by the core. -/
structure DenialReason where
  code : ReasonCode
  params : Std.ExtTreeMap ParamKey ReasonValue
  shape : DenyShape

inductive TraceError where
  | outcome (error : JsonError)
  | identity (error : GatekeepError)
deriving DecidableEq

/-- The parameter that names the unsatisfied fact at an index. -/
def missingFactKey (index : Nat) : String :=
  if index = 0 then "missing_fact" else "missing_fact_" ++ toString index

/-- The loop that enters unsatisfied facts as parameters. -/
def missingFactParams : List FactId → Nat → Std.ExtTreeMap ParamKey ReasonValue →
    Except TraceError (Std.ExtTreeMap ParamKey ReasonValue)
  | [], _, params => .ok params
  | fact :: facts, index, params => do
    let key ← (OwnedId.new "param_key" (missingFactKey index)).mapError .identity
    missingFactParams facts (index + 1) (params.insert key (.fact fact))

namespace Decision

variable {O : Type} [Serialize O]

/-- A serialized outcome of a trace. -/
def traceValue (outcome : O) : Except TraceError TraceValue :=
  (Serialize.toValue outcome).mapError .outcome

/-- The decisive clause with its outcome serialized. -/
def traceClause : DecisiveClause O → Except TraceError TraceClause
  | .permit granted satisfied label =>
    (traceValue granted).map fun granted => .permit granted satisfied label
  | .deny none unsatisfied label reason shape => .ok (.deny none unsatisfied label reason shape)
  | .deny (some denied) unsatisfied label reason shape =>
    (traceValue denied).map fun denied => .deny (some denied) unsatisfied label reason shape

def toTrace (d : Decision O) : Except TraceError Trace :=
  (traceClause d.trace.decisive).map fun decisive => ⟨d.trace.consulted, decisive⟩

/-- The requested outcome of a durable clause is the serialized one of the decision. -/
theorem denied_toTrace {d : Decision O} {trace : Trace} (h : d.toTrace = .ok trace)
    (value : TraceValue) :
    trace.decisive.denied = some value ↔
      ∃ o, d.trace.decisive.denied = some o ∧ Serialize.toValue o = .ok value := by
  obtain ⟨clause, hclause, rfl⟩ := Result.map_eq_ok.mp h
  cases hd : d.trace.decisive with
  | permit granted satisfied label =>
    rw [hd] at hclause
    obtain ⟨v, -, rfl⟩ := Result.map_eq_ok.mp hclause
    simp [TraceClause.denied, DecisiveClause.denied]
  | deny denied unsatisfied label reason shape =>
    rw [hd] at hclause
    cases denied with
    | none =>
      cases hclause
      simp [TraceClause.denied, DecisiveClause.denied]
    | some o =>
      obtain ⟨v, hv, rfl⟩ := Result.map_eq_ok.mp hclause
      have hvalue : Serialize.toValue o = .ok v := Result.mapError_eq_ok.mp hv
      simp [TraceClause.denied, DecisiveClause.denied, hvalue]

/-- The code of a denial: its reason, else its label. -/
def denialCode (reason : Option ReasonCode) (label : Option ClauseLabel) :
    Except TraceError (Option ReasonCode) :=
  match reason, label with
  | some reason, _ => .ok (some reason)
  | none, some label =>
    ((OwnedId.new "reason_code" label.value).mapError TraceError.identity).map some
  | none, none => .ok none

def denialReason (d : Decision O) : Except TraceError (Option DenialReason) :=
  match d.effect, d.trace.decisive with
  | .permit _, _ => .ok none
  | .deny, .permit .. => .ok none
  | .deny, .deny denied unsatisfied label reason shape => do
    match ← denialCode reason label with
    | none => return none
    | some code =>
      let params ← missingFactParams unsatisfied 0 ∅
      match denied with
      | none => return some ⟨code, params, shape⟩
      | some outcome =>
        let key ← (OwnedId.new "param_key" "denied_outcome").mapError TraceError.identity
        let value ← traceValue outcome
        return some ⟨code, params.insert key (.outcome value), shape⟩

end Decision

/-! ## Entries -/

def auditEntrySchemaVersion : UInt16 := 2

def policyHashFormatVersion : UInt16 := 1

/-- Stable policy identity recorded with summaries and audit entries. -/
structure PolicyAnchor where
  policyId : PolicyId
  policyHash : PolicyHash
  policyHashVersion : UInt16
  current : policyHashVersion = policyHashFormatVersion
deriving DecidableEq

def PolicyAnchor.new (policyId : PolicyId) (policyHash : PolicyHash) : PolicyAnchor :=
  ⟨policyId, policyHash, policyHashFormatVersion, rfl⟩

inductive EffectKind where
  | permit
  | deny
deriving DecidableEq

def Decision.effectKind {O : Type} (d : Decision O) : EffectKind :=
  match d.effect with
  | .permit _ => .permit
  | .deny => .deny

inductive AuditEntryError where
  | invalidObservations
  | unsupportedSchemaVersion (expected actual : UInt16)
  | unsupportedPolicyHashVersion (expected actual : UInt16)
  | bindingTenantMismatch
  | invalidDecisionOccurrence (error : DecisionAuditOccurrenceError)
  | invalidFactResolutionEvidence (error : FactResolutionError)
  | decisiveTraceMismatch
  | consultedTraceMismatch
  | effectTraceMismatch
  | permitWithDenialReason
  | denyWithObligations
  | denialReasonMismatch
deriving DecidableEq

def PolicyAnchor.validateCurrent (a : PolicyAnchor) : Except AuditEntryError Unit :=
  if a.policyHashVersion ≠ policyHashFormatVersion then
    .error (.unsupportedPolicyHashVersion policyHashFormatVersion a.policyHashVersion)
  else .ok ()

/-- The parameter with a given name. -/
def DenialReason.param (r : DenialReason) (name : String) : Option ReasonValue :=
  (r.params.toList.find? fun e => e.1.value == name).map Prod.snd

/-- The loop over the unsatisfied facts. -/
def missingFactsMatch (r : DenialReason) : List FactId → Nat → Bool
  | [], _ => true
  | fact :: facts, index =>
    decide (r.param (missingFactKey index) = some (.fact fact)) &&
      missingFactsMatch r facts (index + 1)

def denialReasonMatchesTrace (reason : Option DenialReason) : TraceClause → Bool
  | .permit .. => reason.isNone
  | .deny denied unsatisfied label reasonCode shape =>
    match (reasonCode.map OwnedId.value).or (label.map OwnedId.value) with
    | none => reason.isNone
    | some expectedCode =>
      match reason with
      | none => false
      | some reason =>
        if reason.code.value ≠ expectedCode ∨ reason.shape ≠ shape then false
        else if reason.params.size ≠ unsatisfied.length + if denied.isSome then 1 else 0 then false
        else if missingFactsMatch reason unsatisfied 0 then
          match denied with
          | none => true
          | some value => decide (reason.param "denied_outcome" = some (.outcome value))
        else false

def validateAuditSemantics (effect : EffectKind) (obligations : List ObligationId)
    (consulted : Consulted) (decisive : TraceClause) (denialReason : Option DenialReason)
    (trace : Trace) : Except AuditEntryError Unit :=
  if decisive ≠ trace.decisive then .error .decisiveTraceMismatch
  else if consulted ≠ trace.consulted then .error .consultedTraceMismatch
  else
    match effect, decisive with
    | .permit, .permit .. =>
      if denialReason.isSome then .error .permitWithDenialReason else .ok ()
    | .deny, .deny .. =>
      if !obligations.isEmpty then .error .denyWithObligations
      else if !denialReasonMatchesTrace denialReason decisive then .error .denialReasonMismatch
      else .ok ()
    | .permit, .deny .. | .deny, .permit .. => .error .effectTraceMismatch

/-- The arguments of `AuditEntry::new` after the occurrence. -/
structure AuditFields where
  requestId : Option RequestId
  anchor : PolicyAnchor
  effect : EffectKind
  obligations : List ObligationId
  consulted : Consulted
  decisive : TraceClause
  denialReason : Option DenialReason
  trace : Trace
  binding : TenantBinding
  factResolution : FactResolutionEvidence
  tenant : TenantId
  principal : SubjectRef
  subjects : Std.ExtTreeMap SubjectSlot SubjectRef
  locale : Locale

/-- The fields of an entry, before they are checked. -/
structure AuditRecord extends AuditFields where
  schemaVersion : UInt16
  decisionAuditId : DecisionAuditId
  occurredAt : OffsetDateTime

namespace AuditRecord

/-- No consulted fact contradicts a selected observation. -/
def observationsMatch (consulted : Consulted) : List FactObservation → Except AuditEntryError Unit
  | [] => .ok ()
  | o :: os =>
    if consulted.any fun e => e.1 == o.fact && e.2 != o.expected then .error .invalidObservations
    else observationsMatch consulted os

def validateSemantics (r : AuditRecord) : Except AuditEntryError Unit :=
  validateAuditSemantics r.effect r.obligations r.consulted r.decisive r.denialReason r.trace

def validateCurrent (r : AuditRecord) : Except AuditEntryError Unit := do
  if r.schemaVersion ≠ 1 ∧ r.schemaVersion ≠ auditEntrySchemaVersion then
    .error (.unsupportedSchemaVersion auditEntrySchemaVersion r.schemaVersion)
  if r.schemaVersion = 1 ∧ ¬ r.factResolution.observations.isEmpty then .error .invalidObservations
  observationsMatch r.consulted r.factResolution.observations
  (DecisionAuditOccurrence.validate ⟨r.decisionAuditId, r.occurredAt⟩).mapError
    .invalidDecisionOccurrence
  r.anchor.validateCurrent
  if r.binding.tenant ≠ r.tenant then .error .bindingTenantMismatch
  r.factResolution.validate.mapError .invalidFactResolutionEvidence
  r.validateSemantics

/-- What the check of a record establishes, beyond what the types of its fields carry. -/
theorem validateCurrent_eq_ok {r : AuditRecord} :
    r.validateCurrent = .ok () ↔
      (r.schemaVersion = 1 ∨ r.schemaVersion = auditEntrySchemaVersion) ∧
      (r.schemaVersion = 1 → r.factResolution.observations = []) ∧
      observationsMatch r.consulted r.factResolution.observations = .ok () ∧
      DecisionAuditOccurrence.validate ⟨r.decisionAuditId, r.occurredAt⟩ = .ok () ∧
      r.binding.tenant = r.tenant ∧ r.validateSemantics = .ok () := by
  have hanchor : r.anchor.validateCurrent = .ok () := by
    rw [PolicyAnchor.validateCurrent, if_neg (not_not.mpr r.anchor.current)]
  have hevidence : r.factResolution.validate = .ok () := r.factResolution.window
  unfold validateCurrent
  simp only [Result.guard_eq_ok, Result.check_eq_ok, Result.mapError_eq_ok, hanchor, hevidence,
    true_and, not_and, not_not, List.isEmpty_iff, ne_eq]
  rw [← or_iff_not_imp_left]

/-- The duplicated clause of a checked record is the one in its trace. -/
theorem decisive_eq_of_validateCurrent {r : AuditRecord} (h : r.validateCurrent = .ok ()) :
    r.decisive = r.trace.decisive := by
  obtain ⟨-, -, -, -, -, hsemantics⟩ := validateCurrent_eq_ok.mp h
  unfold validateSemantics validateAuditSemantics at hsemantics
  by_contra hne
  rw [if_pos hne] at hsemantics
  cases hsemantics

end AuditRecord

/-- Durable audit payload for a decision. -/
structure AuditEntry extends AuditRecord where
  valid : toAuditRecord.validateCurrent = .ok ()

inductive AuditConstructionError where
  | trace (error : TraceError)
  | entry (error : AuditEntryError)
deriving DecidableEq

namespace AuditEntry

/-- The identity and time of an entry are what the constructor of occurrences makes of them. -/
theorem occurrence_new (e : AuditEntry) :
    DecisionAuditOccurrence.new e.decisionAuditId e.occurredAt =
      .ok ⟨e.decisionAuditId, e.occurredAt⟩ := by
  obtain ⟨-, -, -, hoccurrence, -, -⟩ := AuditRecord.validateCurrent_eq_ok.mp e.valid
  exact DecisionAuditOccurrence.new_of_validate hoccurrence

theorem unreserved (e : AuditEntry) : startsWith e.decisionAuditId.value "legacy-" = false :=
  (DecisionAuditOccurrence.new_eq_ok e.occurrence_new).1

/-- An entry from fields that pass the check. -/
def ofRecord (r : AuditRecord) : Except AuditEntryError AuditEntry :=
  match h : r.validateCurrent with
  | .error e => .error e
  | .ok () => .ok ⟨r, h⟩

theorem ofRecord_eq_ok {r : AuditRecord} {e : AuditEntry} :
    ofRecord r = .ok e ↔ r = e.toAuditRecord := by
  unfold ofRecord
  split
  · rename_i err herr
    refine ⟨fun h => (nomatch h), fun h => ?_⟩
    rw [h, e.valid] at herr
    cases herr
  · rename_i hok
    constructor
    · intro h
      cases h; rfl
    · rintro rfl
      rfl

def new (occurrence : DecisionAuditOccurrence) (fields : AuditFields) :
    Except AuditEntryError AuditEntry := do
  occurrence.validate.mapError .invalidDecisionOccurrence
  ofRecord {
    toAuditFields := fields
    schemaVersion := auditEntrySchemaVersion
    decisionAuditId := occurrence.decisionAuditId
    occurredAt := occurrence.occurredAt }

theorem new_eq_ok {occurrence : DecisionAuditOccurrence} {fields : AuditFields} {e : AuditEntry} :
    new occurrence fields = .ok e ↔ occurrence.validate = .ok () ∧
      { toAuditFields := fields
        schemaVersion := auditEntrySchemaVersion
        decisionAuditId := occurrence.decisionAuditId
        occurredAt := occurrence.occurredAt : AuditRecord } = e.toAuditRecord := by
  rw [new, Result.check_eq_ok, Result.mapError_eq_ok, ofRecord_eq_ok]

def fromDecision {O : Type} [Serialize O] (occurrence : DecisionAuditOccurrence)
    (anchor : PolicyAnchor) (decision : Decision O) (context : Context)
    (evidence : FactResolutionEvidence) : Except AuditConstructionError AuditEntry := do
  let trace ← decision.toTrace.mapError .trace
  let denialReason ← decision.denialReason.mapError .trace
  (new occurrence {
    requestId := context.requestId
    anchor
    effect := decision.effectKind
    obligations := decision.obligations
    consulted := trace.consulted
    decisive := trace.decisive
    denialReason
    trace
    binding := context.binding
    factResolution := evidence
    tenant := context.tenant
    principal := context.principal
    subjects := context.subjects
    locale := context.locale }).mapError .entry

/-- Which entry a decision has. -/
theorem fromDecision_eq_ok {O : Type} [Serialize O] {occurrence : DecisionAuditOccurrence}
    {anchor : PolicyAnchor} {decision : Decision O} {context : Context}
    {evidence : FactResolutionEvidence} {e : AuditEntry} :
    fromDecision occurrence anchor decision context evidence = .ok e ↔
      ∃ trace denialReason, decision.toTrace = .ok trace ∧
        decision.denialReason = .ok denialReason ∧ occurrence.validate = .ok () ∧
        e.toAuditRecord = {
          requestId := context.requestId
          anchor
          effect := decision.effectKind
          obligations := decision.obligations
          consulted := trace.consulted
          decisive := trace.decisive
          denialReason
          trace
          binding := context.binding
          factResolution := evidence
          tenant := context.tenant
          principal := context.principal
          subjects := context.subjects
          locale := context.locale
          schemaVersion := auditEntrySchemaVersion
          decisionAuditId := occurrence.decisionAuditId
          occurredAt := occurrence.occurredAt } := by
  unfold fromDecision
  simp only [Result.bind_eq_ok, Result.mapError_eq_ok, new_eq_ok]
  constructor
  · rintro ⟨trace, htrace, reason, hreason, hvalid, he⟩
    exact ⟨trace, reason, htrace, hreason, hvalid, he.symm⟩
  · rintro ⟨trace, reason, htrace, hreason, hvalid, he⟩
    exact ⟨trace, htrace, reason, hreason, hvalid, he.symm⟩

/-- The clause of an entry is the serialized clause of the decision it was derived from. -/
theorem denied_fromDecision {O : Type} [Serialize O] {occurrence : DecisionAuditOccurrence}
    {anchor : PolicyAnchor} {decision : Decision O} {context : Context}
    {evidence : FactResolutionEvidence} {e : AuditEntry}
    (h : fromDecision occurrence anchor decision context evidence = .ok e) (value : TraceValue) :
    e.decisive.denied = some value ↔
      ∃ o, decision.trace.decisive.denied = some o ∧ Serialize.toValue o = .ok value := by
  obtain ⟨trace, _, htrace, -, -, he⟩ := fromDecision_eq_ok.mp h
  rw [he]
  exact Decision.denied_toTrace htrace value

end AuditEntry

namespace Sample

def anchor : PolicyAnchor := .new ⟨"documents.read", by decide⟩ ⟨"00", by decide⟩

end Sample

end Gatekeep
