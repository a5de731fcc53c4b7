import Gatekeep.Prepared
import Gatekeep.Support.Traced

/-!
# Gatekeep.Authorization

The authorization boundary, `authorization.rs` with its parts `batch.rs`, `resource.rs` and
`attempts.rs`: a context is checked, facts are resolved, a decision is evaluated and frozen with
its audit entry, the entry is recorded, and only then is the decision observed and returned.

Everything an authorizer does not compute itself, the resolver, the sinks, the observer, the clock
and the identity generator, acts on a world of an arbitrary type `σ`. No order of time is assumed.
A run returns the calls it made (`Call`), each with its answer.
-/

namespace Gatekeep

open Traced

/-! ## Errors -/

inductive ResolveError (R : Type) where
  | backend (error : R)
  | resolution (error : FactResolutionError)
  | missingFact (fact : FactId)
  | missingSubject (fact : FactId) (slot : SubjectSlot)
  | timeout
deriving DecidableEq

inductive AuthorizationError (R A : Type) where
  | context (error : ContextError)
  | policyHash (error : PostcardError)
  | resolve (error : ResolveError R)
  | factResolutionEvidence (error : FactResolutionEvidenceError)
  | auditEntry (error : AuditEntryError)
  | trace (error : TraceError)
  | occurrence (error : DecisionAuditOccurrenceError)
  | audit (occurrence : DecisionAuditOccurrence) (source : A)
deriving DecidableEq

/-- The two errors of building an entry, as errors of the boundary. -/
def AuthorizationError.ofConstruction {R A : Type} :
    AuditConstructionError → AuthorizationError R A
  | .trace error => .trace error
  | .entry error => .auditEntry error

/-! ## What is returned and recorded -/

def AuditEntry.occurrence (e : AuditEntry) : DecisionAuditOccurrence :=
  ⟨e.decisionAuditId, e.occurredAt⟩

/-- A completed authorization decision and its audit occurrence. -/
structure AuthorizationDecision (O : Type) where
  decision : Decision O
  auditOccurrence : DecisionAuditOccurrence

/-- An evaluated decision awaiting required persistence. -/
structure PendingDecision (O : Type) where
  decision : Decision O
  entry : AuditEntry

/-- Monomorphic observer payload for a decision. -/
structure DecisionSummary where
  anchor : PolicyAnchor
  effect : EffectKind
  obligations : List ObligationId
  consulted : Consulted
deriving DecidableEq

def AuditEntry.summary (e : AuditEntry) : DecisionSummary :=
  ⟨e.anchor, e.effect, e.obligations, e.consulted⟩

inductive AttemptFailure where
  | resolution
  | evidence
  | trace
deriving DecidableEq

inductive AttemptValidationError where
  | context (error : ContextError)
  | schema
  | tenant
  | occurrence (error : DecisionAuditOccurrenceError)
deriving DecidableEq

/-- The fields of an attempt. -/
structure AttemptRecord where
  schemaVersion : UInt16
  occurrence : DecisionAuditOccurrence
  anchor : PolicyAnchor
  tenant : TenantId
  binding : TenantBinding
  principal : SubjectRef
  subjects : Std.ExtTreeMap SubjectSlot SubjectRef
  requestId : Option RequestId
  failure : AttemptFailure

def AttemptRecord.validate (r : AttemptRecord) : Except AttemptValidationError Unit := do
  if r.schemaVersion ≠ 1 then .error .schema
  if r.tenant ≠ r.binding.tenant then .error .tenant
  r.occurrence.validate.mapError .occurrence

/-- Durable event for an attempt that produced no decision. -/
structure AuthorizationAttempt extends AttemptRecord where
  valid : toAttemptRecord.validate = .ok ()

def AuthorizationAttempt.ofRecord (r : AttemptRecord) :
    Except AttemptValidationError AuthorizationAttempt :=
  match h : r.validate with
  | .error e => .error e
  | .ok () => .ok ⟨r, h⟩

def AuthorizationAttempt.new (cx : Context) (anchor : PolicyAnchor) (failure : AttemptFailure)
    (occurrence : DecisionAuditOccurrence) (now : OffsetDateTime) :
    Except AttemptValidationError AuthorizationAttempt := do
  (cx.validateAt now).mapError .context
  ofRecord {
    schemaVersion := 1
    occurrence, anchor, failure
    tenant := cx.tenant
    binding := cx.binding
    principal := cx.principal
    subjects := cx.subjects
    requestId := cx.requestId }

/-! ## The outside -/

abbrev ResolveResult (R : Type) := Except (ResolveError R) (FactResolution KnownFacts)

/-- A call that leaves the authorizer, with its answer. -/
inductive Call (R A T : Type) where
  | now (time : OffsetDateTime)
  | generate (id : DecisionAuditId)
  | resolve (answer : ResolveResult R)
  | resolveBatch (answer : Except (ResolveError R) (List (ResolveResult R)))
  | record (entry : AuditEntry) (answer : Except A Unit)
  | observe (summary : DecisionSummary)
  | recordAttempt (entry : AuthorizationAttempt) (answer : Except T Unit)

structure FactResolver (σ R : Type) where
  resolveForDecision : List FactId → Context → σ → ResolveResult R × σ

structure BatchFactResolver (σ R : Type) extends FactResolver σ R where
  resolveBatch : List FactId → List Context → σ →
    Except (ResolveError R) (List (ResolveResult R)) × σ

/-- Application-owned operations and named checks for one resource type. -/
structure ResourcePolicy (σ R Action Principal Resource O : Type) where
  policy : Action → PreparedPolicy O
  resolve : Action → Principal → Resource → Context → σ → ResolveResult R × σ

/-- `DecisionAuditId::generate` and the hash of a fact set are outside as well. -/
structure Authorizer (σ Resolver A : Type) where
  resolver : Resolver
  auditSink : AuditEntry → σ → Except A Unit × σ
  observer : DecisionSummary → σ → σ
  clock : σ → OffsetDateTime × σ
  ids : σ → DecisionAuditId × σ
  digest : KnownFacts → Except PostcardError EvidenceDigest

namespace Authorizer

variable {σ Resolver R A T O : Type} (a : Authorizer σ Resolver A)

abbrev Run (σ R A T α : Type) := Act σ (Call R A T) (AuthorizationError R A) α

def nowUtc {ε : Type} : Act σ (Call R A T) ε OffsetDateTime := Act.call a.clock .now

def generate {ε : Type} : Act σ (Call R A T) ε DecisionAuditId := Act.call a.ids .generate

def record {ε : Type} (entry : AuditEntry) : Act σ (Call R A T) ε (Except A Unit) :=
  Act.call (a.auditSink entry) (.record entry)

def observe {ε : Type} (summary : DecisionSummary) : Act σ (Call R A T) ε Unit :=
  Act.call (fun w => ((), a.observer summary w)) fun _ => .observe summary

/-! ## From facts to a pending decision -/

/-- The checks of `assemble` at its clock reading. -/
def receive (required : Option (List FactId)) (cx : Context)
    (resolution : FactResolution KnownFacts) (receivedAt : OffsetDateTime) :
    Except (AuthorizationError R A) FactResolutionEvidence := do
  (cx.validateAt receivedAt).mapError .context
  (resolution.validateAt receivedAt).mapError fun e => .resolve (.resolution e)
  match (required.getD []).find? fun fact => (resolution.facts.observation fact).isNone with
  | some fact => .error (.resolve (.missingFact fact))
  | none =>
    (FactResolutionEvidence.fromResolution a.digest resolution).mapError .factResolutionEvidence

/-- The occurrence of the request, or a new one. -/
def occurrenceFor (cx : Context) : Run σ R A T DecisionAuditOccurrence :=
  match cx.decisionAuditOccurrence with
  | some value => pure value
  | none => do
    let id ← a.generate
    let now ← a.nowUtc
    Act.check .occurrence (DecisionAuditOccurrence.new id now)

section Assemble

variable [Lattice O] [DecidableEq O] [Serialize O]

def assemble (policy : Policy O) (anchor : PolicyAnchor) (required : Option (List FactId))
    (cx : Context) (resolution : FactResolution KnownFacts) :
    Run σ R A T (PendingDecision O) := do
  let receivedAt ← a.nowUtc
  let evidence ← Act.check id (a.receive required cx resolution receivedAt)
  let decision := evaluate policy resolution.facts
  let occurrence ← a.occurrenceFor cx
  let entry ← Act.check .ofConstruction
    (AuditEntry.fromDecision occurrence anchor decision cx evidence)
  return ⟨decision, entry⟩

def prepareResolution (policy : PreparedPolicy O) (cx : Context)
    (resolution : FactResolution KnownFacts) : Run σ R A T (PendingDecision O) :=
  a.assemble policy.policy policy.anchor (some policy.required) cx resolution

end Assemble

/-! ## Persistence -/

def persistPending (pending : PendingDecision O) :
    Act σ (Call R A T) A (AuthorizationDecision O) := do
  let answer ← a.record pending.entry
  Act.check id answer
  a.observe pending.entry.summary
  return ⟨pending.decision, pending.entry.occurrence⟩

def persist (pending : PendingDecision O) : Run σ R A T (AuthorizationDecision O) :=
  (a.persistPending pending).mapError (.audit pending.entry.occurrence)

section Entry

variable [Lattice O] [DecidableEq O] [Serialize O]

def finish (policy : Policy O) (anchor : PolicyAnchor) (required : Option (List FactId))
    (cx : Context) (resolution : FactResolution KnownFacts) :
    Run σ R A T (AuthorizationDecision O) := do
  let pending ← a.assemble policy anchor required cx resolution
  a.persist pending

end Entry

/-- The check of a context before anything is read for it. -/
def checkContext (cx : Context) : Run σ R A T Unit := do
  let now ← a.nowUtc
  Act.check .context (cx.validateAt now)

end Authorizer

/-! ## Entry points -/

namespace Authorizer

section Checked

variable {σ R A T O : Type} [Lattice O] [DecidableEq O] [Serialize O]
  (a : Authorizer σ (FactResolver σ R) A)

def resolve {ε : Type} (required : List FactId) (cx : Context) :
    Act σ (Call R A T) ε (ResolveResult R) :=
  Act.call (a.resolver.resolveForDecision required cx) .resolve

def run (policy : Policy O) (anchor : PolicyAnchor) (required : List FactId) (cx : Context)
    (checked : Bool) : Run σ R A T (AuthorizationDecision O) := do
  a.checkContext cx
  let resolution ← a.resolve required cx
  let resolution ← Act.check .resolve resolution
  a.finish policy anchor (if checked then some required else none) cx resolution

def authorize (policy : PreparedPolicy O) (cx : Context) :
    Run σ R A T (AuthorizationDecision O) :=
  a.run policy.policy policy.anchor policy.required cx true

def prepare (policy : PreparedPolicy O) (cx : Context) : Run σ R A T (PendingDecision O) := do
  a.checkContext cx
  let resolution ← a.resolve policy.required cx
  let resolution ← Act.check .resolve resolution
  a.assemble policy.policy policy.anchor (some policy.required) cx resolution

/-- The unprepared path; `hash` is the content hash of a policy. -/
def authorizePolicy (hash : Policy O → Except PostcardError PolicyHash) (id : PolicyId)
    (policy : Policy O) (cx : Context) : Run σ R A T (AuthorizationDecision O) := do
  a.checkContext cx
  let policyHash ← Act.check .policyHash (hash policy)
  a.run policy (PolicyAnchor.new id policyHash) (requiredList policy) cx false

end Checked

section Resource

variable {σ R A T O Action Principal Resource : Type} [Lattice O] [DecidableEq O] [Serialize O]
  (a : Authorizer σ (ResourcePolicy σ R Action Principal Resource O) A)

def authorizeResource (action : Action) (principal : Principal) (resource : Resource)
    (cx : Context) : Run σ R A T (AuthorizationDecision O) := do
  a.checkContext cx
  let policy := a.resolver.policy action
  let resolution ← Act.call (a.resolver.resolve action principal resource cx) .resolve
  let resolution ← Act.check .resolve resolution
  a.finish policy.policy policy.anchor (some policy.required) cx resolution

end Resource

end Authorizer

/-! ## Batches -/

inductive BatchError (R : Type) where
  | limit
  | context (index : Nat) (source : ContextError)
  | resolve (error : ResolveError R)
  | cardinality (expected actual : Nat)
deriving DecidableEq

namespace Authorizer

section Batch

variable {σ R A T O : Type} [Lattice O] [DecidableEq O] [Serialize O]
  (a : Authorizer σ (BatchFactResolver σ R) A)

/-- The loop that checks every context before anything is loaded. -/
def checkContexts : List Context → Nat → Act σ (Call R A T) (BatchError R) Unit
  | [], _ => pure ()
  | cx :: cxs, index => do
    let now ← a.nowUtc
    Act.check (.context index) (cx.validateAt now)
    checkContexts cxs (index + 1)

/-- One item of a loaded batch. -/
def finishItem (policy : PreparedPolicy O) (cx : Context) (resolution : ResolveResult R) :
    Run σ R A T (AuthorizationDecision O) := do
  let resolution ← Act.check .resolve resolution
  a.finish policy.policy policy.anchor (some policy.required) cx resolution

/-- The loop over the items; a failure is kept and the loop goes on. -/
def finishItems (policy : PreparedPolicy O) : List (Context × ResolveResult R) →
    Act σ (Call R A T) (BatchError R)
      (List (Except (AuthorizationError R A) (AuthorizationDecision O)))
  | [] => pure []
  | (cx, resolution) :: items => do
    let result ← (a.finishItem policy cx resolution).caught
    let results ← finishItems policy items
    return result :: results

def authorizeBatch (policy : PreparedPolicy O) (contexts : List Context) (limit : Nat) :
    Act σ (Call R A T) (BatchError R)
      (List (Except (AuthorizationError R A) (AuthorizationDecision O))) := do
  if contexts.length > limit then throw .limit
  if contexts.isEmpty then return []
  a.checkContexts contexts 0
  let resolutions ← Act.call (a.resolver.resolveBatch policy.required contexts) .resolveBatch
  let resolutions ← Act.check .resolve resolutions
  if resolutions.length ≠ contexts.length then
    throw (.cardinality contexts.length resolutions.length)
  a.finishItems policy (contexts.zip resolutions)

end Batch

end Authorizer

/-! ## Failed attempts -/

inductive AttemptAuthorizationError (R A T : Type) where
  | authorization (error : AuthorizationError R A)
  | unscoped (authorization : AuthorizationError R A) (scope : AttemptValidationError)
  | persistence (authorization : AuthorizationError R A) (entry : AuthorizationAttempt) (source : T)

/-- The category under which a failure is recorded as an attempt, if it is. -/
def AuthorizationError.attemptFailure {R A : Type} : AuthorizationError R A → Option AttemptFailure
  | .audit .. | .occurrence _ => none
  | .resolve _ => some .resolution
  | .trace _ => some .trace
  | .context _ | .policyHash _ | .factResolutionEvidence _ | .auditEntry _ => some .evidence

namespace Authorizer

section Attempts

variable {σ R A T O : Type} [Lattice O] [DecidableEq O] [Serialize O]
  (a : Authorizer σ (FactResolver σ R) A)

/-- The attempt of a failed authorization. -/
def newAttempt (anchor : PolicyAnchor) (cx : Context) (failure : AttemptFailure)
    (id : DecisionAuditId) (now : OffsetDateTime) :
    Except AttemptValidationError AuthorizationAttempt := do
  let occurrence ← (DecisionAuditOccurrence.new id now).mapError .occurrence
  AuthorizationAttempt.new cx anchor failure occurrence now

def authorizeRecordingAttempts (policy : PreparedPolicy O) (cx : Context)
    (attempts : AuthorizationAttempt → σ → Except T Unit × σ) :
    Act σ (Call R A T) (AttemptAuthorizationError R A T) (AuthorizationDecision O) := do
  match ← (a.authorize policy cx).caught with
  | .ok decision => return decision
  | .error authorization =>
    match authorization.attemptFailure with
    | none => throw (.authorization authorization)
    | some failure =>
      let now ← a.nowUtc
      let id ← a.generate
      match newAttempt policy.anchor cx failure id now with
      | .error scope => throw (.unscoped authorization scope)
      | .ok entry =>
        match ← Act.call (attempts entry) (.recordAttempt entry) with
        | .ok () => throw (.authorization authorization)
        | .error source => throw (.persistence authorization entry source)

end Attempts

end Authorizer

namespace Sample

/-- No facts, observed at `t`. -/
def nothingKnown (t : OffsetDateTime) : FactResolution KnownFacts where
  facts := KnownFacts.new
  metadata := none
  observedAt := t
  observations := []
  window := rfl
  canonical := FactObservation.canonical_nil

def everyone : PreparedPolicy Unit := ⟨.permit (), anchor, requiredList (.permit ()), rfl⟩

def generatedId : DecisionAuditId := ⟨"0190c2f0-5b7e-7c3a-9d41-6f2b8e0a1c55", by decide⟩

end Sample

end Gatekeep
