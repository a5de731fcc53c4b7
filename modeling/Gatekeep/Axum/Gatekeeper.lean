import Gatekeep.Authorization.Attempts
import Gatekeep.Axum.Response
import Gatekeep.Coherence

/-!
# Gatekeep.Axum.Gatekeeper

The authorization boundary of an HTTP handler, `authorizer.rs` of `gatekeep-axum`: the authorizer
decides and records, and `present` turns its answer into an outcome or a rejection.

A handler learns nothing that the record does not say. `response_of_record` reads the response off
the one record a run made: none for a permit, the presentation of its entry for a denial, and the
one body of all errors when nothing was recorded. `concealed_responses_eq` compares two runs: what
is not presented as forbidden looks the same whatever was asked of whom.
-/

namespace Gatekeep

open Traced

/-- Successful authorization result returned to handlers. -/
structure Authorized (O : Type) where
  outcome : O
  decision : Decision O
  auditOccurrence : DecisionAuditOccurrence

/-- Axum-friendly authorization boundary. -/
structure Gatekeeper (σ Resolver A : Type) where
  authorizer : Authorizer σ Resolver A
  reasonCatalog : ReasonCatalog
  denialResponse : DenialResponseConfig

def Decision.denialShape {O : Type} (d : Decision O) : DenyShape :=
  match d.trace.decisive with
  | .deny _ _ _ _ shape => shape
  | .permit .. => .forbidden

namespace Gatekeeper

/-- A gatekeeper with identity reason rendering and the default messages. -/
def new {σ Resolver A : Type} (authorizer : Authorizer σ Resolver A) : Gatekeeper σ Resolver A :=
  ⟨authorizer, identityReasonCatalog, .default⟩

section Present

variable {σ Resolver R A O : Type} [Serialize O] (g : Gatekeeper σ Resolver A)

def present (result : AuthorizationDecision O) (cx : Context) :
    Except (GatekeepRejection R A) (Authorized O) :=
  match result.decision.effect with
  | .permit outcome => .ok ⟨outcome, result.decision, result.auditOccurrence⟩
  | .deny => do
    let reason ← result.decision.denialReason.mapError fun e => .error (.trace e)
    .error (.denied
      (g.denialResponse.denied result.decision.denialShape reason cx.locale g.reasonCatalog))

end Present

/-! ## Entry points -/

abbrev Run (σ R A T α : Type) := Act σ (Call R A T) (GatekeepRejection R A) α

variable {σ Resolver R A T O Action Principal Resource : Type}

section EntryPoints

variable [Serialize O]

/-- An authorization whose answer is presented to the handler. -/
def presented (g : Gatekeeper σ Resolver A) (cx : Context)
    (authorize : Authorizer.Run σ R A T (AuthorizationDecision O)) :
    Run σ R A T (Authorized O) := do
  let result ← authorize.mapError .error
  Act.check id (g.present result cx)

variable [Lattice O] [DecidableEq O]

def authorize (g : Gatekeeper σ (FactResolver σ R) A)
    (hash : Policy O → Except PostcardError PolicyHash) (policyId : PolicyId) (policy : Policy O)
    (cx : Context) : Run σ R A T (Authorized O) :=
  g.presented cx (g.authorizer.authorizePolicy hash policyId policy cx)

def authorizePrepared (g : Gatekeeper σ (FactResolver σ R) A) (policy : PreparedPolicy O)
    (cx : Context) : Run σ R A T (Authorized O) :=
  g.presented cx (g.authorizer.authorize policy cx)

def authorizeResource (g : Gatekeeper σ (ResourcePolicy σ R Action Principal Resource O) A)
    (action : Action) (principal : Principal) (resource : Resource) (cx : Context) :
    Run σ R A T (Authorized O) :=
  g.presented cx (g.authorizer.authorizeResource action principal resource cx)

/-- The run of an entry point from some world. -/
inductive Serves : {Resolver : Type} → Gatekeeper σ Resolver A → Context →
    Ran σ (Call R A T) (Except (GatekeepRejection R A) (Authorized O)) → Prop where
  | authorize (g : Gatekeeper σ (FactResolver σ R) A)
      (hash : Policy O → Except PostcardError PolicyHash) (policyId : PolicyId) (policy : Policy O)
      (cx : Context) (w : σ) : Serves g cx (g.authorize hash policyId policy cx w)
  | prepared (g : Gatekeeper σ (FactResolver σ R) A) (policy : PreparedPolicy O) (cx : Context)
      (w : σ) : Serves g cx (g.authorizePrepared policy cx w)
  | resource {Action Principal Resource : Type}
      (g : Gatekeeper σ (ResourcePolicy σ R Action Principal Resource O) A) (action : Action)
      (principal : Principal) (resource : Resource) (cx : Context) (w : σ) :
      Serves g cx (g.authorizeResource action principal resource cx w)

end EntryPoints

end Gatekeeper

/-! ## Decisions and their entries -/

/-- The shape in which a denial is presented. -/
def AuditEntry.denialShape (entry : AuditEntry) : DenyShape :=
  match entry.decisive with
  | .deny _ _ _ _ shape => shape
  | .permit .. => .forbidden

/-- The reason of an entry is the one its clause calls for. -/
theorem AuditEntry.denialReason_eq (entry : AuditEntry) :
    entry.denialReason = clauseReason entry.decisive := by
  obtain ⟨-, -, -, -, -, hsemantics⟩ := AuditRecord.validateCurrent_eq_ok.mp entry.valid
  unfold AuditRecord.validateSemantics validateAuditSemantics at hsemantics
  split at hsemantics
  · cases hsemantics
  split at hsemantics
  · cases hsemantics
  split at hsemantics
  · rename_i hclause
    split at hsemantics
    · cases hsemantics
    · rename_i hnone
      rw [hclause, clauseReason]
      simpa using hnone
  · split at hsemantics
    · cases hsemantics
    · split at hsemantics
      · cases hsemantics
      · rename_i hmatches
        rw [← denialReasonMatchesTrace_eq_true]
        simpa using hmatches
  · cases hsemantics
  · cases hsemantics

namespace AuditEntry.Describes

variable {O : Type} [Serialize O] {entry : AuditEntry} {d : AuthorizationDecision O}
  {anchor : Except PostcardError PolicyAnchor} {cx : Context}

/-- The clause of a denied decision is a deny clause: its entry passed the check. -/
theorem deny_clause (h : entry.Describes d anchor cx) (hdeny : d.decision.effect = .deny) :
    ∃ denied unsatisfied label reason shape,
      d.decision.trace.decisive = .deny denied unsatisfied label reason shape := by
  cases hc : d.decision.trace.decisive with
  | deny denied unsatisfied label reason shape =>
    exact ⟨denied, unsatisfied, label, reason, shape, rfl⟩
  | permit granted satisfied label =>
    have hclause := h.decisive
    have heffect := h.effect
    rw [Decision.effectKind, hdeny] at heffect
    rw [hc] at hclause
    obtain ⟨value, -, hvalue⟩ := Result.map_eq_ok.mp hclause
    obtain ⟨-, -, -, -, -, hsemantics⟩ := AuditRecord.validateCurrent_eq_ok.mp h.current
    unfold AuditRecord.validateSemantics validateAuditSemantics at hsemantics
    rw [heffect, ← hvalue] at hsemantics
    split at hsemantics
    · cases hsemantics
    · split at hsemantics <;> cases hsemantics

theorem denialShape (h : entry.Describes d anchor cx) :
    d.decision.denialShape = entry.denialShape := by
  have hclause := h.decisive
  unfold Decision.denialShape AuditEntry.denialShape
  cases hc : d.decision.trace.decisive with
  | permit granted satisfied label =>
    rw [hc] at hclause
    obtain ⟨value, -, hvalue⟩ := Result.map_eq_ok.mp hclause
    rw [← hvalue]
  | deny denied unsatisfied label reason shape =>
    rw [hc] at hclause
    cases denied with
    | none =>
      rw [← Except.ok.inj hclause]
    | some outcome =>
      obtain ⟨value, -, hvalue⟩ := Result.map_eq_ok.mp hclause
      rw [← hvalue]

/-- A recorded denial has a reason, the one of its entry. -/
theorem denialReason (h : entry.Describes d anchor cx) (hdeny : d.decision.effect = .deny) :
    d.decision.denialReason = .ok entry.denialReason := by
  obtain ⟨denied, unsatisfied, label, reason, shape, hc⟩ := h.deny_clause hdeny
  rw [Decision.denialReason_eq hdeny hc h.decisive, entry.denialReason_eq]

end AuditEntry.Describes

/-! ## The answer and the record -/

namespace Gatekeeper

variable {σ Resolver R A T O : Type}

/-- The response that a recorded denial calls for. -/
def denial (g : Gatekeeper σ Resolver A) (entry : AuditEntry) (locale : Locale) : DenialResponse :=
  g.denialResponse.denied entry.denialShape entry.denialReason locale g.reasonCatalog

section Recorded

variable [Serialize O] (g : Gatekeeper σ Resolver A) {entry : AuditEntry}
  {d : AuthorizationDecision O} {anchor : Except PostcardError PolicyAnchor} {cx : Context}

theorem present_permit {o : O} (h : d.decision.effect = .permit o) :
    (g.present d cx : Except (GatekeepRejection R A) _) =
      .ok ⟨o, d.decision, d.auditOccurrence⟩ := by
  rw [present, h]

theorem present_deny (h : entry.Describes d anchor cx) (hdeny : d.decision.effect = .deny) :
    (g.present d cx : Except (GatekeepRejection R A) (Authorized O)) =
      .error (.denied (g.denial entry cx.locale)) := by
  rw [present, hdeny, denial, ← h.denialShape, h.denialReason hdeny]
  rfl

end Recorded

variable (g : Gatekeeper σ Resolver A)

/-- A run ends in an error and leaves no record behind, or in the answer of the one entry that was
recorded. -/
def Answers (cx : Context)
    (result : Except (GatekeepRejection R A) (Authorized O))
    (records : List (AuditEntry × Except A Unit)) : Prop :=
  (∃ e, result = .error (.error e) ∧ ∀ entry, records ≠ [(entry, .ok ())]) ∨
    ∃ entry, records = [(entry, .ok ())] ∧
      ((∃ authorized, result = .ok authorized ∧ entry.effect = .permit ∧
          authorized.decision.effect = .permit authorized.outcome) ∨
        entry.effect = .deny ∧ result = .error (.denied (g.denial entry cx.locale)))

theorem effectKind_permit {d : Decision O} {o : O} (h : d.effect = .permit o) :
    d.effectKind = .permit := by
  rw [Decision.effectKind, h]

theorem effectKind_deny {d : Decision O} (h : d.effect = .deny) : d.effectKind = .deny := by
  rw [Decision.effectKind, h]

variable [Serialize O]

/-- Presenting an answer calls nothing. -/
theorem presented_apply (cx : Context)
    (authorize : Authorizer.Run σ R A T (AuthorizationDecision O)) (w : σ) :
    g.presented cx authorize w =
      ⟨(authorize w).result.mapError .error >>= fun result => g.present result cx,
        (authorize w).calls, (authorize w).world⟩ := by
  have hstep : (authorize.mapError GatekeepRejection.error : Run σ R A T _) w =
      ⟨(authorize w).result.mapError .error, (authorize w).calls, (authorize w).world⟩ := rfl
  unfold presented
  cases hresult : (authorize w).result with
  | error e =>
    rw [hresult] at hstep
    rw [Act.bind_of_error hstep]
    rfl
  | ok d =>
    rw [hresult] at hstep
    rw [Act.bind_of_ok hstep]
    cases hpresent : (g.present d cx : Except (GatekeepRejection R A) (Authorized O)) <;>
      simp [Act.check, Ran.after, Except.mapError, hpresent]

theorem answers_presented {anchor : Except PostcardError PolicyAnchor} {cx : Context}
    {authorize : Authorizer.Run σ R A T (AuthorizationDecision O)} {w : σ}
    (h : Boundary anchor cx (authorize w).result (authorize w).calls) :
    g.Answers cx (g.presented cx authorize w).result
      (decisionRecords (g.presented cx authorize w).calls) := by
  rw [presented_apply, ← decisionRecords_effects]
  cases hresult : (authorize w).result with
  | error e =>
    rw [hresult] at h
    refine .inl ⟨e, rfl, fun entry hentry => ?_⟩
    obtain ⟨hcalls, -⟩ | ⟨entry', source, hcalls, -⟩ := h <;> rw [hcalls] at hentry <;>
      simp [decisionRecords] at hentry
  | ok d =>
    rw [hresult] at h
    obtain ⟨entry, hcalls, hentry⟩ := h
    refine .inr ⟨entry, by rw [hcalls]; rfl, ?_⟩
    simp only [Except.mapError, Result.ok_bind]
    cases heffect : d.decision.effect with
    | permit o =>
      rw [g.present_permit heffect]
      exact .inl ⟨_, rfl, hentry.effect.trans (effectKind_permit heffect), heffect⟩
    | deny =>
      rw [g.present_deny hentry heffect]
      exact .inr ⟨hentry.effect.trans (effectKind_deny heffect), rfl⟩

end Gatekeeper

section Served

variable {σ Resolver R A T O : Type} {g : Gatekeeper σ Resolver A} {cx : Context}
  {ran : Ran σ (Call R A T) (Except (GatekeepRejection R A) (Authorized O))}

namespace Gatekeeper

theorem answers_of_serves [Serialize O] [Lattice O] [DecidableEq O] (h : Serves g cx ran) :
    g.Answers cx ran.result (decisionRecords ran.calls) := by
  cases h with
  | authorize g hash policyId policy cx w =>
    exact g.answers_presented (g.authorizer.boundary_authorizePolicy hash policyId policy cx w)
  | prepared g policy cx w =>
    exact g.answers_presented (g.authorizer.boundary_run policy.policy policy.anchor _ cx true w)
  | resource g action principal resource cx w =>
    exact g.answers_presented (g.authorizer.boundary_guarded cx
      (g.authorizer.resolver.resolve action principal resource cx) _ _ _ w)

/-- What the client of a handler is sent, if the handler does not go on. -/
def respond : Except (GatekeepRejection R A) (Authorized O) → Option Response
  | .ok _ => none
  | .error rejection => some rejection.intoResponse

/-- The response that the records of a run call for. -/
def recordedResponse (g : Gatekeeper σ Resolver A) (locale : Locale) :
    List (AuditEntry × Except A Unit) → Option Response
  | [(entry, .ok ())] =>
    match entry.effect with
    | .permit => none
    | .deny => some (g.denial entry locale).intoResponse
  | _ => some errorResponse

theorem recordedResponse_of_unrecorded {records : List (AuditEntry × Except A Unit)}
    (h : ∀ entry, records ≠ [(entry, .ok ())]) (locale : Locale) :
    g.recordedResponse locale records = some errorResponse := by
  unfold recordedResponse
  split
  · rename_i entry
    exact absurd rfl (h entry)
  · rfl

/-- The response of every run is the one its durable record calls for: none exactly when a permit
was recorded, the presentation of the recorded entry when that is a denial, and the one error
response when no record succeeded. -/
theorem response_of_record [Serialize O] [Lattice O] [DecidableEq O] (h : Serves g cx ran) :
    respond ran.result = g.recordedResponse cx.locale (decisionRecords ran.calls) ∧
      ∀ authorized, ran.result = .ok authorized → ∃ entry,
        decisionRecords ran.calls = [(entry, .ok ())] ∧ entry.effect = .permit ∧
          authorized.decision.effect = .permit authorized.outcome := by
  obtain ⟨e, hresult, hnone⟩ | ⟨entry, hrecords, ⟨authorized, hresult, hpermit, heffect⟩ |
    ⟨hdeny, hresult⟩⟩ := answers_of_serves h
  · rw [hresult, recordedResponse_of_unrecorded hnone]
    exact ⟨rfl, fun _ h => (nomatch h)⟩
  · rw [hresult, hrecords]
    refine ⟨?_, fun authorized' h => ?_⟩
    · simp only [respond, recordedResponse, hpermit]
    · cases h
      exact ⟨entry, rfl, hpermit, heffect⟩
  · rw [hresult, hrecords]
    refine ⟨?_, fun _ h => (nomatch h)⟩
    simp only [respond, recordedResponse, hdeny]
    rfl

/-! ## What a rejection discloses -/

/-- The three responses of a rejected run: of a forbidden denial, of any hidden one, of any
error. -/
theorem intoResponse_cases [Serialize O] [Lattice O] [DecidableEq O]
    {rejection : GatekeepRejection R A} (h : Serves g cx ran)
    (hran : ran.result = .error rejection) :
    rejection.intoResponse.status = .forbidden ∨
      rejection.intoResponse = (g.denialResponse.hidden cx.locale g.reasonCatalog).intoResponse ∨
      rejection.intoResponse = errorResponse := by
  obtain ⟨e, hresult, -⟩ | ⟨entry, -, ⟨authorized, hresult, -⟩ | ⟨-, hresult⟩⟩ :=
    answers_of_serves h
  · cases hran.symm.trans hresult
    exact .inr (.inr rfl)
  · cases hran.symm.trans hresult
  · cases hran.symm.trans hresult
    rw [GatekeepRejection.intoResponse, denial]
    cases entry.denialShape with
    | forbidden => exact .inl rfl
    | hidden => exact .inr (.inl rfl)

end Gatekeeper

variable {σ' Resolver' R' A' T' O' : Type} {g' : Gatekeeper σ' Resolver' A'} {cx' : Context}
  {ran' : Ran σ' (Call R' A' T') (Except (GatekeepRejection R' A') (Authorized O'))}

/-- A rejection that is not presented as forbidden discloses nothing but its status. Two such
rejections of one status are the same response, whatever the policies, principals, resources, facts
and failures behind them, as long as both are presented in one locale by one configuration. -/
theorem Gatekeeper.concealed_responses_eq [Serialize O] [Lattice O] [DecidableEq O]
    [Serialize O'] [Lattice O'] [DecidableEq O'] {rejection : GatekeepRejection R A}
    {rejection' : GatekeepRejection R' A'} (h : Serves g cx ran) (h' : Serves g' cx' ran')
    (hconfig : g.denialResponse = g'.denialResponse) (hcatalog : g.reasonCatalog = g'.reasonCatalog)
    (hlocale : cx.locale = cx'.locale) (hran : ran.result = .error rejection)
    (hran' : ran'.result = .error rejection')
    (hstatus : rejection.intoResponse.status = rejection'.intoResponse.status)
    (hconcealed : rejection.intoResponse.status ≠ .forbidden) :
    rejection.intoResponse = rejection'.intoResponse := by
  have hconcealed' := hstatus ▸ hconcealed
  obtain hr | hr := (intoResponse_cases h hran).resolve_left hconcealed <;>
    obtain hr' | hr' := (intoResponse_cases h' hran').resolve_left hconcealed' <;>
    rw [hr, hr'] at hstatus ⊢
  · rw [hconfig, hcatalog, hlocale]
  · exact absurd hstatus.symm StatusCode.internalServerError_ne_notFound
  · exact absurd hstatus StatusCode.internalServerError_ne_notFound

end Served

namespace Sample

/-- Every part answers at noon, and nothing is known. -/
def frontDesk : Gatekeeper Unit (FactResolver Unit Unit) Unit := .new {
  resolver := ⟨fun _ _ w => (.ok (nothingKnown noon), w)⟩
  auditSink := fun _ w => (.ok (), w)
  observer := fun _ w => w
  clock := fun w => (noon, w)
  ids := fun w => (generatedId, w)
  digest := fun _ => .ok ⟨Vector.replicate 32 0⟩ }

/-- A grant to those with a fact, hidden from everyone else. -/
def hiddenIf (fact : FactId) (reason : ReasonCode) : Policy Unit :=
  .grant ⟨(), .has fact, none, .hidden, [], some reason⟩

def answered (fact : FactId) (reason : ReasonCode) :
    Ran Unit (Call Unit Unit Unit) (Except (GatekeepRejection Unit Unit) (Authorized Unit)) :=
  frontDesk.authorize (fun _ => .ok anchor.policyHash) anchor.policyId (hiddenIf fact reason)
    request ()

theorem serves_answered (fact : FactId) (reason : ReasonCode) :
    Gatekeeper.Serves frontDesk request (answered fact reason) :=
  .authorize frontDesk _ _ _ request ()

def genericNotFound : DenialResponse := ⟨.notFound, .notFound, "not found", none⟩

theorem answered_owner :
    (answered owner ⟨"not_owner", by decide⟩).result = .error (.denied genericNotFound) :=
  Result.failure_eq_some.mp (by decide +kernel)

theorem answered_member :
    (answered member ⟨"left", by decide⟩).result = .error (.denied genericNotFound) :=
  Result.failure_eq_some.mp (by decide +kernel)

end Sample

open Sample in
theorem Gatekeeper.response_of_record_owner :
    frontDesk.recordedResponse request.locale
        (decisionRecords (answered owner ⟨"not_owner", by decide⟩).calls) =
      some genericNotFound.intoResponse := by
  rw [← (response_of_record (serves_answered owner _)).1, answered_owner]
  rfl

open Sample in
theorem Gatekeeper.concealed_owner_member :
    ∃ rejection rejection', (answered owner ⟨"not_owner", by decide⟩).result = .error rejection ∧
      (answered member ⟨"left", by decide⟩).result = .error rejection' ∧
      rejection.intoResponse.status = .notFound ∧
      rejection.intoResponse = rejection'.intoResponse :=
  ⟨.denied genericNotFound, .denied genericNotFound, answered_owner, answered_member, rfl,
    concealed_responses_eq (serves_answered owner _) (serves_answered member _) rfl rfl rfl
      answered_owner answered_member rfl (by decide)⟩

end Gatekeep
