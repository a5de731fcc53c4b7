import Gatekeep.Sql.AuditTrail

/-!
# Gatekeep.Sql.AttemptTrail

An authorizer that records failed attempts, over a Dovecote database that keeps both its decisions
and its attempts: no request is left without an event but those that say so in their error.

`recording_stored` follows one request, `attempt_trail` any sequence of them.
-/

namespace Gatekeep

open Traced Journal

variable {σ X ε δ ν R O : Type}

namespace Authorizer

theorem failure_of_newAttempt {anchor : PolicyAnchor} {cx : Context} {failure : AttemptFailure}
    {id : DecisionAuditId} {now : OffsetDateTime} {entry : AuthorizationAttempt}
    (h : newAttempt anchor cx failure id now = .ok entry) : entry.failure = failure := by
  unfold newAttempt at h
  obtain ⟨occurrence, -, hnew⟩ := Result.bind_eq_ok.mp h
  unfold AuthorizationAttempt.new at hnew
  obtain ⟨-, hrecord⟩ := Result.check_eq_ok.mp hnew
  unfold AuthorizationAttempt.ofRecord at hrecord
  split at hrecord <;> cases hrecord
  rfl

section Recording

variable {A T : Type} [Lattice O] [DecidableEq O] [Serialize O]
  (a : Authorizer σ (FactResolver σ R) A) {policy : PreparedPolicy O} {cx : Context}
  (attempts : AuthorizationAttempt → σ → Except T Unit × σ) {w w₁ : σ}
  {calls : List (Call R A T)}

theorem recording_of_ok {d : AuthorizationDecision O}
    (h : a.authorize policy cx w = ⟨.ok d, calls, w₁⟩) :
    let ran := a.authorizeRecordingAttempts policy cx attempts w
    ran.result = .ok d ∧ ran.world = w₁ := by
  have hcaught : ((a.authorize policy cx : Run σ R A T _).caught :
      Act σ (Call R A T) (AttemptAuthorizationError R A T) _) w = ⟨.ok (.ok d), calls, w₁⟩ := by
    rw [Act.caught, h]
  unfold authorizeRecordingAttempts
  rw [Act.bind_of_ok hcaught]
  exact ⟨rfl, rfl⟩

/-- A failure that is to be recorded: where it is recorded, and what becomes of it. -/
theorem recording_of_error {e : AuthorizationError R A}
    (h : a.authorize policy cx w = ⟨.error e, calls, w₁⟩) :
    let ran := a.authorizeRecordingAttempts policy cx attempts w
    let w₂ := (a.ids (a.clock w₁).2).2
    (ran.result = .error (.authorization e) ∧ e.attemptFailure = none ∧ ran.world = w₁) ∨
      (∃ failure scope, e.attemptFailure = some failure ∧
        ran.result = .error (.unscoped e scope) ∧ ran.world = w₂) ∨
      ∃ entry : AuthorizationAttempt, entry.Describes policy.anchor cx ∧
        e.attemptFailure = some entry.failure ∧ ran.world = (attempts entry w₂).2 ∧
        ((attempts entry w₂).1 = .ok () ∧ ran.result = .error (.authorization e) ∨
          ∃ source, (attempts entry w₂).1 = .error source ∧
            ran.result = .error (.persistence e entry source)) := by
  have hcaught : ((a.authorize policy cx : Run σ R A T _).caught :
      Act σ (Call R A T) (AttemptAuthorizationError R A T) _) w = ⟨.ok (.error e), calls, w₁⟩ := by
    rw [Act.caught, h]
  unfold authorizeRecordingAttempts
  rw [Act.bind_of_ok hcaught]
  dsimp only
  cases hfailure : e.attemptFailure with
  | none => exact .inl ⟨rfl, rfl, rfl⟩
  | some failure =>
    simp only [nowUtc, generate, Act.bind_call]
    cases hentry : newAttempt policy.anchor cx failure (a.ids (a.clock w₁).2).1 (a.clock w₁).1 with
    | error scope => exact .inr (.inl ⟨failure, scope, rfl, rfl, rfl⟩)
    | ok entry =>
      dsimp only
      rw [Act.bind_call]
      refine .inr (.inr ⟨entry, describes_of_newAttempt hentry, ?_, ?_⟩)
      · rw [failure_of_newAttempt hentry]
      cases hanswer : (attempts entry (a.ids (a.clock w₁).2).2).1 with
      | ok _ => exact ⟨rfl, .inl ⟨rfl, rfl⟩⟩
      | error source => exact ⟨rfl, .inr ⟨source, rfl, rfl⟩⟩

end Recording

end Authorizer

namespace AttemptTrail

/-- A checked authorization that is asked to record its failure. -/
abbrev Request (O : Type) := PreparedPolicy O × Context

abbrev Answer (R ε δ ν O : Type) :=
  Except (AttemptAuthorizationError R (DovecoteAuditError ε δ ν) (DovecoteAuditError ε δ ν))
    (AuthorizationDecision O)

variable [Lattice O] [DecidableEq O] [Serialize O]
  (a : Authorizer σ (FactResolver σ R) (DovecoteAuditError ε δ ν)) (sink : DovecoteAudit σ X ε δ ν)

/-- The authorization, with the sink of the decisions for its attempts as well. -/
def serve (request : Request O) (w : σ) : Answer R ε δ ν O × σ :=
  let ran := a.authorizeRecordingAttempts request.1 request.2 sink.recordAttempt w
  (ran.result, ran.world)

/-- Why an event may be stored: the decision was returned, the failure was recorded, or a commit
was reported as failed. -/
def Evidence (request : Request O) (_ : σ) (answer : Answer R ε δ ν O) (p : PagedEvent) : Prop :=
  match answer with
  | .ok d => ∃ entry, sink.eventOf (.decision entry) = .ok p ∧
      entry.Describes d (.ok request.1.anchor) request.2
  | .error (.authorization e) =>
    (∃ entry : AuthorizationAttempt, sink.eventOf (.attempt entry) = .ok p ∧
      entry.Describes request.1.anchor request.2 ∧ e.attemptFailure = some entry.failure) ∨
    ∃ entry source, e = .audit entry.occurrence (.sqlx source) ∧
      sink.eventOf (.decision entry) = .ok p
  | .error (.persistence _ entry source) =>
    sink.eventOf (.attempt entry) = .ok p ∧ ∃ lost, source = .sqlx lost
  | .error (.unscoped ..) => False

/-- The answer promises an event. -/
def Promised : Answer R ε δ ν O → Prop
  | .ok _ => True
  | .error (.authorization e) => e.attemptFailure.isSome
  | .error _ => False

section Lawful

variable {stored : σ → List PagedEvent} {written : X → List PagedEvent} {a sink}
  (h : a.RecordsTo sink stored) (hdb : sink.database.Lawful stored written)
include h hdb

omit h in
/-- The record of an attempt. -/
theorem attempt_stored (entry : AuthorizationAttempt) (w : σ) :
    (∃ source, (sink.recordAttempt entry w).1 = .error source ∧
        stored (sink.recordAttempt entry w).2 = stored w) ∨
      ∃ p, sink.eventOf (.attempt entry) = .ok p ∧
        Grows PagedEvent.identity (· = p) (stored w) (stored (sink.recordAttempt entry w).2) ∧
        ((sink.recordAttempt entry w).1 = .ok () ∧ p ∈ stored (sink.recordAttempt entry w).2 ∨
          ∃ lost, (sink.recordAttempt entry w).1 = .error (.sqlx lost)) := by
  have hrecord : sink.recordAttempt entry w = ((sink.recordItem (.attempt entry) w).1.map fun _ => (),
    (sink.recordItem (.attempt entry) w).2) := rfl
  rw [hrecord]
  obtain ⟨e, herror, hstored⟩ | ⟨p, hp, hrecorded⟩ := DovecoteAudit.recordItem_cases hdb
    (.attempt entry) w
  · rw [herror]
    exact .inl ⟨e, rfl, hstored⟩
  · generalize (sink.recordItem (.attempt entry) w).1 = answer at *
    generalize stored (sink.recordItem (.attempt entry) w).2 = l' at *
    cases hrecorded with
    | failed e => exact .inl ⟨e, rfl, rfl⟩
    | found hmem => exact .inr ⟨p, hp, .refl _, .inl ⟨rfl, hmem⟩⟩
    | entered hfree => exact .inr ⟨p, hp, .single rfl hfree, .inl ⟨rfl, by simp⟩⟩
    | uncertain lost hfree => exact .inr ⟨p, hp, .single rfl hfree, .inr ⟨lost, rfl⟩⟩

/-- One request: nothing is stored and nothing promised, or the event of its answer is entered. -/
theorem recording_stored (request : Request O) (w : σ) :
    (¬Promised (serve a sink request w).1 ∧ stored (serve a sink request w).2 = stored w) ∨
      ∃ p, Evidence sink request w (serve a sink request w).1 p ∧
        Grows PagedEvent.identity (· = p) (stored w) (stored (serve a sink request w).2) ∧
        (Promised (serve a sink request w).1 → p ∈ stored (serve a sink request w).2) := by
  obtain ⟨policy, cx⟩ := request
  have hstored := AuditRequest.run_stored (T := DovecoteAuditError ε δ ν) h hdb
    (.authorize policy cx) w
  dsimp only [AuditRequest.run] at hstored
  unfold serve
  dsimp only
  rcases hran : (a.authorize policy cx : Authorizer.Run σ R _ (DovecoteAuditError ε δ ν) _) w with
    ⟨result, calls, w₁⟩
  rw [hran] at hstored
  obtain ⟨d, entry, p, rfl, haccounts, hp, hgrows, hmem⟩ | ⟨e, rfl, hsame⟩ |
    ⟨entry, p, lost, rfl, hp, hgrows⟩ := hstored
  · obtain ⟨hresult, hworld⟩ := a.recording_of_ok sink.recordAttempt hran
    rw [hresult, hworld]
    exact .inr ⟨p, ⟨entry, hp, haccounts⟩, hgrows, fun _ => hmem⟩
  · have hworld₂ : stored (a.ids (a.clock w₁).2).2 = stored w :=
      (h.ids _).trans ((h.clock _).trans hsame)
    obtain ⟨hresult, hnone, hworld⟩ | ⟨-, scope, -, hresult, hworld⟩ |
      ⟨entry, hentry, hfailure, hworld, hanswer⟩ := a.recording_of_error sink.recordAttempt hran
    · rw [hresult, hworld]
      refine .inl ⟨?_, hsame⟩
      show ¬e.attemptFailure.isSome
      simp [hnone]
    · rw [hresult, hworld]
      exact .inl ⟨id, hworld₂⟩
    · rw [hworld, ← hworld₂]
      generalize (a.ids (a.clock w₁).2).2 = w₂ at hanswer ⊢
      obtain ⟨source, herror, hkept⟩ | ⟨p, hp, hgrows, ⟨hok, hmem⟩ | ⟨lost, hlost⟩⟩ :=
        attempt_stored hdb entry w₂
      · obtain ⟨hok, -⟩ | ⟨source, -, hresult⟩ := hanswer
        · rw [herror] at hok
          cases hok
        · rw [hresult]
          exact .inl ⟨id, hkept⟩
      · obtain ⟨-, hresult⟩ | ⟨source, herror, -⟩ := hanswer
        · rw [hresult]
          exact .inr ⟨p, .inl ⟨entry, hp, hentry, hfailure⟩, hgrows, fun _ => hmem⟩
        · rw [hok] at herror
          cases herror
      · obtain ⟨hok, -⟩ | ⟨source, herror, hresult⟩ := hanswer
        · rw [hlost] at hok
          cases hok
        · rw [hlost] at herror
          cases herror
          rw [hresult]
          exact .inr ⟨p, ⟨hp, lost, rfl⟩, hgrows, fun hpromised => hpromised.elim⟩
  · obtain ⟨hresult, -, hworld⟩ | ⟨failure, scope, hfailure, -⟩ | ⟨entry', -, hfailure, -⟩ :=
      a.recording_of_error sink.recordAttempt hran
    · rw [hresult, hworld]
      refine .inr ⟨p, .inr ⟨entry, lost, rfl, hp⟩, hgrows, fun hpromised => ?_⟩
      exact absurd hpromised Bool.false_ne_true
    · cases hfailure
    · cases hfailure

/-- Over any sequence of authorizations that record their failures, whatever the resolver, the clock
and the database answer, the stored events are only added to, each under an identity of its own.
Every decision returned has its event exactly once. Every failure that is returned as recorded has
exactly one event too, which is read back as the attempt of that request with the category of the
failure. Every event that was not there before belongs to a decision that was returned, to a failure
that was recorded, or to a commit that was reported as failed. -/
theorem attempt_trail (requests : List (Request O)) (w : σ)
    (hdistinct : Distinct PagedEvent.identity (stored w)) :
    let ran := inTurn (serve a sink) requests w
    stored w <+: stored ran.2 ∧ Distinct PagedEvent.identity (stored ran.2) ∧
    (∀ s ∈ ran.1, ∀ d, s.2.2 = .ok d → ∃ entry p,
      entry.Describes d (.ok s.1.1.anchor) s.1.2 ∧ sink.eventOf (.decision entry) = .ok p ∧
      p ∈ stored ran.2 ∧ (stored ran.2).countP (fun q => q.identity = p.identity) = 1) ∧
    (∀ s ∈ ran.1, ∀ e failure, s.2.2 = .error (.authorization e) →
      e.attemptFailure = some failure → ∃ (entry : AuthorizationAttempt) (p : PagedEvent),
      entry.Describes s.1.1.anchor s.1.2 ∧ entry.failure = failure ∧
      sink.eventOf (.attempt entry) = .ok p ∧ p ∈ stored ran.2 ∧
      (stored ran.2).countP (fun q => q.identity = p.identity) = 1 ∧
      (sink.json.Faithful (Wire.writeAttempt sink.time entry.toAttemptRecord) →
        decodeAuthorizationAttempt (ε := ν) sink.json sink.time sink.config p = .ok entry)) ∧
    ∀ p ∈ stored ran.2, p ∈ stored w ∨ ∃ s ∈ ran.1, Evidence sink s.1 s.2.1 s.2.2 p := by
  intro ran
  have hgrows : ∀ (request : Request O) w, Grows PagedEvent.identity
      (Evidence sink request w (serve a sink request w).1) (stored w)
      (stored (serve a sink request w).2) := by
    intro request w
    obtain ⟨-, hstored⟩ | ⟨p, hevidence, hgrows, -⟩ := recording_stored h hdb request w
    · rw [hstored]
      exact .refl _
    · exact hgrows.mono fun q hq => hq ▸ hevidence
  have hpromised : ∀ (request : Request O) w, Promised (serve a sink request w).1 →
      ∃ p, Evidence sink request w (serve a sink request w).1 p ∧
        p ∈ stored (serve a sink request w).2 := by
    intro request w hpromised
    obtain ⟨hnot, -⟩ | ⟨p, hevidence, -, hmem⟩ := recording_stored h hdb request w
    · exact absurd hpromised hnot
    · exact ⟨p, hevidence, hmem hpromised⟩
  have hall := grows_inTurn hgrows requests w
  have hfinal := hall.distinct hdistinct
  refine ⟨hall.isPrefix, hfinal, fun s hs d hd => ?_, fun s hs e failure he hfailure => ?_,
    fun p hp => hall.mem_or_offered hp⟩
  · obtain ⟨p, hevidence, hmem⟩ := mem_inTurn hgrows hpromised hs (by rw [hd]; trivial)
    rw [hd] at hevidence
    obtain ⟨entry, hp, hentry⟩ := hevidence
    exact ⟨entry, p, hentry, hp, hmem, hfinal.countP_key hmem⟩
  · obtain ⟨p, hevidence, hmem⟩ := mem_inTurn hgrows hpromised hs (by
      rw [he]
      show e.attemptFailure.isSome
      rw [hfailure]
      rfl)
    rw [he] at hevidence
    obtain ⟨entry, hp, hentry, hsame⟩ | ⟨entry, lost, rfl, -⟩ := hevidence
    · rw [hfailure] at hsame
      refine ⟨entry, p, hentry, (Option.some.inj hsame).symm, hp, hmem, hfinal.countP_key hmem,
        fun hjson => ?_⟩
      exact decodeAuthorizationAttempt_eventFromAttempt (DovecoteAudit.eventOf_attempt.mp hp) hjson
    · cases hfailure

end Lawful

end AttemptTrail

namespace Sample

/-- What is recorded when the facts of a request that is allowed to everyone are not resolved. -/
def unresolvedRecord : AttemptRecord where
  schemaVersion := 1
  occurrence := ⟨generatedId, noon⟩
  anchor := anchor
  tenant := traced.tenant
  binding := traced.binding
  principal := traced.principal
  subjects := traced.subjects
  requestId := traced.requestId
  failure := .resolution

def unresolvedSink : DovecoteAudit Memory (List PagedEvent) String String String :=
  onlySinkOf (Wire.writeAttempt timeTuple unresolvedRecord)

/-- The resolver does not answer in time; attempts are recorded in memory. -/
def unresolved : Authorizer Memory (FactResolver Memory Unit)
    (DovecoteAuditError String String String) :=
  { audited unresolvedSink with resolver := ⟨fun _ _ w => (.error .timeout, w)⟩ }

theorem unresolved_recordsTo : unresolved.RecordsTo unresolvedSink Memory.events :=
  ⟨rfl, fun _ _ _ => rfl, fun _ _ => rfl, fun _ => rfl, fun _ => rfl⟩

/-- The failure a request is recorded with, if it is. -/
def recordedFailure {R ε δ ν O : Type} : AttemptTrail.Answer R ε δ ν O → Option AttemptFailure
  | .error (.authorization e) => e.attemptFailure
  | _ => none

theorem recordedFailure_unresolved : recordedFailure (AttemptTrail.serve unresolved unresolvedSink
    (everyone, traced) ⟨[], []⟩).1 = some .resolution := by decide +kernel

end Sample

open Sample in
/-- A request whose facts are not resolved leaves one attempt, which is read back with the category
of the failure and the id of the request. -/
theorem attempt_trail_unresolved :
    let events := (inTurn (AttemptTrail.serve unresolved unresolvedSink) [(everyone, traced)]
      ⟨[], []⟩).2.events
    ∃ (entry : AuthorizationAttempt) (p : PagedEvent), entry.failure = .resolution ∧
      entry.requestId = traced.requestId ∧
      unresolvedSink.eventOf (.attempt entry) = .ok p ∧ p ∈ events ∧
      decodeAuthorizationAttempt (ε := String) unresolvedSink.json unresolvedSink.time
        unresolvedSink.config p = .ok entry := by
  intro events
  have hrecorded := recordedFailure_unresolved
  cases hanswer : (AttemptTrail.serve unresolved unresolvedSink (everyone, traced) ⟨[], []⟩).1 with
  | ok d => rw [hanswer] at hrecorded; cases hrecorded
  | error failed =>
    cases failed with
    | authorization e =>
      rw [hanswer] at hrecorded
      have hserved : ((everyone, traced), ⟨[], []⟩, .error (.authorization e)) ∈ (inTurn
          (AttemptTrail.serve unresolved unresolvedSink) [(everyone, traced)] ⟨[], []⟩).1 := by
        rw [inTurn, hanswer]
        exact List.mem_cons_self
      obtain ⟨entry, p, hentry, hfailure, hp, hmem, -, hread⟩ := (AttemptTrail.attempt_trail
        unresolved_recordsTo memory_lawful [(everyone, traced)] ⟨[], []⟩
        List.nodup_nil).2.2.2.1 _ hserved e .resolution rfl hrecorded
      exact ⟨entry, p, hfailure, hentry.requested, hp, hmem, hread (oneDocument_faithful _ _)⟩
    | unscoped e scope => rw [hanswer] at hrecorded; cases hrecorded
    | persistence e entry source => rw [hanswer] at hrecorded; cases hrecorded

end Gatekeep
