import Gatekeep.Authorization.Attempts
import Gatekeep.Sql.Sink

/-!
# Gatekeep.Sql.AuditTrail

An authorizer over a Dovecote database: what the stored events say about the decisions that were
returned, over any sequence of authorizations and retries.

`moves_run` follows the stored events along the calls of one authorization. From it and the boundary
of the authorizer come `run_stored`, for one request, and `audit_trail`, for a sequence: every
decision returned has its event exactly once, and every event is explained by a decision that was
returned or by a commit that was reported as failed.
-/

namespace Gatekeep

open Traced Journal

section Trail

variable {σ X ε δ ν Resolver R O : Type}

/-- The authorizer records through `sink`, and the rest of it leaves the stored events alone. -/
structure Authorizer.RecordsTo (a : Authorizer σ (FactResolver σ R) (DovecoteAuditError ε δ ν))
    (sink : DovecoteAudit σ X ε δ ν) (stored : σ → List PagedEvent) : Prop where
  auditSink : a.auditSink = sink.record
  resolver : ∀ required cx w, stored (a.resolver.resolveForDecision required cx w).2 = stored w
  observer : ∀ summary w, stored (a.observer summary w) = stored w
  clock : ∀ w, stored (a.clock w).2 = stored w
  ids : ∀ w, stored (a.ids w).2 = stored w

namespace DovecoteAudit

variable (sink : DovecoteAudit σ X ε δ ν)

/-- How a call of an authorizer moves the stored events. -/
def Moved {T : Type} :
    Call R (DovecoteAuditError ε δ ν) T → List PagedEvent → List PagedEvent → Prop
  | .record entry answer, l, l' => (∃ e, answer = .error e ∧ l' = l) ∨
      ∃ p full, sink.eventOf (.decision entry) = .ok p ∧
        answer = (full : Answer ε δ ν).map (fun _ => ()) ∧ Recorded p l full l'
  | _, l, l' => l' = l

theorem moved_record {stored : σ → List PagedEvent} {written : X → List PagedEvent} {T : Type}
    (h : sink.database.Lawful stored written) (entry : AuditEntry) (w : σ) :
    sink.Moved (.record entry (sink.record entry w).1 : Call R _ T) (stored w)
      (stored (sink.record entry w).2) := by
  obtain ⟨e, herror, hstored⟩ | ⟨p, hp, hrecorded⟩ := recordItem_cases h (.decision entry) w
  · refine .inl ⟨e, ?_, hstored⟩
    show (sink.recordItem (.decision entry) w).1.map _ = _
    rw [herror]
    rfl
  · exact .inr ⟨p, _, hp, rfl, hrecorded⟩

end DovecoteAudit

namespace Authorizer

variable {a : Authorizer σ (FactResolver σ R) (DovecoteAuditError ε δ ν)}
  {sink : DovecoteAudit σ X ε δ ν} {stored : σ → List PagedEvent} {written : X → List PagedEvent}
  {T : Type} [Lattice O] [DecidableEq O] [Serialize O]

abbrev Follows (sink : DovecoteAudit σ X ε δ ν) (stored : σ → List PagedEvent) {ε' α : Type}
    (m : Act σ (Call R (DovecoteAuditError ε δ ν) T) ε' α) : Prop :=
  Moves stored (sink.Moved (T := T)) m

section Moves

variable {ε' : Type} (h : a.RecordsTo sink stored)
include h

omit [Lattice O] [DecidableEq O] [Serialize O]

theorem RecordsTo.now :
    Follows sink stored (a.nowUtc : Act σ (Call R _ T) ε' OffsetDateTime) :=
  .call h.clock

theorem RecordsTo.generate :
    Follows sink stored (a.generate : Act σ (Call R _ T) ε' DecisionAuditId) :=
  .call h.ids

theorem RecordsTo.observed (summary : DecisionSummary) :
    Follows sink stored (a.observe summary : Act σ (Call R _ T) ε' Unit) :=
  .call (h.observer summary)

theorem RecordsTo.resolved (required : List FactId) (cx : Context) :
    Follows sink stored (a.resolve required cx : Act σ (Call R _ T) ε' _) :=
  .call (h.resolver required cx)

theorem RecordsTo.recorded (hdb : sink.database.Lawful stored written) (entry : AuditEntry) :
    Follows sink stored (a.record entry : Act σ (Call R _ T) ε' _) := by
  refine .call fun w => ?_
  rw [h.auditSink]
  exact sink.moved_record hdb entry w

theorem RecordsTo.occurrenceFor (cx : Context) :
    Follows sink stored (a.occurrenceFor cx : Run σ R _ T _) := by
  unfold Authorizer.occurrenceFor
  split
  · exact .pure _
  · exact .bind h.generate fun id => .bind h.now fun now => .check _ _

theorem RecordsTo.persist (hdb : sink.database.Lawful stored written)
    (pending : PendingDecision O) :
    Follows sink stored (a.persist pending : Run σ R _ T _) :=
  .mapError _ (.bind (h.recorded hdb _) fun _ => .bind (.check _ _) fun _ =>
    .bind (h.observed _) fun _ => .pure _)

end Moves

section Moves

variable (h : a.RecordsTo sink stored)
include h

theorem RecordsTo.assemble (policy : Policy O) (anchor : PolicyAnchor)
    (required : Option (List FactId)) (cx : Context) (resolution : FactResolution KnownFacts) :
    Follows sink stored (a.assemble policy anchor required cx resolution : Run σ R _ T _) :=
  .bind h.now fun _ => .bind (.check _ _) fun _ => .bind (h.occurrenceFor cx) fun _ =>
    .bind (.check _ _) fun _ => .pure _

theorem RecordsTo.authorize (hdb : sink.database.Lawful stored written)
    (policy : PreparedPolicy O) (cx : Context) :
    Follows sink stored (a.authorize policy cx : Run σ R _ T _) :=
  .bind (.bind h.now fun _ => .check _ _) fun _ => .bind (h.resolved _ cx) fun _ =>
    .bind (.check _ _) fun _ => .bind (h.assemble _ _ _ cx _) fun pending => h.persist hdb pending

end Moves

end Authorizer

/-! ## Requests -/

/-- What is asked of the authorizer: a decision, or the record of one that was not persisted. -/
inductive AuditRequest (O : Type) where
  | authorize (policy : PreparedPolicy O) (cx : Context)
  | retry (pending : PendingDecision O)

namespace AuditRequest

variable {a : Authorizer σ (FactResolver σ R) (DovecoteAuditError ε δ ν)}
  {sink : DovecoteAudit σ X ε δ ν} {stored : σ → List PagedEvent} {written : X → List PagedEvent}
  {T : Type} [Lattice O] [DecidableEq O] [Serialize O]

def run (a : Authorizer σ (FactResolver σ R) (DovecoteAuditError ε δ ν)) :
    AuditRequest O → Authorizer.Run σ R (DovecoteAuditError ε δ ν) T (AuthorizationDecision O)
  | .authorize policy cx => a.authorize policy cx
  | .retry pending => a.persist pending

/-- The entry stands for the decision that was returned. -/
def Accounts (entry : AuditEntry) (d : AuthorizationDecision O) : AuditRequest O → Prop
  | .authorize policy cx => entry.Describes d (.ok policy.anchor) cx
  | .retry pending => entry = pending.entry ∧ d = ⟨pending.decision, pending.entry.occurrence⟩

/-- What a request returns, with what it wrote. -/
theorem effects_cases (request : AuditRequest O) (w : σ) :
    let ran := (request.run a : Authorizer.Run σ R _ T _) w
    (∃ d entry, ran.result = .ok d ∧ request.Accounts entry d ∧
        effects ran.calls = [.record entry (.ok ()), .observe entry.summary]) ∨
      (∃ e, ran.result = .error e ∧ effects ran.calls = []) ∨
      ∃ entry source, ran.result = .error (.audit entry.occurrence source) ∧
        effects ran.calls = [.record entry (.error source)] := by
  intro ran
  cases request with
  | authorize policy cx =>
    have hboundary : Boundary (.ok policy.anchor) cx ran.result ran.calls :=
      a.boundary_run policy.policy policy.anchor policy.required cx true w
    unfold Boundary at hboundary
    cases hresult : ran.result with
    | ok d =>
      rw [hresult] at hboundary
      obtain ⟨entry, hcalls, hentry⟩ := hboundary
      exact .inl ⟨d, entry, rfl, hentry, hcalls⟩
    | error e =>
      rw [hresult] at hboundary
      obtain ⟨hcalls, -⟩ | ⟨entry, source, hcalls, rfl⟩ := hboundary
      · exact .inr (.inl ⟨e, rfl, hcalls⟩)
      · exact .inr (.inr ⟨entry, source, rfl, hcalls⟩)
  | retry pending =>
    obtain ⟨w', hran | ⟨source, hran⟩⟩ :=
      Authorizer.persist_cases (R := R) (T := T) a pending w
    · rw [show ran = _ from hran]
      exact .inl ⟨_, pending.entry, rfl, ⟨rfl, rfl⟩, rfl⟩
    · rw [show ran = _ from hran]
      exact .inr (.inr ⟨pending.entry, source, rfl, rfl⟩)

theorem moves_run (h : a.RecordsTo sink stored) (hdb : sink.database.Lawful stored written)
    (request : AuditRequest O) :
    Authorizer.Follows sink stored (request.run a : Authorizer.Run σ R _ T _) := by
  cases request with
  | authorize policy cx => exact h.authorize hdb policy cx
  | retry pending => exact h.persist hdb pending

omit [Lattice O] [DecidableEq O] [Serialize O] in
theorem moved_quiet (c : Call R (DovecoteAuditError ε δ ν) T) (l l' : List PagedEvent)
    (hquiet : c.isEffect = false) (hmoved : sink.Moved c l l') : l' = l := by
  cases c with
  | record entry answer => cases hquiet
  | observe summary => cases hquiet
  | recordAttempt entry answer => cases hquiet
  | now time => exact hmoved
  | generate id => exact hmoved
  | resolve answer => exact hmoved
  | resolveBatch answer => exact hmoved

/-- The stored events after one request: its event is among them if a decision was returned, and if
it was entered without one then the commit was reported as failed. -/
theorem run_stored (h : a.RecordsTo sink stored) (hdb : sink.database.Lawful stored written)
    (request : AuditRequest O) (w : σ) :
    let ran := (request.run a : Authorizer.Run σ R _ T _) w
    (∃ d entry p, ran.result = .ok d ∧ request.Accounts entry d ∧
        sink.eventOf (.decision entry) = .ok p ∧
        Grows PagedEvent.identity (· = p) (stored w) (stored ran.world) ∧ p ∈ stored ran.world) ∨
      (∃ e, ran.result = .error e ∧ stored ran.world = stored w) ∨
      ∃ entry p e, ran.result = .error (.audit entry.occurrence (.sqlx e)) ∧
        sink.eventOf (.decision entry) = .ok p ∧
        Grows PagedEvent.identity (· = p) (stored w) (stored ran.world) := by
  intro ran
  have hpath : Path sink.Moved (effects ran.calls) (stored w) (stored ran.world) :=
    (moves_run (T := T) h hdb request w).filter moved_quiet
  obtain ⟨d, entry, hresult, haccounts, hcalls⟩ | ⟨e, hresult, hcalls⟩ |
    ⟨entry, source, hresult, hcalls⟩ := effects_cases (a := a) (T := T) request w
  · rw [hcalls, Path.cons_iff] at hpath
    obtain ⟨l, hrecord, hpath⟩ := hpath
    obtain ⟨l', hobserve, hpath⟩ := Path.cons_iff.mp hpath
    have hend : stored ran.world = l := (Path.nil_iff.mp hpath).trans hobserve
    rw [hend]
    obtain ⟨e, herror, -⟩ | ⟨p, full, hp, hanswer, hrecorded⟩ := hrecord
    · cases herror
    · obtain ⟨outcome, rfl, -⟩ := Result.map_eq_ok.mp hanswer.symm
      exact .inl ⟨d, entry, p, hresult, haccounts, hp, hrecorded.grows, hrecorded.mem⟩
  · rw [hcalls, Path.nil_iff] at hpath
    exact .inr (.inl ⟨e, hresult, hpath⟩)
  · rw [hcalls, Path.cons_iff] at hpath
    obtain ⟨l, hrecord, hpath⟩ := hpath
    rw [Path.nil_iff.mp hpath]
    obtain ⟨e, herror, hsame⟩ | ⟨p, full, hp, hanswer, hrecorded⟩ := hrecord
    · exact .inr (.inl ⟨_, hresult, hsame⟩)
    · cases hrecorded with
      | failed e => exact .inr (.inl ⟨_, hresult, rfl⟩)
      | found => cases hanswer
      | entered => cases hanswer
      | uncertain e hfree =>
        cases hanswer
        exact .inr (.inr ⟨entry, p, e, hresult, hp, .single rfl hfree⟩)

end AuditRequest

/-! ## A sequence of requests -/

section Sequence

variable {a : Authorizer σ (FactResolver σ R) (DovecoteAuditError ε δ ν)}
  {sink : DovecoteAudit σ X ε δ ν} {stored : σ → List PagedEvent} {written : X → List PagedEvent}
  {T : Type} [Lattice O] [DecidableEq O] [Serialize O]

/-- A request with its run. -/
abbrev Served (σ R ε δ ν T O : Type) := AuditRequest O × Ran σ (Call R (DovecoteAuditError ε δ ν) T)
  (Except (AuthorizationError R (DovecoteAuditError ε δ ν)) (AuthorizationDecision O))

/-- Why an event may be stored: its decision was returned, or its commit reported as failed. -/
def Explains (sink : DovecoteAudit σ X ε δ ν) (p : PagedEvent)
    (served : Served σ R ε δ ν T O) : Prop :=
  ∃ entry, sink.eventOf (.decision entry) = .ok p ∧
    ((∃ d, served.2.result = .ok d ∧ served.1.Accounts entry d) ∨
      ∃ e, served.2.result = .error (.audit entry.occurrence (.sqlx e)))

/-- The requests one after the other, each with its run. -/
def serveAll (a : Authorizer σ (FactResolver σ R) (DovecoteAuditError ε δ ν))
    (requests : List (AuditRequest O)) (w : σ) : List (Served σ R ε δ ν T O) :=
  requests.zip (Act.each (fun request => request.run a) requests w)

theorem grows_serveAll (h : a.RecordsTo sink stored) (hdb : sink.database.Lawful stored written)
    (requests : List (AuditRequest O)) (w : σ) :
    Grows PagedEvent.identity
      (fun p => ∃ served ∈ (serveAll a requests w : List (Served σ R ε δ ν T O)),
        Explains sink p served)
      (stored w)
      (stored (Act.afterEach (fun request => (request.run a : Authorizer.Run σ R _ T _))
        requests w)) := by
  induction requests generalizing w with
  | nil => exact .refl _
  | cons request requests ih =>
    have hfirst : Grows PagedEvent.identity
        (fun p => Explains sink p (request, (request.run a : Authorizer.Run σ R _ T _) w))
        (stored w) (stored ((request.run a : Authorizer.Run σ R _ T _) w).world) := by
      obtain ⟨d, entry, p, hresult, haccounts, hp, hgrows, -⟩ | ⟨e, hresult, hsame⟩ |
        ⟨entry, p, e, hresult, hp, hgrows⟩ := AuditRequest.run_stored (T := T) h hdb request w
      · exact hgrows.mono fun q hq => ⟨entry, hq ▸ hp, .inl ⟨d, hresult, haccounts⟩⟩
      · rw [hsame]
        exact .refl _
      · exact hgrows.mono fun q hq => ⟨entry, hq ▸ hp, .inr ⟨e, hresult⟩⟩
    refine (hfirst.mono fun p hp => ⟨_, List.mem_cons_self, hp⟩).trans ((ih _).mono ?_)
    rintro p ⟨served, hserved, hp⟩
    exact ⟨served, List.mem_cons_of_mem _ hserved, hp⟩

theorem stored_serveAll (h : a.RecordsTo sink stored) (hdb : sink.database.Lawful stored written)
    {requests : List (AuditRequest O)} {w : σ} {served : Served σ R ε δ ν T O}
    (hserved : served ∈ (serveAll a requests w : List (Served σ R ε δ ν T O)))
    {d : AuthorizationDecision O} (hresult : served.2.result = .ok d) :
    ∃ entry p, served.1.Accounts entry d ∧ sink.eventOf (.decision entry) = .ok p ∧
      p ∈ stored (Act.afterEach (fun request => (request.run a : Authorizer.Run σ R _ T _))
        requests w) := by
  induction requests generalizing w with
  | nil => cases hserved
  | cons request requests ih =>
    rcases List.mem_cons.mp hserved with rfl | hserved
    · obtain ⟨d', entry, p, hresult', haccounts, hp, -, hmem⟩ | ⟨e, hresult', -⟩ |
        ⟨entry, p, e, hresult', -, -⟩ := AuditRequest.run_stored (T := T) h hdb request w
      · cases hresult.symm.trans hresult'
        exact ⟨entry, p, haccounts, hp, (grows_serveAll h hdb requests _).mem hmem⟩
      · cases hresult.symm.trans hresult'
      · cases hresult.symm.trans hresult'
    · exact ih hserved

/-- The audit trail over any sequence of authorizations and retries, whatever the resolver and the
database answer. The stored events are only added to, each under an identity of its own. Every
decision returned has its event exactly once, and unless it is the denial of a `null` outcome the
event is read back as the entry of the decision. Every event that was not there before belongs to a
decision that was returned or to a request that failed with the event's occurrence. -/
theorem audit_trail (h : a.RecordsTo sink stored) (hdb : sink.database.Lawful stored written)
    (requests : List (AuditRequest O)) (w : σ)
    (hdistinct : Distinct PagedEvent.identity (stored w)) :
    let served : List (Served σ R ε δ ν T O) := serveAll a requests w
    let events := stored (Act.afterEach
      (fun request => (request.run a : Authorizer.Run σ R _ T _)) requests w)
    stored w <+: events ∧ Distinct PagedEvent.identity events ∧
    (∀ s ∈ served, ∀ d, s.2.result = .ok d → ∃ entry p, s.1.Accounts entry d ∧
      sink.eventOf (.decision entry) = .ok p ∧ p ∈ events ∧
      events.countP (fun q => q.identity = p.identity) = 1 ∧
      (sink.json.Faithful (Wire.writeEntry sink.time entry.toAuditRecord) →
        (decodeDecisionAudit sink.json sink.time sink.config p = .ok entry ↔
          entry.decisive.denied ≠ some .null))) ∧
    ∀ p ∈ events, p ∈ stored w ∨ ∃ s ∈ served, Explains sink p s := by
  intro served events
  have hgrows := grows_serveAll (T := T) h hdb requests w
  have hevents : Distinct PagedEvent.identity events := hgrows.distinct hdistinct
  refine ⟨hgrows.isPrefix, hevents, fun s hs d hd => ?_, fun p hp => hgrows.mem_or_offered hp⟩
  obtain ⟨entry, p, haccounts, hp, hmem⟩ := stored_serveAll h hdb hs hd
  refine ⟨entry, p, haccounts, hp, hmem, hevents.countP_key hmem, fun hjson => ?_⟩
  exact decodeDecisionAudit_eventFromEntry (DovecoteAudit.eventOf_decision.mp hp) hjson

end Sequence

end Trail

namespace Sample

/-- Every part answers at noon, and decisions are recorded by a sink in memory. -/
def audited (sink : DovecoteAudit Memory (List PagedEvent) String String String) :
    Authorizer Memory (FactResolver Memory Unit) (DovecoteAuditError String String String) where
  resolver := ⟨fun _ _ w => (.ok (nothingKnown noon), w)⟩
  auditSink := sink.record
  observer _ w := w
  clock w := (noon, w)
  ids w := (generatedId, w)
  digest _ := .ok ⟨Vector.replicate 32 0⟩

/-- What `audited` records for a request that is allowed to everyone. -/
def everyoneEntry : AuditEntry :=
  built (AuditEntry.fromDecision ⟨generatedId, noon⟩ anchor
    (evaluate everyone.policy KnownFacts.new) request evidence) (by decide +kernel)

def everyoneSink : DovecoteAudit Memory (List PagedEvent) String String String :=
  onlySinkOf (doc everyoneEntry)

theorem audited_recordsTo : (audited everyoneSink).RecordsTo everyoneSink Memory.events :=
  ⟨rfl, fun _ _ _ => rfl, fun _ _ => rfl, fun _ => rfl, fun _ => rfl⟩

/-- The first commit fails with its event stored. -/
def resetOnce : Memory := ⟨[], [some true]⟩

def twice : List (AuditRequest Unit) :=
  [.authorize everyone request, .authorize everyone request]

/-- The second request, as it runs after the first. -/
def secondRun : Ran Memory (Call Unit (DovecoteAuditError String String String) Unit)
    (Except (AuthorizationError Unit (DovecoteAuditError String String String))
      (AuthorizationDecision Unit)) :=
  AuditRequest.run (audited everyoneSink) (.authorize everyone request)
    ((AuditRequest.run (audited everyoneSink) (.authorize everyone request) :
      Authorizer.Run Memory Unit _ Unit _) resetOnce).world

theorem secondRun_mem :
    (.authorize everyone request, secondRun) ∈ serveAll (audited everyoneSink) twice resetOnce :=
  List.mem_cons_of_mem _ List.mem_cons_self

/-- The requested outcome that a returned decision denies. -/
def deniedOutcome {R A O : Type} [Serialize O] :
    Except (AuthorizationError R A) (AuthorizationDecision O) → Option TraceValue
  | .ok d => (Decision.traceClause d.decision.trace.decisive).toOption.bind TraceClause.denied
  | .error _ => none

theorem secondRun_permits :
    secondRun.result.isOk = true ∧ deniedOutcome secondRun.result = none := by
  decide +kernel

end Sample

open Sample in
/-- The commit of the first request fails after it happened; the second one finds the event, which
is read back. -/
theorem audit_trail_twice :
    ∃ s ∈ (serveAll (audited everyoneSink) twice resetOnce :
        List (Served Memory Unit String String String Unit Unit)), ∃ d entry p,
      s.2.result = .ok d ∧ s.1.Accounts entry d ∧
        everyoneSink.eventOf (.decision entry) = .ok p ∧
        (Traced.Act.afterEach
            (fun r => (r.run (audited everyoneSink) : Authorizer.Run Memory Unit _ Unit _))
            twice resetOnce).events.countP (fun q => q.identity = p.identity) = 1 ∧
        decodeDecisionAudit everyoneSink.json everyoneSink.time everyoneSink.config p =
          .ok entry := by
  obtain ⟨hok, hdenied⟩ := secondRun_permits
  obtain ⟨d, hd⟩ := Result.isOk_iff.mp hok
  obtain ⟨entry, p, haccounts, hp, -, hcount, hread⟩ := (audit_trail (T := Unit) audited_recordsTo
    memory_lawful twice resetOnce List.nodup_nil).2.2.1 _ secondRun_mem d hd
  refine ⟨_, secondRun_mem, d, entry, p, hd, haccounts, hp, hcount, ?_⟩
  refine (hread (oneDocument_faithful _ _)).mpr fun hnull => ?_
  rw [hd, deniedOutcome, haccounts.decisive] at hdenied
  cases hdenied.symm.trans hnull

end Gatekeep
