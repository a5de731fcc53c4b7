import Gatekeep.Sql.AttemptEvent
import Gatekeep.Support.Journal

/-!
# Gatekeep.Sql.Sink

The audit sinks over a Dovecote database, `audit/sqlite.rs`, `audit/postgres.rs` and
`audit/mysql.rs` of `gatekeep-sqlx`. The three do the same over their own transactions: begin, turn
the record into an event, enqueue it, commit.

The database is a parameter (`Database`), over a world of an arbitrary type. What the sinks rely on
is `Database.Lawful`: an event is stored under an identity of its own, an identical retry finds it,
other contents under the identity are refused, and a commit that fails may have happened or not.

`recordAll_exactly_once` is what follows for any sequence of records, retries and faults.
-/

namespace Gatekeep

open Journal

/-! ## The database -/

/-- What enqueueing an event found. -/
inductive EnqueueOutcome where
  | enqueued
  | alreadyEnqueued
deriving DecidableEq

/-- Transactions `X` over a world `σ`; `ε` are the errors of enqueueing, `δ` those of the driver. -/
structure Database (σ X ε δ : Type) where
  begin : σ → Except δ X × σ
  enqueue : PagedEvent → X → σ → Except ε EnqueueOutcome × X × σ
  commit : X → σ → Except δ Unit × σ
  /-- A transaction that is dropped is rolled back. -/
  rollback : X → σ → σ

/-- An event is identified within its tenant and source. -/
def PagedEvent.identity (p : PagedEvent) : String × String × String :=
  (p.tenantId, p.event.source, p.event.id)

/-- The documented behaviour of a Dovecote database: `stored` are its committed events under the
sink's source, `written` the events of a transaction. -/
structure Database.Lawful {σ X ε δ : Type} (db : Database σ X ε δ) (stored : σ → List PagedEvent)
    (written : X → List PagedEvent) : Prop where
  begin_stored : ∀ w, stored (db.begin w).2 = stored w
  begin_written : ∀ w tx, (db.begin w).1 = .ok tx → written tx = []
  enqueue_stored : ∀ p tx w, stored (db.enqueue p tx w).2.2 = stored w
  enqueued : ∀ p tx w, (db.enqueue p tx w).1 = .ok .enqueued →
    (∀ q ∈ stored w ++ written tx, q.identity ≠ p.identity) ∧
      written (db.enqueue p tx w).2.1 = written tx ++ [p]
  alreadyEnqueued : ∀ p tx w, (db.enqueue p tx w).1 = .ok .alreadyEnqueued →
    p ∈ stored w ++ written tx ∧ written (db.enqueue p tx w).2.1 = written tx
  committed : ∀ tx w, (db.commit tx w).1 = .ok () →
    stored (db.commit tx w).2 = stored w ++ written tx
  uncertain : ∀ tx w e, (db.commit tx w).1 = .error e →
    stored (db.commit tx w).2 = stored w ∨ stored (db.commit tx w).2 = stored w ++ written tx
  rolledBack : ∀ tx w, stored (db.rollback tx w) = stored w

/-! ## The sinks -/

inductive DovecoteAuditError (ε δ ν : Type) where
  | attempt (error : AttemptAuditEventError ν)
  | event (error : DecisionAuditEventError ν)
  | dovecote (error : ε)
  | sqlx (error : δ)
deriving DecidableEq

/-- A Dovecote-backed sink; `ν` are the validation errors of `dovecote`. -/
structure DovecoteAudit (σ X ε δ ν : Type) where
  dovecote : Dovecote ν
  json : SerdeJson
  time : Serde.Codec WireError OffsetDateTime
  config : DecisionAuditConfig
  database : Database σ X ε δ

/-- A record to be stored. -/
inductive AuditItem where
  | decision (entry : AuditEntry)
  | attempt (entry : AuthorizationAttempt)

namespace DovecoteAudit

variable {σ X ε δ ν : Type} (sink : DovecoteAudit σ X ε δ ν)

abbrev Answer (ε δ ν : Type) := Except (DovecoteAuditError ε δ ν) EnqueueOutcome

/-- The event a record becomes. -/
def eventOf : AuditItem → Except (DovecoteAuditError ε δ ν) PagedEvent
  | .decision entry =>
    ((eventFromEntry sink.dovecote sink.json sink.time sink.config entry).map fun e =>
      ⟨e.1, e.2⟩).mapError .event
  | .attempt entry =>
    ((eventFromAttempt sink.dovecote sink.json sink.time sink.config entry).map fun e =>
      ⟨e.1, e.2⟩).mapError .attempt

/-- Record in a transaction owned by the caller. -/
def recordInTransaction (item : AuditItem) (tx : X) (w : σ) : Answer ε δ ν × X × σ :=
  match sink.eventOf item with
  | .error e => (.error e, tx, w)
  | .ok p =>
    match sink.database.enqueue p tx w with
    | (answer, tx, w) => (answer.mapError .dovecote, tx, w)

def recordDecisionAuditInTransaction (entry : AuditEntry) (tx : X) (w : σ) :
    Answer ε δ ν × X × σ := sink.recordInTransaction (.decision entry) tx w

def recordAttemptInTransaction (entry : AuthorizationAttempt) (tx : X) (w : σ) :
    Answer ε δ ν × X × σ := sink.recordInTransaction (.attempt entry) tx w

/-- Record in a transaction owned by the sink. -/
def recordItem (item : AuditItem) (w : σ) : Answer ε δ ν × σ :=
  match sink.database.begin w with
  | (.error e, w) => (.error (.sqlx e), w)
  | (.ok tx, w) =>
    match sink.recordInTransaction item tx w with
    | (.error e, tx, w) => (.error e, sink.database.rollback tx w)
    | (.ok outcome, tx, w) =>
      match sink.database.commit tx w with
      | (.error e, w) => (.error (.sqlx e), w)
      | (.ok (), w) => (.ok outcome, w)

def recordDecisionAudit (entry : AuditEntry) (w : σ) : Answer ε δ ν × σ :=
  sink.recordItem (.decision entry) w

def recordAuthorizationAttempt (entry : AuthorizationAttempt) (w : σ) : Answer ε δ ν × σ :=
  sink.recordItem (.attempt entry) w

/-- `AuditSink::record`. -/
def record (entry : AuditEntry) (w : σ) : Except (DovecoteAuditError ε δ ν) Unit × σ :=
  ((sink.recordDecisionAudit entry w).1.map fun _ => (), (sink.recordDecisionAudit entry w).2)

/-- `AttemptAuditSink::record_attempt`. -/
def recordAttempt (entry : AuthorizationAttempt) (w : σ) :
    Except (DovecoteAuditError ε δ ν) Unit × σ :=
  ((sink.recordAuthorizationAttempt entry w).1.map fun _ => (),
    (sink.recordAuthorizationAttempt entry w).2)

/-! ## One record -/

variable {sink} {stored : σ → List PagedEvent} {written : X → List PagedEvent}

theorem eventOf_decision {entry : AuditEntry} {p : PagedEvent} :
    sink.eventOf (.decision entry) = .ok p ↔
      eventFromEntry sink.dovecote sink.json sink.time sink.config entry =
        .ok (p.tenantId, p.event) := by
  rw [eventOf, Result.mapError_eq_ok, Result.map_eq_ok]
  constructor
  · rintro ⟨e, he, rfl⟩
    exact he
  · intro h
    exact ⟨_, h, rfl⟩

theorem eventOf_attempt {entry : AuthorizationAttempt} {p : PagedEvent} :
    sink.eventOf (.attempt entry) = .ok p ↔
      eventFromAttempt sink.dovecote sink.json sink.time sink.config entry =
        .ok (p.tenantId, p.event) := by
  rw [eventOf, Result.mapError_eq_ok, Result.map_eq_ok]
  constructor
  · rintro ⟨e, he, rfl⟩
    exact he
  · intro h
    exact ⟨_, h, rfl⟩

/-- What one record of `p` can do to the stored events `l`, with its answer: find the event, enter
it, or fail. Only a failed commit fails with the event stored. -/
inductive Recorded (p : PagedEvent) (l : List PagedEvent) :
    Answer ε δ ν → List PagedEvent → Prop where
  | failed (e : DovecoteAuditError ε δ ν) : Recorded p l (.error e) l
  | found : p ∈ l → Recorded p l (.ok .alreadyEnqueued) l
  | entered : (∀ q ∈ l, q.identity ≠ p.identity) → Recorded p l (.ok .enqueued) (l ++ [p])
  | uncertain (e : δ) : (∀ q ∈ l, q.identity ≠ p.identity) →
      Recorded p l (.error (.sqlx e)) (l ++ [p])

/-- The transaction of a record: what it wrote is nothing or the event, under a free identity. -/
theorem commit_cases (h : sink.database.Lawful stored written) {p : PagedEvent} {tx : X} {w : σ}
    {outcome : EnqueueOutcome} {l : List PagedEvent} (hstored : stored w = l)
    (hwritten : written tx = [] ∧ p ∈ l ∧ outcome = .alreadyEnqueued ∨
      written tx = [p] ∧ (∀ q ∈ l, q.identity ≠ p.identity) ∧ outcome = .enqueued) :
    (∀ e w', sink.database.commit tx w = (.error e, w') →
      Recorded p l (.error (.sqlx e) : Answer ε δ ν) (stored w')) ∧
    ∀ w', sink.database.commit tx w = (.ok (), w') →
      Recorded p l (.ok outcome : Answer ε δ ν) (stored w') := by
  constructor
  · intro e w' hc
    have huncertain := h.uncertain tx w e (congrArg Prod.fst hc)
    rw [hc, hstored] at huncertain
    rcases hwritten with ⟨hempty, -, -⟩ | ⟨hone, hfree, -⟩
    · rw [hempty, List.append_nil, or_self] at huncertain
      rw [huncertain]
      exact .failed _
    · rw [hone] at huncertain
      rcases huncertain with hlost | hlanded
      · rw [hlost]
        exact .failed _
      · rw [hlanded]
        exact .uncertain e hfree
  · intro w' hc
    have hcommitted := h.committed tx w (congrArg Prod.fst hc)
    rw [hc, hstored] at hcommitted
    rcases hwritten with ⟨hempty, hmem, rfl⟩ | ⟨hone, hfree, rfl⟩
    · rw [hempty, List.append_nil] at hcommitted
      rw [hcommitted]
      exact .found hmem
    · rw [hone] at hcommitted
      rw [hcommitted]
      exact .entered hfree

theorem recordInTransaction_of_error {item : AuditItem} {e : DovecoteAuditError ε δ ν}
    (h : sink.eventOf item = .error e) (tx : X) (w : σ) :
    sink.recordInTransaction item tx w = (.error e, tx, w) := by
  rw [recordInTransaction, h]

theorem recordInTransaction_of_ok {item : AuditItem} {p : PagedEvent}
    (h : sink.eventOf item = .ok p) {tx tx' : X} {w w' : σ} {answer : Except ε EnqueueOutcome}
    (henqueue : sink.database.enqueue p tx w = (answer, tx', w')) :
    sink.recordInTransaction item tx w = (answer.mapError .dovecote, tx', w') := by
  rw [recordInTransaction, h]
  simp only [henqueue]

/-- One record, whatever the database answers. -/
theorem recordItem_cases (h : sink.database.Lawful stored written) (item : AuditItem) (w : σ) :
    (∃ e, (sink.recordItem item w).1 = .error e ∧ stored (sink.recordItem item w).2 = stored w) ∨
      ∃ p, sink.eventOf item = .ok p ∧
        Recorded p (stored w) (sink.recordItem item w).1 (stored (sink.recordItem item w).2) := by
  unfold recordItem
  have hbegin := h.begin_stored w
  have hnew := h.begin_written w
  rcases hb : sink.database.begin w with ⟨e | tx, w₁⟩ <;> rw [hb] at hbegin hnew
  · exact .inl ⟨_, rfl, hbegin⟩
  have hempty : written tx = [] := hnew tx rfl
  cases hp : sink.eventOf item with
  | error e =>
    simp only [recordInTransaction_of_error hp]
    exact .inl ⟨e, rfl, (h.rolledBack _ _).trans hbegin⟩
  | ok p =>
    have hstored := h.enqueue_stored p tx w₁
    have henqueued := h.enqueued p tx w₁
    have halready := h.alreadyEnqueued p tx w₁
    rw [hempty, List.append_nil, hbegin] at henqueued halready
    rw [hbegin] at hstored
    rcases he : sink.database.enqueue p tx w₁ with ⟨answer, tx₂, w₂⟩
    rw [he] at hstored henqueued halready
    simp only [recordInTransaction_of_ok hp he]
    cases answer with
    | error e => exact .inl ⟨_, rfl, (h.rolledBack _ _).trans hstored⟩
    | ok outcome =>
      have hwritten : written tx₂ = [] ∧ p ∈ stored w ∧ outcome = .alreadyEnqueued ∨
          written tx₂ = [p] ∧ (∀ q ∈ stored w, q.identity ≠ p.identity) ∧
            outcome = .enqueued := by
        cases outcome with
        | enqueued => exact .inr ⟨(henqueued rfl).2, (henqueued rfl).1, rfl⟩
        | alreadyEnqueued => exact .inl ⟨(halready rfl).2, (halready rfl).1, rfl⟩
      obtain ⟨hfailed, hcommitted⟩ := commit_cases h hstored hwritten
      refine .inr ⟨p, rfl, ?_⟩
      simp only [Except.mapError]
      rcases hc : sink.database.commit tx₂ w₂ with ⟨e | ⟨⟩, w₃⟩
      · exact hfailed e w₃ hc
      · exact hcommitted w₃ hc

/-- What a record makes of the stored events: nothing, or its event entered. -/
theorem Recorded.grows {p : PagedEvent} {l l' : List PagedEvent} {answer : Answer ε δ ν}
    (h : Recorded p l answer l') : Grows PagedEvent.identity (· = p) l l' := by
  cases h with
  | failed => exact .refl l
  | found => exact .refl l
  | entered hfree => exact .single rfl hfree
  | uncertain _ hfree => exact .single rfl hfree

/-- An acknowledged record is stored. -/
theorem Recorded.mem {p : PagedEvent} {l l' : List PagedEvent} {outcome : EnqueueOutcome}
    (h : Recorded p l (.ok outcome : Answer ε δ ν) l') : p ∈ l' := by
  cases h with
  | found hmem => exact hmem
  | entered => simp

theorem grows_recordItem (h : sink.database.Lawful stored written) (item : AuditItem) (w : σ) :
    Grows PagedEvent.identity (fun p => sink.eventOf item = .ok p) (stored w)
      (stored (sink.recordItem item w).2) := by
  obtain ⟨e, -, hstored⟩ | ⟨p, hp, hrecorded⟩ := recordItem_cases h item w
  · rw [hstored]
    exact .refl _
  · exact hrecorded.grows.mono fun q hq => hq ▸ hp

theorem mem_of_recordItem (h : sink.database.Lawful stored written) {item : AuditItem} {w : σ}
    {outcome : EnqueueOutcome} (hok : (sink.recordItem item w).1 = .ok outcome) :
    ∃ p, sink.eventOf item = .ok p ∧ p ∈ stored (sink.recordItem item w).2 := by
  obtain ⟨e, herror, -⟩ | ⟨p, hp, hrecorded⟩ := recordItem_cases h item w
  · rw [hok] at herror
    cases herror
  · rw [hok] at hrecorded
    exact ⟨p, hp, hrecorded.mem⟩

/-! ## Any number of records -/

def Answer.isEnqueued : Answer ε δ ν → Bool
  | .ok .enqueued => true
  | _ => false

theorem length_recordItem (h : sink.database.Lawful stored written) (item : AuditItem) (w : σ) :
    (stored w).length + (sink.recordItem item w).1.isEnqueued.toNat ≤
      (stored (sink.recordItem item w).2).length := by
  obtain ⟨e, herror, hstored⟩ | ⟨p, -, hrecorded⟩ := recordItem_cases h item w
  · rw [herror, hstored]
    exact le_rfl
  · generalize (sink.recordItem item w).1 = answer at *
    generalize stored (sink.recordItem item w).2 = l' at *
    cases hrecorded <;> simp [Answer.isEnqueued]

variable (sink) in
/-- One record after another, whatever becomes of each; an item may come again. -/
def recordAll : List AuditItem → σ → List (AuditItem × Answer ε δ ν) × σ
  | [], w => ([], w)
  | item :: items, w =>
    let ran := sink.recordItem item w
    let rest := recordAll items ran.2
    ((item, ran.1) :: rest.1, rest.2)

theorem grows_recordAll (h : sink.database.Lawful stored written) (items : List AuditItem) (w : σ) :
    Grows PagedEvent.identity (fun p => ∃ item ∈ items, sink.eventOf item = .ok p) (stored w)
      (stored (sink.recordAll items w).2) := by
  induction items generalizing w with
  | nil => exact .refl _
  | cons item items ih =>
    refine Grows.trans ((grows_recordItem h item w).mono fun p hp => ?_) ((ih _).mono ?_)
    · exact ⟨item, List.mem_cons_self, hp⟩
    · rintro p ⟨i, hi, hp⟩
      exact ⟨i, List.mem_cons_of_mem _ hi, hp⟩

theorem mem_of_recordAll (h : sink.database.Lawful stored written) {items : List AuditItem} {w : σ}
    {item : AuditItem} {outcome : EnqueueOutcome}
    (hmem : (item, .ok outcome) ∈ (sink.recordAll items w).1) :
    ∃ p, sink.eventOf item = .ok p ∧ p ∈ stored (sink.recordAll items w).2 := by
  induction items generalizing w with
  | nil => cases hmem
  | cons first items ih =>
    rcases List.mem_cons.mp hmem with heq | hmem
    · obtain ⟨rfl, hok⟩ := (Prod.mk.injEq ..).mp heq
      obtain ⟨p, hp, hstored⟩ := mem_of_recordItem h hok.symm
      exact ⟨p, hp, (grows_recordAll h items _).mem hstored⟩
    · exact ih hmem

theorem length_recordAll (h : sink.database.Lawful stored written) (items : List AuditItem)
    (w : σ) : (stored w).length + (sink.recordAll items w).1.countP (fun e => e.2.isEnqueued) ≤
      (stored (sink.recordAll items w).2).length := by
  induction items generalizing w with
  | nil => exact le_rfl
  | cons item items ih =>
    have hfirst := length_recordItem h item w
    have hrest := ih (sink.recordItem item w).2
    rw [recordAll, List.countP_cons]
    cases hnew : (sink.recordItem item w).1.isEnqueued <;> simp [hnew] at hfirst hrest ⊢ <;> omega

/-- Any sequence of records, with any retries and faults, leaves a journal: events are only added,
each under an identity of its own and from a record that was made. An acknowledged record is stored
exactly once, whatever failed before it; other contents under a stored identity are never
acknowledged; and no event is reported as new twice. -/
theorem recordAll_exactly_once (h : sink.database.Lawful stored written) (items : List AuditItem)
    (w : σ) (hdistinct : Distinct PagedEvent.identity (stored w)) :
    let ran := sink.recordAll items w
    stored w <+: stored ran.2 ∧ Distinct PagedEvent.identity (stored ran.2) ∧
    (∀ p ∈ stored ran.2, p ∈ stored w ∨ ∃ item ∈ items, sink.eventOf item = .ok p) ∧
    (∀ item outcome, (item, .ok outcome) ∈ ran.1 → ∃ p, sink.eventOf item = .ok p ∧
      p ∈ stored ran.2 ∧ (stored ran.2).countP (fun q => q.identity = p.identity) = 1) ∧
    (∀ item p q, sink.eventOf item = .ok p → q ∈ stored ran.2 → q.identity = p.identity → q ≠ p →
      ∀ outcome, (item, .ok outcome) ∉ ran.1) ∧
    (stored w).length + ran.1.countP (fun e => e.2.isEnqueued) ≤ (stored ran.2).length := by
  intro ran
  have hgrows := grows_recordAll h items w
  have hstored := hgrows.distinct hdistinct
  refine ⟨hgrows.isPrefix, hstored, fun p hp => hgrows.mem_or_offered hp, ?_, ?_,
    length_recordAll h items w⟩
  · intro item outcome hmem
    obtain ⟨p, hp, hin⟩ := mem_of_recordAll h hmem
    exact ⟨p, hp, hin, hstored.countP_key hin⟩
  · intro item p q hp hq hidentity hne outcome hmem
    obtain ⟨p', hp', hin⟩ := mem_of_recordAll h hmem
    cases hp.symm.trans hp'
    exact hne (hstored.eq_of_key hq hin hidentity)

end DovecoteAudit

/-! ## A database in memory -/

namespace Sample

/-- Committed events, and what the next commits report: nothing wrong, a failure that lost the
transaction, or one that did not. -/
structure Memory where
  events : List PagedEvent
  faults : List (Option Bool)

def memory : Database Memory (List PagedEvent) String String where
  begin m := (.ok [], m)
  enqueue p tx m :=
    match (m.events ++ tx).find? fun q => q.identity = p.identity with
    | some q =>
      if q = p then (.ok .alreadyEnqueued, tx, m) else (.error "idempotency conflict", tx, m)
    | none => (.ok .enqueued, tx ++ [p], m)
  commit tx m :=
    match m.faults with
    | some true :: faults => (.error "connection reset", ⟨m.events ++ tx, faults⟩)
    | some false :: faults => (.error "connection reset", ⟨m.events, faults⟩)
    | faults => (.ok (), ⟨m.events ++ tx, faults.tail⟩)
  rollback _ m := m

theorem memory_lawful : memory.Lawful Memory.events id where
  begin_stored _ := rfl
  begin_written _ _ h := (Except.ok.inj h).symm
  enqueue_stored p tx m := by
    unfold memory
    dsimp only
    split
    · split <;> rfl
    · rfl
  enqueued p tx m h := by
    unfold memory at h ⊢
    dsimp only at h ⊢
    split at h
    · split at h <;> cases h
    · rename_i hnone
      rw [List.find?_eq_none] at hnone
      refine ⟨fun q hq => by simpa using hnone q hq, rfl⟩
  alreadyEnqueued p tx m h := by
    unfold memory at h ⊢
    dsimp only at h ⊢
    split at h
    · rename_i q hfind
      split at h
      · rename_i hq
        rw [hq] at hfind
        rw [if_pos hq]
        exact ⟨List.mem_of_find?_eq_some hfind, rfl⟩
      · cases h
    · cases h
  committed tx m h := by
    unfold memory at h ⊢
    dsimp only at h ⊢
    split at h
    · cases h
    · cases h
    · rfl
  uncertain tx m e h := by
    unfold memory at h ⊢
    dsimp only at h ⊢
    split at h
    · exact .inr rfl
    · exact .inl rfl
    · cases h
  rolledBack _ _ := rfl

/-- A sink over the database in memory, with JSON as it behaves on one document. -/
def sinkOf (doc : Json) : DovecoteAudit Memory (List PagedEvent) String String String :=
  ⟨dovecote, serdeJson doc, timeTuple, config, memory⟩

/-- `serde_json` for one document only: no other document has a text. -/
def oneDocument (doc : Json) : SerdeJson where
  toVec j := if j = doc then .ok (payload doc) else .error "recursion limit exceeded"
  fromSlice := (serdeJson doc).fromSlice

theorem oneDocument_faithful (doc j : Json) : (oneDocument doc).Faithful j := by
  intro text h
  unfold oneDocument at h
  dsimp only at h
  split at h
  · rename_i hdoc
    cases h
    rw [hdoc]
    exact if_pos rfl
  · cases h

/-- A sink over the database in memory for entries with one document. -/
def onlySinkOf (doc : Json) : DovecoteAudit Memory (List PagedEvent) String String String :=
  { sinkOf doc with json := oneDocument doc }

end Sample

open Sample in
/-- The first commit fails after it happened, and the retry finds the event. -/
theorem recordAll_tierEntry :
    let ran := (sinkOf (doc tierEntry)).recordAll [.decision tierEntry, .decision tierEntry]
      ⟨[], [some true]⟩
    ran.1.map Prod.snd = [.error (.sqlx "connection reset"), .ok .alreadyEnqueued] ∧
      ∃ p, ran.2.events = [p] ∧ ran.2.events.countP (fun q => q.identity = p.identity) = 1 := by
  intro ran
  obtain ⟨p, hp⟩ : ∃ p, (sinkOf (doc tierEntry)).eventOf (.decision tierEntry) = .ok p :=
    ⟨⟨_, _⟩, DovecoteAudit.eventOf_decision.mpr eventFromEntry_tierEntry⟩
  have hdb : (sinkOf (doc tierEntry)).database = memory := rfl
  have hran : ran = ([(.decision tierEntry, .error (.sqlx "connection reset")),
      (.decision tierEntry, .ok .alreadyEnqueued)], ⟨[p], []⟩) := by
    simp [ran, DovecoteAudit.recordAll, DovecoteAudit.recordItem,
      DovecoteAudit.recordInTransaction, hp, hdb, memory, Except.mapError]
  have hlawful : (sinkOf (doc tierEntry)).database.Lawful Memory.events id := memory_lawful
  have hacknowledged := (DovecoteAudit.recordAll_exactly_once hlawful
    [.decision tierEntry, .decision tierEntry] ⟨[], [some true]⟩ List.nodup_nil).2.2.2.1
    (.decision tierEntry) .alreadyEnqueued
    (by rw [show (sinkOf (doc tierEntry)).recordAll _ _ = _ from hran]; simp)
  obtain ⟨p', hp', -, hcount⟩ := hacknowledged
  cases hp.symm.trans hp'
  rw [hran]
  rw [show (sinkOf (doc tierEntry)).recordAll _ _ = _ from hran] at hcount
  exact ⟨rfl, p, rfl, hcount⟩

end Gatekeep
