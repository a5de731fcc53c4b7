import Gatekeep.Authorization.Boundary
import Gatekeep.Axum.Response
import Gatekeep.RecordService.List
import Gatekeep.Sql.Transaction

/-!
# Gatekeep.RecordService.Service

The two routes of the record service, `lib.rs` and `list.rs` of the example `record-service`. A
read decides on one record and discloses it; a list discloses the records a person may see. Each
does its work in one write transaction, together with the event that records it, and answers only
when the transaction is committed.

`readWork_ok` and `listWork_ok` say what work that succeeded has done. From them come
`disclosures_recorded`, over any sequence of requests, and `list_agrees_with_reads`.
-/

namespace Gatekeep

namespace RecordService

open Traced Journal

variable {σ X ε δ ν : Type}

/-! ## The application -/

/-- The application's pool: its transactions also read the tables. -/
structure RecordStore (σ X ε δ : Type) extends Database σ X ε δ where
  tables : X → σ → Except δ Tables × X × σ

/-- A statement that reads the tables in a transaction. -/
def RecordStore.select {α : Type} (pool : RecordStore σ X ε δ) (query : Tables → α) :
    Work σ X δ α := fun w =>
  match pool.tables w.1 w.2 with
  | (answer, tx, w) => ⟨answer.map query, [], (tx, w)⟩

/-- The state of the router. The sink writes to the pool, and the policy is the prepared
`readPolicy`. -/
structure App (σ X ε δ ν : Type) where
  authorizer : Authorizer σ (RecordResolver σ δ) (DovecoteAuditError ε δ ν)
  policy : PreparedPolicy Access
  pool : RecordStore σ X ε δ
  audit : DovecoteAudit σ X ε δ ν
  readPolicy : policy.policy = accessPolicy
  auditPool : audit.database = pool.toDatabase

/-- What went wrong in a list. -/
inductive ExampleError (ε δ ν : Type) where
  | identity (error : IdentityError)
  | context (error : ContextError)
  | lower (error : LowerError)
  | driver (error : δ)
  | row (error : RowError)
  | occurrence (error : DecisionAuditOccurrenceError)
  | validation (error : ν)
  | json (error : JsonError)
  | dovecote (error : ε)

structure ListView where
  total : Nat
  records : List View
deriving DecidableEq

/-! ## The disclosure event of a list -/

def disclosureStream : String := "record-disclosures"
def disclosureSource : String := "https://record-demo.example/audit"
def disclosureEventType : String := "record_demo.list_assembled"

/-- Real rows and grades, in the `Value` that `json!` builds. -/
def disclosurePayload (anchor : PolicyAnchor) (cx : Context) (records : List View) : Json :=
  (Json.obj [("schema_version", .int 1), ("policy", Wire.policyAnchor.write anchor),
    ("principal", Wire.subjectRef.write cx.principal),
    ("rows", .arr (records.map fun record => .arr [.str record.id, .str record.access.name]))]).value

def disclosureEvent (occurrence : DecisionAuditOccurrence) (payload : Bytes) : Event where
  stream := disclosureStream
  id := occurrence.decisionAuditId.value
  source := disclosureSource
  eventType := disclosureEventType
  time := some occurrence.occurredAt
  datacontenttype := some decisionAuditContentType
  data := some (.json payload)

namespace App

variable (app : App σ X ε δ ν) {e : Type}

/-- `SystemClock`. -/
def now : Work σ X e OffsetDateTime :=
  Work.lift (app.authorizer.nowUtc (R := Unit) (T := Unit))

/-- `DecisionAuditId::generate`. -/
def generate : Work σ X e DecisionAuditId :=
  Work.lift (app.authorizer.generate (R := Unit) (T := Unit))

def disclosure (cx : Context) (occurrence : DecisionAuditOccurrence) (records : List View) :
    Except (ExampleError ε δ ν) PagedEvent := do
  let dovecote := app.audit.dovecote
  (dovecote.streamName disclosureStream).mapError .validation
  (dovecote.eventId occurrence.decisionAuditId.value).mapError .validation
  (dovecote.eventSource disclosureSource).mapError .validation
  (dovecote.eventType disclosureEventType).mapError .validation
  (dovecote.contentType decisionAuditContentType).mapError .validation
  let payload ← (app.audit.json.toVec
    (disclosurePayload app.policy.anchor cx records)).mapError .json
  (dovecote.json payload).mapError .validation
  let event := disclosureEvent occurrence payload
  (dovecote.build event).mapError .validation
  (dovecote.tenantId cx.tenant.value).mapError .validation
  return ⟨cx.tenant.value, event⟩

/-! ## One record -/

def resolveInTransaction (cx : Context) :
    Work σ X (ResolveError (SqlxError δ)) (FactResolution KnownFacts) := do
  let row ← (app.pool.select fun T => T.permission (permissionKey cx)).mapError
    fun error => .backend (.driver error)
  let now ← app.now
  Act.check id (resolution row now)

/-- The decision of a read, on facts read in its transaction. -/
def pending (cx : Context) : Work σ X StatusCode (PendingDecision Access) := do
  let resolution ← (app.resolveInTransaction cx).mapError fun _ => .internalServerError
  (Work.lift (app.authorizer.prepareResolution (R := Unit) (T := Unit) app.policy cx
    resolution)).mapError fun _ => .internalServerError

/-- What is disclosed of a record, by one more query. -/
def project (cx : Context) (record : String) : Option Access → Work σ X StatusCode (Option View)
  | none => pure none
  | some access => do
    let row ← (app.pool.select fun T => T.records.find? fun row =>
      row.key = (cx.tenant.value, record)).mapError fun _ => .internalServerError
    let row ← Act.check id (row.elim (.error .internalServerError) .ok)
    return some { viewOf row access with id := record }

def readWork (cx : Context) (record : String) : Work σ X StatusCode (Option View) := do
  let pending ← app.pending cx
  let _ ← (app.audit.recordWork (.decision pending.entry)).mapError fun _ => .internalServerError
  app.project cx record pending.decision.outcome

/-- `GET /people/{person}/records/{record}`. A denial is committed and answered as not found. -/
def read (person record : String) (w : σ) : Except StatusCode View × σ :=
  let (now, w) := app.authorizer.clock w
  match context "demo" person record now with
  | .error _ => (.error .badRequest, w)
  | .ok cx =>
    match app.pool.transact (fun _ => .internalServerError) (app.readWork cx record) w with
    | (.error status, w) => (.error status, w)
    | (.ok none, w) => (.error .notFound, w)
    | (.ok (some view), w) => (.ok view, w)

/-! ## The records of a person -/

/-- The rows of the list query and their number. -/
def rows (cx : Context) (person : String) (now : OffsetDateTime) :
    Work σ X (ExampleError ε δ ν) ListView := do
  let plan ← Act.check .lower (plan app.policy cx now)
  let total ← (app.pool.select fun T => T.count person plan).mapError .driver
  let rows ← (app.pool.select fun T => T.listed person plan).mapError .driver
  let records ← Act.check .row (rows.mapM decodeRow)
  return ⟨total, records⟩

/-- The rows of a list, with the event that discloses them. -/
def assembled (cx : Context) (person : String) :
    Work σ X (ExampleError ε δ ν) (ListView × PagedEvent) := do
  let now ← app.now
  Act.check .context (cx.validateAt now)
  let listed ← app.rows cx person now
  let auditId ← app.generate
  let occurrence ← Act.check .occurrence (DecisionAuditOccurrence.new auditId now)
  let event ← Act.check id (app.disclosure cx occurrence listed.records)
  return (listed, event)

def listWork (cx : Context) (person : String) : Work σ X (ExampleError ε δ ν) ListView := do
  let assembled ← app.assembled cx person
  let _ ← (app.pool.put assembled.2).mapError .dovecote
  return assembled.1

def listRecords (person : String) (w : σ) : Except (ExampleError ε δ ν) ListView × σ :=
  let (now, w) := app.authorizer.clock w
  match context "demo" person "list" now with
  | .error error => (.error (.identity error), w)
  | .ok cx => app.pool.transact .driver (app.listWork cx person) w

/-- `GET /people/{person}/records`. -/
def list (person : String) (w : σ) : Except StatusCode ListView × σ :=
  ((app.listRecords person w).1.mapError fun _ => .internalServerError,
    (app.listRecords person w).2)

end App

/-! ## The context of a request -/

/-- The context of a request names the tenant, the person and the record it was made of. -/
theorem context_eq_ok {tenant person record : String} {now : OffsetDateTime} {cx : Context}
    (h : context tenant person record now = .ok cx) :
    cx.tenant.value = tenant ∧ permissionKey cx = (tenant, person, record) := by
  unfold context at h
  simp only [Result.bind_eq_ok, Result.mapError_eq_ok, Result.pure_eq_ok, Except.ok.injEq] at h
  obtain ⟨tenantId, htenant, binding, hbinding, principal, hprincipal, locale, -, cx₀, hcx, slot,
    hslot, subject, hsubject, rfl⟩ := h
  obtain ⟨service, -, rfl⟩ := Result.map_eq_ok.mp hbinding
  obtain ⟨hkind, hid⟩ := SubjectRef.value_of_new hprincipal
  obtain ⟨hrecord, hrecordId⟩ := SubjectRef.value_of_new hsubject
  have hslot := OwnedId.value_of_new hslot
  have hcx : cx₀.tenant = tenantId ∧ cx₀.principal = principal ∧ cx₀.subjects = ∅ := by
    unfold Context.fromTrustedService Context.newAt at hcx
    split at hcx
    · split at hcx <;> cases hcx
      exact ⟨rfl, rfl, rfl⟩
    · cases hcx
  obtain ⟨hcxTenant, hcxPrincipal, hcxSubjects⟩ := hcx
  have htenant : cx₀.tenant.value = tenant := by rw [hcxTenant, TenantId.value_of_new htenant]
  refine ⟨htenant, ?_⟩
  have hone : ∀ e, e ∈ (cx₀.withSubject slot subject).subjects.toList → e = (slot, subject) := by
    rintro ⟨s, r⟩ he
    rw [Std.ExtTreeMap.mem_toList_iff_getElem?_eq_some, Context.withSubject, hcxSubjects,
      Std.ExtTreeMap.getElem?_insert] at he
    split at he
    · rename_i hs
      rw [← Std.LawfulEqCmp.eq_of_compare hs, Option.some.inj he]
    · simp at he
  have hmem : (slot, subject) ∈ (cx₀.withSubject slot subject).subjects.toList := by
    rw [Std.ExtTreeMap.mem_toList_iff_getElem?_eq_some, Context.withSubject]
    exact Std.ExtTreeMap.getElem?_insert_self
  have hrecordId : recordId (cx₀.withSubject slot subject) = record := by
    rw [recordId, if_neg (by simp [Context.withSubject, hcxPrincipal, hkind])]
    cases hfind : (cx₀.withSubject slot subject).subjects.toList.find?
      fun e => e.1.value = "record" ∧ e.2.kind.value = "record" with
    | none => simpa [hslot, hrecord] using List.find?_eq_none.mp hfind _ hmem
    | some e =>
      rw [hone e (List.mem_of_find?_eq_some hfind)]
      exact hrecordId
  rw [permissionKey, hrecordId]
  simp [Context.withSubject, hcxPrincipal, htenant, hid]

/-! ## Evidence -/

section Evidence

variable (app : App σ X ε δ ν)

/-- The second in which a read decides. Its transaction reads the clock when the permissions have been
selected. -/
def App.readSecond (tx : X) (w : σ) : Int :=
  (app.authorizer.clock (app.pool.tables tx w).2.2).1.unixTimestamp

/-- The event is that of the decision on a record, on the facts of the tables in the second `t`, for
a request that came in at `now`. -/
def App.Decided (T : Tables) (person record : String) (now : OffsetDateTime) (t : Int)
    (p : PagedEvent) : Prop :=
  ∃ cx entry, context "demo" person record now = .ok cx ∧
    app.audit.eventOf (.decision entry) = .ok p ∧
    entry.Describes ⟨evaluate accessPolicy (facts (T.permission ("demo", person, record)) t),
      entry.occurrence⟩ (.ok app.policy.anchor) cx

/-- The event is that of the decision on which a read answers: with the view that the tables have
for the person in the second `t`, or with none. -/
def App.ReadEvidence (T : Tables) (person record : String) (now : OffsetDateTime) (t : Int)
    (answer : Option View) (p : PagedEvent) : Prop :=
  app.Decided T person record now t p ∧
    (answer = none ∧ T.access "demo" person record t = none ∨
      ∃ view, answer = some view ∧ view.id = record ∧ view ∈ T.views "demo" person t)

/-- The event names the person and the listed records with their grades, which are those that the
tables have for the person at `t`; it occurred at that time too. -/
def App.ListEvidence (T : Tables) (person : String) (now t : OffsetDateTime) (listed : ListView)
    (p : PagedEvent) : Prop :=
  listed = ⟨(T.views "demo" person t.unixTimestamp).length,
      T.firstViews "demo" person t.unixTimestamp⟩ ∧
    ∃ cx auditId occurrence, context "demo" person "list" now = .ok cx ∧
      DecisionAuditOccurrence.new auditId t = .ok occurrence ∧
      app.disclosure cx occurrence listed.records = .ok p

end Evidence

/-! ## The pool -/

/-- The documented behaviour of the pool. `BEGIN IMMEDIATE` fences the tables through commit, so
every statement of a transaction finds them as they were when it began: `current` are the tables of
a world, `fenced` those a transaction works on. -/
structure RecordStore.Lawful (pool : RecordStore σ X ε δ) (stored : σ → List PagedEvent)
    (written : X → List PagedEvent) (current : σ → Tables) (fenced : X → Tables) : Prop
    extends pool.toDatabase.Lawful stored written where
  begin_fenced : ∀ w tx, (pool.begin w).1 = .ok tx → fenced tx = current (pool.begin w).2
  enqueue_fenced : ∀ p tx w, fenced (pool.enqueue p tx w).2.1 = fenced tx
  tables_fenced : ∀ tx w, fenced (pool.tables tx w).2.1 = fenced tx
  tables_found : ∀ tx w T, (pool.tables tx w).1 = .ok T → T = fenced tx
  tables_written : ∀ tx w, written (pool.tables tx w).2.1 = written tx
  tables_stored : ∀ tx w, stored (pool.tables tx w).2.2 = stored w

/-- The pool is lawful, and reading the clock or drawing an identity stores nothing. -/
structure App.Lawful (app : App σ X ε δ ν) (stored : σ → List PagedEvent)
    (written : X → List PagedEvent) (current : σ → Tables) (fenced : X → Tables) : Prop where
  pool : app.pool.Lawful stored written current fenced
  clock : ∀ w, stored (app.authorizer.clock w).2 = stored w
  ids : ∀ w, stored (app.authorizer.ids w).2 = stored w

section Lawful

variable {stored : σ → List PagedEvent} {written : X → List PagedEvent} {current : σ → Tables}
  {fenced : X → Tables} {e α : Type}

section Pool

variable {pool : RecordStore σ X ε δ} (h : pool.Lawful stored written current fenced)
  (query : Tables → α)
include h

theorem quiet_select : Quiet stored written (pool.select query) :=
  ⟨fun _ => rfl, fun w => h.tables_stored w.1 w.2, fun w => h.tables_written w.1 w.2⟩

theorem keeps_select : Keeps (fun w => fenced w.1) (pool.select query) :=
  fun w => h.tables_fenced w.1 w.2

/-- A query finds what the fenced tables have. -/
theorem select_ok {w : X × σ} {a : α} (hok : (pool.select query w).result = .ok a) :
    a = query (fenced w.1) := by
  obtain ⟨T, hT, rfl⟩ := Result.map_eq_ok.mp hok
  rw [h.tables_found w.1 w.2 T hT]

theorem select_mapError_ok {f : δ → e} {w : X × σ} {a : α}
    (hok : ((pool.select query).mapError f w).result = .ok a) : a = query (fenced w.1) :=
  select_ok h query (Result.mapError_eq_ok.mp hok)

end Pool

variable {app : App σ X ε δ ν} (h : app.Lawful stored written current fenced)
include h

theorem quiet_now : Quiet stored written (app.now : Work σ X e OffsetDateTime) :=
  .lift (.call h.clock)

omit h in
theorem now_ok {w : X × σ} {t : OffsetDateTime}
    (hok : ((app.now : Work σ X e _) w).result = .ok t) : t = (app.authorizer.clock w.2).1 :=
  (Except.ok.inj hok).symm

theorem quiet_generate : Quiet stored written (app.generate : Work σ X e DecisionAuditId) :=
  .lift (.call h.ids)

/-! ## The work of a read -/

theorem quiet_resolveInTransaction (cx : Context) :
    Quiet stored written (app.resolveInTransaction cx) :=
  .bind ((quiet_select h.pool _).mapError _) fun _ => (quiet_now h).bind fun _ => .check _ _

theorem keeps_prepareResolution (cx : Context) (resolution : FactResolution KnownFacts) :
    Keeps stored (app.authorizer.prepareResolution (R := Unit) (T := Unit) app.policy cx
      resolution) := by
  have hnow : ∀ {κ ε' : Type} {log : OffsetDateTime → κ},
      Keeps stored (Act.call app.authorizer.clock log : Act σ κ ε' _) := .call h.clock
  refine hnow.bind fun now => .bind (.check _ _) fun evidence => .bind ?_ fun occurrence =>
    .bind (.check _ _) fun entry => .pure _
  unfold Authorizer.occurrenceFor
  split
  · exact .pure _
  · exact .bind (.call h.ids) fun id => hnow.bind fun now => .check _ _

theorem quiet_pending (cx : Context) : Quiet stored written (app.pending cx) :=
  .bind ((quiet_resolveInTransaction h cx).mapError _) fun resolution =>
    .mapError _ (.lift (keeps_prepareResolution h cx resolution))

theorem quiet_project (cx : Context) (record : String) (outcome : Option Access) :
    Quiet stored written (app.project cx record outcome) := by
  cases outcome with
  | none => exact .pure _
  | some access =>
    exact .bind ((quiet_select h.pool _).mapError _) fun row => .bind (.check _ _) fun row => .pure _

/-- The decision of a read is the evaluation of the policy on the facts of the fenced tables, in the
second that the clock shows behind the first statement. -/
theorem pending_ok {cx : Context} {w : X × σ} {p : PendingDecision Access}
    (hok : (app.pending cx w).result = .ok p) :
    p.decision = evaluate accessPolicy
        (facts ((fenced w.1).permission (permissionKey cx)) (app.readSecond w.1 w.2)) ∧
      p.entry.Describes ⟨p.decision, p.entry.occurrence⟩ (.ok app.policy.anchor) cx := by
  obtain ⟨resolution, hresolution, hprepare⟩ := Act.result_bind.mp hok
  obtain ⟨row, hrow, hrest⟩ := Act.result_bind.mp (Result.mapError_eq_ok.mp hresolution)
  obtain ⟨now, hnow, hcheck⟩ := Act.result_bind.mp hrest
  have hnow : now = (app.authorizer.clock (app.pool.tables w.1 w.2).2.2).1 := now_ok hnow
  have hrow := select_mapError_ok h.pool _ hrow
  have hfacts := facts_of_resolution (Act.result_check.mp hcheck)
  have hprepare := Result.mapError_eq_ok.mp hprepare
  obtain ⟨r, calls, w', -, ⟨p', hrun, hassembled⟩ | ⟨error, hrun, -⟩⟩ :=
    app.authorizer.assemble_cases (R := Unit) (T := Unit) app.policy.policy app.policy.anchor
      (some app.policy.required) cx resolution _
  · have hp : p' = p := by
      rw [Work.lift, Authorizer.prepareResolution, hrun] at hprepare
      exact Except.ok.inj hprepare
    subst hp
    refine ⟨?_, app.authorizer.describes_of_assembled hassembled⟩
    rw [hassembled.decision, hfacts, hrow, hnow, app.readPolicy]
    rfl
  · rw [Work.lift, Authorizer.prepareResolution, hrun] at hprepare
    cases hprepare

/-- What is disclosed is what the fenced tables have of the record, by the grade of the decision. -/
theorem project_ok {cx : Context} {record : String} {outcome : Option Access} {w : X × σ}
    {answer : Option View} (hok : (app.project cx record outcome w).result = .ok answer) :
    outcome = none ∧ answer = none ∨
      ∃ access row, outcome = some access ∧ row ∈ (fenced w.1).records ∧
        row.key = (cx.tenant.value, record) ∧ answer = some (viewOf row access) := by
  cases outcome with
  | none => exact .inl ⟨rfl, (Except.ok.inj hok).symm⟩
  | some access =>
    obtain ⟨found, hfound, hrest⟩ := Act.result_bind.mp hok
    obtain ⟨row, hrow, hview⟩ := Act.result_bind_check.mp hrest
    have hfound := select_mapError_ok h.pool _ hfound
    cases found with
    | none => cases hrow
    | some row' =>
      cases hrow
      obtain ⟨hmem, hkey⟩ := (fenced w.1).recordsKey.find?_key.mp hfound.symm
      refine .inr ⟨access, row, rfl, hmem, hkey, ?_⟩
      rw [← Except.ok.inj hview]
      have hid : record = row.id := (congrArg Prod.snd hkey).symm
      rw [hid]
      rfl

theorem keeps_pending (cx : Context) : Keeps (fun w => fenced w.1) (app.pending cx) :=
  .bind (.mapError _ (.bind (.mapError _ (keeps_select h.pool _)) fun _ =>
    .bind (fun _ => rfl) fun _ => .check _ _)) fun _ => .mapError _ fun _ => rfl

/-- The work of a read that succeeded handed over the event of its decision, and answers with the
view of the record or, if the decision denies it, with none. -/
theorem readWork_ok {person record : String} {now : OffsetDateTime} {cx : Context}
    (hcx : context "demo" person record now = .ok cx) {w : X × σ} {answer : Option View}
    (hok : (app.readWork cx record w).result = .ok answer) :
    ∃ p, app.ReadEvidence (fenced w.1) person record now (app.readSecond w.1 w.2) answer p ∧
      (app.readWork cx record w).calls = [p] ∧
      p ∈ seen stored written (app.readWork cx record w).world := by
  obtain ⟨htenant, hkey⟩ := context_eq_ok hcx
  obtain ⟨pending, outcome, hpending, hrecord, hproject, hcalls, hseen⟩ :=
    Quiet.around (quiet_pending h cx) (fun p _ => quiet_project h cx record p.decision.outcome) hok
  obtain ⟨hdecision, hdescribes⟩ := pending_ok h hpending
  have hdb : app.audit.database.Lawful stored written := by
    rw [app.auditPool]
    exact h.pool.toLawful
  obtain ⟨p, hp, hput, hworld, hmem⟩ := seen_recordWork hdb (Result.mapError_eq_ok.mp hrecord)
  have hfenced : fenced ((app.audit.recordWork (.decision pending.entry)).mapError
      (fun _ => StatusCode.internalServerError) (app.pending cx w).world).world.1 = fenced w.1 := by
    show fenced (app.audit.recordWork _ _).world.1 = _
    rw [hworld, app.auditPool]
    exact (h.pool.enqueue_fenced _ _ _).trans (keeps_pending h cx w)
  have hproject := project_ok h hproject
  rw [hfenced, htenant] at hproject
  rw [hkey] at hdecision
  rw [hdecision] at hdescribes
  refine ⟨p, ⟨⟨cx, _, hcx, hp, hdescribes⟩, ?_⟩, hcalls.trans hput, hseen ▸ hmem⟩
  have haccess : pending.decision.outcome = (fenced w.1).access "demo" person record
      (app.readSecond w.1 w.2) := by
    rw [hdecision]
    rfl
  rw [haccess] at hproject
  obtain ⟨hnone, hanswer⟩ | ⟨access, row, hsome, hrow, hrowKey, hanswer⟩ := hproject
  · exact .inl ⟨hanswer, hnone⟩
  · obtain ⟨hrowTenant, hrowId⟩ := (Prod.mk.injEq ..).mp hrowKey
    refine .inr ⟨_, hanswer, hrowId, Tables.mem_views.mpr ⟨row, access, hrow, hrowTenant, ?_, rfl⟩⟩
    rw [hrowId]
    exact hsome

/-! ## The work of a list -/

theorem quiet_rows (cx : Context) (person : String) (now : OffsetDateTime) :
    Quiet stored written (app.rows cx person now) :=
  .bind (.check _ _) fun _ => .bind ((quiet_select h.pool _).mapError _) fun _ =>
    .bind ((quiet_select h.pool _).mapError _) fun _ => .bind (.check _ _) fun _ => .pure _

theorem quiet_assembled (cx : Context) (person : String) :
    Quiet stored written (app.assembled cx person) :=
  .bind (quiet_now h) fun _ => .bind (.check _ _) fun _ => .bind (quiet_rows h cx person _) fun _ =>
    .bind (quiet_generate h) fun _ => .bind (.check _ _) fun _ => .bind (.check _ _) fun _ =>
      .pure _

/-- The rows of a list are the views of the fenced tables. -/
theorem rows_ok {cx : Context} {person : String} {now : OffsetDateTime} {w : X × σ}
    {listed : ListView} (hok : (app.rows cx person now w).result = .ok listed) :
    listed = ⟨((fenced w.1).views cx.tenant.value person now.unixTimestamp).length,
      (fenced w.1).firstViews cx.tenant.value person now.unixTimestamp⟩ := by
  obtain ⟨lowered, hplan, hok⟩ := Act.result_bind_check.mp hok
  obtain ⟨total, htotal, hok⟩ := Act.result_bind.mp hok
  obtain ⟨rows, hrows, hok⟩ := Act.result_bind.mp hok
  obtain ⟨records, hrecords, hok⟩ := Act.result_bind_check.mp hok
  have htotal := select_mapError_ok h.pool _ htotal
  have hkept : fenced ((app.pool.select fun T => T.count person lowered).mapError
      (ExampleError.driver (ε := ε) (ν := ν)) w).world.1 = fenced w.1 :=
    keeps_select h.pool (fun T => T.count person lowered) w
  have hrows := select_mapError_ok h.pool _ hrows
  rw [hkept] at hrows
  obtain ⟨hlisted, hcount⟩ := listed_eq app.readPolicy hplan (fenced w.1) person
  rw [hrows, hlisted] at hrecords
  rw [← Except.ok.inj hok, htotal, hcount, Except.ok.inj hrecords]

/-- The work of a list that succeeded handed over the event that discloses the answer. -/
theorem listWork_ok {person : String} {now : OffsetDateTime} {cx : Context}
    (hcx : context "demo" person "list" now = .ok cx) {w : X × σ} {listed : ListView}
    (hok : (app.listWork cx person w).result = .ok listed) :
    ∃ p, app.ListEvidence (fenced w.1) person now (app.authorizer.clock w.2).1 listed p ∧
      (app.listWork cx person w).calls = [p] ∧
      p ∈ seen stored written (app.listWork cx person w).world := by
  obtain ⟨assembled, outcome, hassembled, hput, hreturn, hcalls, hseen⟩ :=
    Quiet.around (quiet_assembled h cx person) (fun a _ => .pure a.1) hok
  obtain ⟨t, ht, hrest⟩ := Act.result_bind.mp hassembled
  obtain ⟨-, -, hrest⟩ := Act.result_bind_check.mp hrest
  obtain ⟨rows, hrows, hrest⟩ := Act.result_bind.mp hrest
  obtain ⟨auditId, -, hrest⟩ := Act.result_bind.mp hrest
  obtain ⟨occurrence, hnew, hrest⟩ := Act.result_bind_check.mp hrest
  obtain ⟨p, hp, hrest⟩ := Act.result_bind_check.mp hrest
  cases Except.ok.inj hrest
  cases Except.ok.inj hreturn
  cases now_ok ht
  have hrows := rows_ok h hrows
  rw [(context_eq_ok hcx).1] at hrows
  refine ⟨p, ⟨hrows, cx, auditId, occurrence, hcx, hnew, hp⟩, hcalls, ?_⟩
  rw [show seen stored written (app.listWork cx person w).world = _ from hseen]
  exact (seen_put h.pool.toLawful (Result.mapError_eq_ok.mp hput)).2

end Lawful

/-! ## The service over the fixtures -/

namespace Fixtures

open Sample

/-- Three records of the tenant; the owner of the first is a participant in the second. -/
def several : Tables where
  records := [⟨"demo", "one", "First summary", "First shared notes", "First private notes"⟩,
    ⟨"demo", "two", "Second summary", "Second shared notes", "Second private notes"⟩,
    ⟨"demo", "three", "Third summary", "Third shared notes", "Third private notes"⟩]
  recordAccess := [⟨"demo", "owner", "one", true, true, false, false, none⟩,
    ⟨"demo", "owner", "two", true, false, true, false, none⟩,
    ⟨"demo", "owner", "three", true, false, false, false, none⟩]
  recordsKey := by decide
  accessKey := by decide

/-- A pool whose transactions find these tables. -/
def store (T : Tables) : RecordStore Memory (List PagedEvent) String String where
  toDatabase := memory
  tables tx m := (.ok T, tx, m)

def app (T : Tables) : App Memory (List PagedEvent) String String String where
  authorizer := {
    resolver := ⟨fun m => (.ok T, m), fun m => (noon, m)⟩
    auditSink := (sinkOf .null).record
    observer _ m := m
    clock m := (noon, m)
    ids m := (generatedId, m)
    digest _ := .ok ⟨Vector.replicate 32 0⟩ }
  policy := prepared
  pool := store T
  audit := sinkOf .null
  readPolicy := rfl
  auditPool := rfl

theorem lawful_app (T : Tables) :
    (app T).Lawful Memory.events id (fun _ => T) (fun _ => T) where
  pool := {
    toLawful := memory_lawful
    begin_fenced _ _ _ := rfl
    enqueue_fenced _ _ _ := rfl
    tables_fenced _ _ := rfl
    tables_found _ _ _ h := (Except.ok.inj h).symm
    tables_written _ _ := rfl
    tables_stored _ _ := rfl }
  clock _ := rfl
  ids _ := rfl

def start : Memory := ⟨[], []⟩

def ownerView : View where
  id := "one"
  access := .full
  summary := "Synthetic released summary"
  sharedNotes := some "Synthetic shared notes"
  privateNotes := some "Synthetic private notes"

def firstView : View where
  id := "one"
  access := .full
  summary := "First summary"
  sharedNotes := some "First shared notes"
  privateNotes := some "First private notes"

def secondView : View where
  id := "two"
  access := .shared
  summary := "Second summary"
  sharedNotes := some "Second shared notes"
  privateNotes := none

theorem read_second : ((app several).read "owner" "two" start).1 = .ok secondView := by
  decide +kernel

theorem read_third : ((app several).read "owner" "three" start).1 = .error .notFound := by
  decide +kernel

/-- The rows of a list over these tables. -/
theorem rows_app (T : Tables) {cx : Context} {now : OffsetDateTime} {lowered : Lowered}
    (hplan : plan prepared cx now = .ok lowered) (person : String) (w : List PagedEvent × Memory) :
    (app T).rows cx person now w =
      ⟨.ok ⟨(T.views cx.tenant.value person now.unixTimestamp).length,
        T.firstViews cx.tenant.value person now.unixTimestamp⟩, [], w⟩ := by
  obtain ⟨hlisted, hcount⟩ := listed_eq rfl hplan T person
  have hselect : ∀ {α : Type} (query : Tables → α), ((app T).pool.select query).mapError
      (ExampleError.driver (ε := String) (ν := String)) w = ⟨.ok (query T), [], w⟩ := fun _ => rfl
  have hplan' : plan (app T).policy cx now = .ok lowered := hplan
  unfold App.rows
  rw [hplan', Act.bind_check_ok, Act.bind_of_ok (hselect _), Act.bind_of_ok (hselect _), hlisted,
    Act.bind_check_ok, hcount]
  rfl

theorem views_several :
    several.views "demo" "owner" noon.unixTimestamp = [firstView, secondView] := by
  decide +kernel

theorem firstViews_several :
    several.firstViews "demo" "owner" noon.unixTimestamp = [firstView, secondView] := by
  rw [Tables.firstViews, views_several, List.mergeSort_of_pairwise (by decide)]
  rfl

/-- The context of the owner's list. -/
def listRequest : Context :=
  (context "demo" "owner" "list" noon).toOption.get (by decide +kernel)

theorem context_listRequest : context "demo" "owner" "list" noon = .ok listRequest := by
  have hget := Option.some_get (x := (context "demo" "owner" "list" noon).toOption)
    (by decide +kernel)
  exact Result.toOption_eq_some.mp hget.symm

theorem list_several :
    ((app several).list "owner" start).1 = .ok ⟨2, [firstView, secondView]⟩ := by
  have hplanned : (plan prepared listRequest noon).isOk = true := by decide +kernel
  have hdisclosed : ((app several).disclosure listRequest ⟨generatedId, noon⟩
      [firstView, secondView]).isOk = true := by decide +kernel
  obtain ⟨lowered, hplan⟩ := Result.isOk_iff.mp hplanned
  obtain ⟨p, hp⟩ := Result.isOk_iff.mp hdisclosed
  have hrows := rows_app several hplan "owner" ([], start)
  rw [(context_eq_ok context_listRequest).1, firstViews_several, views_several] at hrows
  have hnow : ∀ {e : Type}, ((app several).now : Work Memory (List PagedEvent) e _) ([], start) =
      ⟨.ok noon, [], ([], start)⟩ := rfl
  have hid : ∀ {e : Type}, ((app several).generate : Work Memory (List PagedEvent) e _)
      ([], start) = ⟨.ok generatedId, [], ([], start)⟩ := rfl
  have hvalid : listRequest.validateAt noon = .ok () := by decide +kernel
  have hnew : DecisionAuditOccurrence.new generatedId noon = .ok ⟨generatedId, noon⟩ := rfl
  have hassembled : (app several).assembled listRequest "owner" ([], start) =
      ⟨.ok (⟨2, [firstView, secondView]⟩, p), [], ([], start)⟩ := by
    unfold App.assembled
    rw [Act.bind_of_ok hnow, hvalid, Act.bind_check_ok, Act.bind_of_ok hrows, Act.bind_of_ok hid,
      hnew, Act.bind_check_ok, hp]
    rfl
  have hwork : (app several).listWork listRequest "owner" ([], start) =
      ⟨.ok ⟨2, [firstView, secondView]⟩, [p], ([p], start)⟩ := by
    unfold App.listWork
    rw [Act.bind_of_ok hassembled]
    rfl
  have hserved : (app several).listRecords "owner" start =
      (app several).pool.transact .driver ((app several).listWork listRequest "owner") start := by
    unfold App.listRecords
    dsimp only
    rw [show ((app several).authorizer.clock start).1 = noon from rfl, context_listRequest]
    rfl
  unfold App.list
  rw [hserved]
  unfold Database.transact
  rw [show (app several).pool.begin start = (.ok [], start) from rfl]
  dsimp only
  rw [hwork]
  rfl

end Fixtures

end RecordService

end Gatekeep
