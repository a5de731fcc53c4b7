import Gatekeep.RecordService.Service

/-!
# Gatekeep.RecordService.Disclosures

What the record service discloses, over any sequence of requests. Nothing is answered but what the
tables have for the person in the second in which the request's own transaction reads the clock, and
no answer is given without its event in the database (`disclosures_recorded`). A list and the reads of its records agree while the
tables and the second are the same (`list_agrees_with_reads`).
-/

namespace Gatekeep

namespace RecordService

open Traced Journal

variable {σ X ε δ ν : Type}

/-! ## Requests -/

inductive Request where
  | read (person record : String)
  | list (person : String)

inductive Answer where
  | view (view : View)
  | listing (listing : ListView)
deriving DecidableEq

/-- A read of no view is answered as not found. -/
def answerRead : Option View → Except StatusCode Answer
  | none => .error .notFound
  | some view => .ok (.view view)

namespace App

variable (app : App σ X ε δ ν)

def serve : Request → σ → Except StatusCode Answer × σ
  | .read person record, w => ((app.read person record w).1.map .view, (app.read person record w).2)
  | .list person, w => ((app.list person w).1.map .listing, (app.list person w).2)

/-- The tables that the transaction of a request finds. -/
def found (current : σ → Tables) (w : σ) : Tables :=
  current (app.pool.begin (app.authorizer.clock w).2).2

/-- The read came in when the clock was first read, and its transaction read the clock again for the
decision of the event. -/
def ReadServed (T : Tables) (person record : String) (w : σ) (view : Option View)
    (p : PagedEvent) : Prop :=
  ∃ tx w₁, app.pool.begin (app.authorizer.clock w).2 = (.ok tx, w₁) ∧
    app.ReadEvidence T person record (app.authorizer.clock w).1 (app.readSecond tx w₁) view p

/-- The list came in when the clock was first read, and its transaction began with the reading at
which it was assembled. -/
def ListServed (T : Tables) (person : String) (w : σ) (listed : ListView) (p : PagedEvent) : Prop :=
  ∃ tx w₁, app.pool.begin (app.authorizer.clock w).2 = (.ok tx, w₁) ∧
    app.ListEvidence T person (app.authorizer.clock w).1 (app.authorizer.clock w₁).1 listed p

/-- The event belongs to the answer, or to what would have been answered but for a commit that was
reported as failed. -/
def Evidence (current : σ → Tables) :
    Request → σ → Except StatusCode Answer → PagedEvent → Prop
  | .read person record, w, answer, p =>
    ∃ view, app.ReadServed (app.found current w) person record w view p ∧
      (answer = .error .internalServerError ∨ answer = answerRead view)
  | .list person, w, answer, p =>
    ∃ listed, app.ListServed (app.found current w) person w listed p ∧
      (answer = .error .internalServerError ∨ answer = .ok (.listing listed))

end App

/-- The answer tells something: it discloses records, or that none may be seen. -/
def Told : Except StatusCode Answer → Prop
  | .ok _ => True
  | .error status => status = .notFound

section Lawful

variable {stored : σ → List PagedEvent} {written : X → List PagedEvent} {current : σ → Tables}
  {fenced : X → Tables} {app : App σ X ε δ ν} (h : app.Lawful stored written current fenced)
include h

/-! ## One request -/

theorem enters_readWork (cx : Context) (record : String) :
    Enters stored written (app.readWork cx record) := by
  have hdb : app.audit.database.Lawful stored written := by
    rw [app.auditPool]
    exact h.pool.toLawful
  exact .bind (.quiet (quiet_pending h cx)) fun _ => .bind ((Enters.recordWork hdb _).mapError _)
    fun _ => .quiet (quiet_project h cx record _)

theorem enters_listWork (cx : Context) (person : String) :
    Enters stored written (app.listWork cx person) :=
  .bind (.quiet (quiet_assembled h cx person)) fun _ => .bind ((Enters.put h.pool.toLawful _).mapError _)
    fun _ => .quiet (.pure _)

theorem begin_fenced {w w₁ : σ} {tx : X}
    (hbegin : app.pool.begin (app.authorizer.clock w).2 = (.ok tx, w₁)) :
    fenced tx = app.found current w := by
  rw [h.pool.begin_fenced _ tx (congrArg Prod.fst hbegin), App.found, hbegin]

omit h in
/-- A read that fails at its work is an internal error. -/
theorem fails_readWork (cx : Context) (record : String) :
    Fails (· = StatusCode.internalServerError) (app.readWork cx record) := by
  refine .bind (.bind (.mapError _ fun _ => rfl) fun _ => .mapError _ fun _ => rfl) fun pending =>
    .bind (.mapError _ fun _ => rfl) fun _ => ?_
  cases pending.decision.outcome with
  | none => exact .pure _
  | some access =>
    refine .bind (.mapError _ fun _ => rfl) fun row => .bind (.check fun error herror => ?_)
      fun _ => .pure _
    cases row <;> cases herror
    rfl

theorem serve_read (person record : String) (w : σ) :
    (∃ status, (app.read person record w).1 = .error status ∧ status ≠ .notFound ∧
        stored (app.read person record w).2 = stored w) ∨
      ∃ p, app.Evidence current (.read person record) w ((app.read person record w).1.map .view) p ∧
        Grows PagedEvent.identity (· = p) (stored w) (stored (app.read person record w).2) ∧
        p ∈ stored (app.read person record w).2 := by
  have hclock := h.clock w
  unfold App.read
  dsimp only
  cases hcx : context "demo" person record (app.authorizer.clock w).1 with
  | error error => exact .inl ⟨_, rfl, by decide, hclock⟩
  | ok cx =>
    have hfails : ∀ error, (app.pool.transact (fun _ => .internalServerError)
        (app.readWork cx record) (app.authorizer.clock w).2).1 = .error error →
        error = .internalServerError :=
      fun error => app.pool.transact_fails (· = StatusCode.internalServerError)
        (fun _ => rfl) (fails_readWork cx record)
    have hwork : ∀ tx w₁ view, app.pool.begin (app.authorizer.clock w).2 = (.ok tx, w₁) →
        (app.readWork cx record (tx, w₁)).result = .ok view →
        ∃ p, app.ReadServed (app.found current w) person record w view p ∧
          (app.readWork cx record (tx, w₁)).calls = [p] ∧
          p ∈ seen stored written (app.readWork cx record (tx, w₁)).world := by
      intro tx w₁ view hbegin hok
      rw [← begin_fenced h hbegin]
      obtain ⟨p, hevidence, hcalls, hmem⟩ := readWork_ok h hcx (w := (tx, w₁)) hok
      exact ⟨p, ⟨tx, w₁, hbegin, hevidence⟩, hcalls, hmem⟩
    have honce := transact_once h.pool.toLawful (fun _ => StatusCode.internalServerError)
      (enters_readWork h cx record) hwork
    dsimp only
    rcases hran : app.pool.transact (fun _ => StatusCode.internalServerError)
      (app.readWork cx record) (app.authorizer.clock w).2 with ⟨answer, w'⟩
    rw [hran] at hfails honce
    rw [hclock] at honce
    obtain ⟨error, rfl, hstored⟩ | ⟨view, p, hevidence, hgrows, hmem, hanswer⟩ := honce
    · cases hfails error rfl
      exact .inl ⟨_, rfl, by decide, hstored⟩
    · refine .inr ⟨p, ⟨view, hevidence, ?_⟩, ?_⟩
      · obtain rfl | ⟨error, rfl⟩ := hanswer
        · cases view <;> exact .inr rfl
        · exact .inl rfl
      · obtain rfl | ⟨error, rfl⟩ := hanswer
        · cases view <;> exact ⟨hgrows, hmem⟩
        · exact ⟨hgrows, hmem⟩

theorem serve_list (person : String) (w : σ) :
    (∃ error, (app.listRecords person w).1 = .error error ∧
        stored (app.listRecords person w).2 = stored w) ∨
      ∃ listed p, app.ListServed (app.found current w) person w listed p ∧
        Grows PagedEvent.identity (· = p) (stored w) (stored (app.listRecords person w).2) ∧
        p ∈ stored (app.listRecords person w).2 ∧
        ((app.listRecords person w).1 = .ok listed ∨
          ∃ error, (app.listRecords person w).1 = .error error) := by
  have hclock := h.clock w
  unfold App.listRecords
  dsimp only
  cases hcx : context "demo" person "list" (app.authorizer.clock w).1 with
  | error error => exact .inl ⟨_, rfl, hclock⟩
  | ok cx =>
    have hwork : ∀ tx w₁ listed, app.pool.begin (app.authorizer.clock w).2 = (.ok tx, w₁) →
        (app.listWork cx person (tx, w₁)).result = .ok listed →
        ∃ p, app.ListServed (app.found current w) person w listed p ∧
          (app.listWork cx person (tx, w₁)).calls = [p] ∧
          p ∈ seen stored written (app.listWork cx person (tx, w₁)).world := by
      intro tx w₁ listed hbegin hok
      rw [← begin_fenced h hbegin]
      obtain ⟨p, hevidence, hcalls, hmem⟩ := listWork_ok h hcx (w := (tx, w₁)) hok
      exact ⟨p, ⟨tx, w₁, hbegin, hevidence⟩, hcalls, hmem⟩
    have honce := transact_once h.pool.toLawful ExampleError.driver (enters_listWork h cx person)
      hwork
    dsimp only
    rw [hclock] at honce
    generalize app.pool.transact _ _ _ = ran at honce ⊢
    obtain hfailed | ⟨listed, p, hevidence, hgrows, hmem, hok | ⟨error, herror⟩⟩ := honce
    · exact .inl hfailed
    · exact .inr ⟨listed, p, hevidence, hgrows, hmem, .inl hok⟩
    · exact .inr ⟨listed, p, hevidence, hgrows, hmem, .inr ⟨_, herror⟩⟩

/-- A request fails and leaves the events alone, or enters the event of its answer. -/
theorem serve_cases (request : Request) (w : σ) :
    (∃ status, (app.serve request w).1 = .error status ∧ status ≠ .notFound ∧
        stored (app.serve request w).2 = stored w) ∨
      ∃ p, app.Evidence current request w (app.serve request w).1 p ∧
        Grows PagedEvent.identity (· = p) (stored w) (stored (app.serve request w).2) ∧
        p ∈ stored (app.serve request w).2 := by
  cases request with
  | read person record =>
    obtain ⟨status, herror, hstatus, hstored⟩ | ⟨p, hevidence, hgrows, hmem⟩ :=
      serve_read h person record w
    · refine .inl ⟨status, ?_, hstatus, hstored⟩
      show (app.read person record w).1.map _ = _
      rw [herror]
      rfl
    · exact .inr ⟨p, hevidence, hgrows, hmem⟩
  | list person =>
    have hanswer : (app.serve (.list person) w).1 = ((app.listRecords person w).1.mapError
        fun _ => StatusCode.internalServerError).map .listing := rfl
    rw [hanswer]
    obtain ⟨error, herror, hstored⟩ | ⟨listed, p, hevidence, hgrows, hmem, hok⟩ :=
      serve_list h person w
    · rw [herror]
      exact .inl ⟨_, rfl, StatusCode.internalServerError_ne_notFound, hstored⟩
    · refine .inr ⟨p, ⟨listed, hevidence, ?_⟩, hgrows, hmem⟩
      obtain hok | ⟨error, herror⟩ := hok
      · rw [hok]
        exact .inr rfl
      · rw [herror]
        exact .inl rfl

/-! ## Any sequence of requests -/

/-- Over any sequence of requests, whatever fails, events are only added, each under an identity of
its own. Every answer that tells something has its event in the database exactly once: a view comes
with the event of the decision that permits it, a refusal with that of the decision that denies the
record, a list with the event that names its records and grades, and all of them are what the tables
had for the person. Every event that was not there before is that of an answer, or of a request
whose commit was reported as failed. -/
theorem disclosures_recorded (requests : List Request) (w : σ)
    (hdistinct : Distinct PagedEvent.identity (stored w)) :
    let ran := inTurn app.serve requests w
    stored w <+: stored ran.2 ∧ Distinct PagedEvent.identity (stored ran.2) ∧
    (∀ s ∈ ran.1, Told s.2.2 → ∃ p, app.Evidence current s.1 s.2.1 s.2.2 p ∧ p ∈ stored ran.2 ∧
      (stored ran.2).countP (fun q => q.identity = p.identity) = 1) ∧
    ∀ p ∈ stored ran.2, p ∈ stored w ∨ ∃ s ∈ ran.1, app.Evidence current s.1 s.2.1 s.2.2 p := by
  intro ran
  have hgrows : ∀ request w, Grows PagedEvent.identity
      (app.Evidence current request w (app.serve request w).1) (stored w)
      (stored (app.serve request w).2) := by
    intro request w
    obtain ⟨-, -, -, hstored⟩ | ⟨p, hevidence, hgrows, -⟩ := serve_cases h request w
    · rw [hstored]
      exact .refl _
    · exact hgrows.mono fun q hq => hq ▸ hevidence
  have htold : ∀ request w, Told (app.serve request w).1 →
      ∃ p, app.Evidence current request w (app.serve request w).1 p ∧
        p ∈ stored (app.serve request w).2 := by
    intro request w htold
    obtain ⟨status, herror, hstatus, -⟩ | ⟨p, hevidence, -, hmem⟩ := serve_cases h request w
    · rw [herror] at htold
      exact absurd htold hstatus
    · exact ⟨p, hevidence, hmem⟩
  have hall := grows_inTurn hgrows requests w
  have hfinal := hall.distinct hdistinct
  refine ⟨hall.isPrefix, hfinal, fun s hs hanswer => ?_, fun p hp => hall.mem_or_offered hp⟩
  obtain ⟨p, hevidence, hmem⟩ := mem_inTurn hgrows htold hs hanswer
  exact ⟨p, hevidence, hmem, hfinal.countP_key hmem⟩

end Lawful

open Fixtures in
/-- The owner reads a record, and then all of them. -/
theorem disclosures_recorded_owner :
    let ran := inTurn (app fixtures).serve [.read "owner" "one", .list "owner"] start
    ran.1.map (fun s => s.2.2) = [.ok (.view ownerView), .ok (.listing ⟨1, [ownerView]⟩)] ∧
      ∀ s ∈ ran.1, ∃ p, (app fixtures).Evidence (fun _ => fixtures) s.1 s.2.1 s.2.2 p ∧
        p ∈ ran.2.events := by
  intro ran
  have hanswers : ran.1.map (fun s => s.2.2) =
      [.ok (.view ownerView), .ok (.listing ⟨1, [ownerView]⟩)] := by decide +kernel
  refine ⟨hanswers, fun s hs => ?_⟩
  have htold : Told s.2.2 := by
    have hmem := List.mem_map_of_mem (f := fun s => s.2.2) hs
    rw [hanswers] at hmem
    simp only [List.mem_cons, List.not_mem_nil, or_false] at hmem
    rcases hmem with h | h <;> rw [h] <;> exact trivial
  obtain ⟨p, hevidence, hmem, -⟩ := (disclosures_recorded (lawful_app fixtures)
    [.read "owner" "one", .list "owner"] start List.nodup_nil).2.2.1 s hs htold
  exact ⟨p, hevidence, hmem⟩

/-! ## A list and the reads of its records -/

section Agreement

variable {stored : σ → List PagedEvent} {written : X → List PagedEvent} {current : σ → Tables}
  {fenced : X → Tables} {app : App σ X ε δ ν} (h : app.Lawful stored written current fenced)
include h

/-- An answered list shows the views of the tables. -/
theorem list_ok {person : String} {w : σ} {listing : ListView}
    (hok : (app.list person w).1 = .ok listing) :
    ∃ p, app.ListServed (app.found current w) person w listing p := by
  have hrecords : (app.listRecords person w).1 = .ok listing := Result.mapError_eq_ok.mp hok
  obtain ⟨error, herror, -⟩ | ⟨listed, p, hevidence, -, -, hlisted | ⟨error, herror⟩⟩ :=
    serve_list h person w
  · rw [hrecords] at herror
    cases herror
  · rw [hrecords] at hlisted
    cases hlisted
    exact ⟨p, hevidence⟩
  · rw [hrecords] at herror
    cases herror

/-- An answered read was decided on the tables. -/
theorem read_told {person record : String} {w : σ} (view : Option View)
    (hanswer : (app.read person record w).1.map Answer.view = answerRead view) :
    ∃ p, app.ReadServed (app.found current w) person record w view p := by
  obtain ⟨status, herror, hstatus, -⟩ | ⟨p, ⟨view', hevidence, herror | hanswer'⟩, -⟩ :=
    serve_read h person record w
  · rw [herror] at hanswer
    cases view <;> cases hanswer
    exact absurd rfl hstatus
  · rw [herror] at hanswer
    cases view <;> cases hanswer
  · rw [hanswer'] at hanswer
    cases view <;> cases view' <;> cases hanswer <;> exact ⟨p, hevidence⟩

/-- A list and a read of the same person agree, while the tables and the second are the same: a
record that is read is listed as it is read, unless the page is full and its records come first; a
record that is not found is not listed. The page is in strict order of the identities, and the total
counts beyond it. -/
theorem list_agrees_with_reads (person record : String) (w w' : σ) (second : Int)
    (hclock : ∀ e, (app.authorizer.clock e).1.unixTimestamp = second)
    (hfound : app.found current w' = app.found current w) (listing : ListView)
    (hlist : (app.list person w).1 = .ok listing) :
    (∀ view, (app.read person record w').1 = .ok view → view.id = record ∧
      (∀ v ∈ listing.records, v.id = record → v = view) ∧
      (view ∈ listing.records ∨
        listing.records.length = 20 ∧ ∀ v ∈ listing.records, v.id < record)) ∧
    ((app.read person record w').1 = .error .notFound → ∀ v ∈ listing.records, v.id ≠ record) ∧
    listing.records.Pairwise (fun a b => a.id < b.id) ∧
    listing.records.length = min listing.total 20 := by
  obtain ⟨p, tx, w₁, -, hlisting, -⟩ := list_ok h hlist
  rw [hclock] at hlisting
  set T := app.found current w
  have hdistinct := T.distinct_views "demo" person second
  subst hlisting
  refine ⟨fun view hview => ?_, fun hdenied v hv hid => ?_, T.pairwise_firstViews _ _ _, ?_⟩
  · obtain ⟨q, tx', w₂, -, -, ⟨hnone, -⟩ | ⟨view', hsome, hid, hmem⟩⟩ :=
      read_told h (some view) (by rw [hview]; rfl)
    · cases hnone
    · cases hsome
      rw [hfound, App.readSecond, hclock] at hmem
      refine ⟨hid, fun v hv hvid => ?_, ?_⟩
      · exact hdistinct.eq_of_key (T.firstViews_subset hv) hmem (hvid.trans hid.symm)
      · rw [← hid]
        exact T.mem_firstViews_or hmem
  · obtain ⟨q, tx', w₂, -, -, ⟨-, hnone⟩ | ⟨view', hsome, -⟩⟩ :=
      read_told h none (by rw [hdenied]; rfl)
    · rw [hfound, App.readSecond, hclock] at hnone
      obtain ⟨row, access, -, -, haccess, hview⟩ := Tables.mem_views.mp (T.firstViews_subset hv)
      rw [← hview] at hid
      rw [show row.id = record from hid, hnone] at haccess
      cases haccess
    · cases hsome
  · rw [Tables.firstViews, List.length_take, List.length_mergeSort, min_comm]

end Agreement

open Fixtures in
/-- Two of three records are listed, each as it is read; the third one is not found. -/
theorem list_agrees_with_reads_owner :
    ((app several).list "owner" start).1 = .ok ⟨2, [firstView, secondView]⟩ ∧
      ((app several).read "owner" "two" start).1 = .ok secondView ∧
      ((app several).read "owner" "three" start).1 = .error .notFound ∧
      secondView.id = "two" ∧ (∀ v ∈ [firstView, secondView], v.id = "two" → v = secondView) ∧
      (∀ v ∈ [firstView, secondView], v.id ≠ "three") ∧
      [firstView, secondView].Pairwise (fun a b => a.id < b.id) := by
  obtain ⟨hview, -, hordered, -⟩ := list_agrees_with_reads (lawful_app several) "owner" "two" start
    start Sample.noon.unixTimestamp (fun _ => rfl) rfl _ list_several
  obtain ⟨-, hdenied, -⟩ := list_agrees_with_reads (lawful_app several) "owner" "three" start start
    Sample.noon.unixTimestamp (fun _ => rfl) rfl _ list_several
  obtain ⟨hid, hsame, -⟩ := hview secondView read_second
  exact ⟨list_several, read_second, read_third, hid, hsame, hdenied read_third, hordered⟩

end RecordService

end Gatekeep
