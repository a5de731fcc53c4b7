import Gatekeep.Sql.Sink
import Gatekeep.Support.Traced

/-!
# Gatekeep.Sql.Transaction

Transactions whose work is the application's. `Database.transact` begins one, does the work, and
commits if the work succeeds; an error of the work rolls back. The sinks of `Gatekeep.Sql.Sink`
record in such a transaction when the application owns it (`recordWork`).

Work is a computation over the transaction and the world whose log has the events it handed to the
database. `Enters` says what honest work does with them: the committed events stay, and the
transaction adds handed events under identities of their own; `Quiet` work hands over none.
`transact_cases` is what follows for the whole transaction.
-/

namespace Gatekeep

open Traced Journal

variable {σ X ε δ ν e e' α β γ : Type}

/-- The work of a transaction, with the events it hands to the database. -/
abbrev Work (σ X e α : Type) := Act (X × σ) PagedEvent e α

namespace Work

/-- A computation outside of the database; it enters nothing. -/
def lift {κ : Type} (m : Act σ κ e α) : Work σ X e α := fun w =>
  ⟨(m w.2).result, [], (w.1, (m w.2).world)⟩

end Work

namespace Database

variable (db : Database σ X ε δ)

def put (p : PagedEvent) : Work σ X ε EnqueueOutcome := fun w =>
  match db.enqueue p w.1 w.2 with
  | (answer, tx, w) => ⟨answer, [p], (tx, w)⟩

def transact (onDriver : δ → e) (work : Work σ X e α) (w : σ) : Except e α × σ :=
  match db.begin w with
  | (.error error, w) => (.error (onDriver error), w)
  | (.ok tx, w) =>
    let ran := work (tx, w)
    match ran.result with
    | .error error => (.error error, db.rollback ran.world.1 ran.world.2)
    | .ok a =>
      match db.commit ran.world.1 ran.world.2 with
      | (.error error, w) => (.error (onDriver error), w)
      | (.ok (), w) => (.ok a, w)

end Database

/-- Record in a transaction owned by the caller. -/
def DovecoteAudit.recordWork (sink : DovecoteAudit σ X ε δ ν) (item : AuditItem) :
    Work σ X (DovecoteAuditError ε δ ν) EnqueueOutcome := do
  let p ← Act.check id (sink.eventOf item)
  (sink.database.put p).mapError .dovecote

/-- A transaction fails as the driver or its work does. -/
theorem Database.transact_fails (db : Database σ X ε δ) (bad : e → Prop) {onDriver : δ → e}
    (hdriver : ∀ error, bad (onDriver error)) {work : Work σ X e α} (hwork : Fails bad work) {w : σ}
    {error : e} (h : (db.transact onDriver work w).1 = .error error) : bad error := by
  revert h
  unfold Database.transact
  rcases db.begin w with ⟨failed | tx, w₁⟩
  · rintro ⟨⟩
    exact hdriver failed
  dsimp only
  cases hresult : (work (tx, w₁)).result with
  | error failed =>
    rintro ⟨⟩
    exact hwork _ _ hresult
  | ok a =>
    dsimp only
    rcases db.commit (work (tx, w₁)).world.1 (work (tx, w₁)).world.2 with ⟨failed | ⟨⟩, w₂⟩
    · rintro ⟨⟩
      exact hdriver failed
    · rintro ⟨⟩

/-! ## Honest work -/

section Lawful

variable {stored : σ → List PagedEvent} {written : X → List PagedEvent}

/-- The events a transaction sees: the committed ones and its own. -/
def seen (stored : σ → List PagedEvent) (written : X → List PagedEvent) (w : X × σ) :
    List PagedEvent := stored w.2 ++ written w.1

/-- The work hands nothing over and leaves the events alone. -/
structure Quiet (stored : σ → List PagedEvent) (written : X → List PagedEvent)
    (work : Work σ X e α) : Prop where
  calls : ∀ w, (work w).calls = []
  kept : ∀ w, stored (work w).world.2 = stored w.2
  wrote : ∀ w, written (work w).world.1 = written w.1

/-- The work keeps the committed events and, if it succeeds, enters events it handed over, each under
an identity of its own. -/
structure Enters (stored : σ → List PagedEvent) (written : X → List PagedEvent)
    (work : Work σ X e α) : Prop where
  kept : ∀ w, stored (work w).world.2 = stored w.2
  grows : ∀ w a, (work w).result = .ok a → Grows PagedEvent.identity (· ∈ (work w).calls)
    (seen stored written w) (seen stored written (work w).world)

namespace Quiet

theorem pure (a : α) : Quiet stored written (Pure.pure a : Work σ X e α) :=
  ⟨fun _ => rfl, fun _ => rfl, fun _ => rfl⟩

theorem check (f : e' → e) (x : Except e' α) :
    Quiet stored written (Act.check f x : Work σ X e α) :=
  ⟨fun _ => rfl, fun _ => rfl, fun _ => rfl⟩

theorem lift {κ : Type} {m : Act σ κ e α} (hm : Keeps stored m) :
    Quiet stored written (Work.lift m : Work σ X e α) :=
  ⟨fun _ => rfl, fun w => hm w.2, fun _ => rfl⟩

theorem bind {m : Work σ X e α} {f : α → Work σ X e β} (hm : Quiet stored written m)
    (hf : ∀ a, Quiet stored written (f a)) : Quiet stored written (m >>= f) := by
  constructor <;> intro w <;>
    obtain ⟨error, -, hrun⟩ | ⟨a, -, hrun⟩ := Act.bind_cases m f w <;> rw [hrun]
  · exact hm.calls w
  · show (m w).calls ++ _ = []
    rw [hm.calls, (hf a).calls]
    rfl
  · exact hm.kept w
  · exact ((hf a).kept _).trans (hm.kept w)
  · exact hm.wrote w
  · exact ((hf a).wrote _).trans (hm.wrote w)

theorem mapError {m : Work σ X e α} (f : e → e') (hm : Quiet stored written m) :
    Quiet stored written (m.mapError f) := ⟨hm.calls, hm.kept, hm.wrote⟩

theorem seen_eq {m : Work σ X e α} (hm : Quiet stored written m) (w : X × σ) :
    seen stored written (m w).world = seen stored written w := by
  rw [seen, hm.kept, hm.wrote, seen]

/-- Work between quiet work is all that is done. -/
theorem around {m : Work σ X e α} {f : α → Work σ X e γ} {rest : α → γ → Work σ X e β}
    (hm : Quiet stored written m) (hrest : ∀ a c, Quiet stored written (rest a c)) {w : X × σ}
    {b : β} (hok : ((m >>= fun a => f a >>= rest a) w).result = .ok b) :
    ∃ a c, (m w).result = .ok a ∧ (f a (m w).world).result = .ok c ∧
      (rest a c (f a (m w).world).world).result = .ok b ∧
      ((m >>= fun a => f a >>= rest a) w).calls = (f a (m w).world).calls ∧
      seen stored written ((m >>= fun a => f a >>= rest a) w).world =
        seen stored written (f a (m w).world).world := by
  obtain ⟨a, ha, hrun, hok⟩ := Act.bind_of_result hok
  obtain ⟨c, hc, hrun', hok⟩ := Act.bind_of_result hok
  refine ⟨a, c, ha, hc, hok, ?_, ?_⟩
  · rw [hrun, hrun']
    simp only [Ran.after, hm.calls, (hrest a c).calls, List.nil_append, List.append_nil]
  · rw [hrun, hrun']
    exact (hrest a c).seen_eq _

end Quiet

namespace Enters

theorem quiet {m : Work σ X e α} (hm : Quiet stored written m) : Enters stored written m := by
  refine ⟨hm.kept, fun w a _ => ?_⟩
  rw [hm.seen_eq]
  exact .refl _

theorem bind {m : Work σ X e α} {f : α → Work σ X e β} (hm : Enters stored written m)
    (hf : ∀ a, Enters stored written (f a)) : Enters stored written (m >>= f) := by
  constructor
  · intro w
    obtain ⟨error, -, hrun⟩ | ⟨a, -, hrun⟩ := Act.bind_cases m f w
    · rw [hrun]
      exact hm.kept w
    · rw [hrun]
      exact ((hf a).kept _).trans (hm.kept w)
  · intro w b hb
    obtain ⟨a, ha, hrun, hb⟩ := Act.bind_of_result hb
    rw [hrun]
    exact ((hm.grows w a ha).mono fun _ h => List.mem_append_left _ h).trans
      (((hf a).grows _ b hb).mono fun _ h => List.mem_append_right _ h)

theorem mapError {m : Work σ X e α} (f : e → e') (hm : Enters stored written m) :
    Enters stored written (m.mapError f) :=
  ⟨hm.kept, fun w a h => hm.grows w a (Result.mapError_eq_ok.mp h)⟩

end Enters

section Put

variable {db : Database σ X ε δ} (h : db.Lawful stored written)
include h

/-- An event that was put is seen, and was entered if it was not there. -/
theorem seen_put {p : PagedEvent} {w : X × σ} {outcome : EnqueueOutcome}
    (hok : (db.put p w).result = .ok outcome) :
    Grows PagedEvent.identity (· = p) (seen stored written w)
        (seen stored written (db.put p w).world) ∧
      p ∈ seen stored written (db.put p w).world := by
  have hstored := h.enqueue_stored p w.1 w.2
  have hnew := h.enqueued p w.1 w.2
  have hold := h.alreadyEnqueued p w.1 w.2
  unfold Database.put seen at *
  rcases hrun : db.enqueue p w.1 w.2 with ⟨answer, tx, world⟩
  rw [hrun] at hstored hnew hold hok
  dsimp only at hstored hnew hold hok ⊢
  subst hok
  rw [hstored]
  cases outcome with
  | alreadyEnqueued =>
    obtain ⟨hmem, hwritten⟩ := hold rfl
    rw [hwritten]
    exact ⟨.refl _, hmem⟩
  | enqueued =>
    obtain ⟨hfree, hwritten⟩ := hnew rfl
    rw [hwritten, ← List.append_assoc]
    exact ⟨.single rfl hfree, by simp⟩

theorem Enters.put (p : PagedEvent) : Enters stored written (db.put p) := by
  refine ⟨fun w => h.enqueue_stored p w.1 w.2, fun w outcome hok => ?_⟩
  refine (seen_put h hok).1.mono fun q hq => ?_
  rw [hq]
  exact List.mem_singleton.mpr rfl

end Put

section Record

variable {sink : DovecoteAudit σ X ε δ ν} (h : sink.database.Lawful stored written)
  {item : AuditItem}
include h

theorem Enters.recordWork (item : AuditItem) : Enters stored written (sink.recordWork item) :=
  .bind (.quiet (.check _ _)) fun p => (Enters.put h p).mapError _

/-- A record that succeeded handed over the event of the item, which is seen. -/
theorem seen_recordWork {w : X × σ} {outcome : EnqueueOutcome}
    (hok : (sink.recordWork item w).result = .ok outcome) :
    ∃ p, sink.eventOf item = .ok p ∧ (sink.recordWork item w).calls = [p] ∧
      (sink.recordWork item w).world = (sink.database.put p w).world ∧
      p ∈ seen stored written (sink.recordWork item w).world := by
  unfold DovecoteAudit.recordWork at hok ⊢
  cases hp : sink.eventOf item with
  | error error =>
    rw [hp] at hok
    cases hok
  | ok p =>
    rw [hp] at hok
    have hput : (sink.database.put p w).result = .ok outcome := Result.mapError_eq_ok.mp hok
    exact ⟨p, rfl, rfl, rfl, (seen_put h hput).2⟩

end Record

/-! ## The whole transaction -/

/-- A transaction fails and leaves the committed events as they were, or its work is done and all of
it is committed at once; then only a failed commit may still report an error. -/
theorem transact_cases {db : Database σ X ε δ} (h : db.Lawful stored written) {onDriver : δ → e}
    {work : Work σ X e α} (hwork : Enters stored written work) (w : σ) :
    (∃ error, (db.transact onDriver work w).1 = .error error ∧
        stored (db.transact onDriver work w).2 = stored w) ∨
      ∃ tx w₁ a, db.begin w = (.ok tx, w₁) ∧ (work (tx, w₁)).result = .ok a ∧
        Grows PagedEvent.identity (· ∈ (work (tx, w₁)).calls) (stored w)
          (stored (db.transact onDriver work w).2) ∧
        stored (db.transact onDriver work w).2 =
          seen stored written (work (tx, w₁)).world ∧
        ((db.transact onDriver work w).1 = .ok a ∨
          ∃ error, (db.transact onDriver work w).1 = .error (onDriver error)) := by
  unfold Database.transact
  have hbegin := h.begin_stored w
  have hnew := h.begin_written w
  rcases hb : db.begin w with ⟨error | tx, w₁⟩ <;> rw [hb] at hbegin hnew
  · exact .inl ⟨_, rfl, hbegin⟩
  have hempty : seen stored written (tx, w₁) = stored w := by
    rw [seen, hnew tx rfl, List.append_nil]
    exact hbegin
  have hkept : stored (work (tx, w₁)).world.2 = stored w := (hwork.kept (tx, w₁)).trans hbegin
  have hgrows := hwork.grows (tx, w₁)
  rw [hempty] at hgrows
  dsimp only
  cases hresult : (work (tx, w₁)).result with
  | error error => exact .inl ⟨error, rfl, (h.rolledBack _ _).trans hkept⟩
  | ok a =>
    have hcommitted := h.committed (work (tx, w₁)).world.1 (work (tx, w₁)).world.2
    have huncertain := h.uncertain (work (tx, w₁)).world.1 (work (tx, w₁)).world.2
    dsimp only
    rcases hc : db.commit (work (tx, w₁)).world.1 (work (tx, w₁)).world.2 with
      ⟨error | ⟨⟩, w₂⟩ <;> rw [hc] at hcommitted huncertain
    · rcases huncertain error rfl with hlost | hlanded
      · exact .inl ⟨_, rfl, hlost.trans hkept⟩
      · have hseen : stored w₂ = seen stored written (work (tx, w₁)).world := hlanded
        refine .inr ⟨tx, w₁, a, rfl, hresult, ?_, hseen, .inr ⟨error, rfl⟩⟩
        rw [hseen]
        exact hgrows a hresult
    · have hseen : stored w₂ = seen stored written (work (tx, w₁)).world := hcommitted rfl
      refine .inr ⟨tx, w₁, a, rfl, hresult, ?_, hseen, .inl rfl⟩
      rw [hseen]
      exact hgrows a hresult

/-- The same for work that hands over one event and puts it. -/
theorem transact_once {db : Database σ X ε δ} (h : db.Lawful stored written) (onDriver : δ → e)
    {work : Work σ X e α} (hwork : Enters stored written work) {w : σ} {Q : α → PagedEvent → Prop}
    (honce : ∀ tx w₁ a, db.begin w = (.ok tx, w₁) → (work (tx, w₁)).result = .ok a →
      ∃ p, Q a p ∧ (work (tx, w₁)).calls = [p] ∧ p ∈ seen stored written (work (tx, w₁)).world) :
    (∃ error, (db.transact onDriver work w).1 = .error error ∧
        stored (db.transact onDriver work w).2 = stored w) ∨
      ∃ a p, Q a p ∧
        Grows PagedEvent.identity (· = p) (stored w) (stored (db.transact onDriver work w).2) ∧
        p ∈ stored (db.transact onDriver work w).2 ∧
        ((db.transact onDriver work w).1 = .ok a ∨
          ∃ error, (db.transact onDriver work w).1 = .error (onDriver error)) := by
  obtain hfailed | ⟨tx, w₁, a, hbegin, hok, hgrows, hseen, hanswer⟩ :=
    transact_cases h hwork w
  · exact .inl hfailed
  · obtain ⟨p, hQ, hcalls, hmem⟩ := honce tx w₁ a hbegin hok
    refine .inr ⟨a, p, hQ, hgrows.mono fun q hq => ?_, hseen ▸ hmem, hanswer⟩
    rw [hcalls] at hq
    exact List.mem_singleton.mp hq

end Lawful

end Gatekeep
