import Mathlib

/-!
# Gatekeep.Support.Traced

Computations that act on an outside world, may fail, and leave a record of the calls they made. The
world is an arbitrary state: whatever is outside answers a call as it likes and may change with
every call.

`Act` is the monad: `call` asks the outside, `check` is a step that only computes, `caught` turns
the result of a computation into a value. `bind_of_ok` and `bind_of_error` run a computation
step by step, `bind_cases` takes a run apart. `Reads view` are the computations that see of the world
only what `view` shows of it, `Logs view` those that change what it shows by logged calls only,
`Keeps view` those that leave it alone, `Refuses bad` those that fail once they have made a `bad`
call, `Fails bad` those that fail with `bad` errors only, `Only good` those that make no other than
`good` calls; all of them compose. So do two relations between computations: `Matches`, both succeed
in the same way, and `Erases`, one does what the other does and more.
-/

namespace Traced

/-- What a computation did: its result, the calls it made in order, and the world it left. -/
@[ext] structure Ran (σ κ α : Type) where
  result : α
  calls : List κ
  world : σ

/-- The same run with calls before it. -/
def Ran.after {σ κ α : Type} (calls : List κ) (r : Ran σ κ α) : Ran σ κ α :=
  { r with calls := calls ++ r.calls }

theorem Ran.after_after {σ κ α : Type} (c d : List κ) (r : Ran σ κ α) :
    (r.after d).after c = r.after (c ++ d) := by
  simp [Ran.after]

/-- A computation over the world `σ` that makes calls `κ` and may fail with `ε`. -/
def Act (σ κ ε α : Type) := σ → Ran σ κ (Except ε α)

namespace Act

variable {σ κ ε ε' α β : Type}

def bind (m : Act σ κ ε α) (f : α → Act σ κ ε β) : Act σ κ ε β := fun w =>
  match (m w).result with
  | .ok a => (f a (m w).world).after (m w).calls
  | .error e => ⟨.error e, (m w).calls, (m w).world⟩

instance : Monad (Act σ κ ε) where
  pure a := fun w => ⟨.ok a, [], w⟩
  bind := bind

instance : MonadExceptOf ε (Act σ κ ε) where
  throw e := fun w => ⟨.error e, [], w⟩
  tryCatch m handle := fun w =>
    match (m w).result with
    | .ok _ => m w
    | .error e => (handle e (m w).world).after (m w).calls

/-- A step that only computes; its error is converted. -/
def check (f : ε' → ε) (x : Except ε' α) : Act σ κ ε α := fun w => ⟨x.mapError f, [], w⟩

/-- Ask the outside; the call is logged with its answer. -/
def call (step : σ → α × σ) (log : α → κ) : Act σ κ ε α := fun w =>
  ⟨.ok (step w).1, [log (step w).1], (step w).2⟩

/-- The result of a computation as a value, which never fails. -/
def caught (m : Act σ κ ε α) : Act σ κ ε' (Except ε α) := fun w =>
  ⟨.ok (m w).result, (m w).calls, (m w).world⟩

def mapError (f : ε → ε') (m : Act σ κ ε α) : Act σ κ ε' α := fun w =>
  ⟨(m w).result.mapError f, (m w).calls, (m w).world⟩

/-! ## Running step by step -/

theorem pure_apply (a : α) (w : σ) : (pure a : Act σ κ ε α) w = ⟨.ok a, [], w⟩ := rfl

theorem bind_of_ok {m : Act σ κ ε α} {f : α → Act σ κ ε β} {w w' : σ} {a : α} {calls : List κ}
    (h : m w = ⟨.ok a, calls, w'⟩) : (m >>= f) w = (f a w').after calls := by
  show bind m f w = _
  simp only [bind, h]

theorem bind_of_error {m : Act σ κ ε α} {f : α → Act σ κ ε β} {w w' : σ} {e : ε} {calls : List κ}
    (h : m w = ⟨.error e, calls, w'⟩) : (m >>= f) w = ⟨.error e, calls, w'⟩ := by
  show bind m f w = _
  simp only [bind, h]

theorem bind_call (step : σ → α × σ) (log : α → κ) (f : α → Act σ κ ε β) (w : σ) :
    (call step log >>= f) w = (f (step w).1 (step w).2).after [log (step w).1] := rfl

theorem bind_check_ok (g : ε' → ε) (a : α) (f : α → Act σ κ ε β) (w : σ) :
    (check g (.ok a) >>= f) w = f a w := rfl

theorem bind_check_error (g : ε' → ε) (e : ε') (f : α → Act σ κ ε β) (w : σ) :
    (check g (.error e) >>= f) w = ⟨.error (g e), [], w⟩ := rfl

/-- A run of two steps stops at the first or goes through both. -/
theorem bind_cases (m : Act σ κ ε α) (f : α → Act σ κ ε β) (w : σ) :
    (∃ e, (m w).result = .error e ∧ (m >>= f) w = ⟨.error e, (m w).calls, (m w).world⟩) ∨
      ∃ a, (m w).result = .ok a ∧ (m >>= f) w = (f a (m w).world).after (m w).calls := by
  cases h : (m w).result with
  | error e => exact .inl ⟨e, rfl, bind_of_error (Ran.ext h rfl rfl)⟩
  | ok a => exact .inr ⟨a, rfl, bind_of_ok (Ran.ext h rfl rfl)⟩

/-- A step that only computes, as the first of two. -/
theorem check_cases (g : ε' → ε) (x : Except ε' α) (f : α → Act σ κ ε β) (w : σ) :
    (∃ e, x = .error e ∧ (check g x >>= f) w = ⟨.error (g e), [], w⟩) ∨
      ∃ a, x = .ok a ∧ (check g x >>= f) w = f a w := by
  cases x with
  | error e => exact .inl ⟨e, rfl, rfl⟩
  | ok a => exact .inr ⟨a, rfl, rfl⟩

/-! What a run that succeeded returned at each step. -/

theorem result_bind {m : Act σ κ ε α} {f : α → Act σ κ ε β} {w : σ} {b : β} :
    ((m >>= f) w).result = .ok b ↔
      ∃ a, (m w).result = .ok a ∧ (f a (m w).world).result = .ok b := by
  obtain ⟨e, he, hrun⟩ | ⟨a, ha, hrun⟩ := bind_cases m f w
  · rw [hrun, he]
    exact ⟨fun h => (nomatch h), fun ⟨_, h, _⟩ => (nomatch h)⟩
  · rw [hrun, ha]
    exact ⟨fun h => ⟨a, rfl, h⟩, fun ⟨_, h, hb⟩ => by cases h; exact hb⟩

/-- A run of two steps that succeeded went through both. -/
theorem bind_of_result {m : Act σ κ ε α} {f : α → Act σ κ ε β} {w : σ} {b : β}
    (h : ((m >>= f) w).result = .ok b) : ∃ a, (m w).result = .ok a ∧
      (m >>= f) w = (f a (m w).world).after (m w).calls ∧ (f a (m w).world).result = .ok b := by
  obtain ⟨e, -, hrun⟩ | ⟨a, ha, hrun⟩ := bind_cases m f w
  · rw [hrun] at h
    cases h
  · refine ⟨a, ha, hrun, ?_⟩
    rwa [hrun] at h

theorem result_check {g : ε' → ε} {x : Except ε' α} {w : σ} {a : α} :
    (check g x w : Ran σ κ (Except ε α)).result = .ok a ↔ x = .ok a := by
  show x.mapError g = .ok a ↔ x = .ok a
  cases x <;> simp [Except.mapError]

theorem result_bind_check {g : ε' → ε} {x : Except ε' α} {f : α → Act σ κ ε β} {w : σ} {b : β} :
    ((check g x >>= f) w).result = .ok b ↔ ∃ a, x = .ok a ∧ (f a w).result = .ok b := by
  rw [result_bind]
  simp only [result_check]
  rfl

/-! Where a run that failed did so. -/

theorem result_bind_error {m : Act σ κ ε α} {f : α → Act σ κ ε β} {w : σ} {e : ε} :
    ((m >>= f) w).result = .error e ↔ (m w).result = .error e ∨
      ∃ a, (m w).result = .ok a ∧ (f a (m w).world).result = .error e := by
  obtain ⟨e', he, hrun⟩ | ⟨a, ha, hrun⟩ := bind_cases m f w
  · rw [hrun, he]
    simp
  · rw [hrun, ha]
    simp [Ran.after]

theorem result_check_error {g : ε' → ε} {x : Except ε' α} {w : σ} {e : ε} :
    (check g x w : Ran σ κ (Except ε α)).result = .error e ↔ ∃ e', x = .error e' ∧ g e' = e := by
  show x.mapError g = .error e ↔ _
  cases x <;> simp [Except.mapError]

theorem result_bind_check_error {g : ε' → ε} {x : Except ε' α} {f : α → Act σ κ ε β} {w : σ}
    {e : ε} : ((check g x >>= f) w).result = .error e ↔ (∃ e', x = .error e' ∧ g e' = e) ∨
      ∃ a, x = .ok a ∧ (f a w).result = .error e := by
  rw [result_bind_error, result_check_error]
  simp only [result_check]
  rfl

/-! ## One after the other -/

/-- Run a computation for each item, whatever becomes of the earlier ones. -/
def each (step : α → Act σ κ ε β) : List α → σ → List (Ran σ κ (Except ε β))
  | [], _ => []
  | x :: xs, w => step x w :: each step xs (step x w).world

/-- The world after all of them. -/
def afterEach (step : α → Act σ κ ε β) (xs : List α) (w : σ) : σ :=
  xs.foldl (fun w x => (step x w).world) w

theorem length_each (step : α → Act σ κ ε β) (xs : List α) (w : σ) :
    (each step xs w).length = xs.length := by
  induction xs generalizing w with
  | nil => rfl
  | cons x xs ih => simp [each, ih]

theorem forall₂_each (step : α → Act σ κ ε β) (xs : List α) (w : σ) :
    List.Forall₂ (fun x r => ∃ w', r = step x w') xs (each step xs w) := by
  induction xs generalizing w with
  | nil => exact .nil
  | cons x xs ih => exact .cons ⟨w, rfl⟩ (ih _)

end Act

/-! ## Computations that see a part of the world -/

/-- Two runs that cannot be told apart by their results, their calls and the visible part of the
worlds they left. -/
structure Ran.Agree {σ τ κ α : Type} (view : σ → τ) (r r' : Ran σ κ α) : Prop where
  result : r.result = r'.result
  calls : r.calls = r'.calls
  world : view r.world = view r'.world

/-- What a computation does depends only on the visible part of the world. -/
def Reads {σ τ κ ε α : Type} (view : σ → τ) (m : Act σ κ ε α) : Prop :=
  ∀ w w', view w = view w' → (m w).Agree view (m w')

namespace Reads

variable {σ τ κ ε ε' α β : Type} {view : σ → τ}

theorem pure (a : α) : Reads view (Pure.pure a : Act σ κ ε α) := fun _ _ h => ⟨rfl, rfl, h⟩

theorem check (f : ε' → ε) (x : Except ε' α) : Reads view (Act.check f x : Act σ κ ε α) :=
  fun _ _ h => ⟨rfl, rfl, h⟩

theorem call {step : σ → α × σ} {log : α → κ}
    (h : ∀ w w', view w = view w' →
      (step w).1 = (step w').1 ∧ view (step w).2 = view (step w').2) :
    Reads view (Act.call step log : Act σ κ ε α) := by
  intro w w' hw
  obtain ⟨hanswer, hview⟩ := h w w' hw
  exact ⟨congrArg Except.ok hanswer, congrArg (fun a => [log a]) hanswer, hview⟩

theorem bind {m : Act σ κ ε α} {f : α → Act σ κ ε β} (hm : Reads view m)
    (hf : ∀ a, Reads view (f a)) : Reads view (m >>= f) := by
  intro w w' hw
  have hfirst := hm w w' hw
  obtain ⟨e, he, hrun⟩ | ⟨a, ha, hrun⟩ := Act.bind_cases m f w
  · have hrun' : (m >>= f) w' = ⟨.error e, (m w').calls, (m w').world⟩ :=
      Act.bind_of_error (Ran.ext (hfirst.result ▸ he) rfl rfl)
    rw [hrun, hrun']
    exact ⟨rfl, hfirst.calls, hfirst.world⟩
  · have hrun' : (m >>= f) w' = (f a (m w').world).after (m w').calls :=
      Act.bind_of_ok (Ran.ext (hfirst.result ▸ ha) rfl rfl)
    have hsecond := hf a _ _ hfirst.world
    rw [hrun, hrun']
    refine ⟨hsecond.result, ?_, hsecond.world⟩
    simp only [Ran.after, hfirst.calls, hsecond.calls]

theorem mapError {m : Act σ κ ε α} (f : ε → ε') (hm : Reads view m) :
    Reads view (m.mapError f) := by
  intro w w' hw
  have h := hm w w' hw
  exact ⟨congrArg (Except.mapError f) h.result, h.calls, h.world⟩

end Reads

/-! ## Parts of the world that are left alone -/

/-- The computation leaves the visible part of the world as it was. -/
def Keeps {σ τ κ ε α : Type} (view : σ → τ) (m : Act σ κ ε α) : Prop :=
  ∀ w, view (m w).world = view w

namespace Keeps

variable {σ τ κ ε ε' α β : Type} {view : σ → τ}

theorem pure (a : α) : Keeps view (Pure.pure a : Act σ κ ε α) := fun _ => rfl

theorem check (f : ε' → ε) (x : Except ε' α) : Keeps view (Act.check f x : Act σ κ ε α) :=
  fun _ => rfl

theorem call {step : σ → α × σ} {log : α → κ} (h : ∀ w, view (step w).2 = view w) :
    Keeps view (Act.call step log : Act σ κ ε α) := h

theorem bind {m : Act σ κ ε α} {f : α → Act σ κ ε β} (hm : Keeps view m)
    (hf : ∀ a, Keeps view (f a)) : Keeps view (m >>= f) := by
  intro w
  obtain ⟨e, -, hrun⟩ | ⟨a, -, hrun⟩ := Act.bind_cases m f w
  · rw [hrun]
    exact hm w
  · rw [hrun]
    exact (hf a _).trans (hm w)

theorem mapError {m : Act σ κ ε α} (f : ε → ε') (hm : Keeps view m) : Keeps view (m.mapError f) :=
  hm

theorem caught {m : Act σ κ ε α} (hm : Keeps view m) :
    Keeps view (m.caught : Act σ κ ε' (Except ε α)) := hm

end Keeps

/-! ## Parts of the world that follow the log -/

/-- The visible part of the world is what the logged calls make of it. -/
def Logs {σ τ κ ε α : Type} (view : σ → τ) (apply : κ → τ → τ) (m : Act σ κ ε α) : Prop :=
  ∀ w, view (m w).world = (m w).calls.foldl (fun s c => apply c s) (view w)

namespace Logs

variable {σ τ κ ε ε' α β : Type} {view : σ → τ} {apply : κ → τ → τ}

theorem pure (a : α) : Logs view apply (Pure.pure a : Act σ κ ε α) := fun _ => rfl

theorem check (f : ε' → ε) (x : Except ε' α) : Logs view apply (Act.check f x : Act σ κ ε α) :=
  fun _ => rfl

theorem call {step : σ → α × σ} {log : α → κ}
    (h : ∀ w, view (step w).2 = apply (log (step w).1) (view w)) :
    Logs view apply (Act.call step log : Act σ κ ε α) := h

theorem bind {m : Act σ κ ε α} {f : α → Act σ κ ε β} (hm : Logs view apply m)
    (hf : ∀ a, Logs view apply (f a)) : Logs view apply (m >>= f) := by
  intro w
  obtain ⟨e, -, hrun⟩ | ⟨a, -, hrun⟩ := Act.bind_cases m f w
  · rw [hrun]
    exact hm w
  · rw [hrun]
    show view (f a (m w).world).world = ((m w).calls ++ (f a (m w).world).calls).foldl _ _
    rw [List.foldl_append, ← hm w, hf a]

theorem mapError {m : Act σ κ ε α} (f : ε → ε') (hm : Logs view apply m) :
    Logs view apply (m.mapError f) := hm

end Logs

/-! ## Parts of the world that move with the log -/

/-- A way from one state to another on which each call moves the state as it may. -/
inductive Path {τ κ : Type} (move : κ → τ → τ → Prop) : List κ → τ → τ → Prop where
  | nil (s : τ) : Path move [] s s
  | cons {c : κ} {cs : List κ} {s s' s'' : τ} :
      move c s s' → Path move cs s' s'' → Path move (c :: cs) s s''

namespace Path

variable {τ κ : Type} {move : κ → τ → τ → Prop} {cs ds : List κ} {s s' s'' : τ} {c : κ}

theorem append (h : Path move cs s s') (h' : Path move ds s' s'') : Path move (cs ++ ds) s s'' := by
  induction h with
  | nil => exact h'
  | cons hmove _ ih => exact .cons hmove (ih h')

theorem single (h : move c s s') : Path move [c] s s' := .cons h (.nil s')

theorem nil_iff : Path move [] s s' ↔ s' = s := by
  constructor
  · intro h
    cases h
    rfl
  · rintro rfl
    exact .nil _

theorem cons_iff : Path move (c :: cs) s s'' ↔ ∃ s', move c s s' ∧ Path move cs s' s'' := by
  refine ⟨fun h => ?_, fun ⟨s', hmove, h⟩ => .cons hmove h⟩
  cases h with
  | cons hmove h => exact ⟨_, hmove, h⟩

/-- Calls that do not move the state may be left out. -/
theorem filter {keep : κ → Bool} (hquiet : ∀ c s s', keep c = false → move c s s' → s' = s)
    (h : Path move cs s s') : Path move (cs.filter keep) s s' := by
  induction h with
  | nil s => exact .nil s
  | @cons c cs s s' s'' hmove _ ih =>
    cases hkeep : keep c with
    | true =>
      rw [List.filter_cons_of_pos hkeep]
      exact .cons hmove ih
    | false =>
      rw [List.filter_cons_of_neg (by simp [hkeep]), ← hquiet c s s' hkeep hmove]
      exact ih

end Path

/-- The visible part of the world moves along the logged calls. -/
def Moves {σ τ κ ε α : Type} (view : σ → τ) (move : κ → τ → τ → Prop) (m : Act σ κ ε α) : Prop :=
  ∀ w, Path move (m w).calls (view w) (view (m w).world)

namespace Moves

variable {σ τ κ ε ε' α β : Type} {view : σ → τ} {move : κ → τ → τ → Prop}

theorem pure (a : α) : Moves view move (Pure.pure a : Act σ κ ε α) := fun w => .nil (view w)

theorem check (f : ε' → ε) (x : Except ε' α) : Moves view move (Act.check f x : Act σ κ ε α) :=
  fun w => .nil (view w)

theorem call {step : σ → α × σ} {log : α → κ}
    (h : ∀ w, move (log (step w).1) (view w) (view (step w).2)) :
    Moves view move (Act.call step log : Act σ κ ε α) := fun w => .single (h w)

theorem bind {m : Act σ κ ε α} {f : α → Act σ κ ε β} (hm : Moves view move m)
    (hf : ∀ a, Moves view move (f a)) : Moves view move (m >>= f) := by
  intro w
  obtain ⟨e, -, hrun⟩ | ⟨a, -, hrun⟩ := Act.bind_cases m f w
  · rw [hrun]
    exact hm w
  · rw [hrun]
    exact (hm w).append (hf a _)

theorem mapError {m : Act σ κ ε α} (f : ε → ε') (hm : Moves view move m) :
    Moves view move (m.mapError f) := hm

end Moves

/-! ## Calls that are not survived -/

/-- The computation fails once it has made a call of the kind `bad`. -/
def Refuses {σ κ ε α : Type} (bad : κ → Prop) (m : Act σ κ ε α) : Prop :=
  ∀ w, (∃ c ∈ (m w).calls, bad c) → ∃ e, (m w).result = .error e

namespace Refuses

variable {σ κ ε ε' α β : Type} {bad : κ → Prop}

theorem pure (a : α) : Refuses bad (Pure.pure a : Act σ κ ε α) := fun _ ⟨_, hc, _⟩ => nomatch hc

theorem check (f : ε' → ε) (x : Except ε' α) : Refuses bad (Act.check f x : Act σ κ ε α) :=
  fun _ ⟨_, hc, _⟩ => nomatch hc

theorem call {step : σ → α × σ} {log : α → κ} (h : ∀ a, ¬ bad (log a)) :
    Refuses bad (Act.call step log : Act σ κ ε α) := by
  rintro w ⟨c, hc, hbad⟩
  rw [List.mem_singleton.mp hc] at hbad
  exact absurd hbad (h _)

theorem bind {m : Act σ κ ε α} {f : α → Act σ κ ε β} (hm : Refuses bad m)
    (hf : ∀ a, Refuses bad (f a)) : Refuses bad (m >>= f) := by
  rintro w ⟨c, hc, hbad⟩
  obtain ⟨e, -, hrun⟩ | ⟨a, ha, hrun⟩ := Act.bind_cases m f w
  · exact ⟨e, by rw [hrun]⟩
  · rw [hrun] at hc ⊢
    rcases List.mem_append.mp hc with hc | hc
    · obtain ⟨e, he⟩ := hm w ⟨c, hc, hbad⟩
      rw [ha] at he
      cases he
    · exact hf a _ ⟨c, hc, hbad⟩

end Refuses

/-! ## Errors -/

/-- The computation fails with errors of the kind `bad` only. -/
def Fails {σ κ ε α : Type} (bad : ε → Prop) (m : Act σ κ ε α) : Prop :=
  ∀ w e, (m w).result = .error e → bad e

namespace Fails

variable {σ κ ε ε' α β : Type} {bad : ε → Prop}

theorem pure (a : α) : Fails bad (Pure.pure a : Act σ κ ε α) := fun _ _ h => nomatch h

theorem check {f : ε' → ε} {x : Except ε' α} (h : ∀ e, x = .error e → bad (f e)) :
    Fails bad (Act.check f x : Act σ κ ε α) := by
  intro w e he
  obtain ⟨e', hx, rfl⟩ := Act.result_check_error.mp he
  exact h e' hx

theorem bind {m : Act σ κ ε α} {f : α → Act σ κ ε β} (hm : Fails bad m)
    (hf : ∀ a, Fails bad (f a)) : Fails bad (m >>= f) := by
  intro w e he
  rcases Act.result_bind_error.mp he with he | ⟨a, -, he⟩
  · exact hm w e he
  · exact hf a _ e he

theorem mapError {f : ε' → ε} (m : Act σ κ ε' α) (h : ∀ e, bad (f e)) :
    Fails bad (m.mapError f) := by
  intro w e he
  have he : (m w).result.mapError f = .error e := he
  cases hm : (m w).result with
  | error e' =>
    rw [hm] at he
    cases he
    exact h e'
  | ok a =>
    rw [hm] at he
    cases he

end Fails

/-! ## Calls that are made -/

/-- Every call of the computation is of the kind `good`. -/
def Only {σ κ ε α : Type} (good : κ → Prop) (m : Act σ κ ε α) : Prop :=
  ∀ w, ∀ c ∈ (m w).calls, good c

namespace Only

variable {σ κ ε ε' α β : Type} {good : κ → Prop}

theorem pure (a : α) : Only good (Pure.pure a : Act σ κ ε α) := fun _ _ hc => nomatch hc

theorem check (f : ε' → ε) (x : Except ε' α) : Only good (Act.check f x : Act σ κ ε α) :=
  fun _ _ hc => nomatch hc

theorem call {step : σ → α × σ} {log : α → κ} (h : ∀ a, good (log a)) :
    Only good (Act.call step log : Act σ κ ε α) := by
  intro w c hc
  rw [List.mem_singleton.mp hc]
  exact h _

theorem bind {m : Act σ κ ε α} {f : α → Act σ κ ε β} (hm : Only good m)
    (hf : ∀ a, Only good (f a)) : Only good (m >>= f) := by
  intro w c hc
  obtain ⟨e, -, hrun⟩ | ⟨a, -, hrun⟩ := Act.bind_cases m f w
  · rw [hrun] at hc
    exact hm w c hc
  · rw [hrun] at hc
    rcases List.mem_append.mp hc with hc | hc
    · exact hm w c hc
    · exact hf a _ c hc

/-- After a step that only computes, what it computed is known. -/
theorem bind_check {g : ε' → ε} {x : Except ε' α} {f : α → Act σ κ ε β}
    (hf : ∀ a, x = .ok a → Only good (f a)) : Only good (Act.check g x >>= f) := by
  intro w c hc
  obtain ⟨e, -, hrun⟩ | ⟨a, ha, hrun⟩ := Act.check_cases g x f w
  · rw [hrun] at hc
    cases hc
  · rw [hrun] at hc
    exact hf a ha w c hc

theorem mono {good' : κ → Prop} {m : Act σ κ ε α} (hm : Only good m)
    (h : ∀ c, good c → good' c) : Only good' m :=
  fun w c hc => h c (hm w c hc)

end Only

/-! ## Two computations side by side -/

/-- Both computations succeed, with the same result, calls and world. -/
def Matches {σ κ ε ε' α : Type} (m : Act σ κ ε α) (m' : Act σ κ ε' α) : Prop :=
  ∀ w, ∃ a calls w', m w = ⟨.ok a, calls, w'⟩ ∧ m' w = ⟨.ok a, calls, w'⟩

namespace Matches

variable {σ κ ε ε' α β : Type}

theorem pure (a : α) : Matches (Pure.pure a : Act σ κ ε α) (Pure.pure a : Act σ κ ε' α) :=
  fun w => ⟨a, [], w, rfl, rfl⟩

theorem bind {m : Act σ κ ε α} {m' : Act σ κ ε' α} {f : α → Act σ κ ε β} {f' : α → Act σ κ ε' β}
    (hm : Matches m m') (hf : ∀ a, Matches (f a) (f' a)) : Matches (m >>= f) (m' >>= f') := by
  intro w
  obtain ⟨a, calls, w', hrun, hrun'⟩ := hm w
  obtain ⟨b, calls', w'', hrest, hrest'⟩ := hf a w'
  refine ⟨b, calls ++ calls', w'', ?_, ?_⟩
  · rw [Act.bind_of_ok hrun, hrest]
    rfl
  · rw [Act.bind_of_ok hrun', hrest']
    rfl

end Matches

/-- The second run is the first with calls left out and the visible part of its worlds. -/
structure Ran.Erases {σ τ κ α : Type} (view : σ → τ) (keep : κ → Bool) (r : Ran σ κ α)
    (r' : Ran τ κ α) : Prop where
  result : r.result = r'.result
  calls : r.calls.filter keep = r'.calls
  world : view r.world = r'.world

/-- The first computation does what the second does, besides calls of other kinds and changes of
an invisible part of the world. -/
def Erases {σ τ κ ε α : Type} (view : σ → τ) (keep : κ → Bool) (m : Act σ κ ε α)
    (m' : Act τ κ ε α) : Prop :=
  ∀ w, (m w).Erases view keep (m' (view w))

namespace Erases

variable {σ τ κ ε α β : Type} {view : σ → τ} {keep : κ → Bool}

theorem pure (a : α) :
    Erases view keep (Pure.pure a : Act σ κ ε α) (Pure.pure a : Act τ κ ε α) :=
  fun _ => ⟨rfl, rfl, rfl⟩

theorem bind {m : Act σ κ ε α} {m' : Act τ κ ε α} {f : α → Act σ κ ε β} {f' : α → Act τ κ ε β}
    (hm : Erases view keep m m') (hf : ∀ a, Erases view keep (f a) (f' a)) :
    Erases view keep (m >>= f) (m' >>= f') := by
  intro w
  have hfirst := hm w
  obtain ⟨e, he, hrun⟩ | ⟨a, ha, hrun⟩ := Act.bind_cases m f w
  · have hrun' : (m' >>= f') (view w) = ⟨.error e, (m' (view w)).calls, (m' (view w)).world⟩ :=
      Act.bind_of_error (Ran.ext (hfirst.result ▸ he) rfl rfl)
    rw [hrun, hrun']
    exact ⟨rfl, hfirst.calls, hfirst.world⟩
  · have hrun' : (m' >>= f') (view w) =
        (f' a (m' (view w)).world).after (m' (view w)).calls :=
      Act.bind_of_ok (Ran.ext (hfirst.result ▸ ha) rfl rfl)
    have hrest := hf a (m w).world
    rw [hfirst.world] at hrest
    rw [hrun, hrun']
    refine ⟨hrest.result, ?_, hrest.world⟩
    simp only [Ran.after, List.filter_append, hfirst.calls, hrest.calls]

end Erases

end Traced
