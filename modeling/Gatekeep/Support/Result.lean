import Mathlib

/-!
# Gatekeep.Support.Result

Taking a computation that may fail apart: what its steps returned when it succeeded.
-/

namespace Result

variable {ε ε' α β : Type}

theorem bind_eq_ok {x : Except ε α} {f : α → Except ε β} {b : β} :
    x >>= f = .ok b ↔ ∃ a, x = .ok a ∧ f a = .ok b := by
  cases x with
  | error e => exact ⟨fun h => (nomatch h), fun ⟨_, h, _⟩ => (nomatch h)⟩
  | ok a => exact ⟨fun h => ⟨a, rfl, h⟩, fun ⟨_, h, hb⟩ => by cases h; exact hb⟩

theorem map_eq_ok {x : Except ε α} {f : α → β} {b : β} :
    x.map f = .ok b ↔ ∃ a, x = .ok a ∧ f a = b := by
  cases x with
  | error e => exact ⟨fun h => (nomatch h), fun ⟨_, h, _⟩ => (nomatch h)⟩
  | ok a => exact ⟨fun h => ⟨a, rfl, Except.ok.inj h⟩, fun ⟨_, h, hb⟩ => by cases h; rw [← hb]; rfl⟩

theorem mapError_eq_ok {x : Except ε α} {f : ε → ε'} {a : α} :
    x.mapError f = .ok a ↔ x = .ok a := by
  cases x <;> simp [Except.mapError]

theorem toOption_eq_some {x : Except ε α} {a : α} : x.toOption = some a ↔ x = .ok a := by
  cases x <;> simp [Except.toOption]

theorem isOk_iff {x : Except ε α} : x.isOk = true ↔ ∃ a, x = .ok a := by
  cases x <;> simp [Except.isOk, Except.toBool]

theorem isOk_eq_false {x : Except ε α} : x.isOk = false ↔ ∃ e, x = .error e := by
  cases x <;> simp [Except.isOk, Except.toBool]

/-- A step that only checks. -/
theorem check_eq_ok {x : Except ε Unit} {y : Except ε α} {a : α} :
    (x >>= fun _ => y) = .ok a ↔ x = .ok () ∧ y = .ok a := by
  rw [bind_eq_ok]
  exact ⟨fun ⟨(), h⟩ => h, fun h => ⟨(), h⟩⟩

/-- A loop that only checks. -/
theorem forM_eq_ok {xs : List α} {f : α → Except ε PUnit} :
    xs.forM f = .ok () ↔ ∀ x ∈ xs, f x = .ok () := by
  induction xs with
  | nil => simp [List.forM, pure, Except.pure]
  | cons x xs ih =>
    rw [List.forall_mem_cons, ← ih]
    exact check_eq_ok

/-- A loop over what its body reads back. -/
theorem mapM_map_of_ok {f : β → Except ε α} {g : α → β} (h : ∀ a, f (g a) = .ok a) (xs : List α) :
    (xs.map g).mapM f = .ok xs := by
  induction xs with
  | nil => rfl
  | cons x xs ih =>
    rw [List.map_cons, List.mapM_cons, h, ih]
    rfl

/-- A conditional early return of an error. -/
theorem guard_eq_ok {c : Prop} [Decidable c] {e : ε} {x : Except ε α} {a : α} :
    (if c then .error e >>= (fun _ : PUnit => x) else x) = .ok a ↔ ¬c ∧ x = .ok a := by
  by_cases h : c
  · simp only [h, if_true, not_true, false_and, iff_false]
    nofun
  · simp [h]

@[simp] theorem ok_bind (a : α) (f : α → Except ε β) : (.ok a : Except ε α) >>= f = f a := rfl

@[simp] theorem pure_eq_ok (a : α) : (pure a : Except ε α) = .ok a := rfl

/-! ## Where a computation fails -/

/-- The error of a computation that fails. -/
def failure : Except ε α → Option ε
  | .error e => some e
  | .ok _ => none

@[simp] theorem failure_ok (a : α) : failure (.ok a : Except ε α) = none := rfl

@[simp] theorem failure_error (e : ε) : failure (.error e : Except ε α) = some e := rfl

theorem failure_eq_some {x : Except ε α} {e : ε} : failure x = some e ↔ x = .error e := by
  cases x <;> simp [failure]

theorem failure_eq_none {x : Except ε α} : failure x = none ↔ ∃ a, x = .ok a := by
  cases x <;> simp [failure]

@[simp] theorem failure_map (x : Except ε α) (f : α → β) : failure (x.map f) = failure x := by
  cases x <;> rfl

/-- The first step fails first. What the second fails with must not depend on the value it gets. -/
theorem failure_bind {x : Except ε α} {f : α → Except ε β} {second : Option ε}
    (h : ∀ a, x = .ok a → failure (f a) = second) : failure (x >>= f) = (failure x).or second := by
  cases x with
  | error e => rfl
  | ok a => exact h a rfl

theorem failure_bind_of_ok {x : Except ε α} {f : α → Except ε β}
    (h : ∀ a, x = .ok a → failure (f a) = none) : failure (x >>= f) = failure x :=
  (failure_bind h).trans Option.or_none

/-! ## Two computations side by side -/

/-- Both fail with one error, or both succeed with values that agree. -/
def Both (agree : α → β → Prop) (x : Except ε α) (y : Except ε β) : Prop :=
  (∃ e, x = .error e ∧ y = .error e) ∨ ∃ a b, x = .ok a ∧ y = .ok b ∧ agree a b

namespace Both

variable {agree agree' : α → β → Prop} {x : Except ε α} {y : Except ε β}

theorem error (e : ε) : Both agree (.error e) (.error e) := .inl ⟨e, rfl, rfl⟩

theorem ok {a : α} {b : β} (h : agree a b) : Both agree (.ok a : Except ε α) (.ok b) :=
  .inr ⟨a, b, rfl, rfl, h⟩

theorem imp (h : Both agree x y) (hagree : ∀ a b, agree a b → agree' a b) : Both agree' x y := by
  rcases h with h | ⟨a, b, hx, hy, hab⟩
  · exact .inl h
  · exact .inr ⟨a, b, hx, hy, hagree a b hab⟩

theorem bind {γ δ : Type} {later : γ → δ → Prop} {f : α → Except ε γ} {g : β → Except ε δ}
    (h : Both agree x y) (hlater : ∀ a b, agree a b → Both later (f a) (g b)) :
    Both later (x >>= f) (y >>= g) := by
  rcases h with ⟨e, rfl, rfl⟩ | ⟨a, b, rfl, rfl, hab⟩
  · exact .error e
  · exact hlater a b hab

theorem map {γ δ : Type} {later : γ → δ → Prop} {f : α → γ} {g : β → δ} (h : Both agree x y)
    (hlater : ∀ a b, agree a b → later (f a) (g b)) : Both later (x.map f) (y.map g) := by
  rcases h with ⟨e, rfl, rfl⟩ | ⟨a, b, rfl, rfl, hab⟩
  · exact .error e
  · exact .ok (hlater a b hab)

end Both

end Result
