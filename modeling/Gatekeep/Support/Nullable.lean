import Mathlib

/-!
# Gatekeep.Support.Nullable

Combining values of which some may be missing, as SQL's functions of several arguments do with
NULL. `skipping f` combines the arguments that are there; `strict f` is missing as soon as one
argument is.

With `f` commutative and associative, `skipping f` does not depend on the arguments' order
(`skipping_perm`).
-/

namespace Nullable

variable {α β : Type} {f : α → α → α}

def skipping (f : α → α → α) (l : List (Option α)) : Option α := l.foldl (Option.merge f) none

def strict (f : α → α → α) (l : List (Option α)) : Option α :=
  if l.any Option.isNone then none else skipping f l

@[simp] theorem merge_none_left (x : Option α) : Option.merge f none x = x := by cases x <;> rfl

@[simp] theorem merge_none_right (x : Option α) : Option.merge f x none = x := by cases x <;> rfl

@[simp] theorem skipping_nil : skipping f [] = none := rfl

theorem skipping_cons (x : Option α) (l : List (Option α)) :
    skipping f (x :: l) = l.foldl (Option.merge f) x := by
  rw [skipping, List.foldl_cons, merge_none_left]

@[simp] theorem skipping_singleton (x : Option α) : skipping f [x] = x := by rw [skipping_cons]; rfl

/-- What is missing does not take part. -/
theorem foldl_merge (a : α) (l : List (Option α)) :
    l.foldl (Option.merge f) (some a) = some (l.reduceOption.foldl f a) := by
  induction l generalizing a with
  | nil => rfl
  | cons x l ih =>
    cases x with
    | none => exact ih a
    | some b => exact ih (f a b)

theorem skipping_cons_some (a : α) (l : List (Option α)) :
    skipping f (some a :: l) = some (l.reduceOption.foldl f a) := by
  rw [skipping_cons, foldl_merge]

/-- Missing arguments may be left out. -/
theorem skipping_map_filter {ι : Type} {x : ι → Option α} {q : ι → Bool} {l : List ι}
    (h : ∀ i ∈ l, q i = false → x i = none) :
    skipping f ((l.filter q).map x) = skipping f (l.map x) := by
  suffices ∀ acc, ((l.filter q).map x).foldl (Option.merge f) acc =
      (l.map x).foldl (Option.merge f) acc from this none
  induction l with
  | nil => exact fun _ => rfl
  | cons i l ih =>
    intro acc
    have hl := ih fun i' hi' => h i' (List.mem_cons_of_mem _ hi')
    rw [List.filter_cons]
    split
    · exact hl _
    · rename_i hi
      rw [List.map_cons, List.foldl_cons, h i List.mem_cons_self (by simpa using hi),
        merge_none_right]
      exact hl acc

/-- A map that respects the two operations respects combining. -/
theorem skipping_map {f' : β → β → β} {g : α → β} (h : ∀ a b, g (f a b) = f' (g a) (g b))
    (l : List (Option α)) : skipping f' (l.map (Option.map g)) = (skipping f l).map g := by
  have step : ∀ x y : Option α,
      Option.merge f' (x.map g) (y.map g) = (Option.merge f x y).map g := by
    rintro (_ | a) (_ | b)
    · rfl
    · rfl
    · rfl
    · exact congrArg some (h a b).symm
  rw [skipping, List.foldl_map]
  exact @List.foldl_hom _ _ _ (Option.map g) (Option.merge f) (fun x y => Option.merge f' x (y.map g))
    l none step

theorem skipping_perm (comm : ∀ a b, f a b = f b a) (assoc : ∀ a b c, f (f a b) c = f a (f b c))
    {l l' : List (Option α)} (h : l.Perm l') : skipping f l = skipping f l' := by
  have swap : RightCommutative (Option.merge f) := ⟨by
    rintro (_ | a) (_ | b) (_ | c)
    · rfl
    · rfl
    · rfl
    · exact congrArg some (comm b c)
    · rfl
    · rfl
    · rfl
    · exact congrArg some (by rw [assoc, comm b, ← assoc])⟩
  exact h.foldl_eq none

end Nullable
