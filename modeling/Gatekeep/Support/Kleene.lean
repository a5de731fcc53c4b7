import Mathlib

/-!
# Gatekeep.Support.Kleene

Three-valued truth: `some b` is a determined value, `none` an undetermined one (an unknown input,
or SQL's NULL). Conjunction and disjunction are over lists, as both users need them.

`Within x b` says that the three-valued `x` does not contradict the Boolean `b`. The connectives
respect it (`within_conj`, `within_disj`, `within_neg`), which is the soundness of evaluating with
undetermined inputs.
-/

namespace Kleene

instance lawfulBEq : LawfulBEq (Option Bool) := inferInstance

def neg (x : Option Bool) : Option Bool := x.map Bool.not

/-- False if some member is, else undetermined if some member is, else true. -/
def conj (l : List (Option Bool)) : Option Bool :=
  if some false ∈ l then some false else if none ∈ l then none else some true

/-- True if some member is, else undetermined if some member is, else false. -/
def disj (l : List (Option Bool)) : Option Bool :=
  if some true ∈ l then some true else if none ∈ l then none else some false

@[simp] theorem neg_some (b : Bool) : neg (some b) = some (!b) := rfl
@[simp] theorem neg_none : neg none = none := rfl
@[simp] theorem conj_nil : conj [] = some true := rfl
@[simp] theorem disj_nil : disj [] = some false := rfl

/-! A list connective, one member at a time. -/

@[simp] theorem conj_cons_false (l : List (Option Bool)) : conj (some false :: l) = some false := by
  simp [conj]

@[simp] theorem conj_cons_true (l : List (Option Bool)) : conj (some true :: l) = conj l := by
  simp [conj]

theorem conj_cons_none (l : List (Option Bool)) :
    conj (none :: l) = if conj l = some false then some false else none := by
  by_cases hf : some false ∈ l <;> by_cases hn : none ∈ l <;> simp [conj, hf, hn]

@[simp] theorem disj_cons_true (l : List (Option Bool)) : disj (some true :: l) = some true := by
  simp [disj]

@[simp] theorem disj_cons_false (l : List (Option Bool)) : disj (some false :: l) = disj l := by
  simp [disj]

theorem disj_cons_none (l : List (Option Bool)) :
    disj (none :: l) = if disj l = some true then some true else none := by
  by_cases ht : some true ∈ l <;> by_cases hn : none ∈ l <;> simp [disj, ht, hn]

theorem neg_eq_none {x : Option Bool} : neg x = none ↔ x = none := by
  cases x <;> simp

theorem conj_eq_false {l : List (Option Bool)} : conj l = some false ↔ some false ∈ l := by
  unfold conj
  split <;> rename_i h
  · simp [h]
  · split <;> simp [h]

theorem disj_eq_true {l : List (Option Bool)} : disj l = some true ↔ some true ∈ l := by
  unfold disj
  split <;> rename_i h
  · simp [h]
  · split <;> simp [h]

theorem conj_eq_true {l : List (Option Bool)} : conj l = some true ↔ ∀ x ∈ l, x = some true := by
  unfold conj
  split
  · rename_i h
    simp only [Option.some.injEq, Bool.false_eq_true, false_iff, not_forall]
    exact ⟨_, h, by simp⟩
  · rename_i hf
    split
    · rename_i hn
      simp only [reduceCtorEq, false_iff, not_forall]
      exact ⟨_, hn, by simp⟩
    · rename_i hn
      simp only [true_iff]
      intro x hx
      match x with
      | some true => rfl
      | some false => exact absurd hx hf
      | none => exact absurd hx hn

theorem disj_eq_false {l : List (Option Bool)} :
    disj l = some false ↔ ∀ x ∈ l, x = some false := by
  unfold disj
  split
  · rename_i h
    simp only [Option.some.injEq, Bool.true_eq_false, false_iff, not_forall]
    exact ⟨_, h, by simp⟩
  · rename_i ht
    split
    · rename_i hn
      simp only [reduceCtorEq, false_iff, not_forall]
      exact ⟨_, hn, by simp⟩
    · rename_i hn
      simp only [true_iff]
      intro x hx
      match x with
      | some false => rfl
      | some true => exact absurd hx ht
      | none => exact absurd hx hn

theorem conj_eq_none {l : List (Option Bool)} (h : conj l = none) : none ∈ l := by
  unfold conj at h
  split at h
  · cases h
  · split at h
    · assumption
    · cases h

theorem disj_eq_none {l : List (Option Bool)} (h : disj l = none) : none ∈ l := by
  unfold disj at h
  split at h
  · cases h
  · split at h
    · assumption
    · cases h

theorem conj_map_some {ι : Type} (b : ι → Bool) (l : List ι) :
    conj (l.map fun i => some (b i)) = some (l.all b) := by
  cases h : l.all b with
  | true =>
    rw [conj_eq_true, List.forall_mem_map]
    exact fun i hi => congrArg some (List.all_eq_true.mp h i hi)
  | false =>
    obtain ⟨i, hi, hb⟩ := List.all_eq_false.mp h
    rw [conj_eq_false]
    exact List.mem_map.mpr ⟨i, hi, congrArg some (by simpa using hb)⟩

theorem disj_map_some {ι : Type} (b : ι → Bool) (l : List ι) :
    disj (l.map fun i => some (b i)) = some (l.any b) := by
  cases h : l.any b with
  | true =>
    obtain ⟨i, hi, hb⟩ := List.any_eq_true.mp h
    rw [disj_eq_true]
    exact List.mem_map.mpr ⟨i, hi, congrArg some hb⟩
  | false =>
    rw [disj_eq_false, List.forall_mem_map]
    exact fun i hi => congrArg some (by simpa using List.any_eq_false.mp h i hi)

/-! ## Soundness -/

/-- `x` is undetermined, or it is `b`. -/
def Within (x : Option Bool) (b : Bool) : Prop := ∀ b', x = some b' → b' = b

theorem within_neg {x : Option Bool} {b : Bool} (h : Within x b) : Within (neg x) (!b) := by
  cases x with
  | none =>
    intro _ h'
    cases h'
  | some c => rw [h c rfl]; exact fun _ h' => (Option.some.inj h').symm

section Lists

variable {ι : Type} {x : ι → Option Bool} {b : ι → Bool} {l : List ι}

theorem within_conj (h : ∀ i ∈ l, Within (x i) (b i)) : Within (conj (l.map x)) (l.all b) := by
  rintro (_ | _) hc
  · obtain ⟨i, hi, hx⟩ := List.mem_map.mp (conj_eq_false.mp hc)
    have hb := h i hi _ hx
    exact (List.all_eq_false.mpr ⟨i, hi, by simp [← hb]⟩).symm
  · refine (List.all_eq_true.mpr fun i hi => ?_).symm
    exact (h i hi _ (conj_eq_true.mp hc _ (List.mem_map_of_mem hi))).symm

theorem within_disj (h : ∀ i ∈ l, Within (x i) (b i)) : Within (disj (l.map x)) (l.any b) := by
  rintro (_ | _) hc
  · refine (List.any_eq_false.mpr fun i hi => ?_).symm
    have hb := h i hi _ (disj_eq_false.mp hc _ (List.mem_map_of_mem hi))
    simp [← hb]
  · obtain ⟨i, hi, hx⟩ := List.mem_map.mp (disj_eq_true.mp hc)
    exact (List.any_eq_true.mpr ⟨i, hi, (h i hi _ hx).symm⟩).symm

end Lists

end Kleene
