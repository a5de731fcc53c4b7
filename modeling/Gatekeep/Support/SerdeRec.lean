import Gatekeep.Support.Serde

/-!
# Gatekeep.Support.SerdeRec

Readers of recursive types. `fix step` reads one level of a document by `step`, and what is inside
by itself. If `step` asks only for documents inside its own (`Local`), this is a fixed point
(`fix_eq`); `Below n` are the pieces of such a step that ask only for documents lower than `n`.
-/

namespace Json

mutual

/-- How deep a document is nested. -/
def height : Json → Nat
  | .arr items => heightItems items + 1
  | .obj fields => heightFields fields + 1
  | _ => 0

def heightItems : List Json → Nat
  | [] => 0
  | j :: js => max (height j) (heightItems js)

def heightFields : List (String × Json) → Nat
  | [] => 0
  | (_, j) :: fields => max (height j) (heightFields fields)

end

theorem height_le_of_mem {j : Json} {items : List Json} (h : j ∈ items) :
    j.height ≤ heightItems items := by
  induction items with
  | nil => cases h
  | cons x xs ih =>
    rw [heightItems]
    rcases List.mem_cons.mp h with rfl | h
    · exact le_max_left _ _
    · exact (ih h).trans (le_max_right _ _)

theorem height_le_of_mem_fields {f : String × Json} {fields : List (String × Json)}
    (h : f ∈ fields) : f.2.height ≤ heightFields fields := by
  induction fields with
  | nil => cases h
  | cons x xs ih =>
    obtain ⟨name, j⟩ := x
    rw [heightFields]
    rcases List.mem_cons.mp h with rfl | h
    · exact le_max_left _ _
    · exact (ih h).trans (le_max_right _ _)

end Json

namespace Serde

variable {ε α β γ : Type}

/-- Read by `step`, with what is inside the document read in the same way. -/
def fix (step : Reader ε α → Reader ε α) : Reader ε α := fun j =>
  step^[j.height + 1] (fun _ => .error .invalidType) j

/-- The step asks only for documents inside the one it reads. -/
def Local (step : Reader ε α → Reader ε α) : Prop :=
  ∀ j f g, (∀ j' : Json, j'.height < j.height → f j' = g j') → step f j = step g j

theorem iterate_eq_fix {step : Reader ε α → Reader ε α} (h : Local step) (n : Nat) (j : Json)
    (hn : j.height < n) : step^[n] (fun _ => .error .invalidType) j = fix step j := by
  induction n using Nat.strong_induction_on generalizing j with
  | h n ih =>
    obtain ⟨m, rfl⟩ : ∃ m, n = m + 1 := ⟨n - 1, by omega⟩
    rw [fix, Function.iterate_succ_apply', Function.iterate_succ_apply']
    refine h j _ _ fun j' hj' => ?_
    rw [ih m (by omega) j' (by omega)]
    by_cases hm : j.height = m + 1
    · omega
    · rw [ih j.height (by omega) j' hj']

/-- What is inside is read in the same way. -/
theorem fix_eq {step : Reader ε α → Reader ε α} (h : Local step) (j : Json) :
    fix step j = step (fix step) j := by
  rw [fix, Function.iterate_succ_apply']
  exact h j _ _ fun j' hj' => iterate_eq_fix h j.height j' hj'

/-! ## Pieces of a step -/

/-- The piece asks only for documents lower than `n`. -/
def Below (n : Nat) (piece : Reader ε α → Except (Error ε) β) : Prop :=
  ∀ f g : Reader ε α, (∀ j, j.height < n → f j = g j) → piece f = piece g

theorem local_of_below {step : Reader ε α → Reader ε α}
    (h : ∀ j : Json, Below j.height fun f => step f j) : Local step := fun j f g hfg => h j f g hfg

namespace Below

variable {n : Nat}

theorem const (x : Except (Error ε) β) : Below (α := α) n fun _ => x := fun _ _ _ => rfl

theorem bind {piece : Reader ε α → Except (Error ε) β}
    {rest : Reader ε α → β → Except (Error ε) γ} (h : Below n piece)
    (hrest : ∀ b, Below n fun f => rest f b) : Below n fun f => piece f >>= rest f := by
  intro f g hfg
  have hpiece : piece f = piece g := h f g hfg
  show piece f >>= rest f = piece g >>= rest g
  rw [hpiece]
  cases piece g with
  | error e => rfl
  | ok b => exact hrest b f g hfg

theorem map {piece : Reader ε α → Except (Error ε) β} (h : Below n piece) (g : β → γ) :
    Below n fun f => (piece f).map g :=
  fun f f' hf => congrArg (Except.map g) (h f f' hf)

theorem read {j : Json} (h : j.height < n) : Below (α := α) (ε := ε) n fun f => f j :=
  fun _ _ hfg => hfg j h

theorem items {js : List Json} (h : ∀ j ∈ js, j.height < n) :
    Below (α := α) (ε := ε) n fun f => readItems f js := by
  induction js with
  | nil => exact const _
  | cons j js ih =>
    rw [List.forall_mem_cons] at h
    exact (read h.1).bind fun a => (ih h.2).bind fun as => const _

theorem list {j : Json} (h : j.height ≤ n) :
    Below (α := α) (ε := ε) n fun f => readList f j := by
  cases j with
  | arr js =>
    refine items fun j hj => ?_
    have := Json.height_le_of_mem hj
    rw [Json.height] at h
    omega
  | _ => exact const _

end Below

/-! ## Records and variants -/

/-- The heights of the fields of a record. -/
def Record.height : Record → Nat
  | .named fields => Json.heightFields fields
  | .positional items => Json.heightItems items

theorem Record.height_find {r : Record} {index : Nat} {name : String} {j : Json}
    (h : r.find index name = some j) : j.height ≤ r.height := by
  cases r with
  | named fields =>
    obtain ⟨f, hf, rfl⟩ := Option.map_eq_some_iff.mp h
    exact Json.height_le_of_mem_fields (List.mem_of_find?_eq_some hf)
  | positional items => exact Json.height_le_of_mem (List.mem_of_getElem? h)

theorem Record.height_ofJson {names : List String} {j : Json} {r : Record}
    (h : Record.ofJson (ε := ε) names j = .ok r) : r.height < j.height := by
  cases j with
  | obj fields =>
    rw [Record.ofJson_obj_eq_ok h, Record.height, Json.height]
    omega
  | arr items =>
    rw [Record.ofJson_arr_eq_ok h, Record.height, Json.height]
    omega
  | _ => cases h

namespace Below

variable {n : Nat}

theorem record {names : List String} {j : Json} (hj : j.height ≤ n)
    {rest : Reader ε α → Record → Except (Error ε) β}
    (h : ∀ r : Record, r.height < n → Below n fun f => rest f r) :
    Below n fun f => Record.ofJson names j >>= rest f := by
  cases hr : Record.ofJson (ε := ε) names j with
  | error e => exact const _
  | ok r => exact h r ((Record.height_ofJson hr).trans_le hj)

theorem required {r : Record} (hr : r.height < n) (index : Nat) (name : String) :
    Below (α := α) (ε := ε) n fun f => r.required index name f := by
  unfold Record.required
  cases hfind : r.find index name with
  | none => exact const _
  | some j => exact read ((Record.height_find hfind).trans_lt hr)

theorem content {content : Option Json} (hc : ∀ c ∈ content, c.height < n)
    {rest : Reader ε α → Json → Except (Error ε) β}
    (h : ∀ c : Json, c.height < n → Below n fun f => rest f c) :
    Below n fun f => readContent content >>= rest f := by
  cases content with
  | none => exact const _
  | some c => exact h c (hc c rfl)

theorem variant {j : Json} {rest : Reader ε α → String × Option Json → Except (Error ε) β}
    (h : ∀ name content, (∀ c ∈ content, c.height < j.height) →
      Below j.height fun f => rest f (name, content)) :
    Below j.height fun f => readVariant j >>= rest f := by
  unfold readVariant
  split
  · refine h _ none fun c hc => ?_
    cases hc
  · refine h _ (some _) fun c hc => ?_
    cases hc
    simp [Json.height, Json.heightFields]
  · exact const _

end Below

end Serde
