import Mathlib.Data.List.Induction
import Mathlib.Data.List.Nodup

/-!
# Gatekeep.Support.FirstSeen

A log of key/value pairs that keeps only the first value seen for each key, in first-seen order.

* `record log k v` appends `(k, v)` unless `k` is already logged.
* `extend log l`   records the pairs of `l` one after the other.

`extend_extend` is the law a caller needs to replace one log threaded through a computation by
logs made separately and merged afterwards.
-/

namespace FirstSeen

variable {κ α : Type}

/-- The keys of a log, in first-seen order. -/
def keys (log : List (κ × α)) : List κ := log.map Prod.fst

@[simp] theorem keys_nil : keys ([] : List (κ × α)) = [] := rfl

@[simp] theorem keys_append (l l' : List (κ × α)) : keys (l ++ l') = keys l ++ keys l' := by
  simp [keys]

variable [DecidableEq κ]

/-- Append `(k, v)` unless `k` is already there. -/
def record (log : List (κ × α)) (k : κ) (v : α) : List (κ × α) :=
  if log.any (fun e => e.1 == k) then log else log ++ [(k, v)]

/-- Record the pairs of `l`, from left to right. -/
def extend (log l : List (κ × α)) : List (κ × α) :=
  l.foldl (fun log e => record log e.1 e.2) log

@[simp] theorem extend_nil (log : List (κ × α)) : extend log [] = log := rfl

@[simp] theorem extend_cons (log l : List (κ × α)) (e : κ × α) :
    extend log (e :: l) = extend (record log e.1 e.2) l := rfl

theorem extend_append (log l l' : List (κ × α)) :
    extend log (l ++ l') = extend (extend log l) l' := by
  simp [extend, List.foldl_append]

theorem any_iff_mem_keys (log : List (κ × α)) (k : κ) :
    log.any (fun e => e.1 == k) = true ↔ k ∈ keys log := by
  simp [keys]

theorem record_of_mem {log : List (κ × α)} {k : κ} (v : α) (h : k ∈ keys log) :
    record log k v = log := by
  rw [record, if_pos ((any_iff_mem_keys log k).mpr h)]

theorem record_of_not_mem {log : List (κ × α)} {k : κ} (v : α) (h : k ∉ keys log) :
    record log k v = log ++ [(k, v)] := by
  rw [record, if_neg (mt (any_iff_mem_keys log k).mp h)]

theorem mem_keys_record {log : List (κ × α)} {k k' : κ} {v : α} :
    k' ∈ keys (record log k v) ↔ k' ∈ keys log ∨ k' = k := by
  by_cases h : k ∈ keys log
  · rw [record_of_mem v h]
    refine ⟨.inl, ?_⟩
    rintro (hk | rfl)
    · exact hk
    · exact h
  · rw [record_of_not_mem v h]
    simp [keys]

theorem mem_keys_extend {log l : List (κ × α)} {k : κ} :
    k ∈ keys (extend log l) ↔ k ∈ keys log ∨ k ∈ keys l := by
  induction l generalizing log with
  | nil => simp
  | cons e l ih =>
    rw [extend_cons, ih, mem_keys_record]
    simp [keys, or_assoc]

theorem nodup_keys_record {log : List (κ × α)} (k : κ) (v : α) (h : (keys log).Nodup) :
    (keys (record log k v)).Nodup := by
  by_cases hk : k ∈ keys log
  · rw [record_of_mem v hk]; exact h
  · rw [record_of_not_mem v hk, keys_append]
    exact h.append (by simp [keys]) (by simpa [keys] using hk)

theorem nodup_keys_extend {log : List (κ × α)} (l : List (κ × α)) (h : (keys log).Nodup) :
    (keys (extend log l)).Nodup := by
  induction l generalizing log with
  | nil => exact h
  | cons e l ih => exact ih (nodup_keys_record e.1 e.2 h)

/-- Nothing enters a log that was not in it or in what was recorded. -/
theorem mem_of_mem_extend {log l : List (κ × α)} {e : κ × α} (h : e ∈ extend log l) :
    e ∈ log ∨ e ∈ l := by
  induction l generalizing log with
  | nil => exact .inl h
  | cons e' l ih =>
    rw [extend_cons] at h
    rcases ih h with hr | hl
    · by_cases hk : e'.1 ∈ keys log
      · rw [record_of_mem _ hk] at hr; exact .inl hr
      · rw [record_of_not_mem _ hk, List.mem_append, List.mem_singleton] at hr
        rcases hr with hr | rfl
        · exact .inl hr
        · exact .inr List.mem_cons_self
    · exact .inr (List.mem_cons_of_mem _ hl)

/-- Recording into the second of two merged logs records into their merge. -/
theorem extend_record (log l : List (κ × α)) (k : κ) (v : α) :
    extend log (record l k v) = record (extend log l) k v := by
  by_cases hk : k ∈ keys l
  · rw [record_of_mem v hk, record_of_mem v (mem_keys_extend.mpr (.inr hk))]
  · rw [record_of_not_mem v hk, extend_append]; rfl

/-- Merging a separately made log is recording its pairs where it was started. -/
theorem extend_extend (log l l' : List (κ × α)) :
    extend log (extend l l') = extend (extend log l) l' := by
  induction l' generalizing l with
  | nil => rfl
  | cons e l' ih => rw [extend_cons, extend_cons, ih, extend_record]

theorem extend_extend_nil (log l : List (κ × α)) : extend log (extend [] l) = extend log l := by
  rw [extend_extend, extend_nil]

end FirstSeen
