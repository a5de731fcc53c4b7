import Mathlib

/-!
# Gatekeep.Support.Journal

Lists that only grow, by items entered under keys of their own. `Grows key offered l l'` says that
`l'` came from `l` in this way; such a list keeps what it held, holds nothing that was not offered,
and never holds two items of one key.

`inTurn` makes requests one after the other; if each enters nothing but evidence of its answer,
the list holds nothing else after all of them, and the evidence of every answer.
-/

namespace Journal

variable {α κ : Type} {key : α → κ} {offered offered' : α → Prop} {l l' l'' : List α} {a b : α}

/-- `l'` comes from `l` by entering offered items, each under a key that was free. -/
inductive Grows (key : α → κ) (offered : α → Prop) : List α → List α → Prop where
  | refl (l : List α) : Grows key offered l l
  | enter {l l' : List α} {a : α} : Grows key offered l l' → offered a →
      (∀ b ∈ l', key b ≠ key a) → Grows key offered l (l' ++ [a])

/-- No two items have one key. -/
def Distinct (key : α → κ) (l : List α) : Prop := (l.map key).Nodup

instance [DecidableEq κ] : Decidable (Distinct key l) :=
  inferInstanceAs (Decidable (_ : List κ).Nodup)

theorem Distinct.eq_of_key (h : Distinct key l) (ha : a ∈ l) (hb : b ∈ l) (hkey : key a = key b) :
    a = b := List.inj_on_of_nodup_map h ha hb hkey

theorem Distinct.enter (h : Distinct key l) (hfree : ∀ b ∈ l, key b ≠ key a) :
    Distinct key (l ++ [a]) := by
  rw [Distinct, List.map_append, List.nodup_append]
  refine ⟨h, List.nodup_singleton _, ?_⟩
  intro k hk k' hk'
  obtain ⟨b, hb, rfl⟩ := List.mem_map.mp hk
  rw [List.mem_singleton.mp hk']
  exact hfree b hb

/-- A lookup by key finds the item of that key. -/
theorem Distinct.find?_key [DecidableEq κ] (h : Distinct key l) {k : κ} :
    l.find? (fun b => key b = k) = some a ↔ a ∈ l ∧ key a = k := by
  constructor
  · intro hfind
    exact ⟨List.mem_of_find?_eq_some hfind, by simpa using List.find?_some hfind⟩
  · rintro ⟨ha, rfl⟩
    cases hfind : l.find? fun b => key b = key a with
    | none => simpa using List.find?_eq_none.mp hfind a ha
    | some b =>
      have hkey : key b = key a := by simpa using List.find?_some hfind
      rw [h.eq_of_key (List.mem_of_find?_eq_some hfind) ha hkey]

/-- A search by key finds that item only. -/
theorem Distinct.filter_key [DecidableEq κ] (h : Distinct key l) (k : κ) :
    l.filter (fun b => key b = k) = (l.find? fun b => key b = k).toList := by
  induction l with
  | nil => rfl
  | cons a l ih =>
    obtain ⟨hfresh, hrest⟩ := List.nodup_cons.mp h
    by_cases hkey : key a = k
    · have hnone : l.filter (fun b => key b = k) = [] := by
        rw [List.filter_eq_nil_iff]
        intro b hb hkb
        refine hfresh (List.mem_map.mpr ⟨b, hb, ?_⟩)
        rw [hkey]
        simpa using hkb
      rw [List.filter_cons_of_pos (by simpa using hkey), List.find?_cons_of_pos (by simpa using hkey),
        hnone]
      rfl
    · rw [List.filter_cons_of_neg (by simpa using hkey), List.find?_cons_of_neg (by simpa using hkey)]
      exact ih hrest

/-- An item of a list without repeated keys is the only one of its key. -/
theorem Distinct.countP_key [DecidableEq κ] (h : Distinct key l) (ha : a ∈ l) :
    l.countP (fun b => key b = key a) = 1 := by
  have hcount := List.count_eq_one_of_mem h (List.mem_map_of_mem (f := key) ha)
  rw [List.count, List.countP_map] at hcount
  rw [← hcount]
  refine List.countP_congr fun b _ => ?_
  simp

namespace Grows

theorem trans (h : Grows key offered l l') (h' : Grows key offered l' l'') :
    Grows key offered l l'' := by
  induction h' with
  | refl => exact h
  | enter _ hoffered hfree ih => exact .enter ih hoffered hfree

theorem mono (h : Grows key offered l l') (himp : ∀ a, offered a → offered' a) :
    Grows key offered' l l' := by
  induction h with
  | refl => exact .refl _
  | enter _ hoffered hfree ih => exact .enter ih (himp _ hoffered) hfree

theorem isPrefix (h : Grows key offered l l') : l <+: l' := by
  induction h with
  | refl => exact List.prefix_refl _
  | enter _ _ _ ih => exact ih.trans (List.prefix_append _ _)

theorem mem (h : Grows key offered l l') (ha : a ∈ l) : a ∈ l' := h.isPrefix.subset ha

/-- What was not there before was offered. -/
theorem mem_or_offered (h : Grows key offered l l') (ha : a ∈ l') : a ∈ l ∨ offered a := by
  induction h with
  | refl => exact .inl ha
  | enter _ hoffered _ ih =>
    rcases List.mem_append.mp ha with ha | ha
    · exact ih ha
    · rw [List.mem_singleton.mp ha]
      exact .inr hoffered

theorem distinct (h : Grows key offered l l') (hl : Distinct key l) : Distinct key l' := by
  induction h with
  | refl => exact hl
  | enter _ _ hfree ih => exact ih.enter hfree

/-- One item offered. -/
theorem single (h : offered a) (hfree : ∀ b ∈ l, key b ≠ key a) :
    Grows key offered l (l ++ [a]) := .enter (.refl l) h hfree

end Grows

/-! ## Requests one after the other -/

section Serve

variable {ρ σ β : Type} (serve : ρ → σ → β × σ)

/-- Each request with the world it met and its answer, and the world after all of them. -/
def inTurn : List ρ → σ → List (ρ × σ × β) × σ
  | [], w => ([], w)
  | r :: rs, w =>
    let ran := serve r w
    let rest := inTurn rs ran.2
    ((r, w, ran.1) :: rest.1, rest.2)

variable {serve} {stored : σ → List α} {evidence : ρ → σ → β → α → Prop} {answered : β → Prop}
  (hgrows : ∀ r w, Grows key (evidence r w (serve r w).1) (stored w) (stored (serve r w).2))

include hgrows in
/-- If each request enters only its evidence, so do all of them. -/
theorem grows_inTurn (rs : List ρ) (w : σ) :
    Grows key (fun a => ∃ s ∈ (inTurn serve rs w).1, evidence s.1 s.2.1 s.2.2 a) (stored w)
      (stored (inTurn serve rs w).2) := by
  induction rs generalizing w with
  | nil => exact .refl _
  | cons r rs ih =>
    refine ((hgrows r w).mono fun a ha => ?_).trans ((ih _).mono ?_)
    · exact ⟨_, List.mem_cons_self, ha⟩
    · rintro a ⟨s, hs, ha⟩
      exact ⟨s, List.mem_cons_of_mem _ hs, ha⟩

include hgrows in
/-- The evidence of an answer stays. -/
theorem mem_inTurn
    (hanswered : ∀ r w, answered (serve r w).1 →
      ∃ a, evidence r w (serve r w).1 a ∧ a ∈ stored (serve r w).2)
    {rs : List ρ} {w : σ} {s : ρ × σ × β} (hs : s ∈ (inTurn serve rs w).1)
    (hanswer : answered s.2.2) :
    ∃ a, evidence s.1 s.2.1 s.2.2 a ∧ a ∈ stored (inTurn serve rs w).2 := by
  induction rs generalizing w with
  | nil => cases hs
  | cons r rs ih =>
    rcases List.mem_cons.mp hs with rfl | hs
    · obtain ⟨a, ha, hmem⟩ := hanswered r w hanswer
      exact ⟨a, ha, (grows_inTurn hgrows rs _).mem hmem⟩
    · exact ih hs

end Serve

end Journal
