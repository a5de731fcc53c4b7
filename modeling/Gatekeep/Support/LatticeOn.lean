import Mathlib

/-!
# Gatekeep.Support.LatticeOn

Two operations that obey the lattice laws on a set closed under them. The operations may do
anything outside the set.

The order is `a ≤ b ↔ meet a b = a`. A left fold of `meet` over members is their greatest lower
bound (`isGreatest_meet`), a left fold of `join` their least upper bound (`isLeast_join`), so both
depend on the members folded and not on their order or multiplicity (`meet_congr`, `join_congr`).
Results about `join` are those about `meet` read in the opposite order (`LatticeOn.dual`).
-/

structure LatticeOn {α : Type*} (meet join : α → α → α) (S : Set α) : Prop where
  meet_mem : ∀ a ∈ S, ∀ b ∈ S, meet a b ∈ S
  join_mem : ∀ a ∈ S, ∀ b ∈ S, join a b ∈ S
  meet_comm : ∀ a ∈ S, ∀ b ∈ S, meet a b = meet b a
  join_comm : ∀ a ∈ S, ∀ b ∈ S, join a b = join b a
  meet_assoc : ∀ a ∈ S, ∀ b ∈ S, ∀ c ∈ S, meet (meet a b) c = meet a (meet b c)
  join_assoc : ∀ a ∈ S, ∀ b ∈ S, ∀ c ∈ S, join (join a b) c = join a (join b c)
  meet_join_self : ∀ a ∈ S, ∀ b ∈ S, meet a (join a b) = a
  join_meet_self : ∀ a ∈ S, ∀ b ∈ S, join a (meet a b) = a

namespace LatticeOn

variable {α : Type*} {meet join : α → α → α} {S : Set α} (h : LatticeOn meet join S)
include h

theorem dual : LatticeOn join meet S where
  meet_mem := h.join_mem
  join_mem := h.meet_mem
  meet_comm := h.join_comm
  join_comm := h.meet_comm
  meet_assoc := h.join_assoc
  join_assoc := h.meet_assoc
  meet_join_self := h.join_meet_self
  join_meet_self := h.meet_join_self

variable {a b c : α}

theorem meet_self (ha : a ∈ S) : meet a a = a := by
  have hself := h.meet_join_self a ha (meet a a) (h.meet_mem a ha a ha)
  rwa [h.join_meet_self a ha a ha] at hself

theorem trans (ha : a ∈ S) (hb : b ∈ S) (hc : c ∈ S) (hab : meet a b = a) (hbc : meet b c = b) :
    meet a c = a := by
  rw [← hab, h.meet_assoc a ha b hb c hc, hbc]

theorem antisymm (ha : a ∈ S) (hb : b ∈ S) (hab : meet a b = a) (hba : meet b a = b) : a = b := by
  rw [← hab, h.meet_comm a ha b hb, hba]

theorem meet_le_left (ha : a ∈ S) (hb : b ∈ S) : meet (meet a b) a = meet a b := by
  rw [h.meet_comm a ha b hb, h.meet_assoc b hb a ha a ha, h.meet_self ha]

theorem meet_le_right (ha : a ∈ S) (hb : b ∈ S) : meet (meet a b) b = meet a b := by
  rw [h.meet_assoc a ha b hb b hb, h.meet_self hb]

/-- The order read off the joins is the same one. -/
theorem meet_eq_left_iff (ha : a ∈ S) (hb : b ∈ S) : meet a b = a ↔ join b a = b := by
  constructor
  · intro hab
    rw [← hab, h.meet_comm a ha b hb, h.join_meet_self b hb a ha]
  · intro hba
    rw [← hba, h.join_comm b hb a ha, h.meet_join_self a ha b hb]

/-! ## Folds -/

variable {l l' : List α}

theorem foldl_meet_mem (hl : ∀ b ∈ l, b ∈ S) (ha : a ∈ S) : l.foldl meet a ∈ S := by
  induction l generalizing a with
  | nil => exact ha
  | cons b l ih =>
    rw [List.forall_mem_cons] at hl
    exact ih hl.2 (h.meet_mem a ha b hl.1)

/-- A fold of `meet` is a lower bound of what it folds, and every lower bound is below it. -/
theorem isGreatest_meet (hl : ∀ b ∈ a :: l, b ∈ S) :
    (∀ b ∈ a :: l, meet (l.foldl meet a) b = l.foldl meet a) ∧
      ∀ c ∈ S, (∀ b ∈ a :: l, meet c b = c) → meet c (l.foldl meet a) = c := by
  induction l generalizing a with
  | nil =>
    rw [List.forall_mem_cons] at hl
    refine ⟨fun b hb => ?_, fun c _ hc => hc a List.mem_cons_self⟩
    rw [List.mem_singleton.mp hb]
    exact h.meet_self hl.1
  | cons d l ih =>
    rw [List.forall_mem_cons, List.forall_mem_cons] at hl
    obtain ⟨ha, hd, hl⟩ := hl
    have hmeet := h.meet_mem a ha d hd
    have hmem := h.foldl_meet_mem hl hmeet
    obtain ⟨hlower, hgreatest⟩ := ih (List.forall_mem_cons.mpr ⟨hmeet, hl⟩)
    rw [List.forall_mem_cons] at hlower
    refine ⟨?_, fun c hc hbelow => ?_⟩
    · rw [List.forall_mem_cons, List.forall_mem_cons]
      exact ⟨h.trans hmem hmeet ha hlower.1 (h.meet_le_left ha hd),
        h.trans hmem hmeet hd hlower.1 (h.meet_le_right ha hd), hlower.2⟩
    · rw [List.forall_mem_cons, List.forall_mem_cons] at hbelow
      obtain ⟨hca, hcd, hcl⟩ := hbelow
      refine hgreatest c hc (List.forall_mem_cons.mpr ⟨?_, hcl⟩)
      rw [← h.meet_assoc c hc a ha d hd, hca, hcd]

/-- A fold of `meet` depends only on the members. -/
theorem meet_congr {a' : α} (hl : ∀ b ∈ a :: l, b ∈ S) (hmem : ∀ b, b ∈ a :: l ↔ b ∈ a' :: l') :
    l.foldl meet a = l'.foldl meet a' := by
  have hl' : ∀ b ∈ a' :: l', b ∈ S := fun b hb => hl b ((hmem b).mpr hb)
  have hf := h.foldl_meet_mem (List.forall_mem_cons.mp hl).2 (List.forall_mem_cons.mp hl).1
  have hf' := h.foldl_meet_mem (List.forall_mem_cons.mp hl').2 (List.forall_mem_cons.mp hl').1
  obtain ⟨hlower, hgreatest⟩ := h.isGreatest_meet hl
  obtain ⟨hlower', hgreatest'⟩ := h.isGreatest_meet hl'
  refine h.antisymm hf hf' (hgreatest' _ hf fun b hb => hlower b ((hmem b).mpr hb)) ?_
  exact hgreatest _ hf' fun b hb => hlower' b ((hmem b).mp hb)

theorem foldl_join_mem (hl : ∀ b ∈ l, b ∈ S) (ha : a ∈ S) : l.foldl join a ∈ S :=
  h.dual.foldl_meet_mem hl ha

/-- A fold of `join` is an upper bound of what it folds, and is below every upper bound. -/
theorem isLeast_join (hl : ∀ b ∈ a :: l, b ∈ S) :
    (∀ b ∈ a :: l, meet b (l.foldl join a) = b) ∧
      ∀ c ∈ S, (∀ b ∈ a :: l, meet b c = b) → meet (l.foldl join a) c = l.foldl join a := by
  have hf := h.foldl_join_mem (List.forall_mem_cons.mp hl).2 (List.forall_mem_cons.mp hl).1
  obtain ⟨hupper, hleast⟩ := h.dual.isGreatest_meet hl
  constructor
  · intro b hb
    exact (h.meet_eq_left_iff (hl b hb) hf).mpr (hupper b hb)
  · intro c hc habove
    refine (h.meet_eq_left_iff hf hc).mpr (hleast c hc fun b hb => ?_)
    exact (h.meet_eq_left_iff (hl b hb) hc).mp (habove b hb)

theorem join_congr {a' : α} (hl : ∀ b ∈ a :: l, b ∈ S) (hmem : ∀ b, b ∈ a :: l ↔ b ∈ a' :: l') :
    l.foldl join a = l'.foldl join a' :=
  h.dual.meet_congr hl hmem

end LatticeOn
