import Mathlib

/-!
# Gatekeep.Support.Graded

Left folds of graded sets. A graded set is a grade in a semilattice together with a set of labels.

* `joinAll`: grades combine with `⊔`. A strictly higher grade replaces the labels collected so far,
  a strictly lower one is passed over, and equal or incomparable grades merge their labels.
* `meetAll`: grades combine with `⊓`. The labels are those of the arm that has the combined grade;
  when neither side has it, there are none.

The combined grade does not depend on the order of the arms, the labels do. `mem_joinAll_iff` and
`mem_meetAll_iff` say which arms contribute their labels, `joinAll_perm_iff` and `meetAll_perm_iff`
for which arms every order gives the same labels.
-/

namespace Graded

open Classical

/-- A member of a list with one more element at its end is that element or was there before. -/
theorem concat_eq_split {γ : Type*} {l mid rest : List γ} {u t : γ}
    (h : l ++ [u] = mid ++ t :: rest) :
    rest = [] ∧ mid = l ∧ t = u ∨ ∃ rest', rest = rest' ++ [u] ∧ l = mid ++ t :: rest' := by
  induction rest using List.reverseRecOn with
  | nil =>
    obtain ⟨hl, hu⟩ := List.append_inj' h rfl
    exact .inl ⟨rfl, hl.symm, (List.singleton_inj.mp hu).symm⟩
  | append_singleton rest v _ =>
    rw [← List.cons_append, ← List.append_assoc] at h
    obtain ⟨hl, hu⟩ := List.append_inj' h rfl
    exact .inr ⟨rest, by rw [hu], hl⟩

/-- A split of the images of `l` is the image of a split of `l`. -/
theorem exists_split_map {γ δ : Type*} {f : γ → δ} {l : List γ}
    {P : List δ → δ → List δ → Prop} :
    (∃ before t later, l.map f = before ++ t :: later ∧ P before t later) ↔
      ∃ before t later, l = before ++ t :: later ∧ P (before.map f) (f t) (later.map f) := by
  constructor
  · rintro ⟨before, t, later, heq, hp⟩
    obtain ⟨l₁, l₂, rfl, rfl, h₂⟩ := List.map_eq_append_iff.mp heq
    obtain ⟨t, l₂, rfl, rfl, rfl⟩ := List.map_eq_cons_iff.mp h₂
    exact ⟨l₁, t, l₂, rfl, hp⟩
  · rintro ⟨before, t, later, rfl, hp⟩
    exact ⟨before.map f, f t, later.map f, by simp, hp⟩

/-- An element that is not in the first part of a list comes after all of it. -/
theorem exists_append_of_not_mem {γ : Type*} {first second before later : List γ} {t : γ}
    (h : first ++ second = before ++ t :: later) (ht : t ∉ first) : ∃ l, before = first ++ l := by
  rcases List.append_eq_append_iff.mp h with ⟨l, hl, -⟩ | ⟨l, hl, heq⟩
  · exact ⟨l, hl⟩
  · cases l with
    | nil => exact ⟨[], by rw [hl, List.append_nil, List.append_nil]⟩
    | cons u l =>
      obtain ⟨rfl, -⟩ := List.cons.inj heq
      exact absurd (hl ▸ by simp) ht

/-- Labels of which each is kept in every order or in none are the same for every order. -/
theorem eq_of_decided {γ β : Type*} {f : List γ → Set β} {arms : List γ}
    (h : ∀ x, (∀ l, l.Perm arms → x ∈ f l) ∨ (∀ l, l.Perm arms → x ∉ f l)) {l : List γ}
    (hl : l.Perm arms) : f l = f arms := by
  refine Set.ext fun x => ?_
  rcases h x with hx | hx
  · exact iff_of_true (hx l hl) (hx arms (List.Perm.refl _))
  · exact iff_of_false (hx l hl) (hx arms (List.Perm.refl _))

/-- An order of the images of `l` is the image of an order of `l`. -/
theorem exists_perm_of_map {γ δ : Type*} {f : γ → δ} {l : List γ} {m : List δ}
    (h : m.Perm (l.map f)) : ∃ l' : List γ, l'.Perm l ∧ m = l'.map f := by
  have hl : List.Forall₂ (fun b a => b = f a) (l.map f) l := by
    rw [List.forall₂_map_left_iff]
    exact List.forall₂_same.mpr fun _ _ => rfl
  obtain ⟨l', hm, hl'⟩ := List.perm_comp_forall₂ h hl
  have hm' : List.Forall₂ (fun b c => b = c) m (l'.map f) := List.forall₂_map_right_iff.mpr hm
  rw [List.forall₂_eq_eq_eq] at hm'
  exact ⟨l', hl', hm'⟩

/-- Labels of images do not depend on the order of the images exactly when they do not depend on the
order of what is mapped. -/
theorem forall_perm_map_iff {γ δ β : Type*} {f : List δ → Set β} {g : γ → δ} {l : List γ} :
    (∀ m, m.Perm (l.map g) → f m = f (l.map g)) ↔
      ∀ l' : List γ, l'.Perm l → ∀ x, x ∈ f (l'.map g) ↔ x ∈ f (l.map g) := by
  constructor
  · intro h l' hl' x
    rw [h _ (hl'.map g)]
  · intro h m hm
    obtain ⟨l', hl', rfl⟩ := exists_perm_of_map hm
    exact Set.ext (h l' hl')

section Join

variable {α β : Type*} [SemilatticeSup α]

noncomputable def joinStep (s t : α × Set β) : α × Set β :=
  (s.1 ⊔ t.1, if s.1 < t.1 then t.2 else if t.1 < s.1 then s.2 else s.2 ∪ t.2)

theorem joinStep_lt {s t : α × Set β} (h : s.1 < t.1) : joinStep s t = t := by
  rw [joinStep, if_pos h, sup_eq_right.mpr h.le]

theorem mem_joinStep {s t : α × Set β} {x : β} :
    x ∈ (joinStep s t).2 ↔ x ∈ t.2 ∧ ¬ t.1 < s.1 ∨ x ∈ s.2 ∧ ¬ s.1 < t.1 := by
  unfold joinStep
  split_ifs with h h'
  · simp [h, h.not_gt]
  · simp [h, h']
  · simp [h, h', or_comm]

variable [OrderBot α]

noncomputable def joinAll (arms : List (α × Set β)) : α × Set β := arms.foldl joinStep (⊥, ∅)

@[simp] theorem joinAll_nil : joinAll ([] : List (α × Set β)) = (⊥, ∅) := rfl

theorem joinAll_concat (arms : List (α × Set β)) (t : α × Set β) :
    joinAll (arms ++ [t]) = joinStep (joinAll arms) t := by
  rw [joinAll, List.foldl_append]
  rfl

theorem joinAll_singleton (t : α × Set β) : joinAll [t] = t := by
  rw [show [t] = [] ++ [t] from rfl, joinAll_concat]
  refine Prod.ext (bot_sup_eq _) (Set.ext fun x => ?_)
  simp [mem_joinStep]

/-- The combined grade of arms. -/
def grade (arms : List (α × Set β)) : α := ((arms.map Prod.fst : List α) : Multiset α).sup

@[simp] theorem grade_nil : grade ([] : List (α × Set β)) = ⊥ := rfl

@[simp] theorem grade_cons (t : α × Set β) (arms : List (α × Set β)) :
    grade (t :: arms) = t.1 ⊔ grade arms := rfl

@[simp] theorem grade_append (l l' : List (α × Set β)) :
    grade (l ++ l') = grade l ⊔ grade l' := by
  rw [grade, List.map_append, ← Multiset.coe_add, Multiset.sup_add]
  rfl

theorem grade_le {arms : List (α × Set β)} {a : α} : grade arms ≤ a ↔ ∀ t ∈ arms, t.1 ≤ a := by
  rw [grade, Multiset.sup_le]
  simp only [Multiset.mem_coe, List.forall_mem_map]

theorem le_grade {arms : List (α × Set β)} {t : α × Set β} (h : t ∈ arms) : t.1 ≤ grade arms :=
  grade_le.mp le_rfl t h

theorem grade_perm {l l' : List (α × Set β)} (h : l.Perm l') : grade l = grade l' := by
  rw [grade, grade, Multiset.coe_eq_coe.mpr (h.map Prod.fst)]

@[simp] theorem joinAll_fst (arms : List (α × Set β)) : (joinAll arms).1 = grade arms := by
  induction arms using List.reverseRecOn with
  | nil => rfl
  | append_singleton arms t ih =>
    rw [joinAll_concat, grade_append, ← ih, grade_cons, grade_nil, sup_bot_eq]
    rfl

/-! ## Which arms contribute -/

/-- No later arm lies strictly above everything before it. -/
def Unsurpassed (before : α) (later : List (α × Set β)) : Prop :=
  ∀ mid t rest, later = mid ++ t :: rest → ¬ before ⊔ grade mid < t.1

/-- The arm after `before` adds its labels, and no arm of `later` replaces them. -/
def Contributes (before : List (α × Set β)) (t : α × Set β) (later : List (α × Set β)) : Prop :=
  ¬ t.1 < grade before ∧ Unsurpassed (grade before ⊔ t.1) later

theorem unsurpassed_concat {before : α} {later : List (α × Set β)} {u : α × Set β} :
    Unsurpassed before (later ++ [u]) ↔
      Unsurpassed before later ∧ ¬ before ⊔ grade later < u.1 := by
  constructor
  · intro h
    refine ⟨fun mid t rest heq => h mid t (rest ++ [u]) ?_, h later u [] rfl⟩
    rw [heq, List.append_assoc, List.cons_append]
  · rintro ⟨h, hu⟩ mid t rest heq
    rcases concat_eq_split heq with ⟨rfl, rfl, rfl⟩ | ⟨rest', -, hl⟩
    · exact hu
    · exact h mid t rest' hl

/-- A label survives the fold exactly when an arm that carries it contributes. -/
theorem mem_joinAll_iff {arms : List (α × Set β)} {x : β} :
    x ∈ (joinAll arms).2 ↔
      ∃ before t later, arms = before ++ t :: later ∧ x ∈ t.2 ∧ Contributes before t later := by
  induction arms using List.reverseRecOn with
  | nil => simp
  | append_singleton arms u ih =>
    rw [joinAll_concat, mem_joinStep, joinAll_fst, ih]
    constructor
    · rintro (⟨hx, hu⟩ | ⟨⟨before, t, later, rfl, hx, ht, hlater⟩, hu⟩)
      · refine ⟨arms, u, [], rfl, hx, hu, fun mid t rest heq => ?_⟩
        simp at heq
      · refine ⟨before, t, later ++ [u], by simp, hx, ht, ?_⟩
        refine unsurpassed_concat.mpr ⟨hlater, ?_⟩
        rwa [grade_append, grade_cons, ← sup_assoc] at hu
    · rintro ⟨before, t, later, heq, hx, ht, hlater⟩
      rcases concat_eq_split heq with ⟨rfl, rfl, rfl⟩ | ⟨later, rfl, rfl⟩
      · exact .inl ⟨hx, ht⟩
      · obtain ⟨hlater, hu⟩ := unsurpassed_concat.mp hlater
        refine .inr ⟨⟨before, t, later, rfl, hx, ht, hlater⟩, ?_⟩
        rwa [grade_append, grade_cons, ← sup_assoc]

/-! ## When the order does not matter -/

/-- An arm that has the combined grade keeps its labels. -/
theorem mem_joinAll_of_grade {arms : List (α × Set β)} {t : α × Set β} {x : β} (ht : t ∈ arms)
    (hgrade : t.1 = grade arms) (hx : x ∈ t.2) : x ∈ (joinAll arms).2 := by
  obtain ⟨before, later, rfl⟩ := List.append_of_mem ht
  refine mem_joinAll_iff.mpr ⟨before, t, later, rfl, hx, ?_, ?_⟩
  · intro hlt
    have hle : grade before ≤ t.1 := by rw [hgrade, grade_append]; exact le_sup_left
    exact absurd hle hlt.not_ge
  · rintro mid u rest rfl hlt
    have hu : u.1 ≤ t.1 := by rw [hgrade]; exact le_grade (by simp)
    exact absurd (hu.trans (le_sup_right.trans le_sup_left)) hlt.not_ge

/-- A label that is lost leaves arms without it that have the combined grade by themselves. -/
theorem grade_of_not_mem_joinAll {arms : List (α × Set β)} {x : β} (hx : x ∉ (joinAll arms).2) :
    grade (arms.filter fun t => x ∉ t.2) = grade arms := by
  have hle : grade (arms.filter fun t => x ∉ t.2) ≤ grade arms :=
    grade_le.mpr fun t ht => le_grade (List.mem_of_mem_filter ht)
  refine le_antisymm hle ?_
  clear hle
  induction arms using List.reverseRecOn with
  | nil => exact le_rfl
  | append_singleton arms u ih =>
    rw [joinAll_concat, mem_joinStep, joinAll_fst, not_or, not_and_not_right,
      not_and_not_right] at hx
    rw [List.filter_append, grade_append, grade_append]
    by_cases hu : x ∈ u.2
    · -- the arm carries the label, so it must have been passed over
      have hlt := hx.1 hu
      have hs : x ∉ (joinAll arms).2 := fun h => hlt.not_gt (hx.2 h)
      have hug : grade [u] ≤ grade arms := by simpa using hlt.le
      exact sup_le ((ih hs).trans le_sup_left) (hug.trans ((ih hs).trans le_sup_left))
    · have hf : [u].filter (fun t => decide (x ∉ t.2)) = [u] := by simp [hu]
      rw [hf]
      by_cases hlt : grade arms < u.1
      · have hug : grade arms ≤ grade [u] := by simpa using hlt.le
        exact sup_le (hug.trans le_sup_right) le_sup_right
      · exact sup_le_sup_right (ih fun h => hlt (hx.2 h)) _

/-- Every arm is at most `b` or strictly above it, and some arm is above. -/
def Cut (arms : List (α × Set β)) (b : α) : Prop :=
  (∀ t ∈ arms, t.1 ≤ b ∨ b < t.1) ∧ ∃ t ∈ arms, b < t.1

omit [OrderBot α] in
theorem Cut.perm {l l' : List (α × Set β)} {b : α} (h : l.Perm l') (hb : Cut l b) : Cut l' b :=
  ⟨fun t ht => hb.1 t (h.mem_iff.mpr ht), hb.2.imp fun _ ht => ⟨h.mem_iff.mp ht.1, ht.2⟩⟩

/-- Arms below a cut do not contribute: the first arm above the cut replaces their labels. -/
theorem not_contributes_of_cut {before later : List (α × Set β)} {t : α × Set β} {b : α}
    (hb : Cut (before ++ t :: later) b) (ht : t.1 ≤ b) : ¬ Contributes before t later := by
  rintro ⟨hbefore, hlater⟩
  have hle : ∀ u ∈ before, u.1 ≤ b := by
    intro u hu
    refine (hb.1 u (by simp [hu])).resolve_right fun hlt => ?_
    exact hbefore (ht.trans_lt (hlt.trans_le (le_grade hu)))
  obtain ⟨u, hu, hlt⟩ := hb.2
  have hmem : u ∈ later := by
    rcases List.mem_append.mp hu with hu | hu
    · exact absurd (hle u hu) hlt.not_ge
    · rcases List.mem_cons.mp hu with rfl | hu
      · exact absurd ht hlt.not_ge
      · exact hu
  cases hfind : later.find? (fun u => decide (b < u.1)) with
  | none => simpa [hlt] using List.find?_eq_none.mp hfind u hmem
  | some w =>
    obtain ⟨hw, mid, rest, rfl, hmid⟩ := List.find?_eq_some_iff_append.mp hfind
    have hbw : b < w.1 := by simpa using hw
    refine hlater mid w rest rfl (lt_of_le_of_lt (sup_le (sup_le (grade_le.mpr hle) ht) ?_) hbw)
    refine grade_le.mpr fun v hv => (hb.1 v (by simp [hv])).resolve_right ?_
    simpa using hmid v hv

/-- While no cut lies above the arms taken so far, the rest can be taken in an order that keeps
what they collected. -/
theorem exists_perm_mem_joinAll {x : β} (n : Nat) :
    ∀ taken rest : List (α × Set β), rest.length = n → x ∈ (joinAll taken).2 →
      (∀ b, grade taken ≤ b → ¬ Cut (taken ++ rest) b) →
      ∃ l, l.Perm (taken ++ rest) ∧ x ∈ (joinAll l).2 := by
  induction n with
  | zero =>
    intro taken rest hlen hx _
    rw [List.length_eq_zero_iff.mp hlen, List.append_nil]
    exact ⟨taken, List.Perm.refl _, hx⟩
  | succ n ih =>
    intro taken rest hlen hx hcut
    by_cases hr : ∃ r ∈ rest, ¬ grade taken < r.1
    · obtain ⟨r, hr, hlt⟩ := hr
      obtain ⟨s, s', rfl⟩ := List.append_of_mem hr
      have hperm : (taken ++ [r] ++ (s ++ s')).Perm (taken ++ (s ++ r :: s')) := by
        rw [List.append_assoc, List.singleton_append]
        exact List.perm_middle.symm.append_left taken
      have hstep : x ∈ (joinAll (taken ++ [r])).2 := by
        rw [joinAll_concat, mem_joinStep, joinAll_fst]
        exact .inr ⟨hx, hlt⟩
      have hlen' : (s ++ s').length = n := by
        simp only [List.length_append, List.length_cons] at hlen ⊢
        omega
      obtain ⟨l, hl, hxl⟩ := ih (taken ++ [r]) (s ++ s') hlen' hstep fun b hb hc => by
        rw [grade_append] at hb
        exact hcut b (le_sup_left.trans hb) (hc.perm hperm)
      exact ⟨l, hl.trans hperm, hxl⟩
    · -- every arm left is strictly above, so what was taken is itself a cut
      have hall : ∀ r ∈ rest, grade taken < r.1 := by
        intro r hmem
        by_contra hlt
        exact hr ⟨r, hmem, hlt⟩
      obtain ⟨r, rest', rfl⟩ := List.exists_cons_of_length_eq_add_one hlen
      refine absurd ⟨fun t ht => ?_, r, by simp, hall r List.mem_cons_self⟩
        (hcut (grade taken) le_rfl)
      rcases List.mem_append.mp ht with ht | ht
      · exact .inl (le_grade ht)
      · exact .inr (hall t ht)

/-- What makes the labels of a join independent of the order: each label is on an arm with the
combined grade, or the arms without it do not reach that grade, or it is only on arms below a
cut. -/
def JoinOrderFree (arms : List (α × Set β)) : Prop :=
  ∀ x, (∃ t ∈ arms, t.1 = grade arms ∧ x ∈ t.2) ∨
    grade (arms.filter fun t => x ∉ t.2) ≠ grade arms ∨
    ∀ t ∈ arms, x ∈ t.2 → ∃ b, t.1 ≤ b ∧ Cut arms b

/-- Arms without the label first, then those with it. -/
theorem exists_perm_not_mem_joinAll {arms : List (α × Set β)} {x : β}
    (htop : ∀ t ∈ arms, t.1 = grade arms → x ∉ t.2)
    (hgrade : grade (arms.filter fun t => x ∉ t.2) = grade arms) :
    ∃ l, l.Perm arms ∧ x ∉ (joinAll l).2 := by
  refine ⟨_, List.filter_append_perm (fun t => decide (x ∉ t.2)) arms, fun hx => ?_⟩
  obtain ⟨before, t, later, heq, hxt, hlow, -⟩ := mem_joinAll_iff.mp hx
  have hle : grade arms ≤ grade before := by
    obtain ⟨l, rfl⟩ := exists_append_of_not_mem heq (by simp [hxt])
    rw [grade_append, hgrade]
    exact le_sup_left
  have ht : t ∈ arms := by
    have : t ∈ before ++ t :: later := by simp
    rw [← heq] at this
    exact (List.filter_append_perm _ arms).mem_iff.mp this
  refine hlow (lt_of_le_of_ne ((le_grade ht).trans hle) fun h => htop t ht ?_ hxt)
  exact le_antisymm (le_grade ht) (hle.trans h.ge)

/-- Each of the three reasons decides a label the same way for every order. -/
theorem JoinOrderFree.decided {arms : List (α × Set β)} (h : JoinOrderFree arms) (x : β) :
    (∀ l, l.Perm arms → x ∈ (joinAll l).2) ∨ (∀ l, l.Perm arms → x ∉ (joinAll l).2) := by
  rcases h x with ⟨t, ht, htop, hx⟩ | hgrade | hcut
  · left
    intro l hl
    exact mem_joinAll_of_grade (hl.mem_iff.mpr ht) (htop.trans (grade_perm hl.symm)) hx
  · left
    intro l hl
    by_contra hx
    refine hgrade ?_
    rw [← grade_perm hl, ← grade_of_not_mem_joinAll hx]
    exact grade_perm (hl.symm.filter _)
  · right
    intro l hl hx
    obtain ⟨before, t, later, rfl, hxt, hc⟩ := mem_joinAll_iff.mp hx
    obtain ⟨b, htb, hb⟩ := hcut t (hl.mem_iff.mp (by simp)) hxt
    exact not_contributes_of_cut (hb.perm hl.symm) htb hc

theorem joinAll_perm_iff {arms : List (α × Set β)} :
    (∀ l, l.Perm arms → (joinAll l).2 = (joinAll arms).2) ↔ JoinOrderFree arms := by
  constructor
  · intro h x
    by_contra hne
    simp only [not_or, not_exists, not_and, not_not, not_forall] at hne
    obtain ⟨htop, hgrade, t, ht, hxt, hcut⟩ := hne
    obtain ⟨l, hl, hx⟩ := exists_perm_not_mem_joinAll htop hgrade
    obtain ⟨before, later, rfl⟩ := List.append_of_mem ht
    have hperm : ([t] ++ (before ++ later)).Perm (before ++ t :: later) := by
      rw [List.singleton_append]
      exact List.perm_middle.symm
    obtain ⟨l', hl', hx'⟩ := exists_perm_mem_joinAll _ [t] (before ++ later) rfl
      (by rwa [joinAll_singleton]) fun b hb hc => hcut b (by simpa using hb) (hc.perm hperm)
    rw [h l hl] at hx
    rw [h l' (hl'.trans hperm)] at hx'
    exact hx hx'
  · exact fun h l hl => eq_of_decided (f := fun l => (joinAll l).2) h.decided hl

end Join

/-- Over a linear order exactly the arms with the combined grade keep their labels. -/
theorem mem_joinAll_linear {α β : Type*} [LinearOrder α] [OrderBot α]
    {arms : List (α × Set β)} {x : β} :
    x ∈ (joinAll arms).2 ↔ ∃ t ∈ arms, t.1 = grade arms ∧ x ∈ t.2 := by
  refine ⟨fun hx => ?_, fun ⟨t, ht, hgrade, hx⟩ => mem_joinAll_of_grade ht hgrade hx⟩
  induction arms using List.reverseRecOn with
  | nil => exact absurd hx (Set.notMem_empty x)
  | append_singleton arms u ih =>
    rw [joinAll_concat, mem_joinStep, joinAll_fst] at hx
    have hgrade : grade (arms ++ [u]) = grade arms ⊔ u.1 := by simp
    rcases hx with ⟨hx, hu⟩ | ⟨hx, hu⟩
    · exact ⟨u, by simp, by rw [hgrade, sup_eq_right.mpr (not_lt.mp hu)], hx⟩
    · obtain ⟨t, ht, htop, hxt⟩ := ih hx
      exact ⟨t, by simp [ht], by rw [hgrade, sup_eq_left.mpr (not_lt.mp hu), htop], hxt⟩

section Meet

variable {α β : Type*} [SemilatticeInf α]

noncomputable def meetStep (s t : α × Set β) : α × Set β :=
  (s.1 ⊓ t.1, if s.1 ≤ t.1 then s.2 else if t.1 ≤ s.1 then t.2 else ∅)

theorem mem_meetStep {s t : α × Set β} {x : β} :
    x ∈ (meetStep s t).2 ↔
      s.1 ≤ t.1 ∧ x ∈ s.2 ∨ ¬ s.1 ≤ t.1 ∧ t.1 ≤ s.1 ∧ x ∈ t.2 := by
  unfold meetStep
  split_ifs with h h'
  · simp [h]
  · simp [h, h']
  · simp [h, h']

variable [OrderTop α]

noncomputable def meetAll (arms : List (α × Set β)) : α × Set β := arms.foldl meetStep (⊤, ∅)

theorem meetAll_concat (arms : List (α × Set β)) (t : α × Set β) :
    meetAll (arms ++ [t]) = meetStep (meetAll arms) t := by
  rw [meetAll, List.foldl_append]
  rfl

/-- The combined grade of arms that are all required. -/
def floor (arms : List (α × Set β)) : α := ((arms.map Prod.fst : List α) : Multiset α).inf

@[simp] theorem floor_nil : floor ([] : List (α × Set β)) = ⊤ := rfl

@[simp] theorem floor_cons (t : α × Set β) (arms : List (α × Set β)) :
    floor (t :: arms) = t.1 ⊓ floor arms := rfl

@[simp] theorem floor_append (l l' : List (α × Set β)) :
    floor (l ++ l') = floor l ⊓ floor l' := by
  rw [floor, List.map_append, ← Multiset.coe_add, Multiset.inf_add]
  rfl

theorem le_floor {arms : List (α × Set β)} {a : α} : a ≤ floor arms ↔ ∀ t ∈ arms, a ≤ t.1 := by
  rw [floor, Multiset.le_inf]
  simp only [Multiset.mem_coe, List.forall_mem_map]

theorem floor_le {arms : List (α × Set β)} {t : α × Set β} (h : t ∈ arms) : floor arms ≤ t.1 :=
  le_floor.mp le_rfl t h

theorem floor_perm {l l' : List (α × Set β)} (h : l.Perm l') : floor l = floor l' := by
  rw [floor, floor, Multiset.coe_eq_coe.mpr (h.map Prod.fst)]

@[simp] theorem meetAll_fst (arms : List (α × Set β)) : (meetAll arms).1 = floor arms := by
  induction arms using List.reverseRecOn with
  | nil => rfl
  | append_singleton arms t ih =>
    rw [meetAll_concat, floor_append, ← ih, floor_cons, floor_nil, inf_top_eq]
    rfl

/-- The labels are those of the arm that first brings the grade down to the combined one, if that
arm has the combined grade itself. -/
theorem mem_meetAll_iff {arms : List (α × Set β)} {x : β} :
    x ∈ (meetAll arms).2 ↔
      ∃ before t later, arms = before ++ t :: later ∧ x ∈ t.2 ∧ t.1 = floor arms ∧
        floor before ≠ floor arms := by
  induction arms using List.reverseRecOn with
  | nil => simp [meetAll]
  | append_singleton arms u ih =>
    have hfloor : floor (arms ++ [u]) = floor arms ⊓ u.1 := by simp
    rw [meetAll_concat, meetStep, meetAll_fst, hfloor]
    split_ifs with hau hua
    · -- the combined grade stays: the arm found so far is still the one
      rw [inf_eq_left.mpr hau]
      refine ih.trans ⟨?_, ?_⟩
      · rintro ⟨before, t, later, rfl, hx, htop, hne⟩
        exact ⟨before, t, later ++ [u], by simp, hx, htop, hne⟩
      · rintro ⟨before, t, later, heq, hx, htop, hne⟩
        rcases concat_eq_split heq with ⟨rfl, rfl, rfl⟩ | ⟨later, rfl, rfl⟩
        · exact absurd rfl hne
        · exact ⟨before, t, later, rfl, hx, htop, hne⟩
    · rw [inf_eq_right.mpr hua]
      constructor
      · intro hx
        exact ⟨arms, u, [], rfl, hx, rfl, fun h => hau h.le⟩
      · rintro ⟨before, t, later, heq, hx, htop, hne⟩
        rcases concat_eq_split heq with ⟨rfl, rfl, rfl⟩ | ⟨later, rfl, rfl⟩
        · exact hx
        · exact absurd (htop ▸ floor_le (by simp)) hau
    · refine iff_of_false (Set.notMem_empty x) ?_
      rintro ⟨before, t, later, heq, hx, htop, hne⟩
      rcases concat_eq_split heq with ⟨rfl, rfl, rfl⟩ | ⟨later, rfl, rfl⟩
      · exact hua (inf_eq_right.mp htop.symm)
      · exact hau (((floor_le (by simp)).trans htop.le).trans inf_le_right)

/-- What makes the labels of a meet independent of the order: a label is on no arm with the
combined grade, or on all of them while the other arms do not come down to that grade. -/
def MeetOrderFree (arms : List (α × Set β)) : Prop :=
  ∀ x, (∀ t ∈ arms, t.1 = floor arms → x ∉ t.2) ∨
    (∀ t ∈ arms, t.1 = floor arms → x ∈ t.2) ∧
      floor (arms.filter fun t => t.1 ≠ floor arms) ≠ floor arms

/-- An arm with the combined grade hides everything after it. -/
theorem mem_meetAll_cons {t : α × Set β} {arms : List (α × Set β)} {x : β} (htop : t.1 ≠ ⊤)
    (ht : t.1 = floor (t :: arms)) : x ∈ (meetAll (t :: arms)).2 ↔ x ∈ t.2 := by
  rw [mem_meetAll_iff]
  constructor
  · rintro ⟨before, u, later, heq, hx, hu, hne⟩
    cases before with
    | nil =>
      obtain ⟨rfl, -⟩ := List.cons.inj heq
      exact hx
    | cons v before =>
      simp only [List.cons_append, List.cons.injEq] at heq
      obtain ⟨rfl, rfl⟩ := heq
      refine absurd (le_antisymm ?_ ?_) hne
      · rw [floor_cons, ← ht]
        exact inf_le_left
      · refine le_floor.mpr fun w hw => floor_le ?_
        rw [← List.cons_append]
        exact List.mem_append_left _ hw
  · intro hx
    exact ⟨[], t, arms, rfl, hx, ht, fun h => htop (ht.trans h.symm)⟩

/-- Where arms above the combined grade come down to it together, taking them first leaves no
label. -/
theorem exists_perm_not_mem_meetAll {arms : List (α × Set β)}
    (h : floor (arms.filter fun t => t.1 ≠ floor arms) = floor arms) (x : β) :
    ∃ l, l.Perm arms ∧ x ∉ (meetAll l).2 := by
  have hperm := List.filter_append_perm (fun t => decide (t.1 ≠ floor arms)) arms
  refine ⟨_, hperm, fun hx => ?_⟩
  obtain ⟨before, t, later, heq, -, htop, hne⟩ := mem_meetAll_iff.mp hx
  rw [floor_perm hperm] at htop hne
  have hle : floor arms ≤ floor before := by
    rw [← floor_perm hperm, heq, floor_append]
    exact inf_le_left
  refine hne (le_antisymm ?_ hle)
  obtain ⟨l, rfl⟩ := exists_append_of_not_mem heq (by simp [htop])
  rw [floor_append, h]
  exact inf_le_left

/-- Where arms above the combined grade do not come down to it together, an arm that has it is
reached, so a label on all of these is kept. -/
theorem mem_meetAll_of_floor {arms : List (α × Set β)} {x : β}
    (hx : ∀ t ∈ arms, t.1 = floor arms → x ∈ t.2)
    (hfloor : floor (arms.filter fun t => t.1 ≠ floor arms) ≠ floor arms) :
    x ∈ (meetAll arms).2 := by
  cases hfind : arms.find? (fun t => decide (t.1 = floor arms)) with
  | none =>
    -- without an arm of the combined grade the others would be all arms
    refine absurd ?_ hfloor
    rw [List.filter_eq_self.mpr]
    intro t ht
    simpa using List.find?_eq_none.mp hfind t ht
  | some t =>
    obtain ⟨ht, before, later, heq, hbefore⟩ := List.find?_eq_some_iff_append.mp hfind
    have hgrade : t.1 = floor arms := by simpa using ht
    refine mem_meetAll_iff.mpr ⟨before, t, later, heq, hx t (by rw [heq]; simp) hgrade, hgrade, ?_⟩
    intro hdown
    -- else the arms before it, none of which has that grade, would come down to it
    have hle : floor (arms.filter fun t => t.1 ≠ floor arms) ≤ floor before := by
      refine le_floor.mpr fun u hu => floor_le (List.mem_filter.mpr ⟨?_, ?_⟩)
      · rw [heq]
        simp [hu]
      · simpa using hbefore u hu
    refine hfloor (le_antisymm (hle.trans hdown.le) ?_)
    exact le_floor.mpr fun u hu => floor_le (List.mem_of_mem_filter hu)

/-- Both reasons decide a label the same way for every order. -/
theorem MeetOrderFree.decided {arms : List (α × Set β)} (h : MeetOrderFree arms) (x : β) :
    (∀ l, l.Perm arms → x ∈ (meetAll l).2) ∨ (∀ l, l.Perm arms → x ∉ (meetAll l).2) := by
  rcases h x with hno | ⟨hyes, hfloor⟩
  · right
    intro l hl hx
    obtain ⟨before, t, later, rfl, hxt, hgrade, -⟩ := mem_meetAll_iff.mp hx
    exact hno t (hl.mem_iff.mp (by simp)) (hgrade.trans (floor_perm hl)) hxt
  · left
    intro l hl
    refine mem_meetAll_of_floor (fun t ht hgrade => ?_) ?_
    · exact hyes t (hl.mem_iff.mp ht) (hgrade.trans (floor_perm hl))
    · rw [floor_perm hl, floor_perm (hl.filter _)]
      exact hfloor

theorem meetAll_perm_iff {arms : List (α × Set β)} (htop : ∀ t ∈ arms, t.1 ≠ ⊤) :
    (∀ l, l.Perm arms → (meetAll l).2 = (meetAll arms).2) ↔ MeetOrderFree arms := by
  -- taking an arm with the combined grade first decides every label as that arm does
  have hfirst : ∀ t ∈ arms, t.1 = floor arms →
      ∃ l, l.Perm arms ∧ ∀ x, x ∈ (meetAll l).2 ↔ x ∈ t.2 := by
    intro t ht hgrade
    obtain ⟨before, later, rfl⟩ := List.append_of_mem ht
    refine ⟨t :: (before ++ later), List.perm_middle.symm, fun x => ?_⟩
    exact mem_meetAll_cons (htop t ht) (hgrade.trans (floor_perm List.perm_middle))
  constructor
  · intro h x
    by_contra hne
    simp only [not_or, not_forall, not_not, not_and_or] at hne
    obtain ⟨⟨t, ht, hgrade, hxt⟩, hrest⟩ := hne
    obtain ⟨l, hl, hlx⟩ := hfirst t ht hgrade
    have hx : x ∈ (meetAll arms).2 := h l hl ▸ (hlx x).mpr hxt
    rcases hrest with ⟨u, hu, hugrade, hxu⟩ | hfloor
    · obtain ⟨l', hl', hlx'⟩ := hfirst u hu hugrade
      rw [← h l' hl', hlx'] at hx
      exact hxu hx
    · obtain ⟨l', hl', hx'⟩ := exists_perm_not_mem_meetAll hfloor x
      exact hx' (h l' hl' ▸ hx)
  · exact fun h l hl => eq_of_decided (f := fun l => (meetAll l).2) h.decided hl

end Meet

end Graded
