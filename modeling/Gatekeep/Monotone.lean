import Gatekeep.Obligations
import Gatekeep.Rearrange

/-!
# Gatekeep.Monotone

Policies whose conditions do not negate anything. A fact that becomes present can only turn a denial
into a permit. Without a fallback it can also only raise the outcome; with one it may lower it, since
a primary that starts to permit hides the fallback.
-/

namespace Gatekeep

/-! ## Conditions -/

mutual

/-- The condition negates nothing. -/
def Condition.Positive : Condition → Prop
  | .always | .never | .has _ => True
  | .not _ => False
  | .all conditions | .any conditions => PositiveEach conditions

def Condition.PositiveEach : List Condition → Prop
  | [] => True
  | c :: cs => Positive c ∧ PositiveEach cs

end

theorem Condition.positiveEach_iff {cs : List Condition} :
    PositiveEach cs ↔ ∀ c ∈ cs, c.Positive := by
  induction cs with
  | nil => simp [PositiveEach]
  | cons c cs ih => rw [PositiveEach, ih, List.forall_mem_cons]

/-! ## Policies -/

section Policies

variable {O : Type}

/-- Every condition of the policy is positive. -/
def Policy.Positive (p : Policy O) : Prop := ∀ g ∈ p.grants, g.condition.Positive

theorem Policy.Positive.arm {ps : List (Policy O)} (h : ∀ g ∈ grantsOf ps, g.condition.Positive)
    {p : Policy O} (hp : p ∈ ps) : p.Positive :=
  fun g hg => h g (mem_grantsOf.mpr ⟨p, hp, hg⟩)

mutual

/-- The policy has no fallback. -/
def Policy.OrElseFree : Policy O → Prop
  | .permit _ | .deny | .grant _ => True
  | .all policies | .any policies => OrElseFreeEach policies
  | .orElse _ _ => False

def Policy.OrElseFreeEach : List (Policy O) → Prop
  | [] => True
  | p :: ps => OrElseFree p ∧ OrElseFreeEach ps

end

theorem Policy.orElseFreeEach_iff {ps : List (Policy O)} :
    OrElseFreeEach ps ↔ ∀ p ∈ ps, p.OrElseFree := by
  induction ps with
  | nil => simp [OrElseFreeEach]
  | cons p ps ih => rw [OrElseFreeEach, ih, List.forall_mem_cons]

end Policies

/-! ## More facts -/

section Valuations

variable {v w : FactId → Bool} (hvw : ∀ fact, v fact = true → w fact = true)
include hvw

theorem Condition.holds_mono (c : Condition) :
    c.Positive → c.holds v = true → c.holds w = true := by
  induction c using Condition.ind with
  | always => exact fun _ h => h
  | never => exact fun _ h => h
  | has fact => exact fun _ h => hvw fact h
  | not inner _ => exact fun h => h.elim
  | all cs ih =>
    intro hpos h
    rw [holds, Bool.and_eq_true, holdsAll_eq_all, List.all_eq_true] at h ⊢
    exact ⟨h.1, fun c hc => ih c hc (positiveEach_iff.mp hpos c hc) (h.2 c hc)⟩
  | any cs ih =>
    intro hpos h
    rw [holds, holdsAny_eq_any, List.any_eq_true] at h ⊢
    obtain ⟨c, hc, hholds⟩ := h
    exact ⟨c, hc, ih c hc (positiveEach_iff.mp hpos c hc) hholds⟩

variable {O : Type} [Lattice O]

theorem Policy.permits_mono (p : Policy O) :
    p.Positive → (p.effect v).isPermit = true → (p.effect w).isPermit = true := by
  induction p using Policy.ind with
  | permit o => exact fun _ h => h
  | deny => exact fun _ h => h
  | grant g =>
    intro hpos
    rw [effect_grant, effect_grant]
    by_cases hv : g.condition.holds v = true
    · rw [if_pos (g.condition.holds_mono hvw (hpos g List.mem_cons_self) hv)]
      exact fun _ => rfl
    · rw [if_neg hv]
      intro h
      cases h
  | all ps ih =>
    intro hpos h
    rw [effect_all, Effect.isPermit_all, Bool.and_eq_true, List.all_eq_true,
      List.forall_mem_map] at h ⊢
    exact ⟨by simpa using h.1, fun p hp => ih p hp (.arm hpos hp) (h.2 p hp)⟩
  | any ps ih =>
    intro hpos h
    rw [effect_any, Effect.isPermit_any, List.any_eq_true] at h ⊢
    obtain ⟨e, he, hpermit⟩ := h
    obtain ⟨p, hp, rfl⟩ := List.mem_map.mp he
    exact ⟨p.effect w, List.mem_map_of_mem hp, ih p hp (.arm hpos hp) hpermit⟩
  | orElse primary fallback ihp ihf =>
    intro hpos h
    rw [Positive, grants, List.forall_mem_append] at hpos
    rw [effect_orElse] at h ⊢
    by_cases hw : (primary.effect w).isPermit = true
    · rw [if_pos hw]
      exact hw
    · have hv : ¬ (primary.effect v).isPermit = true := fun hv => hw (ihp hpos.1 hv)
      rw [if_neg hv] at h
      rw [if_neg hw]
      exact ihf hpos.2 h

/-- More facts raise the outcome. -/
theorem Policy.outcome_mono [Lattice.Absorptive O] (p : Policy O) :
    p.Positive → p.OrElseFree → ∀ o o', p.effect v = .permit o → p.effect w = .permit o' →
      Lattice.meet o o' = o := by
  have hlat := Lattice.Absorptive.latticeOn O
  have hwithin : ∀ es : List (Effect O), ∀ e ∈ es, e.Within Set.univ :=
    fun _ _ _ _ _ => Set.mem_univ _
  induction p using Policy.ind with
  | permit out =>
    intro _ _ o o' ho ho'
    cases ho
    cases ho'
    exact Lattice.Lawful.meet_idem out
  | deny =>
    intro _ _ o o' ho
    cases ho
  | grant g =>
    intro _ _ o o' ho ho'
    rw [effect_grant] at ho ho'
    split at ho
    · split at ho'
      · cases ho
        cases ho'
        exact Lattice.Lawful.meet_idem g.outcome
      · cases ho'
    · cases ho
  | all ps ih =>
    intro hpos hfree o o' ho ho'
    rw [effect_all] at ho ho'
    obtain ⟨hlower, -⟩ := Effect.all_greatest hlat (hwithin _) ho
    obtain ⟨-, hgreatest⟩ := Effect.all_greatest hlat (hwithin _) ho'
    -- the meet under `v` is below every outcome under `w`
    refine hgreatest o (Set.mem_univ o) fun b hb => ?_
    obtain ⟨p, hp, hpb⟩ := List.mem_map.mp hb
    obtain ⟨a, ha, hoa⟩ := hlower _ (List.mem_map_of_mem hp)
    have hab := ih p hp (.arm hpos hp) (orElseFreeEach_iff.mp hfree p hp) a b ha hpb
    exact hlat.trans (Set.mem_univ o) (Set.mem_univ a) (Set.mem_univ b) hoa hab
  | any ps ih =>
    intro hpos hfree o o' ho ho'
    rw [effect_any] at ho ho'
    obtain ⟨-, hleast⟩ := Effect.any_least hlat (hwithin _) ho
    obtain ⟨hupper, -⟩ := Effect.any_least hlat (hwithin _) ho'
    -- every arm that permits under `v` permits under `w`, with at least the outcome
    refine hleast o' (Set.mem_univ o') fun a ha => ?_
    obtain ⟨p, hp, hpa⟩ := List.mem_map.mp ha
    have hpw := p.permits_mono hvw (.arm hpos hp) (by rw [hpa]; rfl)
    obtain ⟨b, hb⟩ := Effect.isPermit_eq_true.mp hpw
    have hab := ih p hp (.arm hpos hp) (orElseFreeEach_iff.mp hfree p hp) a b hpa hb
    have hbo := hupper b (List.mem_map.mpr ⟨p, hp, hb⟩)
    exact hlat.trans (Set.mem_univ a) (Set.mem_univ b) (Set.mem_univ o') hab hbo
  | orElse primary fallback _ _ => exact fun _ h => h.elim

end Valuations

/-- A policy without negation permits under more facts what it permits under fewer, and without a
fallback and over a lawful lattice its outcome does not fall. -/
theorem evaluate_mono {O : Type} [Lattice O] [DecidableEq O] (p : Policy O) (hpos : p.Positive)
    (f g : KnownFacts)
    (hfg : ∀ fact, f.presence fact = .present → g.presence fact = .present) :
    ((evaluate p f).isPermit = true → (evaluate p g).isPermit = true) ∧
    (Lattice.Absorptive O → p.OrElseFree → ∀ o, (evaluate p f).effect = .permit o →
      ∃ o', (evaluate p g).effect = .permit o' ∧ Lattice.meet o o' = o) := by
  have htruth : ∀ fact, f.truth fact = true → g.truth fact = true := by
    intro fact h
    rw [KnownFacts.truth, beq_iff_eq] at h ⊢
    exact hfg fact h
  have hpermits : (evaluate p f).isPermit = true → (evaluate p g).isPermit = true := by
    rw [Decision.isPermit, Decision.isPermit, effect_evaluate, effect_evaluate]
    exact p.permits_mono htruth hpos
  refine ⟨hpermits, fun _ hfree o ho => ?_⟩
  obtain ⟨o', ho'⟩ := Effect.isPermit_eq_true.mp (hpermits (by rw [Decision.isPermit, ho]; rfl))
  refine ⟨o', ho', ?_⟩
  rw [effect_evaluate] at ho ho'
  exact p.outcome_mono htruth hpos hfree o o' ho ho'

namespace Sample

/-- A scope for owners, another for members, and the join of both for those who are both. -/
def ownerOrMemberScope : Policy Scope :=
  .any [.grant ⟨.left, .has owner, none, .forbidden, [], none⟩,
    .grant ⟨.right, .has member, none, .forbidden, [], none⟩]

theorem withPresent_mono (known : KnownFacts) (added fact : FactId)
    (h : known.presence fact = .present) : (known.withPresent added).presence fact = .present := by
  rw [KnownFacts.withPresent, KnownFacts.presence_insertKnown]
  split
  · rfl
  · exact h

end Sample

open Sample in
theorem evaluate_mono_owner :
    (evaluate ownerOrMemberScope (KnownFacts.new.withPresent owner)).effect = .permit .left ∧
      (evaluate ownerOrMemberScope
        ((KnownFacts.new.withPresent owner).withPresent member)).isPermit = true ∧
      ∃ o, (evaluate ownerOrMemberScope
          ((KnownFacts.new.withPresent owner).withPresent member)).effect = .permit o ∧
        Lattice.meet Scope.left o = .left := by
  have howner : (evaluate ownerOrMemberScope (KnownFacts.new.withPresent owner)).effect =
      .permit .left := by decide +kernel
  have hpositive : ownerOrMemberScope.Positive := by
    simp [ownerOrMemberScope, Policy.Positive, Policy.grants, Policy.grantsOf, Condition.Positive]
  obtain ⟨hpermits, houtcome⟩ := evaluate_mono ownerOrMemberScope hpositive
    (KnownFacts.new.withPresent owner) ((KnownFacts.new.withPresent owner).withPresent member)
    (withPresent_mono _ _)
  refine ⟨howner, hpermits (by rw [Decision.isPermit, howner]; rfl), ?_⟩
  exact houtcome inferInstance ⟨trivial, trivial, trivial⟩ .left howner

end Gatekeep
