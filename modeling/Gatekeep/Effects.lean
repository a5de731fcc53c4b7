import Gatekeep.Denotation

/-!
# Gatekeep.Effects

The effect of a policy, apart from obligations and trace.

* `Policy.effectWith e`: the effect of a policy whose grants have effects `e`; the effect part of
  `Policy.resultWith` (`effect_resultWith`).
* `Policy.permits b`: whether a policy permits, when its grants permit as `b` says.
* `EvalResult.Closed P`: the constants and the combinations of arms keep the property `P`. Then it
  holds of every result whose grants or leaves have it (`Closed.resultWith`, `Closed.result`).
* `EvalResult.Coherent`: the shape every result has. A permit's clause repeats the outcome it
  grants, a denial has no obligations.

Where meet and join are commutative and associative, the effect of a conjunction or a disjunction
does not depend on the order of its arms (`Effect.all_perm`, `Effect.any_perm`).
-/

namespace Gatekeep

/-- The laws of `Lattice` that make combining arms independent of their order and multiplicity. -/
class Lattice.Lawful (O : Type) [Lattice O] : Prop where
  meet_comm : ∀ a b : O, meet a b = meet b a
  meet_assoc : ∀ a b c : O, meet (meet a b) c = meet a (meet b c)
  meet_idem : ∀ a : O, meet a a = a
  join_comm : ∀ a b : O, join a b = join b a
  join_assoc : ∀ a b c : O, join (join a b) c = join a (join b c)
  join_idem : ∀ a : O, join a a = a

instance : Lattice.Lawful Unit where
  meet_comm _ _ := rfl
  meet_assoc _ _ _ := rfl
  meet_idem _ := rfl
  join_comm _ _ := rfl
  join_assoc _ _ _ := rfl
  join_idem _ := rfl

/-! ## Combining effects -/

namespace Effect

variable {O : Type}

/-- Permit the fold of the outcomes, or deny when there are none. -/
def combine (f : O → O → O) : List O → Effect O
  | [] => .deny
  | o :: os => .permit (os.foldl f o)

theorem combine_perm {f : O → O → O} (comm : ∀ a b, f a b = f b a)
    (assoc : ∀ a b c, f (f a b) c = f a (f b c)) {l l' : List O} (h : l.Perm l') :
    combine f l = combine f l' := by
  have swap : ∀ b a₁ a₂, f (f b a₁) a₂ = f (f b a₂) a₁ := fun b a₁ a₂ => by
    rw [assoc, comm a₁, ← assoc]
  induction h with
  | nil => rfl
  | cons o h _ =>
    have : RightCommutative f := ⟨swap⟩
    exact congrArg Effect.permit (h.foldl_eq o)
  | swap a b l => simp only [combine, List.foldl_cons, comm a b]
  | trans _ _ ih₁ ih₂ => exact ih₁.trans ih₂

theorem isPermit_combine (f : O → O → O) (os : List O) :
    (combine f os).isPermit = !os.isEmpty := by
  cases os <;> rfl

variable [Lattice O]

def all (es : List (Effect O)) : Effect O :=
  if es.all isPermit then combine Lattice.meet (es.filterMap outcome) else .deny

def any (es : List (Effect O)) : Effect O := combine Lattice.join (es.filterMap outcome)

/-- One denial is enough. -/
theorem all_of_deny {es : List (Effect O)} (h : .deny ∈ es) : all es = .deny := by
  rw [all, if_neg]
  intro hall
  have := List.all_eq_true.mp hall _ h
  simp [isPermit] at this

theorem all_perm [Lattice.Lawful O] {es es' : List (Effect O)} (h : es.Perm es') :
    all es = all es' := by
  rw [all, all, h.all_eq,
    combine_perm Lattice.Lawful.meet_comm Lattice.Lawful.meet_assoc (h.filterMap outcome)]

theorem any_perm [Lattice.Lawful O] {es es' : List (Effect O)} (h : es.Perm es') :
    any es = any es' :=
  combine_perm Lattice.Lawful.join_comm Lattice.Lawful.join_assoc (h.filterMap outcome)

omit [Lattice O] in
theorem isEmpty_filterMap_outcome (es : List (Effect O)) :
    (es.filterMap outcome).isEmpty = !es.any isPermit := by
  induction es with
  | nil => rfl
  | cons e es ih =>
    cases e with
    | permit o => simp [outcome, isPermit]
    | deny => simpa [List.filterMap_cons, outcome, isPermit] using ih

theorem isPermit_any (es : List (Effect O)) : (any es).isPermit = es.any isPermit := by
  rw [any, isPermit_combine, isEmpty_filterMap_outcome, Bool.not_not]

theorem isPermit_all (es : List (Effect O)) :
    (all es).isPermit = (!es.isEmpty && es.all isPermit) := by
  cases es with
  | nil => rfl
  | cons e es =>
    rw [all]
    split
    · rename_i h
      rw [isPermit_combine, isEmpty_filterMap_outcome, h]
      rw [List.all_cons, Bool.and_eq_true] at h
      simp [h.1]
    · rename_i h
      simp only [Bool.not_eq_true] at h
      simp [isPermit, h]

end Effect

/-! ## Grants and leaves -/

section Leaves

variable {O : Type}

mutual

/-- The grants of a policy, in source order. -/
def Policy.grants : Policy O → List (Grant O)
  | .permit _ | .deny => []
  | .grant g => [g]
  | .all policies | .any policies => grantsOf policies
  | .orElse primary fallback => grants primary ++ grants fallback

def Policy.grantsOf : List (Policy O) → List (Grant O)
  | [] => []
  | p :: ps => Policy.grants p ++ Policy.grantsOf ps

end

theorem Policy.grantsOf_eq_flatMap (ps : List (Policy O)) : grantsOf ps = ps.flatMap grants := by
  induction ps with
  | nil => rfl
  | cons p ps ih => rw [grantsOf, ih, List.flatMap_cons]

theorem Policy.mem_grantsOf {ps : List (Policy O)} {g : Grant O} :
    g ∈ grantsOf ps ↔ ∃ p ∈ ps, g ∈ p.grants := by
  rw [grantsOf_eq_flatMap, List.mem_flatMap]

mutual

/-- The leaves of a residual, in source order. -/
def ResidualPolicy.leaves : ResidualPolicy O → List (ResidualPolicy O)
  | .permit outcome => [.permit outcome]
  | .deny => [.deny]
  | .permitWithTrace outcome obligations satisfied label =>
    [.permitWithTrace outcome obligations satisfied label]
  | .denyWithTrace denied unsatisfied label reason shape =>
    [.denyWithTrace denied unsatisfied label reason shape]
  | .grant g => [.grant g]
  | .all policies | .any policies => leavesOf policies
  | .orElse primary fallback => leaves primary ++ leaves fallback

def ResidualPolicy.leavesOf : List (ResidualPolicy O) → List (ResidualPolicy O)
  | [] => []
  | policy :: policies => ResidualPolicy.leaves policy ++ ResidualPolicy.leavesOf policies

end

theorem ResidualPolicy.leavesOf_eq_flatMap (rs : List (ResidualPolicy O)) :
    leavesOf rs = rs.flatMap leaves := by
  induction rs with
  | nil => rfl
  | cons r rs ih => rw [leavesOf, ih, List.flatMap_cons]

theorem ResidualPolicy.leaves_subset {rs : List (ResidualPolicy O)} {r : ResidualPolicy O}
    (hr : r ∈ rs) : r.leaves ⊆ leavesOf rs := by
  intro leaf hleaf
  rw [leavesOf_eq_flatMap]
  exact List.mem_flatMap.mpr ⟨r, hr, hleaf⟩

end Leaves

section Policies

variable {O : Type} [Lattice O] [DecidableEq O]

@[simp] theorem Permit.outcome_meet (p q : Permit O) :
    (p.meet q).outcome = Lattice.meet p.outcome q.outcome := by
  unfold meet
  dsimp only
  split
  · rename_i h; exact h.symm
  · split
    · rename_i h; exact h.symm
    · rfl

@[simp] theorem Permit.outcome_join (p q : Permit O) :
    (p.join q).outcome = Lattice.join p.outcome q.outcome := by
  unfold join
  dsimp only
  split
  · rename_i h; exact h.1.symm
  · split
    · rename_i h; exact h.symm
    · split
      · rename_i h; exact h.symm
      · rfl

omit [Lattice O] [DecidableEq O] in
/-- The outcome of a fold of permits is the fold of their outcomes. -/
theorem Permit.effect_fold {f : Permit O → Permit O → Permit O} {g : O → O → O}
    (h : ∀ p q, (f p q).outcome = g p.outcome q.outcome) (ps : List (Permit O))
    {r : EvalResult O} (hr : r.effect = .deny) :
    (((Permit.fold f ps).map Permit.intoResult).getD r).effect =
      Effect.combine g (ps.map Permit.outcome) := by
  cases ps with
  | nil => exact hr
  | cons p ps =>
    simp only [fold, Option.map_some, Option.getD_some, intoResult, Effect.combine, List.map_cons,
      Effect.permit.injEq]
    rw [List.foldl_map]
    exact (List.foldl_hom Permit.outcome fun p q => (h p q).symm).symm

omit [Lattice O] [DecidableEq O] in
theorem EvalResult.filterMap_permit? (rs : List (EvalResult O)) :
    (rs.filterMap permit?).map Permit.outcome = (rs.map EvalResult.effect).filterMap Effect.outcome := by
  rw [List.map_filterMap, List.filterMap_map]
  refine List.filterMap_congr fun r _ => ?_
  simp only [permit?, Function.comp]
  cases r.effect <;> rfl

theorem EvalResult.effect_any (rs : List (EvalResult O)) :
    (EvalResult.any rs).effect = Effect.any (rs.map EvalResult.effect) := by
  rw [Effect.any, ← filterMap_permit?]
  exact Permit.effect_fold Permit.outcome_join _ rfl

theorem EvalResult.effect_all (rs : List (EvalResult O)) :
    (EvalResult.all rs).effect = Effect.all (rs.map EvalResult.effect) := by
  rw [Effect.all, List.all_map, ← filterMap_permit?]
  unfold EvalResult.all allFrom
  split
  · rename_i r hr
    have hd : r.effect.isPermit = false := by simpa using List.find?_some hr
    rw [if_neg, Effect.isPermit_eq_false.mp hd]
    intro hall
    have := List.all_eq_true.mp hall r (List.mem_of_find?_eq_some hr)
    simp [hd] at this
  · rename_i hr
    rw [if_pos]
    · exact Permit.effect_fold Permit.outcome_meet _ rfl
    · rw [List.all_eq_true]
      intro r hmem
      simpa using List.find?_eq_none.mp hr r hmem

omit [Lattice O] [DecidableEq O] in
theorem Grant.isPermit_result (v : FactId → Bool) (g : Grant O) :
    (g.result v).effect.isPermit = g.condition.holds v := by
  rw [Grant.result, grantResult, Condition.eval]
  by_cases h : g.condition.holds v = true
  · rw [if_pos h, h]; rfl
  · rw [if_neg h, Bool.not_eq_true _ |>.mp h]; rfl

namespace Policy

mutual

/-- The effect of a policy whose grants have the effects `e`. -/
def effectWith (e : Grant O → Effect O) : Policy O → Effect O
  | .permit outcome => .permit outcome
  | .deny => .deny
  | .grant g => e g
  | .all policies => Effect.all (effectsWith e policies)
  | .any policies => Effect.any (effectsWith e policies)
  | .orElse primary fallback =>
    if (effectWith e primary).isPermit then effectWith e primary else effectWith e fallback

def effectsWith (e : Grant O → Effect O) : List (Policy O) → List (Effect O)
  | [] => []
  | p :: ps => effectWith e p :: effectsWith e ps

end

mutual

/-- Whether a policy permits, when its grants permit as `b` says. -/
def permits (b : Grant O → Bool) : Policy O → Bool
  | .permit _ => true
  | .deny => false
  | .grant g => b g
  | .all policies => !policies.isEmpty && (permitsEach b policies).all id
  | .any policies => (permitsEach b policies).any id
  | .orElse primary fallback => permits b primary || permits b fallback

def permitsEach (b : Grant O → Bool) : List (Policy O) → List Bool
  | [] => []
  | p :: ps => permits b p :: permitsEach b ps

end

omit [DecidableEq O] in
theorem effectsWith_eq_map (e : Grant O → Effect O) (ps : List (Policy O)) :
    effectsWith e ps = ps.map (effectWith e) := by
  induction ps with
  | nil => rfl
  | cons p ps ih => rw [effectsWith, ih, List.map_cons]

omit [Lattice O] [DecidableEq O] in
theorem permitsEach_eq_map (b : Grant O → Bool) (ps : List (Policy O)) :
    permitsEach b ps = ps.map (permits b) := by
  induction ps with
  | nil => rfl
  | cons p ps ih => rw [permitsEach, ih, List.map_cons]

theorem effect_resultWith (leaf : Grant O → EvalResult O) (p : Policy O) :
    (p.resultWith leaf).effect = p.effectWith fun g => (leaf g).effect := by
  induction p using Policy.ind with
  | permit o => rfl
  | deny => rfl
  | grant g => rfl
  | all ps ih =>
    rw [resultWith, effectWith, EvalResult.effect_all, resultsWith_eq_map, effectsWith_eq_map,
      List.map_map]
    exact congrArg Effect.all (List.map_congr_left ih)
  | any ps ih =>
    rw [resultWith, effectWith, EvalResult.effect_any, resultsWith_eq_map, effectsWith_eq_map,
      List.map_map]
    exact congrArg Effect.any (List.map_congr_left ih)
  | orElse primary fallback ihp ihf =>
    rw [resultWith, effectWith, ← ihp, ← ihf]
    split <;> rfl

omit [DecidableEq O] in
theorem isPermit_effectWith (e : Grant O → Effect O) (p : Policy O) :
    (p.effectWith e).isPermit = p.permits fun g => (e g).isPermit := by
  induction p using Policy.ind with
  | permit o => rfl
  | deny => rfl
  | grant g => rfl
  | all ps ih =>
    rw [effectWith, permits, Effect.isPermit_all, effectsWith_eq_map, permitsEach_eq_map,
      ← List.map_congr_left ih]
    simp [List.all_map, Function.comp_def]
  | any ps ih =>
    rw [effectWith, permits, Effect.isPermit_any, effectsWith_eq_map, permitsEach_eq_map,
      ← List.map_congr_left ih]
    simp [List.any_map, Function.comp_def]
  | orElse primary fallback ihp ihf =>
    rw [effectWith, permits, ← ihp, ← ihf]
    split
    · rename_i h; simp [h]
    · rename_i h; simp [h]

theorem isPermit_resultWith (leaf : Grant O → EvalResult O) (p : Policy O) :
    (p.resultWith leaf).effect.isPermit = p.permits fun g => (leaf g).effect.isPermit := by
  rw [effect_resultWith, isPermit_effectWith]

/-- The effect of a policy where facts are as `v` says. -/
abbrev effect (v : FactId → Bool) (p : Policy O) : Effect O :=
  p.effectWith fun g => (g.result v).effect

omit [DecidableEq O] in
theorem effect_all (v : FactId → Bool) (ps : List (Policy O)) :
    (Policy.all ps).effect v = Effect.all (ps.map (effect v)) := by
  rw [effect, effectWith, effectsWith_eq_map]

omit [DecidableEq O] in
theorem effect_any (v : FactId → Bool) (ps : List (Policy O)) :
    (Policy.any ps).effect v = Effect.any (ps.map (effect v)) := by
  rw [effect, effectWith, effectsWith_eq_map]

omit [DecidableEq O] in
theorem effect_orElse (v : FactId → Bool) (primary fallback : Policy O) :
    (Policy.orElse primary fallback).effect v =
      if (primary.effect v).isPermit then primary.effect v else fallback.effect v := by
  rw [effect, effectWith]

omit [DecidableEq O] in
theorem isPermit_effect (v : FactId → Bool) (p : Policy O) :
    (p.effect v).isPermit = p.permits fun g => g.condition.holds v := by
  rw [effect, isPermit_effectWith]
  simp only [Grant.isPermit_result]

end Policy

theorem effect_evaluate (p : Policy O) (facts : KnownFacts) :
    (evaluate p facts).effect = p.effect facts.truth := by
  rw [evaluate_eq, Policy.result, Policy.effect_resultWith]

theorem effect_evaluate_all (ps : List (Policy O)) (facts : KnownFacts) :
    (evaluate (.all ps) facts).effect =
      Effect.all (ps.map fun p => (evaluate p facts).effect) := by
  rw [evaluate_eq, Policy.result, Policy.resultWith, Policy.resultsWith_eq_map]
  simp only [EvalResult.effect_all, List.map_map, evaluate_eq]
  rfl

theorem effect_evaluate_any (ps : List (Policy O)) (facts : KnownFacts) :
    (evaluate (.any ps) facts).effect =
      Effect.any (ps.map fun p => (evaluate p facts).effect) := by
  rw [evaluate_eq, Policy.result, Policy.resultWith, Policy.resultsWith_eq_map]
  simp only [EvalResult.effect_any, List.map_map, evaluate_eq]
  rfl

/-! ## The rule for combined results -/

/-- A property of results that the constants have and the combinations keep. -/
structure EvalResult.Closed (P : EvalResult O → Prop) : Prop where
  constant : ∀ o, P (constantPermit o)
  generic : P genericDeny
  permitted : ∀ r o, P r → r.effect = .permit o →
    P (Permit.intoResult ⟨o, r.obligations, r.decisive⟩)
  denied : ∀ r, P r → r.effect = .deny → P ⟨.deny, [], r.decisive⟩
  meet : ∀ p q : Permit O, P p.intoResult → P q.intoResult → P (p.meet q).intoResult
  join : ∀ p q : Permit O, P p.intoResult → P q.intoResult → P (p.join q).intoResult

namespace EvalResult.Closed

variable {P : EvalResult O → Prop} {rs : List (EvalResult O)}

theorem allFrom (hP : Closed P) (h : ∀ r ∈ rs, P r) :
    ∀ acc : Option (Permit O), (∀ p ∈ acc, P p.intoResult) → P (EvalResult.allFrom acc rs) := by
  induction rs with
  | nil =>
    intro acc hacc
    rw [allFrom_nil]
    cases acc with
    | none => exact hP.generic
    | some p => exact hacc p rfl
  | cons r rs ih =>
    intro acc hacc
    have hr := h r List.mem_cons_self
    have hrest := ih fun r' hr' => h r' (List.mem_cons_of_mem _ hr')
    cases he : r.effect with
    | deny => rw [allFrom_deny he]; exact hr
    | permit o =>
      rw [allFrom_permit he]
      refine hrest _ ?_
      rintro q hq
      cases Option.some.inj hq
      cases acc with
      | none => exact hP.permitted r o hr he
      | some p => exact hP.meet p _ (hacc p rfl) (hP.permitted r o hr he)

theorem anyFrom (hP : Closed P) (h : ∀ r ∈ rs, P r) :
    ∀ (acc : Option (Permit O)) (first : Option (DecisiveClause O)),
      (∀ p ∈ acc, P p.intoResult) → (∀ c ∈ first, P ⟨.deny, [], c⟩) →
      P (EvalResult.anyFrom acc first rs) := by
  induction rs with
  | nil =>
    intro acc first hacc hfirst
    cases acc with
    | none =>
      cases first with
      | none => exact hP.generic
      | some c => exact hfirst c rfl
    | some p => exact hacc p rfl
  | cons r rs ih =>
    intro acc first hacc hfirst
    have hr := h r List.mem_cons_self
    have hrest := ih fun r' hr' => h r' (List.mem_cons_of_mem _ hr')
    cases he : r.effect with
    | deny =>
      rw [anyFrom_deny he]
      refine hrest _ _ hacc ?_
      rintro c hc
      cases Option.some.inj hc
      cases first with
      | none => exact hP.denied r hr he
      | some c => exact hfirst c rfl
    | permit o =>
      rw [anyFrom_permit he]
      refine hrest _ _ ?_ hfirst
      rintro q hq
      cases Option.some.inj hq
      cases acc with
      | none => exact hP.permitted r o hr he
      | some p => exact hP.join p _ (hacc p rfl) (hP.permitted r o hr he)

theorem all (hP : Closed P) (h : ∀ r ∈ rs, P r) : P (EvalResult.all rs) :=
  hP.allFrom h none fun _ hp => by cases hp

theorem any (hP : Closed P) (h : ∀ r ∈ rs, P r) : P (EvalResult.any rs) :=
  hP.anyFrom h none none (fun _ hp => by cases hp) fun _ hc => by cases hc

/-- The rule for policies: it holds of a policy's result when it holds of its grants' results. -/
theorem resultWith (hP : Closed P) {leaf : Grant O → EvalResult O} (p : Policy O) :
    (∀ g ∈ p.grants, P (leaf g)) → P (p.resultWith leaf) := by
  induction p using Policy.ind with
  | permit o => exact fun _ => hP.constant o
  | deny => exact fun _ => hP.generic
  | grant g => exact fun h => h g List.mem_cons_self
  | all ps ih =>
    intro h
    rw [Policy.resultWith, Policy.resultsWith_eq_map]
    refine hP.all (List.forall_mem_map.mpr fun p hp => ?_)
    exact ih p hp fun g hg => h g (Policy.mem_grantsOf.mpr ⟨p, hp, hg⟩)
  | any ps ih =>
    intro h
    rw [Policy.resultWith, Policy.resultsWith_eq_map]
    refine hP.any (List.forall_mem_map.mpr fun p hp => ?_)
    exact ih p hp fun g hg => h g (Policy.mem_grantsOf.mpr ⟨p, hp, hg⟩)
  | orElse primary fallback ihp ihf =>
    intro h
    rw [Policy.grants, List.forall_mem_append] at h
    rw [Policy.resultWith]
    split
    · exact ihp h.1
    · exact ihf h.2

/-- The rule for residuals: it holds of a residual's result when it holds of what its leaves
decide. -/
theorem result (hP : Closed P) {v : FactId → Bool} {leaves : List (ResidualPolicy O)}
    (permitWithTrace : ∀ o obs satisfied label,
      .permitWithTrace o obs satisfied label ∈ leaves → P ⟨.permit o, obs, .permit o satisfied label⟩)
    (denyWithTrace : ∀ denied unsatisfied label reason shape,
      .denyWithTrace denied unsatisfied label reason shape ∈ leaves →
        P ⟨.deny, [], .deny denied unsatisfied label reason shape⟩)
    (grant : ∀ g, .grant g ∈ leaves → P (g.result v)) (r : ResidualPolicy O) :
    r.leaves ⊆ leaves → P (r.result v) := by
  induction r using ResidualPolicy.ind with
  | permit o => exact fun _ => hP.constant o
  | deny => exact fun _ => hP.generic
  | permitWithTrace o obs satisfied label =>
    exact fun h => permitWithTrace o obs satisfied label (h List.mem_cons_self)
  | denyWithTrace denied unsatisfied label reason shape =>
    exact fun h => denyWithTrace denied unsatisfied label reason shape (h List.mem_cons_self)
  | grant g => exact fun h => grant g (h List.mem_cons_self)
  | all rs ih =>
    intro h
    rw [ResidualPolicy.result, ResidualPolicy.results_eq_map]
    refine hP.all (List.forall_mem_map.mpr fun r hr => ?_)
    exact ih r hr (List.Subset.trans (ResidualPolicy.leaves_subset hr) h)
  | any rs ih =>
    intro h
    rw [ResidualPolicy.result, ResidualPolicy.results_eq_map]
    refine hP.any (List.forall_mem_map.mpr fun r hr => ?_)
    exact ih r hr (List.Subset.trans (ResidualPolicy.leaves_subset hr) h)
  | orElse primary fallback ihp ihf =>
    intro h
    rw [ResidualPolicy.leaves, List.append_subset] at h
    rw [ResidualPolicy.result]
    split
    · exact ihp h.1
    · exact ihf h.2

end EvalResult.Closed

/-! ## Coherent results -/

/-- The clause of a permit grants its outcome; a denial has no obligations. -/
inductive EvalResult.Coherent : EvalResult O → Prop
  | permit (o : O) (obs : List ObligationId) (satisfied : List FactId)
      (label : Option ClauseLabel) : Coherent ⟨.permit o, obs, .permit o satisfied label⟩
  | deny (denied : Option O) (unsatisfied : List FactId) (label : Option ClauseLabel)
      (reason : Option ReasonCode) (shape : DenyShape) :
      Coherent ⟨.deny, [], .deny denied unsatisfied label reason shape⟩

omit [Lattice O] [DecidableEq O] in
theorem EvalResult.Coherent.permitted {r : EvalResult O} {o : O} (h : r.Coherent)
    (he : r.effect = .permit o) : (Permit.intoResult ⟨o, r.obligations, r.decisive⟩).Coherent := by
  cases h with
  | permit o' obs sat label => cases he; exact .permit o obs sat label
  | deny => cases he

omit [Lattice O] [DecidableEq O] in
theorem EvalResult.Coherent.clause {r : EvalResult O} {o : O} (h : r.Coherent)
    (he : r.effect = .permit o) : ∃ satisfied label, r.decisive = .permit o satisfied label := by
  cases h with
  | permit o' obs sat label => cases he; exact ⟨sat, label, rfl⟩
  | deny => cases he

omit [Lattice O] [DecidableEq O] in
theorem EvalResult.Coherent.obligations_of_deny {r : EvalResult O} (h : r.Coherent)
    (he : r.effect = .deny) : r.obligations = [] := by
  cases h with
  | permit => cases he
  | deny => rfl

theorem Permit.coherent_meet {p q : Permit O} (hp : p.intoResult.Coherent)
    (hq : q.intoResult.Coherent) : (p.meet q).intoResult.Coherent := by
  unfold meet
  dsimp only
  split
  · exact hp
  · split
    · exact hq
    · exact .permit _ _ _ _

theorem Permit.coherent_join {p q : Permit O} (hp : p.intoResult.Coherent)
    (hq : q.intoResult.Coherent) : (p.join q).intoResult.Coherent := by
  unfold join
  dsimp only
  split
  · obtain ⟨sat, label, hc⟩ := hp.clause rfl
    have hd : p.decisive = .permit p.outcome sat label := hc
    simp only [intoResult, hd]
    exact .permit _ _ _ _
  · split
    · exact hq
    · split
      · exact hp
      · exact .permit _ _ _ _

theorem EvalResult.closed_coherent : Closed (Coherent : EvalResult O → Prop) where
  constant _ := .permit _ _ _ _
  generic := .deny _ _ _ _ _
  permitted _ _ hr he := hr.permitted he
  denied r hr he := by
    cases hr with
    | permit => cases he
    | deny => exact .deny _ _ _ _ _
  meet _ _ hp hq := Permit.coherent_meet hp hq
  join _ _ hp hq := Permit.coherent_join hp hq

theorem Policy.coherent_resultWith {leaf : Grant O → EvalResult O} (h : ∀ g, (leaf g).Coherent)
    (p : Policy O) : (p.resultWith leaf).Coherent :=
  EvalResult.closed_coherent.resultWith p fun g _ => h g

omit [Lattice O] [DecidableEq O] in
theorem Grant.coherent_result (v : FactId → Bool) (g : Grant O) : (g.result v).Coherent := by
  unfold Grant.result grantResult
  split
  · exact .permit _ _ _ _
  · exact .deny _ _ _ _ _

theorem ResidualPolicy.coherent_result (v : FactId → Bool) (r : ResidualPolicy O) :
    (r.result v).Coherent :=
  EvalResult.closed_coherent.result (fun _ _ _ _ _ => .permit _ _ _ _)
    (fun _ _ _ _ _ _ => .deny _ _ _ _ _) (fun g _ => g.coherent_result v) r (List.Subset.refl _)

end Policies

end Gatekeep
