import Gatekeep.Coherence
import Gatekeep.Obligations
import Gatekeep.Support.Graded

/-!
# Gatekeep.Decisive

Which obligations a decision has, in terms of the decisions of its arms.

An arm's decision is read as a graded set: its outcome and its obligations. The loop of a
disjunction is then `Graded.joinAll` over the outcomes with a denial below all of them
(`mem_obligations_any_iff`), the loop of a conjunction is `Graded.meetAll` (`mem_obligations_all_iff`).
-/

namespace Gatekeep

variable {O : Type}

/-! ## Effects in the two orders -/

namespace Effect

/-- An effect in the order of joins: a denial is below every permit. -/
def toWithBot : Effect O → WithBot O
  | .permit o => (o : WithBot O)
  | .deny => ⊥

/-- An effect in the order of meets: a denial stands for the meet of no arms. -/
def toWithTop : Effect O → WithTop O
  | .permit o => (o : WithTop O)
  | .deny => ⊤

theorem toWithBot_injective : Function.Injective (toWithBot (O := O)) := by
  intro e e' h
  cases e with
  | permit o =>
    cases e' with
    | permit o' => exact congrArg permit (WithBot.coe_injective h)
    | deny => exact absurd h (WithBot.coe_ne_bot)
  | deny =>
    cases e' with
    | permit o' => exact absurd h.symm (WithBot.coe_ne_bot)
    | deny => rfl

theorem toWithTop_injective : Function.Injective (toWithTop (O := O)) := by
  intro e e' h
  cases e with
  | permit o =>
    cases e' with
    | permit o' => exact congrArg permit (WithTop.coe_injective h)
    | deny => exact absurd h (WithTop.coe_ne_top)
  | deny =>
    cases e' with
    | permit o' => exact absurd h.symm (WithTop.coe_ne_top)
    | deny => rfl

theorem toWithBot_surjective : Function.Surjective (toWithBot (O := O)) := by
  intro b
  induction b using WithBot.recBotCoe with
  | bot => exact ⟨.deny, rfl⟩
  | coe o => exact ⟨.permit o, rfl⟩

variable [Lattice O]

/-- `e` grants no more than `e'`, in the order of joins. -/
def AtMost : Effect O → Effect O → Prop
  | .deny, _ => True
  | .permit _, .deny => False
  | .permit a, .permit b => Lattice.join a b = b

/-- `e` grants strictly less than `e'`, in the order of joins. -/
def Below (e e' : Effect O) : Prop := e.AtMost e' ∧ e ≠ e'

section Join

variable [SemilatticeSup O] (hjoin : ∀ a b : O, Lattice.join a b = a ⊔ b)
include hjoin

theorem atMost_iff (e e' : Effect O) : e.AtMost e' ↔ e.toWithBot ≤ e'.toWithBot := by
  cases e with
  | deny => exact iff_of_true trivial bot_le
  | permit a =>
    cases e' with
    | deny => simp [AtMost, toWithBot]
    | permit b => simp [AtMost, toWithBot, hjoin]

theorem below_iff (e e' : Effect O) : e.Below e' ↔ e.toWithBot < e'.toWithBot := by
  rw [Below, atMost_iff hjoin, lt_iff_le_and_ne, toWithBot_injective.ne_iff]

theorem coe_foldl_join (os : List O) (o : O) :
    ((os.foldl Lattice.join o : O) : WithBot O) =
      (o : WithBot O) ⊔ (os.map (fun o => (o : WithBot O)) : Multiset (WithBot O)).sup := by
  induction os generalizing o with
  | nil => simp
  | cons o' os ih =>
    rw [List.foldl_cons, ih, hjoin, WithBot.coe_sup, sup_assoc]
    rfl

theorem toWithBot_any (es : List (Effect O)) :
    (Effect.any es).toWithBot = ((es.map toWithBot : List (WithBot O)) : Multiset (WithBot O)).sup := by
  have hcombine : ∀ os : List O, (combine Lattice.join os).toWithBot =
      (os.map (fun o => (o : WithBot O)) : Multiset (WithBot O)).sup := by
    intro os
    cases os with
    | nil => rfl
    | cons o os => exact coe_foldl_join hjoin os o
  rw [Effect.any, hcombine]
  induction es with
  | nil => rfl
  | cons e es ih =>
    cases e with
    | permit o => exact congrArg ((o : WithBot O) ⊔ ·) ih
    | deny => exact ih.trans (bot_sup_eq _).symm

end Join

section Meet

variable [SemilatticeInf O] (hmeet : ∀ a b : O, Lattice.meet a b = a ⊓ b)
include hmeet

theorem coe_foldl_meet (os : List O) (o : O) :
    ((os.foldl Lattice.meet o : O) : WithTop O) =
      (o : WithTop O) ⊓ (os.map (fun o => (o : WithTop O)) : Multiset (WithTop O)).inf := by
  induction os generalizing o with
  | nil => simp
  | cons o' os ih =>
    rw [List.foldl_cons, ih, hmeet, WithTop.coe_inf, inf_assoc]
    rfl

/-- Of arms that all permit. -/
theorem toWithTop_all {es : List (Effect O)} (h : ∀ e ∈ es, e.isPermit = true) :
    (Effect.all es).toWithTop = ((es.map toWithTop : List (WithTop O)) : Multiset (WithTop O)).inf := by
  have hcombine : ∀ os : List O, (combine Lattice.meet os).toWithTop =
      (os.map (fun o => (o : WithTop O)) : Multiset (WithTop O)).inf := by
    intro os
    cases os with
    | nil => rfl
    | cons o os => exact coe_foldl_meet hmeet os o
  rw [Effect.all, if_pos (List.all_eq_true.mpr h), hcombine]
  clear hcombine
  induction es with
  | nil => rfl
  | cons e es ih =>
    have hes := ih fun e' he' => h e' (List.mem_cons_of_mem _ he')
    cases e with
    | permit o => exact congrArg ((o : WithTop O) ⊓ ·) hes
    | deny => exact absurd (h .deny List.mem_cons_self) (by simp [isPermit])

end Meet

end Effect

/-- The order of joins. -/
abbrev Lattice.Lawful.joinOrder (O : Type) [Lattice O] [Lattice.Lawful O] : SemilatticeSup O :=
  let _ : Max O := ⟨Lattice.join⟩
  SemilatticeSup.mk' Lattice.Lawful.join_comm Lattice.Lawful.join_assoc Lattice.Lawful.join_idem

/-- The order of meets. -/
abbrev Lattice.Lawful.meetOrder (O : Type) [Lattice O] [Lattice.Lawful O] : SemilatticeInf O :=
  let _ : Min O := ⟨Lattice.meet⟩
  SemilatticeInf.mk' Lattice.Lawful.meet_comm Lattice.Lawful.meet_assoc Lattice.Lawful.meet_idem

/-! ## Arms as graded sets -/

def raised (effect : Effect O) (obligations : List ObligationId) : WithBot O × Set ObligationId :=
  (effect.toWithBot, {x | x ∈ obligations})

def lowered (effect : Effect O) (obligations : List ObligationId) : WithTop O × Set ObligationId :=
  (effect.toWithTop, {x | x ∈ obligations})

def Decision.raised (d : Decision O) : WithBot O × Set ObligationId :=
  Gatekeep.raised d.effect d.obligations

def Decision.lowered (d : Decision O) : WithTop O × Set ObligationId :=
  Gatekeep.lowered d.effect d.obligations

section Join

variable [Lattice O] [DecidableEq O] [SemilatticeSup O]
  (hjoin : ∀ a b : O, Lattice.join a b = a ⊔ b)
include hjoin

omit [DecidableEq O] in
theorem grade_raised {ι : Type} (effect : ι → Effect O) (obligations : ι → List ObligationId)
    (l : List ι) :
    Graded.grade (l.map fun i => raised (effect i) (obligations i)) =
      (Effect.any (l.map effect)).toWithBot := by
  rw [Effect.toWithBot_any hjoin, Graded.grade, List.map_map, List.map_map]
  rfl

/-- `Permit::join` is one step of the graded join. -/
theorem Permit.raised_join (p q : Permit O) :
    raised (.permit (p.join q).outcome) (p.join q).obligations =
      Graded.joinStep (raised (.permit p.outcome) p.obligations)
        (raised (.permit q.outcome) q.obligations) := by
  refine Prod.ext ?_ (Set.ext fun x => ?_)
  · simp only [raised, Effect.toWithBot, Permit.outcome_join, hjoin, WithBot.coe_sup]
    rfl
  · rw [Graded.mem_joinStep]
    simp only [raised, Effect.toWithBot, WithBot.coe_lt_coe, Set.mem_ofPred_eq]
    unfold Permit.join
    simp only [hjoin]
    split_ifs with htie hq hp
    · -- equal outcomes
      have heq : p.outcome = q.outcome := htie.1.symm.trans htie.2
      simp [mem_unionObligations, heq, or_comm]
    · have hlt : p.outcome < q.outcome :=
        lt_of_le_of_ne (sup_eq_right.mp hq) fun h => htie ⟨hq.trans h.symm, hq⟩
      simp [hlt, hlt.not_gt]
    · have hlt : q.outcome < p.outcome :=
        lt_of_le_of_ne (sup_eq_left.mp hp) fun h => htie ⟨hp, hp.trans h.symm⟩
      simp [hlt, hlt.not_gt]
    · have hpq : ¬ p.outcome < q.outcome := fun h => hq (sup_eq_right.mpr h.le)
      have hqp : ¬ q.outcome < p.outcome := fun h => hp (sup_eq_left.mpr h.le)
      simp [Permit.combined, mem_unionObligations, hpq, hqp, or_comm]

/-- The winning permit so far, as a graded set. -/
def raisedWinning (winning : Option (Permit O)) : WithBot O × Set ObligationId :=
  (winning.map fun p => raised (.permit p.outcome) p.obligations).getD (⊥, ∅)

theorem mem_obligations_anyFrom (x : ObligationId) (rs : List (EvalResult O))
    (hc : ∀ r ∈ rs, r.Coherent) :
    ∀ (acc : Option (Permit O)) (first : Option (DecisiveClause O)),
      x ∈ (EvalResult.anyFrom acc first rs).obligations ↔
        x ∈ ((rs.map fun r => raised r.effect r.obligations).foldl Graded.joinStep
          (raisedWinning acc)).2 := by
  induction rs with
  | nil =>
    intro acc first
    cases acc with
    | none => simp [EvalResult.anyFrom, Permit.fold, raisedWinning]
    | some p => rfl
  | cons r rs ih =>
    intro acc first
    have hrest := ih fun r' hr' => hc r' (List.mem_cons_of_mem _ hr')
    rw [List.map_cons, List.foldl_cons]
    cases he : r.effect with
    | deny =>
      -- a denying arm has no obligations and the least grade, so it changes nothing
      have hobs : r.obligations = [] := (hc r List.mem_cons_self).obligations_of_deny he
      have hstep : Graded.joinStep (raisedWinning acc) (raised .deny r.obligations) =
          raisedWinning acc := by
        refine Prod.ext (sup_bot_eq _) (Set.ext fun y => ?_)
        rw [Graded.mem_joinStep, hobs]
        simp [raised, Effect.toWithBot]
      rw [EvalResult.anyFrom_deny he, hrest, hstep]
    | permit o =>
      rw [EvalResult.anyFrom_permit he, hrest]
      cases acc with
      | none =>
        have hstep : Graded.joinStep (⊥, ∅) (raised (.permit o) r.obligations) =
            raised (.permit o) r.obligations :=
          Graded.joinStep_lt (WithBot.bot_lt_coe o)
        simp only [raisedWinning, Option.map_none, Option.getD_none, Option.map_some,
          Option.getD_some, hstep]
      | some p =>
        simp only [raisedWinning, Option.map_some, Option.getD_some, Permit.raised_join hjoin]

theorem mem_obligations_any_iff {x : ObligationId} {rs : List (EvalResult O)}
    (hc : ∀ r ∈ rs, r.Coherent) :
    x ∈ (EvalResult.any rs).obligations ↔
      x ∈ (Graded.joinAll (rs.map fun r => raised r.effect r.obligations)).2 :=
  mem_obligations_anyFrom hjoin x rs hc none none

theorem mem_obligations_evaluate_any {x : ObligationId} {ps : List (Policy O)} {facts : KnownFacts} :
    x ∈ (evaluate (.any ps) facts).obligations ↔
      x ∈ (Graded.joinAll (ps.map fun p => (evaluate p facts).raised)).2 := by
  have hc : ∀ r ∈ ps.map (Policy.result facts.truth), r.Coherent :=
    List.forall_mem_map.mpr fun p _ => p.coherent_resultWith (Grant.coherent_result _)
  rw [evaluate_eq, Policy.result, Policy.resultWith, Policy.resultsWith_eq_map]
  refine (mem_obligations_any_iff hjoin hc).trans ?_
  simp only [List.map_map, Decision.raised, evaluate_eq]
  rfl

end Join

section Meet

variable [Lattice O] [DecidableEq O] [SemilatticeInf O]
  (hmeet : ∀ a b : O, Lattice.meet a b = a ⊓ b)
include hmeet

omit [DecidableEq O] in
theorem floor_lowered {ι : Type} (effect : ι → Effect O) (obligations : ι → List ObligationId)
    {l : List ι} (h : ∀ i ∈ l, (effect i).isPermit = true) :
    Graded.floor (l.map fun i => lowered (effect i) (obligations i)) =
      (Effect.all (l.map effect)).toWithTop := by
  rw [Effect.toWithTop_all hmeet (List.forall_mem_map.mpr h), Graded.floor, List.map_map,
    List.map_map]
  rfl

/-- `Permit::meet` is one step of the graded meet. -/
theorem Permit.lowered_meet (p q : Permit O) :
    lowered (.permit (p.meet q).outcome) (p.meet q).obligations =
      Graded.meetStep (lowered (.permit p.outcome) p.obligations)
        (lowered (.permit q.outcome) q.obligations) := by
  refine Prod.ext ?_ (Set.ext fun x => ?_)
  · simp only [lowered, Effect.toWithTop, Permit.outcome_meet, hmeet, WithTop.coe_inf]
    rfl
  · rw [Graded.mem_meetStep]
    simp only [lowered, Effect.toWithTop, WithTop.coe_le_coe, Set.mem_ofPred_eq]
    unfold Permit.meet
    dsimp only
    by_cases hp : p.outcome ≤ q.outcome
    · rw [if_pos (by rw [hmeet, inf_eq_left.mpr hp])]
      simp [hp]
    · rw [if_neg (by rwa [hmeet, inf_eq_left])]
      by_cases hq : q.outcome ≤ p.outcome
      · rw [if_pos (by rw [hmeet, inf_eq_right.mpr hq])]
        simp [hp, hq]
      · rw [if_neg (by rwa [hmeet, inf_eq_right])]
        simp [Permit.combined, hp, hq]

/-- The permit so far of a conjunction, as a graded set. -/
def loweredPermit (permit : Option (Permit O)) : WithTop O × Set ObligationId :=
  (permit.map fun p => lowered (.permit p.outcome) p.obligations).getD (⊤, ∅)

theorem mem_obligations_allFrom (x : ObligationId) (rs : List (EvalResult O))
    (hp : ∀ r ∈ rs, r.effect.isPermit = true) :
    ∀ acc : Option (Permit O),
      x ∈ (EvalResult.allFrom acc rs).obligations ↔
        x ∈ ((rs.map fun r => lowered r.effect r.obligations).foldl Graded.meetStep
          (loweredPermit acc)).2 := by
  induction rs with
  | nil =>
    intro acc
    rw [EvalResult.allFrom_nil]
    cases acc with
    | none => simp [loweredPermit, genericDeny]
    | some p => rfl
  | cons r rs ih =>
    intro acc
    have hrest := ih fun r' hr' => hp r' (List.mem_cons_of_mem _ hr')
    obtain ⟨o, he⟩ := Effect.isPermit_eq_true.mp (hp r List.mem_cons_self)
    rw [List.map_cons, List.foldl_cons, EvalResult.allFrom_permit he, hrest, he]
    cases acc with
    | none =>
      have hstep : Graded.meetStep (⊤, ∅) (lowered (.permit o) r.obligations) =
          lowered (.permit o) r.obligations := by
        refine Prod.ext (top_inf_eq _) ?_
        simp [Graded.meetStep, lowered, Effect.toWithTop]
      simp only [loweredPermit, Option.map_none, Option.getD_none, Option.map_some,
        Option.getD_some, hstep]
    | some p =>
      simp only [loweredPermit, Option.map_some, Option.getD_some, Permit.lowered_meet hmeet]

theorem mem_obligations_all_iff {x : ObligationId} {rs : List (EvalResult O)}
    (hp : ∀ r ∈ rs, r.effect.isPermit = true) :
    x ∈ (EvalResult.all rs).obligations ↔
      x ∈ (Graded.meetAll (rs.map fun r => lowered r.effect r.obligations)).2 :=
  mem_obligations_allFrom hmeet x rs hp none

theorem mem_obligations_evaluate_all {x : ObligationId} {ps : List (Policy O)} {facts : KnownFacts}
    (hp : ∀ p ∈ ps, (evaluate p facts).isPermit = true) :
    x ∈ (evaluate (.all ps) facts).obligations ↔
      x ∈ (Graded.meetAll (ps.map fun p => (evaluate p facts).lowered)).2 := by
  have hpermit : ∀ r ∈ ps.map (Policy.result facts.truth), r.effect.isPermit = true := by
    refine List.forall_mem_map.mpr fun p hmem => ?_
    have h := hp p hmem
    rwa [evaluate_eq] at h
  rw [evaluate_eq, Policy.result, Policy.resultWith, Policy.resultsWith_eq_map]
  refine (mem_obligations_all_iff hmeet hpermit).trans ?_
  simp only [List.map_map, Decision.lowered, evaluate_eq]
  rfl

end Meet

end Gatekeep
