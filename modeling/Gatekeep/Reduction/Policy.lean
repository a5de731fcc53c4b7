import Gatekeep.Effects
import Gatekeep.Reduction.Condition

/-!
# Gatekeep.Reduction.Policy

What the reduction of a policy computes, without its loops and accumulators.

* `Policy.verdict`: whether a policy permits, when `u` settles it.
* `Policy.residue`: what is left of it when `u` does not.
* `Policy.probes`: the known facts read on the way.
* `Policy.settledFirst`: the policy with the arms that `u` settles moved in front of the others,
  in every conjunction and disjunction. This is the order in which reduction combines arms.

`reducePolicy_eq` says that this is what `reducePolicy` returns. With nothing unknown, reduction is
evaluation (`partialEvaluate_of_known`).
-/

namespace Gatekeep

/-- A result as a residual policy that evaluates to it. -/
def EvalResult.constant {O : Type} (r : EvalResult O) : ResidualPolicy O :=
  policyFromDecision (toDecision (r, []))

theorem EvalResult.result_constant {O : Type} [Lattice O] [DecidableEq O] {r : EvalResult O}
    (h : r.Coherent) (v : FactId → Bool) : r.constant.result v = r := by
  cases h <;> rfl

theorem EvalResult.reads_constant {O : Type} [Lattice O] [DecidableEq O] {r : EvalResult O}
    (h : r.Coherent) (v : FactId → Bool) : r.constant.reads v = [] := by
  cases h <;> rfl

namespace Policy

section Definitions

variable {O : Type} (u : FactId → Option Bool)

mutual

/-- Whether a policy permits, as far as `u` settles it. A conjunction is settled by one arm known to
deny; a disjunction only by all of its arms, since each may add to the outcome. -/
def verdict : Policy O → Option Bool
  | .permit _ => some true
  | .deny => some false
  | .grant g => g.condition.kleene u
  | .all policies => if policies.isEmpty then some false else Kleene.conj (verdicts policies)
  | .any policies => if none ∈ verdicts policies then none else Kleene.disj (verdicts policies)
  | .orElse primary fallback =>
    match verdict primary with
    | some true => some true
    | some false => verdict fallback
    | none => none

def verdicts : List (Policy O) → List (Option Bool)
  | [] => []
  | p :: ps => verdict p :: verdicts ps

end

theorem verdicts_eq_map (ps : List (Policy O)) : verdicts u ps = ps.map (verdict u) := by
  induction ps with
  | nil => rfl
  | cons p ps ih => rw [verdicts, ih, List.map_cons]

variable {u}

/-- A conjunction is open because of an open arm, and then no arm is known to deny. -/
theorem verdict_all_eq_none {ps : List (Policy O)} (h : verdict u (.all ps) = none) :
    (∃ p ∈ ps, verdict u p = none) ∧ ∀ p ∈ ps, verdict u p ≠ some false := by
  rw [verdict, verdicts_eq_map] at h
  split at h
  · cases h
  · refine ⟨List.mem_map.mp (Kleene.conj_eq_none h), fun p hp hpv => ?_⟩
    rw [Kleene.conj_eq_false.mpr (List.mem_map.mpr ⟨p, hp, hpv⟩)] at h
    cases h

theorem verdict_any_eq_none {ps : List (Policy O)} (h : verdict u (.any ps) = none) :
    ∃ p ∈ ps, verdict u p = none := by
  rw [verdict, verdicts_eq_map] at h
  split at h
  · rename_i hmem
    exact List.mem_map.mp hmem
  · exact List.mem_map.mp (Kleene.disj_eq_none h)

variable (u)

mutual

/-- The known facts read: a conjunction stops at an arm known to deny, and a fallback is not looked
at when the primary is known to permit. -/
def probes : Policy O → List FactId
  | .permit _ => []
  | .deny => []
  | .grant g => g.condition.probes u
  | .all policies => probesAll policies
  | .any policies => probesAny policies
  | .orElse primary fallback =>
    probes primary ++ if verdict u primary = some true then [] else probes fallback

def probesAll : List (Policy O) → List FactId
  | [] => []
  | p :: ps => probes p ++ if verdict u p = some false then [] else probesAll ps

def probesAny : List (Policy O) → List FactId
  | [] => []
  | p :: ps => probes p ++ probesAny ps

end

mutual

/-- The policy with settled arms in front of open ones, throughout. -/
def settledFirst : Policy O → Policy O
  | .permit outcome => .permit outcome
  | .deny => .deny
  | .grant g => .grant g
  | .all policies => .all (settledArms policies ++ openArms policies)
  | .any policies => .any (settledArms policies ++ openArms policies)
  | .orElse primary fallback => .orElse (settledFirst primary) (settledFirst fallback)

def settledArms : List (Policy O) → List (Policy O)
  | [] => []
  | p :: ps => if verdict u p = none then settledArms ps else settledFirst p :: settledArms ps

def openArms : List (Policy O) → List (Policy O)
  | [] => []
  | p :: ps => if verdict u p = none then settledFirst p :: openArms ps else openArms ps

end

theorem settledArms_eq_map (ps : List (Policy O)) :
    settledArms u ps = (ps.filter fun p => verdict u p ≠ none).map (settledFirst u) := by
  induction ps with
  | nil => rfl
  | cons p ps ih =>
    rw [settledArms, ih, List.filter_cons]
    by_cases h : verdict u p = none <;> simp [h]

theorem openArms_eq_map (ps : List (Policy O)) :
    openArms u ps = (ps.filter fun p => verdict u p = none).map (settledFirst u) := by
  induction ps with
  | nil => rfl
  | cons p ps ih =>
    rw [openArms, ih, List.filter_cons]
    by_cases h : verdict u p = none <;> simp [h]

theorem settledFirst_perm (ps : List (Policy O)) :
    (settledArms u ps ++ openArms u ps).Perm (ps.map (settledFirst u)) := by
  rw [settledArms_eq_map, openArms_eq_map, ← List.map_append]
  refine List.Perm.map _ ?_
  have h := List.filter_append_perm (fun p : Policy O => decide (verdict u p ≠ none)) ps
  simpa using h

/-- What does not depend on the order inside the arms depends on the arms' order only. -/
theorem map_settledFirst_perm {α : Type} {f : Policy O → α} {ps : List (Policy O)}
    (h : ∀ p ∈ ps, f (settledFirst u p) = f p) :
    ((settledArms u ps ++ openArms u ps).map f).Perm (ps.map f) := by
  have hperm := (settledFirst_perm u ps).map f
  rw [List.map_map] at hperm
  exact hperm.trans (.of_eq (List.map_congr_left h))

variable [Lattice O] [DecidableEq O] (w : FactId → Bool)

/-- The result of a settled policy. `w` is the truth of the facts with the unknown ones taken to be
absent, which is what a settled grant is evaluated against. -/
def settledResult (p : Policy O) : EvalResult O := (p.settledFirst u).result w

/-- The settled arms that permit, as constants. -/
def grantedArms (ps : List (Policy O)) : List (ResidualPolicy O) :=
  (ps.filter fun p => verdict u p = some true).map fun p => (settledResult u w p).constant

/-- The first settled arm that denies, as a constant. -/
def firstDenied (ps : List (Policy O)) : Option (ResidualPolicy O) :=
  (ps.find? fun p => verdict u p = some false).map fun p => (settledResult u w p).constant

mutual

/-- What is left of a policy that `u` does not settle. A disjunction keeps its first known denial
only while no arm is known to permit. -/
def residue : Policy O → ResidualPolicy O
  | .permit outcome => .permit outcome
  | .deny => .deny
  | .grant g => .grant { g with condition := g.condition.residue u }
  | .all policies => .all (grantedArms u w policies ++ residues policies)
  | .any policies =>
    .any ((if (grantedArms u w policies).isEmpty then (firstDenied u w policies).toList
      else grantedArms u w policies) ++ residues policies)
  | .orElse primary fallback =>
    if verdict u primary = some false then residue fallback
    else .orElse (residue primary)
      (if verdict u fallback = none then residue fallback
      else (settledResult u w fallback).constant)

def residues : List (Policy O) → List (ResidualPolicy O)
  | [] => []
  | p :: ps => if verdict u p = none then residue p :: residues ps else residues ps

end

theorem residues_eq_map (ps : List (Policy O)) :
    residues u w ps = (ps.filter fun p => verdict u p = none).map (residue u w) := by
  induction ps with
  | nil => rfl
  | cons p ps ih =>
    rw [residues, ih, List.filter_cons]
    by_cases h : verdict u p = none <;> simp [h]

theorem residues_eq_nil {ps : List (Policy O)} :
    residues u w ps = [] ↔ none ∉ verdicts u ps := by
  rw [residues_eq_map, List.map_eq_nil_iff, List.filter_eq_nil_iff, verdicts_eq_map]
  simp

/-- What a reduction returns, given its readings of the policy. -/
def reduced (presence : FactId → Presence) (p : Policy O) : Residual O :=
  match verdict u p with
  | some _ => .resolved (EvalResult.toDecision (settledResult u w p, logged presence (probes u p)))
  | none => .pending (residue u w p) (logged presence (probes u p))

end Definitions

section Verdict

variable {O : Type} {u : FactId → Option Bool}

/-- A verdict does not contradict whether the policy permits. -/
theorem within_verdict {b : Grant O → Bool}
    (h : ∀ g, Kleene.Within (g.condition.kleene u) (b g)) (p : Policy O) :
    Kleene.Within (p.verdict u) (p.permits b) := by
  induction p using Policy.ind with
  | permit o => exact fun _ h => (Option.some.inj h).symm
  | deny => exact fun _ h => (Option.some.inj h).symm
  | grant g => exact h g
  | all ps ih =>
    have hall := Kleene.within_conj ih
    rw [verdict, permits, permitsEach_eq_map, verdicts_eq_map, List.all_map]
    cases ps with
    | nil => exact fun _ h => (Option.some.inj h).symm
    | cons p ps => exact hall
  | any ps ih =>
    have hany := Kleene.within_disj ih
    rw [verdict, permits, permitsEach_eq_map, verdicts_eq_map, List.any_map]
    split
    · intro _ h
      cases h
    · exact hany
  | orElse primary fallback ihp ihf =>
    rw [verdict, permits]
    split
    · rename_i hp
      rw [← ihp _ hp]
      exact fun _ h => (Option.some.inj h).symm
    · rename_i hp
      rw [← ihp _ hp]
      exact ihf
    · intro _ h
      cases h

/-- An open policy with a fallback has an open primary, unless that is known to deny. -/
theorem verdict_primary {primary fallback : Policy O}
    (h : verdict u (.orElse primary fallback) = none) (hp : verdict u primary ≠ some false) :
    verdict u primary = none := by
  match hpv : verdict u primary with
  | none => rfl
  | some true => rw [verdict, hpv] at h; cases h
  | some false => exact absurd hpv hp

theorem permits_settledFirst (b : Grant O → Bool) (p : Policy O) :
    (p.settledFirst u).permits b = p.permits b := by
  induction p using Policy.ind with
  | permit o => rfl
  | deny => rfl
  | grant g => rfl
  | all ps ih =>
    have hperm := map_settledFirst_perm u ih
    have hempty := (settledFirst_perm u ps).isEmpty_eq
    rw [List.isEmpty_map] at hempty
    rw [settledFirst, permits, permits, permitsEach_eq_map, permitsEach_eq_map, hperm.all_eq, hempty]
  | any ps ih =>
    have hperm := map_settledFirst_perm u ih
    rw [settledFirst, permits, permits, permitsEach_eq_map, permitsEach_eq_map, hperm.any_eq]
  | orElse primary fallback ihp ihf => rw [settledFirst, permits, permits, ihp, ihf]

end Verdict

section Settled

variable {O : Type} [Lattice O] [DecidableEq O] {u : FactId → Option Bool} {w : FactId → Bool}

theorem coherent_settledResult (p : Policy O) : (p.settledResult u w).Coherent :=
  coherent_resultWith (Grant.coherent_result w) _

theorem isPermit_settledResult (h : Agrees u w) {p : Policy O} {b : Bool}
    (hp : p.verdict u = some b) : (p.settledResult u w).effect.isPermit = b := by
  rw [settledResult, isPermit_resultWith, permits_settledFirst]
  refine (within_verdict (fun g => ?_) p b hp).symm
  rw [Grant.isPermit_result]
  exact g.condition.within_kleene h

end Settled

end Policy

section Loops

variable {O : Type} [Lattice O] [DecidableEq O] (facts : PartialFacts)

open Policy EvalResult

/-! One arm of `reduceAll` and `reduceAny` at a time. -/

theorem reduceAll_deny {r : EvalResult O} (he : r.effect = .deny) (log consulted : Consulted)
    (arms : List (Residual O)) (pending permits : List (ResidualPolicy O)) :
    reduceAll facts (.resolved (toDecision (r, log)) :: arms) consulted pending permits =
      .resolved (toDecision (r, consulted.extend log)) := by
  have hd : (toDecision (r, log)).effect = .deny := he
  rw [reduceAll, hd]
  rfl

theorem reduceAll_permit {r : EvalResult O} {o : O} (he : r.effect = .permit o)
    (log consulted : Consulted) (arms : List (Residual O))
    (pending permits : List (ResidualPolicy O)) :
    reduceAll facts (.resolved (toDecision (r, log)) :: arms) consulted pending permits =
      reduceAll facts arms (consulted.extend log) pending (permits ++ [r.constant]) := by
  have hd : (toDecision (r, log)).effect = .permit o := he
  rw [reduceAll, hd]
  rfl

theorem reduceAny_deny {r : EvalResult O} (he : r.effect = .deny) (log consulted : Consulted)
    (arms : List (Residual O)) (pending permits : List (ResidualPolicy O))
    (first : Option (Decision O)) :
    reduceAny facts (.resolved (toDecision (r, log)) :: arms) consulted pending permits first =
      reduceAny facts arms (consulted.extend log) pending permits
        (some (first.getD (toDecision (r, log)))) := by
  have hd : (toDecision (r, log)).effect = .deny := he
  rw [reduceAny, hd]
  rfl

theorem reduceAny_permit {r : EvalResult O} {o : O} (he : r.effect = .permit o)
    (log consulted : Consulted) (arms : List (Residual O))
    (pending permits : List (ResidualPolicy O)) (first : Option (Decision O)) :
    reduceAny facts (.resolved (toDecision (r, log)) :: arms) consulted pending permits first =
      reduceAny facts arms (consulted.extend log) pending (permits ++ [r.constant]) first := by
  have hd : (toDecision (r, log)).effect = .permit o := he
  rw [reduceAny, hd]
  rfl

/-! The whole loops, on arms that reduce as specified. -/

variable (hw : Agrees facts.truth (partialToKnown facts).truth) (ps : List (Policy O))
  (ih : ∀ p ∈ ps, reducePolicy facts p =
    p.reduced facts.truth (partialToKnown facts).truth facts.presence)

include hw ih in
theorem reduceAll_eq : ∀ seen pending permits,
    reduceAll facts (ps.map (reducePolicy facts)) (logged facts.presence seen) pending permits =
      match ps.find? fun p => verdict facts.truth p = some false with
      | some p => .resolved (toDecision (p.settledResult facts.truth (partialToKnown facts).truth,
          logged facts.presence (seen ++ probesAll facts.truth ps)))
      | none => reduceAll facts [] (logged facts.presence (seen ++ probesAll facts.truth ps))
          (pending ++ residues facts.truth (partialToKnown facts).truth ps)
          (permits ++ grantedArms facts.truth (partialToKnown facts).truth ps) := by
  induction ps with
  | nil => intro seen pending permits; simp [probesAll, residues, grantedArms]
  | cons p ps ihps =>
    intro seen pending permits
    have hps := ihps fun p' hp' => ih p' (List.mem_cons_of_mem _ hp')
    rw [List.map_cons, ih p List.mem_cons_self, reduced]
    match hv : verdict facts.truth p with
    | some false =>
      rw [reduceAll_deny facts (Effect.isPermit_eq_false.mp (isPermit_settledResult hw hv))]
      simp [hv, probesAll]
    | some true =>
      obtain ⟨o, he⟩ := Effect.isPermit_eq_true.mp (isPermit_settledResult hw hv)
      rw [reduceAll_permit facts he, extend_logged, hps]
      simp [hv, probesAll, residues, grantedArms]
    | none => simp [reduceAll, hv, hps, probesAll, residues, grantedArms]

include hw ih in
theorem reduceAny_eq : ∀ seen pending permits first,
    reduceAny facts (ps.map (reducePolicy facts)) (logged facts.presence seen) pending permits
        first =
      closeAny facts (logged facts.presence (seen ++ probesAny facts.truth ps))
        (pending ++ residues facts.truth (partialToKnown facts).truth ps)
        (permits ++ grantedArms facts.truth (partialToKnown facts).truth ps)
        (first.or ((ps.find? fun p => verdict facts.truth p = some false).map fun p =>
          toDecision (p.settledResult facts.truth (partialToKnown facts).truth,
            logged facts.presence (p.probes facts.truth)))) := by
  induction ps with
  | nil => intro seen pending permits first; simp [reduceAny, probesAny, residues, grantedArms]
  | cons p ps ihps =>
    intro seen pending permits first
    have hps := ihps fun p' hp' => ih p' (List.mem_cons_of_mem _ hp')
    rw [List.map_cons, ih p List.mem_cons_self, reduced]
    match hv : verdict facts.truth p with
    | some false =>
      rw [reduceAny_deny facts (Effect.isPermit_eq_false.mp (isPermit_settledResult hw hv)),
        extend_logged, hps]
      cases first <;> simp [hv, probesAny, residues, grantedArms]
    | some true =>
      obtain ⟨o, he⟩ := Effect.isPermit_eq_true.mp (isPermit_settledResult hw hv)
      rw [reduceAny_permit facts he, extend_logged, hps]
      simp [hv, probesAny, residues, grantedArms]
    | none => simp [reduceAny, hv, hps, probesAny, residues, grantedArms]

omit hw ih in
theorem reduceAll_nil (consulted : Consulted) (pending permits : List (ResidualPolicy O)) :
    reduceAll facts [] consulted pending permits =
      if pending = [] then
        .resolved (toDecision
          (EvalResult.all (permits.map (ResidualPolicy.result (partialToKnown facts).truth)),
            consulted))
      else .pending (.all (permits ++ pending)) consulted := by
  cases pending with
  | nil =>
    rw [if_pos rfl, reduceAll, evaluateResidual_eq, ResidualPolicy.result,
      ResidualPolicy.results_eq_map]
    rfl
  | cons r rs => rfl

theorem closeAny_pending (consulted : Consulted) {pending : List (ResidualPolicy O)}
    (h : pending ≠ []) (permits : List (ResidualPolicy O)) (first : Option (Decision O)) :
    closeAny facts consulted pending permits first =
      .pending (.any ((if permits.isEmpty then (first.map policyFromDecision).toList else permits) ++
        pending)) consulted := by
  match pending, h, permits, first with
  | _ :: _, _, [], some d => rfl
  | _ :: _, _, [], none => rfl
  | _ :: _, _, _ :: _, some d => rfl
  | _ :: _, _, _ :: _, none => rfl

theorem closeAny_resolved (consulted : Consulted) {permits : List (ResidualPolicy O)}
    (h : permits ≠ []) (first : Option (Decision O)) :
    closeAny facts consulted [] permits first =
      .resolved (toDecision
        (EvalResult.any (permits.map (ResidualPolicy.result (partialToKnown facts).truth)),
          consulted)) := by
  cases permits with
  | nil => exact absurd rfl h
  | cons r rs =>
    rw [closeAny, evaluateResidual_eq, ResidualPolicy.result, ResidualPolicy.results_eq_map]
    · rfl
    · intro decision hnil
      cases hnil

end Loops

/-! ## Combining the settled arms -/

section Combine

variable {O : Type} [Lattice O] [DecidableEq O]

/-- A disjunction is known by its permits and, when there are none, by its first arm. -/
theorem EvalResult.any_ext {rs rs' : List (EvalResult O)}
    (hp : rs.filterMap permit? = rs'.filterMap permit?)
    (hd : rs.filterMap permit? = [] →
      rs.head?.map EvalResult.decisive = rs'.head?.map EvalResult.decisive) :
    EvalResult.any rs = EvalResult.any rs' := by
  unfold EvalResult.any anyFrom
  rw [← hp]
  cases h : rs.filterMap permit? with
  | nil => rw [hd h]
  | cons p ps => rfl

theorem EvalResult.any_singleton {r : EvalResult O} (hr : r.Coherent) (h : r.effect = .deny) :
    EvalResult.any [r] = r := by
  cases hr with
  | permit => cases h
  | deny => rfl

theorem EvalResult.all_append_of_find {rs rs' : List (EvalResult O)} {r : EvalResult O}
    (h : rs.find? (fun r => !r.effect.isPermit) = some r) : EvalResult.all (rs ++ rs') = r := by
  unfold EvalResult.all allFrom
  rw [List.find?_append, h]
  rfl

namespace Policy

variable {u : FactId → Option Bool} {w : FactId → Bool}

theorem settledResult_all (ps : List (Policy O)) :
    settledResult u w (.all ps) =
      EvalResult.all ((ps.filter fun p => verdict u p ≠ none).map (settledResult u w) ++
        (ps.filter fun p => verdict u p = none).map (settledResult u w)) := by
  rw [settledResult, settledFirst, Policy.result, resultWith, resultsWith_eq_map, List.map_append,
    settledArms_eq_map, openArms_eq_map, List.map_map, List.map_map]
  rfl

theorem settledResult_any (ps : List (Policy O)) :
    settledResult u w (.any ps) =
      EvalResult.any ((ps.filter fun p => verdict u p ≠ none).map (settledResult u w) ++
        (ps.filter fun p => verdict u p = none).map (settledResult u w)) := by
  rw [settledResult, settledFirst, Policy.result, resultWith, resultsWith_eq_map, List.map_append,
    settledArms_eq_map, openArms_eq_map, List.map_map, List.map_map]
  rfl

theorem result_grantedArms (v : FactId → Bool) (ps : List (Policy O)) :
    (grantedArms u w ps).map (ResidualPolicy.result v) =
      (ps.filter fun p => verdict u p = some true).map (settledResult u w) := by
  rw [grantedArms, List.map_map]
  exact List.map_congr_left fun p _ => EvalResult.result_constant (coherent_settledResult p) v

/-- The first denial among the settled arms is that of the first arm known to deny. -/
theorem find_settled_deny (h : Agrees u w) (ps : List (Policy O)) :
    ((ps.filter fun p => verdict u p ≠ none).map (settledResult u w)).find?
        (fun r => !r.effect.isPermit) =
      (ps.find? fun p => verdict u p = some false).map (settledResult u w) := by
  induction ps with
  | nil => rfl
  | cons p ps ih =>
    match hv : verdict u p with
    | none => simpa [hv] using ih
    | some true => simpa [hv, isPermit_settledResult h hv] using ih
    | some false => simp [hv, isPermit_settledResult h hv]

omit [Lattice O] [DecidableEq O] in
theorem open_eq_nil {ps : List (Policy O)} (h : none ∉ verdicts u ps) :
    (ps.filter fun p => verdict u p = none) = [] := by
  rw [verdicts_eq_map] at h
  rw [List.filter_eq_nil_iff]
  intro p hp
  have hv : verdict u p ≠ none := fun hv => h (hv ▸ List.mem_map_of_mem hp)
  simpa using hv

omit [Lattice O] [DecidableEq O] in
theorem settled_eq_self {ps : List (Policy O)} (h : none ∉ verdicts u ps) :
    (ps.filter fun p => verdict u p ≠ none) = ps := by
  rw [verdicts_eq_map] at h
  rw [List.filter_eq_self]
  intro p hp
  have hv : verdict u p ≠ none := fun hv => h (hv ▸ List.mem_map_of_mem hp)
  simpa using hv

omit [Lattice O] [DecidableEq O] in
theorem settled_eq_granted {ps : List (Policy O)}
    (h : (ps.find? fun p => verdict u p = some false) = none) :
    (ps.filter fun p => verdict u p ≠ none) = ps.filter fun p => verdict u p = some true := by
  refine List.filter_congr fun p hp => ?_
  have hne := List.find?_eq_none.mp h p hp
  match hv : verdict u p with
  | none => rfl
  | some true => rfl
  | some false => simp [hv] at hne

theorem permits_granted (h : Agrees u w) (ps : List (Policy O)) :
    ((ps.filter fun p => verdict u p = some true).map (settledResult u w)).filterMap
        EvalResult.permit? =
      ((ps.filter fun p => verdict u p ≠ none).map (settledResult u w)).filterMap
        EvalResult.permit? := by
  induction ps with
  | nil => rfl
  | cons p ps ih =>
    match hv : verdict u p with
    | none => simpa [hv] using ih
    | some true =>
      simp only [hv, List.filter_cons, decide_true, if_true, ne_eq, reduceCtorEq, not_false_eq_true,
        List.map_cons, List.filterMap_cons]
      rw [ih]
    | some false =>
      have hd := EvalResult.permit?_eq_none.mpr
        (Effect.isPermit_eq_false.mp (isPermit_settledResult h hv))
      simpa [hv, List.filterMap_cons, hd] using ih

/-- A disjunction may drop its settled denials, up to the first one if no settled arm permits. -/
theorem any_kept (h : Agrees u w) (v : FactId → Bool) (ps : List (Policy O))
    (rs : List (EvalResult O)) :
    EvalResult.any ((if (grantedArms u w ps).isEmpty then (firstDenied u w ps).toList
        else grantedArms u w ps).map (ResidualPolicy.result v) ++ rs) =
      EvalResult.any ((ps.filter fun p => verdict u p ≠ none).map (settledResult u w) ++ rs) := by
  have hpermits := permits_granted h ps
  split
  · rename_i hempty
    have hnone : (ps.filter fun p => verdict u p = some true) = [] := by
      simpa [grantedArms] using hempty
    rw [hnone, List.map_nil, List.filterMap_nil] at hpermits
    -- the first settled arm is the first one known to deny
    have hhead : (firstDenied u w ps).toList.map (ResidualPolicy.result v) =
        ((ps.filter fun p => verdict u p ≠ none).map (settledResult u w)).head?.toList := by
      rw [List.head?_map, List.head?_filter, firstDenied]
      have hfind : (ps.find? fun p => verdict u p ≠ none) =
          ps.find? fun p => verdict u p = some false := by
        refine List.find?_congr fun p hp => ?_
        have := List.filter_eq_nil_iff.mp hnone p hp
        match hv : verdict u p with
        | none => rfl
        | some false => rfl
        | some true => simp [hv] at this
      rw [hfind]
      cases ps.find? fun p => verdict u p = some false with
      | none => rfl
      | some p => simp [EvalResult.result_constant (coherent_settledResult p)]
    rw [hhead]
    refine EvalResult.any_ext ?_ fun _ => ?_
    · rw [List.filterMap_append, List.filterMap_append, ← hpermits]
      cases hs : (ps.filter fun p => verdict u p ≠ none).map (settledResult u w) with
      | nil => rfl
      | cons r rs' =>
        rw [hs, List.filterMap_cons] at hpermits
        cases hr : r.permit? with
        | none => simp [hr]
        | some q => simp [hr] at hpermits
    · cases (ps.filter fun p => verdict u p ≠ none).map (settledResult u w) <;> rfl
  · rename_i hne
    rw [result_grantedArms]
    refine EvalResult.any_ext (by rw [List.filterMap_append, List.filterMap_append, hpermits]) ?_
    intro hnil
    rw [List.filterMap_append, List.append_eq_nil_iff, List.filterMap_eq_nil_iff,
      List.forall_mem_map] at hnil
    refine absurd ?_ hne
    rw [grantedArms, List.isEmpty_map, List.isEmpty_iff, List.filter_eq_nil_iff]
    intro p hp hv
    have hv' : verdict u p = some true := by simpa using hv
    have := hnil.1 p (List.mem_filter.mpr ⟨hp, hv⟩)
    rw [EvalResult.permit?_eq_none, ← Effect.isPermit_eq_false,
      isPermit_settledResult h hv'] at this
    cases this

theorem settledResult_orElse (primary fallback : Policy O) :
    settledResult u w (.orElse primary fallback) =
      if (settledResult u w primary).effect.isPermit then settledResult u w primary
      else settledResult u w fallback := rfl

end Policy

end Combine

/-! ## The reducer -/

section Reducer

variable {O : Type} [Lattice O] [DecidableEq O] (facts : PartialFacts)

open Policy EvalResult

theorem reducePolicy_all (ps : List (Policy O))
    (ih : ∀ p ∈ ps, reducePolicy facts p =
      p.reduced facts.truth (partialToKnown facts).truth facts.presence) :
    reducePolicy facts (.all ps) =
      (Policy.all ps).reduced facts.truth (partialToKnown facts).truth facts.presence := by
  have hw := agrees_partialToKnown facts
  cases hps : ps with
  | nil => rfl
  | cons p₀ ps₀ =>
    rw [← hps]
    have hne : ps.isEmpty = false := by rw [hps]; rfl
    have hloop := reduceAll_eq facts hw ps ih [] [] []
    simp only [logged_nil, List.nil_append] at hloop
    rw [reducePolicy, hne, reducePolicyArms_eq_map, if_neg (by simp), hloop]
    simp only [reduced, verdict, hne, Bool.false_eq_true, if_false, probes]
    cases hf : ps.find? fun p => verdict facts.truth p = some false with
    | some p =>
      have hmem : some false ∈ verdicts facts.truth ps := by
        rw [verdicts_eq_map, List.mem_map]
        exact ⟨p, List.mem_of_find?_eq_some hf, by simpa using List.find?_some hf⟩
      rw [Kleene.conj_eq_false.mpr hmem, settledResult_all, all_append_of_find
        (by rw [find_settled_deny hw, hf]; rfl)]
    | none =>
      have hnf : some false ∉ verdicts facts.truth ps := by
        rw [verdicts_eq_map, List.mem_map]
        rintro ⟨p, hp, hv⟩
        simpa [hv] using List.find?_eq_none.mp hf p hp
      simp only [reduceAll_nil, residues_eq_nil]
      by_cases hn : none ∈ verdicts facts.truth ps
      · rw [if_neg (not_not.mpr hn), Kleene.conj, if_neg hnf, if_pos hn, residue]
      · rw [if_pos hn, Kleene.conj, if_neg hnf, if_neg hn, settledResult_all, open_eq_nil hn, List.map_nil,
          List.append_nil, settled_eq_granted hf, result_grantedArms]

theorem reducePolicy_any (ps : List (Policy O))
    (ih : ∀ p ∈ ps, reducePolicy facts p =
      p.reduced facts.truth (partialToKnown facts).truth facts.presence) :
    reducePolicy facts (.any ps) =
      (Policy.any ps).reduced facts.truth (partialToKnown facts).truth facts.presence := by
  have hw := agrees_partialToKnown facts
  cases hps : ps with
  | nil => rfl
  | cons p₀ ps₀ =>
    have hne : ps.isEmpty = false := by rw [hps]; rfl
    have hloop := reduceAny_eq facts hw ps ih [] [] [] none
    simp only [logged_nil, List.nil_append, Option.none_or] at hloop
    rw [← hps, reducePolicy, hne, reducePolicyArms_eq_map, if_neg (by simp), hloop]
    simp only [reduced, verdict, probes]
    by_cases hn : none ∈ verdicts facts.truth ps
    · have hres : residues facts.truth (partialToKnown facts).truth ps ≠ [] := by
        rw [Ne, residues_eq_nil, not_not]; exact hn
      rw [if_pos hn, closeAny_pending facts _ hres, residue, firstDenied, Option.map_map]
      rfl
    · have hres : residues facts.truth (partialToKnown facts).truth ps = [] :=
        (residues_eq_nil _ _).mpr hn
      obtain ⟨b, hb⟩ : ∃ b, Kleene.disj (verdicts facts.truth ps) = some b :=
        Option.ne_none_iff_exists'.mp fun h => hn (Kleene.disj_eq_none h)
      rw [if_neg hn, hb, hres, settledResult_any, open_eq_nil hn, List.map_nil,
        ← any_kept hw (partialToKnown facts).truth, List.append_nil]
      cases hg : grantedArms facts.truth (partialToKnown facts).truth ps with
      | cons r rs => rw [closeAny_resolved facts _ (by simp)]; rfl
      | nil =>
        have hmem : p₀ ∈ ps := by rw [hps]; exact List.mem_cons_self
        have hd : verdict facts.truth p₀ = some false := by
          rw [grantedArms, List.map_eq_nil_iff, List.filter_eq_nil_iff] at hg
          have ht := hg p₀ hmem
          match hv : verdict facts.truth p₀ with
          | some false => rfl
          | some true => simp [hv] at ht
          | none => exact absurd (by rw [verdicts_eq_map, ← hv]; exact List.mem_map_of_mem hmem) hn
        have hfirst : (ps.find? fun p => verdict facts.truth p = some false) = some p₀ := by
          rw [hps, List.find?_cons_of_pos (by simpa using hd)]
        have hcoh := coherent_settledResult (u := facts.truth) (w := (partialToKnown facts).truth) p₀
        have heff := Effect.isPermit_eq_false.mp (isPermit_settledResult hw hd)
        rw [firstDenied, hfirst]
        simp only [List.isEmpty_nil, if_true, Option.map_some, Option.toList_some, List.map_cons,
          List.map_nil, result_constant hcoh, any_singleton hcoh heff]
        rfl

theorem reducePolicy_orElse (primary fallback : Policy O)
    (ihp : reducePolicy facts primary =
      primary.reduced facts.truth (partialToKnown facts).truth facts.presence)
    (ihf : reducePolicy facts fallback =
      fallback.reduced facts.truth (partialToKnown facts).truth facts.presence) :
    reducePolicy facts (.orElse primary fallback) =
      (Policy.orElse primary fallback).reduced facts.truth (partialToKnown facts).truth
        facts.presence := by
  have hw := agrees_partialToKnown facts
  rw [reducePolicy, ihp, ihf]
  simp only [reduced, verdict, residue, probes]
  match hv : verdict facts.truth primary with
  | some true =>
    have hp := isPermit_settledResult hw hv
    obtain ⟨o, he⟩ := Effect.isPermit_eq_true.mp hp
    rw [settledResult_orElse, if_pos hp]
    simp [reduceOrElse, toDecision, he]
  | some false =>
    have hp := isPermit_settledResult hw hv
    have he := Effect.isPermit_eq_false.mp hp
    rw [settledResult_orElse, if_neg (by simp [hp])]
    match hv' : verdict facts.truth fallback with
    | some b => simp [reduceOrElse, toDecision, he, withConsulted]
    | none => simp [reduceOrElse, toDecision, he]
  | none =>
    match hv' : verdict facts.truth fallback with
    | some b =>
      have hlog : (logged facts.presence (probes facts.truth primary)).extend
          (logged facts.presence (probes facts.truth fallback)) =
            logged facts.presence (probes facts.truth primary ++ probes facts.truth fallback) :=
        extend_logged _ _ _
      simp only [reduceOrElse, reduceCtorEq, if_false, ← hlog]
      rfl
    | none => simp [reduceOrElse]

/-- Reduction returns the settled result, or the residue when there is none. -/
theorem reducePolicy_eq (p : Policy O) :
    reducePolicy facts p = p.reduced facts.truth (partialToKnown facts).truth facts.presence := by
  induction p using Policy.ind with
  | permit o => rfl
  | deny => rfl
  | grant g =>
    rw [reducePolicy, reduceGrant, reduceCondition_eq, Condition.reduced, reduced, verdict]
    cases hk : g.condition.kleene facts.truth with
    | none => rfl
    | some b =>
      simp only [evaluate_eq]
      rfl
  | all ps ih => exact reducePolicy_all facts ps ih
  | any ps ih => exact reducePolicy_any facts ps ih
  | orElse primary fallback ihp ihf => exact reducePolicy_orElse facts primary fallback ihp ihf

end Reducer

/-! ## Nothing unknown -/

section Known

variable {O : Type} {u : FactId → Option Bool} {w : FactId → Bool}

namespace Policy

theorem verdict_ne_none (p : Policy O) : (∀ f ∈ p.facts, u f ≠ none) → p.verdict u ≠ none := by
  induction p using Policy.ind with
  | permit o =>
    intro _ h
    cases h
  | deny =>
    intro _ h
    cases h
  | grant g => exact g.condition.kleene_ne_none
  | all ps ih =>
    intro h hv
    rw [facts, factsOf_eq_flatMap] at h
    obtain ⟨p, hp, hpv⟩ := (verdict_all_eq_none hv).1
    exact ih p hp (fun f hf => h f (List.mem_flatMap.mpr ⟨p, hp, hf⟩)) hpv
  | any ps ih =>
    intro h hv
    rw [facts, factsOf_eq_flatMap] at h
    obtain ⟨p, hp, hpv⟩ := verdict_any_eq_none hv
    exact ih p hp (fun f hf => h f (List.mem_flatMap.mpr ⟨p, hp, hf⟩)) hpv
  | orElse primary fallback ihp ihf =>
    intro h hv
    rw [facts, List.forall_mem_append] at h
    rw [verdict] at hv
    split at hv
    · cases hv
    · exact ihf h.2 hv
    · rename_i hp
      exact ihp h.1 hp

/-- With every arm settled there is nothing to move. -/
theorem settledFirst_arms {ps : List (Policy O)} (hv : ∀ p ∈ ps, verdict u p ≠ none)
    (hs : ∀ p ∈ ps, settledFirst u p = p) : settledArms u ps ++ openArms u ps = ps := by
  have hn : none ∉ verdicts u ps := by
    rw [verdicts_eq_map, List.mem_map]
    rintro ⟨p, hp, hpv⟩
    exact hv p hp hpv
  rw [settledArms_eq_map, openArms_eq_map, open_eq_nil hn, settled_eq_self hn, List.map_nil,
    List.append_nil, List.map_congr_left hs, List.map_id']

theorem settledFirst_of_known (p : Policy O) :
    (∀ f ∈ p.facts, u f ≠ none) → p.settledFirst u = p := by
  induction p using Policy.ind with
  | permit o => exact fun _ => rfl
  | deny => exact fun _ => rfl
  | grant g => exact fun _ => rfl
  | all ps ih =>
    intro h
    rw [facts, factsOf_eq_flatMap] at h
    have harm : ∀ p ∈ ps, ∀ f ∈ p.facts, u f ≠ none := fun p hp f hf =>
      h f (List.mem_flatMap.mpr ⟨p, hp, hf⟩)
    rw [settledFirst, settledFirst_arms (fun p hp => p.verdict_ne_none (harm p hp))
      fun p hp => ih p hp (harm p hp)]
  | any ps ih =>
    intro h
    rw [facts, factsOf_eq_flatMap] at h
    have harm : ∀ p ∈ ps, ∀ f ∈ p.facts, u f ≠ none := fun p hp f hf =>
      h f (List.mem_flatMap.mpr ⟨p, hp, hf⟩)
    rw [settledFirst, settledFirst_arms (fun p hp => p.verdict_ne_none (harm p hp))
      fun p hp => ih p hp (harm p hp)]
  | orElse primary fallback ihp ihf =>
    intro h
    rw [facts, List.forall_mem_append] at h
    rw [settledFirst, ihp h.1, ihf h.2]

variable [Lattice O] [DecidableEq O]

theorem verdict_of_known (hw : Agrees u w) {p : Policy O} (h : ∀ f ∈ p.facts, u f ≠ none) :
    p.verdict u = some (p.result w).effect.isPermit := by
  obtain ⟨b, hb⟩ := Option.ne_none_iff_exists'.mp (p.verdict_ne_none h)
  have hs := isPermit_settledResult hw hb
  rw [settledResult, settledFirst_of_known p h] at hs
  rw [hb, hs]

theorem probesAll_of_known (hw : Agrees u w) (ps : List (Policy O))
    (ih : ∀ p ∈ ps, (∀ f ∈ p.facts, u f ≠ none) → p.probes u = p.reads w) :
    (∀ f ∈ factsOf ps, u f ≠ none) →
      probesAll u ps = readsUntilDeny (ps.map fun p => (p.result w, p.reads w)) := by
  induction ps with
  | nil => exact fun _ => rfl
  | cons p ps ihps =>
    intro h
    rw [factsOf, List.forall_mem_append] at h
    rw [probesAll, List.map_cons, readsUntilDeny, ih p List.mem_cons_self h.1,
      verdict_of_known hw h.1, ihps (fun p' hp' => ih p' (List.mem_cons_of_mem _ hp')) h.2]
    cases (p.result w).effect.isPermit <;> simp

theorem probesAny_of_known (ps : List (Policy O))
    (ih : ∀ p ∈ ps, (∀ f ∈ p.facts, u f ≠ none) → p.probes u = p.reads w) :
    (∀ f ∈ factsOf ps, u f ≠ none) → probesAny u ps = ps.flatMap (Policy.reads w) := by
  induction ps with
  | nil => exact fun _ => rfl
  | cons p ps ihps =>
    intro h
    rw [factsOf, List.forall_mem_append] at h
    rw [probesAny, List.flatMap_cons, ih p List.mem_cons_self h.1,
      ihps (fun p' hp' => ih p' (List.mem_cons_of_mem _ hp')) h.2]

theorem probes_of_known (hw : Agrees u w) (p : Policy O) :
    (∀ f ∈ p.facts, u f ≠ none) → p.probes u = p.reads w := by
  induction p using Policy.ind with
  | permit o => exact fun _ => rfl
  | deny => exact fun _ => rfl
  | grant g => exact g.condition.probes_of_known hw
  | all ps ih =>
    intro h
    rw [Policy.reads, readsWith, logsWith_eq_map]
    exact probesAll_of_known hw ps ih h
  | any ps ih =>
    intro h
    rw [Policy.reads, readsWith, logsWith_eq_map, List.flatMap_map]
    exact probesAny_of_known ps ih h
  | orElse primary fallback ihp ihf =>
    intro h
    rw [facts, List.forall_mem_append] at h
    rw [probes, ihp h.1, ihf h.2, verdict_of_known hw h.1]
    simp only [Policy.reads, readsWith]
    cases (resultWith (Grant.result w) primary).effect.isPermit <;> simp

end Policy

variable [Lattice O] [DecidableEq O]

/-- With nothing unknown, partial evaluation is evaluation. -/
theorem partialEvaluate_of_known (p : Policy O) (facts : PartialFacts)
    (h : ∀ fact ∈ requiredFacts p, facts.presence fact ≠ .unknown) :
    partialEvaluate p facts = .resolved (evaluate p (partialToKnown facts)) := by
  have hw := agrees_partialToKnown facts
  have hpresence : ∀ f ∈ p.facts, facts.presence f ≠ .unknown := fun f hf =>
    h f ((mem_requiredFacts p).mpr hf)
  have hknown : ∀ f ∈ p.facts, facts.truth f ≠ none := fun f hf hn =>
    hpresence f hf (PartialFacts.truth_eq_none.mp hn)
  have hreads : p.reads (partialToKnown facts).truth ⊆ p.facts :=
    Policy.readsWith_subset_facts (fun g => g.condition.reads_subset_facts) p
  have htag : tag facts.presence (p.reads (partialToKnown facts).truth) =
      tag (partialToKnown facts).presence (p.reads (partialToKnown facts).truth) :=
    List.map_congr_left fun f hf => by
      rw [presence_partialToKnown, if_neg (hpresence f (hreads hf))]
  rw [partialEvaluate, reducePolicy_eq, Policy.reduced, Policy.verdict_of_known hw hknown,
    Policy.probes_of_known hw p hknown, Policy.settledResult, Policy.settledFirst_of_known p hknown,
    logged, htag, evaluate_eq]
  rfl

end Known

open Sample in
theorem partialEvaluate_of_known_members :
    partialEvaluate (.any [grantIf (.has owner) [], grantIf (.has member) []])
        (PartialFacts.fromEntries [(owner, .absent), (member, .present)]) =
      .resolved (evaluate (.any [grantIf (.has owner) [], grantIf (.has member) []])
        (partialToKnown (PartialFacts.fromEntries [(owner, .absent), (member, .present)]))) := by
  refine partialEvaluate_of_known _ _ fun fact h => ?_
  have hfact : fact = owner ∨ fact = member := by
    simpa [mem_requiredFacts, Policy.facts, Policy.factsOf, grantIf, Condition.facts] using h
  rcases hfact with rfl | rfl
  · decide
  · decide

end Gatekeep
