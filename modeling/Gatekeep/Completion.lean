import Gatekeep.Reduction.Policy

/-!
# Gatekeep.Completion

Partial evaluation followed by completion, compared with direct evaluation.

`completeResidual_eq` says what the two steps compute together: the result of the reordered policy
`settledFirst`, in which a grant the known facts settle is evaluated against the closed bundle and
an open grant is evaluated by its residue. Up to the facts its clause names, this is the direct
evaluation of the reordered policy (`alike_completed`).

So partial evaluation changes exactly what depends on the order of arms. The effect does not, in a
lawful lattice (`effect_completeResidual`). Obligations and denial metadata may
(`obligations_completeResidual`, `denial_completeResidual`).
-/

namespace Gatekeep

section Completion

variable {O : Type}

/-- What a grant contributes to a completed policy. -/
def Grant.completed (u : FactId → Option Bool) (w v : FactId → Bool) (g : Grant O) : EvalResult O :=
  if g.condition.kleene u = none then
    Grant.result v { g with condition := g.condition.residue u }
  else g.result w

/-- The facts read for a grant while completing: none if it was settled before. -/
def Grant.completedReads (u : FactId → Option Bool) (v : FactId → Bool) (g : Grant O) :
    List FactId :=
  if g.condition.kleene u = none then (g.condition.residue u).reads v else []

theorem readsUntilDeny_append (logs logs' : List (EvalResult O × List FactId)) :
    readsUntilDeny (logs ++ logs') =
      readsUntilDeny logs ++
        if logs.all fun e => e.1.effect.isPermit then readsUntilDeny logs' else [] := by
  induction logs with
  | nil => rfl
  | cons e logs ih =>
    rw [List.cons_append, readsUntilDeny, readsUntilDeny, ih, List.all_cons, List.append_assoc]
    cases e.1.effect.isPermit <;> rfl

theorem readsUntilDeny_eq_nil {logs : List (EvalResult O × List FactId)}
    (h : ∀ e ∈ logs, e.2 = []) : readsUntilDeny logs = [] := by
  refine List.eq_nil_of_subset_nil (List.Subset.trans (readsUntilDeny_subset logs) ?_)
  rw [List.flatMap_eq_nil_iff.mpr h]
  exact List.Subset.refl _

variable [Lattice O] [DecidableEq O] {u : FactId → Option Bool} {w v : FactId → Bool}

namespace Policy

/-- The result of reducing against `u` and completing with `v`. -/
abbrev completed (u : FactId → Option Bool) (w v : FactId → Bool) (p : Policy O) : EvalResult O :=
  (p.settledFirst u).resultWith (Grant.completed u w v)

/-- The facts read while completing. -/
abbrev completedReads (u : FactId → Option Bool) (w v : FactId → Bool) (p : Policy O) :
    List FactId :=
  (p.settledFirst u).readsWith (Grant.completed u w v) (Grant.completedReads u v)

theorem completed_arms (ps : List (Policy O)) :
    (settledArms u ps ++ openArms u ps).map (resultWith (Grant.completed u w v)) =
      (ps.filter fun p => verdict u p ≠ none).map (completed u w v) ++
        (ps.filter fun p => verdict u p = none).map (completed u w v) := by
  rw [List.map_append, settledArms_eq_map, openArms_eq_map, List.map_map, List.map_map]
  rfl

theorem completed_logs (ps : List (Policy O)) :
    ((settledArms u ps ++ openArms u ps).map fun p =>
        (resultWith (Grant.completed u w v) p,
          readsWith (Grant.completed u w v) (Grant.completedReads u v) p)) =
      (ps.filter fun p => verdict u p ≠ none).map (fun p =>
          (completed u w v p, completedReads u w v p)) ++
        (ps.filter fun p => verdict u p = none).map fun p =>
          (completed u w v p, completedReads u w v p) := by
  rw [List.map_append, settledArms_eq_map, openArms_eq_map, List.map_map, List.map_map]
  rfl

/-! A settled policy completes to its settled result, and nothing more is read for it. -/

theorem completed_settled_all (hw : Agrees u w) (ps : List (Policy O))
    (ih : ∀ p ∈ ps, verdict u p ≠ none →
      completed u w v p = settledResult u w p ∧ completedReads u w v p = [])
    (hv : verdict u (.all ps) ≠ none) :
    completed u w v (.all ps) = settledResult u w (.all ps) ∧
      completedReads u w v (.all ps) = [] := by
  have hset : (ps.filter fun p => verdict u p ≠ none).map (completed u w v) =
      (ps.filter fun p => verdict u p ≠ none).map (settledResult u w) :=
    List.map_congr_left fun p hp => by
      obtain ⟨hmem, hp'⟩ := List.mem_filter.mp hp
      exact (ih p hmem (by simpa using hp')).1
  have hreads : ∀ e ∈ (ps.filter fun p => verdict u p ≠ none).map (fun p =>
      (completed u w v p, completedReads u w v p)), e.2 = [] := by
    rw [List.forall_mem_map]
    intro p hp
    obtain ⟨hmem, hp'⟩ := List.mem_filter.mp hp
    exact (ih p hmem (by simpa using hp')).2
  rw [completed, completedReads, settledFirst, resultWith, readsWith, resultsWith_eq_map,
    logsWith_eq_map, completed_arms, completed_logs, settledResult_all, hset,
    readsUntilDeny_append, readsUntilDeny_eq_nil hreads, List.nil_append]
  cases hf : ps.find? fun p => verdict u p = some false with
  | some p =>
    have hfind := find_settled_deny hw ps
    rw [hf, Option.map_some] at hfind
    rw [EvalResult.all_append_of_find hfind, EvalResult.all_append_of_find hfind]
    refine ⟨rfl, if_neg ?_⟩
    intro hall
    rw [List.all_map, List.all_eq_true] at hall
    obtain ⟨hmem, hpv⟩ := And.intro (List.mem_of_find?_eq_some hf) (List.find?_some hf)
    have hpv' : verdict u p = some false := by simpa using hpv
    have hpermit := hall p (List.mem_filter.mpr ⟨hmem, by simp [hpv']⟩)
    rw [Function.comp, (ih p hmem (by simp [hpv'])).1, isPermit_settledResult hw hpv'] at hpermit
    cases hpermit
  | none =>
    have hn : none ∉ verdicts u ps := by
      intro hn
      have hnf : some false ∉ verdicts u ps := by
        rw [verdicts_eq_map, List.mem_map]
        rintro ⟨p, hp, hv'⟩
        simpa [hv'] using List.find?_eq_none.mp hf p hp
      refine hv ?_
      rw [verdict, Kleene.conj, if_neg hnf, if_pos hn, if_neg]
      rw [List.isEmpty_iff]
      rintro rfl
      cases hn
    rw [open_eq_nil hn]
    exact ⟨rfl, by split <;> rfl⟩

theorem completed_settled (hw : Agrees u w) (p : Policy O) :
    verdict u p ≠ none → completed u w v p = settledResult u w p ∧ completedReads u w v p = [] := by
  induction p using Policy.ind with
  | permit o => exact fun _ => ⟨rfl, rfl⟩
  | deny => exact fun _ => ⟨rfl, rfl⟩
  | grant g => exact fun hv => ⟨if_neg hv, if_neg hv⟩
  | all ps ih => exact completed_settled_all hw ps ih
  | any ps ih =>
    intro hv
    have hn : none ∉ verdicts u ps := fun hn => hv (by rw [verdict, if_pos hn])
    have harm : ∀ p ∈ ps, verdict u p ≠ none := fun p hp hpv =>
      hn (by rw [verdicts_eq_map, ← hpv]; exact List.mem_map_of_mem hp)
    rw [completed, completedReads, settledFirst, resultWith, readsWith, resultsWith_eq_map,
      logsWith_eq_map, completed_arms, completed_logs, settledResult_any, open_eq_nil hn,
      settled_eq_self hn]
    simp only [List.map_nil, List.append_nil, List.flatMap_map]
    refine ⟨congrArg _ ?_, ?_⟩
    · exact List.map_congr_left fun p hp => (ih p hp (harm p hp)).1
    · rw [List.flatMap_eq_nil_iff]
      exact fun p hp => (ih p hp (harm p hp)).2
  | orElse primary fallback ihp ihf =>
    intro hv
    have hpv : verdict u primary ≠ none := fun hn => hv (by rw [verdict, hn])
    obtain ⟨hp, hpr⟩ := ihp hpv
    simp only [completed, completedReads] at hp hpr
    simp only [completed, completedReads, settledFirst, resultWith, readsWith, hp, hpr,
      settledResult_orElse]
    split
    · exact ⟨rfl, rfl⟩
    · rename_i hd
      have hfv : verdict u fallback ≠ none := by
        obtain ⟨b, hb⟩ := Option.ne_none_iff_exists'.mp hpv
        cases b with
        | true => exact absurd (isPermit_settledResult hw hb) hd
        | false => rwa [verdict, hb] at hv
      exact ihf hfv

/-! An open policy completes as its residue evaluates. -/

theorem residue_arms (ps : List (Policy O))
    (ih : ∀ p ∈ ps, verdict u p = none → (residue u w p).result v = completed u w v p ∧
      (residue u w p).reads v = completedReads u w v p) :
    ((residues u w ps).map fun r => (r.result v, r.reads v)) =
      (ps.filter fun p => verdict u p = none).map fun p =>
        (completed u w v p, completedReads u w v p) := by
  rw [residues_eq_map, List.map_map]
  refine List.map_congr_left fun p hp => ?_
  obtain ⟨hmem, hv⟩ := List.mem_filter.mp hp
  obtain ⟨hr, hl⟩ := ih p hmem (by simpa using hv)
  exact Prod.ext hr hl

theorem granted_arms (hw : Agrees u w) (ps : List (Policy O)) :
    ((grantedArms u w ps).map fun r => (r.result v, r.reads v)) =
      (ps.filter fun p => verdict u p = some true).map fun p =>
        (completed u w v p, completedReads u w v p) := by
  rw [grantedArms, List.map_map]
  refine List.map_congr_left fun p hp => ?_
  have hv : verdict u p = some true := by simpa using (List.mem_filter.mp hp).2
  obtain ⟨hr, hl⟩ := completed_settled hw p (by simp [hv])
  have hcoh := coherent_settledResult (u := u) (w := w) p
  exact Prod.ext ((EvalResult.result_constant hcoh v).trans hr.symm)
    ((EvalResult.reads_constant hcoh v).trans hl.symm)

/-- Evaluating a residual conjunction or disjunction, from the log of its arms. -/
theorem result_of_logs {rs : List (ResidualPolicy O)} {logs : List (EvalResult O × List FactId)}
    (h : (rs.map fun r => (r.result v, r.reads v)) = logs) :
    ResidualPolicy.results v rs = logs.map Prod.fst ∧ ResidualPolicy.logs v rs = logs := by
  rw [← h, ResidualPolicy.results_eq_map, ResidualPolicy.logs_eq_map, List.map_map]
  exact ⟨rfl, rfl⟩

theorem residue_all (hw : Agrees u w) (ps : List (Policy O))
    (ih : ∀ p ∈ ps, verdict u p = none → (residue u w p).result v = completed u w v p ∧
      (residue u w p).reads v = completedReads u w v p)
    (hv : verdict u (.all ps) = none) :
    (residue u w (.all ps)).result v = completed u w v (.all ps) ∧
      (residue u w (.all ps)).reads v = completedReads u w v (.all ps) := by
  have hf : (ps.find? fun p => verdict u p = some false) = none := by
    rw [List.find?_eq_none]
    intro p hp hpv
    exact (verdict_all_eq_none hv).2 p hp (by simpa using hpv)
  have hlogs : ((grantedArms u w ps ++ residues u w ps).map fun r => (r.result v, r.reads v)) =
      (settledArms u ps ++ openArms u ps).map fun p =>
        (resultWith (Grant.completed u w v) p,
          readsWith (Grant.completed u w v) (Grant.completedReads u v) p) := by
    rw [List.map_append, granted_arms hw, residue_arms ps ih, completed_logs, settled_eq_granted hf]
  obtain ⟨hr, hl⟩ := result_of_logs hlogs
  rw [residue, ResidualPolicy.result, ResidualPolicy.reads, hr, hl, completed, completedReads,
    settledFirst, resultWith, readsWith, resultsWith_eq_map, logsWith_eq_map, List.map_map]
  exact ⟨rfl, rfl⟩

theorem residue_any (hw : Agrees u w) (ps : List (Policy O))
    (ih : ∀ p ∈ ps, verdict u p = none → (residue u w p).result v = completed u w v p ∧
      (residue u w p).reads v = completedReads u w v p) :
    (residue u w (.any ps)).result v = completed u w v (.any ps) ∧
      (residue u w (.any ps)).reads v = completedReads u w v (.any ps) := by
  have hset : (ps.filter fun p => verdict u p ≠ none).map (completed u w v) =
      (ps.filter fun p => verdict u p ≠ none).map (settledResult u w) :=
    List.map_congr_left fun p hp =>
      (completed_settled hw p (by simpa using (List.mem_filter.mp hp).2)).1
  obtain ⟨hr, hl⟩ := result_of_logs (residue_arms ps ih)
  rw [ResidualPolicy.results_eq_map] at hr
  rw [ResidualPolicy.logs_eq_map] at hl
  rw [residue, ResidualPolicy.result, ResidualPolicy.reads, ResidualPolicy.results_eq_map,
    ResidualPolicy.logs_eq_map, List.map_append, any_kept hw, hr, completed, completedReads,
    settledFirst, resultWith, readsWith, resultsWith_eq_map, logsWith_eq_map, completed_arms, hset,
    completed_logs, List.map_map]
  refine ⟨rfl, ?_⟩
  rw [List.map_append, hl, List.flatMap_append, List.flatMap_append]
  congr 1
  -- neither the constants nor the settled arms read anything
  rw [List.flatMap_map, List.flatMap_map, List.flatMap_eq_nil_iff.mpr, List.flatMap_eq_nil_iff.mpr]
  · exact fun p hp => (completed_settled hw p (by simpa using (List.mem_filter.mp hp).2)).2
  · intro r hr
    obtain ⟨q, rfl⟩ : ∃ q : Policy O, r = (settledResult u w q).constant := by
      split at hr
      · simp only [firstDenied, Option.mem_toList, Option.map_eq_some_iff] at hr
        obtain ⟨q, _, rfl⟩ := hr
        exact ⟨q, rfl⟩
      · obtain ⟨q, _, rfl⟩ := List.mem_map.mp hr
        exact ⟨q, rfl⟩
    exact EvalResult.reads_constant (coherent_settledResult q) v

theorem residue_completed (hw : Agrees u w) (p : Policy O) :
    verdict u p = none → (residue u w p).result v = completed u w v p ∧
      (residue u w p).reads v = completedReads u w v p := by
  induction p using Policy.ind with
  | permit o =>
    intro h
    cases h
  | deny =>
    intro h
    cases h
  | grant g => exact fun hv => ⟨(if_pos hv).symm, (if_pos hv).symm⟩
  | all ps ih => exact residue_all hw ps ih
  | any ps ih => exact fun _ => residue_any hw ps ih
  | orElse primary fallback ihp ihf =>
    intro hv
    by_cases hpv : verdict u primary = some false
    · have hp := (completed_settled (v := v) hw primary (by simp [hpv]))
      simp only [completed, completedReads] at hp
      rw [verdict, hpv] at hv
      simp only [residue, if_pos hpv, ihf hv, completed, completedReads, settledFirst, resultWith,
        readsWith, hp, isPermit_settledResult hw hpv, Bool.false_eq_true, if_false, List.nil_append,
        and_self]
    · obtain ⟨hp, hpl⟩ := ihp (verdict_primary hv hpv)
      simp only [residue, if_neg hpv, ResidualPolicy.result, ResidualPolicy.reads, completed,
        completedReads, settledFirst, resultWith, readsWith, hp, hpl]
      by_cases hfv : verdict u fallback = none
      · obtain ⟨hf, hfl⟩ := ihf hfv
        simp only [if_pos hfv, hf, hfl, and_self]
      · obtain ⟨hf, hfl⟩ := completed_settled (v := v) hw fallback hfv
        have hcoh := coherent_settledResult (u := u) (w := w) fallback
        simp only [completed, completedReads] at hf hfl
        simp only [if_neg hfv, EvalResult.result_constant hcoh, EvalResult.reads_constant hcoh, hf,
          hfl, and_self]

end Policy

/-- `known` has the presence of every fact that `facts` knows. -/
def PartialFacts.CompletedBy (facts : PartialFacts) (known : KnownFacts) : Prop :=
  ∀ fact, facts.presence fact ≠ .unknown → known.presence fact = facts.presence fact

theorem PartialFacts.CompletedBy.new : PartialFacts.new.CompletedBy KnownFacts.new := fun _ _ => rfl

/-- Learning a fact that was unknown, or entering it on both sides alike, keeps the agreement. -/
theorem PartialFacts.CompletedBy.withFact {facts : PartialFacts} {known : KnownFacts}
    (h : facts.CompletedBy known) (fact : FactId) (p q : Presence) (hq : q ≠ .unknown)
    (hp : p = .unknown ∨ p = q) :
    (facts.withFact fact p).CompletedBy (known.insertKnown fact q hq) := by
  intro other hother
  rw [PartialFacts.presence_withFact] at hother ⊢
  rw [KnownFacts.presence_insertKnown]
  split
  · rename_i hfact
    rw [if_pos hfact] at hother
    exact (hp.resolve_left hother).symm
  · rename_i hfact
    rw [if_neg hfact] at hother
    exact h other hother

theorem PartialFacts.CompletedBy.agrees {facts : PartialFacts} {known : KnownFacts}
    (h : facts.CompletedBy known) : Agrees facts.truth known.truth := by
  intro fact b hb
  have hp := h fact
  unfold PartialFacts.truth at hb
  rw [KnownFacts.truth]
  cases hf : facts.presence fact <;> rw [hf] at hb hp <;> cases hb <;> rw [hp (by simp)] <;> rfl

/-- Reduction and completion together. -/
theorem completeResidual_eq (p : Policy O) (facts : PartialFacts) (known : KnownFacts) :
    completeResidual (partialEvaluate p facts) known =
      EvalResult.toDecision
        (p.completed facts.truth (partialToKnown facts).truth known.truth,
          FirstSeen.extend (logged facts.presence (p.probes facts.truth)) (tag known.presence
            (p.completedReads facts.truth (partialToKnown facts).truth known.truth))) := by
  have hw := agrees_partialToKnown facts
  rw [partialEvaluate, reducePolicy_eq, Policy.reduced]
  cases hv : p.verdict facts.truth with
  | some b =>
    obtain ⟨hr, hl⟩ := p.completed_settled (v := known.truth) hw (by simp [hv])
    rw [hr, hl]
    rfl
  | none =>
    obtain ⟨hr, hl⟩ := p.residue_completed (v := known.truth) hw hv
    simp only [completeResidual, evaluateResidual_eq, hr, hl, withPriorConsulted, withConsulted,
      Consulted.extend, logged, FirstSeen.extend_extend_nil]
    rfl

omit [Lattice O] [DecidableEq O] in
/-- Completing a grant evaluates it, up to the facts named. -/
theorem Grant.alike_completed (hw : Agrees u w) (hv : Agrees u v) (g : Grant O) :
    EvalResult.Alike (fun _ _ => True) (g.completed u w v) (g.result v) := by
  have halike : ∀ g' : Grant O, g' = { g with condition := g'.condition } →
      ∀ v', g'.condition.holds v' = g.condition.holds v →
      EvalResult.Alike (fun _ _ => True) (g'.result v') (g.result v) := by
    intro g' hg' v' hh
    rw [hg']
    unfold Grant.result grantResult Condition.eval
    simp only [hh]
    split
    · exact ⟨rfl, rfl, rfl, trivial⟩
    · exact ⟨rfl, rfl, rfl, trivial⟩
  unfold Grant.completed
  split
  · rename_i hk
    exact halike _ rfl v (g.condition.holds_residue hv hk)
  · rename_i hk
    obtain ⟨b, hb⟩ := Option.ne_none_iff_exists'.mp hk
    refine halike g rfl w ?_
    rw [← g.condition.within_kleene hw b hb, ← g.condition.within_kleene hv b hb]

/-- Up to the facts its clause names, completion evaluates the reordered policy. -/
theorem Policy.alike_completed (hw : Agrees u w) (hv : Agrees u v) (p : Policy O) :
    EvalResult.Alike (fun _ _ => True) (p.completed u w v) ((p.settledFirst u).result v) :=
  Policy.alike_resultWith (R := fun _ _ _ => True) (l := fun _ => []) (fun _ => trivial)
    (fun _ _ _ _ => trivial) (fun g => g.alike_completed hw hv) (p.settledFirst u)

omit [DecidableEq O] in
/-- In a lawful lattice the order of arms does not matter to the effect. -/
theorem Policy.effectWith_settledFirst [Lattice.Lawful O] (e : Grant O → Effect O) (p : Policy O) :
    (p.settledFirst u).effectWith e = p.effectWith e := by
  induction p using Policy.ind with
  | permit o => rfl
  | deny => rfl
  | grant g => rfl
  | all ps ih =>
    rw [settledFirst, effectWith, effectWith, effectsWith_eq_map, effectsWith_eq_map]
    exact Effect.all_perm (map_settledFirst_perm u ih)
  | any ps ih =>
    rw [settledFirst, effectWith, effectWith, effectsWith_eq_map, effectsWith_eq_map]
    exact Effect.any_perm (map_settledFirst_perm u ih)
  | orElse primary fallback ihp ihf => rw [settledFirst, effectWith, effectWith, ihp, ihf]

/-- Completion and evaluation of the reordered policy differ at most in the trace's facts. -/
theorem completeResidual_settledFirst (p : Policy O) {facts : PartialFacts} {known : KnownFacts}
    (h : facts.CompletedBy known) :
    (completeResidual (partialEvaluate p facts) known).effect =
        (evaluate (p.settledFirst facts.truth) known).effect ∧
      (completeResidual (partialEvaluate p facts) known).obligations =
        (evaluate (p.settledFirst facts.truth) known).obligations ∧
      (completeResidual (partialEvaluate p facts) known).trace.decisive.untraced =
        (evaluate (p.settledFirst facts.truth) known).trace.decisive.untraced := by
  have halike := p.alike_completed (agrees_partialToKnown facts) h.agrees
  rw [completeResidual_eq, evaluate_eq]
  exact ⟨halike.effect.symm, halike.obligations.symm, halike.untraced.symm⟩

/-! ## What partial evaluation preserves -/

theorem PartialFacts.CompletedBy.effect_eq [Lattice.Lawful O] {facts : PartialFacts}
    {known : KnownFacts} (h : facts.CompletedBy known) (p : Policy O) :
    (completeResidual (partialEvaluate p facts) known).effect = (evaluate p known).effect := by
  rw [(completeResidual_settledFirst p h).1, evaluate_eq, evaluate_eq, Policy.result,
    Policy.result, Policy.effect_resultWith, Policy.effect_resultWith,
    Policy.effectWith_settledFirst]

/-- Partial evaluation preserves the effect. -/
theorem effect_completeResidual [Lattice.Lawful O] (p : Policy O) (facts : PartialFacts)
    (known : KnownFacts) (h : facts.CompletedBy known) :
    (completeResidual (partialEvaluate p facts) known).effect = (evaluate p known).effect :=
  h.effect_eq p

namespace Sample

/-- Two ordered grades, with meet and join their minimum and maximum. -/
inductive Tier where
  | shared
  | full
deriving DecidableEq

instance : Lattice Tier where
  meet a b := if a = .shared then a else b
  join a b := if a = .full then a else b
  top := .full
  bottom := .shared

instance : Lattice.Lawful Tier where
  meet_comm a b := by cases a <;> cases b <;> rfl
  meet_assoc a b c := by cases a <;> cases b <;> cases c <;> rfl
  meet_idem a := by cases a <;> rfl
  join_comm a b := by cases a <;> cases b <;> rfl
  join_assoc a b c := by cases a <;> cases b <;> cases c <;> rfl
  join_idem a := by cases a <;> rfl

/-- `shared` is below `full`. -/
def Tier.rank : Tier → Nat
  | .shared => 0
  | .full => 1

theorem Tier.rank_injective : Function.Injective Tier.rank := by
  intro a b h
  cases a <;> cases b <;> first | rfl | cases h

instance : LinearOrder Tier := LinearOrder.lift' Tier.rank Tier.rank_injective

/-- Nothing is known about `owner`; `member` is known to be as given. -/
def ownerUnknown (member' : Presence) : PartialFacts :=
  (PartialFacts.new.withFact owner .unknown).withFact member member'

/-- `ownerUnknown` completed. -/
def ownerKnown (owner' member' : Presence) (ho : owner' ≠ .unknown) (hm : member' ≠ .unknown) :
    KnownFacts :=
  (KnownFacts.new.insertKnown owner owner' ho).insertKnown member member' hm

theorem ownerUnknown_completedBy {owner' member' : Presence} (ho : owner' ≠ .unknown)
    (hm : member' ≠ .unknown) :
    (ownerUnknown member').CompletedBy (ownerKnown owner' member' ho hm) :=
  (PartialFacts.CompletedBy.new.withFact owner .unknown owner' ho (.inl rfl)).withFact member member'
    member' hm (.inr rfl)

end Sample

open Sample in
theorem effect_completeResidual_tiers :
    (completeResidual (partialEvaluate
        (.any [.grant ⟨Tier.full, .has owner, none, .forbidden, [], none⟩,
          .grant ⟨Tier.shared, .has member, none, .forbidden, [], none⟩])
        (ownerUnknown .present)) (ownerKnown .present .present (by decide) (by decide))).effect =
      (evaluate (.any [.grant ⟨Tier.full, .has owner, none, .forbidden, [], none⟩,
          .grant ⟨Tier.shared, .has member, none, .forbidden, [], none⟩])
        (ownerKnown .present .present (by decide) (by decide))).effect :=
  effect_completeResidual _ _ _ (ownerUnknown_completedBy _ _)

/-- Whether partial evaluation permits needs no law at all. -/
theorem isPermit_completeResidual (p : Policy O) {facts : PartialFacts} {known : KnownFacts}
    (h : facts.CompletedBy known) :
    (completeResidual (partialEvaluate p facts) known).effect.isPermit =
      (evaluate p known).effect.isPermit := by
  rw [(completeResidual_settledFirst p h).1, evaluate_eq, evaluate_eq, Policy.result,
    Policy.result, Policy.isPermit_resultWith, Policy.isPermit_resultWith,
    Policy.permits_settledFirst]

/-- Partial evaluation preserves the set of obligations exactly when moving the settled arms to the
front does. -/
theorem obligations_completeResidual (p : Policy O) (facts : PartialFacts) (known : KnownFacts)
    (h : facts.CompletedBy known) :
    (∀ o, o ∈ (completeResidual (partialEvaluate p facts) known).obligations ↔
        o ∈ (evaluate p known).obligations) ↔
      ∀ o, o ∈ (evaluate (p.settledFirst facts.truth) known).obligations ↔
        o ∈ (evaluate p known).obligations := by
  rw [(completeResidual_settledFirst p h).2.1]

namespace Sample

def notifyOwner : ObligationId := ⟨"notify-owner", by decide⟩
def logAccess : ObligationId := ⟨"log-access", by decide⟩

/-- Both arms permit the same outcome, each with an obligation of its own. -/
def bothOblige : Policy Unit :=
  .all [grantIf (.has owner) [notifyOwner], grantIf (.has member) [logAccess]]

end Sample

open Sample in
theorem obligations_completeResidual_both :
    (∀ o, o ∈ (completeResidual (partialEvaluate bothOblige (ownerUnknown .present))
          (ownerKnown .present .present (by decide) (by decide))).obligations ↔
        o ∈ (evaluate bothOblige
          (ownerKnown .present .present (by decide) (by decide))).obligations) ↔
      ∀ o, o ∈ (evaluate (bothOblige.settledFirst (ownerUnknown .present).truth)
          (ownerKnown .present .present (by decide) (by decide))).obligations ↔
        o ∈ (evaluate bothOblige
          (ownerKnown .present .present (by decide) (by decide))).obligations :=
  obligations_completeResidual _ _ _ (ownerUnknown_completedBy _ _)

open Sample in
/-- A conjunction keeps the obligations of its first arm on a tie, and reduction changes which arm
is first. -/
theorem obligations_not_preserved :
    ¬ ∀ (O : Type) [Lattice O] [DecidableEq O] [Lattice.Lawful O] (p : Policy O)
      (facts : PartialFacts) (known : KnownFacts), facts.CompletedBy known →
      ∀ o, o ∈ (completeResidual (partialEvaluate p facts) known).obligations ↔
        o ∈ (evaluate p known).obligations := by
  intro h
  have hkept := h Unit bothOblige (ownerUnknown .present)
    (ownerKnown .present .present (by decide) (by decide)) (ownerUnknown_completedBy _ _) notifyOwner
  revert hkept
  decide

/-- Partial evaluation preserves a denial's label, reason, outcome and shape exactly when moving the
settled arms to the front does. -/
theorem denial_completeResidual (p : Policy O) (facts : PartialFacts) (known : KnownFacts)
    (h : facts.CompletedBy known) (hd : (evaluate p known).effect = .deny) :
    ((completeResidual (partialEvaluate p facts) known).effect = .deny ∧
        (completeResidual (partialEvaluate p facts) known).trace.decisive.untraced =
          (evaluate p known).trace.decisive.untraced) ↔
      (evaluate (p.settledFirst facts.truth) known).trace.decisive.untraced =
        (evaluate p known).trace.decisive.untraced := by
  have hdeny : (completeResidual (partialEvaluate p facts) known).effect = .deny := by
    rw [← Effect.isPermit_eq_false, isPermit_completeResidual p h, hd]
    rfl
  rw [(completeResidual_settledFirst p h).2.2]
  exact and_iff_right hdeny

namespace Sample

def notOwner : ReasonCode := ⟨"not-owner", by decide⟩
def notMember : ReasonCode := ⟨"not-member", by decide⟩

/-- The second arm's denial is hidden from the caller, the first one's is not. -/
def ownerThenMember : Policy Unit :=
  .all [.grant ⟨(), .has owner, none, .forbidden, [], some notOwner⟩,
    .grant ⟨(), .has member, none, .hidden, [], some notMember⟩]

end Sample

open Sample in
theorem denial_completeResidual_owner :
    ((completeResidual (partialEvaluate ownerThenMember (ownerUnknown .present))
          (ownerKnown .absent .present (by decide) (by decide))).effect = .deny ∧
        (completeResidual (partialEvaluate ownerThenMember (ownerUnknown .present))
          (ownerKnown .absent .present (by decide) (by decide))).trace.decisive.untraced =
          (evaluate ownerThenMember
            (ownerKnown .absent .present (by decide) (by decide))).trace.decisive.untraced) ↔
      (evaluate (ownerThenMember.settledFirst (ownerUnknown .present).truth)
          (ownerKnown .absent .present (by decide) (by decide))).trace.decisive.untraced =
        (evaluate ownerThenMember
          (ownerKnown .absent .present (by decide) (by decide))).trace.decisive.untraced :=
  denial_completeResidual _ _ _ (ownerUnknown_completedBy _ _) (by decide)

open Sample in
/-- A known denial is reported although an earlier arm denies too. -/
theorem denial_not_preserved :
    ¬ ∀ (O : Type) [Lattice O] [DecidableEq O] (p : Policy O) (facts : PartialFacts)
      (known : KnownFacts), facts.CompletedBy known → (evaluate p known).effect = .deny →
      (completeResidual (partialEvaluate p facts) known).effect = .deny ∧
        (completeResidual (partialEvaluate p facts) known).trace.decisive.untraced =
          (evaluate p known).trace.decisive.untraced := by
  intro h
  have hkept := h Unit ownerThenMember (ownerUnknown .absent)
    (ownerKnown .absent .absent (by decide) (by decide)) (ownerUnknown_completedBy _ _) (by decide)
  revert hkept
  decide

end Completion

end Gatekeep
