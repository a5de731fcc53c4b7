import Gatekeep.Completion

/-!
# Gatekeep.CompletionTrace

The trace of a decision that partial evaluation made.

The consulted list and the decisive clause of a settled grant come from two computations: the list
from the reduction, which reads known facts only (`probes`), and the clause from evaluating the
grant with every unknown fact taken to be absent. Known facts that the second reads are read by the
first (`mem_probes_of_mem_reads`), unknown ones are not. `Policy.blindFacts` are the unknown facts
that the deciding clause names for this reason, and `completeResidual_trace` says that the trace is
sound exactly when each of them happens to be read again while completing.
-/

namespace Gatekeep

/-! ## Reduction reads the known facts that evaluation reads -/

namespace Condition

variable {u : FactId → Option Bool} {w : FactId → Bool} {f : FactId}

theorem mem_probesAll (hw : Agrees u w) (cs : List Condition)
    (ih : ∀ c ∈ cs, f ∈ c.reads w → f ∈ c.probes u) : f ∈ readsAll w cs → f ∈ probesAll u cs := by
  induction cs with
  | nil => exact id
  | cons c cs ihcs =>
    have hcs := ihcs fun c' hc' => ih c' (List.mem_cons_of_mem _ hc')
    rw [readsAll, probesAll, List.mem_append, List.mem_append]
    rintro (h | h)
    · exact .inl (ih c List.mem_cons_self h)
    · split at h
      · rename_i hh
        rw [if_neg fun hk => by rw [← within_kleene hw c _ hk] at hh; cases hh]
        exact .inr (hcs h)
      · cases h

theorem mem_probesAny (hw : Agrees u w) (cs : List Condition)
    (ih : ∀ c ∈ cs, f ∈ c.reads w → f ∈ c.probes u) : f ∈ readsAny w cs → f ∈ probesAny u cs := by
  induction cs with
  | nil => exact id
  | cons c cs ihcs =>
    have hcs := ihcs fun c' hc' => ih c' (List.mem_cons_of_mem _ hc')
    rw [readsAny, probesAny, List.mem_append, List.mem_append]
    rintro (h | h)
    · exact .inl (ih c List.mem_cons_self h)
    · split at h
      · cases h
      · rename_i hh
        rw [if_neg fun hk => hh (within_kleene hw c _ hk).symm]
        exact .inr (hcs h)

/-- Reduction passes over an arm only where evaluation does. -/
theorem mem_probes_of_mem_reads (hw : Agrees u w) (hf : u f ≠ none) (c : Condition) :
    f ∈ c.reads w → f ∈ c.probes u := by
  induction c using Condition.ind with
  | always => exact id
  | never => exact id
  | has fact =>
    intro h
    rw [reads, List.mem_singleton] at h
    rw [probes, ← h, if_neg hf]
    exact List.mem_cons_self
  | not inner ih => exact ih
  | all cs ih => exact mem_probesAll hw cs ih
  | any cs ih => exact mem_probesAny hw cs ih

theorem probesAll_subset (cs : List Condition) : probesAll u cs ⊆ cs.flatMap (probes u) := by
  induction cs with
  | nil => exact List.nil_subset _
  | cons c cs ih =>
    rw [probesAll, List.flatMap_cons]
    refine List.append_subset.mpr ⟨List.subset_append_left _ _, ?_⟩
    split
    · exact List.nil_subset _
    · exact List.subset_append_of_subset_right _ ih

theorem probesAny_subset (cs : List Condition) : probesAny u cs ⊆ cs.flatMap (probes u) := by
  induction cs with
  | nil => exact List.nil_subset _
  | cons c cs ih =>
    rw [probesAny, List.flatMap_cons]
    refine List.append_subset.mpr ⟨List.subset_append_left _ _, ?_⟩
    split
    · exact List.nil_subset _
    · exact List.subset_append_of_subset_right _ ih

/-- Reduction reads known facts only. -/
theorem known_of_mem_probes (c : Condition) : f ∈ c.probes u → u f ≠ none := by
  induction c using Condition.ind with
  | always =>
    intro h
    cases h
  | never =>
    intro h
    cases h
  | has fact =>
    intro h
    rw [probes] at h
    split at h
    · cases h
    · rename_i hf
      rw [List.mem_singleton] at h
      rw [h]
      exact hf
  | not inner ih => exact ih
  | all cs ih =>
    intro h
    obtain ⟨c, hc, hf⟩ := List.mem_flatMap.mp (probesAll_subset cs h)
    exact ih c hc hf
  | any cs ih =>
    intro h
    obtain ⟨c, hc, hf⟩ := List.mem_flatMap.mp (probesAny_subset cs h)
    exact ih c hc hf

end Condition

namespace Policy

variable {O : Type} {u : FactId → Option Bool} {f : FactId}

theorem probesAll_subset (ps : List (Policy O)) : probesAll u ps ⊆ ps.flatMap (probes u) := by
  induction ps with
  | nil => exact List.nil_subset _
  | cons p ps ih =>
    rw [probesAll, List.flatMap_cons]
    refine List.append_subset.mpr ⟨List.subset_append_left _ _, ?_⟩
    split
    · exact List.nil_subset _
    · exact List.subset_append_of_subset_right _ ih

theorem probesAny_eq_flatMap (ps : List (Policy O)) : probesAny u ps = ps.flatMap (probes u) := by
  induction ps with
  | nil => rfl
  | cons p ps ih => rw [probesAny, ih, List.flatMap_cons]

theorem known_of_mem_probes (p : Policy O) : f ∈ p.probes u → u f ≠ none := by
  induction p using Policy.ind with
  | permit o =>
    intro h
    cases h
  | deny =>
    intro h
    cases h
  | grant g => exact g.condition.known_of_mem_probes
  | all ps ih =>
    intro h
    obtain ⟨p, hp, hf⟩ := List.mem_flatMap.mp (probesAll_subset ps h)
    exact ih p hp hf
  | any ps ih =>
    intro h
    rw [probes, probesAny_eq_flatMap] at h
    obtain ⟨p, hp, hf⟩ := List.mem_flatMap.mp h
    exact ih p hp hf
  | orElse primary fallback ihp ihf =>
    intro h
    rw [probes, List.mem_append] at h
    rcases h with h | h
    · exact ihp h
    · split at h
      · cases h
      · exact ihf h

end Policy

/-! ## All the reads of a completed policy -/

section Trace

variable {O : Type} {u : FactId → Option Bool} {w v : FactId → Bool}

/-- The facts read for a grant, while reducing if it was settled and while completing if not. -/
def Grant.allReads (u : FactId → Option Bool) (v : FactId → Bool) (g : Grant O) : List FactId :=
  if g.condition.kleene u = none then (g.condition.residue u).reads v else g.condition.probes u

/-- A clause that names other facts. -/
def DecisiveClause.withFacts (c : DecisiveClause O) (facts : List FactId) : DecisiveClause O :=
  match c with
  | .permit granted _ label => .permit granted facts label
  | .deny denied _ label reason shape => .deny denied facts label reason shape

/-- A completed grant, naming only the unknown facts that its clause takes to be absent. -/
def Grant.blind (u : FactId → Option Bool) (w v : FactId → Bool) (g : Grant O) : EvalResult O :=
  { g.completed u w v with
    decisive := (g.completed u w v).decisive.withFacts
      (if g.condition.kleene u = none then []
      else (g.condition.decisive w).filter fun f => u f = none) }

theorem DecisiveClause.facts_withFacts (c : DecisiveClause O) (l : List FactId) :
    (c.withFacts l).facts = l := by
  cases c <;> rfl

theorem DecisiveClause.untraced_withFacts (c : DecisiveClause O) (l : List FactId) :
    (c.withFacts l).untraced = c.untraced := by
  cases c <;> rfl

theorem Grant.facts_blind (g : Grant O) : (g.blind u w v).decisive.facts =
    if g.condition.kleene u = none then []
    else (g.condition.decisive w).filter fun f => u f = none :=
  DecisiveClause.facts_withFacts _ _

theorem Grant.decisive_facts (g : Grant O) :
    (g.result v).decisive.facts = g.condition.decisive v := by
  unfold Grant.result grantResult
  split <;> rfl

theorem Grant.facts_completed (hw : Agrees u w) (g : Grant O) :
    ∀ f ∈ (g.completed u w v).decisive.facts,
      f ∈ g.allReads u v ∨ f ∈ (g.blind u w v).decisive.facts := by
  intro f hf
  rw [Grant.facts_blind]
  unfold Grant.completed at hf
  unfold Grant.allReads
  split
  · rename_i hk
    rw [if_pos hk] at hf
    exact .inl (Grant.facts_result v _ hf)
  · rename_i hk
    rw [if_neg hk, Grant.decisive_facts] at hf
    by_cases hu : u f = none
    · exact .inr (List.mem_filter.mpr ⟨hf, by simpa using hu⟩)
    · exact .inl (g.condition.mem_probes_of_mem_reads hw hu (g.condition.decisive_subset_reads hf))

/-- A completed grant and its blind part differ in the facts named only. -/
theorem Grant.alike_blind (hw : Agrees u w) (g : Grant O) :
    EvalResult.Alike (fun l l' => (∀ f ∈ l', f ∈ l ∧ u f = none) ∧
        ∀ f ∈ l, f ∈ g.allReads u v ∨ f ∈ l') (g.completed u w v) (g.blind u w v) := by
  refine ⟨rfl, rfl, DecisiveClause.untraced_withFacts _ _, ?_, g.facts_completed hw⟩
  intro f hf
  rw [Grant.facts_blind] at hf
  split at hf
  · cases hf
  · rename_i hk
    obtain ⟨hf, hu⟩ := List.mem_filter.mp hf
    rw [Grant.completed, if_neg hk, Grant.decisive_facts]
    exact ⟨hf, by simpa using hu⟩

variable [Lattice O] [DecidableEq O]

namespace Policy

/-- The unknown facts that the clause deciding the completed policy names because it was settled
without them. -/
def blindFacts (u : FactId → Option Bool) (w v : FactId → Bool) (p : Policy O) : List FactId :=
  ((p.settledFirst u).resultWith (Grant.blind u w v)).decisive.facts

/-- The facts read for a policy in both steps. -/
abbrev allReads (u : FactId → Option Bool) (w v : FactId → Bool) (p : Policy O) : List FactId :=
  (p.settledFirst u).readsWith (Grant.completed u w v) (Grant.allReads u v)

theorem isPermit_completed (hw : Agrees u w) {p : Policy O} {b : Bool} (h : p.verdict u = some b) :
    (p.completed u w v).effect.isPermit = b := by
  rw [(p.completed_settled hw (by simp [h])).1, isPermit_settledResult hw h]

theorem allReads_logs (ps : List (Policy O)) :
    ((settledArms u ps ++ openArms u ps).map fun p =>
        (resultWith (Grant.completed u w v) p,
          readsWith (Grant.completed u w v) (Grant.allReads u v) p)) =
      (ps.filter fun p => verdict u p ≠ none).map (fun p =>
          (completed u w v p, allReads u w v p)) ++
        (ps.filter fun p => verdict u p = none).map fun p =>
          (completed u w v p, allReads u w v p) := by
  rw [List.map_append, settledArms_eq_map, openArms_eq_map, List.map_map, List.map_map]
  rfl

/-- The reads of the settled arms up to the first denial are probes of the conjunction. -/
theorem settledReads_subset (hw : Agrees u w) (ps : List (Policy O))
    (ih : ∀ p ∈ ps, p.allReads u w v ⊆ p.probes u ++ p.completedReads u w v) :
    readsUntilDeny ((ps.filter fun p => verdict u p ≠ none).map fun p =>
      (completed u w v p, allReads u w v p)) ⊆ probesAll u ps := by
  induction ps with
  | nil => exact List.nil_subset _
  | cons p ps ihps =>
    have hps := ihps fun p' hp' => ih p' (List.mem_cons_of_mem _ hp')
    rw [probesAll]
    cases hv : verdict u p with
    | none =>
      rw [List.filter_cons_of_neg (by simp [hv])]
      exact List.subset_append_of_subset_right _ hps
    | some b =>
      have hp := ih p List.mem_cons_self
      rw [(p.completed_settled hw (by simp [hv])).2, List.append_nil] at hp
      rw [List.filter_cons_of_pos (by simp [hv]), List.map_cons, readsUntilDeny,
        isPermit_completed hw hv]
      refine List.append_subset.mpr ⟨List.subset_append_of_subset_left _ hp, ?_⟩
      cases b with
      | true => exact List.subset_append_of_subset_right _ hps
      | false => exact List.nil_subset _

omit [Lattice O] [DecidableEq O] in
/-- Reads of the arms of a conjunction are, arm by arm, probes or reads of the completion. -/
theorem readsUntilDeny_subset_append {ι : Type} {r : ι → EvalResult O} {l m n : ι → List FactId}
    (arms : List ι) (h : ∀ i ∈ arms, l i ⊆ m i ++ n i) :
    readsUntilDeny (arms.map fun i => (r i, l i)) ⊆
      arms.flatMap m ++ readsUntilDeny (arms.map fun i => (r i, n i)) := by
  induction arms with
  | nil => exact List.nil_subset _
  | cons i arms ih =>
    have hi := h i List.mem_cons_self
    have harms := ih fun j hj => h j (List.mem_cons_of_mem _ hj)
    intro f hf
    simp only [List.map_cons, readsUntilDeny, List.flatMap_cons, List.mem_append] at hf ⊢
    rcases hf with hf | hf
    · rcases List.mem_append.mp (hi hf) with hf | hf
      · exact .inl (.inl hf)
      · exact .inr (.inl hf)
    · split at hf
      · rename_i hp
        rw [if_pos hp]
        rcases List.mem_append.mp (harms hf) with hf | hf
        · exact .inl (.inr hf)
        · exact .inr (.inr hf)
      · cases hf

omit [Lattice O] [DecidableEq O] in
theorem flatMap_probes_subset {ps qs : List (Policy O)} (hq : qs ⊆ ps)
    (h : some false ∉ verdicts u ps) : qs.flatMap (probes u) ⊆ probesAll u ps := by
  have hall : probesAll u ps = ps.flatMap (probes u) := by
    clear hq
    induction ps with
    | nil => rfl
    | cons p ps ih =>
      rw [verdicts, List.mem_cons, not_or] at h
      rw [probesAll, if_neg (Ne.symm h.1), ih h.2, List.flatMap_cons]
  rw [hall]
  intro f hf
  obtain ⟨q, hq', hf⟩ := List.mem_flatMap.mp hf
  exact List.mem_flatMap.mpr ⟨q, hq hq', hf⟩

/-- Everything read for a policy is read while reducing or while completing. -/
theorem allReads_subset (hw : Agrees u w) (p : Policy O) :
    p.allReads u w v ⊆ p.probes u ++ p.completedReads u w v := by
  induction p using Policy.ind with
  | permit o => exact List.nil_subset _
  | deny => exact List.nil_subset _
  | grant g =>
    simp only [allReads, completedReads, settledFirst, readsWith, Grant.allReads,
      Grant.completedReads, probes]
    split
    · exact List.subset_append_right _ _
    · exact List.subset_append_left _ _
  | all ps ih =>
    rw [allReads, completedReads, settledFirst, readsWith, readsWith, logsWith_eq_map,
      logsWith_eq_map, completed_logs, allReads_logs, readsUntilDeny_append, readsUntilDeny_append,
      probes]
    refine List.append_subset.mpr
      ⟨List.subset_append_of_subset_left _ (settledReads_subset hw ps ih), ?_⟩
    simp only [List.all_map, Function.comp_def]
    split
    · rename_i hall
      have hnf : some false ∉ verdicts u ps := by
        rw [verdicts_eq_map, List.mem_map]
        rintro ⟨p, hp, hv⟩
        have hpermit := List.all_eq_true.mp hall p (List.mem_filter.mpr ⟨hp, by simp [hv]⟩)
        rw [isPermit_completed hw hv] at hpermit
        cases hpermit
      refine List.Subset.trans (readsUntilDeny_subset_append _ fun p hp =>
        ih p (List.mem_of_mem_filter hp)) (List.append_subset.mpr ⟨?_, ?_⟩)
      · exact List.subset_append_of_subset_left _
          (flatMap_probes_subset (List.filter_subset_self _) hnf)
      · exact List.subset_append_of_subset_right _ (List.subset_append_right _ _)
    · exact List.nil_subset _
  | any ps ih =>
    rw [allReads, completedReads, settledFirst, readsWith, readsWith, logsWith_eq_map,
      logsWith_eq_map, List.flatMap_map, List.flatMap_map, probes, probesAny_eq_flatMap]
    intro f hf
    obtain ⟨q, hq, hf⟩ := List.mem_flatMap.mp hf
    obtain ⟨p, hp, rfl⟩ := List.mem_map.mp ((settledFirst_perm u ps).mem_iff.mp hq)
    rcases List.mem_append.mp (ih p hp hf) with hf | hf
    · exact List.mem_append_left _ (List.mem_flatMap.mpr ⟨p, hp, hf⟩)
    · exact List.mem_append_right _ (List.mem_flatMap.mpr ⟨_, hq, hf⟩)
  | orElse primary fallback ihp ihf =>
    intro f hf
    simp only [allReads, completedReads, settledFirst, readsWith, probes, List.mem_append] at hf ⊢
    rcases hf with hf | hf
    · rcases List.mem_append.mp (ihp hf) with hf | hf
      · exact .inl (.inl hf)
      · exact .inr (.inl hf)
    · split at hf
      · cases hf
      · rename_i hd
        -- a primary that does not permit on completion was not known to permit
        rw [if_neg hd, if_neg fun hv => hd (isPermit_completed hw hv)]
        rcases List.mem_append.mp (ihf hf) with hf | hf
        · exact .inl (.inr hf)
        · exact .inr (.inr hf)

/-- The facts a completed policy's clause names: those read, and the blind ones. -/
theorem facts_completed (hw : Agrees u w) (p : Policy O) :
    (∀ f ∈ p.blindFacts u w v, f ∈ (p.completed u w v).decisive.facts ∧ u f = none) ∧
      ∀ f ∈ (p.completed u w v).decisive.facts, f ∈ p.allReads u w v ∨ f ∈ p.blindFacts u w v :=
  (alike_resultWith
    (R := fun s l l' => (∀ f ∈ l', f ∈ l ∧ u f = none) ∧ ∀ f ∈ l, f ∈ s ∨ f ∈ l')
    (fun _ => ⟨fun _ h => (nomatch h), fun _ h => (nomatch h)⟩)
    (fun hs _ _ h => ⟨h.1, fun f hf => (h.2 f hf).imp_left (fun hfs => hs hfs)⟩)
    (fun g => g.alike_blind hw) (p.settledFirst u)).facts

end Policy

/-- The trace names only facts that were read, and a resolved decision names no unknown fact,
exactly when completing reads every blind fact again. (Of a resolved decision there is nothing to
complete, so it must have none.) -/
theorem completeResidual_trace (p : Policy O) (facts : PartialFacts) (known : KnownFacts) :
    ((∀ fact ∈ (completeResidual (partialEvaluate p facts) known).trace.decisive.facts,
        fact ∈ FirstSeen.keys
          (completeResidual (partialEvaluate p facts) known).trace.consulted) ∧
      ∀ d, partialEvaluate p facts = .resolved d →
        ∀ fact ∈ d.trace.decisive.facts, facts.presence fact ≠ .unknown) ↔
      ∀ fact ∈ p.blindFacts facts.truth (partialToKnown facts).truth known.truth,
        fact ∈ p.completedReads facts.truth (partialToKnown facts).truth known.truth := by
  have hw := agrees_partialToKnown facts
  obtain ⟨hblind, hnamed⟩ := p.facts_completed (v := known.truth) hw
  have hread := p.allReads_subset (v := known.truth) hw
  have hmem : ∀ fact, fact ∈ FirstSeen.keys
      (completeResidual (partialEvaluate p facts) known).trace.consulted ↔
        fact ∈ p.probes facts.truth ∨
        fact ∈ p.completedReads facts.truth (partialToKnown facts).truth known.truth := by
    intro fact
    rw [completeResidual_eq]
    simp only [EvalResult.toDecision, FirstSeen.mem_keys_extend, mem_logged, keys_tag]
  have hclause : (completeResidual (partialEvaluate p facts) known).trace.decisive =
      (p.completed facts.truth (partialToKnown facts).truth known.truth).decisive := by
    rw [completeResidual_eq]
    rfl
  simp only [hmem, hclause]
  constructor
  · rintro ⟨hsub, -⟩ fact hfact
    obtain ⟨hin, hunknown⟩ := hblind fact hfact
    exact (hsub fact hin).resolve_left fun hprobe => p.known_of_mem_probes hprobe hunknown
  · intro hall
    have hsub : ∀ fact ∈
        (p.completed facts.truth (partialToKnown facts).truth known.truth).decisive.facts,
        fact ∈ p.probes facts.truth ∨
          fact ∈ p.completedReads facts.truth (partialToKnown facts).truth known.truth := by
      intro fact hfact
      rcases hnamed fact hfact with hfact | hfact
      · exact List.mem_append.mp (hread hfact)
      · exact .inr (hall fact hfact)
    refine ⟨hsub, fun d hd fact hfact hunknown => ?_⟩
    have hsettled : p.verdict facts.truth ≠ none := by
      intro hv
      rw [partialEvaluate, reducePolicy_eq, Policy.reduced, hv] at hd
      cases hd
    have hcomplete : completeResidual (partialEvaluate p facts) known = d := by rw [hd]; rfl
    rw [← hcomplete, hclause] at hfact
    rcases hsub fact hfact with hprobe | hread'
    · exact p.known_of_mem_probes hprobe (PartialFacts.truth_eq_none.mpr hunknown)
    · rw [(p.completed_settled hw hsettled).2] at hread'
      cases hread'

open Sample in
/-- With `owner` unknown and `member` absent the condition is known to fail, after reading `member`
only; the clause blames `owner`. -/
theorem trace_names_unread_fact :
    ¬ ∀ (O : Type) [Lattice O] [DecidableEq O] (p : Policy O) (facts : PartialFacts)
      (known : KnownFacts), facts.CompletedBy known →
      (∀ fact ∈ (completeResidual (partialEvaluate p facts) known).trace.decisive.facts,
        fact ∈ FirstSeen.keys
          (completeResidual (partialEvaluate p facts) known).trace.consulted) ∧
      ∀ d, partialEvaluate p facts = .resolved d →
        ∀ fact ∈ d.trace.decisive.facts, facts.presence fact ≠ .unknown := by
  intro h
  have hread := (h Unit (grantIf (.all [.has owner, .has member]) []) (ownerUnknown .absent)
    (ownerKnown .absent .absent (by decide) (by decide)) (ownerUnknown_completedBy _ _)).1 owner
  revert hread
  decide

end Trace

end Gatekeep
