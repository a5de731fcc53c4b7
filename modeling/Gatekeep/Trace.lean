import Gatekeep.Denotation

/-!
# Gatekeep.Trace

The trace of a full evaluation explains the decision: the consulted list has every fact the
decisive clause names, only facts the policy requires, and pins the decision down. Two fact bundles
that agree on the consulted facts are given the same decision, trace included
(`evaluate_trace_sufficient`).

The two-run part is `Condition.eval_congr` and `Policy.result_congr`: a meaning depends only on the
facts it reads.
-/

namespace Gatekeep

/-! ## The facts a policy mentions -/

mutual

/-- Every fact that occurs in a condition. -/
def Condition.facts : Condition → List FactId
  | .always => []
  | .never => []
  | .has fact => [fact]
  | .not inner => inner.facts
  | .all conditions => Condition.factsOf conditions
  | .any conditions => Condition.factsOf conditions

def Condition.factsOf : List Condition → List FactId
  | [] => []
  | c :: cs => c.facts ++ Condition.factsOf cs

end

theorem Condition.factsOf_eq_flatMap (cs : List Condition) :
    Condition.factsOf cs = cs.flatMap Condition.facts := by
  induction cs with
  | nil => rfl
  | cons c cs ih => rw [Condition.factsOf, ih, List.flatMap_cons]

theorem mem_collectConditionsFacts {fact : FactId} (cs : List Condition)
    (ih : ∀ c ∈ cs, ∀ s : FactSet, fact ∈ collectConditionFacts c s ↔ fact ∈ s ∨ fact ∈ c.facts) :
    ∀ s : FactSet, fact ∈ collectConditionsFacts cs s ↔ fact ∈ s ∨ fact ∈ Condition.factsOf cs := by
  induction cs with
  | nil => intro s; simp [collectConditionsFacts, Condition.factsOf]
  | cons c cs ihcs =>
    intro s
    rw [collectConditionsFacts, ihcs fun c' hc' => ih c' (List.mem_cons_of_mem _ hc'),
      ih c List.mem_cons_self, Condition.factsOf, List.mem_append, or_assoc]

theorem mem_collectConditionFacts {fact : FactId} (c : Condition) :
    ∀ s : FactSet, fact ∈ collectConditionFacts c s ↔ fact ∈ s ∨ fact ∈ c.facts := by
  induction c using Condition.ind with
  | always => intro s; simp [collectConditionFacts, Condition.facts]
  | never => intro s; simp [collectConditionFacts, Condition.facts]
  | has f =>
    intro s
    simp only [collectConditionFacts, Condition.facts, Std.ExtTreeSet.mem_insert,
      Std.LawfulEqCmp.compare_eq_iff_eq, List.mem_singleton]
    constructor
    · rintro (rfl | h)
      · exact .inr rfl
      · exact .inl h
    · rintro (h | rfl)
      · exact .inr h
      · exact .inl rfl
  | not inner ih => exact ih
  | all cs ih => exact mem_collectConditionsFacts cs ih
  | any cs ih => exact mem_collectConditionsFacts cs ih

section Mentions

variable {O : Type}

mutual

/-- Every fact that occurs in a policy. -/
def Policy.facts : Policy O → List FactId
  | .permit _ => []
  | .deny => []
  | .grant g => g.condition.facts
  | .all policies => Policy.factsOf policies
  | .any policies => Policy.factsOf policies
  | .orElse primary fallback => primary.facts ++ fallback.facts

def Policy.factsOf : List (Policy O) → List FactId
  | [] => []
  | p :: ps => p.facts ++ Policy.factsOf ps

end

theorem Policy.factsOf_eq_flatMap (ps : List (Policy O)) :
    Policy.factsOf ps = ps.flatMap Policy.facts := by
  induction ps with
  | nil => rfl
  | cons p ps ih => rw [Policy.factsOf, ih, List.flatMap_cons]

theorem mem_collectPoliciesFacts {fact : FactId} (ps : List (Policy O))
    (ih : ∀ p ∈ ps, ∀ s : FactSet, fact ∈ collectPolicyFacts p s ↔ fact ∈ s ∨ fact ∈ p.facts) :
    ∀ s : FactSet, fact ∈ collectPoliciesFacts ps s ↔ fact ∈ s ∨ fact ∈ Policy.factsOf ps := by
  induction ps with
  | nil => intro s; simp [collectPoliciesFacts, Policy.factsOf]
  | cons p ps ihps =>
    intro s
    rw [collectPoliciesFacts, ihps fun p' hp' => ih p' (List.mem_cons_of_mem _ hp'),
      ih p List.mem_cons_self, Policy.factsOf, List.mem_append, or_assoc]

theorem mem_collectPolicyFacts {fact : FactId} (p : Policy O) :
    ∀ s : FactSet, fact ∈ collectPolicyFacts p s ↔ fact ∈ s ∨ fact ∈ p.facts := by
  induction p using Policy.ind with
  | permit o => intro s; simp [collectPolicyFacts, Policy.facts]
  | deny => intro s; simp [collectPolicyFacts, Policy.facts]
  | grant g => exact mem_collectConditionFacts g.condition
  | all ps ih => exact mem_collectPoliciesFacts ps ih
  | any ps ih => exact mem_collectPoliciesFacts ps ih
  | orElse primary fallback ihp ihf =>
    intro s
    rw [collectPolicyFacts, ihf, ihp, Policy.facts, List.mem_append, or_assoc]

theorem mem_requiredFacts {fact : FactId} (p : Policy O) :
    fact ∈ requiredFacts p ↔ fact ∈ p.facts := by
  rw [requiredFacts, mem_collectPolicyFacts]
  simp

end Mentions

/-! ## Conditions: what is read, and what is decisive -/

namespace Condition

variable {v w : FactId → Bool}

theorem readsAll_subset (cs : List Condition) : readsAll v cs ⊆ cs.flatMap (reads v) := by
  induction cs with
  | nil => simp [readsAll]
  | cons c cs ih =>
    rw [readsAll, List.flatMap_cons]
    refine List.append_subset.mpr ⟨List.subset_append_left _ _, ?_⟩
    split
    · exact List.subset_append_of_subset_right _ ih
    · exact List.nil_subset _

theorem readsAny_subset (cs : List Condition) : readsAny v cs ⊆ cs.flatMap (reads v) := by
  induction cs with
  | nil => simp [readsAny]
  | cons c cs ih =>
    rw [readsAny, List.flatMap_cons]
    refine List.append_subset.mpr ⟨List.subset_append_left _ _, ?_⟩
    split
    · exact List.nil_subset _
    · exact List.subset_append_of_subset_right _ ih

theorem flatMap_subset {α : Type} {f g : α → List FactId} {l : List α}
    (h : ∀ a ∈ l, f a ⊆ g a) : l.flatMap f ⊆ l.flatMap g := by
  intro x hx
  obtain ⟨a, ha, hxa⟩ := List.mem_flatMap.mp hx
  exact List.mem_flatMap.mpr ⟨a, ha, h a ha hxa⟩

theorem reads_subset_facts (c : Condition) : c.reads v ⊆ c.facts := by
  induction c using Condition.ind with
  | always => exact List.nil_subset _
  | never => exact List.nil_subset _
  | has fact => exact List.Subset.refl _
  | not inner ih => exact ih
  | all cs ih =>
    rw [reads, facts, factsOf_eq_flatMap]
    exact List.Subset.trans (readsAll_subset cs) (flatMap_subset ih)
  | any cs ih =>
    rw [reads, facts, factsOf_eq_flatMap]
    exact List.Subset.trans (readsAny_subset cs) (flatMap_subset ih)

theorem decisiveAll_subset (cs : List Condition) (ih : ∀ c ∈ cs, c.decisive v ⊆ c.reads v) :
    decisiveAll v cs ⊆ readsAll v cs := by
  induction cs with
  | nil => exact List.nil_subset _
  | cons c cs ihcs =>
    have hc := ih c List.mem_cons_self
    have hcs := ihcs fun c' hc' => ih c' (List.mem_cons_of_mem _ hc')
    rw [decisiveAll, readsAll]
    by_cases hh : holds v c = true
    · rw [if_pos hh, if_pos hh]
      split
      · exact List.append_subset.mpr ⟨List.subset_append_of_subset_left _ hc,
          List.subset_append_of_subset_right _ hcs⟩
      · exact List.subset_append_of_subset_right _ hcs
    · rw [if_neg hh, if_neg hh, List.append_nil]
      exact hc

theorem decisiveAny_subset (cs : List Condition) (ih : ∀ c ∈ cs, c.decisive v ⊆ c.reads v) :
    decisiveAny v cs ⊆ readsAny v cs := by
  induction cs with
  | nil => exact List.nil_subset _
  | cons c cs ihcs =>
    have hc := ih c List.mem_cons_self
    have hcs := ihcs fun c' hc' => ih c' (List.mem_cons_of_mem _ hc')
    rw [decisiveAny, readsAny]
    by_cases hh : holds v c = true
    · rw [if_pos hh, if_pos hh, List.append_nil]
      exact hc
    · rw [if_neg hh, if_neg hh]
      split
      · exact List.subset_append_of_subset_right _ hcs
      · exact List.append_subset.mpr ⟨List.subset_append_of_subset_left _ hc,
          List.subset_append_of_subset_right _ hcs⟩

/-- A fact is decisive only if it was read. -/
theorem decisive_subset_reads (c : Condition) : c.decisive v ⊆ c.reads v := by
  induction c using Condition.ind with
  | always => exact List.nil_subset _
  | never => exact List.nil_subset _
  | has fact => exact List.Subset.refl _
  | not inner ih => exact ih
  | all cs ih => exact decisiveAll_subset cs ih
  | any cs ih => exact decisiveAny_subset cs ih

/-- The meaning of `c` and its reads are the same under both valuations. -/
def Same (v w : FactId → Bool) (c : Condition) : Prop :=
  c.holds w = c.holds v ∧ c.decisive w = c.decisive v ∧ c.reads w = c.reads v

theorem sameAll (cs : List Condition) (ih : ∀ c ∈ cs, (∀ f ∈ c.reads v, v f = w f) → Same v w c)
    (h : ∀ f ∈ readsAll v cs, v f = w f) :
    holdsAll w cs = holdsAll v cs ∧ decisiveAll w cs = decisiveAll v cs ∧
      readsAll w cs = readsAll v cs := by
  induction cs with
  | nil => exact ⟨rfl, rfl, rfl⟩
  | cons c cs ihcs =>
    rw [readsAll] at h
    obtain ⟨hh, hd, hr⟩ := ih c List.mem_cons_self fun f hf => h f (List.mem_append_left _ hf)
    simp only [holdsAll, decisiveAll, readsAll, hh, hd, hr]
    by_cases hc : holds v c = true
    · rw [if_pos hc] at h
      obtain ⟨hh', hd', hr'⟩ := ihcs (fun c' hc' => ih c' (List.mem_cons_of_mem _ hc'))
        fun f hf => h f (List.mem_append_right _ hf)
      simp only [hh', hd', hr', and_self]
    · simp [hc]

theorem sameAny (cs : List Condition) (ih : ∀ c ∈ cs, (∀ f ∈ c.reads v, v f = w f) → Same v w c)
    (h : ∀ f ∈ readsAny v cs, v f = w f) :
    holdsAny w cs = holdsAny v cs ∧ decisiveAny w cs = decisiveAny v cs ∧
      readsAny w cs = readsAny v cs := by
  induction cs with
  | nil => exact ⟨rfl, rfl, rfl⟩
  | cons c cs ihcs =>
    rw [readsAny] at h
    obtain ⟨hh, hd, hr⟩ := ih c List.mem_cons_self fun f hf => h f (List.mem_append_left _ hf)
    simp only [holdsAny, decisiveAny, readsAny, hh, hd, hr]
    by_cases hc : holds v c = true
    · simp [hc]
    · rw [if_neg hc] at h
      obtain ⟨hh', hd', hr'⟩ := ihcs (fun c' hc' => ih c' (List.mem_cons_of_mem _ hc'))
        fun f hf => h f (List.mem_append_right _ hf)
      simp only [hh', hd', hr', and_self]

/-- Valuations that agree on the facts read give the condition the same meaning. -/
theorem same_of_reads (c : Condition) : (∀ f ∈ c.reads v, v f = w f) → Same v w c := by
  induction c using Condition.ind with
  | always => exact fun _ => ⟨rfl, rfl, rfl⟩
  | never => exact fun _ => ⟨rfl, rfl, rfl⟩
  | has fact => exact fun h => ⟨(h fact List.mem_cons_self).symm, rfl, rfl⟩
  | not inner ih =>
    intro h
    obtain ⟨hh, hd, hr⟩ := ih h
    exact ⟨by simp only [holds, hh], hd, hr⟩
  | all cs ih =>
    intro h
    obtain ⟨hh, hd, hr⟩ := sameAll cs ih h
    exact ⟨by simp only [holds, hh], hd, hr⟩
  | any cs ih => exact fun h => sameAny cs ih h

end Condition

/-! ## Policies: what is read, and what is decisive -/

section Policies

variable {O : Type}

/-- A clause without the facts it names: its kind, outcome, label, reason and disclosure shape. -/
def DecisiveClause.untraced : DecisiveClause O → DecisiveClause O
  | .permit granted _ label => .permit granted [] label
  | .deny denied _ label reason shape => .deny denied [] label reason shape

/-- Two results that differ at most in the facts their clauses name, which `R` relates. -/
structure EvalResult.Alike (R : List FactId → List FactId → Prop) (r r' : EvalResult O) : Prop where
  effect : r'.effect = r.effect
  obligations : r'.obligations = r.obligations
  untraced : r'.decisive.untraced = r.decisive.untraced
  facts : R r.decisive.facts r'.decisive.facts

namespace EvalResult.Alike

variable {R R' : List FactId → List FactId → Prop} {r r' : EvalResult O}

theorem mono (h : Alike R r r') (hR : ∀ l l', R l l' → R' l l') : Alike R' r r' :=
  ⟨h.effect, h.obligations, h.untraced, hR _ _ h.facts⟩

/-- The permit that an arm which permits `o` hands to a loop's accumulator. -/
theorem permit (h : Alike R r r') (o : O) :
    Alike R (Permit.intoResult ⟨o, r.obligations, r.decisive⟩)
      (Permit.intoResult ⟨o, r'.obligations, r'.decisive⟩) :=
  ⟨rfl, h.obligations, h.untraced, h.facts⟩

end EvalResult.Alike

theorem readsUntilDeny_subset (logs : List (EvalResult O × List FactId)) :
    readsUntilDeny logs ⊆ logs.flatMap Prod.snd := by
  induction logs with
  | nil => exact List.nil_subset _
  | cons e logs ih =>
    rw [readsUntilDeny, List.flatMap_cons]
    refine List.append_subset.mpr ⟨List.subset_append_left _ _, ?_⟩
    split
    · exact List.subset_append_of_subset_right _ ih
    · exact List.nil_subset _

variable [Lattice O] [DecidableEq O]

section Transfer

/-! The clause that decides a policy is the clause of one of its arms, or names no facts at all.
So a relation `R s` between named facts that holds between the two leaves of every grant, where
`s` are the facts read for it, holds between the two results of the policy. -/

variable {R : List FactId → List FactId → List FactId → Prop}
  (hnil : ∀ s, R s [] []) (hmono : ∀ {s s'}, s ⊆ s' → ∀ l l', R s l l' → R s' l l')

include hnil hmono in
theorem Permit.alike_meet {s t : List FactId} {p p' q q' : Permit O}
    (hp : EvalResult.Alike (R s) p.intoResult p'.intoResult)
    (hq : EvalResult.Alike (R t) q.intoResult q'.intoResult) :
    EvalResult.Alike (R (s ++ t)) (p.meet q).intoResult (p'.meet q').intoResult := by
  have hpo : p'.outcome = p.outcome := Effect.permit.inj hp.effect
  have hqo : q'.outcome = q.outcome := Effect.permit.inj hq.effect
  unfold meet
  simp only [hpo, hqo]
  split
  · exact hp.mono (hmono (List.subset_append_left _ _))
  · split
    · exact hq.mono (hmono (List.subset_append_right _ _))
    · exact ⟨rfl, rfl, rfl, hnil _⟩

include hnil hmono in
theorem Permit.alike_join {s t : List FactId} {p p' q q' : Permit O}
    (hp : EvalResult.Alike (R s) p.intoResult p'.intoResult)
    (hq : EvalResult.Alike (R t) q.intoResult q'.intoResult) :
    EvalResult.Alike (R (s ++ t)) (p.join q).intoResult (p'.join q').intoResult := by
  have hpo : p'.outcome = p.outcome := Effect.permit.inj hp.effect
  have hqo : q'.outcome = q.outcome := Effect.permit.inj hq.effect
  have hobs : unionObligations p'.obligations q'.obligations =
      unionObligations p.obligations q.obligations := congrArg₂ _ hp.obligations hq.obligations
  unfold join
  simp only [hpo, hqo]
  split
  · exact ⟨rfl, hobs, hp.untraced, hmono (List.subset_append_left _ _) _ _ hp.facts⟩
  · split
    · exact hq.mono (hmono (List.subset_append_right _ _))
    · split
      · exact hp.mono (hmono (List.subset_append_left _ _))
      · exact ⟨rfl, hobs, rfl, hnil _⟩

/-- Both accumulators are empty, or they hold permits that are alike. -/
def AlikeAcc (R : List FactId → List FactId → Prop) : Option (Permit O) → Option (Permit O) → Prop
  | none, none => True
  | some p, some p' => EvalResult.Alike R p.intoResult p'.intoResult
  | _, _ => False

omit [Lattice O] [DecidableEq O] in
theorem AlikeAcc.cases {R : List FactId → List FactId → Prop} {acc acc' : Option (Permit O)}
    (h : AlikeAcc R acc acc') : (acc = none ∧ acc' = none) ∨
      ∃ p p', acc = some p ∧ acc' = some p' ∧
        EvalResult.Alike R p.intoResult p'.intoResult := by
  cases acc with
  | none =>
    cases acc' with
    | none => exact .inl ⟨rfl, rfl⟩
    | some p' => exact h.elim
  | some p =>
    cases acc' with
    | none => exact h.elim
    | some p' => exact .inr ⟨p, p', rfl, rfl, h⟩

section Loops

variable {ι : Type} {r r' : ι → EvalResult O} {l : ι → List FactId}

include hnil hmono in
theorem EvalResult.alike_allFrom (arms : List ι) (h : ∀ i ∈ arms, Alike (R (l i)) (r i) (r' i)) :
    ∀ acc acc' seen, AlikeAcc (R seen) acc acc' →
      Alike (R (seen ++ readsUntilDeny (arms.map fun i => (r i, l i))))
        (allFrom acc (arms.map r)) (allFrom acc' (arms.map r')) := by
  induction arms with
  | nil =>
    intro acc acc' seen hacc
    rw [List.map_nil, List.map_nil, List.map_nil, allFrom_nil, allFrom_nil, readsUntilDeny,
      List.append_nil]
    obtain ⟨rfl, rfl⟩ | ⟨p, p', rfl, rfl, hacc⟩ := hacc.cases
    · exact ⟨rfl, rfl, rfl, hnil _⟩
    · exact hacc
  | cons i arms ih =>
    intro acc acc' seen hacc
    have hi := h i List.mem_cons_self
    have hrest := ih fun j hj => h j (List.mem_cons_of_mem _ hj)
    simp only [List.map_cons, readsUntilDeny]
    cases heff : (r i).effect with
    | deny =>
      rw [allFrom_deny heff, allFrom_deny (hi.effect.trans heff)]
      exact hi.mono (hmono (List.subset_append_of_subset_right _ (List.subset_append_left _ _)))
    | permit o =>
      rw [allFrom_permit heff, allFrom_permit (hi.effect.trans heff)]
      simp only [Effect.isPermit, if_true, ← List.append_assoc]
      refine hrest _ _ (seen ++ l i) ?_
      obtain ⟨rfl, rfl⟩ | ⟨p, p', rfl, rfl, hacc⟩ := hacc.cases
      · exact (hi.permit o).mono (hmono (List.subset_append_right _ _))
      · exact Permit.alike_meet hnil hmono hacc (hi.permit o)

include hnil hmono in
theorem EvalResult.alike_anyFrom (arms : List ι) (h : ∀ i ∈ arms, Alike (R (l i)) (r i) (r' i)) :
    ∀ acc acc' first first' seen, AlikeAcc (R seen) acc acc' →
      Option.Rel (fun c c' => c'.untraced = c.untraced ∧ R seen c.facts c'.facts) first first' →
      Alike (R (seen ++ arms.flatMap l))
        (anyFrom acc first (arms.map r)) (anyFrom acc' first' (arms.map r')) := by
  induction arms with
  | nil =>
    intro acc acc' first first' seen hacc hfirst
    rw [List.flatMap_nil, List.append_nil]
    obtain ⟨rfl, rfl⟩ | ⟨p, p', rfl, rfl, hacc⟩ := hacc.cases
    · cases hfirst with
      | none => exact ⟨rfl, rfl, rfl, hnil _⟩
      | some hc => exact ⟨rfl, rfl, hc.1, hc.2⟩
    · exact hacc
  | cons i arms ih =>
    intro acc acc' first first' seen hacc hfirst
    have hi := h i List.mem_cons_self
    have hrest := ih fun j hj => h j (List.mem_cons_of_mem _ hj)
    have hleft : seen ⊆ seen ++ l i := List.subset_append_left _ _
    rw [List.map_cons, List.map_cons, List.flatMap_cons, ← List.append_assoc]
    cases heff : (r i).effect with
    | deny =>
      rw [anyFrom_deny heff, anyFrom_deny (hi.effect.trans heff)]
      refine hrest _ _ _ _ (seen ++ l i) ?_ ?_
      · obtain ⟨rfl, rfl⟩ | ⟨p, p', rfl, rfl, hacc⟩ := hacc.cases
        · exact trivial
        · exact EvalResult.Alike.mono hacc (hmono hleft)
      · cases hfirst with
        | none => exact .some ⟨hi.untraced, hmono (List.subset_append_right _ _) _ _ hi.facts⟩
        | some hc => exact .some ⟨hc.1, hmono hleft _ _ hc.2⟩
    | permit o =>
      rw [anyFrom_permit heff, anyFrom_permit (hi.effect.trans heff)]
      refine hrest _ _ _ _ (seen ++ l i) ?_ ?_
      · obtain ⟨rfl, rfl⟩ | ⟨p, p', rfl, rfl, hacc⟩ := hacc.cases
        · exact (hi.permit o).mono (hmono (List.subset_append_right _ _))
        · exact Permit.alike_join hnil hmono hacc (hi.permit o)
      · cases hfirst with
        | none => exact .none
        | some hc => exact .some ⟨hc.1, hmono hleft _ _ hc.2⟩

end Loops

include hnil hmono in
theorem Policy.alike_resultWith {leaf leaf' : Grant O → EvalResult O}
    {l : Grant O → List FactId} (h : ∀ g, EvalResult.Alike (R (l g)) (leaf g) (leaf' g))
    (p : Policy O) :
    EvalResult.Alike (R (p.readsWith leaf l)) (p.resultWith leaf) (p.resultWith leaf') := by
  induction p using Policy.ind with
  | permit o => exact ⟨rfl, rfl, rfl, hnil _⟩
  | deny => exact ⟨rfl, rfl, rfl, hnil _⟩
  | grant g => exact h g
  | all ps ih =>
    simp only [resultWith, readsWith, resultsWith_eq_map, logsWith_eq_map]
    exact EvalResult.alike_allFrom hnil hmono ps ih none none [] trivial
  | any ps ih =>
    simp only [resultWith, readsWith, resultsWith_eq_map, logsWith_eq_map, List.flatMap_map]
    exact EvalResult.alike_anyFrom hnil hmono ps ih none none none none [] trivial .none
  | orElse primary fallback ihp ihf =>
    simp only [resultWith, readsWith, ihp.effect]
    split
    · rw [List.append_nil]; exact ihp
    · exact ihf.mono (hmono (List.subset_append_right _ _))

end Transfer

namespace Policy

/-- When each grant's clause names only facts read for it, so does the policy's. -/
theorem facts_resultWith {leaf : Grant O → EvalResult O} {reads : Grant O → List FactId}
    (h : ∀ g, (leaf g).decisive.facts ⊆ reads g) (p : Policy O) :
    (p.resultWith leaf).decisive.facts ⊆ p.readsWith leaf reads :=
  (alike_resultWith (R := fun s l _ => l ⊆ s) (fun _ => List.nil_subset _)
    (fun hs _ _ hl => List.Subset.trans hl hs) (fun g => ⟨rfl, rfl, rfl, h g⟩) p).facts

theorem readsWith_subset_facts {leaf : Grant O → EvalResult O} {reads : Grant O → List FactId}
    (h : ∀ g, reads g ⊆ g.condition.facts) (p : Policy O) : p.readsWith leaf reads ⊆ p.facts := by
  induction p using Policy.ind with
  | permit o => exact List.nil_subset _
  | deny => exact List.nil_subset _
  | grant g => exact h g
  | all ps ih =>
    refine List.Subset.trans (readsUntilDeny_subset _) ?_
    rw [logsWith_eq_map, List.flatMap_map, facts, factsOf_eq_flatMap]
    exact Condition.flatMap_subset ih
  | any ps ih =>
    rw [readsWith, logsWith_eq_map, List.flatMap_map, facts, factsOf_eq_flatMap]
    exact Condition.flatMap_subset ih
  | orElse primary fallback ihp ihf =>
    rw [readsWith, facts]
    refine List.append_subset.mpr ⟨List.subset_append_of_subset_left _ ihp, ?_⟩
    split
    · exact List.nil_subset _
    · exact List.subset_append_of_subset_right _ ihf

end Policy

/-! ## Two runs -/

section TwoRuns

variable {v w : FactId → Bool}

/-- The loop of a conjunction, run on arms that behave alike wherever the facts they read agree. -/
theorem EvalResult.allFrom_congr {ι : Type} {r r' : ι → EvalResult O} {l l' : ι → List FactId}
    (arms : List ι)
    (ih : ∀ i ∈ arms, (∀ f ∈ l i, v f = w f) → r' i = r i ∧ l' i = l i)
    (h : ∀ f ∈ readsUntilDeny (arms.map fun i => (r i, l i)), v f = w f) :
    (∀ acc, allFrom acc (arms.map r') = allFrom acc (arms.map r)) ∧
      readsUntilDeny (arms.map fun i => (r' i, l' i)) =
        readsUntilDeny (arms.map fun i => (r i, l i)) := by
  induction arms with
  | nil => exact ⟨fun _ => rfl, rfl⟩
  | cons i arms iharms =>
    simp only [List.map_cons, readsUntilDeny] at h ⊢
    obtain ⟨hr, hl⟩ := ih i List.mem_cons_self fun f hf => h f (List.mem_append_left _ hf)
    rw [hr, hl]
    cases heff : (r i).effect with
    | deny => exact ⟨fun acc => by rw [allFrom_deny heff, allFrom_deny heff], by simp [Effect.isPermit]⟩
    | permit o =>
      simp only [heff, Effect.isPermit, if_true] at h
      obtain ⟨hall, hreads⟩ := iharms (fun j hj => ih j (List.mem_cons_of_mem _ hj))
        fun f hf => h f (List.mem_append_right _ hf)
      exact ⟨fun acc => by rw [allFrom_permit heff, allFrom_permit heff, hall], by rw [hreads]⟩

omit [Lattice O] [DecidableEq O] in
theorem Grant.result_congr (g : Grant O) (h : ∀ f ∈ g.reads v, v f = w f) :
    g.result w = g.result v ∧ g.reads w = g.reads v := by
  obtain ⟨hh, hd, hr⟩ := Condition.same_of_reads g.condition h
  exact ⟨by rw [Grant.result, Grant.result, Condition.eval, Condition.eval, hh, hd], hr⟩

/-- A policy's meaning and its reads depend only on the facts it reads. -/
theorem Policy.result_congr (p : Policy O) :
    (∀ f ∈ p.reads v, v f = w f) → p.result w = p.result v ∧ p.reads w = p.reads v := by
  induction p using Policy.ind with
  | permit o => exact fun _ => ⟨rfl, rfl⟩
  | deny => exact fun _ => ⟨rfl, rfl⟩
  | grant g => exact fun h => g.result_congr h
  | all ps ih =>
    intro h
    rw [Policy.reads, readsWith, logsWith_eq_map] at h
    obtain ⟨hall, hreads⟩ := EvalResult.allFrom_congr ps ih h
    simp only [Policy.result, Policy.reads, resultWith, readsWith, resultsWith_eq_map,
      logsWith_eq_map]
    exact ⟨hall none, hreads⟩
  | any ps ih =>
    intro h
    rw [Policy.reads, readsWith, logsWith_eq_map, List.flatMap_map] at h
    have harm : ∀ p ∈ ps, p.result w = p.result v ∧ p.reads w = p.reads v := fun p hp =>
      ih p hp fun f hf => h f (List.mem_flatMap.mpr ⟨p, hp, hf⟩)
    simp only [Policy.result, Policy.reads, resultWith, readsWith, resultsWith_eq_map,
      logsWith_eq_map, List.flatMap_map]
    refine ⟨congrArg _ (List.map_congr_left fun p hp => (harm p hp).1), ?_⟩
    exact List.flatMap_congr fun p hp => (harm p hp).2
  | orElse primary fallback ihp ihf =>
    intro h
    rw [Policy.reads, readsWith] at h
    obtain ⟨hr, hl⟩ := ihp fun f hf => h f (List.mem_append_left _ hf)
    simp only [Policy.result, Policy.reads] at hr hl
    simp only [Policy.result, Policy.reads, readsWith, resultWith, hr, hl]
    split
    · exact ⟨rfl, rfl⟩
    · rename_i hd
      rw [if_neg hd] at h
      obtain ⟨hr', hl'⟩ := ihf fun f hf => h f (List.mem_append_right _ hf)
      exact ⟨hr', congrArg _ hl'⟩

end TwoRuns

/-! ## The trace of an evaluation -/

omit [Lattice O] [DecidableEq O] in
theorem Grant.facts_result (v : FactId → Bool) (g : Grant O) :
    (g.result v).decisive.facts ⊆ g.reads v := by
  have h := Condition.decisive_subset_reads (v := v) g.condition
  unfold Grant.result grantResult
  split <;> exact h

theorem mem_consulted_evaluate {p : Policy O} {facts : KnownFacts} {fact : FactId} :
    fact ∈ FirstSeen.keys (evaluate p facts).trace.consulted ↔ fact ∈ p.reads facts.truth := by
  rw [evaluate_eq, FirstSeen.mem_keys_extend, keys_tag]
  simp

theorem consulted_evaluate {p : Policy O} {facts : KnownFacts} {e : FactId × Presence}
    (h : e ∈ (evaluate p facts).trace.consulted) :
    e.1 ∈ p.reads facts.truth ∧ e.2 = facts.presence e.1 := by
  rw [evaluate_eq] at h
  rcases FirstSeen.mem_of_mem_extend h with h | h
  · cases h
  · exact mem_tag.mp h

theorem consulted_required {p : Policy O} {facts : KnownFacts} {fact : FactId}
    (h : fact ∈ FirstSeen.keys (evaluate p facts).trace.consulted) : fact ∈ requiredFacts p := by
  rw [mem_requiredFacts]
  exact Policy.readsWith_subset_facts (fun g => g.condition.reads_subset_facts) p
    (mem_consulted_evaluate.mp h)

/-- Agreement on the consulted facts is agreement on the whole decision. -/
theorem evaluate_congr {p : Policy O} {f g : KnownFacts}
    (h : ∀ fact ∈ FirstSeen.keys (evaluate p f).trace.consulted,
      g.presence fact = f.presence fact) : evaluate p g = evaluate p f := by
  have hagree : ∀ fact ∈ p.reads f.truth, g.presence fact = f.presence fact := fun fact hf =>
    h fact (mem_consulted_evaluate.mpr hf)
  obtain ⟨hr, hl⟩ := Policy.result_congr (v := f.truth) (w := g.truth) p fun fact hf => by
    simp only [KnownFacts.truth, hagree fact hf]
  have htag : tag g.presence (p.reads f.truth) = tag f.presence (p.reads f.truth) :=
    List.map_congr_left fun fact hf => by rw [hagree fact hf]
  rw [evaluate_eq, evaluate_eq, hr, hl, htag]

/-- The recorded trace explains the decision. -/
theorem evaluate_trace_sufficient (p : Policy O) (f : KnownFacts) :
    (FirstSeen.keys (evaluate p f).trace.consulted).Nodup ∧
    (∀ e ∈ (evaluate p f).trace.consulted,
      e.1 ∈ requiredFacts p ∧ e.2 = f.presence e.1 ∧ e.2 ≠ .unknown) ∧
    (∀ fact ∈ (evaluate p f).trace.decisive.facts,
      fact ∈ FirstSeen.keys (evaluate p f).trace.consulted) ∧
    ∀ g : KnownFacts,
      (∀ fact ∈ FirstSeen.keys (evaluate p f).trace.consulted,
        g.presence fact = f.presence fact) →
      evaluate p g = evaluate p f := by
  refine ⟨?_, ?_, ?_, fun g h => evaluate_congr h⟩
  · rw [evaluate_eq]
    exact FirstSeen.nodup_keys_extend _ List.nodup_nil
  · intro e he
    obtain ⟨-, hpres⟩ := consulted_evaluate he
    refine ⟨consulted_required (List.mem_map_of_mem he), hpres, ?_⟩
    rw [hpres]
    exact f.presence_ne_unknown e.1
  · intro fact hfact
    rw [mem_consulted_evaluate]
    rw [evaluate_eq] at hfact
    exact Policy.facts_resultWith (Grant.facts_result f.truth) p hfact

end Policies

end Gatekeep
