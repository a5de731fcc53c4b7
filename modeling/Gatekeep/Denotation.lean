import Gatekeep.Evaluate

/-!
# Gatekeep.Denotation

What evaluation means, without the threaded list of consulted facts.

* `Condition.holds`, `Condition.decisive`, `Condition.reads`: the truth of a condition under a
  valuation of the facts, the facts that decide it, and the facts read to find out.
* `Policy.resultWith leaf`, `Policy.readsWith leaf reads`: the result of a policy and the facts
  read for it, when every grant `g` evaluates to `leaf g` and reads `reads g`.

`evalCondition_eq` and `evalPolicy_eq` say that the evaluators of `Evaluate` return exactly these
and append exactly these reads to the list they were given. Later results are about the meanings
and never unfold the evaluators again.
-/

namespace Gatekeep

/-- Whether a fact is present. -/
def KnownFacts.truth (facts : KnownFacts) (fact : FactId) : Bool := facts.presence fact == .present

/-- The entries that reading `reads` under `presence` records. -/
def tag (presence : FactId → Presence) (reads : List FactId) : Consulted :=
  reads.map fun fact => (fact, presence fact)

@[simp] theorem tag_nil (presence : FactId → Presence) : tag presence [] = [] := rfl

theorem tag_append (presence : FactId → Presence) (l l' : List FactId) :
    tag presence (l ++ l') = tag presence l ++ tag presence l' := by
  simp [tag]

@[simp] theorem keys_tag (presence : FactId → Presence) (l : List FactId) :
    FirstSeen.keys (tag presence l) = l := by
  rw [FirstSeen.keys, tag, List.map_map]
  exact List.map_id l

theorem mem_tag {presence : FactId → Presence} {l : List FactId} {e : FactId × Presence} :
    e ∈ tag presence l ↔ e.1 ∈ l ∧ e.2 = presence e.1 := by
  obtain ⟨fact, p⟩ := e
  simp only [tag, List.mem_map, Prod.mk.injEq]
  constructor
  · rintro ⟨f, hf, rfl, rfl⟩; exact ⟨hf, rfl⟩
  · rintro ⟨hf, rfl⟩; exact ⟨fact, hf, rfl, rfl⟩

theorem extend_tag_append (s : Consulted) (presence : FactId → Presence) (l l' : List FactId) :
    FirstSeen.extend s (tag presence (l ++ l')) =
      FirstSeen.extend (FirstSeen.extend s (tag presence l)) (tag presence l') := by
  rw [tag_append, FirstSeen.extend_append]

/-! ## Conditions -/

namespace Condition

variable (v : FactId → Bool)

mutual

def holds : Condition → Bool
  | .always => true
  | .never => false
  | .has fact => v fact
  | .not inner => !holds inner
  | .all conditions => !conditions.isEmpty && holdsAll conditions
  | .any conditions => holdsAny conditions

def holdsAll : List Condition → Bool
  | [] => true
  | c :: cs => holds c && holdsAll cs

def holdsAny : List Condition → Bool
  | [] => false
  | c :: cs => holds c || holdsAny cs

end

mutual

/-- The facts that a finished evaluation reports: of a failed conjunction those of its first
failing arm, of a satisfied disjunction those of its first satisfied arm, else those of all arms. -/
def decisive : Condition → List FactId
  | .always => []
  | .never => []
  | .has fact => [fact]
  | .not inner => decisive inner
  | .all conditions => decisiveAll conditions
  | .any conditions => decisiveAny conditions

def decisiveAll : List Condition → List FactId
  | [] => []
  | c :: cs =>
    if holds v c then if holdsAll v cs then decisive c ++ decisiveAll cs else decisiveAll cs
    else decisive c

def decisiveAny : List Condition → List FactId
  | [] => []
  | c :: cs =>
    if holds v c then decisive c
    else if holdsAny v cs then decisiveAny cs else decisive c ++ decisiveAny cs

end

mutual

/-- The facts read, in reading order and with repetitions. -/
def reads : Condition → List FactId
  | .always => []
  | .never => []
  | .has fact => [fact]
  | .not inner => reads inner
  | .all conditions => readsAll conditions
  | .any conditions => readsAny conditions

def readsAll : List Condition → List FactId
  | [] => []
  | c :: cs => reads c ++ if holds v c then readsAll cs else []

def readsAny : List Condition → List FactId
  | [] => []
  | c :: cs => reads c ++ if holds v c then [] else readsAny cs

end

theorem holdsAll_eq_all (cs : List Condition) : holdsAll v cs = cs.all (holds v) := by
  induction cs with
  | nil => rfl
  | cons c cs ih => rw [holdsAll, ih, List.all_cons]

theorem holdsAny_eq_any (cs : List Condition) : holdsAny v cs = cs.any (holds v) := by
  induction cs with
  | nil => rfl
  | cons c cs ih => rw [holdsAny, ih, List.any_cons]

/-- Truth and decisive facts together, as evaluation returns them. -/
def eval (c : Condition) : ConditionEval := ⟨holds v c, decisive v c⟩

end Condition

open Condition in
/-- The loop of a conjunction adds the decisive facts of the arms it passes to its accumulator and
forgets them when an arm fails. -/
theorem evalConditionAll_eq (facts : KnownFacts) (cs : List Condition)
    (ih : ∀ c ∈ cs, ∀ s, evalCondition facts c s =
      (c.eval facts.truth, FirstSeen.extend s (tag facts.presence (c.reads facts.truth)))) :
    ∀ acc s, evalConditionAll facts cs acc s =
      (⟨holdsAll facts.truth cs,
        if holdsAll facts.truth cs then acc ++ decisiveAll facts.truth cs
        else decisiveAll facts.truth cs⟩,
       FirstSeen.extend s (tag facts.presence (readsAll facts.truth cs))) := by
  induction cs with
  | nil => intro acc s; simp [evalConditionAll, holdsAll, decisiveAll, readsAll]
  | cons c cs ihcs =>
    intro acc s
    have hc := ih c List.mem_cons_self s
    have hcs := ihcs fun c' hc' => ih c' (List.mem_cons_of_mem _ hc')
    simp only [evalConditionAll, hc, eval, holdsAll, decisiveAll, readsAll]
    by_cases hh : holds facts.truth c = true
    · rw [if_pos hh, hcs]
      simp only [hh, Bool.true_and, if_true, extend_tag_append]
      by_cases hrest : holdsAll facts.truth cs = true <;> simp [hrest]
    · simp [hh]

open Condition in
theorem evalConditionAny_eq (facts : KnownFacts) (cs : List Condition)
    (ih : ∀ c ∈ cs, ∀ s, evalCondition facts c s =
      (c.eval facts.truth, FirstSeen.extend s (tag facts.presence (c.reads facts.truth)))) :
    ∀ acc s, evalConditionAny facts cs acc s =
      (⟨holdsAny facts.truth cs,
        if holdsAny facts.truth cs then decisiveAny facts.truth cs
        else acc ++ decisiveAny facts.truth cs⟩,
       FirstSeen.extend s (tag facts.presence (readsAny facts.truth cs))) := by
  induction cs with
  | nil => intro acc s; simp [evalConditionAny, holdsAny, decisiveAny, readsAny]
  | cons c cs ihcs =>
    intro acc s
    have hc := ih c List.mem_cons_self s
    have hcs := ihcs fun c' hc' => ih c' (List.mem_cons_of_mem _ hc')
    simp only [evalConditionAny, hc, eval, holdsAny, decisiveAny, readsAny]
    by_cases hh : holds facts.truth c = true
    · simp [hh]
    · rw [if_neg hh, hcs]
      simp only [hh, Bool.false_or, Bool.false_eq_true, if_false, extend_tag_append]
      by_cases hrest : holdsAny facts.truth cs = true <;> simp [hrest]

/-- Condition evaluation returns the meaning of the condition and records its reads. -/
theorem evalCondition_eq (facts : KnownFacts) (c : Condition) :
    ∀ s, evalCondition facts c s =
      (c.eval facts.truth, FirstSeen.extend s (tag facts.presence (c.reads facts.truth))) := by
  induction c using Condition.ind with
  | always => intro s; rfl
  | never => intro s; rfl
  | has fact => intro s; rfl
  | not inner ih =>
    intro s
    simp only [evalCondition, ih, Condition.eval, Condition.holds, Condition.decisive,
      Condition.reads]
  | all cs ih =>
    intro s
    cases cs with
    | nil => rfl
    | cons c cs =>
      simp only [evalCondition, List.isEmpty_cons, Bool.false_eq_true, if_false]
      rw [evalConditionAll_eq facts _ ih]
      simp [Condition.eval, Condition.holds, Condition.decisive, Condition.reads]
  | any cs ih =>
    intro s
    cases cs with
    | nil => rfl
    | cons c cs =>
      simp only [evalCondition, List.isEmpty_cons, Bool.false_eq_true, if_false]
      rw [evalConditionAny_eq facts _ ih]
      simp [Condition.eval, Condition.holds, Condition.decisive, Condition.reads]

/-! ## Combining the arms of a policy -/

section Combine

variable {O : Type}

/-- The permit a result carries, if it is one. -/
def EvalResult.permit? (r : EvalResult O) : Option (Permit O) :=
  match r.effect with
  | .permit outcome => some ⟨outcome, r.obligations, r.decisive⟩
  | .deny => none

theorem EvalResult.permit?_eq_none {r : EvalResult O} : r.permit? = none ↔ r.effect = .deny := by
  unfold permit?
  cases r.effect <;> simp

/-- Left fold of a nonempty list of permits. -/
def Permit.fold (f : Permit O → Permit O → Permit O) : List (Permit O) → Option (Permit O)
  | [] => none
  | p :: ps => some (ps.foldl f p)

/-- The reads of a conjunction stop after its first denying arm. -/
def readsUntilDeny : List (EvalResult O × List FactId) → List FactId
  | [] => []
  | (r, l) :: rest => l ++ if r.effect.isPermit then readsUntilDeny rest else []

/-- The evaluator `m` returns `r` and appends the reads `l`, whatever was read before. -/
def Runs (facts : KnownFacts) (m : EvalM O) (r : EvalResult O) (l : List FactId) : Prop :=
  ∀ s, m s = (r, FirstSeen.extend s (tag facts.presence l))

variable [Lattice O] [DecidableEq O]

/-- A conjunction: its first denying arm, or the meet of its permits; `acc` is the meet of the
arms already passed. -/
def EvalResult.allFrom (acc : Option (Permit O)) (arms : List (EvalResult O)) : EvalResult O :=
  match arms.find? (fun r => !r.effect.isPermit) with
  | some r => r
  | none =>
    ((Permit.fold Permit.meet (acc.toList ++ arms.filterMap permit?)).map Permit.intoResult).getD
      genericDeny

/-- A disjunction: the join of its permits, or a denial for the first arm's reason. -/
def EvalResult.anyFrom (acc : Option (Permit O)) (firstDeny : Option (DecisiveClause O))
    (arms : List (EvalResult O)) : EvalResult O :=
  ((Permit.fold Permit.join (acc.toList ++ arms.filterMap permit?)).map Permit.intoResult).getD
    ⟨.deny, [], (firstDeny.or (arms.head?.map EvalResult.decisive)).getD
      (genericDeny : EvalResult O).decisive⟩

abbrev EvalResult.all (arms : List (EvalResult O)) : EvalResult O := allFrom none arms

abbrev EvalResult.any (arms : List (EvalResult O)) : EvalResult O := anyFrom none none arms

theorem EvalResult.allFrom_nil (acc : Option (Permit O)) :
    allFrom acc [] = (acc.map Permit.intoResult).getD genericDeny := by
  cases acc <;> rfl

theorem EvalResult.allFrom_deny {acc : Option (Permit O)} {r : EvalResult O}
    {rs : List (EvalResult O)} (h : r.effect = .deny) : allFrom acc (r :: rs) = r := by
  simp [allFrom, h, Effect.isPermit]

/-- One pass through the loop of a conjunction. -/
theorem EvalResult.allFrom_permit {acc : Option (Permit O)} {r : EvalResult O}
    {rs : List (EvalResult O)} {o : O} (h : r.effect = .permit o) :
    allFrom acc (r :: rs) =
      allFrom (some ((acc.map fun p => p.meet ⟨o, r.obligations, r.decisive⟩).getD
        ⟨o, r.obligations, r.decisive⟩)) rs := by
  have hp : r.permit? = some ⟨o, r.obligations, r.decisive⟩ := by simp [permit?, h]
  simp only [allFrom, List.find?_cons, h, Effect.isPermit, Bool.not_true, List.filterMap_cons, hp]
  cases acc <;> rfl

theorem EvalResult.anyFrom_deny {acc : Option (Permit O)} {first : Option (DecisiveClause O)}
    {r : EvalResult O} {rs : List (EvalResult O)} (h : r.effect = .deny) :
    anyFrom acc first (r :: rs) = anyFrom acc (some (first.getD r.decisive)) rs := by
  have hp : r.permit? = none := permit?_eq_none.mpr h
  simp only [anyFrom, List.filterMap_cons, hp, List.head?_cons, Option.map_some]
  cases first <;> rfl

theorem EvalResult.anyFrom_permit {acc : Option (Permit O)} {first : Option (DecisiveClause O)}
    {r : EvalResult O} {rs : List (EvalResult O)} {o : O} (h : r.effect = .permit o) :
    anyFrom acc first (r :: rs) =
      anyFrom (some ((acc.map fun p => p.join ⟨o, r.obligations, r.decisive⟩).getD
        ⟨o, r.obligations, r.decisive⟩)) first rs := by
  have hp : r.permit? = some ⟨o, r.obligations, r.decisive⟩ := by simp [permit?, h]
  simp only [anyFrom, List.filterMap_cons, hp]
  cases acc <;> rfl

/-! ## The loops compute the combinations -/

section Loops

variable {ι : Type} {facts : KnownFacts} {m : ι → EvalM O} {r : ι → EvalResult O}
  {l : ι → List FactId}

theorem runs_evalAllBy (arms : List ι) (h : ∀ i ∈ arms, Runs facts (m i) (r i) (l i)) :
    ∀ acc, Runs facts (evalAllBy acc (arms.map m)) (EvalResult.allFrom acc (arms.map r))
      (readsUntilDeny (arms.map fun i => (r i, l i))) := by
  induction arms with
  | nil => intro acc s; cases acc <;> rfl
  | cons i arms ih =>
    intro acc s
    have hi := h i List.mem_cons_self s
    have hrest := ih fun j hj => h j (List.mem_cons_of_mem _ hj)
    simp only [List.map_cons, evalAllBy, hi, readsUntilDeny]
    cases he : (r i).effect with
    | deny => simp [EvalResult.allFrom_deny he, Effect.isPermit]
    | permit o =>
      rw [EvalResult.allFrom_permit he]
      simp only [Effect.isPermit, if_true, extend_tag_append]
      cases acc with
      | none => exact hrest _ _
      | some p => exact hrest _ _

theorem runs_evalAnyBy (arms : List ι) (h : ∀ i ∈ arms, Runs facts (m i) (r i) (l i)) :
    ∀ acc first, Runs facts (evalAnyBy acc first (arms.map m))
      (EvalResult.anyFrom acc first (arms.map r)) (arms.flatMap l) := by
  induction arms with
  | nil => intro acc first s; cases acc <;> cases first <;> rfl
  | cons i arms ih =>
    intro acc first s
    have hi := h i List.mem_cons_self s
    have hrest := ih fun j hj => h j (List.mem_cons_of_mem _ hj)
    simp only [List.map_cons, evalAnyBy, hi, List.flatMap_cons, extend_tag_append]
    cases he : (r i).effect with
    | deny => rw [EvalResult.anyFrom_deny he]; exact hrest _ _ _
    | permit o =>
      rw [EvalResult.anyFrom_permit he]
      cases acc with
      | none => exact hrest _ _ _
      | some p => exact hrest _ _ _

omit [Lattice O] [DecidableEq O] in
theorem runs_evalOrElse {m₁ m₂ : EvalM O} {r₁ r₂ : EvalResult O} {l₁ l₂ : List FactId}
    (h₁ : Runs facts m₁ r₁ l₁) (h₂ : Runs facts m₂ r₂ l₂) :
    Runs facts (evalOrElse m₁ m₂) (if r₁.effect.isPermit then r₁ else r₂)
      (l₁ ++ if r₁.effect.isPermit then [] else l₂) := by
  intro s
  simp only [evalOrElse, h₁ s]
  split
  · simp
  · rw [h₂, extend_tag_append]

end Loops

end Combine

/-! ## Policies -/

section Policies

variable {O : Type} [Lattice O] [DecidableEq O]

namespace Policy

mutual

/-- The result of a policy whose grants evaluate to `leaf`. -/
def resultWith (leaf : Grant O → EvalResult O) : Policy O → EvalResult O
  | .permit outcome => constantPermit outcome
  | .deny => genericDeny
  | .grant g => leaf g
  | .all policies => EvalResult.all (resultsWith leaf policies)
  | .any policies => EvalResult.any (resultsWith leaf policies)
  | .orElse primary fallback =>
    if (resultWith leaf primary).effect.isPermit then resultWith leaf primary
    else resultWith leaf fallback

def resultsWith (leaf : Grant O → EvalResult O) : List (Policy O) → List (EvalResult O)
  | [] => []
  | p :: ps => resultWith leaf p :: resultsWith leaf ps

end

mutual

/-- The facts read for a policy whose grants evaluate to `leaf` and read `reads`. -/
def readsWith (leaf : Grant O → EvalResult O) (reads : Grant O → List FactId) :
    Policy O → List FactId
  | .permit _ => []
  | .deny => []
  | .grant g => reads g
  | .all policies => readsUntilDeny (logsWith leaf reads policies)
  | .any policies => (logsWith leaf reads policies).flatMap Prod.snd
  | .orElse primary fallback =>
    readsWith leaf reads primary ++
      if (resultWith leaf primary).effect.isPermit then [] else readsWith leaf reads fallback

def logsWith (leaf : Grant O → EvalResult O) (reads : Grant O → List FactId) :
    List (Policy O) → List (EvalResult O × List FactId)
  | [] => []
  | p :: ps => (resultWith leaf p, readsWith leaf reads p) :: logsWith leaf reads ps

end

theorem resultsWith_eq_map (leaf : Grant O → EvalResult O) (ps : List (Policy O)) :
    resultsWith leaf ps = ps.map (resultWith leaf) := by
  induction ps with
  | nil => rfl
  | cons p ps ih => rw [resultsWith, ih, List.map_cons]

theorem logsWith_eq_map (leaf : Grant O → EvalResult O) (reads : Grant O → List FactId)
    (ps : List (Policy O)) :
    logsWith leaf reads ps = ps.map fun p => (resultWith leaf p, readsWith leaf reads p) := by
  induction ps with
  | nil => rfl
  | cons p ps ih => rw [logsWith, ih, List.map_cons]

end Policy

/-- The result of a grant under a valuation. -/
def Grant.result (v : FactId → Bool) (g : Grant O) : EvalResult O :=
  grantResult g (g.condition.eval v)

def Grant.reads (v : FactId → Bool) (g : Grant O) : List FactId := g.condition.reads v

/-- The result of a policy under a valuation. -/
abbrev Policy.result (v : FactId → Bool) (p : Policy O) : EvalResult O :=
  p.resultWith (Grant.result v)

abbrev Policy.reads (v : FactId → Bool) (p : Policy O) : List FactId :=
  p.readsWith (Grant.result v) (Grant.reads v)

omit [Lattice O] [DecidableEq O] in
theorem runs_evalGrant (facts : KnownFacts) (g : Grant O) :
    Runs facts (evalGrant facts g) (g.result facts.truth) (g.reads facts.truth) := by
  intro s
  simp only [evalGrant, evalCondition_eq]
  rfl

/-- Policy evaluation returns the meaning of the policy and records its reads. -/
theorem runs_evalPolicy (facts : KnownFacts) (p : Policy O) :
    Runs facts (evalPolicy facts p) (p.result facts.truth) (p.reads facts.truth) := by
  induction p using Policy.ind with
  | permit o => exact fun s => rfl
  | deny => exact fun s => rfl
  | grant g => exact runs_evalGrant facts g
  | all ps ih =>
    have := runs_evalAllBy ps ih none
    rw [Policy.result, Policy.reads, Policy.resultWith, Policy.readsWith,
      Policy.resultsWith_eq_map, Policy.logsWith_eq_map, evalPolicy, evalPolicyArms_eq_map]
    exact this
  | any ps ih =>
    have := runs_evalAnyBy ps ih none none
    rw [Policy.result, Policy.reads, Policy.resultWith, Policy.readsWith,
      Policy.resultsWith_eq_map, Policy.logsWith_eq_map, evalPolicy, evalPolicyArms_eq_map,
      List.flatMap_map]
    exact this
  | orElse primary fallback ihp ihf =>
    exact runs_evalOrElse ihp ihf

theorem evaluate_eq (p : Policy O) (facts : KnownFacts) :
    evaluate p facts =
      ⟨(p.result facts.truth).effect, (p.result facts.truth).obligations,
        ⟨FirstSeen.extend [] (tag facts.presence (p.reads facts.truth)),
          (p.result facts.truth).decisive⟩⟩ := by
  rw [evaluate, runs_evalPolicy facts p []]
  rfl

/-! ## Residual policies -/

namespace ResidualPolicy

mutual

/-- The result of a residual policy under a valuation. -/
def result (v : FactId → Bool) : ResidualPolicy O → EvalResult O
  | .permit outcome => constantPermit outcome
  | .deny => genericDeny
  | .permitWithTrace outcome obligations satisfied label =>
    ⟨.permit outcome, obligations, .permit outcome satisfied label⟩
  | .denyWithTrace denied unsatisfied label reason shape =>
    ⟨.deny, [], .deny denied unsatisfied label reason shape⟩
  | .grant g => g.result v
  | .all policies => EvalResult.all (results v policies)
  | .any policies => EvalResult.any (results v policies)
  | .orElse primary fallback =>
    if (result v primary).effect.isPermit then result v primary else result v fallback

def results (v : FactId → Bool) : List (ResidualPolicy O) → List (EvalResult O)
  | [] => []
  | r :: rs => result v r :: results v rs

end

mutual

def reads (v : FactId → Bool) : ResidualPolicy O → List FactId
  | .permit _ | .deny | .permitWithTrace .. | .denyWithTrace .. => []
  | .grant g => g.reads v
  | .all policies => readsUntilDeny (logs v policies)
  | .any policies => (logs v policies).flatMap Prod.snd
  | .orElse primary fallback =>
    reads v primary ++ if (result v primary).effect.isPermit then [] else reads v fallback

def logs (v : FactId → Bool) : List (ResidualPolicy O) → List (EvalResult O × List FactId)
  | [] => []
  | r :: rs => (result v r, reads v r) :: logs v rs

end

theorem results_eq_map (v : FactId → Bool) (rs : List (ResidualPolicy O)) :
    results v rs = rs.map (result v) := by
  induction rs with
  | nil => rfl
  | cons r rs ih => rw [results, ih, List.map_cons]

theorem logs_eq_map (v : FactId → Bool) (rs : List (ResidualPolicy O)) :
    logs v rs = rs.map fun r => (result v r, reads v r) := by
  induction rs with
  | nil => rfl
  | cons r rs ih => rw [logs, ih, List.map_cons]

end ResidualPolicy

theorem runs_evalResidualPolicy (facts : KnownFacts) (r : ResidualPolicy O) :
    Runs facts (evalResidualPolicy facts r) (r.result facts.truth) (r.reads facts.truth) := by
  induction r using ResidualPolicy.ind with
  | permit o => exact fun s => rfl
  | deny => exact fun s => rfl
  | permitWithTrace o obs sat label => exact fun s => rfl
  | denyWithTrace o unsat label reason shape => exact fun s => rfl
  | grant g => exact runs_evalGrant facts g
  | all rs ih =>
    have := runs_evalAllBy rs ih none
    rw [ResidualPolicy.result, ResidualPolicy.reads, ResidualPolicy.results_eq_map,
      ResidualPolicy.logs_eq_map, evalResidualPolicy, evalResidualArms_eq_map]
    exact this
  | any rs ih =>
    have := runs_evalAnyBy rs ih none none
    rw [ResidualPolicy.result, ResidualPolicy.reads, ResidualPolicy.results_eq_map,
      ResidualPolicy.logs_eq_map, evalResidualPolicy, evalResidualArms_eq_map, List.flatMap_map]
    exact this
  | orElse primary fallback ihp ihf =>
    exact runs_evalOrElse ihp ihf

theorem evaluateResidual_eq (r : ResidualPolicy O) (facts : KnownFacts) :
    evaluateResidual r facts =
      ⟨(r.result facts.truth).effect, (r.result facts.truth).obligations,
        ⟨FirstSeen.extend [] (tag facts.presence (r.reads facts.truth)),
          (r.result facts.truth).decisive⟩⟩ := by
  rw [evaluateResidual, runs_evalResidualPolicy facts r []]
  rfl

end Policies

end Gatekeep
