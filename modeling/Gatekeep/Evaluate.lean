import Gatekeep.PolicyModel
import Gatekeep.Support.FirstSeen

/-!
# Gatekeep.Evaluate

Full evaluation, as `evaluate.rs` computes it. The mutable list of consulted facts is threaded
as a state: an evaluator takes the list read so far and returns its result with the longer list.
A slice of policies handed to `eval_all_by` / `eval_any_by` with a closure is here the list of the
arms' evaluators (`EvalM`), so that an arm that the loop does not reach reads nothing.
-/

namespace Gatekeep

def Consulted.record (consulted : Consulted) (fact : FactId) (presence : Presence) : Consulted :=
  FirstSeen.record consulted fact presence

structure EvalResult (O : Type) where
  effect : Effect O
  obligations : List ObligationId
  decisive : DecisiveClause O
deriving DecidableEq

structure ConditionEval where
  satisfied : Bool
  decisiveFacts : List FactId
deriving DecidableEq

/-- One evaluator run: from the facts read so far to the result and the facts read after it. -/
abbrev EvalM (O : Type) := Consulted → EvalResult O × Consulted

/-! ## Conditions -/

mutual

def evalCondition (facts : KnownFacts) : Condition → Consulted → ConditionEval × Consulted
  | .always, consulted => (⟨true, []⟩, consulted)
  | .never, consulted => (⟨false, []⟩, consulted)
  | .has fact, consulted =>
    (⟨facts.presence fact == .present, [fact]⟩, consulted.record fact (facts.presence fact))
  | .not inner, consulted =>
    let (inner, consulted) := evalCondition facts inner consulted
    (⟨!inner.satisfied, inner.decisiveFacts⟩, consulted)
  | .all conditions, consulted =>
    if conditions.isEmpty then (⟨false, []⟩, consulted)
    else evalConditionAll facts conditions [] consulted
  | .any conditions, consulted =>
    if conditions.isEmpty then (⟨false, []⟩, consulted)
    else evalConditionAny facts conditions [] consulted

/-- The loop of `eval_condition_all`; `satisfiedFacts` is its accumulator. -/
def evalConditionAll (facts : KnownFacts) :
    List Condition → List FactId → Consulted → ConditionEval × Consulted
  | [], satisfiedFacts, consulted => (⟨true, satisfiedFacts⟩, consulted)
  | condition :: conditions, satisfiedFacts, consulted =>
    let (arm, consulted) := evalCondition facts condition consulted
    if arm.satisfied then
      evalConditionAll facts conditions (satisfiedFacts ++ arm.decisiveFacts) consulted
    else (⟨false, arm.decisiveFacts⟩, consulted)

/-- The loop of `eval_condition_any`; `missing` is its accumulator. -/
def evalConditionAny (facts : KnownFacts) :
    List Condition → List FactId → Consulted → ConditionEval × Consulted
  | [], missing, consulted => (⟨false, missing⟩, consulted)
  | condition :: conditions, missing, consulted =>
    let (arm, consulted) := evalCondition facts condition consulted
    if arm.satisfied then (⟨true, arm.decisiveFacts⟩, consulted)
    else evalConditionAny facts conditions (missing ++ arm.decisiveFacts) consulted

end

/-! ## Policies -/

section Policies

variable {O : Type}

def genericDeny : EvalResult O :=
  ⟨.deny, [], .deny none [] none none .forbidden⟩

def constantPermit (outcome : O) : EvalResult O :=
  ⟨.permit outcome, [], .permit outcome [] none⟩

/-- The result of a grant whose condition evaluated to `condition`. -/
def grantResult (g : Grant O) (condition : ConditionEval) : EvalResult O :=
  if condition.satisfied then
    ⟨.permit g.outcome, g.obligations, .permit g.outcome condition.decisiveFacts g.label⟩
  else
    ⟨.deny, [], .deny (some g.outcome) condition.decisiveFacts g.label g.reason g.denyShape⟩

def evalGrant (facts : KnownFacts) (g : Grant O) : EvalM O := fun consulted =>
  let (condition, consulted) := evalCondition facts g.condition consulted
  (grantResult g condition, consulted)

/-- Append the obligations of `source` that `target` does not have. -/
def unionObligations (target source : List ObligationId) : List ObligationId :=
  source.foldl (fun target o => if target.contains o then target else target ++ [o]) target

/-- A permit keeps its trace and obligations attached while lattice outcomes combine. -/
structure Permit (O : Type) where
  outcome : O
  obligations : List ObligationId
  decisive : DecisiveClause O
deriving DecidableEq

namespace Permit

def combined (outcome : O) (obligations : List ObligationId) : Permit O :=
  ⟨outcome, obligations, .permit outcome [] none⟩

def intoResult (p : Permit O) : EvalResult O := ⟨.permit p.outcome, p.obligations, p.decisive⟩

variable [Lattice O] [DecidableEq O]

def meet (self incoming : Permit O) : Permit O :=
  let outcome := Lattice.meet self.outcome incoming.outcome
  if outcome = self.outcome then self
  else if outcome = incoming.outcome then incoming
  else combined outcome []

def join (self incoming : Permit O) : Permit O :=
  let outcome := Lattice.join self.outcome incoming.outcome
  if outcome = self.outcome ∧ outcome = incoming.outcome then
    { self with obligations := unionObligations self.obligations incoming.obligations }
  else if outcome = incoming.outcome then incoming
  else if outcome = self.outcome then self
  else combined outcome (unionObligations self.obligations incoming.obligations)

end Permit

variable [Lattice O] [DecidableEq O]

/-- The loop of `eval_all_by`; `permit` is its accumulator. -/
def evalAllBy : Option (Permit O) → List (EvalM O) → EvalM O
  | none, [], consulted => (genericDeny, consulted)
  | some permit, [], consulted => (permit.intoResult, consulted)
  | permit, evalArm :: arms, consulted =>
    let (arm, consulted) := evalArm consulted
    match arm.effect with
    | .deny => (arm, consulted)
    | .permit outcome =>
      let incoming : Permit O := ⟨outcome, arm.obligations, arm.decisive⟩
      match permit with
      | none => evalAllBy (some incoming) arms consulted
      | some current => evalAllBy (some (current.meet incoming)) arms consulted

/-- The loop of `eval_any_by`; `winning` and `firstDeny` are its accumulators. -/
def evalAnyBy : Option (Permit O) → Option (DecisiveClause O) → List (EvalM O) → EvalM O
  | some winning, _, [], consulted => (winning.intoResult, consulted)
  | none, firstDeny, [], consulted =>
    (⟨.deny, [], firstDeny.getD (genericDeny : EvalResult O).decisive⟩, consulted)
  | winning, firstDeny, evalArm :: arms, consulted =>
    let (arm, consulted) := evalArm consulted
    match arm.effect with
    | .deny => evalAnyBy winning (some (firstDeny.getD arm.decisive)) arms consulted
    | .permit outcome =>
      let incoming : Permit O := ⟨outcome, arm.obligations, arm.decisive⟩
      match winning with
      | none => evalAnyBy (some incoming) firstDeny arms consulted
      | some current => evalAnyBy (some (current.join incoming)) firstDeny arms consulted

/-- The branch both evaluators share for `OrElse`. -/
def evalOrElse (primary fallback : EvalM O) : EvalM O := fun consulted =>
  let (result, consulted) := primary consulted
  if result.effect.isPermit then (result, consulted) else fallback consulted

mutual

def evalPolicy (facts : KnownFacts) : Policy O → EvalM O
  | .permit outcome => fun consulted => (constantPermit outcome, consulted)
  | .deny => fun consulted => (genericDeny, consulted)
  | .grant g => evalGrant facts g
  | .all policies => evalAllBy none (evalPolicyArms facts policies)
  | .any policies => evalAnyBy none none (evalPolicyArms facts policies)
  | .orElse primary fallback => evalOrElse (evalPolicy facts primary) (evalPolicy facts fallback)

def evalPolicyArms (facts : KnownFacts) : List (Policy O) → List (EvalM O)
  | [] => []
  | policy :: policies => evalPolicy facts policy :: evalPolicyArms facts policies

end

mutual

def evalResidualPolicy (facts : KnownFacts) : ResidualPolicy O → EvalM O
  | .permit outcome => fun consulted => (constantPermit outcome, consulted)
  | .deny => fun consulted => (genericDeny, consulted)
  | .permitWithTrace outcome obligations satisfied label => fun consulted =>
    (⟨.permit outcome, obligations, .permit outcome satisfied label⟩, consulted)
  | .denyWithTrace denied unsatisfied label reason shape => fun consulted =>
    (⟨.deny, [], .deny denied unsatisfied label reason shape⟩, consulted)
  | .grant g => evalGrant facts g
  | .all policies => evalAllBy none (evalResidualArms facts policies)
  | .any policies => evalAnyBy none none (evalResidualArms facts policies)
  | .orElse primary fallback =>
    evalOrElse (evalResidualPolicy facts primary) (evalResidualPolicy facts fallback)

def evalResidualArms (facts : KnownFacts) : List (ResidualPolicy O) → List (EvalM O)
  | [] => []
  | policy :: policies => evalResidualPolicy facts policy :: evalResidualArms facts policies

end

/-- The decision built from a finished evaluator run. -/
def EvalResult.toDecision (run : EvalResult O × Consulted) : Decision O :=
  ⟨run.1.effect, run.1.obligations, ⟨run.2, run.1.decisive⟩⟩

def evaluate (policy : Policy O) (facts : KnownFacts) : Decision O :=
  EvalResult.toDecision (evalPolicy facts policy [])

def evaluateResidual (policy : ResidualPolicy O) (facts : KnownFacts) : Decision O :=
  EvalResult.toDecision (evalResidualPolicy facts policy [])

theorem evalPolicyArms_eq_map (facts : KnownFacts) (policies : List (Policy O)) :
    evalPolicyArms facts policies = policies.map (evalPolicy facts) := by
  induction policies with
  | nil => rfl
  | cons p ps ih => rw [evalPolicyArms, ih, List.map_cons]

theorem evalResidualArms_eq_map (facts : KnownFacts) (policies : List (ResidualPolicy O)) :
    evalResidualArms facts policies = policies.map (evalResidualPolicy facts) := by
  induction policies with
  | nil => rfl
  | cons p ps ih => rw [evalResidualArms, ih, List.map_cons]

end Policies

/-! ## Required facts -/

abbrev FactSet := Std.ExtTreeSet FactId

mutual

def collectConditionFacts : Condition → FactSet → FactSet
  | .always, facts | .never, facts => facts
  | .has fact, facts => facts.insert fact
  | .not inner, facts => collectConditionFacts inner facts
  | .all conditions, facts | .any conditions, facts => collectConditionsFacts conditions facts

def collectConditionsFacts : List Condition → FactSet → FactSet
  | [], facts => facts
  | condition :: conditions, facts =>
    collectConditionsFacts conditions (collectConditionFacts condition facts)

end

section Required

variable {O : Type}

mutual

def collectPolicyFacts : Policy O → FactSet → FactSet
  | .permit _, facts | .deny, facts => facts
  | .grant g, facts => collectConditionFacts g.condition facts
  | .all policies, facts | .any policies, facts => collectPoliciesFacts policies facts
  | .orElse primary fallback, facts => collectPolicyFacts fallback (collectPolicyFacts primary facts)

def collectPoliciesFacts : List (Policy O) → FactSet → FactSet
  | [], facts => facts
  | policy :: policies, facts => collectPoliciesFacts policies (collectPolicyFacts policy facts)

end

/-- Every fact that a policy may consult. -/
def requiredFacts (policy : Policy O) : FactSet := collectPolicyFacts policy ∅

mutual

def collectResidualPolicyFacts : ResidualPolicy O → FactSet → FactSet
  | .permit _, facts | .deny, facts | .permitWithTrace .., facts | .denyWithTrace .., facts => facts
  | .grant g, facts => collectConditionFacts g.condition facts
  | .all policies, facts | .any policies, facts => collectResidualPoliciesFacts policies facts
  | .orElse primary fallback, facts =>
    collectResidualPolicyFacts fallback (collectResidualPolicyFacts primary facts)

def collectResidualPoliciesFacts : List (ResidualPolicy O) → FactSet → FactSet
  | [], facts => facts
  | policy :: policies, facts =>
    collectResidualPoliciesFacts policies (collectResidualPolicyFacts policy facts)

end

/-- Every fact that a residual policy may consult. -/
def requiredResidualFacts (policy : ResidualPolicy O) : FactSet :=
  collectResidualPolicyFacts policy ∅

end Required

end Gatekeep
