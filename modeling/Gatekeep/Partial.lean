import Gatekeep.Evaluate

/-!
# Gatekeep.Partial

Partial evaluation, as `partial.rs` computes it: a policy is reduced arm by arm against facts that
may be unknown, to a decision or to a smaller residual policy, and a pending residual is completed
later against known facts.

Reducing an arm has no effect on the others, so `reduceAll`, `reduceAny` and `reduceOrElse` take
the arms already reduced; the early return of `reduce_all` and of the condition loops is kept.
-/

namespace Gatekeep

/-- `ConsultedList::extend`. -/
def Consulted.extend (consulted other : Consulted) : Consulted := FirstSeen.extend consulted other

/-- Result of partial evaluation with possibly unknown facts. -/
inductive Residual (O : Type) where
  | resolved (decision : Decision O)
  | pending (residual : ResidualPolicy O) (consulted : Consulted)

inductive ReducedCondition where
  | known (satisfied : Bool) (consulted : Consulted)
  | pending (residual : Condition) (consulted : Consulted)

def partialToKnown (facts : PartialFacts) : KnownFacts :=
  KnownFacts.fromKnownEntries facts.knownEntries

/-! ## Conditions -/

/-- How both condition loops end: `known` when nothing is left open, the only open arm itself,
or the open arms under `combine`. -/
def closeReduced (known : Bool) (combine : List Condition → Condition)
    (consulted : Consulted) : List Condition → ReducedCondition
  | [] => .known known consulted
  | [residual] => .pending residual consulted
  | pending => .pending (combine pending) consulted

mutual

def reduceCondition (facts : PartialFacts) : Condition → ReducedCondition
  | .always => .known true []
  | .never => .known false []
  | .has fact =>
    match facts.presence fact with
    | .present => .known true (Consulted.record [] fact .present)
    | .absent => .known false (Consulted.record [] fact .absent)
    | .unknown => .pending (.has fact) []
  | .not inner =>
    match reduceCondition facts inner with
    | .known satisfied consulted => .known (!satisfied) consulted
    | .pending residual consulted => .pending (.not residual) consulted
  | .all conditions =>
    if conditions.isEmpty then .known false [] else reduceConditionAll facts conditions [] []
  | .any conditions =>
    if conditions.isEmpty then .known false [] else reduceConditionAny facts conditions [] []

/-- The loop of `reduce_condition_all`; `consulted` and `pending` are its accumulators. -/
def reduceConditionAll (facts : PartialFacts) :
    List Condition → Consulted → List Condition → ReducedCondition
  | [], consulted, pending => closeReduced true .all consulted pending
  | condition :: conditions, consulted, pending =>
    match reduceCondition facts condition with
    | .known false armConsulted => .known false (consulted.extend armConsulted)
    | .known true armConsulted =>
      reduceConditionAll facts conditions (consulted.extend armConsulted) pending
    | .pending residual armConsulted =>
      reduceConditionAll facts conditions (consulted.extend armConsulted) (pending ++ [residual])

/-- The loop of `reduce_condition_any`; `consulted` and `pending` are its accumulators. -/
def reduceConditionAny (facts : PartialFacts) :
    List Condition → Consulted → List Condition → ReducedCondition
  | [], consulted, pending => closeReduced false .any consulted pending
  | condition :: conditions, consulted, pending =>
    match reduceCondition facts condition with
    | .known true armConsulted => .known true (consulted.extend armConsulted)
    | .known false armConsulted =>
      reduceConditionAny facts conditions (consulted.extend armConsulted) pending
    | .pending residual armConsulted =>
      reduceConditionAny facts conditions (consulted.extend armConsulted) (pending ++ [residual])

end

/-! ## Policies -/

section Policies

variable {O : Type}

def policyFromDecision (decision : Decision O) : ResidualPolicy O :=
  match decision.effect, decision.trace.decisive with
  | .permit outcome, .permit _ satisfied label =>
    .permitWithTrace outcome decision.obligations satisfied label
  | .permit outcome, .deny .. => .permit outcome
  | .deny, .deny denied unsatisfied label reason shape =>
    .denyWithTrace denied unsatisfied label reason shape
  | .deny, .permit .. => .deny

def withConsulted (decision : Decision O) (consulted : Consulted) : Decision O :=
  { decision with trace := { decision.trace with consulted := consulted } }

def withPriorConsulted (decision : Decision O) (consulted : Consulted) : Decision O :=
  withConsulted decision ((Consulted.extend [] consulted).extend decision.trace.consulted)

variable [Lattice O] [DecidableEq O]

/-- The loop of `reduce_all`, with its three accumulators. A resolved denial returns at once. -/
def reduceAll (facts : PartialFacts) :
    List (Residual O) → Consulted → List (ResidualPolicy O) → List (ResidualPolicy O) → Residual O
  | [], consulted, [], resolvedPermits =>
    .resolved (withConsulted
      (evaluateResidual (.all resolvedPermits) (partialToKnown facts)) consulted)
  | [], consulted, pending, resolvedPermits => .pending (.all (resolvedPermits ++ pending)) consulted
  | .resolved decision :: arms, consulted, pending, resolvedPermits =>
    match decision.effect with
    | .deny => .resolved (withConsulted decision (consulted.extend decision.trace.consulted))
    | .permit _ =>
      reduceAll facts arms (consulted.extend decision.trace.consulted) pending
        (resolvedPermits ++ [policyFromDecision decision])
  | .pending residual armConsulted :: arms, consulted, pending, resolvedPermits =>
    reduceAll facts arms (consulted.extend armConsulted) (pending ++ [residual]) resolvedPermits

/-- How `reduce_any` ends. The first resolved denial matters only when no arm resolved to a
permit. -/
def closeAny (facts : PartialFacts) (consulted : Consulted) :
    List (ResidualPolicy O) → List (ResidualPolicy O) → Option (Decision O) → Residual O
  | [], [], some decision => .resolved (withConsulted decision consulted)
  | [], resolvedPermits, _ =>
    .resolved (withConsulted
      (evaluateResidual (.any resolvedPermits) (partialToKnown facts)) consulted)
  | pending, [], some decision =>
    .pending (.any (policyFromDecision decision :: pending)) consulted
  | pending, resolvedPermits, _ => .pending (.any (resolvedPermits ++ pending)) consulted

/-- The loop of `reduce_any`, with its four accumulators. -/
def reduceAny (facts : PartialFacts) :
    List (Residual O) → Consulted → List (ResidualPolicy O) → List (ResidualPolicy O) →
      Option (Decision O) → Residual O
  | [], consulted, pending, resolvedPermits, firstResolvedDeny =>
    closeAny facts consulted pending resolvedPermits firstResolvedDeny
  | .resolved decision :: arms, consulted, pending, resolvedPermits, firstResolvedDeny =>
    match decision.effect with
    | .permit _ =>
      reduceAny facts arms (consulted.extend decision.trace.consulted) pending
        (resolvedPermits ++ [policyFromDecision decision]) firstResolvedDeny
    | .deny =>
      reduceAny facts arms (consulted.extend decision.trace.consulted) pending resolvedPermits
        (some (firstResolvedDeny.getD decision))
  | .pending residual armConsulted :: arms, consulted, pending, resolvedPermits,
      firstResolvedDeny =>
    reduceAny facts arms (consulted.extend armConsulted) (pending ++ [residual]) resolvedPermits
      firstResolvedDeny

def reduceOrElse : Residual O → Residual O → Residual O
  | .resolved decision, fallback =>
    match decision.effect, fallback with
    | .permit _, _ => .resolved decision
    | .deny, .resolved fallbackDecision =>
      .resolved (withConsulted fallbackDecision
        (decision.trace.consulted.extend fallbackDecision.trace.consulted))
    | .deny, .pending residual fallbackConsulted =>
      .pending residual (decision.trace.consulted.extend fallbackConsulted)
  | .pending primaryResidual consulted, .resolved decision =>
    .pending (.orElse primaryResidual (policyFromDecision decision))
      (consulted.extend decision.trace.consulted)
  | .pending primaryResidual consulted, .pending fallbackResidual fallbackConsulted =>
    .pending (.orElse primaryResidual fallbackResidual) (consulted.extend fallbackConsulted)

def reduceGrant (facts : PartialFacts) (g : Grant O) : Residual O :=
  match reduceCondition facts g.condition with
  | .known _ consulted =>
    .resolved (withConsulted (evaluate (.grant g) (partialToKnown facts)) consulted)
  | .pending residual consulted => .pending (.grant { g with condition := residual }) consulted

mutual

def reducePolicy (facts : PartialFacts) : Policy O → Residual O
  | .permit outcome => .resolved (evaluate (.permit outcome) (partialToKnown facts))
  | .deny => .resolved (evaluate .deny (partialToKnown facts))
  | .grant g => reduceGrant facts g
  | .all policies =>
    if policies.isEmpty then .resolved (evaluate .deny (partialToKnown facts))
    else reduceAll facts (reducePolicyArms facts policies) [] [] []
  | .any policies =>
    if policies.isEmpty then .resolved (evaluate .deny (partialToKnown facts))
    else reduceAny facts (reducePolicyArms facts policies) [] [] [] none
  | .orElse primary fallback =>
    reduceOrElse (reducePolicy facts primary) (reducePolicy facts fallback)

def reducePolicyArms (facts : PartialFacts) : List (Policy O) → List (Residual O)
  | [] => []
  | policy :: policies => reducePolicy facts policy :: reducePolicyArms facts policies

end

/-- `ReducedPolicy` and `Residual` hold the same data; the source converts one to the other. -/
def partialEvaluate (policy : Policy O) (facts : PartialFacts) : Residual O :=
  reducePolicy facts policy

def completeResidual (residual : Residual O) (facts : KnownFacts) : Decision O :=
  match residual with
  | .resolved decision => decision
  | .pending residual consulted => withPriorConsulted (evaluateResidual residual facts) consulted

theorem reducePolicyArms_eq_map (facts : PartialFacts) (policies : List (Policy O)) :
    reducePolicyArms facts policies = policies.map (reducePolicy facts) := by
  induction policies with
  | nil => rfl
  | cons p ps ih => rw [reducePolicyArms, ih, List.map_cons]

end Policies

end Gatekeep
