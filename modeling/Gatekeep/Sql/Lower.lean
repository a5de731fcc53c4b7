import Gatekeep.Fold
import Gatekeep.Partial
import Gatekeep.Sql.Fragment

/-!
# Gatekeep.Sql.Lower

The lowering of residual policies to SQL, `gatekeep-sqlx/src/lib.rs` and `query.rs`. A backend is a
value of `Backend`; the application's predicates and projection are functions. Both traversals go
through `tryFoldPruned`, which does not enter a fallback that carries an obligation.
-/

namespace Gatekeep

/-- Maps a policy outcome to a total-order SQL ordinal. -/
class SqlOutcome (O : Type) where
  toSqlOrdinal : O → Int64

instance : SqlOutcome Unit where
  toSqlOrdinal _ := 0

inductive LowerError where
  | unlowerable (fact : FactId)
  | nonTotalGrade
deriving DecidableEq

/-- Backend filter and grade projection produced by query lowering. -/
structure Lowered where
  filter : SqlxFragment
  grade : SqlxFragment

/-- The `constant` of an `OutcomeProjection`. -/
abbrev OutcomeProjection (O : Type) := O → Except LowerError SqlxFragment

def ordinalProjection {O : Type} [SqlOutcome O] : OutcomeProjection O := fun outcome =>
  .ok (.bind (.i64 (SqlOutcome.toSqlOrdinal outcome)))

def noGradeProjection {O : Type} : OutcomeProjection O := fun _ => .error .nonTotalGrade

structure SqlxLowerer (O : Type) where
  backend : Backend
  predicates : FactId → Context → Option SqlxFragment
  projection : OutcomeProjection O
  tenantColumn : TenantColumn

/-! ## Building fragments -/

/-- `fragments` are those of the lowered conditions, or the first error among them. -/
def lowerConditionSet (conditions : List Condition) (separator : Connective) (empty : SqlConstant)
    (fragments : Except LowerError (List SqlxFragment)) : Except LowerError SqlxFragment :=
  if conditions.isEmpty then .ok (.trusted empty) else fragments.map (.binary separator)

def fragmentSet (fragments : List SqlxFragment) (separator : Connective) (empty : SqlConstant) :
    SqlxFragment :=
  if fragments.isEmpty then .trusted empty else .binary separator fragments

def gradeSet (b : Backend) (grades : List SqlxFragment) (function : GradeFunction) : SqlxFragment :=
  match grades with
  | [] => .trusted .null
  | [grade] => grade
  | first :: rest =>
    if b.gradeFunctionPropagatesNull then
      rest.foldl (fun combined grade => .nullSafeGradePair function combined grade) first
    else .function function (first :: rest)

theorem gradeSet_cons_cons (b : Backend) (first second : SqlxFragment) (rest : List SqlxFragment)
    (function : GradeFunction) :
    gradeSet b (first :: second :: rest) function =
      if b.gradeFunctionPropagatesNull then
        (second :: rest).foldl (fun combined grade => .nullSafeGradePair function combined grade)
          first
      else .function function (first :: second :: rest) := rfl

namespace SqlxLowerer

variable {O : Type} (L : SqlxLowerer O) (cx : Context)

def enforceTenantFilter (policy : SqlxFragment) : SqlxFragment :=
  .binary .and [.tenantEquals L.tenantColumn.qualified cx.tenant.value, policy]

def enforceTenantProjection (grade : SqlxFragment) : SqlxFragment :=
  .caseWhen (L.enforceTenantFilter cx (.trusted .true)) grade (.trusted .null)

/-! ## Conditions -/

mutual

def lowerCondition : Condition → Except LowerError SqlxFragment
  | .always => .ok (.trusted .true)
  | .never => .ok (.trusted .false)
  | .has fact =>
    match L.predicates fact cx with
    | some predicate => .ok (.isTrue predicate)
    | none => .error (.unlowerable fact)
  | .not inner => (lowerCondition inner).map .not
  | .all conditions => lowerConditionSet conditions .and .false (lowerConditions conditions)
  | .any conditions => lowerConditionSet conditions .or .false (lowerConditions conditions)

def lowerConditions : List Condition → Except LowerError (List SqlxFragment)
  | [] => .ok []
  | condition :: conditions => do
    let fragment ← lowerCondition condition
    let fragments ← lowerConditions conditions
    return fragment :: fragments

end

/-! ## Policies -/

/-- The pruning both traversals use. -/
def shouldDescend : ResidualPolicyBranch O → Bool
  | .orElseFallback _ fallback => !fallback.carriesObligation

def lowerFilterNode : ResidualPolicyNode O SqlxFragment → Except LowerError SqlxFragment
  | .permit _ | .permitWithTrace .. => .ok (.trusted .true)
  | .deny | .denyWithTrace .. => .ok (.trusted .false)
  | .grant g => L.lowerCondition cx g.condition
  | .all _ arms => .ok (fragmentSet arms .and .false)
  | .any _ arms => .ok (fragmentSet arms .or .false)
  | .orElse _ fallbackPolicy primary fallback =>
    if fallbackPolicy.carriesObligation then .ok primary
    else
      match fallback with
      | some fallback => .ok (.binary .or [primary, fallback])
      | none => .ok primary

/-- Lower only the Boolean filter. -/
def lowerFilter (residual : ResidualPolicy O) : Except LowerError SqlxFragment := do
  let policy ← residual.tryFoldPruned (fun branch => .ok (shouldDescend branch))
    (L.lowerFilterNode cx)
  return L.enforceTenantFilter cx policy

def lowerNode : ResidualPolicyNode O Lowered → Except LowerError Lowered
  | .permit outcome | .permitWithTrace outcome _ _ _ => do
    return ⟨.trusted .true, ← L.projection outcome⟩
  | .deny | .denyWithTrace .. => .ok ⟨.trusted .false, .trusted .null⟩
  | .grant g => do
    let filter ← L.lowerCondition cx g.condition
    let outcome ← L.projection g.outcome
    return ⟨filter, .caseWhen filter outcome (.trusted .null)⟩
  | .all _ arms =>
    .ok ⟨fragmentSet (arms.map Lowered.filter) .and .false,
      gradeSet L.backend (arms.map Lowered.grade) .min⟩
  | .any _ arms =>
    .ok ⟨fragmentSet (arms.map Lowered.filter) .or .false,
      gradeSet L.backend (arms.map Lowered.grade) .max⟩
  | .orElse _ fallbackPolicy primary fallback =>
    if fallbackPolicy.carriesObligation then .ok primary
    else
      match fallback with
      | some fallback =>
        .ok ⟨.binary .or [primary.filter, fallback.filter],
          .caseWhen primary.filter primary.grade fallback.grade⟩
      | none => .ok primary

def lowerPolicy (residual : ResidualPolicy O) : Except LowerError Lowered :=
  residual.tryFoldPruned (fun branch => .ok (shouldDescend branch)) (L.lowerNode cx)

def lower (residual : ResidualPolicy O) : Except LowerError Lowered := do
  let lowered ← L.lowerPolicy cx residual
  return ⟨L.enforceTenantFilter cx lowered.filter, L.enforceTenantProjection cx lowered.grade⟩

/-- The constant filter and grade of a resolved decision. -/
def lowerDecision (decision : Decision O) : Except LowerError Lowered :=
  match decision.effect with
  | .permit outcome => (L.projection outcome).map fun grade => ⟨.trusted .true, grade⟩
  | .deny => .ok ⟨.trusted .false, .trusted .null⟩

/-- Lower the result of partial evaluation. -/
def lowerResult : Residual O → Except LowerError Lowered
  | .pending residual _ => L.lower cx residual
  | .resolved decision => do
    let lowered ← L.lowerDecision decision
    return ⟨L.enforceTenantFilter cx lowered.filter, L.enforceTenantProjection cx lowered.grade⟩

end SqlxLowerer

end Gatekeep
