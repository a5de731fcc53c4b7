import Gatekeep.Sql.Fragment
import Gatekeep.Support.Kleene
import Gatekeep.Support.Nullable

/-!
# Gatekeep.Sql.Semantics

What a fragment evaluates to on a row, by the rules of standard SQL: three-valued `AND`, `OR` and
`NOT`, two-valued `IS TRUE`, the first `WHEN` that is true. The backends differ in one thing:
`LEAST` and `GREATEST` of Postgres skip NULL arguments, `min` and `max` of SQLite and the MySQL
functions return NULL when an argument is NULL.

NULL is `none`. Application SQL means what the row says it means.
-/

namespace Gatekeep

/-- A candidate row, as far as generated SQL can tell. -/
structure Row where
  column : String → Option String
  raw : List SqlPart → Option SqlxValue

/-- A value in a Boolean position. -/
def SqlxValue.truth : Option SqlxValue → Option Bool
  | some (.bool b) => some b
  | _ => none

/-- A value as an argument of a grade function. -/
def SqlxValue.ordinal : Option SqlxValue → Option Int64
  | some (.i64 n) => some n
  | _ => none

@[simp] theorem SqlxValue.truth_map_bool (x : Option Bool) : truth (x.map .bool) = x := by
  cases x <;> rfl

@[simp] theorem SqlxValue.ordinal_map_i64 (x : Option Int64) : ordinal (x.map .i64) = x := by
  cases x <;> rfl

@[simp] theorem SqlxValue.truth_some_bool (b : Bool) : truth (some (.bool b)) = some b := rfl

def Connective.apply : Connective → List (Option Bool) → Option Bool
  | .and => Kleene.conj
  | .or => Kleene.disj

def GradeFunction.apply : GradeFunction → Int64 → Int64 → Int64
  | .min => Min.min
  | .max => Max.max

/-- A backend's grade function of several arguments. -/
def Backend.grade (b : Backend) (f : GradeFunction) (args : List (Option Int64)) : Option Int64 :=
  if b.gradeFunctionPropagatesNull then Nullable.strict f.apply args
  else Nullable.skipping f.apply args

namespace SqlxFragment

open SqlxValue

mutual

def value (b : Backend) (row : Row) : SqlxFragment → Option SqlxValue
  | .trusted .true => some (.bool true)
  | .trusted .false => some (.bool false)
  | .trusted .null => none
  | .raw parts => row.raw parts
  | .bind value => some value
  | .tenantEquals column tenant => (row.column column).map fun t => .bool (t == tenant)
  | .not inner => (Kleene.neg (truth (value b row inner))).map .bool
  -- no fragments render as FALSE, whatever the connective
  | .binary _ [] => some (.bool false)
  | .binary connective (first :: rest) =>
    (connective.apply (truth (value b row first) :: (values b row rest).map truth)).map .bool
  | .function f fragments => (b.grade f ((values b row fragments).map ordinal)).map .i64
  | .caseWhen condition thenExpr elseExpr =>
    if truth (value b row condition) = some true then value b row thenExpr
    else value b row elseExpr
  | .isTrue predicate => some (.bool (truth (value b row predicate) == some true))
  | .nullSafeGradePair f left right =>
    if (value b row left).isNone then value b row right
    else if (value b row right).isNone then value b row left
    else (b.grade f [ordinal (value b row left), ordinal (value b row right)]).map .i64

def values (b : Backend) (row : Row) : List SqlxFragment → List (Option SqlxValue)
  | [] => []
  | f :: fs => value b row f :: values b row fs

end

theorem values_eq_map (b : Backend) (row : Row) (fs : List SqlxFragment) :
    values b row fs = fs.map (value b row) := by
  induction fs with
  | nil => rfl
  | cons f fs ih => rw [values, ih, List.map_cons]

/-- The truth of a fragment as a condition. -/
def truth (b : Backend) (row : Row) (f : SqlxFragment) : Option Bool :=
  SqlxValue.truth (f.value b row)

variable {b : Backend} {row : Row}

@[simp] theorem truth_true : truth b row (.trusted .true) = some true := rfl

@[simp] theorem truth_false : truth b row (.trusted .false) = some false := rfl

@[simp] theorem truth_not (f : SqlxFragment) : truth b row (.not f) = Kleene.neg (truth b row f) :=
  truth_map_bool _

@[simp] theorem truth_isTrue (f : SqlxFragment) :
    truth b row (.isTrue f) = some (truth b row f == some true) := rfl

theorem value_binary (connective : Connective) (f : SqlxFragment) (fs : List SqlxFragment) :
    value b row (.binary connective (f :: fs)) =
      (connective.apply ((f :: fs).map (truth b row))).map .bool := by
  rw [value, values_eq_map, List.map_map]
  rfl

theorem truth_binary (connective : Connective) {fs : List SqlxFragment} (h : fs ≠ []) :
    truth b row (.binary connective fs) = connective.apply (fs.map (truth b row)) := by
  match fs, h with
  | f :: fs, _ => rw [truth, value_binary, truth_map_bool]

theorem value_tenantEquals (column tenant : String) :
    value b row (.tenantEquals column tenant) =
      ((row.column column).map (· == tenant)).map .bool := by
  rw [value, Option.map_map]
  rfl

theorem truth_tenantEquals (column tenant : String) :
    truth b row (.tenantEquals column tenant) = (row.column column).map (· == tenant) := by
  rw [truth, value_tenantEquals, truth_map_bool]

theorem value_caseWhen (condition thenExpr elseExpr : SqlxFragment) :
    value b row (.caseWhen condition thenExpr elseExpr) =
      if truth b row condition = some true then value b row thenExpr else value b row elseExpr :=
  rfl

end SqlxFragment

namespace Row

/-- A filter selects the rows on which it is true. -/
def selects (b : Backend) (row : Row) (filter : SqlxFragment) : Prop :=
  filter.truth b row = some true

instance (b : Backend) (row : Row) (filter : SqlxFragment) : Decidable (row.selects b filter) :=
  inferInstanceAs (Decidable (_ = _))

end Row

end Gatekeep
