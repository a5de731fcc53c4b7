import Gatekeep.Context

/-!
# Gatekeep.Sql.Fragment

SQL fragments, `fragment.rs` and its submodules. A fragment is modelled by how it was built, one
constructor for each builder the lowering uses; `SqlxFragment.parts` is the text with bind markers
that the builders of the source produce for it, and `toSql` renders it for a backend.

Predicates supplied by the application are opaque text (`raw`).
-/

namespace Gatekeep

/-! ## Backends -/

inductive Backend where
  | postgres
  | sqlite
  | mysql
deriving DecidableEq

/-- The two grade functions of a backend. -/
inductive GradeFunction where
  | min
  | max
deriving DecidableEq

namespace Backend

/-- `MIN_FUNCTION` and `MAX_FUNCTION`. -/
def functionName : Backend → GradeFunction → String
  | .postgres, .min => "LEAST"
  | .postgres, .max => "GREATEST"
  | .sqlite, .min => "min"
  | .sqlite, .max => "max"
  | .mysql, .min => "LEAST"
  | .mysql, .max => "GREATEST"

/-- `GRADE_FUNCTION_PROPAGATES_NULL`. -/
def gradeFunctionPropagatesNull : Backend → Bool
  | .postgres => false
  | .sqlite => true
  | .mysql => true

def placeholder : Backend → Nat → String
  | .postgres, index => "$" ++ toString index
  | .sqlite, _ => "?"
  | .mysql, _ => "?"

end Backend

/-! ## Parts -/

/-- Scalar value carried by a lowered SQL fragment. Calendar values are kept as the counts that
determine them. -/
inductive SqlxValue where
  | bool (value : Bool)
  | i16 (value : Int16)
  | i32 (value : Int32)
  | i64 (value : Int64)
  | text (value : String)
  | bytes (value : List UInt8)
  | uuid (value : BitVec 128)
  | date (day : Int)
  | time (nanosecond : Nat)
  | timestamp (nanosecond : Int)
  | timestampTz (value : OffsetDateTime)
deriving DecidableEq

inductive SqlPart where
  | text (sql : String)
  | bind (value : SqlxValue)
deriving DecidableEq

/-! The text builders of `SqlxFragment`. -/
namespace SqlPart

def trusted (sql : String) : List SqlPart := if sql.isEmpty then [] else [.text sql]

def wrapped (parts : List SqlPart) : List SqlPart := trusted "(" ++ parts ++ trusted ")"

/-- `unary` with the operator's text in front. -/
def unary (operator : String) (inner : List SqlPart) : List SqlPart :=
  trusted operator ++ wrapped inner

def binary (separator : String) : List (List SqlPart) → List SqlPart
  | [] => trusted "FALSE"
  | first :: rest => wrapped first ++ rest.flatMap fun next => trusted separator ++ wrapped next

def function (name : String) (args : List (List SqlPart)) : List SqlPart :=
  let listed :=
    match args with
    | [] => []
    | first :: rest => first ++ rest.flatMap fun next => trusted ", " ++ next
  trusted name ++ trusted "(" ++ listed ++ trusted ")"

def caseWhen (condition thenExpr elseExpr : List SqlPart) : List SqlPart :=
  trusted "CASE WHEN " ++ condition ++ trusted " THEN " ++ thenExpr ++ trusted " ELSE " ++
    elseExpr ++ trusted " END"

def isTrue (predicate : List SqlPart) : List SqlPart :=
  trusted "(" ++ predicate ++ trusted ") IS TRUE"

def nullSafeGradePair (name : String) (left right : List SqlPart) : List SqlPart :=
  trusted "CASE WHEN " ++ wrapped left ++ trusted " IS NULL THEN " ++ right ++ trusted " WHEN " ++
    wrapped right ++ trusted " IS NULL THEN " ++ left ++ trusted " ELSE " ++
    function name [left, right] ++ trusted " END"

end SqlPart

/-! ## Fragments -/

inductive SqlConstant where
  | true
  | false
  | null
deriving DecidableEq

def SqlConstant.sql : SqlConstant → String
  | .true => "TRUE"
  | .false => "FALSE"
  | .null => "NULL"

inductive Connective where
  | and
  | or
deriving DecidableEq

def Connective.separator : Connective → String
  | .and => " AND "
  | .or => " OR "

/-- Trusted SQL with bind values. -/
inductive SqlxFragment where
  | trusted (constant : SqlConstant)
  | raw (parts : List SqlPart)
  | bind (value : SqlxValue)
  | tenantEquals (column : String) (tenant : String)
  | not (inner : SqlxFragment)
  | binary (connective : Connective) (fragments : List SqlxFragment)
  | function (function : GradeFunction) (fragments : List SqlxFragment)
  | caseWhen (condition thenExpr elseExpr : SqlxFragment)
  | isTrue (predicate : SqlxFragment)
  | nullSafeGradePair (function : GradeFunction) (left right : SqlxFragment)

namespace SqlxFragment

mutual

/-- The text and bind markers of a fragment. -/
def parts (b : Backend) : SqlxFragment → List SqlPart
  | .trusted constant => SqlPart.trusted constant.sql
  | .raw parts => parts
  | .bind value => [.bind value]
  | .tenantEquals column tenant =>
    SqlPart.trusted column ++ SqlPart.trusted " = " ++ [.bind (.text tenant)]
  | .not inner => SqlPart.unary "NOT " (parts b inner)
  | .binary connective fragments => SqlPart.binary connective.separator (partsEach b fragments)
  | .function f fragments => SqlPart.function (b.functionName f) (partsEach b fragments)
  | .caseWhen condition thenExpr elseExpr =>
    SqlPart.caseWhen (parts b condition) (parts b thenExpr) (parts b elseExpr)
  | .isTrue predicate => SqlPart.isTrue (parts b predicate)
  | .nullSafeGradePair f left right =>
    SqlPart.nullSafeGradePair (b.functionName f) (parts b left) (parts b right)

def partsEach (b : Backend) : List SqlxFragment → List (List SqlPart)
  | [] => []
  | f :: fs => parts b f :: partsEach b fs

end

def binds (b : Backend) (f : SqlxFragment) : List SqlxValue :=
  (f.parts b).filterMap fun
    | .text _ => none
    | .bind value => some value

/-- Render parts, numbering the binds from `placeholders + 1` on. -/
def render (b : Backend) : List SqlPart → Nat → String
  | [], _ => ""
  | .text sql :: rest, placeholders => sql ++ render b rest placeholders
  | .bind _ :: rest, placeholders =>
    b.placeholder (placeholders + 1) ++ render b rest (placeholders + 1)

def toSql (b : Backend) (f : SqlxFragment) : String := render b (f.parts b) 0

theorem parts_binary (b : Backend) (connective : Connective) (f : SqlxFragment)
    (fs : List SqlxFragment) :
    (binary connective (f :: fs)).parts b = SqlPart.wrapped (f.parts b) ++
      (partsEach b fs).flatMap fun next =>
        SqlPart.trusted connective.separator ++ SqlPart.wrapped next := by
  rw [parts, partsEach, SqlPart.binary]

theorem parts_function (b : Backend) (g : GradeFunction) (f : SqlxFragment)
    (fs : List SqlxFragment) :
    (function g (f :: fs)).parts b = SqlPart.trusted (b.functionName g) ++
      SqlPart.wrapped (f.parts b ++
        (partsEach b fs).flatMap fun next => SqlPart.trusted ", " ++ next) := by
  simp only [parts, partsEach, SqlPart.function, SqlPart.wrapped, List.append_assoc]

end SqlxFragment

/-! ## The tenant column -/

def maxTenantIdentifierBytes : Nat := 63

inductive TenantIdentifierPart where
  | table
  | column
deriving DecidableEq

inductive TenantColumnError where
  | invalidLength (part : TenantIdentifierPart) (max : Nat)
  | invalidCharacters (part : TenantIdentifierPart) (value : String)
deriving DecidableEq

def isAsciiAlphabetic (c : Char) : Bool :=
  let n := c.toNat
  (65 ≤ n && n ≤ 90) || (97 ≤ n && n ≤ 122)

def reservedTenantIdentifiers : List String :=
  ["all", "and", "as", "between", "by", "case", "else", "end", "exists", "false", "from", "group",
    "having", "in", "is", "join", "like", "limit", "not", "null", "offset", "on", "or", "order",
    "select", "then", "true", "union", "when", "where"]

def eqIgnoreAsciiCase (a b : String) : Bool :=
  a.toList.map Char.toLower == b.toList.map Char.toLower

def isReservedTenantIdentifier (value : String) : Bool :=
  reservedTenantIdentifiers.any (eqIgnoreAsciiCase value)

/-- Why `validate_tenant_identifier` refuses a value. -/
def tenantIdentifierError (part : TenantIdentifierPart) (value : String) :
    Option TenantColumnError :=
  match value.toList with
  | [] => some (.invalidLength part maxTenantIdentifierBytes)
  | first :: rest =>
    if value.utf8ByteSize > maxTenantIdentifierBytes then
      some (.invalidLength part maxTenantIdentifierBytes)
    else if !(isAsciiAlphabetic first || first == '_') then some (.invalidCharacters part value)
    else if !(rest.all fun c => isAsciiAlphanumeric c || c == '_') then
      some (.invalidCharacters part value)
    else if isReservedTenantIdentifier value then some (.invalidCharacters part value)
    else none

/-- Validated application-owned table and column names for tenant filtering. -/
structure TenantColumn where
  table : String
  column : String
  tableValid : tenantIdentifierError .table table = none
  columnValid : tenantIdentifierError .column column = none

namespace TenantColumn

def new (table column : String) : Except TenantColumnError TenantColumn :=
  match ht : tenantIdentifierError .table table, hc : tenantIdentifierError .column column with
  | some e, _ => .error e
  | none, some e => .error e
  | none, none => .ok ⟨table, column, ht, hc⟩

def qualified (c : TenantColumn) : String := c.table ++ "." ++ c.column

theorem dot_mem_qualified (c : TenantColumn) : '.' ∈ c.qualified.toList := by simp [qualified]

end TenantColumn

end Gatekeep
