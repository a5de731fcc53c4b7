import Gatekeep.Support.Kleene
import Gatekeep.Support.SqlGrammar

/-!
# Gatekeep.Support.SqlEval

SQL expressions evaluated; NULL is `none`. `AND`, `OR` and `NOT` are three-valued, a test with `IS`
is true or false, and a `CASE` gives the result of the first arm whose condition is true. What
columns, functions and operators mean, and what the grammar keeps as it stands, is a parameter
(`Meaning`).

`Boolean e` says that `e` is NULL, true or false. Connectives and tests are; a set of one member,
which is read as that member, is where it has to be known of the members.
-/

namespace SqlSyntax

/-- The values, and what a database makes of names, functions and operators at one row. -/
structure Meaning (α : Type) where
  ofBool : Bool → α
  truth : α → Option Bool
  truth_ofBool : ∀ b, truth (ofBool b) = some b
  column : String → Option α
  call : String → List (Option α) → Option α
  compare : String → Option α → Option α → Option α
  other : Expr α → Option α

namespace Meaning

variable {α : Type} (m : Meaning α)

/-- A value where a truth value is asked for. -/
def condition (x : Option α) : Option Bool := x.bind m.truth

def word (text : String) : Option α :=
  if text = "TRUE" then some (m.ofBool true)
  else if text = "FALSE" then some (m.ofBool false)
  else if text = "NULL" then none
  else m.column text

/-- What `IS` asks of a value, if it is one of the standard's tests. -/
def test? (test : String) (x : Option α) : Option Bool :=
  if test = "TRUE" then some (m.condition x == some true)
  else if test = "FALSE" then some (m.condition x == some false)
  else if test = "NULL" then some x.isNone
  else none

mutual

def eval : Expr α → Option α
  | .word text => m.word text
  | .quoted text => m.other (.quoted text)
  | .value a => some a
  | .call name args => m.call name (evalEach args)
  | .row es => m.other (.row es)
  | .caseWhen arms otherwise => (evalArms arms).getD (evalElse otherwise)
  | .compare operator left right => m.compare operator (eval left) (eval right)
  | .is operand negated test =>
    match m.test? test (eval operand) with
    | some b => some (m.ofBool (b != negated))
    | none => m.other (.is operand negated test)
  | .not e => (Kleene.neg (m.condition (eval e))).map m.ofBool
  | .and es => (Kleene.conj ((evalEach es).map m.condition)).map m.ofBool
  | .or es => (Kleene.disj ((evalEach es).map m.condition)).map m.ofBool
  | .unread items => m.other (.unread items)

def evalEach : List (Expr α) → List (Option α)
  | [] => []
  | e :: es => eval e :: evalEach es

/-- The result of the first arm whose condition is true, if there is one. -/
def evalArms : List (Expr α × Expr α) → Option (Option α)
  | [] => none
  | (condition, result) :: arms =>
    if m.condition (eval condition) = some true then some (eval result) else evalArms arms

def evalElse : Option (Expr α) → Option α
  | none => none
  | some e => eval e

end

/-- The truth of an expression as a condition. -/
def truthOf (e : Expr α) : Option Bool := m.condition (m.eval e)

variable {m}

@[simp] theorem condition_map_ofBool (x : Option Bool) : m.condition (x.map m.ofBool) = x := by
  cases x with
  | none => rfl
  | some b => exact m.truth_ofBool b

end Meaning

end SqlSyntax
