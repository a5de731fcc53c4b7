import Mathlib

/-!
# Gatekeep.Support.Json

JSON values, with decidable equality. Integers are exact; any other number is kept as its literal,
so that nothing depends on a floating-point type. An object lists its fields in the order in which
they are written.
-/

inductive Json where
  | null
  | bool (b : Bool)
  | int (n : Int)
  | decimal (literal : String)
  | str (s : String)
  | arr (items : List Json)
  | obj (fields : List (String × Json))

namespace Json

mutual

def decEq : (a b : Json) → Decidable (a = b)
  | .null, .null => isTrue rfl
  | .bool x, .bool y => decidable_of_iff (x = y) ⟨congrArg _, fun h => by injection h⟩
  | .int x, .int y => decidable_of_iff (x = y) ⟨congrArg _, fun h => by injection h⟩
  | .decimal x, .decimal y => decidable_of_iff (x = y) ⟨congrArg _, fun h => by injection h⟩
  | .str x, .str y => decidable_of_iff (x = y) ⟨congrArg _, fun h => by injection h⟩
  | .arr x, .arr y =>
    have := decEqItems x y
    decidable_of_iff (x = y) ⟨congrArg _, fun h => by injection h⟩
  | .obj x, .obj y =>
    have := decEqFields x y
    decidable_of_iff (x = y) ⟨congrArg _, fun h => by injection h⟩
  | .null, .bool _ | .null, .int _ | .null, .decimal _ | .null, .str _ | .null, .arr _
  | .null, .obj _ | .bool _, .null | .bool _, .int _ | .bool _, .decimal _ | .bool _, .str _
  | .bool _, .arr _ | .bool _, .obj _ | .int _, .null | .int _, .bool _ | .int _, .decimal _
  | .int _, .str _ | .int _, .arr _ | .int _, .obj _ | .decimal _, .null | .decimal _, .bool _
  | .decimal _, .int _ | .decimal _, .str _ | .decimal _, .arr _ | .decimal _, .obj _
  | .str _, .null | .str _, .bool _ | .str _, .int _ | .str _, .decimal _ | .str _, .arr _
  | .str _, .obj _ | .arr _, .null | .arr _, .bool _ | .arr _, .int _ | .arr _, .decimal _
  | .arr _, .str _ | .arr _, .obj _ | .obj _, .null | .obj _, .bool _ | .obj _, .int _
  | .obj _, .decimal _ | .obj _, .str _ | .obj _, .arr _ => isFalse nofun

def decEqItems : (a b : List Json) → Decidable (a = b)
  | [], [] => isTrue rfl
  | x :: xs, y :: ys =>
    have := decEq x y
    have := decEqItems xs ys
    decidable_of_iff (x = y ∧ xs = ys) (by simp)
  | [], _ :: _ | _ :: _, [] => isFalse nofun

def decEqFields : (a b : List (String × Json)) → Decidable (a = b)
  | [], [] => isTrue rfl
  | (k, x) :: xs, (l, y) :: ys =>
    have := decEq x y
    have := decEqFields xs ys
    decidable_of_iff ((k = l ∧ x = y) ∧ xs = ys) (by simp)
  | [], _ :: _ | _ :: _, [] => isFalse nofun

end

instance : DecidableEq Json := decEq

theorem bool_ne_null (b : Bool) : Json.bool b ≠ .null := nofun

theorem str_ne_null (s : String) : Json.str s ≠ .null := nofun

/-! ## Documents in memory -/

/-- Enter a field behind the others; it takes the place of an earlier one of the same key. -/
def enter (key : String) (j : Json) : List (String × Json) → List (String × Json)
  | [] => [(key, j)]
  | (k, i) :: fields => if key = k then (key, j) :: fields else (k, i) :: enter key j fields

mutual

/-- A document as `serde_json::Value` holds it: every key once, in the order in which the keys came
(`preserve_order`). -/
def value : Json → Json
  | .arr items => .arr (valueItems items)
  | .obj fields => .obj (valueFields fields [])
  | j => j

def valueItems : List Json → List Json
  | [] => []
  | j :: js => j.value :: valueItems js

def valueFields : List (String × Json) → List (String × Json) → List (String × Json)
  | [], entered => entered
  | (key, j) :: fields, entered => valueFields fields (enter key j.value entered)

end

@[simp] theorem value_str (s : String) : (Json.str s).value = .str s := by
  simp [value]

@[simp] theorem value_null : Json.null.value = .null := by
  simp [value]

end Json
