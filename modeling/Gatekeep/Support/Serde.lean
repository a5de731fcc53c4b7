import Gatekeep.Support.Json
import Gatekeep.Support.Result

/-!
# Gatekeep.Support.Serde

Reading typed values from JSON by the rules of serde's derived implementations: a record is read
from an object (fields in any order, unknown ones ignored) or from an array (fields in their order),
an enumeration from its variant's name or from an object with that one field, an optional value is
`null` or the value.

A `Codec` is a wire format that reads back what it writes and never writes `null`. `Codec.option`
is not one: `readOption_writeOption` is where `null` must be excluded. A `Format` may write `null`,
and what an optional field keeps of its values is `Format.durable`.
-/

namespace Serde

/-- Why a value was refused; `custom` carries the application's own error. -/
inductive Error (ε : Type) where
  | invalidType
  | invalidValue
  | invalidLength
  | missingField (name : String)
  | duplicateField (name : String)
  | unknownField (name : String)
  | unknownVariant (name : String)
  | custom (error : ε)
deriving DecidableEq

abbrev Reader (ε α : Type) := Json → Except (Error ε) α

variable {ε α β : Type}

/-- A wire format. -/
structure Codec (ε α : Type) where
  write : α → Json
  read : Reader ε α
  read_write : ∀ a, read (write a) = .ok a
  write_ne_null : ∀ a, write a ≠ .null

attribute [simp] Codec.read_write

/-! ## Scalars -/

def readStr : Reader ε String
  | .str s => .ok s
  | _ => .error .invalidType

def str : Codec ε String where
  write := .str
  read := readStr
  read_write _ := rfl
  write_ne_null := Json.str_ne_null

def readBool : Reader ε Bool
  | .bool b => .ok b
  | _ => .error .invalidType

def bool : Codec ε Bool where
  write := .bool
  read := readBool
  read_write _ := rfl
  write_ne_null := Json.bool_ne_null

/-- An integer that must lie between `lo` and `hi`. -/
def readInt (lo hi : Int) : Reader ε Int
  | .int n => if lo ≤ n ∧ n ≤ hi then .ok n else .error .invalidValue
  | _ => .error .invalidType

theorem readInt_write {lo hi n : Int} (h : lo ≤ n ∧ n ≤ hi) :
    readInt (ε := ε) lo hi (.int n) = .ok n := if_pos h

def u8 : Codec ε UInt8 where
  write n := .int n.toNat
  read j := (readInt 0 255 j).map fun n => UInt8.ofNat n.toNat
  read_write n := by
    have : n.toNat < 256 := n.toNat_lt
    rw [readInt_write (by omega)]
    simp [Except.map]
  write_ne_null _ := nofun

def u16 : Codec ε UInt16 where
  write n := .int n.toNat
  read j := (readInt 0 65535 j).map fun n => UInt16.ofNat n.toNat
  read_write n := by
    have : n.toNat < 65536 := n.toNat_lt
    rw [readInt_write (by omega)]
    simp [Except.map]
  write_ne_null _ := nofun

def i64 : Codec ε Int64 where
  write n := .int n.toInt
  read j := (readInt (-2 ^ 63) (2 ^ 63 - 1) j).map Int64.ofInt
  read_write n := by
    have hlo : -2 ^ 63 ≤ n.toInt := n.le_toInt
    have hhi : n.toInt < 2 ^ 63 := n.toInt_lt
    rw [readInt_write (by omega)]
    simp [Except.map]
  write_ne_null _ := nofun

/-- A value made from text by a constructor that checks it. -/
def checked (text : α → String) (new : String → Except β α) (wrap : β → ε)
    (h : ∀ a, new (text a) = .ok a) : Codec ε α where
  write a := .str (text a)
  read j := do
    let s ← readStr j
    (new s).mapError fun e => .custom (wrap e)
  read_write a := by rw [readStr, Result.ok_bind, h]; rfl
  write_ne_null _ := nofun

/-! ## Options and lists -/

def writeOption (write : α → Json) : Option α → Json
  | none => .null
  | some a => write a

def readOption (read : Reader ε α) : Reader ε (Option α)
  | .null => .ok none
  | j => (read j).map some

@[simp] theorem readOption_null (read : Reader ε α) : readOption read .null = .ok none := rfl

theorem readOption_of_ne_null {read : Reader ε α} {j : Json} (h : j ≠ .null) :
    readOption read j = (read j).map some := by
  cases j <;> first | rfl | exact absurd rfl h

@[simp] theorem readOption_writeOption (c : Codec ε α) (a : Option α) :
    readOption c.read (writeOption c.write a) = .ok a := by
  cases a with
  | none => rfl
  | some a =>
    rw [writeOption, readOption_of_ne_null (c.write_ne_null a), c.read_write]
    rfl

def readItems (read : Reader ε α) : List Json → Except (Error ε) (List α)
  | [] => .ok []
  | j :: js => do
    let a ← read j
    let as ← readItems read js
    return a :: as

/-- Items read back as `f` says that each of them does. -/
theorem readItems_map_eq {read : Reader ε β} {write : α → Json} {f : α → β} {as : List α}
    (h : ∀ a ∈ as, read (write a) = .ok (f a)) :
    readItems read (as.map write) = .ok (as.map f) := by
  induction as with
  | nil => rfl
  | cons a as ih =>
    rw [List.map_cons, readItems, h a List.mem_cons_self,
      ih fun a' ha' => h a' (List.mem_cons_of_mem _ ha')]
    rfl

theorem readItems_map {read : Reader ε α} {write : α → Json} {as : List α}
    (h : ∀ a ∈ as, read (write a) = .ok a) : readItems read (as.map write) = .ok as := by
  rw [readItems_map_eq (f := id) h, List.map_id]

def readList (read : Reader ε α) : Reader ε (List α)
  | .arr items => readItems read items
  | _ => .error .invalidType

def list (c : Codec ε α) : Codec ε (List α) where
  write as := .arr (as.map c.write)
  read := readList c.read
  read_write _ := readItems_map fun a _ => c.read_write a
  write_ne_null _ := nofun

def readPair (first : Reader ε α) (second : Reader ε β) : Reader ε (α × β)
  | .arr [a, b] => do
    let a ← first a
    let b ← second b
    return (a, b)
  | .arr _ => .error .invalidLength
  | _ => .error .invalidType

def pair (first : Codec ε α) (second : Codec ε β) : Codec ε (α × β) where
  write p := .arr [first.write p.1, second.write p.2]
  read := readPair first.read second.read
  read_write p := by rw [readPair, first.read_write, Result.ok_bind, second.read_write]; rfl
  write_ne_null _ := nofun

/-! ## Maps with text keys -/

section Maps

variable {κ : Type} [Ord κ] [Std.TransOrd κ] [Std.LawfulEqOrd κ]

/-- Enter fields one by one; a later field replaces an earlier one of the same key. -/
def readFields (key : String → Except (Error ε) κ) (read : Reader ε α) :
    List (String × Json) → Std.ExtTreeMap κ α → Except (Error ε) (Std.ExtTreeMap κ α)
  | [], m => .ok m
  | (k, j) :: rest, m => do
    let k ← key k
    let a ← read j
    readFields key read rest (m.insert k a)

omit [Std.LawfulEqOrd κ] in
/-- Fields read back as `f` says that their values do. -/
theorem readFields_map_eq {key : String → Except (Error ε) κ} {text : κ → String}
    (hk : ∀ k, key (text k) = .ok k) {read : Reader ε β} {write : α → Json} {f : α → β}
    (hr : ∀ a, read (write a) = .ok (f a)) (l : List (κ × α)) :
    ∀ m, readFields key read (l.map fun e => (text e.1, write e.2)) m =
      .ok (l.foldl (fun m e => m.insert e.1 (f e.2)) m) := by
  induction l with
  | nil => exact fun _ => rfl
  | cons e l ih =>
    intro m
    rw [List.map_cons, readFields, hk, Result.ok_bind, hr, Result.ok_bind, ih, List.foldl_cons]

omit [Std.LawfulEqOrd κ] in
theorem readFields_map {key : String → Except (Error ε) κ} {text : κ → String}
    (hk : ∀ k, key (text k) = .ok k) (c : Codec ε α) (l : List (κ × α)) :
    ∀ m, readFields key c.read (l.map fun e => (text e.1, c.write e.2)) m =
      .ok (l.foldl (fun m e => m.insert e.1 e.2) m) :=
  readFields_map_eq (f := id) hk c.read_write l

/-- Entering the entries of a map gives the map. -/
theorem foldl_insert_toList (m : Std.ExtTreeMap κ α) :
    m.toList.foldl (fun m e => m.insert e.1 e.2) (∅ : Std.ExtTreeMap κ α) = m := by
  rw [← Std.ExtTreeMap.ofList_eq_foldl]
  refine Std.ExtTreeMap.ext_getElem? fun k => ?_
  cases hk : m[k]? with
  | some a =>
    exact Std.ExtTreeMap.getElem?_ofList_of_mem Std.ReflCmp.compare_self
      Std.ExtTreeMap.distinct_keys_toList (Std.ExtTreeMap.mem_toList_iff_getElem?_eq_some.mpr hk)
  | none =>
    classical
    have : Std.LawfulBEqCmp (compare : κ → κ → Ordering) :=
      ⟨by simp [Std.LawfulEqCmp.compare_eq_iff_eq]⟩
    refine Std.ExtTreeMap.getElem?_ofList_of_contains_eq_false ?_
    rw [Std.ExtTreeMap.map_fst_toList_eq_keys]
    rw [List.contains_eq_mem, decide_eq_false_iff_not, Std.ExtTreeMap.mem_keys,
      Std.ExtTreeMap.mem_iff_isSome_getElem?, hk]
    simp

def readMap (key : String → Except (Error ε) κ) (read : Reader ε α) :
    Reader ε (Std.ExtTreeMap κ α)
  | .obj fields => readFields key read fields ∅
  | _ => .error .invalidType

/-- A map reads back value by value. -/
theorem readMap_map {key : String → Except (Error ε) κ} {text : κ → String}
    (hk : ∀ k, key (text k) = .ok k) {read : Reader ε β} {write : α → Json} {f : α → β}
    (hr : ∀ a, read (write a) = .ok (f a)) (m : Std.ExtTreeMap κ α) :
    readMap key read (.obj (m.toList.map fun e => (text e.1, write e.2))) =
      .ok (m.map fun _ a => f a) := by
  have hlist : (m.map fun _ a => f a).toList = m.toList.map fun e => (e.1, f e.2) :=
    Std.ExtTreeMap.toList_map
  rw [readMap, readFields_map_eq hk hr, ← foldl_insert_toList (m.map fun _ a => f a), hlist,
    List.foldl_map]

def map (text : κ → String) (key : String → Except (Error ε) κ) (hk : ∀ k, key (text k) = .ok k)
    (c : Codec ε α) : Codec ε (Std.ExtTreeMap κ α) where
  write m := .obj (m.toList.map fun e => (text e.1, c.write e.2))
  read := readMap key c.read
  read_write m := by rw [readMap, readFields_map hk, foldl_insert_toList]
  write_ne_null _ := nofun

end Maps

/-! ## Records -/

/-- A record about to be read. -/
inductive Record where
  | named (fields : List (String × Json))
  | positional (items : List Json)

namespace Record

/-- Open a record with the given field names. -/
def ofJson (names : List String) : Reader ε Record
  | .obj fields =>
    match names.find? fun name => 1 < fields.countP fun f => f.1 == name with
    | some name => .error (.duplicateField name)
    | none => .ok (.named fields)
  | .arr items =>
    if items.length ≤ names.length then .ok (.positional items) else .error .invalidLength
  | _ => .error .invalidType

/-- Open a record that denies unknown fields. -/
def ofJsonStrict (names : List String) : Reader ε Record
  | .obj fields =>
    match fields.find? fun f => !names.contains f.1 with
    | some f => .error (.unknownField f.1)
    | none => ofJson names (.obj fields)
  | j => ofJson names j

def find (r : Record) (index : Nat) (name : String) : Option Json :=
  match r with
  | .named fields => (fields.find? fun f => f.1 == name).map Prod.snd
  | .positional items => items[index]?

def required (r : Record) (index : Nat) (name : String) (read : Reader ε α) :
    Except (Error ε) α :=
  match r.find index name with
  | some j => read j
  | none => .error (.missingField name)

/-- A field of optional type: a named record may leave it out. -/
def optional (r : Record) (index : Nat) (name : String) (read : Reader ε α) :
    Except (Error ε) (Option α) :=
  match r.find index name, r with
  | some j, _ => readOption read j
  | none, .named _ => .ok none
  | none, .positional _ => .error .invalidLength

/-- A field with a default. -/
def defaulted (r : Record) (index : Nat) (name : String) (default : α) (read : Reader ε α) :
    Except (Error ε) α :=
  match r.find index name with
  | some j => read j
  | none => .ok default

theorem ofJson_obj {names : List String} {fields : List (String × Json)}
    (h : (fields.map Prod.fst).Nodup) :
    ofJson (ε := ε) names (.obj fields) = .ok (.named fields) := by
  have hnone : (names.find? fun name => 1 < fields.countP fun f => f.1 == name) = none := by
    rw [List.find?_eq_none]
    intro name _ hcount
    have hle := List.nodup_iff_count_le_one.mp h name
    rw [List.count, List.countP_map] at hle
    simp only [decide_eq_true_eq] at hcount
    exact absurd hcount (not_lt.mpr hle)
  rw [ofJson, hnone]

/-- A record with all its fields in order and no others. -/
theorem ofJsonStrict_obj {names : List String} {fields : List (String × Json)}
    (hnames : fields.map Prod.fst = names) (h : names.Nodup) :
    ofJsonStrict (ε := ε) names (.obj fields) = .ok (.named fields) := by
  have hnone : (fields.find? fun f => !names.contains f.1) = none := by
    rw [List.find?_eq_none]
    intro f hf
    have hmem : f.1 ∈ names := hnames ▸ List.mem_map_of_mem hf
    simpa using hmem
  rw [ofJsonStrict, hnone]
  exact ofJson_obj (hnames ▸ h)

variable {name : String} {index : Nat} {r : Record} {j : Json} {read : Reader ε α}

theorem required_of_find (h : r.find index name = some j) :
    r.required index name read = read j := by
  rw [required, h]

theorem optional_of_find (h : r.find index name = some j) :
    r.optional index name read = readOption read j := by
  unfold optional
  simp only [h]

variable {c : Codec ε α}

theorem required_write {a : α} (h : r.find index name = some (c.write a)) :
    r.required index name c.read = .ok a := by
  rw [required_of_find h, c.read_write]

theorem optional_write {a : Option α} (h : r.find index name = some (writeOption c.write a)) :
    r.optional index name c.read = .ok a := by
  rw [optional_of_find h, readOption_writeOption]

theorem defaulted_write {a default : α} (h : r.find index name = some (c.write a)) :
    r.defaulted index name default c.read = .ok a := by
  rw [defaulted, h]
  exact c.read_write a

theorem defaulted_writeOption {a default : Option α}
    (h : r.find index name = some (writeOption c.write a)) :
    r.defaulted index name default (readOption c.read) = .ok a := by
  rw [defaulted, h]
  exact readOption_writeOption c a

theorem defaulted_of_absent {default : α} (h : r.find index name = none) :
    r.defaulted index name default read = .ok default := by
  rw [defaulted, h]

theorem required_eq_ok {a : α} :
    r.required index name read = .ok a ↔ ∃ j, r.find index name = some j ∧ read j = .ok a := by
  unfold required
  cases r.find index name with
  | none => exact ⟨fun h => (nomatch h), fun ⟨_, h, _⟩ => (nomatch h)⟩
  | some j => exact ⟨fun h => ⟨j, rfl, h⟩, fun ⟨_, h, hj⟩ => by cases h; exact hj⟩

theorem ofJson_obj_eq_ok {names : List String} {fields : List (String × Json)}
    (h : ofJson (ε := ε) names (.obj fields) = .ok r) : r = .named fields := by
  rw [ofJson] at h
  split at h
  · cases h
  · exact (Except.ok.inj h).symm

theorem ofJson_arr_eq_ok {names : List String} {items : List Json}
    (h : ofJson (ε := ε) names (.arr items) = .ok r) : r = .positional items := by
  rw [ofJson] at h
  split at h
  · exact (Except.ok.inj h).symm
  · cases h

/-- A record that denies unknown fields has none. -/
theorem find_strict {names : List String} {fields : List (String × Json)} {r : Record}
    (h : ofJsonStrict (ε := ε) names (.obj fields) = .ok r) {name : String} (hname : name ∉ names)
    (index : Nat) : find (.named fields) index name = none := by
  rw [ofJsonStrict] at h
  split at h
  · cases h
  · rename_i hknown
    rw [List.find?_eq_none] at hknown
    rw [find, Option.map_eq_none_iff, List.find?_eq_none]
    intro f hf hkey
    have hmem : f.1 ∈ names := by simpa using hknown f hf
    rw [beq_iff_eq.mp hkey] at hmem
    exact hname hmem

/-- Two formats exclude each other when one requires a first field that the other, which denies
unknown fields, does not have, and the first items are of different types. -/
theorem required_excludes_strict {names names' : List String} {r r' : Record} {name' : String}
    {read' : Reader ε β} {a : α} {b : β} (h : ofJson (ε := ε) names j = .ok r)
    (h' : ofJsonStrict (ε := ε) names' j = .ok r') (ha : r.required 0 name read = .ok a)
    (hb : r'.required 0 name' read' = .ok b) (hname : name ∉ names')
    (htypes : ∀ j, read j = .ok a → read' j ≠ .ok b) : False := by
  obtain ⟨x, hx, hread⟩ := required_eq_ok.mp ha
  obtain ⟨y, hy, hread'⟩ := required_eq_ok.mp hb
  cases j with
  | obj fields =>
    rw [ofJson_obj_eq_ok h, find_strict h' hname] at hx
    cases hx
  | arr items =>
    rw [ofJson_arr_eq_ok h] at hx
    rw [ofJson_arr_eq_ok h'] at hy
    cases hx.symm.trans hy
    exact htypes x hread hread'
  | _ => cases h

end Record

/-! ## Formats that may write `null` -/

/-- A format that reads back what it writes and may write `null`; `absent` is what a record without
the field reads as. -/
structure Format (ε α : Type) where
  write : α → Json
  read : Reader ε α
  absent : Option α
  read_write : ∀ a, read (write a) = .ok a

attribute [simp] Format.read_write

namespace Format

variable (c : Format ε α)

/-- What a value in an optional field reads back as. -/
def durable (a : Option α) : Option α := a.filter fun a => c.write a ≠ .null

@[simp] theorem durable_durable (a : Option α) : c.durable (c.durable a) = c.durable a := by
  rw [durable, durable, Option.filter_filter]
  simp only [Bool.and_self]

theorem durable_eq_self {a : Option α} : c.durable a = a ↔ ∀ b ∈ a, c.write b ≠ .null := by
  cases a with
  | none => simp [durable]
  | some a => simp [durable, Option.filter_eq_some_iff]

theorem readOption_writeOption (a : Option α) :
    readOption c.read (writeOption c.write a) = .ok (c.durable a) := by
  cases a with
  | none => rfl
  | some a =>
    rw [writeOption, durable]
    by_cases h : c.write a = .null
    · rw [h, readOption_null, Option.filter_some_neg (by simpa using h)]
    · rw [readOption_of_ne_null h, c.read_write, Option.filter_some_pos (by simpa using h)]
      rfl

end Format

namespace Record

/-- A field of a type whose format may write `null`. -/
def field (r : Record) (index : Nat) (name : String) (c : Format ε α) : Except (Error ε) α :=
  match r.find index name, r, c.absent with
  | some j, _, _ => c.read j
  | none, .named _, some a => .ok a
  | none, .named _, none => .error (.missingField name)
  | none, .positional _, _ => .error .invalidLength

theorem field_write {r : Record} {index : Nat} {name : String} {c : Format ε α} {a : α}
    (h : r.find index name = some (c.write a)) : r.field index name c = .ok a := by
  unfold field
  simp only [h, c.read_write]

theorem optional_format {r : Record} {index : Nat} {name : String} {c : Format ε α} {a : Option α}
    (h : r.find index name = some (writeOption c.write a)) :
    r.optional index name c.read = .ok (c.durable a) := by
  rw [optional_of_find h, c.readOption_writeOption]

end Record

/-! ## Enumerations -/

/-- The variant an enumeration value names, with its content. -/
def readVariant : Reader ε (String × Option Json)
  | .str name => .ok (name, none)
  | .obj [(name, content)] => .ok (name, some content)
  | _ => .error .invalidType

/-- The content of a variant that has one. -/
def readContent : Option Json → Except (Error ε) Json
  | some j => .ok j
  | none => .error .invalidType

/-- A variant without contents: named alone, or with `null`. -/
def readEmpty (a : α) : Option Json → Except (Error ε) α
  | none | some .null => .ok a
  | some _ => .error .invalidType

/-- An enumeration without contents. -/
def readUnit (variants : List (String × α)) : Reader ε α := fun j => do
  let (name, content) ← readVariant j
  match (variants.find? fun v => v.1 == name), content with
  | some v, none | some v, some .null => .ok v.2
  | some _, some _ => .error .invalidType
  | none, _ => .error (.unknownVariant name)

def unit (variants : List (String × α)) (name : α → String)
    (h : ∀ a, (variants.find? fun v => v.1 == name a) = some (name a, a)) : Codec ε α where
  write a := .str (name a)
  read := readUnit variants
  read_write a := by
    unfold readUnit
    simp only [readVariant, Result.ok_bind, h]
  write_ne_null _ := nofun

end Serde
