import Gatekeep.Identity
import Gatekeep.Support.Result

/-!
# Gatekeep.StaticIdentity

Static identifiers, the second half of `identity.rs`. Their validators run at compile time, where
neither `str::trim` nor `str::chars` is available, and match byte sequences of UTF-8 instead of
scalars. At the first byte of a scalar the patterns say what the scalar is; at any later byte none
matches, since a continuation byte is never a leading one. So the validators accept what the
constructors of the owned identifiers accept (`static_accepts_owned`).
-/

namespace Gatekeep

/-- `str::as_bytes`. -/
def asBytes (value : String) : List UInt8 := value.toUTF8.data.toList

/-! ## Byte patterns -/

/-- The bytes of some ranges, bounds included. -/
abbrev BytePattern := List (Nat × Nat)

def BytePattern.holds (p : BytePattern) (b : UInt8) : Bool :=
  p.any fun range => range.1 ≤ b.toNat && b.toNat ≤ range.2

/-- A single byte. -/
def byte (n : Nat) : BytePattern := [(n, n)]

/-- Match the slice pattern `[p, .., rest @ ..]` and return `rest`. -/
def matchLead : List BytePattern → List UInt8 → Option (List UInt8)
  | [], bytes => some bytes
  | _ :: _, [] => none
  | p :: ps, b :: bytes => if p.holds b then matchLead ps bytes else none

/-- The `White_Space` scalars in UTF-8. -/
def whiteSpacePatterns : List (List BytePattern) :=
  [[[(0x20, 0x20), (0x09, 0x0D)]],
    [byte 0xC2, [(0x85, 0x85), (0xA0, 0xA0)]],
    [byte 0xE1, byte 0x9A, byte 0x80],
    [byte 0xE2, byte 0x80, [(0x80, 0x8A), (0xA8, 0xA8), (0xA9, 0xA9), (0xAF, 0xAF)]],
    [byte 0xE2, byte 0x81, byte 0x9F],
    [byte 0xE3, byte 0x80, byte 0x80]]

/-- What follows a `White_Space` scalar at the front. -/
def afterWhiteSpace (bytes : List UInt8) : Option (List UInt8) :=
  whiteSpacePatterns.findSome? fun pattern => matchLead pattern bytes

def controlAt (bytes : List UInt8) : Bool :=
  (matchLead [[(0x00, 0x1F), (0x7F, 0x7F)]] bytes).isSome ||
    (matchLead [byte 0xC2, [(0x80, 0x9F)]] bytes).isSome

def noncharacterAt (bytes : List UInt8) : Bool :=
  (matchLead [byte 0xEF, byte 0xB7, [(0x90, 0xAF)]] bytes).isSome ||
    (matchLead [byte 0xEF, byte 0xBF, [(0xBE, 0xBF)]] bytes).isSome ||
    (matchLead [[(0xF0, 0xF4)], [(0x00, 0xFF)], byte 0xBF, [(0xBE, 0xBF)]] bytes).isSome &&
      (bytes.drop 1).head?.any fun second => second &&& 0x0F == 0x0F

theorem length_matchLead {ps : List BytePattern} {bytes rest : List UInt8}
    (h : matchLead ps bytes = some rest) : bytes.length = ps.length + rest.length := by
  induction ps generalizing bytes with
  | nil =>
    cases h
    exact (Nat.zero_add _).symm
  | cons p ps ih =>
    cases bytes with
    | nil => cases h
    | cons b bytes =>
      rw [matchLead] at h
      split at h
      · rw [List.length_cons, List.length_cons, ih h]
        omega
      · cases h

theorem length_afterWhiteSpace {bytes rest : List UInt8} (h : afterWhiteSpace bytes = some rest) :
    rest.length < bytes.length := by
  obtain ⟨pattern, hp, hm⟩ := List.exists_of_findSome?_eq_some h
  have hpos : ∀ pattern ∈ whiteSpacePatterns, 0 < pattern.length := by decide
  have := hpos pattern hp
  have := length_matchLead hm
  omega

/-! ## The validators -/

def assertThat (condition : Bool) (message : String) : Except String Unit :=
  if condition then .ok () else .error message

/-- The loop of `assert_valid_static_id`. -/
def hasNonWhiteSpace (bytes : List UInt8) : Bool :=
  if bytes.isEmpty then false
  else
    match _h : afterWhiteSpace bytes with
    | some rest => hasNonWhiteSpace rest
    | none => true
termination_by bytes.length
decreasing_by exact length_afterWhiteSpace _h

def assertValidStaticId (value : String) : Except String Unit := do
  assertThat (!(asBytes value).isEmpty) "static identity must not be empty"
  assertThat (hasNonWhiteSpace (asBytes value)) "static identity must not be whitespace"

/-- The loop of `assert_valid_static_tenant_id`, which advances by one byte. -/
def assertNoneForbidden : List UInt8 → Except String Unit
  | [] => .ok ()
  | first :: rest => do
    assertThat (!controlAt (first :: rest)) "static tenant identity contains a control character"
    assertThat (!noncharacterAt (first :: rest))
      "static tenant identity contains a Unicode noncharacter"
    assertNoneForbidden rest

def assertValidStaticTenantId (value : String) : Except String Unit := do
  assertValidStaticId value
  assertThat ((asBytes value).length ≤ maxTenantIdBytes)
    "static tenant identity exceeds 255 UTF-8 bytes"
  assertNoneForbidden (asBytes value)

/-- The fields of the owned identifiers that have a static twin without rules of its own. -/
def staticFields : List String :=
  ["fact_id", "clause_label", "obligation_id", "param_key", "reason_code", "request_id",
    "subject_slot"]

/-- An identifier made by `static_id!`. -/
structure StaticId (field : String) where
  value : String
  valid : assertValidStaticId value = .ok ()

def StaticId.toOwnedId {field : String} (id : StaticId field) :
    Except GatekeepError (OwnedId field) := OwnedId.new field id.value

structure StaticTenantId where
  value : String
  valid : assertValidStaticTenantId value = .ok ()

def StaticTenantId.toOwnedId (id : StaticTenantId) : Except GatekeepError TenantId :=
  TenantId.new id.value

/-! ## Scalars in UTF-8 -/

theorem asBytes_eq (value : String) : asBytes value = value.toList.flatMap String.utf8EncodeChar := by
  have h : value.toByteArray = (value.toList.flatMap String.utf8EncodeChar).toByteArray :=
    String.utf8Encode_toList.symm
  rw [asBytes, String.toUTF8_eq_toByteArray, h, List.toList_data_toByteArray]

/-- The bytes of a scalar, by the length of its encoding. -/
theorem utf8EncodeChar_cases (c : Char) :
    (c.toNat < 0x80 ∧ String.utf8EncodeChar c = [UInt8.ofNat c.toNat]) ∨
    (0x80 ≤ c.toNat ∧ c.toNat < 0x800 ∧ String.utf8EncodeChar c =
      [UInt8.ofNat (c.toNat / 64 + 0xC0), UInt8.ofNat (c.toNat % 64 + 0x80)]) ∨
    (0x800 ≤ c.toNat ∧ c.toNat < 0x10000 ∧ String.utf8EncodeChar c =
      [UInt8.ofNat (c.toNat / 4096 + 0xE0), UInt8.ofNat (c.toNat / 64 % 64 + 0x80),
        UInt8.ofNat (c.toNat % 64 + 0x80)]) ∨
    (0x10000 ≤ c.toNat ∧ c.toNat < 0x110000 ∧ String.utf8EncodeChar c =
      [UInt8.ofNat (c.toNat / 262144 + 0xF0), UInt8.ofNat (c.toNat / 4096 % 64 + 0x80),
        UInt8.ofNat (c.toNat / 64 % 64 + 0x80), UInt8.ofNat (c.toNat % 64 + 0x80)]) := by
  have hmax : c.toNat < 0x110000 := by
    rcases c.valid with h | h
    · exact lt_trans h (by decide)
    · exact h.2
  have hval : c.val.toNat = c.toNat := rfl
  generalize c.toNat = n at hmax hval ⊢
  have hbytes : String.utf8EncodeChar c =
      if n ≤ 0x7F then [UInt8.ofNat n]
      else if n ≤ 0x7FF then [UInt8.ofNat (n / 64 % 32 + 0xC0), UInt8.ofNat (n % 64 + 0x80)]
      else if n ≤ 0xFFFF then
        [UInt8.ofNat (n / 4096 % 16 + 0xE0), UInt8.ofNat (n / 64 % 64 + 0x80),
          UInt8.ofNat (n % 64 + 0x80)]
      else
        [UInt8.ofNat (n / 262144 % 8 + 0xF0), UInt8.ofNat (n / 4096 % 64 + 0x80),
          UInt8.ofNat (n / 64 % 64 + 0x80), UInt8.ofNat (n % 64 + 0x80)] := by
    rw [← hval]
    rfl
  rw [hbytes]
  split
  · exact .inl ⟨by omega, rfl⟩
  · split
    · refine .inr (.inl ⟨by omega, by omega, ?_⟩)
      rw [Nat.mod_eq_of_lt (by omega : n / 64 < 32)]
    · split
      · refine .inr (.inr (.inl ⟨by omega, by omega, ?_⟩))
        rw [Nat.mod_eq_of_lt (by omega : n / 4096 < 16)]
      · refine .inr (.inr (.inr ⟨by omega, by omega, ?_⟩))
        rw [Nat.mod_eq_of_lt (by omega : n / 262144 < 8)]

/-- A pattern at a byte given by its value. -/
theorem matchLead_ofNat (p : BytePattern) (ps : List BytePattern) {n : Nat} (h : n < 256)
    (bytes : List UInt8) :
    matchLead (p :: ps) (UInt8.ofNat n :: bytes) =
      if (p.any fun range => range.1 ≤ n && n ≤ range.2) = true then matchLead ps bytes else none := by
  rw [matchLead, BytePattern.holds, UInt8.toNat_ofNat_of_lt' h]

theorem matchLead_nil (bytes : List UInt8) : matchLead [] bytes = some bytes := rfl

theorem any_cons_range (range : Nat × Nat) (p : BytePattern) (n : Nat) :
    ((range :: p).any fun range => range.1 ≤ n && n ≤ range.2) = true ↔
      (range.1 ≤ n ∧ n ≤ range.2) ∨ (p.any fun range => range.1 ≤ n && n ≤ range.2) = true := by
  simp

theorem any_nil_range (n : Nat) :
    (List.any ([] : BytePattern) fun range => range.1 ≤ n && n ≤ range.2) = true ↔ False := by
  simp

theorem ite_or_ite {α : Type} {p q : Prop} [Decidable p] [Decidable q] (a : α) :
    (if p then some a else none).or (if q then some a else none) =
      if p ∨ q then some a else none := by
  by_cases hp : p <;> by_cases hq : q <;> simp [hp, hq]

theorem afterWhiteSpace_eq (bytes : List UInt8) :
    afterWhiteSpace bytes =
      (matchLead [[(0x20, 0x20), (0x09, 0x0D)]] bytes).or
      ((matchLead [byte 0xC2, [(0x85, 0x85), (0xA0, 0xA0)]] bytes).or
      ((matchLead [byte 0xE1, byte 0x9A, byte 0x80] bytes).or
      ((matchLead [byte 0xE2, byte 0x80,
        [(0x80, 0x8A), (0xA8, 0xA8), (0xA9, 0xA9), (0xAF, 0xAF)]] bytes).or
      ((matchLead [byte 0xE2, byte 0x81, byte 0x9F] bytes).or
      (matchLead [byte 0xE3, byte 0x80, byte 0x80] bytes))))) := by
  have hcons : ∀ (pattern : List BytePattern) (patterns : List (List BytePattern)),
      ((pattern :: patterns).findSome? fun pattern => matchLead pattern bytes) =
        (matchLead pattern bytes).or
          (patterns.findSome? fun pattern => matchLead pattern bytes) := by
    intro pattern patterns
    rw [List.findSome?_cons]
    cases matchLead pattern bytes <;> rfl
  simp only [afterWhiteSpace, whiteSpacePatterns, hcons, List.findSome?_nil, Option.or_none]

theorem isWhiteSpace_iff (c : Char) : isWhiteSpace c = true ↔
    (9 ≤ c.toNat ∧ c.toNat ≤ 13) ∨ c.toNat = 0x20 ∨ c.toNat = 0x85 ∨ c.toNat = 0xA0 ∨
      c.toNat = 0x1680 ∨ (0x2000 ≤ c.toNat ∧ c.toNat ≤ 0x200A) ∨ c.toNat = 0x2028 ∨
      c.toNat = 0x2029 ∨ c.toNat = 0x202F ∨ c.toNat = 0x205F ∨ c.toNat = 0x3000 := by
  simp only [isWhiteSpace, Bool.or_eq_true, Bool.and_eq_true, decide_eq_true_eq, beq_iff_eq,
    or_assoc]

/-- At the first byte of a scalar the patterns tell whether it is white space. -/
theorem afterWhiteSpace_scalar (c : Char) (rest : List UInt8) :
    afterWhiteSpace (String.utf8EncodeChar c ++ rest) =
      if isWhiteSpace c then some rest else none := by
  simp only [isWhiteSpace_iff]
  rcases utf8EncodeChar_cases c with ⟨h, hc⟩ | ⟨hl, hh, hc⟩ | ⟨hl, hh, hc⟩ | ⟨hl, hh, hc⟩ <;>
    rw [hc] <;>
    simp (disch := omega) only [afterWhiteSpace_eq, byte, List.cons_append, List.nil_append,
      matchLead_ofNat, matchLead_nil, any_cons_range, any_nil_range, or_false, ← ite_and, if_neg,
      Option.or_none, Option.none_or, ite_or_ite] <;>
    exact if_congr (by omega) rfl rfl

theorem isSome_ite_some {α : Type} {p : Prop} [Decidable p] (a : α) :
    (if p then some a else none).isSome = true ↔ p := by
  by_cases h : p <;> simp [h]

theorem controlAt_scalar (c : Char) (rest : List UInt8) :
    controlAt (String.utf8EncodeChar c ++ rest) = isControl c := by
  have hcontrol : isControl c = true ↔ c.toNat ≤ 0x1F ∨ (0x7F ≤ c.toNat ∧ c.toNat ≤ 0x9F) := by
    simp only [isControl, Bool.or_eq_true, Bool.and_eq_true, decide_eq_true_eq]
  rw [Bool.eq_iff_iff, hcontrol]
  rcases utf8EncodeChar_cases c with ⟨h, hc⟩ | ⟨hl, hh, hc⟩ | ⟨hl, hh, hc⟩ | ⟨hl, hh, hc⟩ <;>
    rw [hc] <;>
    simp (disch := omega) only [controlAt, byte, List.cons_append, List.nil_append,
      matchLead_ofNat, matchLead_nil, any_cons_range, any_nil_range, or_false, ← ite_and, if_neg,
      Option.isSome_none, Bool.or_false, Bool.false_or, isSome_ite_some, Bool.false_eq_true,
      false_iff] <;>
    omega

/-- The low half of a byte. -/
theorem lowNibble_ofNat {n : Nat} (h : n < 256) :
    (UInt8.ofNat n &&& 0x0F == 0x0F) = true ↔ n % 16 = 15 := by
  rw [beq_iff_eq, ← UInt8.toNat_inj, UInt8.toNat_and, UInt8.toNat_ofNat_of_lt' h]
  exact Eq.congr (Nat.and_two_pow_sub_one_eq_mod n 4) rfl

theorem noncharacterAt_scalar (c : Char) (rest : List UInt8) :
    noncharacterAt (String.utf8EncodeChar c ++ rest) = isNoncharacter c.toNat := by
  have hnon : isNoncharacter c.toNat = true ↔ (0xFDD0 ≤ c.toNat ∧ c.toNat ≤ 0xFDEF) ∨
      c.toNat % 0x10000 = 0xFFFF ∨ c.toNat % 0x10000 = 0xFFFE := by
    simp only [isNoncharacter, Bool.or_eq_true, Bool.and_eq_true, decide_eq_true_eq, beq_iff_eq,
      or_assoc]
  rw [Bool.eq_iff_iff, hnon]
  rcases utf8EncodeChar_cases c with ⟨h, hc⟩ | ⟨hl, hh, hc⟩ | ⟨hl, hh, hc⟩ | ⟨hl, hh, hc⟩ <;>
    rw [hc] <;>
    simp (disch := omega) only [noncharacterAt, byte, List.cons_append, List.nil_append,
      matchLead_ofNat, matchLead_nil, any_cons_range, any_nil_range, or_false, ← ite_and, if_neg,
      Option.isSome_none, Bool.or_false, Bool.false_or, Bool.false_and, Bool.or_eq_true,
      Bool.and_eq_true, isSome_ite_some, Bool.false_eq_true, List.drop_succ_cons, List.drop_zero,
      List.head?_cons, Option.any_some, lowNibble_ofNat, false_iff] <;>
    omega

/-- A byte inside a scalar. -/
def isContinuation (b : UInt8) : Prop := 0x80 ≤ b.toNat ∧ b.toNat < 0xC0

theorem isContinuation_ofNat {n : Nat} (h : n < 64) : isContinuation (UInt8.ofNat (n + 0x80)) := by
  rw [isContinuation, UInt8.toNat_ofNat_of_lt' (lt_trans (Nat.add_lt_add_right h _) (by decide))]
  omega

/-- A scalar is a byte followed by continuation bytes. -/
theorem utf8EncodeChar_continuation (c : Char) :
    ∃ b later, String.utf8EncodeChar c = b :: later ∧ ∀ b ∈ later, isContinuation b := by
  have h64 : ∀ n, n % 64 < 64 := fun n => Nat.mod_lt n (by decide)
  rcases utf8EncodeChar_cases c with ⟨-, hc⟩ | ⟨-, -, hc⟩ | ⟨-, -, hc⟩ | ⟨-, -, hc⟩ <;>
    refine ⟨_, _, hc, ?_⟩ <;>
    simp only [List.forall_mem_cons, List.not_mem_nil, false_implies, implies_true, and_true,
      isContinuation_ofNat (h64 _)]

/-- No pattern starts inside a scalar. -/
theorem not_holds_of_continuation {p : BytePattern} {b : UInt8} (hb : isContinuation b)
    (hp : ∀ range ∈ p, range.2 < 0x80 ∨ 0xC0 ≤ range.1) : p.holds b = false := by
  rw [BytePattern.holds, List.any_eq_false]
  intro range hr
  have := hp range hr
  have := hb.1
  have := hb.2
  simp only [Bool.and_eq_true, decide_eq_true_eq]
  omega

theorem matchLead_continuation {p : BytePattern} {ps : List BytePattern} {b : UInt8}
    {rest : List UInt8} (hb : isContinuation b)
    (hp : ∀ range ∈ p, range.2 < 0x80 ∨ 0xC0 ≤ range.1) : matchLead (p :: ps) (b :: rest) = none := by
  rw [matchLead, not_holds_of_continuation hb hp]
  rfl

theorem controlAt_continuation {b : UInt8} {rest : List UInt8} (hb : isContinuation b) :
    controlAt (b :: rest) = false := by
  rw [controlAt, matchLead_continuation hb (by decide), matchLead_continuation hb (by decide)]
  rfl

theorem noncharacterAt_continuation {b : UInt8} {rest : List UInt8} (hb : isContinuation b) :
    noncharacterAt (b :: rest) = false := by
  rw [noncharacterAt, matchLead_continuation hb (by decide), matchLead_continuation hb (by decide),
    matchLead_continuation hb (by decide)]
  rfl

/-! ## Agreement with the owned identifiers -/

theorem hasNonWhiteSpace_scalar (c : Char) (rest : List UInt8) :
    hasNonWhiteSpace (String.utf8EncodeChar c ++ rest) =
      if isWhiteSpace c then hasNonWhiteSpace rest else true := by
  obtain ⟨b, later, hc, -⟩ := utf8EncodeChar_continuation c
  have hne : (String.utf8EncodeChar c ++ rest).isEmpty = false := by rw [hc]; rfl
  have hafter := afterWhiteSpace_scalar c rest
  rw [hasNonWhiteSpace, hne, if_neg Bool.false_ne_true]
  split
  · rename_i rest' h
    rw [hafter] at h
    split at h
    · rename_i hw
      cases h
      rw [if_pos hw]
    · cases h
  · rename_i h
    rw [hafter] at h
    split at h
    · cases h
    · rename_i hw
      rw [if_neg hw]

theorem hasNonWhiteSpace_flatMap (cs : List Char) :
    hasNonWhiteSpace (cs.flatMap String.utf8EncodeChar) = !cs.all isWhiteSpace := by
  induction cs with
  | nil =>
    rw [hasNonWhiteSpace]
    rfl
  | cons c cs ih =>
    rw [List.flatMap_cons, hasNonWhiteSpace_scalar, ih, List.all_cons]
    cases isWhiteSpace c <;> rfl

theorem assertThat_eq_ok {condition : Bool} {message : String} :
    assertThat condition message = .ok () ↔ condition = true := by
  cases condition with
  | true => exact ⟨fun _ => rfl, fun _ => rfl⟩
  | false => exact ⟨fun h => (by cases h), fun h => (by cases h)⟩

theorem assertValidStaticId_eq_ok (value : String) :
    assertValidStaticId value = .ok () ↔ isBlank value = false := by
  have hwhite : hasNonWhiteSpace (asBytes value) = !isBlank value := by
    rw [asBytes_eq, hasNonWhiteSpace_flatMap, isBlank]
  rw [assertValidStaticId, Result.check_eq_ok, assertThat_eq_ok, assertThat_eq_ok, hwhite]
  refine ⟨fun h => by simpa using h.2, fun h => ⟨?_, by rw [h]; rfl⟩⟩
  -- An empty value has no byte that is not white space.
  cases hb : asBytes value with
  | nil =>
    rw [hb, hasNonWhiteSpace, h] at hwhite
    cases hwhite
  | cons b bytes => rfl

theorem assertNoneForbidden_cons {b : UInt8} {rest : List UInt8} :
    assertNoneForbidden (b :: rest) = .ok () ↔ controlAt (b :: rest) = false ∧
      noncharacterAt (b :: rest) = false ∧ assertNoneForbidden rest = .ok () := by
  rw [assertNoneForbidden, Result.check_eq_ok, Result.check_eq_ok, assertThat_eq_ok,
    assertThat_eq_ok, Bool.not_eq_true', Bool.not_eq_true']

/-- The bytes inside a scalar never stop the loop. -/
theorem assertNoneForbidden_continuation {later rest : List UInt8}
    (h : ∀ b ∈ later, isContinuation b) :
    assertNoneForbidden (later ++ rest) = .ok () ↔ assertNoneForbidden rest = .ok () := by
  induction later with
  | nil => rfl
  | cons b later ih =>
    obtain ⟨hb, hlater⟩ := List.forall_mem_cons.mp h
    rw [List.cons_append, assertNoneForbidden_cons, ih hlater]
    exact ⟨fun h => h.2.2,
      fun h => ⟨controlAt_continuation hb, noncharacterAt_continuation hb, h⟩⟩

theorem assertNoneForbidden_scalar (c : Char) (rest : List UInt8) :
    assertNoneForbidden (String.utf8EncodeChar c ++ rest) = .ok () ↔
      isControl c = false ∧ isNoncharacter c.toNat = false ∧
        assertNoneForbidden rest = .ok () := by
  have hcontrol := controlAt_scalar c rest
  have hnon := noncharacterAt_scalar c rest
  obtain ⟨b, later, hc, hlater⟩ := utf8EncodeChar_continuation c
  rw [hc, List.cons_append] at hcontrol hnon ⊢
  rw [assertNoneForbidden_cons, hcontrol, hnon, assertNoneForbidden_continuation hlater]

theorem assertNoneForbidden_flatMap (cs : List Char) :
    assertNoneForbidden (cs.flatMap String.utf8EncodeChar) = .ok () ↔
      tenantScalarError cs = none := by
  induction cs with
  | nil => exact ⟨fun _ => rfl, fun _ => rfl⟩
  | cons c cs ih =>
    rw [List.flatMap_cons, assertNoneForbidden_scalar, ih, tenantScalarError]
    cases isControl c <;> cases isNoncharacter c.toNat <;> simp

theorem assertValidStaticTenantId_eq_ok (value : String) :
    assertValidStaticTenantId value = .ok () ↔ tenantIdError value = none := by
  have hlen : (asBytes value).length = value.utf8ByteSize := rfl
  rw [assertValidStaticTenantId, Result.check_eq_ok, assertValidStaticId_eq_ok, Result.check_eq_ok,
    assertThat_eq_ok, decide_eq_true_iff, hlen, asBytes_eq, assertNoneForbidden_flatMap, tenantIdError]
  cases isBlank value with
  | true => simp
  | false =>
    by_cases h : value.utf8ByteSize ≤ maxTenantIdBytes
    · simp [h, not_lt.mpr h]
    · simp [h, not_le.mp h]

theorem OwnedId.exists_new_iff {field value : String} (h : field ≠ "decision_audit_id") :
    (∃ id : OwnedId field, OwnedId.new field value = .ok id) ↔ isBlank value = false := by
  refine ⟨fun ⟨id, hid⟩ => ?_, fun hb => ⟨⟨value, hb⟩, OwnedId.new_value ⟨value, hb⟩ h⟩⟩
  unfold OwnedId.new at hid
  split at hid
  · rename_i value' hv
    obtain ⟨rfl, hb⟩ := nonblank_of_validateIdentifier hv
    exact hb
  · cases hid

theorem TenantId.exists_new_iff {value : String} :
    (∃ id, TenantId.new value = .ok id) ↔ tenantIdError value = none := by
  refine ⟨fun ⟨id, hid⟩ => ?_, fun h => ⟨⟨value, h⟩, TenantId.new_value ⟨value, h⟩⟩⟩
  unfold TenantId.new at hid
  split at hid
  · cases hid
  · assumption

theorem ne_decision_audit_id {field : String} (h : field ∈ staticFields) :
    field ≠ "decision_audit_id" := by
  rintro rfl
  revert h
  decide

/-- A static validator accepts a text exactly if the constructor of the owned identifier does, so
the conversion of a static identifier never fails and keeps its text. -/
theorem static_accepts_owned :
    (∀ field ∈ staticFields, ∀ value,
      (assertValidStaticId value = .ok () ↔
        ∃ id : OwnedId field, OwnedId.new field value = .ok id) ∧
      ∀ id : StaticId field, ∃ owned, id.toOwnedId = .ok owned ∧ owned.value = id.value) ∧
    (∀ value, assertValidStaticTenantId value = .ok () ↔ ∃ id, TenantId.new value = .ok id) ∧
    ∀ id : StaticTenantId, ∃ owned, id.toOwnedId = .ok owned ∧ owned.value = id.value := by
  refine ⟨fun field hf value => ⟨?_, fun id => ?_⟩, fun value => ?_, fun id => ?_⟩
  · rw [assertValidStaticId_eq_ok, OwnedId.exists_new_iff (ne_decision_audit_id hf)]
  · have hb := (assertValidStaticId_eq_ok id.value).mp id.valid
    exact ⟨⟨id.value, hb⟩, OwnedId.new_value ⟨id.value, hb⟩ (ne_decision_audit_id hf), rfl⟩
  · rw [assertValidStaticTenantId_eq_ok, TenantId.exists_new_iff]
  · have hv := (assertValidStaticTenantId_eq_ok id.value).mp id.valid
    exact ⟨⟨id.value, hv⟩, TenantId.new_value ⟨id.value, hv⟩, rfl⟩

end Gatekeep
