import Mathlib

/-!
# Gatekeep.Identity

The owned identifiers of `identity.rs`. The macro `owned_id!` makes one newtype over `String` for
each field name; here it is one structure indexed by that name, which carries what every
constructor guarantees: the text is not blank.

Identifiers are ordered by their text, as the derived `Ord` of the source does, so they can be
keys of an ordered map.
-/

namespace Gatekeep

/-- Rust's `char::is_whitespace`: the Unicode `White_Space` scalars. -/
def isWhiteSpace (c : Char) : Bool :=
  let n := c.toNat
  (9 ≤ n && n ≤ 13) || n == 0x20 || n == 0x85 || n == 0xA0 || n == 0x1680 ||
    (0x2000 ≤ n && n ≤ 0x200A) || n == 0x2028 || n == 0x2029 || n == 0x202F || n == 0x205F ||
    n == 0x3000

/-- Rust's `char::is_control`: the scalars of category `Cc`. -/
def isControl (c : Char) : Bool :=
  let n := c.toNat
  n ≤ 0x1F || (0x7F ≤ n && n ≤ 0x9F)

/-- `value.trim().is_empty()`. -/
def isBlank (value : String) : Bool := value.toList.all isWhiteSpace

/-- `str::starts_with`. -/
def startsWith (value lead : String) : Bool := lead.toList.isPrefixOf value.toList

inductive GatekeepError where
  | emptyIdentifier (field : String)
  | reservedIdentifierPrefix (field reserved : String)
  | invalidLocale (value : String)
  | invalidLegacyIdentifier (value : String)
  | invalidPolicyRecord (reason : String)
  | tenantIdTooLong (maxBytes actualBytes : Nat)
  | tenantIdControlCharacter (codePoint : Nat)
  | tenantIdNoncharacter (codePoint : Nat)
deriving DecidableEq

/-- An identifier made by `owned_id!(_, field)`. -/
structure OwnedId (field : String) where
  value : String
  nonblank : isBlank value = false
deriving DecidableEq

def validateIdentifier (field value : String) : Except GatekeepError String :=
  if isBlank value then .error (.emptyIdentifier field)
  else if field == "decision_audit_id" && startsWith value "legacy-" then
    .error (.reservedIdentifierPrefix field "legacy-")
  else .ok value

theorem nonblank_of_validateIdentifier {field value value' : String}
    (h : validateIdentifier field value = .ok value') : value' = value ∧ isBlank value' = false := by
  unfold validateIdentifier at h
  split at h
  · cases h
  · rename_i hb
    split at h
    · cases h
    · cases h; exact ⟨rfl, by simpa using hb⟩

namespace OwnedId

variable {field : String}

def new (field value : String) : Except GatekeepError (OwnedId field) :=
  match h : validateIdentifier field value with
  | .ok value' => .ok ⟨value', (nonblank_of_validateIdentifier h).2⟩
  | .error e => .error e

theorem ext_value {a b : OwnedId field} (h : a.value = b.value) : a = b := by
  cases a; cases b; cases h; rfl

theorem validate_ok (a : OwnedId field) (h : field ≠ "decision_audit_id") :
    validateIdentifier field a.value = .ok a.value := by
  simp [validateIdentifier, a.nonblank, h]

theorem new_of_validate (a : OwnedId field) (h : validateIdentifier field a.value = .ok a.value) :
    new field a.value = .ok a := by
  unfold new
  split
  · rename_i value' hv
    rw [h] at hv
    cases hv; rfl
  · rename_i e hv
    rw [h] at hv
    cases hv

/-- An identifier has the text it was made of. -/
theorem value_of_new {value : String} {a : OwnedId field} (h : new field value = .ok a) :
    a.value = value := by
  unfold new at h
  split at h
  · rename_i value' hvalid
    cases h
    exact (nonblank_of_validateIdentifier hvalid).1
  · cases h

/-- Reading an identifier's own text back gives the identifier. Only decision identities have a
reserved prefix that the constructor refuses. -/
theorem new_value (a : OwnedId field) (h : field ≠ "decision_audit_id") :
    new field a.value = .ok a := new_of_validate a (validate_ok a h)

theorem new_value_of_unreserved (a : OwnedId field) (h : startsWith a.value "legacy-" = false) :
    new field a.value = .ok a :=
  new_of_validate a (by simp [validateIdentifier, a.nonblank, h])

instance : Ord (OwnedId field) := ⟨fun a b => compare a.value b.value⟩

instance : Std.TransOrd (OwnedId field) where
  eq_swap {a b} := @Std.OrientedCmp.eq_swap String compare _ a.value b.value
  isLE_trans {a b c} := @Std.TransCmp.isLE_trans String compare _ a.value b.value c.value

instance : Std.LawfulEqOrd (OwnedId field) where
  compare_self {a} := @Std.ReflCmp.compare_self String compare _ a.value
  eq_of_compare h := ext_value (@Std.LawfulEqCmp.eq_of_compare String compare _ _ _ h)

end OwnedId

abbrev FactId := OwnedId "fact_id"
abbrev ClauseLabel := OwnedId "clause_label"
abbrev ObligationId := OwnedId "obligation_id"
abbrev ParamKey := OwnedId "param_key"
abbrev PolicyHash := OwnedId "policy_hash"
abbrev PolicyId := OwnedId "policy_id"
abbrev ReasonCode := OwnedId "reason_code"
abbrev RequestId := OwnedId "request_id"
abbrev DecisionAuditId := OwnedId "decision_audit_id"
abbrev SubjectSlot := OwnedId "subject_slot"

/-! ## Identities with rules of their own -/

def maxTenantIdBytes : Nat := 255

def isNoncharacter (n : Nat) : Bool :=
  (0xFDD0 ≤ n && n ≤ 0xFDEF) || n % 0x10000 == 0xFFFF || n % 0x10000 == 0xFFFE

/-- The first forbidden scalar of a tenant identity. -/
def tenantScalarError : List Char → Option GatekeepError
  | [] => none
  | c :: cs =>
    if isControl c then some (.tenantIdControlCharacter c.toNat)
    else if isNoncharacter c.toNat then some (.tenantIdNoncharacter c.toNat)
    else tenantScalarError cs

/-- Why `validate_tenant_id` refuses a value. -/
def tenantIdError (value : String) : Option GatekeepError :=
  if isBlank value then some (.emptyIdentifier "tenant_id")
  else if value.utf8ByteSize > maxTenantIdBytes then
    some (.tenantIdTooLong maxTenantIdBytes value.utf8ByteSize)
  else tenantScalarError value.toList

/-- Tenant routing identity. -/
structure TenantId where
  value : String
  valid : tenantIdError value = none
deriving DecidableEq

def TenantId.new (value : String) : Except GatekeepError TenantId :=
  match h : tenantIdError value with
  | some e => .error e
  | none => .ok ⟨value, h⟩

theorem TenantId.ext_value {a b : TenantId} (h : a.value = b.value) : a = b := by
  cases a; cases b; cases h; rfl

theorem TenantId.new_value (t : TenantId) : TenantId.new t.value = .ok t := by
  unfold TenantId.new
  split
  · rename_i e he
    rw [t.valid] at he
    cases he
  · rfl

theorem TenantId.value_of_new {value : String} {t : TenantId} (h : TenantId.new value = .ok t) :
    t.value = value := by
  unfold TenantId.new at h
  split at h
  · cases h
  · cases h
    rfl

def isAsciiAlphanumeric (c : Char) : Bool :=
  let n := c.toNat
  (48 ≤ n && n ≤ 57) || (65 ≤ n && n ≤ 90) || (97 ≤ n && n ≤ 122)

def localeValid (value : String) : Bool :=
  !isBlank value && value.toList.all fun c => isAsciiAlphanumeric c || c == '-'

/-- Language or locale tag used by human-facing reason text. -/
structure Locale where
  value : String
  valid : localeValid value = true
deriving DecidableEq

def Locale.new (value : String) : Except GatekeepError Locale :=
  if h : localeValid value then .ok ⟨value, h⟩ else .error (.invalidLocale value)

theorem Locale.new_value (l : Locale) : Locale.new l.value = .ok l := by
  rw [Locale.new, dif_pos l.valid]

/-- Application-owned subject reference. -/
@[ext]
structure SubjectRef where
  kind : OwnedId "subject_kind"
  id : OwnedId "subject_id"
deriving DecidableEq

def SubjectRef.new (kind id : String) : Except GatekeepError SubjectRef := do
  let kind ← OwnedId.new "subject_kind" kind
  let id ← OwnedId.new "subject_id" id
  return ⟨kind, id⟩

theorem SubjectRef.value_of_new {kind id : String} {s : SubjectRef}
    (h : SubjectRef.new kind id = .ok s) : s.kind.value = kind ∧ s.id.value = id := by
  unfold SubjectRef.new at h
  cases hkind : OwnedId.new "subject_kind" kind with
  | error e => rw [hkind] at h; cases h
  | ok kind' =>
    cases hid : OwnedId.new "subject_id" id with
    | error e => rw [hkind, hid] at h; cases h
    | ok id' =>
      rw [hkind, hid] at h
      cases h
      exact ⟨OwnedId.value_of_new hkind, OwnedId.value_of_new hid⟩

theorem SubjectRef.new_value (s : SubjectRef) : SubjectRef.new s.kind.value s.id.value = .ok s := by
  simp only [SubjectRef.new, OwnedId.new_value s.kind (by decide),
    OwnedId.new_value s.id (by decide)]
  rfl

end Gatekeep
