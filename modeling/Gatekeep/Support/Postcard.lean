import Gatekeep.Support.Result

/-!
# Gatekeep.Support.Postcard

Writing values as postcard does: numbers as varints, an enumeration as its variant's index followed
by the fields, a sequence or a text with its length in front, an optional value after a tag, the
fields of a record one after the other. There are no separators. An encoder may fail, since values
of application types are written by the application's own code.

`Separates enc a`: the encoding of `a` can be told off the front of any word that starts with it.
That every value is separated is the same as being injective and prefix-free (`separates_iff`). A
record is taken apart from the left, one field at a time (`Separates.peel`).
-/

namespace Postcard

abbrev Bytes := List UInt8

abbrev Encoder (ε α : Type) := α → Except ε Bytes

variable {ε α β : Type}

def Injective (enc : Encoder ε α) : Prop :=
  ∀ a b x, enc a = .ok x → enc b = .ok x → a = b

/-- No encoding is a proper prefix of another. -/
def PrefixFree (enc : Encoder ε α) : Prop :=
  ∀ a b x y, enc a = .ok x → enc b = .ok y → x <+: y → x = y

def Separates (enc : Encoder ε α) (a : α) : Prop :=
  ∀ b x y s t, enc a = .ok x → enc b = .ok y → x ++ s = y ++ t → a = b ∧ s = t

theorem separates_iff {enc : Encoder ε α} :
    (∀ a, Separates enc a) ↔ Injective enc ∧ PrefixFree enc := by
  constructor
  · intro h
    constructor
    · intro a b x hx hy
      exact (h a b x x [] [] hx hy rfl).1
    · rintro a b x y hx hy ⟨t, ht⟩
      obtain ⟨rfl, -⟩ := h a b x y t [] hx hy (by rw [ht, List.append_nil])
      exact Except.ok.inj (hx.symm.trans hy)
  · rintro ⟨hinj, hfree⟩ a b x y s t hx hy heq
    -- one of the two encodings is a prefix of the other, so they are the same
    have hxy : x = y := by
      rcases List.prefix_or_prefix_of_prefix (List.prefix_append x s)
        (heq ▸ List.prefix_append y t) with h | h
      · exact hfree a b x y hx hy h
      · exact (hfree b a y x hy hx h).symm
    subst hxy
    exact ⟨hinj a b x hx hy, List.append_cancel_left heq⟩

/-- Reading a value through an injective function of it. -/
theorem Separates.comap {enc : Encoder ε β} {f : α → β} (hf : Function.Injective f) {a : α}
    (h : Separates enc (f a)) : Separates (fun a => enc (f a)) a := by
  intro b x y s t hx hy heq
  obtain ⟨hab, hst⟩ := h (f b) x y s t hx hy heq
  exact ⟨hf hab, hst⟩

/-! ## One after the other -/

/-- Two fields in order; nothing is written after a failure. -/
def both (first second : Except ε Bytes) : Except ε Bytes := do
  let x ← first
  let y ← second
  return x ++ y

theorem both_eq_ok {first second : Except ε Bytes} {z : Bytes} :
    both first second = .ok z ↔ ∃ x y, first = .ok x ∧ second = .ok y ∧ x ++ y = z := by
  unfold both
  rw [Result.bind_eq_ok]
  constructor
  · rintro ⟨x, hx, h⟩
    obtain ⟨y, hy, h⟩ := Result.bind_eq_ok.mp h
    exact ⟨x, y, hx, hy, Except.ok.inj h⟩
  · rintro ⟨x, y, hx, hy, rfl⟩
    exact ⟨x, hx, Result.bind_eq_ok.mpr ⟨y, hy, rfl⟩⟩

/-- A separated field comes off the front of two equal words. -/
theorem Separates.peel {enc : Encoder ε α} {a b : α} (h : Separates enc a)
    {rest rest' : Except ε Bytes} {x y s t : Bytes} (hx : both (enc a) rest = .ok x)
    (hy : both (enc b) rest' = .ok y) (heq : x ++ s = y ++ t) :
    a = b ∧ ∃ x' y', rest = .ok x' ∧ rest' = .ok y' ∧ x' ++ s = y' ++ t := by
  obtain ⟨xa, x', hxa, hx', rfl⟩ := both_eq_ok.mp hx
  obtain ⟨yb, y', hyb, hy', rfl⟩ := both_eq_ok.mp hy
  rw [List.append_assoc, List.append_assoc] at heq
  obtain ⟨hab, hrest⟩ := h b xa yb _ _ hxa hyb heq
  exact ⟨hab, x', y', hx', hy', hrest⟩

/-! ## Numbers -/

/-- Seven bits to a byte, lowest first, the high bit set on every byte but the last. -/
def varint (n : Nat) : Bytes :=
  if 128 ≤ n then UInt8.ofNat (128 + n % 128) :: varint (n / 128) else [UInt8.ofNat n]
termination_by n

def nat : Encoder ε Nat := fun n => .ok (varint n)

theorem byte_inj {n m : Nat} (hn : n < 256) (hm : m < 256) (h : UInt8.ofNat n = UInt8.ofNat m) :
    n = m := by
  have hnat := congrArg UInt8.toNat h
  rwa [UInt8.toNat_ofNat_of_lt' hn, UInt8.toNat_ofNat_of_lt' hm] at hnat

theorem varint_append_inj {n m : Nat} {s t : Bytes} (h : varint n ++ s = varint m ++ t) :
    n = m ∧ s = t := by
  induction n using Nat.strongRecOn generalizing m with
  | ind n ih =>
    rw [varint, varint.eq_def m] at h
    by_cases hn : 128 ≤ n
    · by_cases hm : 128 ≤ m
      · rw [if_pos hn, if_pos hm] at h
        obtain ⟨hbyte, hrest⟩ := List.cons.inj h
        have hmod := byte_inj (by omega) (by omega) hbyte
        obtain ⟨hdiv, hst⟩ := ih (n / 128) (by omega) hrest
        exact ⟨by omega, hst⟩
      · rw [if_pos hn, if_neg hm] at h
        have hlast := byte_inj (by omega) (by omega) (List.cons.inj h).1
        omega
    · by_cases hm : 128 ≤ m
      · rw [if_neg hn, if_pos hm] at h
        have hlast := byte_inj (by omega) (by omega) (List.cons.inj h).1
        omega
      · rw [if_neg hn, if_neg hm] at h
        obtain ⟨hbyte, hst⟩ := List.cons.inj h
        exact ⟨byte_inj (by omega) (by omega) hbyte, hst⟩

theorem separates_nat (n : Nat) : Separates (nat : Encoder ε Nat) n := by
  rintro m _ _ s t ⟨⟩ ⟨⟩ heq
  exact varint_append_inj heq

/-! ## Enumerations, sequences, texts -/

/-- The fields of a variant behind its index. -/
def variant (index : Nat) (fields : Except ε Bytes) : Except ε Bytes := both (nat index) fields

/-- A variant without fields. -/
def unitVariant (index : Nat) : Except ε Bytes := variant index (.ok [])

/-- The index comes off first. -/
theorem variant_peel {i j : Nat} {fields fields' : Except ε Bytes} {x y s t : Bytes}
    (hx : variant i fields = .ok x) (hy : variant j fields' = .ok y) (heq : x ++ s = y ++ t) :
    i = j ∧ ∃ x' y', fields = .ok x' ∧ fields' = .ok y' ∧ x' ++ s = y' ++ t :=
  (separates_nat i).peel hx hy heq

theorem variant_inj {enc : Encoder ε α} {a b : α} (h : Separates enc a) {i j : Nat}
    {x y s t : Bytes} (hx : variant i (enc a) = .ok x) (hy : variant j (enc b) = .ok y)
    (heq : x ++ s = y ++ t) : a = b ∧ s = t := by
  obtain ⟨-, x', y', hx', hy', heq⟩ := variant_peel hx hy heq
  exact h b x' y' s t hx' hy' heq

theorem unitVariant_peel {i j : Nat} {x y s t : Bytes}
    (hx : (unitVariant i : Except ε Bytes) = .ok x) (hy : (unitVariant j : Except ε Bytes) = .ok y)
    (heq : x ++ s = y ++ t) : i = j ∧ s = t := by
  obtain ⟨hij, x', y', hx', hy', heq⟩ := variant_peel hx hy heq
  cases hx'
  cases hy'
  exact ⟨hij, heq⟩

def option (enc : Encoder ε α) : Encoder ε (Option α)
  | none => unitVariant 0
  | some a => variant 1 (enc a)

def each (enc : Encoder ε α) : Encoder ε (List α)
  | [] => .ok []
  | a :: as => both (enc a) (each enc as)

def seq (enc : Encoder ε α) : Encoder ε (List α) := fun as => both (nat as.length) (each enc as)

def str : Encoder ε String := fun s => both (nat s.toByteArray.size) (.ok s.toByteArray.data.toList)

theorem separates_option {enc : Encoder ε α} (h : ∀ a, Separates enc a) (o : Option α) :
    Separates (option enc) o := by
  intro o' x y s t hx hy heq
  cases o with
  | none =>
    cases o' with
    | none => exact ⟨rfl, (unitVariant_peel hx hy heq).2⟩
    | some b => exact absurd (variant_peel hx hy heq).1 (by decide)
  | some a =>
    cases o' with
    | none => exact absurd (variant_peel hx hy heq).1 (by decide)
    | some b => exact (variant_inj (h a) hx hy heq).imp_left (congrArg some)

/-- Lists of one length are separated item by item. -/
theorem each_append_inj {enc : Encoder ε α} {as : List α} (h : ∀ a ∈ as, Separates enc a)
    {bs : List α} (hlength : as.length = bs.length) {x y s t : Bytes} (hx : each enc as = .ok x)
    (hy : each enc bs = .ok y) (heq : x ++ s = y ++ t) : as = bs ∧ s = t := by
  induction as generalizing bs x y with
  | nil =>
    cases bs with
    | nil =>
      cases hx
      cases hy
      exact ⟨rfl, heq⟩
    | cons b bs => cases hlength
  | cons a as ih =>
    cases bs with
    | nil => cases hlength
    | cons b bs =>
      rw [List.forall_mem_cons] at h
      obtain ⟨rfl, x', y', hx', hy', heq⟩ := h.1.peel hx hy heq
      obtain ⟨rfl, hst⟩ := ih h.2 (Nat.succ.inj hlength) hx' hy' heq
      exact ⟨rfl, hst⟩

theorem separates_seq {enc : Encoder ε α} {as : List α} (h : ∀ a ∈ as, Separates enc a) :
    Separates (seq enc) as := by
  intro bs x y s t hx hy heq
  obtain ⟨hlength, x', y', hx', hy', heq⟩ := (separates_nat _).peel hx hy heq
  exact each_append_inj h hlength hx' hy' heq

theorem separates_str (text : String) : Separates (str : Encoder ε String) text := by
  intro text' x y s t hx hy heq
  obtain ⟨hsize, x', y', hx', hy', heq⟩ := (separates_nat _).peel hx hy heq
  cases hx'
  cases hy'
  obtain ⟨hdata, hst⟩ := List.append_inj heq (by simpa using hsize)
  refine ⟨String.toByteArray_inj.mp (ByteArray.ext (Array.toList_inj.mp hdata)), hst⟩

end Postcard
