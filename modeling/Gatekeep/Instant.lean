import Mathlib

/-!
# Gatekeep.Instant

The calendar type of the `time` crate as far as Gatekeep uses it: an instant with whole-second UTC
offset. Instants are compared by what they denote, whatever their offset.
-/

namespace Gatekeep

/-- Seconds of -9999-01-01T00:00:00 and of 9999-12-31T23:59:59, counted from the Unix epoch. -/
def minLocalSeconds : Int := -377705116800

def maxLocalSeconds : Int := 253402300799

/-- `u32::checked_sub`. -/
def checkedSub (a b : Nat) : Option Nat := if b ≤ a then some (a - b) else none

theorem checkedSub_mod (n k : Nat) : checkedSub n (n % k) = some (n - n % k) :=
  if_pos (Nat.mod_le n k)

/-- `OffsetDateTime`: the local date and time must lie in the calendar's range. -/
@[ext] structure OffsetDateTime where
  seconds : Int
  nano : Nat
  offset : Int
  nano_lt : nano < 1000000000
  offset_bound : -93599 ≤ offset ∧ offset ≤ 93599
  inRange : minLocalSeconds ≤ seconds + offset ∧ seconds + offset ≤ maxLocalSeconds
deriving DecidableEq

namespace OffsetDateTime

def unixTimestamp (t : OffsetDateTime) : Int := t.seconds

def nanosecond (t : OffsetDateTime) : Nat := t.nano

/-- Nanoseconds since the Unix epoch. -/
def instant (t : OffsetDateTime) : Int := t.seconds * 1000000000 + t.nano

instance : LE OffsetDateTime := ⟨fun a b => a.instant ≤ b.instant⟩

instance : LT OffsetDateTime := ⟨fun a b => a.instant < b.instant⟩

instance (a b : OffsetDateTime) : Decidable (a ≤ b) := inferInstanceAs (Decidable (_ ≤ _))

instance (a b : OffsetDateTime) : Decidable (a < b) := inferInstanceAs (Decidable (_ < _))

instance : Preorder OffsetDateTime where
  le_refl a := Int.le_refl a.instant
  le_trans _ _ _ hab hbc := Int.le_trans hab hbc
  lt_iff_le_not_ge _ _ := Int.lt_iff_le_and_not_ge

protected theorem not_lt {a b : OffsetDateTime} : ¬a < b ↔ b ≤ a := Int.not_lt

protected theorem not_le {a b : OffsetDateTime} : ¬a ≤ b ↔ b < a := Int.not_le

/-- `Ord::min`, which prefers the first of two equal instants. -/
def min (a b : OffsetDateTime) : OffsetDateTime := if a ≤ b then a else b

theorem lt_min {t a b : OffsetDateTime} : t < a.min b ↔ t < a ∧ t < b := by
  unfold min
  split
  · rename_i hle
    exact ⟨fun h => ⟨h, lt_of_lt_of_le h hle⟩, fun h => h.1⟩
  · rename_i hle
    have hlt := OffsetDateTime.not_le.mp hle
    exact ⟨fun h => ⟨lt_trans h hlt, h⟩, fun h => h.2⟩

/-- `replace_nanosecond`; the crate refuses a value out of range. -/
def replaceNanosecond (t : OffsetDateTime) (n : Nat) : Option OffsetDateTime :=
  if h : n < 1000000000 then some { t with nano := n, nano_lt := h } else none

theorem seconds_replaceNanosecond {t t' : OffsetDateTime} {n : Nat}
    (h : t.replaceNanosecond n = some t') : t'.seconds = t.seconds := by
  unfold replaceNanosecond at h
  split at h
  · cases h
    rfl
  · cases h

theorem zero_nano_lt : 0 < 1000000000 := by decide

theorem zero_offset_bound : -93599 ≤ (0 : Int) ∧ (0 : Int) ≤ 93599 := by decide

/-- `from_unix_timestamp`. -/
def fromUnixTimestamp (seconds : Int) : Option OffsetDateTime :=
  if h : minLocalSeconds ≤ seconds ∧ seconds ≤ maxLocalSeconds then
    some {
      seconds, nano := 0, offset := 0
      nano_lt := zero_nano_lt
      offset_bound := zero_offset_bound
      inRange := by simpa using h }
  else none

/-- `to_offset(UtcOffset::UTC)` of a time whose UTC date is in range. -/
def toUtc (t : OffsetDateTime) (h : minLocalSeconds ≤ t.seconds ∧ t.seconds ≤ maxLocalSeconds) :
    OffsetDateTime :=
  { t with
    offset := 0
    offset_bound := zero_offset_bound
    inRange := by simpa using h }

end OffsetDateTime

end Gatekeep
