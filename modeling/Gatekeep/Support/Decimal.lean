import Mathlib

/-!
# Gatekeep.Support.Decimal

Decimal numbers inside longer texts. A number that is followed by something else than a digit can be
read back (`append_inj`), so a text written behind its size in bytes can be, whatever it contains
(`sized_inj`).
-/

namespace Decimal

theorem toList_toString (n : Nat) : (toString n).toList = Nat.toDigits 10 n := Nat.toList_repr

theorem isDigit_of_mem {n : Nat} {c : Char} (h : c ∈ Nat.toDigits 10 n) : c.isDigit = true :=
  Nat.isDigit_of_mem_toDigits (by decide) (by decide) h

theorem takeWhile_digits (n : Nat) {c : Char} (hc : c.isDigit = false) (r : List Char) :
    (Nat.toDigits 10 n ++ c :: r).takeWhile Char.isDigit = Nat.toDigits 10 n := by
  rw [List.takeWhile_append_of_pos fun a ha => isDigit_of_mem ha,
    List.takeWhile_cons_of_neg (by simp [hc]), List.append_nil]

/-- Two texts that begin with a number have the same number and the same rest. -/
theorem append_inj {m n : Nat} {c c' : Char} {r r' : List Char} (hc : c.isDigit = false)
    (hc' : c'.isDigit = false)
    (h : Nat.toDigits 10 m ++ c :: r = Nat.toDigits 10 n ++ c' :: r') :
    m = n ∧ c :: r = c' :: r' := by
  have hdigits : Nat.toDigits 10 m = Nat.toDigits 10 n := by
    rw [← takeWhile_digits m hc r, h, takeWhile_digits n hc' r']
  refine ⟨?_, List.append_cancel_left (hdigits ▸ h)⟩
  rw [← Nat.ofDigitChars_ten_toDigits (n := m), hdigits, Nat.ofDigitChars_ten_toDigits]

theorem append_inj_of_size {s t u v : String} (h : s ++ u = t ++ v)
    (hsize : s.utf8ByteSize = t.utf8ByteSize) : s = t ∧ u = v := by
  have hbytes := congrArg (fun w => w.toByteArray.data.toList) h
  simp only [String.toByteArray_append, ByteArray.data_append, Array.toList_append] at hbytes
  obtain ⟨hs, hu⟩ := List.append_inj hbytes hsize
  refine ⟨String.toByteArray_inj.mp ?_, String.toByteArray_inj.mp ?_⟩
  · exact ByteArray.ext (Array.toList_inj.mp hs)
  · exact ByteArray.ext (Array.toList_inj.mp hu)

/-- A text behind its size can be told from what follows it. -/
theorem sized_inj {s t u v : String}
    (h : toString s.utf8ByteSize ++ ":" ++ s ++ u = toString t.utf8ByteSize ++ ":" ++ t ++ v) :
    s = t ∧ u = v := by
  have hchars := congrArg String.toList h
  simp only [String.toList_append, toList_toString, List.append_assoc] at hchars
  obtain ⟨hsize, hrest⟩ := append_inj rfl rfl hchars
  have htext : s ++ u = t ++ v := by
    refine String.toList_inj.mp ?_
    rw [String.toList_append, String.toList_append]
    exact (List.append_right_inj [':']).mp hrest
  exact append_inj_of_size htext hsize

end Decimal
