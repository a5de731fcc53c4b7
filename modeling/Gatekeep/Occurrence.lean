import Gatekeep.Context

/-!
# Gatekeep.Occurrence

The normalization of an occurrence time, `DecisionAuditOccurrence::new`. A portable instant is one
of the years from 1970 up to 9999 (`portable_iff`). The constructor accepts exactly these, for an
ordinary identity, and rounds them down to a whole microsecond of UTC; so what it makes depends on
the instant alone, in order, and is made again of itself (`occurrence_normalizes`).
-/

namespace Gatekeep

/-- The days between January 1 of year 1 and January 1 of a year. -/
def daysBefore (year : Nat) : Nat :=
  365 * (year - 1) + (year - 1) / 4 - (year - 1) / 100 + (year - 1) / 400

/-- The instant at which a year begins in UTC. -/
def yearStart (year : Nat) : Int :=
  ((daysBefore year : Int) - daysBefore 1970) * 86400 * 1000000000

theorem yearStart_1970 : yearStart 1970 = 0 := by decide

theorem yearStart_10000 : yearStart 10000 = 253402300800 * 1000000000 := by decide

namespace OffsetDateTime

/-- An instant has one second and one nanosecond. -/
theorem parts_of_instant {a b : OffsetDateTime} (h : a.instant = b.instant) :
    a.seconds = b.seconds ∧ a.nano = b.nano := by
  have ha := a.nano_lt
  have hb := b.nano_lt
  unfold instant at h
  omega

end OffsetDateTime

namespace DecisionAuditOccurrence

open OffsetDateTime

/-- The seconds that the constructor accepts are those of the years 1970 to 9999. -/
theorem portable_iff (t : OffsetDateTime) :
    0 ≤ t.unixTimestamp ∧ t.unixTimestamp ≤ maxPortableUnixSeconds ↔
      yearStart 1970 ≤ t.instant ∧ t.instant < yearStart 10000 := by
  have hlt := t.nano_lt
  rw [yearStart_1970, yearStart_10000]
  simp only [unixTimestamp, maxPortableUnixSeconds, instant]
  omega

theorem new_eq_ok_iff {id : DecisionAuditId} {t : OffsetDateTime} :
    (∃ o, new id t = .ok o) ↔ startsWith id.value "legacy-" = false ∧
      yearStart 1970 ≤ t.instant ∧ t.instant < yearStart 10000 := by
  rw [← portable_iff]
  constructor
  · rintro ⟨o, h⟩
    exact ⟨(new_eq_ok h).1, range_of_new h⟩
  · rintro ⟨hlegacy, hrange⟩
    exact new_of_range hlegacy hrange

/-- The stored instant is the given one rounded down to a whole microsecond. -/
theorem instant_of_new {id : DecisionAuditId} {t : OffsetDateTime} {o : DecisionAuditOccurrence}
    (h : new id t = .ok o) : o.occurredAt.instant = t.instant / 1000 * 1000 := by
  obtain ⟨-, -, hseconds, hnano, -⟩ := new_eq_ok h
  unfold instant
  rw [hseconds, hnano]
  omega

/-- The constructor reads the second and the nanosecond, so the offset makes no difference. -/
theorem new_congr (id : DecisionAuditId) {t t' : OffsetDateTime} (h : t'.instant = t.instant) :
    new id t' = new id t := by
  obtain ⟨hseconds, hnano⟩ := parts_of_instant h
  by_cases hlegacy : startsWith id.value "legacy-" = true
  · unfold new
    rw [if_pos hlegacy, if_pos hlegacy]
  by_cases hrange : 0 ≤ t.unixTimestamp ∧ t.unixTimestamp ≤ maxPortableUnixSeconds
  · have hrange' : 0 ≤ t'.unixTimestamp ∧ t'.unixTimestamp ≤ maxPortableUnixSeconds := by
      unfold unixTimestamp
      rw [hseconds]
      exact hrange
    rw [Bool.not_eq_true] at hlegacy
    obtain ⟨o, ho⟩ := new_of_range hlegacy hrange
    obtain ⟨o', ho'⟩ := new_of_range hlegacy hrange'
    obtain ⟨-, hid, hs, hn, hutc⟩ := new_eq_ok ho
    obtain ⟨-, hid', hs', hn', hutc'⟩ := new_eq_ok ho'
    have htime : o'.occurredAt = o.occurredAt := by
      refine OffsetDateTime.ext ?_ ?_ (hutc'.trans hutc.symm)
      · rw [hs', hs, hseconds]
      · rw [hn', hn, hnano]
    rw [ho, ho', DecisionAuditOccurrence.ext (hid'.trans hid.symm) htime]
  · have hrange' : ¬(0 ≤ t'.unixTimestamp ∧ t'.unixTimestamp ≤ maxPortableUnixSeconds) := by
      unfold unixTimestamp
      rw [hseconds]
      exact hrange
    unfold new
    rw [if_neg hlegacy, if_neg hlegacy, dif_neg hrange, dif_neg hrange']

/-- Rounding down keeps the order of instants. -/
theorem new_mono {id id' : DecisionAuditId} {t t' : OffsetDateTime} {o o' : DecisionAuditOccurrence}
    (hle : t ≤ t') (h : new id t = .ok o) (h' : new id' t' = .ok o') :
    o.occurredAt ≤ o'.occurredAt := by
  show o.occurredAt.instant ≤ o'.occurredAt.instant
  rw [instant_of_new h, instant_of_new h']
  have hinstant : t.instant ≤ t'.instant := hle
  omega

/-- A portable instant of an ordinary identity, and no other, becomes an occurrence: at the same
instant rounded down to a whole microsecond, in UTC, which is valid and made again of itself. The
offset of the instant makes no difference and its order is kept. Of the errors after the range check
none is ever returned. -/
theorem occurrence_normalizes (id : DecisionAuditId) (t : OffsetDateTime) :
    ((∃ o, new id t = .ok o) ↔ startsWith id.value "legacy-" = false ∧
      yearStart 1970 ≤ t.instant ∧ t.instant < yearStart 10000) ∧
    (∀ o, new id t = .ok o → o.decisionAuditId = id ∧
      o.occurredAt.instant = t.instant / 1000 * 1000 ∧ o.occurredAt.offset = 0 ∧
      o.validate = .ok () ∧ new o.decisionAuditId o.occurredAt = .ok o) ∧
    (∀ t', t'.instant = t.instant → new id t' = new id t) ∧
    (∀ id' t' o o', t ≤ t' → new id t = .ok o → new id' t' = .ok o' →
      o.occurredAt ≤ o'.occurredAt) ∧
    ∃ normalizedNanosecond normalized,
      checkedSub t.nanosecond (t.nanosecond % 1000) = some normalizedNanosecond ∧
      normalizedNanosecond ≤ 999999000 ∧
      t.replaceNanosecond normalizedNanosecond = some normalized := by
  refine ⟨new_eq_ok_iff, fun o h => ?_, fun t' => new_congr id,
    fun id' t' o o' hle h h' => new_mono hle h h', ?_⟩
  · obtain ⟨-, hid, -, -, hutc⟩ := new_eq_ok h
    have hvalid := validate_of_new h
    exact ⟨hid, instant_of_new h, hutc, hvalid, new_of_validate hvalid⟩
  · have hfloor := floor_le t
    have hlt : t.nanosecond - t.nanosecond % 1000 < 1000000000 := by omega
    exact ⟨_, _, checkedSub_mod _ _, hfloor, dif_pos hlt⟩

end DecisionAuditOccurrence

end Gatekeep
