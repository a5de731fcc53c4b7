import Gatekeep.Identity
import Gatekeep.Support.Json

/-!
# Gatekeep.Facts

Fact bundles of `facts.rs`. `Facts` is the ordered map both bundles wrap. `KnownFacts`, the input
of full evaluation, carries the invariant its public constructors keep: no entry is `unknown`.
`PartialFacts`, the input of partial evaluation, has no invariant.

A fact that is not listed reads as `absent` in both.
-/

namespace Gatekeep

/-- Opaque serialized value used only for trace and audit output. -/
abbrev TraceValue := Json

inductive Presence where
  | present
  | absent
  | unknown
deriving DecidableEq

theorem Presence.present_ne_unknown : Presence.present ≠ .unknown := by decide

theorem Presence.absent_ne_unknown : Presence.absent ≠ .unknown := by decide

/-- The explicit entries, in identity order. The stored trace value is never read here. -/
abbrev Facts := Std.ExtTreeMap FactId (Presence × Option TraceValue)

namespace Facts

def insertFact (facts : Facts) (fact : FactId) (presence : Presence) (value : Option TraceValue) :
    Facts :=
  facts.insert fact (presence, value)

def fromEntries (entries : List (FactId × Presence)) : Facts :=
  entries.foldl (fun facts e => facts.insertFact e.1 e.2 none) ∅

def observation (facts : Facts) (fact : FactId) : Option Presence :=
  facts[fact]?.map Prod.fst

def presence (facts : Facts) (fact : FactId) : Presence :=
  match facts[fact]? with
  | some (presence, _) => presence
  | none => .absent

def iter (facts : Facts) : List (FactId × Presence) :=
  facts.toList.map fun e => (e.1, e.2.1)

theorem presence_eq (facts : Facts) (fact : FactId) :
    facts.presence fact = (facts.observation fact).getD .absent := by
  unfold presence observation
  cases facts[fact]? <;> rfl

@[simp] theorem observation_empty (fact : FactId) : observation ∅ fact = none := by
  simp [observation]

theorem observation_insertFact (facts : Facts) (fact other : FactId) (presence : Presence)
    (value : Option TraceValue) :
    (facts.insertFact fact presence value).observation other =
      if fact = other then some presence else facts.observation other := by
  simp only [observation, insertFact, Std.ExtTreeMap.getElem?_insert,
    Std.LawfulEqCmp.compare_eq_iff_eq]
  split <;> rfl

theorem mem_iter {facts : Facts} {fact : FactId} {presence : Presence} :
    (fact, presence) ∈ facts.iter ↔ facts.observation fact = some presence := by
  simp only [iter, observation, List.mem_map, Prod.mk.injEq, Option.map_eq_some_iff]
  constructor
  · rintro ⟨⟨f, v⟩, hmem, rfl, rfl⟩
    exact ⟨v, Std.ExtTreeMap.mem_toList_iff_getElem?_eq_some.mp hmem, rfl⟩
  · rintro ⟨v, hv, rfl⟩
    exact ⟨(fact, v), Std.ExtTreeMap.mem_toList_iff_getElem?_eq_some.mpr hv, rfl, rfl⟩

/-- Inserting entries whose identities all differ from `fact` leaves its observation alone. -/
theorem observation_foldl_of_not_mem (entries : List (FactId × Presence)) (facts : Facts)
    (fact : FactId) (h : ∀ e ∈ entries, e.1 ≠ fact) :
    (entries.foldl (fun facts e => facts.insertFact e.1 e.2 none) facts).observation fact =
      facts.observation fact := by
  induction entries generalizing facts with
  | nil => rfl
  | cons e entries ih =>
    rw [List.foldl_cons, ih _ fun e' he' => h e' (List.mem_cons_of_mem _ he'),
      observation_insertFact, if_neg (h e List.mem_cons_self)]

/-- When every entry for `fact` carries `presence` and there is one, that is what is observed. -/
theorem observation_foldl_of_mem (entries : List (FactId × Presence)) (facts : Facts)
    (fact : FactId) (presence : Presence) (hmem : (fact, presence) ∈ entries)
    (h : ∀ e ∈ entries, e.1 = fact → e.2 = presence) :
    (entries.foldl (fun facts e => facts.insertFact e.1 e.2 none) facts).observation fact =
      some presence := by
  induction entries generalizing facts with
  | nil => cases hmem
  | cons e entries ih =>
    rw [List.foldl_cons]
    by_cases htail : (fact, presence) ∈ entries
    · exact ih _ htail fun e' he' => h e' (List.mem_cons_of_mem _ he')
    · have he : e = (fact, presence) := by
        rcases List.mem_cons.mp hmem with he | he
        · exact he.symm
        · exact absurd he htail
      subst he
      rw [observation_foldl_of_not_mem, observation_insertFact, if_pos rfl]
      rintro e' he' rfl
      have := h e' (List.mem_cons_of_mem _ he') rfl
      exact htail (by rw [← this]; exact he')

/-- Whatever holds of every presence entered into an empty bundle holds of every observation. -/
theorem observation_fromEntries_induct {P : Presence → Prop} (entries : List (FactId × Presence))
    (h : ∀ e ∈ entries, P e.2) {fact : FactId} {presence : Presence}
    (hobs : (fromEntries entries).observation fact = some presence) : P presence := by
  suffices ∀ facts : Facts, (∀ f p, facts.observation f = some p → P p) →
      ∀ f p, (entries.foldl (fun facts e => facts.insertFact e.1 e.2 none) facts).observation f =
        some p → P p from
    this ∅ (fun f p hp => by simp at hp) fact presence hobs
  clear hobs
  induction entries with
  | nil => exact fun _ hf => hf
  | cons e entries ih =>
    intro facts hf
    refine ih (fun e' he' => h e' (List.mem_cons_of_mem _ he')) _ fun f p hp => ?_
    rw [observation_insertFact] at hp
    split at hp
    · cases hp; exact h e List.mem_cons_self
    · exact hf f p hp

end Facts

/-- Fact bundle accepted by full evaluation. -/
structure KnownFacts where
  entries : Facts
  noUnknown : ∀ fact, entries.observation fact ≠ some .unknown

/-- Fact bundle accepted by partial evaluation. -/
structure PartialFacts where
  entries : Facts

namespace KnownFacts

def new : KnownFacts := ⟨∅, fun fact => by simp⟩

/-- The one way an entry is added: the presence is known. -/
def insertKnown (facts : KnownFacts) (fact : FactId) (presence : Presence)
    (h : presence ≠ .unknown) : KnownFacts where
  entries := facts.entries.insertFact fact presence none
  noUnknown other := by
    rw [Facts.observation_insertFact]
    split
    · simpa using h
    · exact facts.noUnknown other

def tryWithFact (facts : KnownFacts) (fact : FactId) (presence : Presence) :
    Except GatekeepError KnownFacts :=
  if h : presence = .unknown then
    .error (.invalidPolicyRecord "known facts cannot contain unknown presence")
  else .ok (facts.insertKnown fact presence h)

def fromEntries (entries : List (FactId × Presence)) : Except GatekeepError KnownFacts :=
  entries.foldlM (fun facts e => facts.tryWithFact e.1 e.2) new

/-- Entries of which none is unknown are all accepted. -/
theorem fromEntries_ok {entries : List (FactId × Presence)} (h : ∀ e ∈ entries, e.2 ≠ .unknown) :
    ∃ known, fromEntries entries = .ok known ∧ known.entries = Facts.fromEntries entries := by
  suffices ∀ facts : KnownFacts, ∃ known,
      entries.foldlM (fun facts e => facts.tryWithFact e.1 e.2) facts =
        (.ok known : Except GatekeepError KnownFacts) ∧
      known.entries = entries.foldl (fun facts e => facts.insertFact e.1 e.2 none) facts.entries from
    this new
  induction entries with
  | nil => exact fun facts => ⟨facts, rfl, rfl⟩
  | cons e entries ih =>
    intro facts
    rw [List.forall_mem_cons] at h
    have hstep : facts.tryWithFact e.1 e.2 = .ok (facts.insertKnown e.1 e.2 h.1) := dif_neg h.1
    rw [List.foldlM_cons, hstep]
    exact ih h.2 _

def withPresent (facts : KnownFacts) (fact : FactId) : KnownFacts :=
  facts.insertKnown fact .present Presence.present_ne_unknown

def withAbsent (facts : KnownFacts) (fact : FactId) : KnownFacts :=
  facts.insertKnown fact .absent Presence.absent_ne_unknown

def withBool (facts : KnownFacts) (fact : FactId) (value : Bool) : KnownFacts :=
  if value then facts.withPresent fact else facts.withAbsent fact

/-- The check of the hand-written `Deserialize`: a decoded map is accepted unless an entry is
unknown. -/
def deserialize (facts : Facts) : Except String KnownFacts :=
  if h : facts.iter.any (fun e => e.2 == .unknown) then
    .error "known facts cannot contain unknown presence"
  else .ok ⟨facts, fun fact hobs => h (by
    simp only [List.any_eq_true, beq_iff_eq]
    exact ⟨(fact, .unknown), Facts.mem_iter.mpr hobs, rfl⟩)⟩

def fromKnownEntries (entries : List (FactId × Presence)) : KnownFacts where
  entries := Facts.fromEntries (entries.filter fun e => e.2 != .unknown)
  noUnknown fact hobs :=
    Facts.observation_fromEntries_induct (P := fun p => p ≠ .unknown) _
      (fun e he => by simpa using (List.mem_filter.mp he).2) hobs rfl

def observation (facts : KnownFacts) (fact : FactId) : Option Presence :=
  facts.entries.observation fact

def presence (facts : KnownFacts) (fact : FactId) : Presence := facts.entries.presence fact

theorem presence_eq_of_observation {facts facts' : KnownFacts} {fact : FactId}
    (h : facts'.observation fact = facts.observation fact) :
    facts'.presence fact = facts.presence fact := by
  unfold observation at h
  rw [presence, presence, Facts.presence_eq, Facts.presence_eq, h]

theorem presence_ne_unknown (facts : KnownFacts) (fact : FactId) :
    facts.presence fact ≠ .unknown := by
  have h := facts.noUnknown fact
  rw [presence, Facts.presence_eq]
  cases hobs : facts.entries.observation fact with
  | none => simp
  | some p => rw [hobs] at h; simpa using h

theorem presence_insertKnown (facts : KnownFacts) (fact other : FactId) (p : Presence)
    (h : p ≠ .unknown) :
    (facts.insertKnown fact p h).presence other =
      if fact = other then p else facts.presence other := by
  simp only [presence, Facts.presence_eq, insertKnown, Facts.observation_insertFact]
  split <;> rfl

theorem presence_withBool (facts : KnownFacts) (fact other : FactId) (value : Bool) :
    (facts.withBool fact value).presence other =
      if fact = other then if value then .present else .absent else facts.presence other := by
  unfold withBool
  cases value <;> simp [withPresent, withAbsent, presence_insertKnown]

end KnownFacts

namespace PartialFacts

def new : PartialFacts := ⟨∅⟩

def fromEntries (entries : List (FactId × Presence)) : PartialFacts := ⟨Facts.fromEntries entries⟩

def withFact (facts : PartialFacts) (fact : FactId) (presence : Presence) : PartialFacts :=
  ⟨facts.entries.insertFact fact presence none⟩

def observation (facts : PartialFacts) (fact : FactId) : Option Presence :=
  facts.entries.observation fact

def presence (facts : PartialFacts) (fact : FactId) : Presence := facts.entries.presence fact

theorem presence_withFact (facts : PartialFacts) (fact other : FactId) (p : Presence) :
    (facts.withFact fact p).presence other = if fact = other then p else facts.presence other := by
  simp only [presence, withFact, Facts.presence_eq, Facts.observation_insertFact]
  split <;> rfl

def knownEntries (facts : PartialFacts) : List (FactId × Presence) :=
  facts.entries.iter.filter fun e => e.2 != .unknown

end PartialFacts

end Gatekeep
