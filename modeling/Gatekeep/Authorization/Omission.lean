import Gatekeep.Replay

/-!
# Gatekeep.Authorization.Omission

The checked path infers nothing from a fact that the resolution left out. Evaluation reads required
facts only, and `assemble` accepts a resolution only when it observes every required fact, so what a
bundle says about further facts changes nothing (`evaluate_extends`). When a required fact is left
out, the error names the least such fact (`receive_missing`).
-/

namespace Gatekeep

open Traced

/-- `facts'` says of every fact that `facts` has observed what `facts` says. -/
def KnownFacts.Extends (facts' facts : KnownFacts) : Prop :=
  ∀ fact, (facts.observation fact).isSome → facts'.observation fact = facts.observation fact

theorem KnownFacts.extends_insertKnown {facts : KnownFacts} {fact : FactId} {presence : Presence}
    (h : presence ≠ .unknown) (hnew : facts.observation fact = none) :
    (facts.insertKnown fact presence h).Extends facts := by
  intro other hother
  refine (Facts.observation_insertFact _ _ _ _ _).trans (if_neg ?_)
  rintro rfl
  rw [hnew] at hother
  cases hother

/-- The first element of an ordered list that passes a test is the least that does. -/
theorem find?_least {α : Type} {r : α → α → Prop} {p : α → Bool} {l : List α} {a : α}
    (hl : l.Pairwise r) (h : l.find? p = some a) : ∀ b ∈ l, p b = true → b = a ∨ r a b := by
  obtain ⟨-, before, after, rfl, hbefore⟩ := List.find?_eq_some_iff_append.mp h
  intro b hb hp
  rw [List.pairwise_append, List.pairwise_cons] at hl
  rcases List.mem_append.mp hb with hb | hb
  · have hnot := hbefore b hb
    rw [hp] at hnot
    cases hnot
  · rcases List.mem_cons.mp hb with rfl | hb
    · exact .inl rfl
    · exact .inr (hl.2.1.1 b hb)

section Omission

variable {σ Resolver R A T O : Type} [Lattice O] [DecidableEq O]

/-- A bundle that observes every required fact decides like every bundle that extends it. -/
theorem evaluate_extends {p : Policy O} {facts facts' : KnownFacts} (hext : facts'.Extends facts)
    (hobserved : ∀ fact ∈ requiredFacts p, (facts.observation fact).isSome) :
    evaluate p facts' = evaluate p facts :=
  evaluate_congr fun fact hfact => KnownFacts.presence_eq_of_observation
    (hext fact (hobserved fact (consulted_required hfact)))

omit [Lattice O] [DecidableEq O] in
/-- With a valid context and fresh facts, the least required fact that was left out is reported. -/
theorem Authorizer.receive_missing (a : Authorizer σ Resolver A) (policy : PreparedPolicy O)
    {cx : Context} {resolution : FactResolution KnownFacts} {r : OffsetDateTime}
    (hcx : cx.validateAt r = .ok ()) (hres : resolution.validateAt r = .ok ()) {fact : FactId}
    (hfact : fact ∈ requiredFacts policy.policy)
    (hnone : resolution.facts.observation fact = none) :
    ∃ least ∈ requiredFacts policy.policy, resolution.facts.observation least = none ∧
      (∀ other ∈ requiredFacts policy.policy, resolution.facts.observation other = none →
        (compare least other).isLE) ∧
      (a.receive (some policy.required) cx resolution r : Except (AuthorizationError R A) _) =
        .error (.resolve (.missingFact least)) := by
  cases hfind : policy.required.find? fun fact => (resolution.facts.observation fact).isNone with
  | none =>
    have hobserved := List.find?_eq_none.mp hfind fact (policy.mem_required.mpr hfact)
    rw [hnone] at hobserved
    exact absurd rfl hobserved
  | some least =>
    have hsorted : policy.required.Pairwise fun a b => compare a b = .lt := by
      rw [policy.required_eq]
      exact Std.ExtTreeSet.ordered_toList
    have hleft := List.find?_some hfind
    rw [Option.isNone_iff_eq_none] at hleft
    refine ⟨least, policy.mem_required.mp (List.mem_of_find?_eq_some hfind), hleft,
      fun other hother hn => ?_, ?_⟩
    · have hleast := find?_least hsorted hfind other (policy.mem_required.mpr hother)
        (Option.isNone_iff_eq_none.mpr hn)
      rcases hleast with rfl | hlt
      · exact Ordering.isLE_of_eq_eq Std.ReflCmp.compare_self
      · exact Ordering.isLE_of_eq_lt hlt
    · unfold receive
      rw [hcx, hres]
      simp only [Except.mapError, Result.ok_bind, Option.getD_some, hfind]

variable [Serialize O]

/-- The checked path infers nothing from an omitted fact. -/
theorem Authorizer.omission_never_inferred (a : Authorizer σ Resolver A)
    (policy : PreparedPolicy O) (cx : Context) (resolution : FactResolution KnownFacts) (w : σ) :
    (∀ pending, ((a.prepareResolution policy cx resolution : Run σ R A T _) w).result =
        .ok pending →
      (∀ fact ∈ FirstSeen.keys pending.decision.trace.consulted,
        (resolution.facts.observation fact).isSome) ∧
      ∀ facts' : KnownFacts, facts'.Extends resolution.facts →
        evaluate policy.policy facts' = pending.decision) ∧
    ∀ fact ∈ requiredFacts policy.policy, resolution.facts.observation fact = none →
      cx.validateAt (a.clock w).1 = .ok () → resolution.validateAt (a.clock w).1 = .ok () →
      ∃ least ∈ requiredFacts policy.policy, resolution.facts.observation least = none ∧
        (∀ other ∈ requiredFacts policy.policy, resolution.facts.observation other = none →
          (compare least other).isLE) ∧
        ((a.prepareResolution policy cx resolution : Run σ R A T _) w).result =
          .error (.resolve (.missingFact least)) := by
  constructor
  · intro pending h
    obtain ⟨r, calls, w', -, ⟨pending', hrun, hassembled⟩ | ⟨e, hrun, -⟩⟩ :=
      a.assemble_cases (R := R) (T := T) policy.policy policy.anchor (some policy.required) cx
        resolution w
    swap
    · rw [prepareResolution, hrun] at h
      cases h
    rw [prepareResolution, hrun] at h
    cases h
    have hobserved : ∀ fact ∈ requiredFacts policy.policy,
        (resolution.facts.observation fact).isSome := fun fact hfact =>
      hassembled.explicit fact (policy.mem_required.mpr hfact)
    rw [hassembled.decision]
    exact ⟨fun fact hfact => hobserved fact (consulted_required hfact),
      fun facts' hext => evaluate_extends hext hobserved⟩
  · intro fact hfact hnone hcx hres
    obtain ⟨least, hleast, hmissing, hmin, herror⟩ :=
      a.receive_missing (R := R) policy hcx hres hfact hnone
    refine ⟨least, hleast, hmissing, hmin, ?_⟩
    have hclock : (a.nowUtc : Run σ R A T _) w =
        ⟨.ok (a.clock w).1, [.now (a.clock w).1], (a.clock w).2⟩ := rfl
    rw [prepareResolution, assemble, Act.bind_of_ok hclock, herror, Act.bind_check_error]
    rfl

end Omission

namespace Sample

/-- Nothing is observed. -/
def nothingObserved : FactResolution KnownFacts :=
  { ownerObserved with
    facts := KnownFacts.new
    observations := []
    canonical := ⟨by decide, List.Pairwise.nil⟩ }

end Sample

open Sample in
theorem omission_never_inferred_owner :
    (∃ pending, ((atNoon.prepareResolution owners request ownerObserved :
        Authorizer.Run Unit Unit Unit Unit _) ()).result = .ok pending ∧
      evaluate owners.policy ((KnownFacts.new.withPresent owner).withAbsent member) =
        pending.decision) ∧
    ((atNoon.prepareResolution owners request nothingObserved :
        Authorizer.Run Unit Unit Unit Unit _) ()).result =
      .error (.resolve (.missingFact owner)) := by
  have hrequired : ∀ fact, fact ∈ requiredFacts owners.policy ↔ fact = owner := by
    intro fact
    rw [mem_requiredFacts]
    exact List.mem_singleton
  constructor
  · have hsome := ownerObserved_pending
    cases hrun : ((atNoon.prepareResolution owners request ownerObserved :
        Authorizer.Run Unit Unit Unit Unit _) ()).result with
    | error e =>
      rw [hrun] at hsome
      cases hsome
    | ok pending =>
      refine ⟨pending, rfl, ?_⟩
      exact ((atNoon.omission_never_inferred owners request ownerObserved ()).1 pending hrun).2 _
        (KnownFacts.extends_insertKnown (by decide) (by decide))
  · obtain ⟨least, hleast, -, -, herror⟩ :=
      (atNoon.omission_never_inferred (R := Unit) (T := Unit) owners request nothingObserved ()).2
        owner ((hrequired owner).mpr rfl) rfl (by decide +kernel) (by decide +kernel)
    rw [herror, (hrequired least).mp hleast]

end Gatekeep
