import Gatekeep.Audit
import Gatekeep.Builders
import Gatekeep.Sql.Steady

/-!
# Gatekeep.RecordService.Access

The policy of the record service, `policy.rs` of the example `record-service`: three grades of
access to a record, ordinary access before emergency access, and nothing for a disabled person.

The policy is steady and carries no obligation, so its lists are its point checks.
-/

namespace Gatekeep

namespace RecordService

/-- Fields the application may disclose. -/
inductive Access where
  | released
  | shared
  | full

namespace Access

def rank : Access → Nat
  | released => 0
  | shared => 1
  | full => 2

theorem rank_injective : Function.Injective rank := by
  intro a b h
  cases a <;> cases b <;> first | rfl | cases h

end Access

instance : LinearOrder Access := LinearOrder.lift' Access.rank Access.rank_injective

instance : Lattice Access where
  meet a b := min a b
  join a b := max a b
  top := .full
  bottom := .released

instance : Lattice.Total Access where
  meet_eq_min _ _ := rfl
  join_eq_max _ _ := rfl

instance : SqlOutcome Access where
  toSqlOrdinal
    | .released => 0
    | .shared => 1
    | .full => 2

instance : SqlOutcome.Monotone Access where
  strict a b h := by
    revert h
    cases a <;> cases b <;> decide

/-- The name of a grade in JSON. -/
def Access.name : Access → String
  | .released => "released"
  | .shared => "shared"
  | .full => "full"

instance : Serialize Access where
  toValue a := .ok (.str a.name)

/-! ## The policy -/

def owner : FactId := ⟨"record.owner", by decide⟩

def shared : FactId := ⟨"record.shared", by decide⟩

def released : FactId := ⟨"record.released", by decide⟩

def emergency : FactId := ⟨"record.emergency", by decide⟩

def enabled : FactId := ⟨"person.enabled", by decide⟩

/-- Normal access takes precedence over emergency fallback, even at a lower tier. -/
def readPolicy : Except GatekeepError (Policy Access) := do
  let full ← GrantPolicy.tryLabeled (policy.grantClause .full (condition.hasId owner)) "owner"
  let participant ←
    GrantPolicy.tryLabeled (policy.grantClause .shared (condition.hasId shared)) "participant"
  let parent ←
    GrantPolicy.tryLabeled (policy.grantClause .released (condition.hasId released)) "parent"
  let ordinary := policy.any [GrantPolicy.intoPolicy full.hidden,
    GrantPolicy.intoPolicy participant.hidden, GrantPolicy.intoPolicy parent.hidden]
  let emergency ← GrantPolicy.tryLabeled
    (policy.grantClause .full (condition.hasId emergency)) "emergency-read"
  return policy.all [
    GrantPolicy.intoPolicy (policy.grantClause Access.full (condition.hasId enabled)).hidden,
    policy.orElse ordinary (GrantPolicy.intoPolicy emergency.hidden)]

/-- A hidden grant on one fact. -/
def onFact (outcome : Access) (fact : FactId) (label : Option ClauseLabel) : Policy Access :=
  .grant ⟨outcome, .has fact, label, .hidden, [], none⟩

theorem owner_nonblank : isBlank "owner" = false := by decide

/-- The policy, as `readPolicy` builds it. -/
def accessPolicy : Policy Access :=
  .all [onFact .full enabled none,
    .orElse
      (.any [onFact .full owner (some ⟨"owner", owner_nonblank⟩),
        onFact .shared shared (some ⟨"participant", by decide⟩),
        onFact .released released (some ⟨"parent", by decide⟩)])
      (onFact .full emergency (some ⟨"emergency-read", by decide⟩))]

theorem tryLabeled_value (g : GrantPolicy Access) (label : ClauseLabel) :
    GrantPolicy.tryLabeled g label.value = .ok (g.labeled label) := by
  rw [GrantPolicy.tryLabeled, OwnedId.new_value label (by decide)]
  rfl

theorem readPolicy_eq : readPolicy = .ok accessPolicy := by
  unfold readPolicy
  rw [tryLabeled_value _ ⟨"owner", owner_nonblank⟩, tryLabeled_value _ ⟨"participant", by decide⟩,
    tryLabeled_value _ ⟨"parent", by decide⟩, tryLabeled_value _ ⟨"emergency-read", by decide⟩]
  rfl

theorem steady_accessPolicy : accessPolicy.steady = true := rfl

theorem obligationFree_accessPolicy : accessPolicy.ObligationFree := by decide

/-- The access of a person about whom `v` is known: the highest ordinary grade, else the emergency
grade, and only if the person is enabled. -/
def grade (v : FactId → Bool) : Option Access :=
  if v enabled then
    if v owner then some .full
    else if v shared then some .shared
    else if v released then some .released
    else if v emergency then some .full
    else none
  else none

theorem effect_accessPolicy (known : KnownFacts) :
    (evaluate accessPolicy known).effect.outcome = grade known.truth := by
  rw [effect_evaluate]
  have hleaf : ∀ o fact label, (onFact o fact label).effect known.truth =
      if known.truth fact then .permit o else .deny := by
    intro o fact label
    cases h : known.truth fact <;>
      simp [onFact, Policy.effect, Policy.effectWith, Grant.result, grantResult, Condition.eval,
        Condition.holds, h]
  simp only [accessPolicy, Policy.effect_all, Policy.effect_any, Policy.effect_orElse,
    List.map_cons, List.map_nil, hleaf, grade]
  cases known.truth enabled <;> cases known.truth owner <;> cases known.truth shared <;>
    cases known.truth released <;> cases known.truth emergency <;> rfl

end RecordService

end Gatekeep
