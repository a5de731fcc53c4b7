import Gatekeep.Completion

/-!
# Gatekeep.Builders

The constructors of `policy.rs` and `condition.rs`, and what deny guards do.

A deny guard is a grant of the top outcome under the negated condition. Placed in front of a policy
it decides the denials (`denyGuards_first`), and otherwise it is one more permit for the meet of the
conjunction. That meet keeps its left operand on a tie, so a guard swallows the obligations of a
policy that permits the top outcome, and changes nothing else (`denyGuards_transparent`).
-/

namespace Gatekeep

namespace condition

def always : Condition := .always

def never : Condition := .never

def hasId (fact : FactId) : Condition := .has fact

def not (condition : Condition) : Condition := .not condition

/-- An empty conjunction fails closed. -/
def all (conditions : List Condition) : Condition :=
  if conditions.isEmpty then .never else .all conditions

def any (conditions : List Condition) : Condition :=
  if conditions.isEmpty then .never else .any conditions

end condition

section Methods

variable {O : Type}

namespace Grant

def labeled (g : Grant O) (label : ClauseLabel) : Grant O := { g with label := some label }

def hidden (g : Grant O) : Grant O := { g with denyShape := .hidden }

def reasoned (g : Grant O) (reason : ReasonCode) : Grant O := { g with reason := some reason }

def withObligation (g : Grant O) (obligation : ObligationId) : Grant O :=
  { g with obligations := g.obligations ++ [obligation] }

end Grant

namespace Policy

/-- The builder methods of `Policy` change a grant and leave every other policy alone. -/
def onGrant (f : Grant O → Grant O) : Policy O → Policy O
  | .grant g => .grant (f g)
  | p => p

def labeled (p : Policy O) (label : ClauseLabel) : Policy O := p.onGrant (·.labeled label)

def tryLabeled (p : Policy O) (label : String) : Except GatekeepError (Policy O) :=
  (OwnedId.new "clause_label" label).map p.labeled

def hidden (p : Policy O) : Policy O := p.onGrant Grant.hidden

def reason (p : Policy O) (reason : ReasonCode) : Policy O := p.onGrant (·.reasoned reason)

def tryReason (p : Policy O) (reason : String) : Except GatekeepError (Policy O) :=
  (OwnedId.new "reason_code" reason).map p.reason

def withObligation (p : Policy O) (obligation : ObligationId) : Policy O :=
  p.onGrant (·.withObligation obligation)

end Policy

/-- The grant-only builder holds the fields of a grant. -/
abbrev GrantPolicy := Grant

def GrantPolicy.tryLabeled (g : GrantPolicy O) (label : String) :
    Except GatekeepError (GrantPolicy O) :=
  (OwnedId.new "clause_label" label).map g.labeled

def GrantPolicy.intoPolicy (g : GrantPolicy O) : Policy O := .grant g

end Methods

namespace policy

variable {O : Type}

def permit (outcome : O) : Policy O := .permit outcome

def deny : Policy O := .deny

def grantClause (outcome : O) (condition : Condition) : GrantPolicy O :=
  ⟨outcome, condition, none, .forbidden, [], none⟩

def grant (outcome : O) (condition : Condition) : Policy O :=
  .grant ⟨outcome, condition, none, .forbidden, [], none⟩

def denyWhen [Lattice O] (cond : Condition) (reason : ReasonCode) : Policy O :=
  (grant Lattice.top (condition.not cond)).reason reason

/-- An empty conjunction fails closed. -/
def all (policies : List (Policy O)) : Policy O :=
  if policies.isEmpty then .deny else .all policies

def any (policies : List (Policy O)) : Policy O :=
  if policies.isEmpty then .deny else .any policies

def orElse (primary fallback : Policy O) : Policy O := .orElse primary fallback

end policy

/-! ## Deny guards -/

section Guards

variable {O : Type} [Lattice O] [DecidableEq O]

/-- A policy behind the guards `deny_when(condition, reason)`. -/
def guarded (guards : List (Condition × ReasonCode)) (p : Policy O) : Policy O :=
  policy.all (guards.map (fun g => policy.denyWhen g.1 g.2) ++ [p])

/-- The first guard whose condition holds. -/
def firstFired (facts : KnownFacts) (guards : List (Condition × ReasonCode)) :
    Option (Condition × ReasonCode) :=
  guards.find? fun g => g.1.holds facts.truth

/-- What a guard evaluates to. -/
def guardResult (v : FactId → Bool) (g : Condition × ReasonCode) : EvalResult O :=
  if g.1.holds v then
    ⟨.deny, [], .deny (some Lattice.top) (g.1.decisive v) none (some g.2) .forbidden⟩
  else ⟨.permit Lattice.top, [], .permit Lattice.top (g.1.decisive v) none⟩

theorem result_denyWhen (v : FactId → Bool) (g : Condition × ReasonCode) :
    (policy.denyWhen g.1 g.2 : Policy O).result v = guardResult v g := by
  show grantResult _ _ = _
  unfold guardResult grantResult
  cases h : g.1.holds v <;>
    simp [Condition.eval, condition.not, Grant.reasoned, Condition.holds, Condition.decisive, h]

theorem result_guarded (v : FactId → Bool) (guards : List (Condition × ReasonCode))
    (p : Policy O) :
    (guarded guards p).result v =
      EvalResult.all (guards.map (guardResult v) ++ [p.result v]) := by
  rw [guarded, policy.all, if_neg (by simp), Policy.result, Policy.resultWith,
    Policy.resultsWith_eq_map, List.map_append, List.map_map]
  congr 2
  exact List.map_congr_left fun g _ => result_denyWhen v g

/-- The first guard that fires decides. -/
theorem denyGuards_first {v : FactId → Bool} {guards : List (Condition × ReasonCode)}
    {g : Condition × ReasonCode} (h : guards.find? (fun g => g.1.holds v) = some g)
    (rs : List (EvalResult O)) :
    ∀ acc, EvalResult.allFrom acc (guards.map (guardResult v) ++ rs) = guardResult v g := by
  induction guards with
  | nil => cases h
  | cons g' guards ih =>
    intro acc
    rw [List.map_cons, List.cons_append]
    cases hg : g'.1.holds v with
    | true =>
      rw [List.find?_cons_of_pos (by simpa using hg)] at h
      cases h
      exact EvalResult.allFrom_deny (by simp [guardResult, hg])
    | false =>
      rw [List.find?_cons_of_neg (by simp [hg])] at h
      rw [EvalResult.allFrom_permit (o := Lattice.top) (by simp [guardResult, hg])]
      exact ih h _

variable (top_meet : ∀ o : O, Lattice.meet Lattice.top o = o)

include top_meet in
/-- Guards that do not fire leave a permit of the top outcome without obligations. -/
theorem denyGuards_pass {v : FactId → Bool} {guards : List (Condition × ReasonCode)}
    (h : guards.find? (fun g => g.1.holds v) = none) (rs : List (EvalResult O)) :
    ∀ p : Permit O, p.outcome = Lattice.top →
      EvalResult.allFrom (some p) (guards.map (guardResult v) ++ rs) =
        EvalResult.allFrom (some p) rs := by
  induction guards with
  | nil => exact fun _ _ => rfl
  | cons g guards ih =>
    intro p hp
    have hg : g.1.holds v = false := by
      simpa using List.find?_eq_none.mp h g List.mem_cons_self
    rw [List.find?_cons_of_neg (by simp [hg])] at h
    rw [List.map_cons, List.cons_append,
      EvalResult.allFrom_permit (o := Lattice.top) (by simp [guardResult, hg])]
    have hkeep : p.meet ⟨Lattice.top, (guardResult v g : EvalResult O).obligations,
        (guardResult v g : EvalResult O).decisive⟩ = p := by
      unfold Permit.meet
      simp [hp, top_meet]
    rw [Option.map_some, Option.getD_some, hkeep]
    exact ih h p hp

include top_meet in
/-- Behind guards that do not fire, a policy keeps its effect, and keeps its obligations unless it
permits the top outcome. -/
theorem result_guarded_pass {v : FactId → Bool} {guards : List (Condition × ReasonCode)}
    (hne : guards ≠ []) (h : guards.find? (fun g => g.1.holds v) = none) (p : Policy O) :
    ((guarded guards p).result v).effect = (p.result v).effect ∧
      ((guarded guards p).result v).obligations =
        if (p.result v).effect = .permit Lattice.top then [] else (p.result v).obligations := by
  obtain ⟨g, guards, rfl⟩ := List.exists_cons_of_ne_nil hne
  have hg : g.1.holds v = false := by
    simpa using List.find?_eq_none.mp h g List.mem_cons_self
  rw [List.find?_cons_of_neg (by simp [hg])] at h
  rw [result_guarded, List.map_cons, List.cons_append, EvalResult.all,
    EvalResult.allFrom_permit (o := Lattice.top) (by simp [guardResult, hg])]
  simp only [Option.map_none, Option.getD_none]
  rw [denyGuards_pass top_meet h _ _ rfl]
  cases he : (p.result v).effect with
  | deny =>
    rw [EvalResult.allFrom_deny he]
    exact ⟨he, by simp⟩
  | permit o =>
    rw [EvalResult.allFrom_permit he, EvalResult.allFrom_nil]
    simp only [Option.map_some, Option.getD_some, Permit.intoResult, Permit.meet, top_meet]
    by_cases ho : o = Lattice.top
    · simp [ho, guardResult, hg]
    · simp [ho]

include top_meet in
/-- Guards deny for the first condition that holds, and are transparent otherwise, exactly when `p`
does not permit the top outcome with an obligation behind guards that all pass. -/
theorem denyGuards_transparent (guards : List (Condition × ReasonCode)) (hne : guards ≠ [])
    (p : Policy O) (facts : KnownFacts) :
    ((∀ g, firstFired facts guards = some g →
        (evaluate (guarded guards p) facts).effect = .deny ∧
        (evaluate (guarded guards p) facts).trace.decisive.reason = some g.2) ∧
      (firstFired facts guards = none →
        (evaluate (guarded guards p) facts).effect = (evaluate p facts).effect ∧
        ∀ o, o ∈ (evaluate (guarded guards p) facts).obligations ↔
          o ∈ (evaluate p facts).obligations)) ↔
      ¬(firstFired facts guards = none ∧ (evaluate p facts).effect = .permit Lattice.top ∧
        (evaluate p facts).obligations ≠ []) := by
  have hfired : ∀ g, firstFired facts guards = some g →
      (evaluate (guarded guards p) facts).effect = .deny ∧
        (evaluate (guarded guards p) facts).trace.decisive.reason = some g.2 := by
    intro g hg
    have hr : (guarded guards p).result facts.truth = guardResult facts.truth g := by
      rw [result_guarded]
      exact denyGuards_first hg _ none
    have hh : g.1.holds facts.truth = true := by simpa using List.find?_some hg
    rw [evaluate_eq, hr]
    simp [guardResult, hh, DecisiveClause.reason]
  have hpass : firstFired facts guards = none →
      (evaluate (guarded guards p) facts).effect = (evaluate p facts).effect ∧
        (evaluate (guarded guards p) facts).obligations =
          if (evaluate p facts).effect = .permit Lattice.top then []
          else (evaluate p facts).obligations := by
    intro hnone
    have := result_guarded_pass top_meet hne hnone p
    simpa only [evaluate_eq] using this
  constructor
  · rintro ⟨-, htransparent⟩ ⟨hnone, htop, hobs⟩
    obtain ⟨o, ho⟩ := List.exists_mem_of_ne_nil _ hobs
    have hkept := ((htransparent hnone).2 o).mpr ho
    rw [(hpass hnone).2, if_pos htop] at hkept
    cases hkept
  · intro hcond
    refine ⟨hfired, fun hnone => ⟨(hpass hnone).1, fun o => ?_⟩⟩
    rw [(hpass hnone).2]
    split
    · rename_i htop
      rw [not_not.mp fun hobs => hcond ⟨hnone, htop, hobs⟩]
    · exact Iff.rfl

end Guards

namespace Sample

def suspended : FactId := ⟨"suspended", by decide⟩
def accountSuspended : ReasonCode := ⟨"account_suspended", by decide⟩

/-- Owner access that must be logged. -/
def loggedOwner : Policy Unit := grantIf (.has owner) [logAccess]

/-- Shared access of the owner, which is below the top outcome. -/
def loggedShared : Policy Tier :=
  .grant ⟨.shared, .has owner, none, .forbidden, [logAccess], none⟩

end Sample

open Sample in
theorem denyGuards_transparent_suspended :
    ((∀ g, firstFired (KnownFacts.new.withPresent owner)
          [(.has suspended, accountSuspended)] = some g →
        (evaluate (guarded [(.has suspended, accountSuspended)] loggedShared)
          (KnownFacts.new.withPresent owner)).effect = .deny ∧
        (evaluate (guarded [(.has suspended, accountSuspended)] loggedShared)
          (KnownFacts.new.withPresent owner)).trace.decisive.reason = some g.2) ∧
      (firstFired (KnownFacts.new.withPresent owner) [(.has suspended, accountSuspended)] = none →
        (evaluate (guarded [(.has suspended, accountSuspended)] loggedShared)
            (KnownFacts.new.withPresent owner)).effect =
          (evaluate loggedShared (KnownFacts.new.withPresent owner)).effect ∧
        ∀ o, o ∈ (evaluate (guarded [(.has suspended, accountSuspended)] loggedShared)
            (KnownFacts.new.withPresent owner)).obligations ↔
          o ∈ (evaluate loggedShared (KnownFacts.new.withPresent owner)).obligations)) ↔
      ¬(firstFired (KnownFacts.new.withPresent owner) [(.has suspended, accountSuspended)] = none ∧
        (evaluate loggedShared (KnownFacts.new.withPresent owner)).effect = .permit Lattice.top ∧
        (evaluate loggedShared (KnownFacts.new.withPresent owner)).obligations ≠ []) :=
  denyGuards_transparent (fun _ => rfl) _ (by simp) _ _

open Sample in
/-- A guard that does not fire drops the obligation of the grant behind it. -/
theorem denyGuards_not_transparent :
    ¬ ∀ (O : Type) [Lattice O] [DecidableEq O] (_ : ∀ o : O, Lattice.meet Lattice.top o = o)
      (guards : List (Condition × ReasonCode)) (_ : guards ≠ []) (p : Policy O)
      (facts : KnownFacts),
      (∀ g, firstFired facts guards = some g →
        (evaluate (guarded guards p) facts).effect = .deny ∧
        (evaluate (guarded guards p) facts).trace.decisive.reason = some g.2) ∧
      (firstFired facts guards = none →
        (evaluate (guarded guards p) facts).effect = (evaluate p facts).effect ∧
        ∀ o, o ∈ (evaluate (guarded guards p) facts).obligations ↔
          o ∈ (evaluate p facts).obligations) := by
  intro h
  have hkept := ((h Unit (fun _ => rfl) [(.has suspended, accountSuspended)] (by simp) loggedOwner
    (KnownFacts.new.withPresent owner)).2 (by decide)).2 logAccess
  revert hkept
  decide

end Gatekeep
