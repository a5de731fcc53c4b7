import Gatekeep.Evaluate
import Gatekeep.Support.Result

/-!
# Gatekeep.Fold

The traversals of a residual policy in `policy_model.rs`. A visitor may keep state or fail, so
each traversal runs in an arbitrary monad `m`: the visitor's calls happen in the order in which the
source makes them, and an error stops the traversal when `m` can fail.

`carriesObligation` is a fold without effects.
-/

namespace Gatekeep

/-- A node as the visitor sees it: the children's outputs beside the source children. -/
inductive ResidualPolicyNode (O T : Type) where
  | permit (outcome : O)
  | deny
  | permitWithTrace (outcome : O) (obligations : List ObligationId) (satisfied : List FactId)
      (label : Option ClauseLabel)
  | denyWithTrace (denied : Option O) (unsatisfied : List FactId) (label : Option ClauseLabel)
      (reason : Option ReasonCode) (shape : DenyShape)
  | grant (g : Grant O)
  | all (policies : List (ResidualPolicy O)) (arms : List T)
  | any (policies : List (ResidualPolicy O)) (arms : List T)
  | orElse (primaryPolicy fallbackPolicy : ResidualPolicy O) (primary : T) (fallback : Option T)

/-- The branch a pruned traversal may skip. -/
inductive ResidualPolicyBranch (O : Type) where
  | orElseFallback (primary fallback : ResidualPolicy O)

namespace ResidualPolicy

variable {O T : Type} {m : Type → Type} [Monad m]

def isPermitConstant : ResidualPolicy O → Bool
  | .permit _ | .permitWithTrace .. => true
  | _ => false

def isDenyConstant : ResidualPolicy O → Bool
  | .deny | .denyWithTrace .. => true
  | _ => false

def isConstant (r : ResidualPolicy O) : Bool := r.isPermitConstant || r.isDenyConstant

mutual

/-- Fold bottom-up; the visitor may keep state. -/
def fold (visitor : ResidualPolicyNode O T → m T) : ResidualPolicy O → m T
  | .permit outcome => visitor (.permit outcome)
  | .deny => visitor .deny
  | .permitWithTrace outcome obligations satisfied label =>
    visitor (.permitWithTrace outcome obligations satisfied label)
  | .denyWithTrace denied unsatisfied label reason shape =>
    visitor (.denyWithTrace denied unsatisfied label reason shape)
  | .grant g => visitor (.grant g)
  | .all policies => do
    let arms ← foldArms visitor policies
    visitor (.all policies arms)
  | .any policies => do
    let arms ← foldArms visitor policies
    visitor (.any policies arms)
  | .orElse primary fallback => do
    let primaryOutput ← fold visitor primary
    let fallbackOutput ← fold visitor fallback
    visitor (.orElse primary fallback primaryOutput (some fallbackOutput))

def foldArms (visitor : ResidualPolicyNode O T → m T) : List (ResidualPolicy O) → m (List T)
  | [] => pure []
  | policy :: policies => do
    let arm ← fold visitor policy
    let arms ← foldArms visitor policies
    pure (arm :: arms)

end

mutual

/-- Fold bottom-up; the visitor may fail. -/
def tryFold (visitor : ResidualPolicyNode O T → m T) : ResidualPolicy O → m T
  | .permit outcome => visitor (.permit outcome)
  | .deny => visitor .deny
  | .permitWithTrace outcome obligations satisfied label =>
    visitor (.permitWithTrace outcome obligations satisfied label)
  | .denyWithTrace denied unsatisfied label reason shape =>
    visitor (.denyWithTrace denied unsatisfied label reason shape)
  | .grant g => visitor (.grant g)
  | .all policies => do
    let arms ← tryFoldArms visitor policies
    visitor (.all policies arms)
  | .any policies => do
    let arms ← tryFoldArms visitor policies
    visitor (.any policies arms)
  | .orElse primary fallback => do
    let primaryOutput ← tryFold visitor primary
    let fallbackOutput ← tryFold visitor fallback
    visitor (.orElse primary fallback primaryOutput (some fallbackOutput))

def tryFoldArms (visitor : ResidualPolicyNode O T → m T) : List (ResidualPolicy O) → m (List T)
  | [] => pure []
  | policy :: policies => do
    let arm ← tryFold visitor policy
    let arms ← tryFoldArms visitor policies
    pure (arm :: arms)

end

mutual

/-- Fold bottom-up, skipping the fallbacks that `shouldDescend` rejects. -/
def tryFoldPruned (shouldDescend : ResidualPolicyBranch O → m Bool)
    (visitor : ResidualPolicyNode O T → m T) : ResidualPolicy O → m T
  | .permit outcome => visitor (.permit outcome)
  | .deny => visitor .deny
  | .permitWithTrace outcome obligations satisfied label =>
    visitor (.permitWithTrace outcome obligations satisfied label)
  | .denyWithTrace denied unsatisfied label reason shape =>
    visitor (.denyWithTrace denied unsatisfied label reason shape)
  | .grant g => visitor (.grant g)
  | .all policies => do
    let arms ← tryFoldPrunedArms shouldDescend visitor policies
    visitor (.all policies arms)
  | .any policies => do
    let arms ← tryFoldPrunedArms shouldDescend visitor policies
    visitor (.any policies arms)
  | .orElse primary fallback => do
    let primaryOutput ← tryFoldPruned shouldDescend visitor primary
    if ← shouldDescend (.orElseFallback primary fallback) then
      let fallbackOutput ← tryFoldPruned shouldDescend visitor fallback
      visitor (.orElse primary fallback primaryOutput (some fallbackOutput))
    else visitor (.orElse primary fallback primaryOutput none)

def tryFoldPrunedArms (shouldDescend : ResidualPolicyBranch O → m Bool)
    (visitor : ResidualPolicyNode O T → m T) : List (ResidualPolicy O) → m (List T)
  | [] => pure []
  | policy :: policies => do
    let arm ← tryFoldPruned shouldDescend visitor policy
    let arms ← tryFoldPrunedArms shouldDescend visitor policies
    pure (arm :: arms)

end

/-- The visitor of `carries_obligation`. -/
def carriesObligationNode : ResidualPolicyNode O Bool → Bool
  | .permitWithTrace _ obligations _ _ => !obligations.isEmpty
  | .grant g => !g.obligations.isEmpty
  | .permit _ | .deny | .denyWithTrace .. => false
  | .all _ arms | .any _ arms => arms.any id
  | .orElse _ _ primary fallback => primary || fallback.getD false

/-- Whether any possible permit carries an obligation. -/
def carriesObligation (r : ResidualPolicy O) : Bool :=
  Id.run (r.fold fun node => pure (carriesObligationNode node))

theorem foldArms_id (visitor : ResidualPolicyNode O T → T) (rs : List (ResidualPolicy O)) :
    Id.run (foldArms (fun node => pure (visitor node)) rs) =
      rs.map fun r => Id.run (r.fold fun node => pure (visitor node)) := by
  induction rs with
  | nil => rfl
  | cons r rs ih =>
    rw [List.map_cons, ← ih]
    rfl

section Carries

variable (o : O) (g : Grant O) (obs : List ObligationId) (facts : List FactId)
  (label : Option ClauseLabel) (rs : List (ResidualPolicy O)) (r r' : ResidualPolicy O)

@[simp] theorem carriesObligation_permit : carriesObligation (.permit o) = false := rfl

@[simp] theorem carriesObligation_deny : carriesObligation (.deny : ResidualPolicy O) = false := rfl

@[simp] theorem carriesObligation_permitWithTrace :
    carriesObligation (.permitWithTrace o obs facts label) = !obs.isEmpty := rfl

@[simp] theorem carriesObligation_denyWithTrace (denied : Option O) (reason : Option ReasonCode)
    (shape : DenyShape) :
    carriesObligation (.denyWithTrace denied facts label reason shape) = false := rfl

@[simp] theorem carriesObligation_grant : carriesObligation (.grant g) = !g.obligations.isEmpty :=
  rfl

@[simp] theorem carriesObligation_all :
    carriesObligation (.all rs) = rs.any carriesObligation := by
  show (Id.run (foldArms _ rs)).any id = _
  rw [foldArms_id, List.any_map]
  rfl

@[simp] theorem carriesObligation_any :
    carriesObligation (.any rs) = rs.any carriesObligation := by
  show (Id.run (foldArms _ rs)).any id = _
  rw [foldArms_id, List.any_map]
  rfl

@[simp] theorem carriesObligation_orElse :
    carriesObligation (.orElse r r') = (r.carriesObligation || r'.carriesObligation) := rfl

end Carries

/-! ## The rule for a pruned traversal that succeeds -/

section Rule

variable {ε : Type} {descend : ResidualPolicyBranch O → Bool}
  {visitor : ResidualPolicyNode O T → Except ε T} {P : ResidualPolicy O → T → Prop}

theorem tryFoldPrunedArms_ok {rs : List (ResidualPolicy O)}
    (ih : ∀ r ∈ rs, ∀ t, r.tryFoldPruned (fun b => .ok (descend b)) visitor = .ok t → P r t) :
    ∀ ts, tryFoldPrunedArms (fun b => .ok (descend b)) visitor rs = .ok ts →
      List.Forall₂ P rs ts := by
  induction rs with
  | nil =>
    intro ts h
    cases h
    exact .nil
  | cons r rs ihrs =>
    intro ts h
    rw [tryFoldPrunedArms] at h
    obtain ⟨t, ht, h⟩ := Result.bind_eq_ok.mp h
    obtain ⟨ts', hts, h⟩ := Result.bind_eq_ok.mp h
    cases h
    exact .cons (ih r List.mem_cons_self t ht)
      (ihrs (fun r' hr' => ih r' (List.mem_cons_of_mem _ hr')) ts' hts)

/-- What the visitor establishes at each kind of node, from what it established of the children it
was given, holds of the whole output. -/
theorem tryFoldPruned_ok
    (permit : ∀ o t, visitor (.permit o) = .ok t → P (.permit o) t)
    (deny : ∀ t, visitor .deny = .ok t → P .deny t)
    (permitWithTrace : ∀ o obs facts label t, visitor (.permitWithTrace o obs facts label) = .ok t →
      P (.permitWithTrace o obs facts label) t)
    (denyWithTrace : ∀ o facts label reason shape t,
      visitor (.denyWithTrace o facts label reason shape) = .ok t →
      P (.denyWithTrace o facts label reason shape) t)
    (grant : ∀ g t, visitor (.grant g) = .ok t → P (.grant g) t)
    (all : ∀ rs ts t, List.Forall₂ P rs ts → visitor (.all rs ts) = .ok t → P (.all rs) t)
    (any : ∀ rs ts t, List.Forall₂ P rs ts → visitor (.any rs ts) = .ok t → P (.any rs) t)
    (orElse : ∀ primary fallback tp tf t,
      primary.tryFoldPruned (fun b => .ok (descend b)) visitor = .ok tp → P primary tp →
      P fallback tf → descend (.orElseFallback primary fallback) = true →
      visitor (.orElse primary fallback tp (some tf)) = .ok t → P (.orElse primary fallback) t)
    (pruned : ∀ primary fallback tp t, P primary tp →
      descend (.orElseFallback primary fallback) = false →
      visitor (.orElse primary fallback tp none) = .ok t → P (.orElse primary fallback) t)
    (r : ResidualPolicy O) :
    ∀ t, r.tryFoldPruned (fun b => .ok (descend b)) visitor = .ok t → P r t := by
  induction r using ResidualPolicy.ind with
  | permit o => exact permit o
  | deny => exact deny
  | permitWithTrace o obs facts label => exact permitWithTrace o obs facts label
  | denyWithTrace o facts label reason shape => exact denyWithTrace o facts label reason shape
  | grant g => exact grant g
  | all rs ih =>
    intro t h
    obtain ⟨ts, hts, h⟩ := Result.bind_eq_ok.mp h
    exact all rs ts t (tryFoldPrunedArms_ok ih ts hts) h
  | any rs ih =>
    intro t h
    obtain ⟨ts, hts, h⟩ := Result.bind_eq_ok.mp h
    exact any rs ts t (tryFoldPrunedArms_ok ih ts hts) h
  | orElse primary fallback ihp ihf =>
    intro t h
    obtain ⟨tp, hp, h⟩ := Result.bind_eq_ok.mp h
    rw [Result.ok_bind] at h
    split at h
    · rename_i hd
      obtain ⟨tf, hf, h⟩ := Result.bind_eq_ok.mp h
      exact orElse primary fallback tp tf t hp (ihp tp hp) (ihf tf hf) hd h
    · rename_i hd
      exact pruned primary fallback tp t (ihp tp hp) (by simpa using hd) h

end Rule

/-! ## The rule for two pruned traversals of one policy -/

section SideBySide

open Result (Both)

variable {ε T' : Type} {descend : ResidualPolicyBranch O → Bool}
  {visitor : ResidualPolicyNode O T → Except ε T}
  {visitor' : ResidualPolicyNode O T' → Except ε T'} {R : T → T' → Prop}

theorem tryFoldPrunedArms_both {rs : List (ResidualPolicy O)}
    (ih : ∀ r ∈ rs, Both R (r.tryFoldPruned (fun b => .ok (descend b)) visitor)
      (r.tryFoldPruned (fun b => .ok (descend b)) visitor')) :
    Both (List.Forall₂ R) (tryFoldPrunedArms (fun b => .ok (descend b)) visitor rs)
      (tryFoldPrunedArms (fun b => .ok (descend b)) visitor' rs) := by
  induction rs with
  | nil => exact .ok .nil
  | cons r rs ihrs =>
    refine (ih r List.mem_cons_self).bind fun t t' ht => ?_
    refine (ihrs fun r' hr' => ih r' (List.mem_cons_of_mem _ hr')).bind fun ts ts' hts => ?_
    exact .ok (.cons ht hts)

/-- Visitors that agree at each kind of node, given children on which they agreed, agree on the
whole policy: on the error or on the output. -/
theorem tryFoldPruned_both
    (permit : ∀ o, Both R (visitor (.permit o)) (visitor' (.permit o)))
    (deny : Both R (visitor .deny) (visitor' .deny))
    (permitWithTrace : ∀ o obs facts label, Both R (visitor (.permitWithTrace o obs facts label))
      (visitor' (.permitWithTrace o obs facts label)))
    (denyWithTrace : ∀ o facts label reason shape,
      Both R (visitor (.denyWithTrace o facts label reason shape))
        (visitor' (.denyWithTrace o facts label reason shape)))
    (grant : ∀ g, Both R (visitor (.grant g)) (visitor' (.grant g)))
    (all : ∀ rs ts ts', List.Forall₂ R ts ts' →
      Both R (visitor (.all rs ts)) (visitor' (.all rs ts')))
    (any : ∀ rs ts ts', List.Forall₂ R ts ts' →
      Both R (visitor (.any rs ts)) (visitor' (.any rs ts')))
    (orElse : ∀ primary fallback tp tp' tf tf', R tp tp' → R tf tf' →
      Both R (visitor (.orElse primary fallback tp (some tf)))
        (visitor' (.orElse primary fallback tp' (some tf'))))
    (pruned : ∀ primary fallback tp tp', R tp tp' →
      Both R (visitor (.orElse primary fallback tp none))
        (visitor' (.orElse primary fallback tp' none)))
    (r : ResidualPolicy O) :
    Both R (r.tryFoldPruned (fun b => .ok (descend b)) visitor)
      (r.tryFoldPruned (fun b => .ok (descend b)) visitor') := by
  induction r using ResidualPolicy.ind with
  | permit o => exact permit o
  | deny => exact deny
  | permitWithTrace o obs facts label => exact permitWithTrace o obs facts label
  | denyWithTrace o facts label reason shape => exact denyWithTrace o facts label reason shape
  | grant g => exact grant g
  | all rs ih => exact (tryFoldPrunedArms_both ih).bind (all rs)
  | any rs ih => exact (tryFoldPrunedArms_both ih).bind (any rs)
  | orElse primary fallback ihp ihf =>
    refine ihp.bind fun tp tp' hp => ?_
    rw [Result.ok_bind, Result.ok_bind]
    split
    · exact ihf.bind fun tf tf' hf => orElse primary fallback tp tp' tf tf' hp hf
    · exact pruned primary fallback tp tp' hp

end SideBySide

end ResidualPolicy

end Gatekeep
