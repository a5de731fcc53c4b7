import Gatekeep.Facts

/-!
# Gatekeep.PolicyModel

The data model of `policy_model.rs` and `decision.rs`: outcome lattices, conditions, policies,
residual policies, and the decisions evaluation returns.

The six named fields that `Policy::Grant` and `ResidualPolicy::Grant` share are one record,
`Grant`. Policies and conditions are trees with lists of children; `Condition.ind`, `Policy.ind`
and `ResidualPolicy.ind` are their induction rules with one hypothesis per child.
-/

namespace Gatekeep

/-- The `Lattice` trait. No law is part of it; laws are assumed where a result needs them. -/
class Lattice (O : Type) where
  meet : O → O → O
  join : O → O → O
  top : O
  bottom : O

instance : Lattice Unit where
  meet _ _ := ()
  join _ _ := ()
  top := ()
  bottom := ()

inductive DenyShape where
  | forbidden
  | hidden
deriving DecidableEq

inductive Condition where
  | always
  | never
  | has (fact : FactId)
  | not (inner : Condition)
  | all (conditions : List Condition)
  | any (conditions : List Condition)

/-- The fields of a grant clause. -/
structure Grant (O : Type) where
  outcome : O
  condition : Condition
  label : Option ClauseLabel
  denyShape : DenyShape
  obligations : List ObligationId
  reason : Option ReasonCode

inductive Policy (O : Type) where
  | permit (outcome : O)
  | deny
  | grant (g : Grant O)
  | all (policies : List (Policy O))
  | any (policies : List (Policy O))
  | orElse (primary fallback : Policy O)

inductive ResidualPolicy (O : Type) where
  | permit (outcome : O)
  | deny
  | permitWithTrace (outcome : O) (obligations : List ObligationId) (satisfied : List FactId)
      (label : Option ClauseLabel)
  | denyWithTrace (denied : Option O) (unsatisfied : List FactId) (label : Option ClauseLabel)
      (reason : Option ReasonCode) (shape : DenyShape)
  | grant (g : Grant O)
  | all (policies : List (ResidualPolicy O))
  | any (policies : List (ResidualPolicy O))
  | orElse (primary fallback : ResidualPolicy O)

/-! ## Induction over the trees -/

section Induction

variable {O : Type}

@[elab_as_elim]
theorem Condition.ind {motive : Condition → Prop} (always : motive .always)
    (never : motive .never) (has : ∀ fact, motive (.has fact))
    (not : ∀ inner, motive inner → motive (.not inner))
    (all : ∀ conditions, (∀ c ∈ conditions, motive c) → motive (.all conditions))
    (any : ∀ conditions, (∀ c ∈ conditions, motive c) → motive (.any conditions)) :
    ∀ c, motive c :=
  @Condition.rec motive (fun cs => ∀ c ∈ cs, motive c) always never has not all any
    (List.forall_mem_nil motive) (fun _ _ hc hcs => List.forall_mem_cons.mpr ⟨hc, hcs⟩)

@[elab_as_elim]
theorem Policy.ind {motive : Policy O → Prop} (permit : ∀ o, motive (.permit o))
    (deny : motive .deny) (grant : ∀ g, motive (.grant g))
    (all : ∀ ps, (∀ p ∈ ps, motive p) → motive (.all ps))
    (any : ∀ ps, (∀ p ∈ ps, motive p) → motive (.any ps))
    (orElse : ∀ primary fallback, motive primary → motive fallback →
      motive (.orElse primary fallback)) :
    ∀ p, motive p :=
  @Policy.rec O motive (fun ps => ∀ p ∈ ps, motive p) permit deny grant all any orElse
    (List.forall_mem_nil motive) (fun _ _ hp hps => List.forall_mem_cons.mpr ⟨hp, hps⟩)

@[elab_as_elim]
theorem ResidualPolicy.ind {motive : ResidualPolicy O → Prop} (permit : ∀ o, motive (.permit o))
    (deny : motive .deny)
    (permitWithTrace : ∀ o obs facts label, motive (.permitWithTrace o obs facts label))
    (denyWithTrace : ∀ o facts label reason shape, motive (.denyWithTrace o facts label reason shape))
    (grant : ∀ g, motive (.grant g))
    (all : ∀ rs, (∀ r ∈ rs, motive r) → motive (.all rs))
    (any : ∀ rs, (∀ r ∈ rs, motive r) → motive (.any rs))
    (orElse : ∀ primary fallback, motive primary → motive fallback →
      motive (.orElse primary fallback)) :
    ∀ r, motive r :=
  @ResidualPolicy.rec O motive (fun rs => ∀ r ∈ rs, motive r) permit deny permitWithTrace
    denyWithTrace grant all any orElse
    (List.forall_mem_nil motive) (fun _ _ hr hrs => List.forall_mem_cons.mpr ⟨hr, hrs⟩)

end Induction

/-! ## Decisions -/

inductive Effect (O : Type) where
  | permit (outcome : O)
  | deny
deriving DecidableEq

inductive DecisiveClause (O : Type) where
  | permit (granted : O) (satisfied : List FactId) (label : Option ClauseLabel)
  | deny (denied : Option O) (unsatisfied : List FactId) (label : Option ClauseLabel)
      (reason : Option ReasonCode) (shape : DenyShape)
deriving DecidableEq

/-- Facts read by the evaluator, in first-read order. -/
abbrev Consulted := List (FactId × Presence)

structure DecisionTrace (O : Type) where
  consulted : Consulted
  decisive : DecisiveClause O
deriving DecidableEq

structure Decision (O : Type) where
  effect : Effect O
  obligations : List ObligationId
  trace : DecisionTrace O
deriving DecidableEq

namespace Effect

variable {O : Type}

def outcome : Effect O → Option O
  | .permit o => some o
  | .deny => none

def isPermit : Effect O → Bool
  | .permit _ => true
  | .deny => false

theorem isPermit_eq_true {e : Effect O} : e.isPermit = true ↔ ∃ o, e = .permit o := by
  cases e <;> simp [isPermit]

theorem isPermit_eq_false {e : Effect O} : e.isPermit = false ↔ e = .deny := by
  cases e <;> simp [isPermit]

end Effect

namespace Decision

variable {O : Type}

def outcome (d : Decision O) : Option O := d.effect.outcome

def isPermit (d : Decision O) : Bool := d.effect.isPermit

end Decision

namespace DecisiveClause

variable {O : Type}

/-- The facts a clause names: those that satisfied it, or those that made it fail. -/
def facts : DecisiveClause O → List FactId
  | .permit _ satisfied _ => satisfied
  | .deny _ unsatisfied _ _ _ => unsatisfied

def label : DecisiveClause O → Option ClauseLabel
  | .permit _ _ label => label
  | .deny _ _ label _ _ => label

/-- The requested outcome of a deny clause. -/
def denied : DecisiveClause O → Option O
  | .permit .. => none
  | .deny denied .. => denied

def reason : DecisiveClause O → Option ReasonCode
  | .permit .. => none
  | .deny _ _ _ reason _ => reason

end DecisiveClause

namespace Sample

def owner : FactId := ⟨"owner", by decide⟩
def member : FactId := ⟨"member", by decide⟩

/-- An unlabelled grant with the unit outcome. -/
def grantIf (condition : Condition) (obligations : List ObligationId) : Policy Unit :=
  .grant ⟨(), condition, none, .forbidden, obligations, none⟩

end Sample

end Gatekeep
