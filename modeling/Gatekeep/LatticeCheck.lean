import Gatekeep.Effects
import Gatekeep.Support.LatticeOn
import Gatekeep.Support.Result

/-!
# Gatekeep.LatticeCheck

The finite lattice check of `testing.rs`, and what an accepted list of outcomes gives: the lattice
laws on that list (`latticeOn_of_checkLattice`). An outcome type that obeys the laws everywhere is
the case where the list would be the whole type (`Lattice.Absorptive.latticeOn`).

Over such outcomes the effect of a conjunction or a disjunction depends only on which effects its
arms have, not on their order or number (`Effect.all_congr`, `Effect.any_congr`), and its outcome is
the bound of theirs (`Effect.all_greatest`, `Effect.any_least`).
-/

namespace Gatekeep

/-- The lattice laws, with absorption. Neither top nor bottom is needed for the results here. -/
class Lattice.Absorptive (O : Type) [Lattice O] : Prop extends Lattice.Lawful O where
  meet_join_self : ∀ a b : O, meet a (join a b) = a
  join_meet_self : ∀ a b : O, join a (meet a b) = a

theorem Lattice.Absorptive.latticeOn (O : Type) [Lattice O] [Lattice.Absorptive O] :
    LatticeOn (Lattice.meet : O → O → O) Lattice.join Set.univ where
  meet_mem _ _ _ _ := Set.mem_univ _
  join_mem _ _ _ _ := Set.mem_univ _
  meet_comm a _ b _ := Lattice.Lawful.meet_comm a b
  join_comm a _ b _ := Lattice.Lawful.join_comm a b
  meet_assoc a _ b _ c _ := Lattice.Lawful.meet_assoc a b c
  join_assoc a _ b _ c _ := Lattice.Lawful.join_assoc a b c
  meet_join_self a _ b _ := Lattice.Absorptive.meet_join_self a b
  join_meet_self a _ b _ := Lattice.Absorptive.join_meet_self a b

/-! ## The check -/

/-- A law failed for supplied outcomes. -/
structure LatticeLawFailure where
  law : String
deriving DecidableEq

def ensure (condition : Bool) (law : String) : Except LatticeLawFailure Unit :=
  if condition then .ok () else .error ⟨law⟩

theorem ensure_eq_ok {condition : Bool} {law : String} :
    ensure condition law = .ok () ↔ condition = true := by
  cases condition <;> simp [ensure]

section Check

variable {O : Type} [Lattice O] [DecidableEq O]

def checkPair (values : List O) (left right : O) : Except LatticeLawFailure Unit := do
  ensure (values.contains (Lattice.meet left right) && values.contains (Lattice.join left right))
    "closure"
  ensure (Lattice.meet left right == Lattice.meet right left &&
    Lattice.join left right == Lattice.join right left) "commutativity"
  ensure (Lattice.meet left (Lattice.join left right) == left &&
    Lattice.join left (Lattice.meet left right) == left) "absorption"
  values.forM fun third =>
    ensure (Lattice.meet left (Lattice.meet right third) ==
        Lattice.meet (Lattice.meet left right) third &&
      Lattice.join left (Lattice.join right third) ==
        Lattice.join (Lattice.join left right) third) "associativity"

/-- Exhaustively checks the laws over a list of outcomes. -/
def checkLattice (values : List O) : Except LatticeLawFailure Unit := do
  ensure (values.contains (Lattice.top : O) && values.contains (Lattice.bottom : O)) "listed bounds"
  values.forM fun left => do
    ensure (Lattice.meet left left == left && Lattice.join left left == left) "idempotence"
    ensure (Lattice.meet left Lattice.top == left && Lattice.join left Lattice.bottom == left)
      "identity"
    values.forM fun right => checkPair values left right

theorem checkPair_eq_ok {values : List O} {left right : O} :
    checkPair values left right = .ok () ↔
      (Lattice.meet left right ∈ values ∧ Lattice.join left right ∈ values) ∧
      (Lattice.meet left right = Lattice.meet right left ∧
        Lattice.join left right = Lattice.join right left) ∧
      (Lattice.meet left (Lattice.join left right) = left ∧
        Lattice.join left (Lattice.meet left right) = left) ∧
      ∀ third ∈ values,
        Lattice.meet left (Lattice.meet right third) =
          Lattice.meet (Lattice.meet left right) third ∧
        Lattice.join left (Lattice.join right third) =
          Lattice.join (Lattice.join left right) third := by
  simp only [checkPair, Result.check_eq_ok, Result.forM_eq_ok, ensure_eq_ok, Bool.and_eq_true,
    List.contains_iff_mem, beq_iff_eq]

theorem checkLattice_eq_ok {values : List O} :
    checkLattice values = .ok () ↔
      ((Lattice.top : O) ∈ values ∧ (Lattice.bottom : O) ∈ values) ∧
      ∀ left ∈ values,
        (Lattice.meet left left = left ∧ Lattice.join left left = left) ∧
        (Lattice.meet left Lattice.top = left ∧ Lattice.join left Lattice.bottom = left) ∧
        ∀ right ∈ values, checkPair values left right = .ok () := by
  simp only [checkLattice, Result.check_eq_ok, Result.forM_eq_ok, ensure_eq_ok, Bool.and_eq_true,
    List.contains_iff_mem, beq_iff_eq]

theorem latticeOn_of_checkLattice {values : List O} (h : checkLattice values = .ok ()) :
    LatticeOn (Lattice.meet : O → O → O) Lattice.join {o | o ∈ values} := by
  have hpair : ∀ a ∈ values, ∀ b ∈ values, _ := fun a ha b hb =>
    checkPair_eq_ok.mp (((checkLattice_eq_ok.mp h).2 a ha).2.2 b hb)
  exact {
    meet_mem := fun a ha b hb => (hpair a ha b hb).1.1
    join_mem := fun a ha b hb => (hpair a ha b hb).1.2
    meet_comm := fun a ha b hb => (hpair a ha b hb).2.1.1
    join_comm := fun a ha b hb => (hpair a ha b hb).2.1.2
    meet_assoc := fun a ha b hb c hc => ((hpair a ha b hb).2.2.2 c hc).1.symm
    join_assoc := fun a ha b hb c hc => ((hpair a ha b hb).2.2.2 c hc).2.symm
    meet_join_self := fun a ha b hb => (hpair a ha b hb).2.2.1.1
    join_meet_self := fun a ha b hb => (hpair a ha b hb).2.2.1.2 }

end Check

/-! ## Combined effects over lawful outcomes -/

namespace Effect

variable {O : Type}

/-- The outcome of a permit is in `S`. -/
def Within (S : Set O) (e : Effect O) : Prop := ∀ o, e = .permit o → o ∈ S

theorem mem_filterMap_outcome {es : List (Effect O)} {o : O} :
    o ∈ es.filterMap outcome ↔ .permit o ∈ es := by
  rw [List.mem_filterMap]
  constructor
  · rintro ⟨e, he, ho⟩
    cases e with
    | permit o' => cases ho; exact he
    | deny => cases ho
  · intro he
    exact ⟨.permit o, he, rfl⟩

theorem combine_eq_permit {f : O → O → O} {l : List O} {g : O} (h : combine f l = .permit g) :
    ∃ a l', l = a :: l' ∧ l'.foldl f a = g := by
  cases l with
  | nil => cases h
  | cons a l => exact ⟨a, l, rfl, permit.inj h⟩

/-- Where a fold depends only on the members folded, so does the combination. -/
theorem combine_congr {f : O → O → O} {S : Set O}
    (hf : ∀ {a a' : O} {l l' : List O}, (∀ b ∈ a :: l, b ∈ S) →
      (∀ b, b ∈ a :: l ↔ b ∈ a' :: l') → l.foldl f a = l'.foldl f a')
    {l l' : List O} (hS : ∀ b ∈ l, b ∈ S) (hmem : ∀ b, b ∈ l ↔ b ∈ l') :
    combine f l = combine f l' := by
  cases l with
  | nil =>
    cases l' with
    | nil => rfl
    | cons a' l' => exact absurd ((hmem a').mpr List.mem_cons_self) List.not_mem_nil
  | cons a l =>
    cases l' with
    | nil => exact absurd ((hmem a).mp List.mem_cons_self) List.not_mem_nil
    | cons a' l' => exact congrArg permit (hf hS hmem)

section Arms

variable {S : Set O} {es es' : List (Effect O)}

theorem outcomes_within (hS : ∀ e ∈ es, e.Within S) : ∀ o ∈ es.filterMap outcome, o ∈ S :=
  fun o ho => hS _ (mem_filterMap_outcome.mp ho) o rfl

theorem mem_outcomes_congr (hmem : ∀ e, e ∈ es ↔ e ∈ es') (o : O) :
    o ∈ es.filterMap outcome ↔ o ∈ es'.filterMap outcome := by
  rw [mem_filterMap_outcome, mem_filterMap_outcome]
  exact hmem _

end Arms

variable [Lattice O] {S : Set O} {es es' : List (Effect O)} {g : O}

theorem all_eq_permit (hg : all es = .permit g) :
    (∀ e ∈ es, e.isPermit = true) ∧
      ∃ o os, es.filterMap outcome = o :: os ∧ os.foldl Lattice.meet o = g := by
  rw [all] at hg
  split at hg
  · rename_i hpermit
    exact ⟨List.all_eq_true.mp hpermit, combine_eq_permit hg⟩
  · cases hg

variable (h : LatticeOn (Lattice.meet : O → O → O) Lattice.join S)
include h

theorem all_congr (hS : ∀ e ∈ es, e.Within S) (hmem : ∀ e, e ∈ es ↔ e ∈ es') :
    all es = all es' := by
  have hpermit : es.all isPermit = es'.all isPermit := by
    rw [Bool.eq_iff_iff, List.all_eq_true, List.all_eq_true]
    exact forall_congr' fun e => imp_congr (hmem e) Iff.rfl
  rw [all, all, hpermit,
    combine_congr h.meet_congr (outcomes_within hS) (mem_outcomes_congr hmem)]

theorem any_congr (hS : ∀ e ∈ es, e.Within S) (hmem : ∀ e, e ∈ es ↔ e ∈ es') :
    any es = any es' :=
  combine_congr h.join_congr (outcomes_within hS) (mem_outcomes_congr hmem)

theorem all_within (hS : ∀ e ∈ es, e.Within S) : (all es).Within S := by
  intro g hg
  obtain ⟨-, o, os, hos, rfl⟩ := all_eq_permit hg
  have hin := outcomes_within hS
  rw [hos, List.forall_mem_cons] at hin
  exact h.foldl_meet_mem hin.2 hin.1

theorem any_within (hS : ∀ e ∈ es, e.Within S) : (any es).Within S := by
  intro g hg
  obtain ⟨o, os, hos, rfl⟩ := combine_eq_permit hg
  have hin := outcomes_within hS
  rw [hos, List.forall_mem_cons] at hin
  exact h.foldl_join_mem hin.2 hin.1

/-- The outcome of a conjunction is the greatest lower bound of its arms' outcomes. -/
theorem all_greatest (hS : ∀ e ∈ es, e.Within S) (hg : all es = .permit g) :
    (∀ e ∈ es, ∃ o, e = .permit o ∧ Lattice.meet g o = g) ∧
      ∀ c ∈ S, (∀ o, .permit o ∈ es → Lattice.meet c o = c) → Lattice.meet c g = c := by
  obtain ⟨hpermit, o, os, hos, rfl⟩ := all_eq_permit hg
  obtain ⟨hlower, hgreatest⟩ := h.isGreatest_meet (hos ▸ outcomes_within hS)
  refine ⟨fun e he => ?_, fun c hc hbelow => hgreatest c hc fun b hb => ?_⟩
  · obtain ⟨b, rfl⟩ := isPermit_eq_true.mp (hpermit e he)
    exact ⟨b, rfl, hlower b (hos ▸ mem_filterMap_outcome.mpr he)⟩
  · exact hbelow b (mem_filterMap_outcome.mp (hos ▸ hb))

/-- The outcome of a disjunction is the least upper bound of its permitting arms' outcomes. -/
theorem any_least (hS : ∀ e ∈ es, e.Within S) (hg : any es = .permit g) :
    (∀ o, .permit o ∈ es → Lattice.meet o g = o) ∧
      ∀ c ∈ S, (∀ o, .permit o ∈ es → Lattice.meet o c = o) → Lattice.meet g c = g := by
  obtain ⟨o, os, hos, rfl⟩ := combine_eq_permit hg
  obtain ⟨hupper, hleast⟩ := h.isLeast_join (hos ▸ outcomes_within hS)
  refine ⟨fun b hb => ?_, fun c hc habove => hleast c hc fun b hb => ?_⟩
  · exact hupper b (hos ▸ mem_filterMap_outcome.mpr hb)
  · exact habove b (mem_filterMap_outcome.mp (hos ▸ hb))

end Effect

namespace Sample

/-- Two incomparable scopes between none and both. -/
inductive Scope where
  | left
  | right
  | both
  | none
deriving DecidableEq

instance : Lattice Scope where
  meet
    | .none, _ | _, .none | .left, .right | .right, .left => .none
    | .both, value | value, .both => value
    | .left, .left => .left
    | .right, .right => .right
  join
    | .both, _ | _, .both | .left, .right | .right, .left => .both
    | .none, value | value, .none => value
    | .left, .left => .left
    | .right, .right => .right
  top := .both
  bottom := .none

instance : Lattice.Absorptive Scope where
  meet_comm a b := by cases a <;> cases b <;> rfl
  meet_assoc a b c := by cases a <;> cases b <;> cases c <;> rfl
  meet_idem a := by cases a <;> rfl
  join_comm a b := by cases a <;> cases b <;> rfl
  join_assoc a b c := by cases a <;> cases b <;> cases c <;> rfl
  join_idem a := by cases a <;> rfl
  meet_join_self a b := by cases a <;> cases b <;> rfl
  join_meet_self a b := by cases a <;> cases b <;> rfl

end Sample

end Gatekeep
