import Gatekeep.Fold
import Gatekeep.Support.Traced

/-!
# Gatekeep.Traversal

The three traversals of a residual policy compared, call by call. A visitor is any function with
state, and `Call` is what a run records of it.

A node is named by its position, the child indices that lead to it. `positions` lists the nodes in
the order of a traversal: a child before its parent, an earlier child before a later one
(`positions_pairwise`). `schedule` lists the calls of a pruned traversal when the `OrElse` nodes at
certain positions are rejected; its visits are those of the positions not inside a rejected fallback
(`visits_schedule`). Every run makes the calls of such a list in their order, up to the end or to the
first visit that fails (`along_tryFoldPruned`).
-/

namespace Gatekeep

open Traced

variable {O T E σ τ : Type}

/-! ## Positions -/

namespace ResidualPolicy

def children : ResidualPolicy O → List (ResidualPolicy O)
  | .all policies | .any policies => policies
  | .orElse primary fallback => [primary, fallback]
  | _ => []

/-- The node at a position. -/
def node? : ResidualPolicy O → List Nat → Option (ResidualPolicy O)
  | r, [] => some r
  | r, i :: position => r.children[i]?.bind fun child => node? child position

def isOrElse : ResidualPolicy O → Bool
  | .orElse _ _ => true
  | _ => false

mutual

/-- All positions, in the order in which a traversal visits them. -/
def positions : ResidualPolicy O → List (List Nat)
  | .all policies | .any policies => positionsFrom 0 policies ++ [[]]
  | .orElse primary fallback =>
    (positions primary).map (0 :: ·) ++ (positions fallback).map (1 :: ·) ++ [[]]
  | _ => [[]]

def positionsFrom (i : Nat) : List (ResidualPolicy O) → List (List Nat)
  | [] => []
  | policy :: policies => (positions policy).map (i :: ·) ++ positionsFrom (i + 1) policies

end

/-- The position lies below the other one, or in an earlier child of a common ancestor. -/
def Before : List Nat → List Nat → Prop
  | [], _ => False
  | _ :: _, [] => True
  | i :: p, j :: q => i < j ∨ i = j ∧ Before p q

theorem positions_eq (r : ResidualPolicy O) :
    r.positions = positionsFrom 0 r.children ++ [[]] := by
  cases r <;> simp [positions, children, positionsFrom]

theorem mem_positionsFrom {q : List Nat} {rs : List (ResidualPolicy O)} {i : Nat} :
    q ∈ positionsFrom i rs ↔
      ∃ j r position, rs[j]? = some r ∧ position ∈ r.positions ∧ q = (i + j) :: position := by
  induction rs generalizing i with
  | nil => simp [positionsFrom]
  | cons r rs ih =>
    rw [positionsFrom, List.mem_append, List.mem_map, ih]
    constructor
    · rintro (⟨position, hp, rfl⟩ | ⟨j, r', position, hr, hp, rfl⟩)
      · exact ⟨0, r, position, rfl, hp, rfl⟩
      · exact ⟨j + 1, r', position, hr, hp, by rw [Nat.add_assoc, Nat.add_comm 1]⟩
    · rintro ⟨j, r', position, hr, hp, rfl⟩
      cases j with
      | zero =>
        cases hr
        exact .inl ⟨position, hp, rfl⟩
      | succ j => exact .inr ⟨j, r', position, hr, hp, by rw [Nat.add_assoc, Nat.add_comm 1]⟩

/-- The positions are those of the nodes. -/
theorem mem_positions {r : ResidualPolicy O} {q : List Nat} :
    q ∈ r.positions ↔ (r.node? q).isSome = true := by
  induction q generalizing r with
  | nil => simp [positions_eq, node?]
  | cons i q ih =>
    rw [positions_eq, List.mem_append, mem_positionsFrom, node?]
    cases hchild : r.children[i]? with
    | none => simp [hchild]
    | some child => simp [hchild, ih]

theorem pairwise_map_cons {i : Nat} {positions : List (List Nat)} (h : positions.Pairwise Before) :
    (positions.map (i :: ·)).Pairwise Before :=
  List.pairwise_map.mpr (h.imp fun hpq => .inr ⟨rfl, hpq⟩)

theorem positionsFrom_pairwise {rs : List (ResidualPolicy O)} {i : Nat}
    (ih : ∀ r ∈ rs, r.positions.Pairwise Before) : (positionsFrom i rs).Pairwise Before := by
  induction rs generalizing i with
  | nil => exact .nil
  | cons r rs ihrs =>
    rw [positionsFrom, List.pairwise_append]
    refine ⟨pairwise_map_cons (ih r List.mem_cons_self),
      ihrs fun r' hr' => ih r' (List.mem_cons_of_mem _ hr'), ?_⟩
    intro p hp q hq
    obtain ⟨p, -, rfl⟩ := List.mem_map.mp hp
    obtain ⟨j, r', q, -, -, rfl⟩ := mem_positionsFrom.mp hq
    exact .inl (by omega)

/-- Children come before their parent, and in source order. -/
theorem positions_pairwise (r : ResidualPolicy O) : r.positions.Pairwise Before := by
  have hnode : ∀ r : ResidualPolicy O, (∀ c ∈ r.children, c.positions.Pairwise Before) →
      r.positions.Pairwise Before := by
    intro r ih
    rw [positions_eq, List.pairwise_append]
    refine ⟨positionsFrom_pairwise ih, List.pairwise_singleton _ _, ?_⟩
    intro p hp q hq
    obtain ⟨j, c, p, -, -, rfl⟩ := mem_positionsFrom.mp hp
    cases List.mem_singleton.mp hq
    trivial
  induction r using ResidualPolicy.ind with
  | all rs ih => exact hnode _ ih
  | any rs ih => exact hnode _ ih
  | orElse primary fallback ihp ihf => exact hnode _ (by simp [children, ihp, ihf])
  | _ => exact hnode _ (by simp [children])

/-! ## Schedules -/

/-- A rejection seen from a child. -/
def under (rejected : List Nat → Bool) (i : Nat) : List Nat → Bool := fun q => rejected (i :: q)

/-- The position is inside the fallback of a rejected `OrElse`. -/
def inside (rejected : List Nat → Bool) (r : ResidualPolicy O) : List Nat → Bool
  | [] => false
  | i :: q => r.isOrElse && rejected [] && i == 1 ||
    r.children[i]?.any fun child => inside (under rejected i) child q

end ResidualPolicy

/-- A call of a pruned traversal: the question whether to descend into the fallback of an `OrElse`,
or the visit of a node, without its fallback where it is an `OrElse` that was rejected. -/
inductive Step (O : Type) where
  | asked (primary fallback : ResidualPolicy O) (answer : Bool)
  | visited (policy : ResidualPolicy O) (skipped : Bool)

def Step.visit? : Step O → Option (ResidualPolicy O × Bool)
  | .visited policy skipped => some (policy, skipped)
  | .asked _ _ _ => none

namespace ResidualPolicy

mutual

/-- The calls of a pruned traversal that rejects the fallbacks at these positions. -/
def schedule (rejected : List Nat → Bool) : ResidualPolicy O → List (Step O)
  | .all policies => scheduleFrom rejected 0 policies ++ [Step.visited (.all policies) false]
  | .any policies => scheduleFrom rejected 0 policies ++ [Step.visited (.any policies) false]
  | .orElse primary fallback =>
    schedule (under rejected 0) primary ++
      Step.asked primary fallback (!rejected []) ::
        (if rejected [] then [] else schedule (under rejected 1) fallback) ++
      [Step.visited (.orElse primary fallback) (rejected [])]
  | leaf => [Step.visited leaf false]

def scheduleFrom (rejected : List Nat → Bool) (i : Nat) : List (ResidualPolicy O) → List (Step O)
  | [] => []
  | policy :: policies =>
    schedule (under rejected i) policy ++ scheduleFrom rejected (i + 1) policies

end

/-- The visit of the node at a position. -/
def visitAt (rejected : List Nat → Bool) (r : ResidualPolicy O) (q : List Nat) :
    Option (ResidualPolicy O × Bool) :=
  (r.node? q).map fun policy => (policy, policy.isOrElse && rejected q)

/-- What a schedule visits: nothing inside a rejected fallback, every other node in the order of
`positions`, and a rejected node without its fallback. -/
def VisitsKept (rejected : List Nat → Bool) (r : ResidualPolicy O) : Prop :=
  ((r.schedule rejected).filterMap Step.visit?).map some =
    (r.positions.filter fun q => !r.inside rejected q).map (r.visitAt rejected)

section Visits

variable {rejected : List Nat → Bool} {r child : ResidualPolicy O} {i : Nat}

/-- The positions in one child, as the parent sees them. -/
theorem visits_child (hchild : r.children[i]? = some child)
    (hkept : (r.isOrElse && rejected [] && i == 1) = false) (h : VisitsKept (under rejected i) child) :
    (((child.positions.map (i :: ·)).filter fun q => !r.inside rejected q).map
        (r.visitAt rejected)) =
      ((child.schedule (under rejected i)).filterMap Step.visit?).map some := by
  have hinside : ∀ q, r.inside rejected (i :: q) = child.inside (under rejected i) q := by
    intro q
    rw [inside, hkept, hchild, Bool.false_or, Option.any_some]
  have hvisit : ∀ q, r.visitAt rejected (i :: q) = child.visitAt (under rejected i) q := by
    intro q
    rw [visitAt, node?, hchild]
    rfl
  rw [h, List.filter_map, List.map_map]
  simp only [Function.comp_def, hinside, hvisit]

theorem visits_scheduleFrom {rs : List (ResidualPolicy O)} (hkept : r.isOrElse = false)
    (ih : ∀ c ∈ rs, ∀ rejected, VisitsKept rejected c) :
    ∀ i, (∀ j, r.children[i + j]? = rs[j]?) →
      (((positionsFrom i rs).filter fun q => !r.inside rejected q).map (r.visitAt rejected)) =
        ((scheduleFrom rejected i rs).filterMap Step.visit?).map some := by
  induction rs with
  | nil => exact fun _ _ => rfl
  | cons c rs ihrs =>
    intro i hchildren
    rw [positionsFrom, scheduleFrom, List.filter_append, List.map_append, List.filterMap_append,
      List.map_append, visits_child (i := i) (hchildren 0) (by rw [hkept]; rfl) (ih c List.mem_cons_self _),
      ihrs (fun c' hc' => ih c' (List.mem_cons_of_mem _ hc')) (i + 1) fun j => ?_]
    rw [Nat.add_assoc, Nat.add_comm 1]
    exact hchildren (j + 1)

end Visits

theorem visits_schedule (r : ResidualPolicy O) : ∀ rejected, VisitsKept rejected r := by
  induction r using ResidualPolicy.ind with
  | all rs ih =>
    intro rejected
    rw [VisitsKept, positions, schedule, List.filter_append, List.map_append, List.filterMap_append,
      List.map_append, visits_scheduleFrom rfl ih 0 fun j => by rw [Nat.zero_add]; rfl]
    rfl
  | any rs ih =>
    intro rejected
    rw [VisitsKept, positions, schedule, List.filter_append, List.map_append, List.filterMap_append,
      List.map_append, visits_scheduleFrom rfl ih 0 fun j => by rw [Nat.zero_add]; rfl]
    rfl
  | orElse primary fallback ihp ihf =>
    intro rejected
    have hprimary := visits_child (r := .orElse primary fallback) (i := 0) rfl
      (Bool.and_false _) (ihp (under rejected 0))
    have hfallback : (((positions fallback).map (1 :: ·)).filter
          fun q => !inside rejected (.orElse primary fallback) q).map
          (visitAt rejected (.orElse primary fallback)) =
        ((if rejected [] then [] else schedule (under rejected 1) fallback).filterMap
          Step.visit?).map some := by
      cases hrejected : rejected [] with
      | true => simp [inside, isOrElse, hrejected]
      | false =>
        exact visits_child (r := .orElse primary fallback) (i := 1) rfl (by rw [hrejected]; rfl)
          (ihf (under rejected 1))
    rw [VisitsKept, positions, List.filter_append, List.filter_append, List.map_append,
      List.map_append, hprimary, hfallback, schedule, List.filterMap_append, List.filterMap_append,
      List.map_append, List.map_append]
    rfl
  | _ => exact fun _ => rfl

end ResidualPolicy

/-! ## Runs -/

/-- The node as the policy that it shows. -/
def ResidualPolicyNode.policy : ResidualPolicyNode O T → ResidualPolicy O
  | .permit outcome => .permit outcome
  | .deny => .deny
  | .permitWithTrace outcome obligations satisfied label =>
    .permitWithTrace outcome obligations satisfied label
  | .denyWithTrace denied unsatisfied label reason shape =>
    .denyWithTrace denied unsatisfied label reason shape
  | .grant g => .grant g
  | .all policies _ => .all policies
  | .any policies _ => .any policies
  | .orElse primary fallback _ _ => .orElse primary fallback

/-- The node comes without the output of its fallback. -/
def ResidualPolicyNode.skipped : ResidualPolicyNode O T → Bool
  | .orElse _ _ _ none => true
  | _ => false

/-- What a run records: each answer of `should_descend` and each output of the visitor. -/
inductive FoldCall (O T E : Type) where
  | asked (branch : ResidualPolicyBranch O) (answer : Bool)
  | visited (node : ResidualPolicyNode O T) (output : Except E T)

namespace FoldCall

def step : FoldCall O T E → Step O
  | .asked (.orElseFallback primary fallback) answer => .asked primary fallback answer
  | .visited node _ => .visited node.policy node.skipped

def isVisit : FoldCall O T E → Bool
  | .visited _ _ => true
  | .asked _ _ => false

def Succeeded : FoldCall O T E → Prop
  | .asked _ _ => True
  | .visited _ output => ∃ t, output = .ok t

end FoldCall

/-- A visitor `FnMut(Node) -> Result<T, E>`, recorded. -/
def visiting (visitor : ResidualPolicyNode O T → σ → Except E T × σ) (node : ResidualPolicyNode O T) :
    Act σ (FoldCall O T E) E T := fun w =>
  ⟨(visitor node w).1, [FoldCall.visited node (visitor node w).1], (visitor node w).2⟩

/-- `should_descend`, recorded. -/
def asking (descend : ResidualPolicyBranch O → σ → Bool × σ) (branch : ResidualPolicyBranch O) :
    Act σ (FoldCall O T E) E Bool :=
  Act.call (descend branch) (FoldCall.asked branch)

/-- The run makes the planned calls and none fails, or it makes them up to a visit that fails and
returns the error of that visit. -/
inductive Along {α : Type} (plan : List (Step O)) : Ran σ (FoldCall O T E) (Except E α) → Prop
  | finished {a : α} {calls : List (FoldCall O T E)} {w : σ} (made : calls.map FoldCall.step = plan)
      (succeeded : ∀ call ∈ calls, call.Succeeded) : Along plan ⟨.ok a, calls, w⟩
  | stopped {e : E} {calls : List (FoldCall O T E)} {node : ResidualPolicyNode O T} {w : σ}
      (made : (calls ++ [FoldCall.visited node (.error e)]).map FoldCall.step <+: plan)
      (succeeded : ∀ call ∈ calls, call.Succeeded) :
      Along plan ⟨.error e, calls ++ [FoldCall.visited node (.error e)], w⟩

namespace Along

variable {α β : Type} {plan more : List (Step O)} {m : Act σ (FoldCall O T E) E α}
  {f : α → Act σ (FoldCall O T E) E β} {w : σ}

/-- A run that goes on along another plan goes along both. -/
theorem after {a : α} {calls : List (FoldCall O T E)} {w' : σ}
    {r : Ran σ (FoldCall O T E) (Except E β)} (h : Along plan ⟨Except.ok (ε := E) a, calls, w'⟩)
    (hr : Along more r) : Along (plan ++ more) (r.after calls) := by
  cases h with
  | finished made succeeded =>
    cases hr with
    | finished made' succeeded' =>
      refine .finished ?_ (List.forall_mem_append.mpr ⟨succeeded, succeeded'⟩)
      rw [List.map_append, made, made']
    | stopped made' succeeded' =>
      unfold Ran.after
      rw [← List.append_assoc]
      refine .stopped ?_ (List.forall_mem_append.mpr ⟨succeeded, succeeded'⟩)
      rw [List.append_assoc, List.map_append, made]
      exact (List.prefix_append_right_inj plan).mpr made'

theorem bind (h : Along plan (m w))
    (hf : ∀ a, (m w).result = .ok a → Along more (f a (m w).world)) :
    Along (plan ++ more) ((m >>= f) w) := by
  obtain ⟨e, he, hrun⟩ | ⟨a, ha, hrun⟩ := Act.bind_cases m f w
  · rw [hrun]
    cases hm : m w with
    | mk result calls w' =>
      rw [hm] at h he
      cases h with
      | finished made succeeded => cases he
      | stopped made succeeded =>
        cases he
        exact .stopped (made.trans (List.prefix_append _ _)) succeeded
  · rw [hrun]
    have hfirst : Along plan ⟨Except.ok (ε := E) a, (m w).calls, (m w).world⟩ := by
      rw [← ha]
      exact h
    exact hfirst.after (hf a ha)

theorem visit (visitor : ResidualPolicyNode O T → σ → Except E T × σ)
    (node : ResidualPolicyNode O T) (w : σ) :
    Along [Step.visited node.policy node.skipped] (visiting visitor node w) := by
  unfold visiting
  cases houtput : (visitor node w).1 with
  | ok t => exact .finished rfl (by simp [FoldCall.Succeeded])
  | error e =>
    have hmade : ([] ++ [FoldCall.visited node (.error e)]).map FoldCall.step <+:
        [Step.visited node.policy node.skipped] := List.prefix_rfl
    exact .stopped hmade (by simp)

end Along

namespace ResidualPolicy

/-- Rejections of one child and of the children after it, put together. -/
def joinArms (i : Nat) (first rest : List Nat → Bool) : List Nat → Bool
  | [] => false
  | j :: q => if j = i then first q else rest (j :: q)

def joinOrElse (rejected : Bool) (primary fallback : List Nat → Bool) : List Nat → Bool
  | [] => rejected
  | 0 :: q => primary q
  | _ :: q => fallback q

theorem under_joinArms (i : Nat) (first rest : List Nat → Bool) :
    under (joinArms i first rest) i = first := by
  funext q
  exact if_pos rfl

/-- A schedule of children reads the rejections at these children. -/
theorem scheduleFrom_congr {rejected rejected' : List Nat → Bool} (rs : List (ResidualPolicy O)) :
    ∀ i, (∀ j q, i ≤ j → rejected (j :: q) = rejected' (j :: q)) →
      scheduleFrom rejected i rs = scheduleFrom rejected' i rs := by
  induction rs with
  | nil => exact fun _ _ => rfl
  | cons r rs ih =>
    intro i h
    have hunder : under rejected i = under rejected' i := funext fun q => h i q le_rfl
    rw [scheduleFrom, scheduleFrom, hunder, ih (i + 1) fun j q hj => h j q (Nat.le_of_succ_le hj)]

section Runs

variable {visitor : ResidualPolicyNode O T → σ → Except E T × σ}
  {descend : ResidualPolicyBranch O → σ → Bool × σ}

theorem along_arms {rs : List (ResidualPolicy O)}
    (ih : ∀ r ∈ rs, ∀ w, ∃ rejected, Along (r.schedule rejected)
      (r.tryFoldPruned (asking descend) (visiting visitor) w)) :
    ∀ i w, ∃ rejected, Along (scheduleFrom rejected i rs)
      (tryFoldPrunedArms (asking descend) (visiting visitor) rs w) := by
  induction rs with
  | nil => exact fun _ _ => ⟨fun _ => false, .finished rfl (by simp)⟩
  | cons r rs ihrs =>
    intro i w
    obtain ⟨first, hfirst⟩ := ih r List.mem_cons_self w
    have hrest := ihrs (fun r' hr' => ih r' (List.mem_cons_of_mem _ hr')) (i + 1)
      (r.tryFoldPruned (asking descend) (visiting visitor) w).world
    obtain ⟨rest, hrest⟩ := hrest
    refine ⟨joinArms i first rest, ?_⟩
    have hcongr : scheduleFrom (joinArms i first rest) (i + 1) rs = scheduleFrom rest (i + 1) rs := by
      refine scheduleFrom_congr rs _ fun j q hj => ?_
      exact if_neg (by omega)
    rw [scheduleFrom, under_joinArms, hcongr, tryFoldPrunedArms]
    refine hfirst.bind fun t _ => ?_
    rw [← List.append_nil (scheduleFrom rest (i + 1) rs)]
    exact hrest.bind fun ts _ => .finished rfl (by simp)

/-- Every run of a pruned traversal goes along the schedule of the rejections it made. -/
theorem along_tryFoldPruned (r : ResidualPolicy O) :
    ∀ w, ∃ rejected, Along (r.schedule rejected)
      (r.tryFoldPruned (asking descend) (visiting visitor) w) := by
  induction r using ResidualPolicy.ind with
  | permit o => exact fun w => ⟨fun _ => false, .visit visitor (.permit o) w⟩
  | deny => exact fun w => ⟨fun _ => false, .visit visitor .deny w⟩
  | permitWithTrace o obs facts label =>
    exact fun w => ⟨fun _ => false, .visit visitor (.permitWithTrace o obs facts label) w⟩
  | denyWithTrace o facts label reason shape =>
    exact fun w => ⟨fun _ => false, .visit visitor (.denyWithTrace o facts label reason shape) w⟩
  | grant g => exact fun w => ⟨fun _ => false, .visit visitor (.grant g) w⟩
  | all rs ih =>
    intro w
    obtain ⟨rejected, harms⟩ := along_arms ih 0 w
    exact ⟨rejected, harms.bind fun ts _ => .visit visitor (.all rs ts) _⟩
  | any rs ih =>
    intro w
    obtain ⟨rejected, harms⟩ := along_arms ih 0 w
    exact ⟨rejected, harms.bind fun ts _ => .visit visitor (.any rs ts) _⟩
  | orElse primary fallback ihp ihf =>
    intro w
    obtain ⟨inPrimary, hprimary⟩ := ihp w
    -- the answer is settled by the state that the primary leaves
    let afterPrimary := (primary.tryFoldPruned (asking descend) (visiting visitor) w).world
    let answered := descend (.orElseFallback primary fallback) afterPrimary
    obtain ⟨inFallback, hfallback⟩ := ihf answered.2
    refine ⟨joinOrElse (!answered.1) inPrimary inFallback, ?_⟩
    rw [schedule, List.append_assoc]
    refine hprimary.bind fun tp _ => ?_
    have hasked : Along [Step.asked primary fallback answered.1]
        (asking (T := T) (E := E) descend (.orElseFallback primary fallback) afterPrimary) :=
      .finished rfl (by simp [FoldCall.Succeeded])
    cases hanswer : answered.1 with
    | true =>
      rw [hanswer] at hasked
      refine hasked.bind fun answer hresult => ?_
      obtain rfl : true = answer := by rw [← hanswer]; exact Except.ok.inj hresult
      exact hfallback.bind fun tf _ => .visit visitor (.orElse primary fallback tp (some tf)) _
    | false =>
      rw [hanswer] at hasked
      refine hasked.bind fun answer hresult => ?_
      obtain rfl : false = answer := by rw [← hanswer]; exact Except.ok.inj hresult
      exact .visit visitor (.orElse primary fallback tp none) _

end Runs

/-! ## The three traversals -/

/-- A visitor `FnMut(Node) -> T`, recorded. -/
def visitingAlways (visitor : ResidualPolicyNode O T → σ → T × σ) (node : ResidualPolicyNode O T) :
    Act σ (FoldCall O T E) Empty T :=
  Act.call (visitor node) fun t => FoldCall.visited node (.ok t)

/-- The same visitor as one that may fail. -/
def succeeding (visitor : ResidualPolicyNode O T → σ → T × σ) (node : ResidualPolicyNode O T)
    (w : σ) : Except E T × σ :=
  (.ok (visitor node w).1, (visitor node w).2)

theorem fold_matches_tryFold (visitor : ResidualPolicyNode O T → σ → T × σ)
    (r : ResidualPolicy O) :
    Matches (r.fold (visitingAlways (E := E) visitor)) (r.tryFold (visiting (succeeding visitor))) := by
  have hvisit : ∀ node, Matches (visitingAlways (E := E) visitor node)
      (visiting (succeeding visitor) node) :=
    fun node w => ⟨_, _, _, rfl, rfl⟩
  have harms : ∀ rs : List (ResidualPolicy O),
      (∀ r ∈ rs, Matches (r.fold (visitingAlways (E := E) visitor))
        (r.tryFold (visiting (succeeding visitor)))) →
      Matches (foldArms (visitingAlways (E := E) visitor) rs)
        (tryFoldArms (visiting (succeeding visitor)) rs) := by
    intro rs ih
    induction rs with
    | nil => exact .pure []
    | cons r rs ihrs =>
      refine (ih r List.mem_cons_self).bind fun t => ?_
      exact (ihrs fun r' hr' => ih r' (List.mem_cons_of_mem _ hr')).bind fun ts => .pure _
  induction r using ResidualPolicy.ind with
  | all rs ih => exact (harms rs ih).bind fun ts => hvisit _
  | any rs ih => exact (harms rs ih).bind fun ts => hvisit _
  | orElse primary fallback ihp ihf => exact ihp.bind fun tp => ihf.bind fun tf => hvisit _
  | _ => exact hvisit _

/-- A visitor that has the first of two states. -/
def onFirst (visitor : ResidualPolicyNode O T → σ → Except E T × σ) (node : ResidualPolicyNode O T)
    (w : σ × τ) : Except E T × σ × τ :=
  ((visitor node w.1).1, (visitor node w.1).2, w.2)

/-- A choice of branches that has the second. -/
def onSecond (descend : ResidualPolicyBranch O → τ → Bool × τ) (branch : ResidualPolicyBranch O)
    (w : σ × τ) : Bool × σ × τ :=
  ((descend branch w.2).1, w.1, (descend branch w.2).2)

theorem tryFoldPruned_erases_tryFold (visitor : ResidualPolicyNode O T → σ → Except E T × σ)
    {descend : ResidualPolicyBranch O → τ → Bool × τ} (hdescend : ∀ b w, (descend b w).1 = true)
    (r : ResidualPolicy O) :
    Erases Prod.fst FoldCall.isVisit
      (r.tryFoldPruned (asking (onSecond descend)) (visiting (onFirst visitor)))
      (r.tryFold (visiting visitor)) := by
  have hvisit : ∀ node, Erases (τ := σ) Prod.fst FoldCall.isVisit
      (visiting (onFirst (τ := τ) visitor) node) (visiting visitor node) :=
    fun node w => ⟨rfl, rfl, rfl⟩
  have harms : ∀ rs : List (ResidualPolicy O),
      (∀ r ∈ rs, Erases Prod.fst FoldCall.isVisit
        (r.tryFoldPruned (asking (onSecond descend)) (visiting (onFirst visitor)))
        (r.tryFold (visiting visitor))) →
      Erases Prod.fst FoldCall.isVisit
        (tryFoldPrunedArms (asking (onSecond descend)) (visiting (onFirst visitor)) rs)
        (tryFoldArms (visiting visitor) rs) := by
    intro rs ih
    induction rs with
    | nil => exact .pure []
    | cons r rs ihrs =>
      refine (ih r List.mem_cons_self).bind fun t => ?_
      exact (ihrs fun r' hr' => ih r' (List.mem_cons_of_mem _ hr')).bind fun ts => .pure _
  induction r using ResidualPolicy.ind with
  | all rs ih => exact (harms rs ih).bind fun ts => hvisit _
  | any rs ih => exact (harms rs ih).bind fun ts => hvisit _
  | orElse primary fallback ihp ihf =>
    refine ihp.bind fun tp w => ?_
    have hanswer : (onSecond (σ := σ) descend (.orElseFallback primary fallback) w).1 = true :=
      hdescend _ _
    have hrest := (ihf.bind fun tf => hvisit (.orElse primary fallback tp (some tf)))
      (onSecond descend (.orElseFallback primary fallback) w).2
    rw [asking, Act.bind_call, hanswer, if_pos rfl]
    exact ⟨hrest.result, hrest.calls, hrest.world⟩
  | _ => exact hvisit _

/-- The traversals agree. A fallible fold whose visitor never fails does what the plain fold does;
a pruned fold that rejects nothing does what the fallible one does, besides asking. A pruned fold
makes the calls of a schedule, in which it visits the nodes not inside a rejected fallback, children
first and in source order, and a rejected node without its fallback; or it stops at the first visit
that fails, with the error of that visit. -/
theorem residual_folds_agree (r : ResidualPolicy O) :
    (∀ (σ E : Type) (visitor : ResidualPolicyNode O T → σ → T × σ) (w : σ),
      ∃ t calls w', r.fold (visitingAlways (E := E) visitor) w = ⟨.ok t, calls, w'⟩ ∧
        r.tryFold (visiting (E := E) (succeeding visitor)) w = ⟨.ok t, calls, w'⟩) ∧
    (∀ (σ τ E : Type) (visitor : ResidualPolicyNode O T → σ → Except E T × σ)
      (descend : ResidualPolicyBranch O → τ → Bool × τ), (∀ b u, (descend b u).1 = true) →
      ∀ s u, (r.tryFoldPruned (asking (onSecond descend)) (visiting (onFirst visitor)) (s, u)).Erases
        Prod.fst FoldCall.isVisit (r.tryFold (visiting visitor) s)) ∧
    (∀ (σ E : Type) (visitor : ResidualPolicyNode O T → σ → Except E T × σ)
      (descend : ResidualPolicyBranch O → σ → Bool × σ) (w : σ), ∃ rejected,
        Along (r.schedule rejected) (r.tryFoldPruned (asking descend) (visiting visitor) w) ∧
        ((r.schedule rejected).filterMap Step.visit?).map some =
          (r.positions.filter fun q => !r.inside rejected q).map (r.visitAt rejected)) ∧
    r.positions.Pairwise Before ∧ ∀ q, q ∈ r.positions ↔ (r.node? q).isSome = true := by
  refine ⟨fun σ E visitor w => fold_matches_tryFold visitor r w,
    fun σ τ E visitor descend hdescend s u => tryFoldPruned_erases_tryFold visitor hdescend r (s, u),
    fun σ E visitor descend w => ?_, r.positions_pairwise, fun q => mem_positions⟩
  obtain ⟨rejected, halong⟩ := r.along_tryFoldPruned w
  exact ⟨rejected, halong, r.visits_schedule rejected⟩

end ResidualPolicy

end Gatekeep
