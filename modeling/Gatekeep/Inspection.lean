import Gatekeep.Denial
import Gatekeep.Obligations
import Gatekeep.Prepared

/-!
# Gatekeep.Inspection

The inventory of a policy's metadata, `inspection.rs`. `inspectFrom` is the source's loop over an
explicit stack; each step takes one node off it, so it ends, and it meets the grants of the policy in
source order (`inspectFrom_eq`).

The clause of a decision is the clause of some grant, or has neither label nor reason
(`clause_evaluate`). So the inventory has the obligations, the label and the denial reason of every
decision the policy can come to (`inspect_covers_decisions`).
-/

namespace Gatekeep

/-- Advisory authoring issue. -/
inductive PolicyAdvice where
  | unlabeledGrant
  | duplicateLabel (label : ClauseLabel)
  | missingReason
deriving DecidableEq

/-- Metadata inventory for tooling and reason-catalog checks. -/
structure PolicyInspection where
  labels : Std.ExtTreeSet ClauseLabel
  reasons : Std.ExtTreeSet String
  obligations : Std.ExtTreeSet ObligationId
  advice : List PolicyAdvice

namespace PolicyInspection

def empty : PolicyInspection := ⟨∅, ∅, ∅, []⟩

/-- The first `match` of `grant`. -/
def noteLabel (inspection : PolicyInspection) : Option ClauseLabel → PolicyInspection
  | none => { inspection with advice := inspection.advice ++ [PolicyAdvice.unlabeledGrant] }
  | some label =>
    if inspection.labels.contains label then
      { inspection with advice := inspection.advice ++ [PolicyAdvice.duplicateLabel label] }
    else { inspection with labels := inspection.labels.insert label }

/-- The second `match` of `grant`. -/
def noteReason (inspection : PolicyInspection) : Option String → PolicyInspection
  | some reason => { inspection with reasons := inspection.reasons.insert reason }
  | none => { inspection with advice := inspection.advice ++ [PolicyAdvice.missingReason] }

def noteObligations (inspection : PolicyInspection) (obligations : List ObligationId) :
    PolicyInspection :=
  { inspection with obligations := inspection.obligations.insertMany obligations }

def grant (inspection : PolicyInspection) (label : Option ClauseLabel) (reason : Option String)
    (obligations : List ObligationId) : PolicyInspection :=
  ((inspection.noteLabel label).noteReason (reason.or (label.map OwnedId.value))).noteObligations
    obligations

end PolicyInspection

/-! ## The stack -/

section Stack

variable {O : Type}

/-- `Vec::push`; the head of `pending` is the top of the stack. -/
def pushPending (pending : List (Policy O)) (policy : Policy O) : List (Policy O) :=
  policy :: pending

/-- `Vec::extend`. -/
def extendPending (pending policies : List (Policy O)) : List (Policy O) :=
  policies.foldl pushPending pending

theorem extendPending_reverse (pending children : List (Policy O)) :
    extendPending pending children.reverse = children ++ pending := by
  rw [extendPending, List.foldl_reverse]
  induction children with
  | nil => rfl
  | cons child children ih => rw [List.foldr_cons, ih, pushPending, List.cons_append]

mutual

/-- The number of nodes of a policy. -/
def Policy.nodes : Policy O → Nat
  | .permit _ | .deny | .grant _ => 1
  | .all policies | .any policies => 1 + nodesOf policies
  | .orElse primary fallback => 1 + nodes primary + nodes fallback

def Policy.nodesOf : List (Policy O) → Nat
  | [] => 0
  | p :: ps => Policy.nodes p + Policy.nodesOf ps

end

theorem Policy.nodesOf_append (ps qs : List (Policy O)) :
    nodesOf (ps ++ qs) = nodesOf ps + nodesOf qs := by
  induction ps with
  | nil => simp [nodesOf]
  | cons p ps ih => rw [List.cons_append, nodesOf, nodesOf, ih, Nat.add_assoc]

/-- One iteration of `inspect`, on the policy taken off the stack. -/
def inspectStep (policy : Policy O) (pending : List (Policy O)) (inspection : PolicyInspection) :
    List (Policy O) × PolicyInspection :=
  match policy with
  | .grant g =>
    (pending, inspection.grant g.label (g.reason.map OwnedId.value) g.obligations)
  | .all children | .any children => (extendPending pending children.reverse, inspection)
  | .orElse primary fallback => (pushPending (pushPending pending fallback) primary, inspection)
  | .permit _ | .deny => (pending, inspection)

/-- An iteration takes one node off the stack. -/
theorem nodes_inspectStep (policy : Policy O) (pending : List (Policy O))
    (inspection : PolicyInspection) :
    Policy.nodesOf (policy :: pending) =
      Policy.nodesOf (inspectStep policy pending inspection).1 + 1 := by
  cases policy <;>
    simp only [inspectStep, extendPending_reverse, pushPending, Policy.nodesOf_append,
      Policy.nodesOf, Policy.nodes] <;>
    omega

/-- The loop of `inspect`. -/
def inspectFrom : List (Policy O) → PolicyInspection → PolicyInspection
  | [], inspection => inspection
  | policy :: pending, inspection =>
    inspectFrom (inspectStep policy pending inspection).1
      (inspectStep policy pending inspection).2
termination_by pending => Policy.nodesOf pending
decreasing_by exact (nodes_inspectStep policy pending inspection).symm ▸ Nat.lt_succ_self _

/-- The stack and the inventory after a number of iterations. -/
def inspectAfter : Nat → List (Policy O) → PolicyInspection → List (Policy O) × PolicyInspection
  | 0, pending, inspection => (pending, inspection)
  | _ + 1, [], inspection => ([], inspection)
  | n + 1, policy :: pending, inspection =>
    inspectAfter n (inspectStep policy pending inspection).1
      (inspectStep policy pending inspection).2

/-- The loop ends: after as many iterations as there are nodes the stack is empty. -/
theorem inspectAfter_nodes (pending : List (Policy O)) (inspection : PolicyInspection) :
    inspectAfter (Policy.nodesOf pending) pending inspection =
      ([], inspectFrom pending inspection) := by
  fun_induction inspectFrom pending inspection with
  | case1 inspection => rfl
  | case2 policy pending inspection ih =>
    rw [nodes_inspectStep policy pending inspection, inspectAfter]
    exact ih

/-- Inventory metadata without evaluating checks. -/
def PreparedPolicy.inspect (prepared : PreparedPolicy O) : PolicyInspection :=
  inspectFrom [prepared.policy] .empty

/-- The inventory with one more grant. -/
def PolicyInspection.visit (inspection : PolicyInspection) (g : Grant O) : PolicyInspection :=
  inspection.grant g.label (g.reason.map OwnedId.value) g.obligations

/-- An iteration leaves to be visited what it does not visit, in the same order. -/
theorem visit_inspectStep (policy : Policy O) (pending : List (Policy O))
    (inspection : PolicyInspection) :
    (Policy.grantsOf (inspectStep policy pending inspection).1).foldl PolicyInspection.visit
        (inspectStep policy pending inspection).2 =
      (Policy.grantsOf (policy :: pending)).foldl PolicyInspection.visit inspection := by
  have hchildren : ∀ children : List (Policy O),
      Policy.grantsOf (extendPending pending children.reverse) =
        Policy.grantsOf children ++ Policy.grantsOf pending := by
    intro children
    simp only [extendPending_reverse, Policy.grantsOf_eq_flatMap, List.flatMap_append]
  cases policy with
  | permit o => rfl
  | deny => rfl
  | grant g => rfl
  | all children =>
    rw [inspectStep, hchildren]
    rfl
  | any children =>
    rw [inspectStep, hchildren]
    rfl
  | orElse primary fallback =>
    simp only [inspectStep, pushPending, Policy.grantsOf, Policy.grants, List.append_assoc]

/-- The loop meets the grants of the stacked policies, the topmost policy's first and each policy's
in source order. -/
theorem inspectFrom_eq (pending : List (Policy O)) (inspection : PolicyInspection) :
    inspectFrom pending inspection =
      (Policy.grantsOf pending).foldl PolicyInspection.visit inspection := by
  fun_induction inspectFrom pending inspection with
  | case1 inspection => rfl
  | case2 policy pending inspection ih => exact ih.trans (visit_inspectStep policy pending inspection)

theorem PreparedPolicy.inspect_eq (prepared : PreparedPolicy O) :
    prepared.inspect = prepared.policy.grants.foldl PolicyInspection.visit .empty := by
  rw [inspect, inspectFrom_eq, Policy.grantsOf, Policy.grantsOf, List.append_nil]

/-! ## What the inventory holds -/

/-- The code a grant denies with: its reason, else its label. -/
def Grant.code (g : Grant O) : Option String := (g.reason.map OwnedId.value).or (g.label.map OwnedId.value)

/-- The findings about a grant after the grants `before`. -/
def Grant.advice (before : List (Grant O)) (g : Grant O) : List PolicyAdvice :=
  (match g.label with
    | none => [.unlabeledGrant]
    | some label =>
      if before.any fun g' => g'.label == some label then [.duplicateLabel label] else []) ++
    if g.code.isNone then [.missingReason] else []

/-- The findings about the grants, in their order, after the grants `before`. -/
def adviceFrom (before : List (Grant O)) : List (Grant O) → List PolicyAdvice
  | [] => []
  | g :: gs => g.advice before ++ adviceFrom (before ++ [g]) gs

theorem adviceFrom_append (before gs : List (Grant O)) (g : Grant O) :
    adviceFrom before (gs ++ [g]) = adviceFrom before gs ++ g.advice (before ++ gs) := by
  induction gs generalizing before with
  | nil => simp [adviceFrom]
  | cons g' gs ih =>
    rw [List.cons_append, adviceFrom, adviceFrom, ih, List.append_assoc, List.append_assoc]
    rfl

namespace PolicyInspection

/-- The inventory is that of these grants, met in this order. -/
structure Inventories (inspection : PolicyInspection) (gs : List (Grant O)) : Prop where
  labels : ∀ label, label ∈ inspection.labels ↔ ∃ g ∈ gs, g.label = some label
  reasons : ∀ code, code ∈ inspection.reasons ↔ ∃ g ∈ gs, g.code = some code
  obligations : ∀ o, o ∈ inspection.obligations ↔ ∃ g ∈ gs, o ∈ g.obligations
  advice : inspection.advice = adviceFrom [] gs

theorem inventories_empty : empty.Inventories ([] : List (Grant O)) where
  labels label := by simp [empty]
  reasons code := by simp [empty]
  obligations o := by simp [empty]
  advice := rfl

theorem mem_labels_noteLabel (inspection : PolicyInspection) (label : Option ClauseLabel)
    (l : ClauseLabel) :
    l ∈ (inspection.noteLabel label).labels ↔ l ∈ inspection.labels ∨ label = some l := by
  cases label with
  | none => simp [noteLabel]
  | some label =>
    rw [noteLabel, Option.some.injEq]
    split
    · rename_i hmem
      refine ⟨.inl, ?_⟩
      rintro (h | rfl)
      · exact h
      · exact Std.ExtTreeSet.contains_iff_mem.mp hmem
    · rw [Std.ExtTreeSet.mem_insert, Std.LawfulEqCmp.compare_eq_iff_eq]
      exact or_comm

theorem mem_reasons_noteReason (inspection : PolicyInspection) (reason : Option String)
    (code : String) :
    code ∈ (inspection.noteReason reason).reasons ↔
      code ∈ inspection.reasons ∨ reason = some code := by
  cases reason with
  | none => simp [noteReason]
  | some reason =>
    rw [noteReason, Std.ExtTreeSet.mem_insert, Std.LawfulEqCmp.compare_eq_iff_eq, Option.some.injEq]
    exact or_comm

theorem noteLabel_rest (inspection : PolicyInspection) (label : Option ClauseLabel) :
    (inspection.noteLabel label).reasons = inspection.reasons ∧
      (inspection.noteLabel label).obligations = inspection.obligations := by
  cases label with
  | none => exact ⟨rfl, rfl⟩
  | some label =>
    rw [noteLabel]
    split <;> exact ⟨rfl, rfl⟩

theorem noteReason_rest (inspection : PolicyInspection) (reason : Option String) :
    (inspection.noteReason reason).labels = inspection.labels ∧
      (inspection.noteReason reason).obligations = inspection.obligations := by
  cases reason <;> exact ⟨rfl, rfl⟩

theorem advice_noteLabel {inspection : PolicyInspection} {gs : List (Grant O)}
    (h : inspection.Inventories gs) (g : Grant O) :
    (inspection.noteLabel g.label).advice = inspection.advice ++
      match g.label with
      | none => [.unlabeledGrant]
      | some label => if gs.any fun g' => g'.label == some label then [.duplicateLabel label] else [] := by
  cases g.label with
  | none => rfl
  | some label =>
    have hseen : inspection.labels.contains label = gs.any fun g' => g'.label == some label := by
      rw [Bool.eq_iff_iff, Std.ExtTreeSet.contains_iff_mem, h.labels, List.any_eq_true]
      simp only [beq_iff_eq]
    rw [noteLabel, hseen]
    dsimp only
    split
    · rfl
    · exact (List.append_nil _).symm

theorem exists_mem_concat {α : Type} {l : List α} {a : α} {P : α → Prop} :
    (∃ x ∈ l ++ [a], P x) ↔ (∃ x ∈ l, P x) ∨ P a := by
  simp [or_and_right, exists_or]

/-- A grant more. -/
theorem Inventories.visit {inspection : PolicyInspection} {gs : List (Grant O)}
    (h : inspection.Inventories gs) (g : Grant O) : (inspection.visit g).Inventories (gs ++ [g]) where
  labels label := by
    rw [exists_mem_concat, ← h.labels, ← mem_labels_noteLabel]
    show label ∈ ((inspection.noteLabel g.label).noteReason g.code).labels ↔ _
    rw [(noteReason_rest _ _).1]
  reasons code := by
    rw [exists_mem_concat, ← h.reasons, ← (noteLabel_rest inspection g.label).1,
      ← mem_reasons_noteReason]
    rfl
  obligations o := by
    have hrest : ((inspection.noteLabel g.label).noteReason g.code).obligations =
        inspection.obligations :=
      (noteReason_rest _ g.code).2.trans (noteLabel_rest inspection g.label).2
    show o ∈ ((inspection.noteLabel g.label).noteReason g.code).obligations.insertMany
      g.obligations ↔ _
    rw [Std.ExtTreeSet.mem_insertMany_list, hrest, List.contains_iff_mem, exists_mem_concat,
      ← h.obligations]
  advice := by
    rw [adviceFrom_append, ← h.advice, List.nil_append, Grant.advice, ← List.append_assoc,
      ← advice_noteLabel h]
    show ((inspection.noteLabel g.label).noteReason g.code).advice = _
    cases g.code with
    | none => rfl
    | some code => exact (List.append_nil _).symm

theorem inventories_foldl {inspection : PolicyInspection} {before : List (Grant O)}
    (h : inspection.Inventories before) (gs : List (Grant O)) :
    (gs.foldl PolicyInspection.visit inspection).Inventories (before ++ gs) := by
  induction gs generalizing inspection before with
  | nil => rwa [List.append_nil]
  | cons g gs ih =>
    have hstep := ih (h.visit g)
    rwa [List.append_assoc] at hstep

end PolicyInspection

theorem PreparedPolicy.inventories_inspect (prepared : PreparedPolicy O) :
    prepared.inspect.Inventories prepared.policy.grants := by
  rw [inspect_eq]
  exact PolicyInspection.inventories_foldl PolicyInspection.inventories_empty prepared.policy.grants

end Stack

/-! ## The clause of a decision -/

section Clauses

variable {O : Type}

/-- Holds of the clauses that combining arms makes up: a permit of combined outcomes, and a denial
for want of arms. -/
structure MadeUp (P : DecisiveClause O → Prop) : Prop where
  combined : ∀ o, P (.permit o [] none)
  nothing : P (.deny none [] none none .forbidden)

variable [Lattice O] [DecidableEq O] {P : DecisiveClause O → Prop}

theorem Permit.clause_meet (hP : MadeUp P) {p q : Permit O} (hp : P p.decisive)
    (hq : P q.decisive) : P (p.meet q).decisive := by
  unfold meet
  dsimp only
  split
  · exact hp
  · split
    · exact hq
    · exact hP.combined _

theorem Permit.clause_join (hP : MadeUp P) {p q : Permit O} (hp : P p.decisive)
    (hq : P q.decisive) : P (p.join q).decisive := by
  unfold join
  dsimp only
  split
  · exact hp
  · split
    · exact hq
    · split
      · exact hp
      · exact hP.combined _

theorem MadeUp.closed (hP : MadeUp P) : EvalResult.Closed fun r : EvalResult O => P r.decisive where
  constant := hP.combined
  generic := hP.nothing
  permitted _ _ hr _ := hr
  denied _ hr _ := hr
  meet _ _ hp hq := Permit.clause_meet hP hp hq
  join _ _ hp hq := Permit.clause_join hP hp hq

/-- The clause of a decision is that of a grant, or it has neither label nor reason. -/
theorem clause_evaluate (p : Policy O) (facts : KnownFacts) :
    ((evaluate p facts).trace.decisive.label = none ∧
        (evaluate p facts).trace.decisive.reason = none) ∨
      ∃ g ∈ p.grants, (evaluate p facts).trace.decisive = (g.result facts.truth).decisive := by
  have hP : MadeUp fun c => (c.label = none ∧ c.reason = none) ∨
      ∃ g ∈ p.grants, c = (g.result facts.truth).decisive :=
    ⟨fun _ => .inl ⟨rfl, rfl⟩, .inl ⟨rfl, rfl⟩⟩
  rw [evaluate_eq]
  exact hP.closed.resultWith p fun g hg => .inr ⟨g, hg, rfl⟩

omit [Lattice O] [DecidableEq O] in
theorem Grant.label_result (g : Grant O) (v : FactId → Bool) :
    (g.result v).decisive.label = g.label := by
  rw [Grant.result, grantResult]
  split <;> rfl

omit [Lattice O] [DecidableEq O] in
theorem Grant.named_of_deny {g : Grant O} {v : FactId → Bool} {denied : Option O}
    {unsatisfied : List FactId} {label : Option ClauseLabel} {reason : Option ReasonCode}
    {shape : DenyShape}
    (h : (g.result v).decisive = .deny denied unsatisfied label reason shape) :
    g.label = label ∧ g.reason = reason := by
  rw [Grant.result, grantResult] at h
  split at h
  · cases h
  · cases h
    exact ⟨rfl, rfl⟩

/-- The inventory has the code of every denial reason. -/
theorem PreparedPolicy.code_mem_reasons [Serialize O] (prepared : PreparedPolicy O)
    (facts : KnownFacts) {r : DenialReason}
    (hr : (evaluate prepared.policy facts).denialReason = .ok (some r)) :
    r.code.value ∈ prepared.inspect.reasons := by
  obtain ⟨denied, unsatisfied, label, reason, shape, hd, hcode⟩ :=
    Decision.clauseCode_of_denialReason hr
  rcases clause_evaluate prepared.policy facts with ⟨hlabel, hreason⟩ | ⟨g, hg, hc⟩
  · rw [hd] at hlabel hreason
    cases hlabel
    cases hreason
    cases hcode
  · rw [hd] at hc
    obtain ⟨rfl, rfl⟩ := Grant.named_of_deny hc.symm
    refine (prepared.inventories_inspect.reasons _).mpr ⟨g, hg, ?_⟩
    rw [Grant.code, clauseCode_value, hcode]
    rfl

/-- The inventory of a policy has the obligations, the decisive label and the code of the denial
reason of each of its decisions. Making it takes as many iterations as the policy has nodes, and its
findings are those of the grants in source order. -/
theorem inspect_covers_decisions [Serialize O] (prepared : PreparedPolicy O) (facts : KnownFacts) :
    (∀ o ∈ (evaluate prepared.policy facts).obligations, o ∈ prepared.inspect.obligations) ∧
    (∀ label, (evaluate prepared.policy facts).trace.decisive.label = some label →
      label ∈ prepared.inspect.labels) ∧
    (∀ r, (evaluate prepared.policy facts).denialReason = .ok (some r) →
      r.code.value ∈ prepared.inspect.reasons) ∧
    inspectAfter prepared.policy.nodes [prepared.policy] .empty = ([], prepared.inspect) ∧
    prepared.inspect.advice = adviceFrom [] prepared.policy.grants := by
  have hinspect := prepared.inventories_inspect
  have hclause := clause_evaluate prepared.policy facts
  refine ⟨fun o ho => ?_, fun label hlabel => ?_, fun r hr => ?_, ?_, hinspect.advice⟩
  · rw [evaluate_eq] at ho
    obtain ⟨g, hg, ho⟩ := prepared.policy.mem_obligations_resultWith ho
    rw [g.obligations_result, List.mem_ite_nil_right] at ho
    exact (hinspect.obligations o).mpr ⟨g, hg, ho.2⟩
  · rcases hclause with ⟨hnone, -⟩ | ⟨g, hg, hc⟩
    · rw [hnone] at hlabel
      cases hlabel
    · rw [hc, g.label_result] at hlabel
      exact (hinspect.labels label).mpr ⟨g, hg, hlabel⟩
  · exact prepared.code_mem_reasons facts hr
  · have hloop := inspectAfter_nodes [prepared.policy] .empty
    rwa [Policy.nodesOf, Policy.nodesOf, Nat.add_zero] at hloop

end Clauses

end Gatekeep
