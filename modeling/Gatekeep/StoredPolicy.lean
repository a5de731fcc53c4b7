import Gatekeep.Completion
import Gatekeep.PolicyWire
import Gatekeep.Reduction.Open
import Gatekeep.Sql.Lower

/-!
# Gatekeep.StoredPolicy

What a residual policy means after it was written as a JSON document and read back from it; the
text in between, with the nesting limit of its reader, is not modelled. Only the requested outcome
of a constant denial can be lost (`ResidualPolicy.durable`), and no part of evaluation, completion,
fact collection or lowering reads it: it only reaches the decisive clause of a denial
(`evaluateResidual_durable`). Evaluation commutes with every relabelling of decisive clauses that
leaves alone the clauses it makes up itself (`Relabels`).
-/

namespace Gatekeep

open Serde Wire

section Relabelling

variable {O : Type}

/-- A relabelling of decisive clauses that keeps those evaluation makes up itself. -/
structure Relabels (f : DecisiveClause O → DecisiveClause O) : Prop where
  generic : f (genericDeny : EvalResult O).decisive = (genericDeny : EvalResult O).decisive
  combined : ∀ o, f (.permit o [] none) = .permit o [] none

def EvalResult.relabel (f : DecisiveClause O → DecisiveClause O) (r : EvalResult O) :
    EvalResult O :=
  { r with decisive := f r.decisive }

def Permit.relabel (f : DecisiveClause O → DecisiveClause O) (p : Permit O) : Permit O :=
  { p with decisive := f p.decisive }

def EvalM.relabel (f : DecisiveClause O → DecisiveClause O) (run : EvalM O) : EvalM O :=
  fun consulted => ((run consulted).1.relabel f, (run consulted).2)

variable {f : DecisiveClause O → DecisiveClause O}

theorem Permit.relabel_outcome (p : Permit O) : (p.relabel f).outcome = p.outcome := rfl

theorem EvalM.relabel_apply (run : EvalM O) (consulted : Consulted) :
    run.relabel f consulted = ((run consulted).1.relabel f, (run consulted).2) := rfl

variable [Lattice O] [DecidableEq O] (hf : Relabels f)
include hf

omit [Lattice O] [DecidableEq O] in
theorem Relabels.permit (o : O) (obligations : List ObligationId) :
    (Permit.combined o obligations).relabel f = Permit.combined o obligations := by
  rw [Permit.relabel, Permit.combined, hf.combined]

theorem Relabels.meet (p q : Permit O) :
    (p.meet q).relabel f = (p.relabel f).meet (q.relabel f) := by
  simp only [Permit.meet, apply_ite (Permit.relabel f), hf.permit, Permit.relabel_outcome]
  rfl

theorem Relabels.join (p q : Permit O) :
    (p.join q).relabel f = (p.relabel f).join (q.relabel f) := by
  simp only [Permit.join, apply_ite (Permit.relabel f), hf.permit, Permit.relabel_outcome]
  rfl

theorem Relabels.evalAllBy (arms : List (EvalM O)) :
    ∀ acc, (Gatekeep.evalAllBy acc arms).relabel f =
      Gatekeep.evalAllBy (acc.map (Permit.relabel f)) (arms.map (EvalM.relabel f)) := by
  induction arms with
  | nil =>
    intro acc
    funext consulted
    cases acc with
    | none =>
      simp only [EvalM.relabel, Gatekeep.evalAllBy, EvalResult.relabel, hf.generic, Option.map,
        List.map_nil]
    | some p => rfl
  | cons arm arms ih =>
    intro acc
    funext consulted
    rw [EvalM.relabel_apply, List.map_cons]
    simp only [Gatekeep.evalAllBy, EvalM.relabel_apply]
    cases heffect : (arm consulted).1.effect with
    | deny => simp only [EvalResult.relabel, heffect]
    | permit o =>
      simp only [EvalResult.relabel, heffect]
      cases acc with
      | none => exact congrFun (ih _) _
      | some current =>
        refine (congrFun (ih _) _).trans ?_
        rw [Option.map_some, hf.meet]
        rfl

theorem Relabels.evalAnyBy (arms : List (EvalM O)) :
    ∀ winning first, (Gatekeep.evalAnyBy winning first arms).relabel f =
      Gatekeep.evalAnyBy (winning.map (Permit.relabel f)) (first.map f)
        (arms.map (EvalM.relabel f)) := by
  induction arms with
  | nil =>
    intro winning first
    funext consulted
    cases winning with
    | some p => rfl
    | none =>
      cases first with
      | some clause => rfl
      | none =>
        simp only [EvalM.relabel, Gatekeep.evalAnyBy, EvalResult.relabel, Option.getD_none,
          hf.generic, Option.map, List.map_nil]
  | cons arm arms ih =>
    intro winning first
    funext consulted
    rw [EvalM.relabel_apply, List.map_cons]
    simp only [Gatekeep.evalAnyBy, EvalM.relabel_apply]
    cases heffect : (arm consulted).1.effect with
    | deny =>
      simp only [EvalResult.relabel, heffect]
      refine (congrFun (ih _ _) _).trans ?_
      cases first <;> rfl
    | permit o =>
      simp only [EvalResult.relabel, heffect]
      cases winning with
      | none => exact congrFun (ih _ _) _
      | some current =>
        refine (congrFun (ih _ _) _).trans ?_
        rw [Option.map_some, hf.join]
        rfl

omit hf [Lattice O] [DecidableEq O] in
theorem EvalM.relabel_evalOrElse (primary fallback : EvalM O) :
    (evalOrElse primary fallback).relabel f =
      evalOrElse (primary.relabel f) (fallback.relabel f) := by
  funext consulted
  simp only [EvalM.relabel, evalOrElse, EvalResult.relabel]
  by_cases h : (primary consulted).1.effect.isPermit = true
  · simp only [h, if_true]
  · simp only [h]
    rfl

end Relabelling

/-! ## What a denial reads back as -/

section Durable

variable {O : Type} (outcome : Format WireError O)

/-- What a decisive clause reads back as. -/
def DecisiveClause.durable : DecisiveClause O → DecisiveClause O
  | .permit granted satisfied label => .permit granted satisfied label
  | .deny denied unsatisfied label reason shape =>
    .deny (outcome.durable denied) unsatisfied label reason shape

/-- What a decision reads back as. -/
def Decision.durable (d : Decision O) : Decision O :=
  { d with trace := { d.trace with decisive := d.trace.decisive.durable outcome } }

theorem relabels_durable : Relabels (DecisiveClause.durable outcome) where
  generic := rfl
  combined _ := rfl

namespace ResidualPolicy

theorem facts_durable (r : ResidualPolicy O) : (r.durable outcome).facts = r.facts := by
  have harms : ∀ rs : List (ResidualPolicy O), (∀ r ∈ rs, (r.durable outcome).facts = r.facts) →
      factsOf (durables outcome rs) = factsOf rs := by
    intro rs ih
    rw [durables_eq_map, factsOf_eq_flatMap, factsOf_eq_flatMap, List.flatMap_map]
    exact List.flatMap_congr ih
  induction r using ResidualPolicy.ind with
  | permit o => rfl
  | deny => rfl
  | permitWithTrace o obs satisfied label => rfl
  | denyWithTrace denied unsatisfied label reason shape => rfl
  | grant g => rfl
  | all rs ih => exact harms rs ih
  | any rs ih => exact harms rs ih
  | orElse primary fallback ihp ihf => rw [durable, facts, facts, ihp, ihf]

theorem carriesObligation_durable (r : ResidualPolicy O) :
    (r.durable outcome).carriesObligation = r.carriesObligation := by
  have harms : ∀ rs : List (ResidualPolicy O),
      (∀ r ∈ rs, (r.durable outcome).carriesObligation = r.carriesObligation) →
      (durables outcome rs).any carriesObligation = rs.any carriesObligation := by
    intro rs ih
    rw [durables_eq_map, List.any_map, Bool.eq_iff_iff, List.any_eq_true, List.any_eq_true]
    exact exists_congr fun r => and_congr_right fun hr => by rw [Function.comp, ih r hr]
  induction r using ResidualPolicy.ind with
  | permit o => rfl
  | deny => rfl
  | permitWithTrace o obs satisfied label => rfl
  | denyWithTrace denied unsatisfied label reason shape => rfl
  | grant g => rfl
  | all rs ih => rw [durable, carriesObligation_all, carriesObligation_all, harms rs ih]
  | any rs ih => rw [durable, carriesObligation_any, carriesObligation_any, harms rs ih]
  | orElse primary fallback ihp ihf =>
    rw [durable, carriesObligation_orElse, carriesObligation_orElse, ihp, ihf]

/-- A visitor that reads neither the requested outcome of a denial nor the source children, beyond
whether they carry an obligation. -/
structure Blind {T : Type} {m : Type → Type} (visitor : ResidualPolicyNode O T → m T) : Prop where
  denied : ∀ denied denied' unsatisfied label reason shape,
    visitor (.denyWithTrace denied unsatisfied label reason shape) =
      visitor (.denyWithTrace denied' unsatisfied label reason shape)
  all : ∀ rs rs' arms, visitor (.all rs arms) = visitor (.all rs' arms)
  any : ∀ rs rs' arms, visitor (.any rs arms) = visitor (.any rs' arms)
  orElse : ∀ p p' f f' tp tf, f.carriesObligation = f'.carriesObligation →
    visitor (.orElse p f tp tf) = visitor (.orElse p' f' tp tf)

/-- A blind visitor sees no difference in a residual that was stored. -/
theorem Blind.tryFoldPruned_durable {T : Type} {m : Type → Type} [Monad m]
    {visitor : ResidualPolicyNode O T → m T} (h : Blind visitor) (r : ResidualPolicy O) :
    (r.durable outcome).tryFoldPruned (fun b => pure (SqlxLowerer.shouldDescend b)) visitor =
      r.tryFoldPruned (fun b => pure (SqlxLowerer.shouldDescend b)) visitor := by
  have harms : ∀ rs : List (ResidualPolicy O),
      (∀ r ∈ rs, (r.durable outcome).tryFoldPruned
          (fun b => pure (SqlxLowerer.shouldDescend b)) visitor =
        r.tryFoldPruned (fun b => pure (SqlxLowerer.shouldDescend b)) visitor) →
      tryFoldPrunedArms (fun b => pure (SqlxLowerer.shouldDescend b)) visitor
          (durables outcome rs) =
        tryFoldPrunedArms (fun b => pure (SqlxLowerer.shouldDescend b)) visitor rs := by
    intro rs
    induction rs with
    | nil => exact fun _ => rfl
    | cons r rs ihrs =>
      intro ih
      rw [durables, tryFoldPrunedArms, tryFoldPrunedArms, ih r List.mem_cons_self,
        ihrs fun r' hr' => ih r' (List.mem_cons_of_mem _ hr')]
  induction r using ResidualPolicy.ind with
  | permit o => rfl
  | deny => rfl
  | permitWithTrace o obs satisfied label => rfl
  | denyWithTrace denied unsatisfied label reason shape => exact h.denied _ _ _ _ _ _
  | grant g => rfl
  | all rs ih =>
    rw [durable, tryFoldPruned, tryFoldPruned, harms rs ih]
    exact bind_congr fun arms => h.all _ _ _
  | any rs ih =>
    rw [durable, tryFoldPruned, tryFoldPruned, harms rs ih]
    exact bind_congr fun arms => h.any _ _ _
  | orElse primary fallback ihp ihf =>
    have hcarries := carriesObligation_durable outcome fallback
    have hdescend : SqlxLowerer.shouldDescend
        (.orElseFallback (primary.durable outcome) (fallback.durable outcome)) =
        SqlxLowerer.shouldDescend (.orElseFallback primary fallback) := by
      rw [SqlxLowerer.shouldDescend, SqlxLowerer.shouldDescend, hcarries]
    have hnode := fun tp tf => h.orElse (primary.durable outcome) primary
      (fallback.durable outcome) fallback tp tf hcarries
    rw [durable, tryFoldPruned, tryFoldPruned, ihp, ihf, hdescend]
    simp only [hnode]

end ResidualPolicy

section Evaluation

variable [Lattice O] [DecidableEq O]

/-- Up to what the decision itself would lose, a residual evaluates as it did before it was
stored. -/
theorem relabel_evalResidualPolicy_durable (facts : KnownFacts) (r : ResidualPolicy O) :
    (evalResidualPolicy facts (r.durable outcome)).relabel (DecisiveClause.durable outcome) =
      (evalResidualPolicy facts r).relabel (DecisiveClause.durable outcome) := by
  have harms : ∀ rs : List (ResidualPolicy O),
      (∀ r ∈ rs, (evalResidualPolicy facts (r.durable outcome)).relabel
          (DecisiveClause.durable outcome) =
        (evalResidualPolicy facts r).relabel (DecisiveClause.durable outcome)) →
      (evalResidualArms facts (ResidualPolicy.durables outcome rs)).map
          (EvalM.relabel (DecisiveClause.durable outcome)) =
        (evalResidualArms facts rs).map (EvalM.relabel (DecisiveClause.durable outcome)) := by
    intro rs ih
    rw [ResidualPolicy.durables_eq_map, evalResidualArms_eq_map, evalResidualArms_eq_map,
      List.map_map, List.map_map, List.map_map]
    exact List.map_congr_left ih
  have hf := relabels_durable outcome
  induction r using ResidualPolicy.ind with
  | permit o => rfl
  | deny => rfl
  | permitWithTrace o obs satisfied label => rfl
  | denyWithTrace denied unsatisfied label reason shape =>
    funext consulted
    simp only [ResidualPolicy.durable, evalResidualPolicy, EvalM.relabel_apply, EvalResult.relabel,
      DecisiveClause.durable, Format.durable_durable]
  | grant g => rfl
  | all rs ih =>
    rw [ResidualPolicy.durable, evalResidualPolicy, evalResidualPolicy, hf.evalAllBy, harms rs ih,
      ← hf.evalAllBy]
  | any rs ih =>
    rw [ResidualPolicy.durable, evalResidualPolicy, evalResidualPolicy, hf.evalAnyBy, harms rs ih,
      ← hf.evalAnyBy]
  | orElse primary fallback ihp ihf =>
    rw [ResidualPolicy.durable, evalResidualPolicy, evalResidualPolicy, EvalM.relabel_evalOrElse,
      ihp, ihf, ← EvalM.relabel_evalOrElse]

theorem evaluateResidual_durable (r : ResidualPolicy O) (facts : KnownFacts) :
    (evaluateResidual (r.durable outcome) facts).durable outcome =
      (evaluateResidual r facts).durable outcome := by
  have hrun := congrFun (relabel_evalResidualPolicy_durable outcome facts r) []
  exact congrArg EvalResult.toDecision hrun

theorem completeResidual_durable (r : ResidualPolicy O) (consulted : Consulted)
    (facts : KnownFacts) :
    (completeResidual (.pending (r.durable outcome) consulted) facts).durable outcome =
      (completeResidual (.pending r consulted) facts).durable outcome := by
  have heval := evaluateResidual_durable outcome r facts
  exact congrArg (withPriorConsulted · consulted) heval

end Evaluation

/-! ## Lowering -/

namespace SqlxLowerer

variable (L : SqlxLowerer O) (cx : Context)

theorem blind_lowerFilterNode : ResidualPolicy.Blind (L.lowerFilterNode cx) where
  denied _ _ _ _ _ _ := rfl
  all _ _ _ := rfl
  any _ _ _ := rfl
  orElse p p' f f' tp tf h := by simp only [lowerFilterNode, h]

theorem blind_lowerNode : ResidualPolicy.Blind (L.lowerNode cx) where
  denied _ _ _ _ _ _ := rfl
  all _ _ _ := rfl
  any _ _ _ := rfl
  orElse p p' f f' tp tf h := by simp only [lowerNode, h]

theorem lowerFilter_durable (r : ResidualPolicy O) :
    L.lowerFilter cx (r.durable outcome) = L.lowerFilter cx r := by
  have hfold := (L.blind_lowerFilterNode cx).tryFoldPruned_durable outcome r
  rw [lowerFilter, lowerFilter]
  exact congrArg (· >>= _) hfold

theorem lower_durable (r : ResidualPolicy O) : L.lower cx (r.durable outcome) = L.lower cx r := by
  have hfold := (L.blind_lowerNode cx).tryFoldPruned_durable outcome r
  rw [lower, lower, lowerPolicy, lowerPolicy]
  exact congrArg (· >>= _) hfold

end SqlxLowerer

/-- A residual policy that was stored as JSON can be finished wherever it is read: by evaluation, by
completion or in SQL. Only the outcome that a denial requested may be missing from the result. -/
theorem stored_residual [Lattice O] [DecidableEq O] (residual : ResidualPolicy O) :
    ∃ stored, readResidual outcome (writeResidual outcome residual) = .ok stored ∧
      (stored = residual ↔ ∀ o ∈ residual.requested, outcome.write o ≠ .null) ∧
      requiredResidualFacts stored = requiredResidualFacts residual ∧
      (∀ facts, (evaluateResidual stored facts).durable outcome =
        (evaluateResidual residual facts).durable outcome) ∧
      (∀ consulted facts,
        (completeResidual (.pending stored consulted) facts).durable outcome =
          (completeResidual (.pending residual consulted) facts).durable outcome) ∧
      ∀ (L : SqlxLowerer O) (cx : Context), L.lowerFilter cx stored = L.lowerFilter cx residual ∧
        L.lower cx stored = L.lower cx residual := by
  refine ⟨residual.durable outcome, readResidual_writeResidual outcome residual,
    residual.durable_eq_self outcome, ?_, evaluateResidual_durable outcome residual,
    completeResidual_durable outcome residual,
    fun L cx => ⟨L.lowerFilter_durable outcome cx residual, L.lower_durable outcome cx residual⟩⟩
  refine Std.ExtTreeSet.ext_mem fun fact => ?_
  rw [mem_requiredResidualFacts, mem_requiredResidualFacts, residual.facts_durable outcome]

end Durable

end Gatekeep
