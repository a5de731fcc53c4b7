import Gatekeep.Completion
import Gatekeep.Reduction.Open
import Gatekeep.Sql.Lower
import Gatekeep.Sql.Semantics

/-!
# Gatekeep.Sql.Filter

The filter of a lowered policy selects the rows the point check permits.

* `ResidualPolicy.selected v`: what the filter of a residual policy decides on a row whose facts
  are as `v` says. It is the residual's permission, except that a fallback carrying an obligation
  is left out (`selected_isPermit`, `selected_eq_isPermit`).
* `SqlxLowerer.Mirrors`: the truth of a fact is what its predicate says on the row.

A residue names only facts that were unknown (`Policy.facts_residue`), so these are the facts whose
truth the row provides. `lowerResult_filter` puts the two halves together.
-/

namespace Gatekeep

/-! ## What a filter decides -/

namespace ResidualPolicy

variable {O : Type}

mutual

/-- Every fallback inside a residual policy. -/
def fallbacks : ResidualPolicy O → List (ResidualPolicy O)
  | .permit _ | .deny | .permitWithTrace .. | .denyWithTrace .. | .grant _ => []
  | .all policies | .any policies => fallbacksOf policies
  | .orElse primary fallback => fallback :: (fallbacks primary ++ fallbacks fallback)

def fallbacksOf : List (ResidualPolicy O) → List (ResidualPolicy O)
  | [] => []
  | r :: rs => fallbacks r ++ fallbacksOf rs

end

mutual

def selected (v : FactId → Bool) : ResidualPolicy O → Bool
  | .permit _ | .permitWithTrace .. => true
  | .deny | .denyWithTrace .. => false
  | .grant g => g.condition.holds v
  | .all policies => !policies.isEmpty && (selectedEach v policies).all id
  | .any policies => (selectedEach v policies).any id
  | .orElse primary fallback =>
    selected v primary || (!fallback.carriesObligation && selected v fallback)

def selectedEach (v : FactId → Bool) : List (ResidualPolicy O) → List Bool
  | [] => []
  | r :: rs => selected v r :: selectedEach v rs

end

theorem fallbacksOf_eq_flatMap (rs : List (ResidualPolicy O)) :
    fallbacksOf rs = rs.flatMap fallbacks := by
  induction rs with
  | nil => rfl
  | cons r rs ih => rw [fallbacksOf, ih, List.flatMap_cons]

theorem selectedEach_eq_map (v : FactId → Bool) (rs : List (ResidualPolicy O)) :
    selectedEach v rs = rs.map (selected v) := by
  induction rs with
  | nil => rfl
  | cons r rs ih => rw [selectedEach, ih, List.map_cons]

/-- What carries no obligation has no fallback that does. -/
theorem fallbacks_free (r : ResidualPolicy O) :
    r.carriesObligation = false → ∀ f ∈ r.fallbacks, f.carriesObligation = false := by
  have harms : ∀ rs : List (ResidualPolicy O),
      (∀ r ∈ rs, r.carriesObligation = false → ∀ f ∈ r.fallbacks, f.carriesObligation = false) →
      rs.any carriesObligation = false → ∀ f ∈ fallbacksOf rs, f.carriesObligation = false := by
    intro rs ih h f hf
    rw [fallbacksOf_eq_flatMap, List.mem_flatMap] at hf
    obtain ⟨r, hr, hf⟩ := hf
    exact ih r hr (by simpa using List.any_eq_false.mp h r hr) f hf
  induction r using ResidualPolicy.ind with
  | permit o =>
    intro _ _ hf
    cases hf
  | deny =>
    intro _ _ hf
    cases hf
  | permitWithTrace o obs facts label =>
    intro _ _ hf
    cases hf
  | denyWithTrace o facts label reason shape =>
    intro _ _ hf
    cases hf
  | grant g =>
    intro _ _ hf
    cases hf
  | all rs ih => exact fun h => harms rs ih (by rwa [carriesObligation_all] at h)
  | any rs ih => exact fun h => harms rs ih (by rwa [carriesObligation_any] at h)
  | orElse primary fallback ihp ihf =>
    intro h
    rw [carriesObligation_orElse, Bool.or_eq_false_iff] at h
    rw [fallbacks, List.forall_mem_cons, List.forall_mem_append]
    exact ⟨h.2, ihp h.1, ihf h.2⟩

variable [Lattice O] [DecidableEq O] {v : FactId → Bool}

theorem isPermit_all (rs : List (ResidualPolicy O)) :
    ((ResidualPolicy.all rs).result v).effect.isPermit =
      (!rs.isEmpty && rs.all fun r => (r.result v).effect.isPermit) := by
  rw [result, EvalResult.effect_all, Effect.isPermit_all, results_eq_map, List.map_map,
    List.isEmpty_map, List.all_map]
  rfl

theorem isPermit_any (rs : List (ResidualPolicy O)) :
    ((ResidualPolicy.any rs).result v).effect.isPermit =
      rs.any fun r => (r.result v).effect.isPermit := by
  rw [result, EvalResult.effect_any, Effect.isPermit_any, results_eq_map, List.map_map,
    List.any_map]
  rfl

theorem isPermit_orElse (primary fallback : ResidualPolicy O) :
    ((ResidualPolicy.orElse primary fallback).result v).effect.isPermit =
      ((primary.result v).effect.isPermit || (fallback.result v).effect.isPermit) := by
  rw [result]
  split
  · rename_i h; rw [h, Bool.true_or]
  · rename_i h; rw [Bool.not_eq_true _ |>.mp h, Bool.false_or]

/-- Whatever is selected is permitted. -/
theorem selected_isPermit (r : ResidualPolicy O) :
    r.selected v = true → (r.result v).effect.isPermit = true := by
  induction r using ResidualPolicy.ind with
  | permit o => exact fun _ => rfl
  | deny =>
    intro h
    cases h
  | permitWithTrace o obs facts label => exact fun _ => rfl
  | denyWithTrace o facts label reason shape =>
    intro h
    cases h
  | grant g => exact fun h => (Grant.isPermit_result v g).trans h
  | all rs ih =>
    rw [isPermit_all, selected, selectedEach_eq_map, Bool.and_eq_true, Bool.and_eq_true]
    refine And.imp_right fun h => ?_
    rw [List.all_map, List.all_eq_true] at h
    exact List.all_eq_true.mpr fun r hr => ih r hr (h r hr)
  | any rs ih =>
    rw [isPermit_any, selected, selectedEach_eq_map, List.any_map, List.any_eq_true,
      List.any_eq_true]
    rintro ⟨r, hr, h⟩
    exact ⟨r, hr, ih r hr h⟩
  | orElse primary fallback ihp ihf =>
    rw [isPermit_orElse, selected, Bool.or_eq_true, Bool.or_eq_true, Bool.and_eq_true]
    exact Or.imp ihp fun h => ihf h.2

/-- Where no fallback carries an obligation, exactly what is permitted is selected. -/
theorem selected_eq_isPermit (r : ResidualPolicy O) :
    (∀ f ∈ r.fallbacks, f.carriesObligation = false) →
      r.selected v = (r.result v).effect.isPermit := by
  induction r using ResidualPolicy.ind with
  | permit o => exact fun _ => rfl
  | deny => exact fun _ => rfl
  | permitWithTrace o obs facts label => exact fun _ => rfl
  | denyWithTrace o facts label reason shape => exact fun _ => rfl
  | grant g => exact fun _ => (Grant.isPermit_result v g).symm
  | all rs ih =>
    intro h
    rw [fallbacks, fallbacksOf_eq_flatMap] at h
    have harms : rs.map (selected v) = rs.map fun r => (r.result v).effect.isPermit :=
      List.map_congr_left fun r hr =>
        ih r hr fun f hf => h f (List.mem_flatMap.mpr ⟨r, hr, hf⟩)
    rw [isPermit_all, selected, selectedEach_eq_map, harms, List.all_map]
    rfl
  | any rs ih =>
    intro h
    rw [fallbacks, fallbacksOf_eq_flatMap] at h
    have harms : rs.map (selected v) = rs.map fun r => (r.result v).effect.isPermit :=
      List.map_congr_left fun r hr =>
        ih r hr fun f hf => h f (List.mem_flatMap.mpr ⟨r, hr, hf⟩)
    rw [isPermit_any, selected, selectedEach_eq_map, harms, List.any_map]
    rfl
  | orElse primary fallback ihp ihf =>
    intro h
    rw [fallbacks, List.forall_mem_cons, List.forall_mem_append] at h
    rw [isPermit_orElse, selected, ihp h.2.1, ihf h.2.2, h.1, Bool.not_false, Bool.true_and]

end ResidualPolicy

/-! ## The lowering -/

namespace SqlxLowerer

variable {O : Type} {L : SqlxLowerer O} {cx : Context} {row : Row} {v : FactId → Bool}

/-- The fact's truth is that of its predicate on the row, with NULL counting as absent. Nothing is
said of a fact without a predicate. -/
def Mirrors (L : SqlxLowerer O) (cx : Context) (row : Row) (v : FactId → Bool) (fact : FactId) :
    Prop :=
  ∀ predicate, L.predicates fact cx = some predicate →
    v fact = (predicate.truth L.backend row == some true)

theorem map_eq_of_forall₂ {α β γ : Type} {f : α → γ} {g : β → γ} {l : List α} {l' : List β}
    (h : List.Forall₂ (fun a b => g b = f a) l l') : l'.map g = l.map f := by
  induction h with
  | nil => rfl
  | cons hb _ ih => rw [List.map_cons, List.map_cons, hb, ih]

theorem truth_lowerConditionSet {connective : Connective} {cs : List Condition}
    {fragments : Except LowerError (List SqlxFragment)} {f : SqlxFragment} {b : Condition → Bool}
    (ih : ∀ fs, fragments = .ok fs →
      List.Forall₂ (fun c f => f.truth L.backend row = some (b c)) cs fs)
    (h : lowerConditionSet cs connective .false fragments = .ok f) :
    f.truth L.backend row =
      if cs.isEmpty then some false else connective.apply (cs.map fun c => some (b c)) := by
  unfold lowerConditionSet at h
  split at h
  · rename_i he
    cases h
    rw [if_pos he, SqlxFragment.truth_false]
  · rename_i he
    obtain ⟨fs, hfs, rfl⟩ := Result.map_eq_ok.mp h
    have harms := ih fs hfs
    have hne : fs ≠ [] := by
      rintro rfl
      cases harms
      exact he rfl
    rw [if_neg he, SqlxFragment.truth_binary connective hne, map_eq_of_forall₂ harms]

theorem forall₂_lowerConditions {cs : List Condition} {R : Condition → SqlxFragment → Prop}
    (ih : ∀ c ∈ cs, ∀ f, L.lowerCondition cx c = .ok f → R c f) :
    ∀ fs, L.lowerConditions cx cs = .ok fs → List.Forall₂ R cs fs := by
  induction cs with
  | nil =>
    intro fs h
    cases h
    exact .nil
  | cons c cs ihcs =>
    intro fs h
    rw [lowerConditions] at h
    obtain ⟨f, hf, h⟩ := Result.bind_eq_ok.mp h
    obtain ⟨fs', hfs, h⟩ := Result.bind_eq_ok.mp h
    cases h
    exact .cons (ih c List.mem_cons_self f hf)
      (ihcs (fun c' hc' => ih c' (List.mem_cons_of_mem _ hc')) fs' hfs)

/-- A lowered condition is never NULL, and true on the rows where the condition holds. -/
theorem truth_lowerCondition (c : Condition) : (∀ fact ∈ c.facts, L.Mirrors cx row v fact) →
    ∀ f, L.lowerCondition cx c = .ok f → f.truth L.backend row = some (c.holds v) := by
  induction c using Condition.ind with
  | always =>
    intro _ f h
    cases h
    exact SqlxFragment.truth_true
  | never =>
    intro _ f h
    cases h
    exact SqlxFragment.truth_false
  | has fact =>
    intro hm f h
    rw [lowerCondition] at h
    split at h
    · rename_i predicate hp
      cases h
      rw [SqlxFragment.truth_isTrue, Condition.holds, hm fact List.mem_cons_self predicate hp]
    · cases h
  | not inner ih =>
    intro hm f h
    obtain ⟨f', hf, rfl⟩ := Result.map_eq_ok.mp h
    rw [SqlxFragment.truth_not, ih hm f' hf, Kleene.neg_some, Condition.holds]
  | all cs ih =>
    intro hm f h
    rw [Condition.facts, Condition.factsOf_eq_flatMap] at hm
    rw [truth_lowerConditionSet (forall₂_lowerConditions fun c hc =>
        ih c hc fun fact hf => hm fact (List.mem_flatMap.mpr ⟨c, hc, hf⟩)) h,
      Condition.holds, Condition.holdsAll_eq_all, Connective.apply, Kleene.conj_map_some]
    cases cs <;> rfl
  | any cs ih =>
    intro hm f h
    rw [Condition.facts, Condition.factsOf_eq_flatMap] at hm
    rw [truth_lowerConditionSet (forall₂_lowerConditions fun c hc =>
        ih c hc fun fact hf => hm fact (List.mem_flatMap.mpr ⟨c, hc, hf⟩)) h,
      Condition.holds, Condition.holdsAny_eq_any, Connective.apply, Kleene.disj_map_some]
    cases cs <;> rfl

theorem truth_fragmentSet {connective : Connective} {rs : List (ResidualPolicy O)}
    {fs : List SqlxFragment}
    (h : List.Forall₂ (fun r f => f.truth L.backend row = some (r.selected v)) rs fs) :
    (fragmentSet fs connective .false).truth L.backend row =
      if rs.isEmpty then some false else connective.apply (rs.map fun r => some (r.selected v)) := by
  have hmap := map_eq_of_forall₂ h
  cases h with
  | nil => exact SqlxFragment.truth_false
  | cons =>
    rw [fragmentSet, if_neg (by simp), if_neg (by simp),
      SqlxFragment.truth_binary connective (by simp), hmap]

theorem truth_filter_all {rs : List (ResidualPolicy O)} {fs : List SqlxFragment}
    (h : List.Forall₂ (fun r f => f.truth L.backend row = some (r.selected v)) rs fs) :
    (fragmentSet fs .and .false).truth L.backend row =
      some ((ResidualPolicy.all rs).selected v) := by
  rw [truth_fragmentSet h, Connective.apply, Kleene.conj_map_some, ResidualPolicy.selected,
    ResidualPolicy.selectedEach_eq_map, List.all_map]
  cases rs <;> rfl

theorem truth_filter_any {rs : List (ResidualPolicy O)} {fs : List SqlxFragment}
    (h : List.Forall₂ (fun r f => f.truth L.backend row = some (r.selected v)) rs fs) :
    (fragmentSet fs .or .false).truth L.backend row =
      some ((ResidualPolicy.any rs).selected v) := by
  rw [truth_fragmentSet h, Connective.apply, Kleene.disj_map_some, ResidualPolicy.selected,
    ResidualPolicy.selectedEach_eq_map, List.any_map]
  cases rs <;> rfl

theorem truth_filter_orElse {primary fallback : ResidualPolicy O} {fp ff : SqlxFragment}
    (hp : fp.truth L.backend row = some (primary.selected v))
    (hf : ff.truth L.backend row = some (fallback.selected v))
    (hd : fallback.carriesObligation = false) :
    (SqlxFragment.binary .or [fp, ff]).truth L.backend row =
      some ((ResidualPolicy.orElse primary fallback).selected v) := by
  rw [SqlxFragment.truth_binary .or (by simp), List.map_cons, List.map_cons, List.map_nil, hp, hf,
    ResidualPolicy.selected, hd]
  cases primary.selected v <;> cases fallback.selected v <;> rfl

/-- Arms whose facts are mirrored, one by one. -/
theorem forall₂_of_mirrors {T : Type} {rs : List (ResidualPolicy O)} {ts : List T}
    {Q : ResidualPolicy O → T → Prop}
    (h : List.Forall₂ (fun r t => (∀ fact ∈ r.facts, L.Mirrors cx row v fact) → Q r t) rs ts)
    (hm : ∀ fact ∈ ResidualPolicy.factsOf rs, L.Mirrors cx row v fact) : List.Forall₂ Q rs ts := by
  induction h with
  | nil => exact .nil
  | cons hr _ ih =>
    rw [ResidualPolicy.factsOf, List.forall_mem_append] at hm
    exact .cons (hr hm.1) (ih hm.2)

/-- The filter of a lowered policy is never NULL, and true on the rows that are selected. -/
theorem truth_lowerPolicy (r : ResidualPolicy O) : ∀ l, L.lowerPolicy cx r = .ok l →
    (∀ fact ∈ r.facts, L.Mirrors cx row v fact) →
      l.filter.truth L.backend row = some (r.selected v) := by
  refine ResidualPolicy.tryFoldPruned_ok (P := fun r (l : Lowered) =>
    (∀ fact ∈ r.facts, L.Mirrors cx row v fact) → l.filter.truth L.backend row = some (r.selected v))
    ?_ ?_ ?_ ?_ ?_ ?_ ?_ ?_ ?_ r
  · intro o l h _
    obtain ⟨grade, _, h⟩ := Result.bind_eq_ok.mp h
    cases h
    exact SqlxFragment.truth_true
  · intro l h _
    cases h
    exact SqlxFragment.truth_false
  · intro o obs facts label l h _
    obtain ⟨grade, _, h⟩ := Result.bind_eq_ok.mp h
    cases h
    exact SqlxFragment.truth_true
  · intro o facts label reason shape l h _
    cases h
    exact SqlxFragment.truth_false
  · intro g l h hm
    obtain ⟨filter, hf, h⟩ := Result.bind_eq_ok.mp h
    obtain ⟨outcome, _, h⟩ := Result.bind_eq_ok.mp h
    cases h
    exact truth_lowerCondition g.condition hm filter hf
  · intro rs ls l harms h hm
    cases h
    exact truth_filter_all (List.forall₂_map_right_iff.mpr (forall₂_of_mirrors harms hm))
  · intro rs ls l harms h hm
    cases h
    exact truth_filter_any (List.forall₂_map_right_iff.mpr (forall₂_of_mirrors harms hm))
  · intro primary fallback lp lf l _ hp hf hd h hm
    rw [ResidualPolicy.facts, List.forall_mem_append] at hm
    have hd' : fallback.carriesObligation = false := by simpa [shouldDescend] using hd
    rw [lowerNode, hd'] at h
    cases h
    exact truth_filter_orElse (hp hm.1) (hf hm.2) hd'
  · intro primary fallback lp l hp hd h hm
    rw [ResidualPolicy.facts, List.forall_mem_append] at hm
    have hd' : fallback.carriesObligation = true := by simpa [shouldDescend] using hd
    rw [lowerNode, if_pos hd'] at h
    cases h
    rw [ResidualPolicy.selected, hd', Bool.not_true, Bool.false_and, Bool.or_false]
    exact hp hm.1

/-! ## The tenant guard -/

/-- The row belongs to the context's tenant. -/
def OwnTenant (L : SqlxLowerer O) (cx : Context) (row : Row) : Prop :=
  row.column L.tenantColumn.qualified = some cx.tenant.value

theorem selects_enforceTenantFilter (f : SqlxFragment) :
    row.selects L.backend (L.enforceTenantFilter cx f) ↔
      L.OwnTenant cx row ∧ f.truth L.backend row = some true := by
  have htenant : (row.column L.tenantColumn.qualified).map (· == cx.tenant.value) = some true ↔
      L.OwnTenant cx row := by
    rw [OwnTenant, Option.map_eq_some_iff]
    simp
  rw [Row.selects, enforceTenantFilter, SqlxFragment.truth_binary .and (by simp), Connective.apply,
    Kleene.conj_eq_true, List.forall_mem_map]
  simp only [List.forall_mem_cons, SqlxFragment.truth_tenantEquals, htenant]
  simp

end SqlxLowerer

/-! ## Point check and list filter -/

/-- `known` is `facts` completed with what the row's predicates say of the unknown facts. -/
structure SqlxLowerer.Completes {O : Type} (L : SqlxLowerer O) (cx : Context) (row : Row)
    (facts : PartialFacts) (known : KnownFacts) : Prop where
  completedBy : facts.CompletedBy known
  mirrors : ∀ fact, facts.presence fact = .unknown → L.Mirrors cx row known.truth fact

section Selection

variable {O : Type} [Lattice O] [DecidableEq O] {L : SqlxLowerer O} {cx : Context} {row : Row}
  {facts : PartialFacts} {known : KnownFacts}

/-- The fallbacks of what is left of a policy carry no obligation. -/
def Residual.FallbacksFree : Residual O → Prop
  | .resolved _ => True
  | .pending residual _ => ∀ f ∈ residual.fallbacks, f.carriesObligation = false

omit [Lattice O] [DecidableEq O] in
/-- A resolved decision lowers to a constant filter. -/
theorem selects_lowerResult_resolved {d : Decision O} {lowered : Lowered}
    (h : L.lowerResult cx (.resolved d) = .ok lowered) :
    row.selects L.backend lowered.filter ↔ L.OwnTenant cx row ∧ d.effect.isPermit = true := by
  obtain ⟨l, hl, h⟩ := Result.bind_eq_ok.mp h
  cases h
  rw [SqlxLowerer.selects_enforceTenantFilter]
  rw [SqlxLowerer.lowerDecision] at hl
  split at hl
  · rename_i o he
    obtain ⟨grade, _, rfl⟩ := Result.map_eq_ok.mp hl
    simp [he, Effect.isPermit]
  · rename_i he
    cases hl
    simp [he, Effect.isPermit]

omit [Lattice O] [DecidableEq O] in
theorem selects_lower {r : ResidualPolicy O} {v : FactId → Bool} {lowered : Lowered}
    (hm : ∀ fact ∈ r.facts, L.Mirrors cx row v fact) (h : L.lower cx r = .ok lowered) :
    row.selects L.backend lowered.filter ↔ L.OwnTenant cx row ∧ r.selected v = true := by
  obtain ⟨l, hl, h⟩ := Result.bind_eq_ok.mp h
  cases h
  rw [SqlxLowerer.selects_enforceTenantFilter, SqlxLowerer.truth_lowerPolicy r l hl hm,
    Option.some.injEq]

/-- The facts of a pending residual are mirrored by the row. -/
theorem mirrors_pending {p : Policy O} {r : ResidualPolicy O} {consulted : Consulted}
    (h : L.Completes cx row facts known) (hr : partialEvaluate p facts = .pending r consulted) :
    ∀ fact ∈ r.facts, L.Mirrors cx row known.truth fact := by
  rw [partialEvaluate, reducePolicy_eq, Policy.reduced] at hr
  split at hr
  · cases hr
  · rename_i hv
    cases hr
    intro fact hf
    obtain ⟨-, hu⟩ := (Policy.facts_residue hv).1 fact hf
    exact h.mirrors fact (PartialFacts.truth_eq_none.mp hu)

theorem Residual.effect_pending (r : ResidualPolicy O)
    (consulted : Consulted) (known : KnownFacts) :
    (completeResidual (.pending r consulted) known).effect = (r.result known.truth).effect := by
  rw [completeResidual, evaluateResidual_eq]
  rfl

theorem permits_of_selects {p : Policy O} {lowered : Lowered} (h : L.Completes cx row facts known)
    (hl : L.lowerResult cx (partialEvaluate p facts) = .ok lowered)
    (hs : row.selects L.backend lowered.filter) :
    L.OwnTenant cx row ∧ (evaluate p known).effect.isPermit = true := by
  have hpermit := isPermit_completeResidual p h.completedBy
  cases hr : partialEvaluate p facts with
  | resolved d =>
    rw [hr] at hl hpermit
    rw [← hpermit]
    exact (selects_lowerResult_resolved hl).mp hs
  | pending r consulted =>
    rw [hr] at hl hpermit
    rw [← hpermit, Residual.effect_pending]
    exact ((selects_lower (mirrors_pending h hr) hl).mp hs).imp_right r.selected_isPermit

theorem selects_iff_of_free {p : Policy O} {lowered : Lowered} (h : L.Completes cx row facts known)
    (hl : L.lowerResult cx (partialEvaluate p facts) = .ok lowered)
    (hfree : (partialEvaluate p facts).FallbacksFree) :
    row.selects L.backend lowered.filter ↔
      L.OwnTenant cx row ∧ (evaluate p known).effect.isPermit = true := by
  have hpermit := isPermit_completeResidual p h.completedBy
  cases hr : partialEvaluate p facts with
  | resolved d =>
    rw [hr] at hl hpermit
    rw [← hpermit]
    exact selects_lowerResult_resolved hl
  | pending r consulted =>
    rw [hr] at hl hpermit hfree
    rw [← hpermit, Residual.effect_pending, ← r.selected_eq_isPermit hfree]
    exact selects_lower (mirrors_pending h hr) hl

/-- The list filter selects rows of the tenant that the point check permits, and all of them where
no fallback of the residual carries an obligation. -/
theorem lowerResult_filter (L : SqlxLowerer O) (p : Policy O) (facts : PartialFacts) (cx : Context)
    (row : Row) (known : KnownFacts) (h : L.Completes cx row facts known) (lowered : Lowered)
    (hl : L.lowerResult cx (partialEvaluate p facts) = .ok lowered) :
    (row.selects L.backend lowered.filter →
        L.OwnTenant cx row ∧ (evaluate p known).effect.isPermit = true) ∧
      ((partialEvaluate p facts).FallbacksFree →
        L.OwnTenant cx row ∧ (evaluate p known).effect.isPermit = true →
        row.selects L.backend lowered.filter) :=
  ⟨permits_of_selects h hl, fun hfree => (selects_iff_of_free h hl hfree).mpr⟩

end Selection

namespace Sample

/-- Every fact has a column of its own name. -/
def documents (O : Type) [SqlOutcome O] (backend : Backend) : SqlxLowerer O where
  backend
  predicates fact _ := some (.raw [.text fact.value])
  projection := ordinalProjection
  tenantColumn := ⟨"documents", "tenant_id", by decide, by decide⟩

/-- A row of the tenant on which the columns `holding` are true and all others are NULL. -/
def document (holding : List FactId) : Row where
  column _ := some "acme"
  raw parts := if parts ∈ holding.map fun fact => [.text fact.value] then some (.bool true) else none

theorem documents_completes (O : Type) [SqlOutcome O] (backend : Backend) :
    (documents O backend).Completes request (document [owner]) (ownerUnknown .absent)
      (ownerKnown .present .absent (by decide) (by decide)) where
  completedBy := ownerUnknown_completedBy _ _
  mirrors fact hfact predicate hp := by
    have howner : fact = owner := by
      rw [ownerUnknown, PartialFacts.presence_withFact, PartialFacts.presence_withFact] at hfact
      split at hfact
      · cases hfact
      · split at hfact
        · rename_i h; exact h.symm
        · cases hfact
    subst howner
    cases hp
    rfl

end Sample

open Sample in
theorem lowerResult_filter_owner :
    ∃ lowered, (documents Unit .sqlite).lowerResult request (partialEvaluate
        (.any [grantIf (.has owner) [], grantIf (.has member) []]) (ownerUnknown .absent)) =
          .ok lowered ∧
      ((document [owner]).selects .sqlite lowered.filter →
        (documents Unit .sqlite).OwnTenant request (document [owner]) ∧
          (evaluate (.any [grantIf (.has owner) [], grantIf (.has member) []])
            (ownerKnown .present .absent (by decide) (by decide))).effect.isPermit = true) ∧
      ((partialEvaluate (.any [grantIf (.has owner) [], grantIf (.has member) []])
          (ownerUnknown .absent)).FallbacksFree →
        (documents Unit .sqlite).OwnTenant request (document [owner]) ∧
          (evaluate (.any [grantIf (.has owner) [], grantIf (.has member) []])
            (ownerKnown .present .absent (by decide) (by decide))).effect.isPermit = true →
        (document [owner]).selects .sqlite lowered.filter) :=
  ⟨_, rfl, lowerResult_filter (documents Unit .sqlite) _ _ request (document [owner]) _
    (documents_completes Unit .sqlite) _ rfl⟩

end Gatekeep
