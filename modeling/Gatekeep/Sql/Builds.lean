import Gatekeep.Sql.Filter

/-!
# Gatekeep.Sql.Builds

Properties that every lowered filter and grade has because of how the lowering builds them: `Builds`
lists the builders it uses, and what they preserve holds of what is lowered.
-/

namespace Gatekeep

namespace SqlxLowerer

variable {O : Type} {L : SqlxLowerer O} {cx : Context} {F G : SqlxFragment → Prop}

/-- The builders that make filters keep `F`, those that make grades keep `G`. -/
structure Builds (L : SqlxLowerer O) (cx : Context) (F G : SqlxFragment → Prop) : Prop where
  true : F (.trusted .true)
  false : F (.trusted .false)
  isTrue : ∀ fact predicate, L.predicates fact cx = some predicate → F (.isTrue predicate)
  tenant : F (.tenantEquals L.tenantColumn.qualified cx.tenant.value)
  not : ∀ f, F f → F (.not f)
  binary : ∀ connective f fs, (∀ f' ∈ f :: fs, F f') → F (.binary connective (f :: fs))
  null : G (.trusted .null)
  projected : ∀ outcome grade, L.projection outcome = .ok grade → G grade
  caseWhen : ∀ condition f g, F condition → G f → G g → G (.caseWhen condition f g)
  function : ∀ function f fs, (∀ f' ∈ f :: fs, G f') → G (.function function (f :: fs))
  pair : ∀ function f g, G f → G g → G (.nullSafeGradePair function f g)

theorem forall_mem_of_forall₂ {α β : Type} {P : β → Prop} {xs : List α} {ys : List β}
    (h : List.Forall₂ (fun _ y => P y) xs ys) : ∀ y ∈ ys, P y := by
  induction h with
  | nil => exact fun y hy => absurd hy List.not_mem_nil
  | cons hy _ ih => exact List.forall_mem_cons.mpr ⟨hy, ih⟩

namespace Builds

variable (h : L.Builds cx F G)
include h

/-! ## Sets of fragments -/

theorem fragmentSet (connective : Connective) {fs : List SqlxFragment} (hfs : ∀ f ∈ fs, F f) :
    F (fragmentSet fs connective .false) := by
  cases fs with
  | nil => exact h.false
  | cons f fs => exact h.binary connective f fs hfs

theorem foldl_pair (function : GradeFunction) {fs : List SqlxFragment} (hfs : ∀ f ∈ fs, G f) :
    ∀ {f : SqlxFragment}, G f → G (fs.foldl (.nullSafeGradePair function) f) := by
  induction fs with
  | nil => exact fun hf => hf
  | cons g fs ih =>
    obtain ⟨hg, hfs⟩ := List.forall_mem_cons.mp hfs
    exact fun hf => ih hfs (h.pair function _ g hf hg)

theorem gradeSet (b : Backend) (function : GradeFunction) {fs : List SqlxFragment}
    (hfs : ∀ f ∈ fs, G f) : G (gradeSet b fs function) := by
  match fs with
  | [] => exact h.null
  | [f] => exact hfs f List.mem_cons_self
  | f :: g :: fs =>
    rw [gradeSet_cons_cons]
    split
    · obtain ⟨hf, hfs⟩ := List.forall_mem_cons.mp hfs
      exact h.foldl_pair function hfs hf
    · exact h.function function f (g :: fs) hfs

/-! ## Conditions and policies -/

theorem lowerConditionSet {cs : List Condition} (connective : Connective)
    (ih : ∀ c ∈ cs, ∀ f, L.lowerCondition cx c = .ok f → F f) {f : SqlxFragment}
    (hset : Gatekeep.lowerConditionSet cs connective .false (L.lowerConditions cx cs) = .ok f) :
    F f := by
  unfold Gatekeep.lowerConditionSet at hset
  split at hset
  · cases hset
    exact h.false
  · rename_i hne
    obtain ⟨fs, hfs, rfl⟩ := Result.map_eq_ok.mp hset
    have harms := forall₂_lowerConditions ih fs hfs
    cases harms with
    | nil => exact absurd rfl hne
    | cons hf hrest =>
      exact h.binary connective _ _ (List.forall_mem_cons.mpr ⟨hf, forall_mem_of_forall₂ hrest⟩)

theorem lowerCondition (c : Condition) : ∀ f, L.lowerCondition cx c = .ok f → F f := by
  induction c using Condition.ind with
  | always =>
    intro f hf
    cases hf
    exact h.true
  | never =>
    intro f hf
    cases hf
    exact h.false
  | has fact =>
    intro f hf
    rw [SqlxLowerer.lowerCondition] at hf
    split at hf
    · rename_i predicate hp
      cases hf
      exact h.isTrue fact predicate hp
    · cases hf
  | not inner ih =>
    intro f hf
    obtain ⟨f', hf', rfl⟩ := Result.map_eq_ok.mp hf
    exact h.not f' (ih f' hf')
  | all cs ih => exact fun f hf => h.lowerConditionSet .and ih hf
  | any cs ih => exact fun f hf => h.lowerConditionSet .or ih hf

theorem lowerPolicy (r : ResidualPolicy O) :
    ∀ l, L.lowerPolicy cx r = .ok l → F l.filter ∧ G l.grade := by
  have harms : ∀ {rs : List (ResidualPolicy O)} {ls : List Lowered},
      List.Forall₂ (fun _ (l : Lowered) => F l.filter ∧ G l.grade) rs ls →
      (∀ f ∈ ls.map Lowered.filter, F f) ∧ ∀ g ∈ ls.map Lowered.grade, G g := by
    intro rs ls hls
    have hls := forall_mem_of_forall₂ (P := fun l : Lowered => F l.filter ∧ G l.grade) hls
    exact ⟨List.forall_mem_map.mpr fun l hl => (hls l hl).1,
      List.forall_mem_map.mpr fun l hl => (hls l hl).2⟩
  refine ResidualPolicy.tryFoldPruned_ok (P := fun _ (l : Lowered) => F l.filter ∧ G l.grade)
    ?_ ?_ ?_ ?_ ?_ ?_ ?_ ?_ ?_ r
  · intro o l hl
    obtain ⟨grade, hgrade, hl⟩ := Result.bind_eq_ok.mp hl
    cases hl
    exact ⟨h.true, h.projected o grade hgrade⟩
  · intro l hl
    cases hl
    exact ⟨h.false, h.null⟩
  · intro o obs satisfied label l hl
    obtain ⟨grade, hgrade, hl⟩ := Result.bind_eq_ok.mp hl
    cases hl
    exact ⟨h.true, h.projected o grade hgrade⟩
  · intro denied unsatisfied label reason shape l hl
    cases hl
    exact ⟨h.false, h.null⟩
  · intro g l hl
    obtain ⟨filter, hfilter, hl⟩ := Result.bind_eq_ok.mp hl
    obtain ⟨grade, hgrade, hl⟩ := Result.bind_eq_ok.mp hl
    cases hl
    have hcondition := h.lowerCondition g.condition filter hfilter
    exact ⟨hcondition, h.caseWhen filter grade (.trusted .null) hcondition
      (h.projected g.outcome grade hgrade) h.null⟩
  · intro rs ls l hls hl
    cases hl
    exact ⟨h.fragmentSet .and (harms hls).1, h.gradeSet _ .min (harms hls).2⟩
  · intro rs ls l hls hl
    cases hl
    exact ⟨h.fragmentSet .or (harms hls).1, h.gradeSet _ .max (harms hls).2⟩
  · intro primary fallback lp lf l _ hp hf _ hl
    rw [lowerNode] at hl
    split at hl
    · cases hl
      exact hp
    · cases hl
      exact ⟨h.binary .or lp.filter [lf.filter]
          (List.forall_mem_cons.mpr ⟨hp.1, List.forall_mem_singleton.mpr hf.1⟩),
        h.caseWhen lp.filter lp.grade lf.grade hp.1 hp.2 hf.2⟩
  · intro primary fallback lp l hp _ hl
    rw [lowerNode] at hl
    split at hl <;> cases hl <;> exact hp

/-! ## Lowered results -/

theorem enforceTenantFilter {f : SqlxFragment} (hf : F f) : F (L.enforceTenantFilter cx f) :=
  h.binary .and _ [f] (List.forall_mem_cons.mpr ⟨h.tenant, List.forall_mem_singleton.mpr hf⟩)

theorem enforceTenantProjection {g : SqlxFragment} (hg : G g) :
    G (L.enforceTenantProjection cx g) :=
  h.caseWhen _ g (.trusted .null) (h.enforceTenantFilter h.true) hg h.null

theorem lower {r : ResidualPolicy O} {lowered : Lowered} (hl : L.lower cx r = .ok lowered) :
    F lowered.filter ∧ G lowered.grade := by
  obtain ⟨l, hinner, hl⟩ := Result.bind_eq_ok.mp hl
  cases hl
  obtain ⟨hfilter, hgrade⟩ := h.lowerPolicy r l hinner
  exact ⟨h.enforceTenantFilter hfilter, h.enforceTenantProjection hgrade⟩

theorem lowerResult {result : Residual O} {lowered : Lowered}
    (hl : L.lowerResult cx result = .ok lowered) : F lowered.filter ∧ G lowered.grade := by
  cases result with
  | pending r consulted => exact h.lower hl
  | resolved decision =>
    obtain ⟨l, hdecision, hl⟩ := Result.bind_eq_ok.mp hl
    cases hl
    suffices F l.filter ∧ G l.grade from
      ⟨h.enforceTenantFilter this.1, h.enforceTenantProjection this.2⟩
    unfold lowerDecision at hdecision
    split at hdecision
    · obtain ⟨grade, hgrade, rfl⟩ := Result.map_eq_ok.mp hdecision
      exact ⟨h.true, h.projected _ grade hgrade⟩
    · cases hdecision
      exact ⟨h.false, h.null⟩

end Builds

end SqlxLowerer

end Gatekeep
