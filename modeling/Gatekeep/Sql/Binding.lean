import Gatekeep.Sql.Filter

/-!
# Gatekeep.Sql.Binding

Request data is bound and never written. Two lowerings of one policy whose predicates have the same
texts under two contexts fail alike, or give SQL of the same text: what differs between the requests,
the tenant first of all, is in the bind values (`lowered_text_independent`). The same holds of the
ordinals of outcomes. The guard's own text is the tenant column, two identifiers and a dot.
-/

namespace Gatekeep

open Result (Both)

/-! ## Texts with holes -/

/-- The text of a part, nothing for a bind. -/
def SqlPart.hole : SqlPart → Option String
  | .text sql => some sql
  | .bind _ => none

namespace SqlxFragment

/-- The texts of a fragment in order, with a hole for each bind. -/
def skeleton (b : Backend) (f : SqlxFragment) : List (Option String) := (f.parts b).map SqlPart.hole

/-- The fragments differ at most in bind values. -/
def SameText (b : Backend) (f f' : SqlxFragment) : Prop := f.skeleton b = f'.skeleton b

variable {b : Backend}

theorem render_of_skeleton {ps ps' : List SqlPart} (h : ps.map SqlPart.hole = ps'.map SqlPart.hole)
    (n : Nat) : render b ps n = render b ps' n := by
  induction ps generalizing ps' n with
  | nil =>
    cases ps' with
    | nil => rfl
    | cons p' ps' => cases h
  | cons p ps ih =>
    cases ps' with
    | nil => cases h
    | cons p' ps' =>
      obtain ⟨hp, hps⟩ := List.cons.inj h
      cases p with
      | text sql =>
        cases p' with
        | text sql' =>
          cases hp
          rw [render, render, ih hps]
        | bind value' => cases hp
      | bind value =>
        cases p' with
        | text sql' => cases hp
        | bind value' => rw [render, render, ih hps]

namespace SameText

theorem refl (f : SqlxFragment) : f.SameText b f := rfl

theorem holes {f f' : SqlxFragment} (h : f.SameText b f') :
    (f.parts b).map SqlPart.hole = (f'.parts b).map SqlPart.hole := h

theorem toSql_eq {f f' : SqlxFragment} (h : f.SameText b f') : f.toSql b = f'.toSql b :=
  render_of_skeleton h 0

theorem bind (value value' : SqlxValue) : SameText b (.bind value) (.bind value') := rfl

theorem tenantEquals (column tenant tenant' : String) :
    SameText b (.tenantEquals column tenant) (.tenantEquals column tenant') := by
  simp [SameText, skeleton, parts, SqlPart.hole]

theorem not {f f' : SqlxFragment} (h : f.SameText b f') : SameText b (.not f) (.not f') := by
  simp only [SameText, skeleton, parts, SqlPart.unary, SqlPart.wrapped, List.map_append, h.holes]

theorem isTrue {f f' : SqlxFragment} (h : f.SameText b f') :
    SameText b (.isTrue f) (.isTrue f') := by
  simp only [SameText, skeleton, parts, SqlPart.isTrue, List.map_append, h.holes]

theorem caseWhen {c c' t t' e e' : SqlxFragment} (hc : c.SameText b c') (ht : t.SameText b t')
    (he : e.SameText b e') : SameText b (.caseWhen c t e) (.caseWhen c' t' e') := by
  simp only [SameText, skeleton, parts, SqlPart.caseWhen, List.map_append, hc.holes,
    ht.holes, he.holes]

/-- A separated list of parts, as a list of skeletons sees it. -/
theorem map_flatMap_separated (separator : List SqlPart) (piece : List SqlPart → List SqlPart)
    (hpiece : ∀ ps ps', ps.map SqlPart.hole = ps'.map SqlPart.hole →
      (piece ps).map SqlPart.hole = (piece ps').map SqlPart.hole)
    {fs fs' : List SqlxFragment} (h : List.Forall₂ (SameText b) fs fs') :
    ((partsEach b fs).flatMap fun next => separator ++ piece next).map SqlPart.hole =
      ((partsEach b fs').flatMap fun next => separator ++ piece next).map SqlPart.hole := by
  induction h with
  | nil => rfl
  | cons hf _ ih =>
    simp only [partsEach, List.flatMap_cons, List.map_append, hpiece _ _ hf.holes, ih]

theorem map_wrapped (ps ps' : List SqlPart) (h : ps.map SqlPart.hole = ps'.map SqlPart.hole) :
    (SqlPart.wrapped ps).map SqlPart.hole = (SqlPart.wrapped ps').map SqlPart.hole := by
  simp only [SqlPart.wrapped, List.map_append, h]

theorem binary (connective : Connective) {fs fs' : List SqlxFragment}
    (h : List.Forall₂ (SameText b) fs fs') :
    SameText b (.binary connective fs) (.binary connective fs') := by
  cases h with
  | nil => exact refl _
  | cons hf hfs =>
    have hrest := map_flatMap_separated (SqlPart.trusted connective.separator) SqlPart.wrapped
      map_wrapped hfs
    simp only [SameText, skeleton, parts_binary, List.map_append, map_wrapped _ _ hf.holes, hrest]

theorem function (g : GradeFunction) {fs fs' : List SqlxFragment}
    (h : List.Forall₂ (SameText b) fs fs') :
    SameText b (.function g fs) (.function g fs') := by
  cases h with
  | nil => exact refl _
  | cons hf hfs =>
    have hrest := map_flatMap_separated (SqlPart.trusted ", ") id (fun _ _ h => h) hfs
    simp only [id] at hrest
    simp only [SameText, skeleton, parts_function, SqlPart.wrapped, List.map_append, hf.holes,
      hrest]

theorem nullSafeGradePair (g : GradeFunction) {l l' r r' : SqlxFragment} (hl : l.SameText b l')
    (hr : r.SameText b r') :
    SameText b (.nullSafeGradePair g l r) (.nullSafeGradePair g l' r') := by
  simp only [SameText, skeleton, parts, SqlPart.nullSafeGradePair, SqlPart.wrapped,
    SqlPart.function, List.flatMap_cons, List.flatMap_nil, List.append_nil, List.map_append,
    hl.holes, hr.holes]

end SameText

end SqlxFragment

open SqlxFragment (SameText)

theorem sameText_fragmentSet {b : Backend} (connective : Connective) (empty : SqlConstant)
    {fs fs' : List SqlxFragment} (h : List.Forall₂ (SameText b) fs fs') :
    SameText b (fragmentSet fs connective empty) (fragmentSet fs' connective empty) := by
  cases h with
  | nil => exact .refl _
  | cons hf hfs => exact SameText.binary connective (.cons hf hfs)

theorem sameText_foldl_nullSafeGradePair {b : Backend} (g : GradeFunction)
    {fs fs' : List SqlxFragment} (h : List.Forall₂ (SameText b) fs fs') :
    ∀ {f f' : SqlxFragment}, f.SameText b f' →
      SameText b (fs.foldl (.nullSafeGradePair g) f) (fs'.foldl (.nullSafeGradePair g) f') := by
  induction h with
  | nil => exact fun hf => hf
  | cons hg _ ih => exact fun hf => ih (hf.nullSafeGradePair g hg)

theorem sameText_gradeSet {b : Backend} (b' : Backend) (g : GradeFunction)
    {fs fs' : List SqlxFragment} (h : List.Forall₂ (SameText b) fs fs') :
    SameText b (gradeSet b' fs g) (gradeSet b' fs' g) := by
  cases h with
  | nil => exact .refl _
  | cons hf hfs =>
    cases hfs with
    | nil => exact hf
    | cons hg hgs =>
      rw [gradeSet_cons_cons, gradeSet_cons_cons]
      split
      · exact sameText_foldl_nullSafeGradePair g (.cons hg hgs) hf
      · exact SameText.function g (.cons hf (.cons hg hgs))

namespace SqlxLowerer

variable {O : Type} {L L' : SqlxLowerer O} {cx cx' : Context}

/-- Two lowerers, each with its request, between which only bound values differ. -/
structure Alike (L L' : SqlxLowerer O) (cx cx' : Context) : Prop where
  backend : L'.backend = L.backend
  tenantColumn : L'.tenantColumn = L.tenantColumn
  predicates : ∀ fact, (L.predicates fact cx).map (·.skeleton L.backend) =
    (L'.predicates fact cx').map (·.skeleton L.backend)
  projection : ∀ outcome, Both (SameText L.backend) (L.projection outcome) (L'.projection outcome)

/-- Filter and grade differ at most in bind values. -/
def SameLowered (b : Backend) (l l' : Lowered) : Prop :=
  SameText b l.filter l'.filter ∧ SameText b l.grade l'.grade

namespace Alike

theorem enforceTenantFilter (h : L.Alike L' cx cx') {policy policy' : SqlxFragment}
    (hp : SameText L.backend policy policy') :
    SameText L.backend (L.enforceTenantFilter cx policy) (L'.enforceTenantFilter cx' policy') := by
  rw [SqlxLowerer.enforceTenantFilter, SqlxLowerer.enforceTenantFilter, h.tenantColumn]
  exact SameText.binary .and (.cons (SameText.tenantEquals _ _ _) (.cons hp .nil))

theorem enforceTenantProjection (h : L.Alike L' cx cx') {grade grade' : SqlxFragment}
    (hg : SameText L.backend grade grade') :
    SameText L.backend (L.enforceTenantProjection cx grade)
      (L'.enforceTenantProjection cx' grade') :=
  SameText.caseWhen (h.enforceTenantFilter (.refl _)) hg (.refl _)

theorem enforced (h : L.Alike L' cx cx') {l l' : Lowered} (hl : SameLowered L.backend l l') :
    SameLowered L.backend
      ⟨L.enforceTenantFilter cx l.filter, L.enforceTenantProjection cx l.grade⟩
      ⟨L'.enforceTenantFilter cx' l'.filter, L'.enforceTenantProjection cx' l'.grade⟩ :=
  ⟨h.enforceTenantFilter hl.1, h.enforceTenantProjection hl.2⟩

theorem lowerConditionSet (b : Backend) (conditions : List Condition) (separator : Connective)
    (empty : SqlConstant) {fs fs' : Except LowerError (List SqlxFragment)}
    (h : Both (List.Forall₂ (SameText b)) fs fs') :
    Both (SameText b) (lowerConditionSet conditions separator empty fs)
      (lowerConditionSet conditions separator empty fs') := by
  unfold Gatekeep.lowerConditionSet
  split
  · exact .ok (.refl _)
  · exact h.map fun fs fs' hfs => SameText.binary separator hfs

theorem lowerConditions {conditions : List Condition}
    (ih : ∀ c ∈ conditions,
      Both (SameText L.backend) (L.lowerCondition cx c) (L'.lowerCondition cx' c)) :
    Both (List.Forall₂ (SameText L.backend)) (L.lowerConditions cx conditions)
      (L'.lowerConditions cx' conditions) := by
  induction conditions with
  | nil => exact .ok .nil
  | cons c cs ihcs =>
    refine (ih c List.mem_cons_self).bind fun f f' hf => ?_
    refine (ihcs fun c' hc' => ih c' (List.mem_cons_of_mem _ hc')).bind fun fs fs' hfs => ?_
    exact .ok (.cons hf hfs)

theorem lowerCondition (h : L.Alike L' cx cx') (c : Condition) :
    Both (SameText L.backend) (L.lowerCondition cx c) (L'.lowerCondition cx' c) := by
  induction c using Condition.ind with
  | always => exact .ok (.refl _)
  | never => exact .ok (.refl _)
  | has fact =>
    have hfact := h.predicates fact
    rw [SqlxLowerer.lowerCondition, SqlxLowerer.lowerCondition]
    cases hp : L.predicates fact cx with
    | none =>
      rw [hp, Option.map_none] at hfact
      rw [Option.map_eq_none_iff.mp hfact.symm]
      exact .error _
    | some predicate =>
      rw [hp, Option.map_some] at hfact
      obtain ⟨predicate', hp', hsame⟩ := Option.map_eq_some_iff.mp hfact.symm
      rw [hp']
      exact .ok (SameText.isTrue hsame.symm)
  | not inner ih => exact ih.map fun f f' hf => SameText.not hf
  | all cs ih => exact lowerConditionSet _ cs .and .false (lowerConditions ih)
  | any cs ih => exact lowerConditionSet _ cs .or .false (lowerConditions ih)

theorem lowerFilterPolicy (h : L.Alike L' cx cx') (r : ResidualPolicy O) :
    Both (SameText L.backend)
      (r.tryFoldPruned (fun b => .ok (shouldDescend b)) (L.lowerFilterNode cx))
      (r.tryFoldPruned (fun b => .ok (shouldDescend b)) (L'.lowerFilterNode cx')) := by
  refine ResidualPolicy.tryFoldPruned_both ?_ ?_ ?_ ?_ ?_ ?_ ?_ ?_ ?_ r
  · exact fun o => .ok (.refl _)
  · exact .ok (.refl _)
  · exact fun o obs facts label => .ok (.refl _)
  · exact fun o facts label reason shape => .ok (.refl _)
  · exact fun g => h.lowerCondition g.condition
  · exact fun rs ts ts' hts => .ok (sameText_fragmentSet .and .false hts)
  · exact fun rs ts ts' hts => .ok (sameText_fragmentSet .or .false hts)
  · intro primary fallback tp tp' tf tf' hp hf
    rw [lowerFilterNode, lowerFilterNode]
    split
    · exact .ok hp
    · exact .ok (SameText.binary .or (.cons hp (.cons hf .nil)))
  · intro primary fallback tp tp' hp
    rw [lowerFilterNode, lowerFilterNode]
    split
    · exact .ok hp
    · exact .ok hp

theorem forall₂_filter {b : Backend} {ts ts' : List Lowered}
    (h : List.Forall₂ (SameLowered b) ts ts') :
    List.Forall₂ (SameText b) (ts.map Lowered.filter) (ts'.map Lowered.filter) := by
  induction h with
  | nil => exact .nil
  | cons hl _ ih => exact .cons hl.1 ih

theorem forall₂_grade {b : Backend} {ts ts' : List Lowered}
    (h : List.Forall₂ (SameLowered b) ts ts') :
    List.Forall₂ (SameText b) (ts.map Lowered.grade) (ts'.map Lowered.grade) := by
  induction h with
  | nil => exact .nil
  | cons hl _ ih => exact .cons hl.2 ih

theorem lowerPolicy (h : L.Alike L' cx cx') (r : ResidualPolicy O) :
    Both (SameLowered L.backend) (L.lowerPolicy cx r) (L'.lowerPolicy cx' r) := by
  refine ResidualPolicy.tryFoldPruned_both ?_ ?_ ?_ ?_ ?_ ?_ ?_ ?_ ?_ r
  · exact fun o => (h.projection o).bind fun q q' hq => .ok ⟨.refl _, hq⟩
  · exact .ok ⟨.refl _, .refl _⟩
  · exact fun o obs facts label => (h.projection o).bind fun q q' hq => .ok ⟨.refl _, hq⟩
  · exact fun o facts label reason shape => .ok ⟨.refl _, .refl _⟩
  · intro g
    refine (h.lowerCondition g.condition).bind fun f f' hf => ?_
    refine (h.projection g.outcome).bind fun q q' hq => ?_
    exact .ok ⟨hf, SameText.caseWhen hf hq (.refl _)⟩
  · intro rs ts ts' hts
    rw [lowerNode, lowerNode, h.backend]
    exact .ok ⟨sameText_fragmentSet .and .false (forall₂_filter hts),
      sameText_gradeSet L.backend .min (forall₂_grade hts)⟩
  · intro rs ts ts' hts
    rw [lowerNode, lowerNode, h.backend]
    exact .ok ⟨sameText_fragmentSet .or .false (forall₂_filter hts),
      sameText_gradeSet L.backend .max (forall₂_grade hts)⟩
  · intro primary fallback tp tp' tf tf' hp hf
    rw [lowerNode, lowerNode]
    split
    · exact .ok hp
    · exact .ok ⟨SameText.binary .or (.cons hp.1 (.cons hf.1 .nil)),
        SameText.caseWhen hp.1 hp.2 hf.2⟩
  · intro primary fallback tp tp' hp
    rw [lowerNode, lowerNode]
    split
    · exact .ok hp
    · exact .ok hp

theorem lowerFilter (h : L.Alike L' cx cx') (r : ResidualPolicy O) :
    Both (SameText L.backend) (L.lowerFilter cx r) (L'.lowerFilter cx' r) :=
  (h.lowerFilterPolicy r).bind fun _ _ hp => .ok (h.enforceTenantFilter hp)

theorem lower (h : L.Alike L' cx cx') (r : ResidualPolicy O) :
    Both (SameLowered L.backend) (L.lower cx r) (L'.lower cx' r) :=
  (h.lowerPolicy r).bind fun _ _ hl => .ok (h.enforced hl)

theorem lowerDecision (h : L.Alike L' cx cx') (d : Decision O) :
    Both (SameLowered L.backend) (L.lowerDecision d) (L'.lowerDecision d) := by
  rw [SqlxLowerer.lowerDecision, SqlxLowerer.lowerDecision]
  cases d.effect with
  | permit outcome => exact (h.projection outcome).map fun q q' hq => ⟨.refl _, hq⟩
  | deny => exact .ok ⟨.refl _, .refl _⟩

theorem lowerResult (h : L.Alike L' cx cx') (result : Residual O) :
    Both (SameLowered L.backend) (L.lowerResult cx result) (L'.lowerResult cx' result) := by
  cases result with
  | pending residual consulted => exact h.lower residual
  | resolved decision => exact (h.lowerDecision decision).bind fun _ _ hl => .ok (h.enforced hl)

end Alike

/-! ## The guard -/

/-- The tenant guard up to the opening bracket of what it guards. -/
def guardParts (column : TenantColumn) (tenant : TenantId) : List SqlPart :=
  [.text "(", .text column.qualified, .text " = ", .bind (.text tenant.value), .text ")",
    .text " AND ", .text "("]

theorem parts_enforceTenantFilter (b : Backend) (policy : SqlxFragment) :
    (L.enforceTenantFilter cx policy).parts b =
      guardParts L.tenantColumn cx.tenant ++ policy.parts b ++ [SqlPart.text ")"] := by
  have hcolumn : SqlPart.trusted L.tenantColumn.qualified =
      [.text L.tenantColumn.qualified] := by
    have hdot := L.tenantColumn.dot_mem_qualified
    refine if_neg fun hempty => ?_
    rw [String.isEmpty_iff.mp hempty] at hdot
    cases hdot
  simp [enforceTenantFilter, SqlxFragment.parts_binary, SqlxFragment.parts,
    SqlxFragment.partsEach, SqlPart.wrapped, hcolumn, guardParts]
  rfl

/-- Filter and grade carry the guard, whose only request value is the bound tenant. -/
structure Guarded (L : SqlxLowerer O) (cx : Context) (lowered : Lowered) : Prop where
  filter : ∃ policy, lowered.filter.parts L.backend =
    guardParts L.tenantColumn cx.tenant ++ policy ++ [SqlPart.text ")"]
  grade : ∃ grade, lowered.grade.parts L.backend =
    SqlPart.text "CASE WHEN " :: guardParts L.tenantColumn cx.tenant ++
      [SqlPart.text "TRUE", SqlPart.text ")", SqlPart.text " THEN "] ++ grade ++
      [SqlPart.text " ELSE ", SqlPart.text "NULL", SqlPart.text " END"]

theorem guarded_enforced (filter grade : SqlxFragment) :
    L.Guarded cx ⟨L.enforceTenantFilter cx filter, L.enforceTenantProjection cx grade⟩ where
  filter := ⟨_, parts_enforceTenantFilter L.backend filter⟩
  grade := by
    refine ⟨grade.parts L.backend, ?_⟩
    simp only [enforceTenantProjection, SqlxFragment.parts, SqlPart.caseWhen,
      parts_enforceTenantFilter]
    simp [SqlPart.trusted, SqlConstant.sql]

end SqlxLowerer

/-! ## The tenant column's text -/

/-- An identifier of the guard: letters, digits and underscores, at least one. -/
structure PlainIdentifier (value : String) : Prop where
  nonempty : value ≠ ""
  plain : ∀ c ∈ value.toList, isAsciiAlphanumeric c = true ∨ c = '_'

theorem plain_of_tenantIdentifierError {part : TenantIdentifierPart} {value : String}
    (h : tenantIdentifierError part value = none) : PlainIdentifier value := by
  have halpha : ∀ c, isAsciiAlphabetic c = true → isAsciiAlphanumeric c = true := by
    intro c hc
    rw [isAsciiAlphanumeric, Bool.or_assoc, Bool.or_eq_true]
    exact .inr hc
  unfold tenantIdentifierError at h
  split at h
  · cases h
  · rename_i first rest hvalue
    split at h
    · cases h
    split at h
    · cases h
    split at h
    · cases h
    rename_i hfirst hrest
    simp only [Bool.not_eq_true', Bool.not_eq_false, Bool.or_eq_true, beq_iff_eq,
      List.all_eq_true] at hfirst hrest
    refine ⟨?_, ?_⟩
    · rintro rfl
      cases hvalue
    · rw [hvalue]
      intro c hc
      rcases List.mem_cons.mp hc with rfl | hc
      · exact hfirst.imp (halpha c) id
      · exact hrest c hc

namespace TenantColumn

theorem eq_of_new {table column : String} {c : TenantColumn} (h : new table column = .ok c) :
    c.table = table ∧ c.column = column := by
  unfold new at h
  split at h
  · cases h
  · cases h
  · cases h
    exact ⟨rfl, rfl⟩

/-- An accepted column is written as its two identifiers around a dot. -/
theorem qualified_of_new {table column : String} {c : TenantColumn}
    (h : new table column = .ok c) :
    c.qualified = table ++ "." ++ column ∧ PlainIdentifier table ∧ PlainIdentifier column := by
  obtain ⟨rfl, rfl⟩ := eq_of_new h
  exact ⟨rfl, plain_of_tenantIdentifierError c.tableValid,
    plain_of_tenantIdentifierError c.columnValid⟩

end TenantColumn

/-! ## Independence of the text -/

namespace SqlxLowerer

variable {O : Type}

/-- Each way of lowering fails alike in both runs, or gives the same texts, rendered alike. -/
structure SameTexts (L L' : SqlxLowerer O) (cx cx' : Context) : Prop where
  lowerFilter : ∀ r, Both
    (fun f f' => SameText L.backend f f' ∧ f.toSql L.backend = f'.toSql L.backend)
    (L.lowerFilter cx r) (L'.lowerFilter cx' r)
  lower : ∀ r, Both
    (fun l l' => SameLowered L.backend l l' ∧
      l.filter.toSql L.backend = l'.filter.toSql L.backend ∧
      l.grade.toSql L.backend = l'.grade.toSql L.backend)
    (L.lower cx r) (L'.lower cx' r)
  lowerResult : ∀ result, Both
    (fun l l' => SameLowered L.backend l l' ∧
      l.filter.toSql L.backend = l'.filter.toSql L.backend ∧
      l.grade.toSql L.backend = l'.grade.toSql L.backend)
    (L.lowerResult cx result) (L'.lowerResult cx' result)

theorem Alike.sameTexts {L L' : SqlxLowerer O} {cx cx' : Context} (h : L.Alike L' cx cx') :
    L.SameTexts L' cx cx' where
  lowerFilter r := (h.lowerFilter r).imp fun _ _ hf => ⟨hf, hf.toSql_eq⟩
  lower r := (h.lower r).imp fun _ _ hl => ⟨hl, hl.1.toSql_eq, hl.2.toSql_eq⟩
  lowerResult result := (h.lowerResult result).imp fun _ _ hl =>
    ⟨hl, hl.1.toSql_eq, hl.2.toSql_eq⟩

/-- Whatever leaves the lowering carries the guard. -/
structure AllGuarded (L : SqlxLowerer O) (cx : Context) : Prop where
  lowerFilter : ∀ r filter, L.lowerFilter cx r = .ok filter →
    ∃ policy, filter.parts L.backend =
      guardParts L.tenantColumn cx.tenant ++ policy ++ [SqlPart.text ")"]
  lower : ∀ r lowered, L.lower cx r = .ok lowered → L.Guarded cx lowered
  lowerResult : ∀ result lowered, L.lowerResult cx result = .ok lowered → L.Guarded cx lowered

theorem allGuarded (L : SqlxLowerer O) (cx : Context) : L.AllGuarded cx := by
  have hlower : ∀ r lowered, L.lower cx r = .ok lowered → L.Guarded cx lowered := by
    intro r lowered h
    obtain ⟨l, -, h⟩ := Result.bind_eq_ok.mp h
    cases h
    exact guarded_enforced l.filter l.grade
  refine ⟨?_, hlower, ?_⟩
  · intro r filter h
    obtain ⟨policy, -, h⟩ := Result.bind_eq_ok.mp h
    cases h
    exact ⟨_, parts_enforceTenantFilter L.backend policy⟩
  · intro result lowered h
    cases result with
    | pending residual consulted => exact hlower residual lowered h
    | resolved decision =>
      obtain ⟨l, -, h⟩ := Result.bind_eq_ok.mp h
      cases h
      exact guarded_enforced l.filter l.grade

/-- The text of generated SQL does not depend on the request: two contexts under which the predicates
differ at most in bind values give the same texts, and so do two numberings of the outcomes. The
guard is the tenant column, an equals sign and the bound tenant. -/
theorem lowered_text_independent (L : SqlxLowerer O) (cx cx' : Context)
    (hpred : ∀ fact, (L.predicates fact cx).map (·.skeleton L.backend) =
      (L.predicates fact cx').map (·.skeleton L.backend)) :
    L.SameTexts L cx cx' ∧
    (∀ i i' : SqlOutcome O,
      SameTexts { L with projection := @ordinalProjection O i }
        { L with projection := @ordinalProjection O i' } cx cx') ∧
    L.AllGuarded cx ∧
    ∀ table column, TenantColumn.new table column = .ok L.tenantColumn →
      L.tenantColumn.qualified = table ++ "." ++ column ∧ PlainIdentifier table ∧
        PlainIdentifier column := by
  refine ⟨Alike.sameTexts ⟨rfl, rfl, hpred, ?_⟩, fun i i' => Alike.sameTexts ⟨rfl, rfl, hpred, ?_⟩,
    L.allGuarded cx, fun table column h => TenantColumn.qualified_of_new h⟩
  · intro outcome
    cases L.projection outcome with
    | error e => exact .error e
    | ok q => exact .ok (.refl q)
  · exact fun outcome => .ok (.bind _ _)

end SqlxLowerer

namespace Sample

def globex : TenantId := ⟨"globex", by decide⟩

/-- The same user, asking on behalf of another tenant. -/
def elsewhere : Context :=
  { request with tenant := globex, binding := .trustedService ⟨globex, ⟨"clerk", by decide⟩⟩,
                 bound := rfl }

/-- Every fact is a column that names a tenant. -/
def memberships : SqlxLowerer Unit where
  backend := .postgres
  predicates fact cx := some (.raw [.text fact.value, .text " = ", .bind (.text cx.tenant.value)])
  projection := ordinalProjection
  tenantColumn := (documents Unit .postgres).tenantColumn

end Sample

open Sample in
theorem lowered_text_independent_memberships :
    memberships.SameTexts memberships request elsewhere ∧
    (∀ i i' : SqlOutcome Unit,
      SqlxLowerer.SameTexts { memberships with projection := @ordinalProjection Unit i }
        { memberships with projection := @ordinalProjection Unit i' } request elsewhere) ∧
    memberships.AllGuarded request ∧
    ∀ table column, TenantColumn.new table column = .ok memberships.tenantColumn →
      memberships.tenantColumn.qualified = table ++ "." ++ column ∧ PlainIdentifier table ∧
        PlainIdentifier column :=
  memberships.lowered_text_independent request elsewhere fun _ => rfl

end Gatekeep
