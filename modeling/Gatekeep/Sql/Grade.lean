import Gatekeep.Obligations
import Gatekeep.Sql.Filter

/-!
# Gatekeep.Sql.Grade

The grade of a lowered policy, compared with the outcome of the point check.

* `ResidualPolicy.grade v`: what the grade expression computes on a row whose facts are as `v`
  says, before outcomes become ordinals. A denial is NULL, and all backends skip NULL when they
  combine arms (`value_gradeSet`).
* `Policy.lenient`: the policy without the arms that make an open conjunction deny.

A conjunction with a denying arm denies, but its grade is the minimum over the other arms. So the
grade is the outcome of the lenient policy (`grade_residue`), and it is the outcome of the policy
itself exactly when dropping those arms does not change it (`lowerResult_grade`).
-/

namespace Gatekeep

/-! ## Combining grades in SQL -/

namespace SqlxFragment

variable {b : Backend} {row : Row}

theorem value_nullSafeGradePair (f : GradeFunction) {left right : SqlxFragment}
    {x y : Option Int64} (hl : left.value b row = x.map .i64) (hr : right.value b row = y.map .i64) :
    (nullSafeGradePair f left right).value b row = (Option.merge f.apply x y).map .i64 := by
  rw [value, hl, hr]
  cases x with
  | none => cases y <;> rfl
  | some m =>
    cases y with
    | none => rfl
    | some n => cases b <;> rfl

theorem value_foldl_nullSafeGradePair (f : GradeFunction) {fs : List SqlxFragment}
    {xs : List (Option Int64)} (h : List.Forall₂ (fun f x => f.value b row = x.map .i64) fs xs) :
    ∀ {first : SqlxFragment} {x : Option Int64}, first.value b row = x.map .i64 →
      (fs.foldl (fun combined grade => nullSafeGradePair f combined grade) first).value b row =
        (xs.foldl (Option.merge f.apply) x).map .i64 := by
  induction h with
  | nil => exact id
  | cons hf _ ih => exact fun hx => ih (value_nullSafeGradePair f hx hf)

theorem ordinals_eq {fs : List SqlxFragment} {xs : List (Option Int64)}
    (h : List.Forall₂ (fun f x => f.value b row = x.map .i64) fs xs) :
    (values b row fs).map SqlxValue.ordinal = xs := by
  induction h with
  | nil => rfl
  | cons hx _ ih => rw [values, List.map_cons, hx, SqlxValue.ordinal_map_i64, ih]

/-- On every backend the grades that are not NULL are combined. -/
theorem value_gradeSet (f : GradeFunction) {fs : List SqlxFragment} {xs : List (Option Int64)}
    (h : List.Forall₂ (fun f x => f.value b row = x.map .i64) fs xs) :
    (gradeSet b fs f).value b row = (Nullable.skipping f.apply xs).map .i64 := by
  have hargs := ordinals_eq h
  match h with
  | .nil => rfl
  | .cons hx .nil => rw [Nullable.skipping_singleton]; exact hx
  | .cons hx (.cons hy hrest) =>
    rw [gradeSet_cons_cons]
    split
    · rw [Nullable.skipping_cons]
      exact value_foldl_nullSafeGradePair f (.cons hy hrest) hx
    · rename_i hb
      rw [value, Backend.grade, if_neg hb, hargs]

end SqlxFragment

/-! ## The ordinal a residual policy is graded with -/

namespace ResidualPolicy

variable {O : Type} [SqlOutcome O]

mutual

/-- What the grade expression computes on a row whose facts are as `v` says. No backend appears in
it. -/
def ordinalGrade (v : FactId → Bool) : ResidualPolicy O → Option Int64
  | .permit outcome | .permitWithTrace outcome _ _ _ => some (SqlOutcome.toSqlOrdinal outcome)
  | .deny | .denyWithTrace .. => none
  | .grant g => if g.condition.holds v then some (SqlOutcome.toSqlOrdinal g.outcome) else none
  | .all policies => Nullable.skipping (GradeFunction.apply .min) (ordinalGradeEach v policies)
  | .any policies => Nullable.skipping (GradeFunction.apply .max) (ordinalGradeEach v policies)
  | .orElse primary fallback =>
    if fallback.carriesObligation || primary.selected v then ordinalGrade v primary
    else ordinalGrade v fallback

def ordinalGradeEach (v : FactId → Bool) : List (ResidualPolicy O) → List (Option Int64)
  | [] => []
  | r :: rs => ordinalGrade v r :: ordinalGradeEach v rs

end

theorem ordinalGradeEach_eq_map (v : FactId → Bool) (rs : List (ResidualPolicy O)) :
    ordinalGradeEach v rs = rs.map (ordinalGrade v) := by
  induction rs with
  | nil => rfl
  | cons r rs ih => rw [ordinalGradeEach, ih, List.map_cons]

end ResidualPolicy

namespace SqlxLowerer

variable {O : Type} [SqlOutcome O] {L : SqlxLowerer O} {cx : Context} {row : Row}
  {v : FactId → Bool}

/-- A fragment's value is a number, or NULL. -/
def Ordinal (L : SqlxLowerer O) (row : Row) (f : SqlxFragment) (ordinal : Option Int64) : Prop :=
  f.value L.backend row = ordinal.map .i64

theorem ordinal_projection {o : O} {f : SqlxFragment}
    (hp : L.projection = ordinalProjection) (h : L.projection o = .ok f) :
    L.Ordinal row f (some (SqlOutcome.toSqlOrdinal o)) := by
  rw [hp] at h
  cases h
  simp [Ordinal, SqlxFragment.value]

theorem ordinal_gradeSet (function : GradeFunction) {rs : List (ResidualPolicy O)}
    {fs : List SqlxFragment}
    (h : List.Forall₂ (fun r f => L.Ordinal row f (r.ordinalGrade v)) rs fs) :
    L.Ordinal row (gradeSet L.backend fs function)
      (Nullable.skipping function.apply (ResidualPolicy.ordinalGradeEach v rs)) := by
  rw [Ordinal, ResidualPolicy.ordinalGradeEach_eq_map]
  refine SqlxFragment.value_gradeSet function ?_
  rw [List.forall₂_map_right_iff]
  exact h.flip

/-- The grade of a lowered policy, on every backend. -/
theorem ordinal_lowerPolicy (hproj : L.projection = ordinalProjection) (r : ResidualPolicy O) :
    ∀ l, L.lowerPolicy cx r = .ok l → (∀ fact ∈ r.facts, L.Mirrors cx row v fact) →
      L.Ordinal row l.grade (r.ordinalGrade v) := by
  refine ResidualPolicy.tryFoldPruned_ok (P := fun r (l : Lowered) =>
    (∀ fact ∈ r.facts, L.Mirrors cx row v fact) → L.Ordinal row l.grade (r.ordinalGrade v))
    ?_ ?_ ?_ ?_ ?_ ?_ ?_ ?_ ?_ r
  · intro o l h _
    obtain ⟨grade, hg, h⟩ := Result.bind_eq_ok.mp h
    cases h
    exact ordinal_projection hproj hg
  · intro l h _
    cases h
    rfl
  · intro o obs facts label l h _
    obtain ⟨grade, hg, h⟩ := Result.bind_eq_ok.mp h
    cases h
    exact ordinal_projection hproj hg
  · intro o facts label reason shape l h _
    cases h
    rfl
  · intro g l h hm
    obtain ⟨filter, hf, h⟩ := Result.bind_eq_ok.mp h
    obtain ⟨outcome, ho, h⟩ := Result.bind_eq_ok.mp h
    cases h
    rw [Ordinal, SqlxFragment.value_caseWhen, truth_lowerCondition g.condition hm filter hf,
      ResidualPolicy.ordinalGrade]
    by_cases hc : g.condition.holds v = true
    · rw [if_pos (by rw [hc]), if_pos hc]
      exact ordinal_projection hproj ho
    · rw [if_neg (by simpa using hc), if_neg hc]
      rfl
  · intro rs ls l harms h hm
    cases h
    exact ordinal_gradeSet .min (List.forall₂_map_right_iff.mpr (forall₂_of_mirrors harms hm))
  · intro rs ls l harms h hm
    cases h
    exact ordinal_gradeSet .max (List.forall₂_map_right_iff.mpr (forall₂_of_mirrors harms hm))
  · intro primary fallback lp lf l hlower hp hf hd h hm
    rw [ResidualPolicy.facts, List.forall_mem_append] at hm
    have hd' : fallback.carriesObligation = false := by simpa [shouldDescend] using hd
    have hfilter := truth_lowerPolicy primary lp hlower hm.1
    rw [lowerNode, hd'] at h
    cases h
    rw [Ordinal, SqlxFragment.value_caseWhen, hfilter, ResidualPolicy.ordinalGrade, hd',
      Bool.false_or]
    by_cases hs : primary.selected v = true
    · rw [if_pos (by rw [hs]), if_pos hs]
      exact hp hm.1
    · rw [if_neg (by simpa using hs), if_neg hs]
      exact hf hm.2
  · intro primary fallback lp l hp hd h hm
    rw [ResidualPolicy.facts, List.forall_mem_append] at hm
    have hd' : fallback.carriesObligation = true := by simpa [shouldDescend] using hd
    rw [lowerNode, if_pos hd'] at h
    cases h
    rw [ResidualPolicy.ordinalGrade, hd', Bool.true_or, if_pos rfl]
    exact hp hm.1

end SqlxLowerer

/-! ## The grade of a residual policy -/

namespace ResidualPolicy

variable {O : Type} [Lattice O]

mutual

def grade (v : FactId → Bool) : ResidualPolicy O → Option O
  | .permit outcome | .permitWithTrace outcome _ _ _ => some outcome
  | .deny | .denyWithTrace .. => none
  | .grant g => if g.condition.holds v then some g.outcome else none
  | .all policies => Nullable.skipping Lattice.meet (gradeEach v policies)
  | .any policies => Nullable.skipping Lattice.join (gradeEach v policies)
  | .orElse primary fallback =>
    if fallback.carriesObligation || primary.selected v then grade v primary else grade v fallback

def gradeEach (v : FactId → Bool) : List (ResidualPolicy O) → List (Option O)
  | [] => []
  | r :: rs => grade v r :: gradeEach v rs

end

theorem gradeEach_eq_map (v : FactId → Bool) (rs : List (ResidualPolicy O)) :
    gradeEach v rs = rs.map (grade v) := by
  induction rs with
  | nil => rfl
  | cons r rs ih => rw [gradeEach, ih, List.map_cons]

end ResidualPolicy

/-- Meet and join are the minimum and the maximum of a total order. -/
class Lattice.Total (O : Type) [LinearOrder O] [Lattice O] : Prop where
  meet_eq_min : ∀ a b : O, Lattice.meet a b = min a b
  join_eq_max : ∀ a b : O, Lattice.join a b = max a b

/-- The ordinals are in the order of the outcomes. -/
class SqlOutcome.Monotone (O : Type) [LinearOrder O] [SqlOutcome O] : Prop where
  strict : ∀ a b : O, a < b → toSqlOrdinal a < toSqlOrdinal b

section Ordinals

variable {O : Type} [LinearOrder O] [Lattice O]

instance [Lattice.Total O] : Lattice.Lawful O where
  meet_comm a b := by simp only [Lattice.Total.meet_eq_min, min_comm]
  meet_assoc a b c := by simp only [Lattice.Total.meet_eq_min, min_assoc]
  meet_idem a := by simp only [Lattice.Total.meet_eq_min, min_self]
  join_comm a b := by simp only [Lattice.Total.join_eq_max, max_comm]
  join_assoc a b c := by simp only [Lattice.Total.join_eq_max, max_assoc]
  join_idem a := by simp only [Lattice.Total.join_eq_max, max_self]

variable [SqlOutcome O] [SqlOutcome.Monotone O]

open SqlOutcome

omit [Lattice O] in
theorem toSqlOrdinal_le {a b : O} : toSqlOrdinal a ≤ toSqlOrdinal b ↔ a ≤ b := by
  constructor
  · intro h
    by_contra hlt
    exact Int64.not_lt.mpr h (Monotone.strict b a (not_le.mp hlt))
  · intro h
    rcases h.lt_or_eq with hlt | rfl
    · exact Int64.le_of_lt (Monotone.strict a b hlt)
    · exact Int64.le_refl _

omit [Lattice O] in
theorem toSqlOrdinal_injective {a b : O} (h : toSqlOrdinal a = toSqlOrdinal b) : a = b :=
  le_antisymm (toSqlOrdinal_le.mp (h ▸ Int64.le_refl _)) (toSqlOrdinal_le.mp (h ▸ Int64.le_refl _))

theorem toSqlOrdinal_meet [Lattice.Total O] (a b : O) :
    toSqlOrdinal (Lattice.meet a b) =
      GradeFunction.apply .min (toSqlOrdinal a) (toSqlOrdinal b) := by
  rw [Lattice.Total.meet_eq_min, GradeFunction.apply, min_def]
  show _ = if toSqlOrdinal a ≤ toSqlOrdinal b then toSqlOrdinal a else toSqlOrdinal b
  simp only [toSqlOrdinal_le]
  split <;> rfl

theorem toSqlOrdinal_join [Lattice.Total O] (a b : O) :
    toSqlOrdinal (Lattice.join a b) =
      GradeFunction.apply .max (toSqlOrdinal a) (toSqlOrdinal b) := by
  rw [Lattice.Total.join_eq_max, GradeFunction.apply, max_def]
  show _ = if toSqlOrdinal a ≤ toSqlOrdinal b then toSqlOrdinal b else toSqlOrdinal a
  simp only [toSqlOrdinal_le]
  split <;> rfl

/-! ## The lowered grade -/

namespace SqlxLowerer

variable [Lattice.Total O] {L : SqlxLowerer O} {cx : Context} {row : Row} {v : FactId → Bool}

/-- A fragment's value is the ordinal of an outcome, or NULL. -/
def Grades (L : SqlxLowerer O) (row : Row) (f : SqlxFragment) (outcome : Option O) : Prop :=
  f.value L.backend row = (outcome.map toSqlOrdinal).map .i64

omit [LinearOrder O] [Lattice O] [Monotone O] [Lattice.Total O] in
theorem grades_projection {o : O} {f : SqlxFragment}
    (hp : L.projection = ordinalProjection) (h : L.projection o = .ok f) :
    L.Grades row f (some o) := ordinal_projection hp h

/-- Where the ordinals are in the order of the outcomes, minimum and maximum are meet and join. -/
theorem ordinalGrade_eq (v : FactId → Bool) (r : ResidualPolicy O) :
    r.ordinalGrade v = (r.grade v).map toSqlOrdinal := by
  have harms : ∀ {function : GradeFunction} {combine : O → O → O},
      (∀ a b, toSqlOrdinal (combine a b) = function.apply (toSqlOrdinal a) (toSqlOrdinal b)) →
      ∀ {rs : List (ResidualPolicy O)},
      (∀ r ∈ rs, r.ordinalGrade v = (r.grade v).map toSqlOrdinal) →
        Nullable.skipping function.apply (ResidualPolicy.ordinalGradeEach v rs) =
          (Nullable.skipping combine (ResidualPolicy.gradeEach v rs)).map toSqlOrdinal := by
    intro function combine hf rs ih
    rw [← Nullable.skipping_map hf, ResidualPolicy.gradeEach_eq_map,
      ResidualPolicy.ordinalGradeEach_eq_map, List.map_map]
    exact congrArg _ (List.map_congr_left ih)
  induction r using ResidualPolicy.ind with
  | permit o => rfl
  | deny => rfl
  | permitWithTrace o obs satisfied label => rfl
  | denyWithTrace denied unsatisfied label reason shape => rfl
  | grant g =>
    rw [ResidualPolicy.ordinalGrade, ResidualPolicy.grade]
    split <;> rfl
  | all rs ih => exact harms toSqlOrdinal_meet ih
  | any rs ih => exact harms toSqlOrdinal_join ih
  | orElse primary fallback ihp ihf =>
    rw [ResidualPolicy.ordinalGrade, ResidualPolicy.grade]
    split
    · exact ihp
    · exact ihf

/-- The grade of a lowered policy is the ordinal of the residual's grade. -/
theorem grades_lowerPolicy (hproj : L.projection = ordinalProjection) (r : ResidualPolicy O)
    (l : Lowered) (hl : L.lowerPolicy cx r = .ok l)
    (hm : ∀ fact ∈ r.facts, L.Mirrors cx row v fact) : L.Grades row l.grade (r.grade v) := by
  rw [Grades, ← ordinalGrade_eq]
  exact ordinal_lowerPolicy hproj r l hl hm

end SqlxLowerer

end Ordinals

/-! ## The lenient policy -/

theorem Effect.outcome_combine {O : Type} (f : O → O → O) (es : List (Effect O)) :
    (Effect.combine f (es.filterMap Effect.outcome)).outcome =
      Nullable.skipping f (es.map Effect.outcome) := by
  induction es with
  | nil => rfl
  | cons e es ih =>
    cases e with
    | deny => exact ih
    | permit o =>
      show some ((es.filterMap Effect.outcome).foldl f o) =
        Nullable.skipping f (some o :: es.map Effect.outcome)
      rw [Nullable.skipping_cons_some, List.reduceOption, List.filterMap_map]
      rfl

theorem Effect.eq_of_outcome {O : Type} {e e' : Effect O} (h : e.outcome = e'.outcome) :
    e = e' := by
  cases e <;> cases e' <;> simp_all [Effect.outcome]

namespace Policy

variable {O : Type}

mutual

/-- The policy with the arms that deny dropped from the conjunctions `u` leaves open, where facts
are as `v` says. Of a policy and its fallback, the one that is reached is kept. -/
def lenient (u : FactId → Option Bool) (v : FactId → Bool) : Policy O → Policy O
  | .permit outcome => .permit outcome
  | .deny => .deny
  | .grant g => .grant g
  | .all policies =>
    if verdict u (.all policies) = none then
      .all ((lenientEach u v policies).filter (permits fun g => g.condition.holds v))
    else .all policies
  | .any policies => .any (lenientEach u v policies)
  | .orElse primary fallback =>
    if permits (fun g => g.condition.holds v) primary then lenient u v primary
    else lenient u v fallback

def lenientEach (u : FactId → Option Bool) (v : FactId → Bool) : List (Policy O) → List (Policy O)
  | [] => []
  | p :: ps => lenient u v p :: lenientEach u v ps

end

theorem lenientEach_eq_map (u : FactId → Option Bool) (v : FactId → Bool) (ps : List (Policy O)) :
    lenientEach u v ps = ps.map (lenient u v) := by
  induction ps with
  | nil => rfl
  | cons p ps ih => rw [lenientEach, ih, List.map_cons]

variable [Lattice O]

variable {u : FactId → Option Bool} {v w : FactId → Bool}

theorem outcome_any (ps : List (Policy O)) :
    ((Policy.any ps).effect v).outcome =
      Nullable.skipping Lattice.join (ps.map fun p => (p.effect v).outcome) := by
  rw [effect, effectWith, Effect.any, effectsWith_eq_map, Effect.outcome_combine, List.map_map]
  rfl

theorem outcome_lenient_all {ps : List (Policy O)} (h : verdict u (.all ps) = none) :
    ((lenient u v (.all ps)).effect v).outcome =
      Nullable.skipping Lattice.meet (ps.map fun p => ((lenient u v p).effect v).outcome) := by
  have hall : ((ps.map (lenient u v)).filter (permits fun g => g.condition.holds v)).all
      (Effect.isPermit ∘ effectWith fun g => (g.result v).effect) = true := by
    rw [List.all_eq_true]
    intro p hp
    exact (isPermit_effect v p).trans (List.mem_filter.mp hp).2
  rw [lenient, if_pos h, effect, effectWith, Effect.all, effectsWith_eq_map, lenientEach_eq_map,
    List.all_map, if_pos hall, Effect.outcome_combine, List.map_map, Nullable.skipping_map_filter,
    List.map_map]
  · rfl
  · intro p _ hp
    rw [← isPermit_effect, Effect.isPermit_eq_false] at hp
    exact congrArg Effect.outcome hp

theorem outcome_lenient_any (ps : List (Policy O)) :
    ((lenient u v (.any ps)).effect v).outcome =
      Nullable.skipping Lattice.join (ps.map fun p => ((lenient u v p).effect v).outcome) := by
  rw [lenient, outcome_any, lenientEach_eq_map, List.map_map]
  rfl

omit [Lattice O] in
theorem permits_of_verdict (hv : Agrees u v) {p : Policy O} {b : Bool} (h : verdict u p = some b) :
    p.permits (fun g => g.condition.holds v) = b :=
  (within_verdict (fun g => g.condition.within_kleene hv) p b h).symm

theorem effect_lenient_orElse (primary fallback : Policy O) :
    (lenient u v (.orElse primary fallback)).effect v =
      if primary.permits (fun g => g.condition.holds v) then (lenient u v primary).effect v
      else (lenient u v fallback).effect v := by
  rw [lenient]
  split <;> rfl

/-- A settled policy has no open conjunction that matters. -/
theorem effect_lenient_settled (hv : Agrees u v) (p : Policy O) :
    verdict u p ≠ none → (lenient u v p).effect v = p.effect v := by
  induction p using Policy.ind with
  | permit o => exact fun _ => rfl
  | deny => exact fun _ => rfl
  | grant g => exact fun _ => rfl
  | all ps ih => exact fun h => by rw [lenient, if_neg h]
  | any ps ih =>
    intro h
    have hn : none ∉ verdicts u ps := fun hn => h (by rw [verdict, if_pos hn])
    have harms : ∀ p ∈ ps, verdict u p ≠ none := fun p hp hpv =>
      hn (by rw [verdicts_eq_map, ← hpv]; exact List.mem_map_of_mem hp)
    refine Effect.eq_of_outcome ?_
    rw [outcome_lenient_any, outcome_any]
    exact congrArg _ (List.map_congr_left fun p hp => congrArg _ (ih p hp (harms p hp)))
  | orElse primary fallback ihp ihf =>
    intro h
    have hp : verdict u primary ≠ none := fun hn => h (by rw [verdict, hn])
    obtain ⟨b, hb⟩ := Option.ne_none_iff_exists'.mp hp
    rw [effect_lenient_orElse, effect_orElse, isPermit_effect, permits_of_verdict hv hb]
    cases b with
    | true => exact ihp hp
    | false =>
      rw [verdict, hb] at h
      exact ihf h

end Policy

/-! ## The grade of a residue -/

section Residue

variable {O : Type} [Lattice O] [DecidableEq O] {u : FactId → Option Bool} {v w : FactId → Bool}

omit [DecidableEq O] in
theorem EvalResult.grade_constant {r : EvalResult O} (h : r.Coherent) :
    r.constant.grade v = r.effect.outcome := by
  cases h <;> rfl

namespace Policy

variable [Lattice.Lawful O]

theorem effect_completed (hw : Agrees u w) (hv : Agrees u v) (p : Policy O) :
    (p.completed u w v).effect = p.effect v := by
  rw [← (p.alike_completed hw hv).effect, result, effect_resultWith, effectWith_settledFirst]

theorem grade_settled (hw : Agrees u w) (hv : Agrees u v) {p : Policy O} (h : verdict u p ≠ none) :
    (settledResult u w p).constant.grade v = ((lenient u v p).effect v).outcome := by
  rw [EvalResult.grade_constant (coherent_settledResult p), ← (completed_settled hw p h).1,
    effect_completed hw hv, effect_lenient_settled hv p h]

omit [Lattice O] [DecidableEq O] [Lattice.Lawful O] in
/-- The arms kept in a residue have the grades of all arms, as far as these are not NULL. -/
theorem skipping_kept {f : O → O → O} (comm : ∀ a b, f a b = f b a)
    (assoc : ∀ a b c, f (f a b) c = f a (f b c)) {x : Policy O → Option O} {ps : List (Policy O)}
    (hdeny : ∀ p ∈ ps, verdict u p = some false → x p = none) :
    Nullable.skipping f ((ps.filter fun p => verdict u p = some true).map x ++
        (ps.filter fun p => verdict u p = none).map x) =
      Nullable.skipping f (ps.map x) := by
  have hperm := List.filter_append_perm (fun p : Policy O => decide (verdict u p = some true))
    (ps.filter fun p => verdict u p ≠ some false)
  have hgranted : (ps.filter fun p => verdict u p ≠ some false).filter
      (fun p => verdict u p = some true) = ps.filter fun p => verdict u p = some true := by
    rw [List.filter_filter]
    refine List.filter_congr fun p _ => ?_
    match verdict u p with
    | none | some true | some false => rfl
  have hopen : (ps.filter fun p => verdict u p ≠ some false).filter
      (fun p => !decide (verdict u p = some true)) = ps.filter fun p => verdict u p = none := by
    rw [List.filter_filter]
    refine List.filter_congr fun p _ => ?_
    match verdict u p with
    | none | some true | some false => rfl
  rw [hgranted, hopen] at hperm
  rw [← List.map_append, Nullable.skipping_perm comm assoc (hperm.map x)]
  exact Nullable.skipping_map_filter fun p hp hq => hdeny p hp (by simpa using hq)

/-- The grades of the constants and residues that are kept are those of the lenient arms. -/
theorem grade_arms (hw : Agrees u w) (hv : Agrees u v) (ps : List (Policy O))
    (ih : ∀ p ∈ ps, verdict u p = none →
      (residue u w p).grade v = ((lenient u v p).effect v).outcome) :
    (grantedArms u w ps ++ residues u w ps).map (ResidualPolicy.grade v) =
      (ps.filter fun p => verdict u p = some true).map
          (fun p => ((lenient u v p).effect v).outcome) ++
        (ps.filter fun p => verdict u p = none).map
          fun p => ((lenient u v p).effect v).outcome := by
  rw [List.map_append, grantedArms, residues_eq_map, List.map_map, List.map_map]
  congr 1
  · refine List.map_congr_left fun p hp => grade_settled hw hv ?_
    have := (List.mem_filter.mp hp).2
    simp_all
  · refine List.map_congr_left fun p hp => ?_
    obtain ⟨hmem, hp⟩ := List.mem_filter.mp hp
    exact ih p hmem (by simpa using hp)

omit [DecidableEq O] [Lattice.Lawful O] in
theorem outcome_lenient_denied (hv : Agrees u v) {p : Policy O} (h : verdict u p = some false) :
    ((lenient u v p).effect v).outcome = none := by
  have hd : p.effect v = .deny := by
    rw [← Effect.isPermit_eq_false, isPermit_effect, permits_of_verdict hv h]
  rw [effect_lenient_settled hv p (by simp [h]), hd]
  rfl

/-- On a policy without obligations the filter of the residue is the policy's permission. -/
theorem selected_residue (hw : Agrees u w) (hv : Agrees u v) {p : Policy O}
    (hfree : p.ObligationFree) (h : verdict u p = none) :
    (residue u w p).selected v = p.permits fun g => g.condition.holds v := by
  rw [ResidualPolicy.selected_eq_isPermit _
      (ResidualPolicy.fallbacks_free _ (carriesObligation_residue p hfree)),
    (residue_completed hw p h).1, effect_completed hw hv, isPermit_effect]

/-- On a policy without obligations the grade of the residue is the outcome of the lenient
policy. -/
theorem grade_residue (hw : Agrees u w) (hv : Agrees u v) (p : Policy O) :
    p.ObligationFree → verdict u p = none →
      (residue u w p).grade v = ((lenient u v p).effect v).outcome := by
  induction p using Policy.ind with
  | permit o =>
    intro _ h
    cases h
  | deny =>
    intro _ h
    cases h
  | grant g =>
    intro _ hk
    rw [residue, ResidualPolicy.grade, g.condition.holds_residue hv hk, lenient, effect, effectWith]
    unfold Grant.result grantResult Condition.eval
    split <;> rfl
  | all ps ih =>
    intro hfree h
    rw [residue, ResidualPolicy.grade, ResidualPolicy.gradeEach_eq_map,
      grade_arms hw hv ps fun p hp => ih p hp (.arm hfree hp), outcome_lenient_all h]
    exact skipping_kept Lattice.Lawful.meet_comm Lattice.Lawful.meet_assoc
      fun p _ => outcome_lenient_denied hv
  | any ps ih =>
    intro hfree h
    have hkept := grade_arms hw hv ps fun p hp => ih p hp (.arm hfree hp)
    rw [outcome_lenient_any, ← skipping_kept Lattice.Lawful.join_comm Lattice.Lawful.join_assoc
      fun p _ => outcome_lenient_denied hv, ← hkept, residue, ResidualPolicy.grade,
      ResidualPolicy.gradeEach_eq_map]
    split
    · -- a known denial is kept for its reason, its grade is NULL
      rename_i hempty
      rw [List.isEmpty_iff.mp hempty, List.nil_append, firstDenied]
      cases hd : ps.find? fun p => verdict u p = some false with
      | none => rfl
      | some p =>
        have hpv : verdict u p = some false := by simpa using List.find?_some hd
        rw [Option.map_some, Option.toList_some, List.singleton_append, List.map_cons,
          grade_settled hw hv (by simp [hpv]), outcome_lenient_denied hv hpv]
        rfl
    · rfl
  | orElse primary fallback ihp ihf =>
    intro hfree h
    rw [ObligationFree, grants, List.forall_mem_append] at hfree
    rw [residue, effect_lenient_orElse]
    split
    · rename_i hpv
      rw [verdict, hpv] at h
      rw [permits_of_verdict hv hpv]
      exact ihf hfree.2 h
    · rename_i hpv
      have hp := verdict_primary h hpv
      have hcarries : (if verdict u fallback = none then residue u w fallback
          else (settledResult u w fallback).constant).carriesObligation = false := by
        split
        · exact carriesObligation_residue fallback hfree.2
        · exact carriesObligation_constant hfree.2
      rw [ResidualPolicy.grade, hcarries, Bool.false_or, selected_residue hw hv hfree.1 hp]
      split
      · exact ihp hfree.1 hp
      · by_cases hf : verdict u fallback = none
        · rw [if_pos hf]
          exact ihf hfree.2 hf
        · rw [if_neg hf]
          exact grade_settled hw hv hf

end Policy

theorem fallbacksFree_partialEvaluate {p : Policy O} (hfree : p.ObligationFree)
    (facts : PartialFacts) : (partialEvaluate p facts).FallbacksFree := by
  rw [partialEvaluate, reducePolicy_eq, Policy.reduced]
  split
  · trivial
  · exact ResidualPolicy.fallbacks_free _ (Policy.carriesObligation_residue p hfree)

end Residue

/-! ## Point check and grade -/

section Projection

variable {O : Type} [LinearOrder O] [Lattice O] [SqlOutcome O] {L : SqlxLowerer O} {cx : Context}
  {row : Row} {facts : PartialFacts} {known : KnownFacts}

open SqlOutcome

omit [LinearOrder O] [Lattice O] [SqlOutcome O] in
/-- On the tenant's rows the guard leaves the grade as it is. -/
theorem value_enforceTenantProjection (ht : L.OwnTenant cx row) (f : SqlxFragment) :
    (L.enforceTenantProjection cx f).value L.backend row = f.value L.backend row := by
  have htrue : row.selects L.backend (L.enforceTenantFilter cx (.trusted .true)) :=
    (SqlxLowerer.selects_enforceTenantFilter _).mpr ⟨ht, SqlxFragment.truth_true⟩
  rw [SqlxLowerer.enforceTenantProjection, SqlxFragment.value_caseWhen]
  exact if_pos htrue

omit [LinearOrder O] [Lattice O] in
/-- A resolved decision has the grade of its outcome. -/
theorem grades_lowerResult_resolved (hproj : L.projection = ordinalProjection) {d : Decision O}
    {lowered : Lowered} (ht : L.OwnTenant cx row)
    (h : L.lowerResult cx (.resolved d) = .ok lowered) :
    L.Grades row lowered.grade d.effect.outcome := by
  obtain ⟨l, hl, h⟩ := Result.bind_eq_ok.mp h
  cases h
  rw [SqlxLowerer.Grades, value_enforceTenantProjection ht]
  rw [SqlxLowerer.lowerDecision] at hl
  split at hl
  · rename_i o he
    obtain ⟨grade, hg, rfl⟩ := Result.map_eq_ok.mp hl
    rw [he]
    exact SqlxLowerer.grades_projection hproj hg
  · rename_i he
    cases hl
    rw [he]
    rfl

variable [Lattice.Total O] [SqlOutcome.Monotone O]

/-- What the grade of a lowered result is: the outcome of the lenient policy. -/
theorem grades_lowerResult (hproj : L.projection = ordinalProjection) {p : Policy O}
    (hfree : p.ObligationFree) (h : L.Completes cx row facts known) (ht : L.OwnTenant cx row)
    {lowered : Lowered} (hl : L.lowerResult cx (partialEvaluate p facts) = .ok lowered) :
    L.Grades row lowered.grade
      ((p.lenient facts.truth known.truth).effect known.truth).outcome := by
  have hw := agrees_partialToKnown facts
  have hv := h.completedBy.agrees
  cases hr : partialEvaluate p facts with
  | resolved d =>
    have heffect := h.completedBy.effect_eq p
    rw [hr] at hl heffect
    have hset : p.verdict facts.truth ≠ none := by
      intro hn
      rw [partialEvaluate, reducePolicy_eq, Policy.reduced, hn] at hr
      cases hr
    rw [Policy.effect_lenient_settled hv p hset, ← effect_evaluate, ← heffect]
    exact grades_lowerResult_resolved hproj ht hl
  | pending r consulted =>
    have hm := mirrors_pending h hr
    rw [hr] at hl
    rw [partialEvaluate, reducePolicy_eq, Policy.reduced] at hr
    split at hr
    · cases hr
    · rename_i hn
      cases hr
      obtain ⟨l, hlower, hl⟩ := Result.bind_eq_ok.mp hl
      cases hl
      rw [SqlxLowerer.Grades, value_enforceTenantProjection ht, ← Policy.grade_residue hw hv p hfree hn]
      exact SqlxLowerer.grades_lowerPolicy hproj _ l hlower hm

/-- A permitted row's grade is the ordinal of its outcome exactly when dropping the denying arms of
the open conjunctions does not change the outcome. -/
theorem lowerResult_grade (L : SqlxLowerer O) (hproj : L.projection = ordinalProjection)
    (p : Policy O) (hfree : p.ObligationFree) (facts : PartialFacts) (cx : Context) (row : Row)
    (known : KnownFacts) (h : L.Completes cx row facts known) (ht : L.OwnTenant cx row)
    (lowered : Lowered) (hl : L.lowerResult cx (partialEvaluate p facts) = .ok lowered) :
    (row.selects L.backend lowered.filter →
        ∃ o, (evaluate p known).effect = .permit o ∧
          lowered.grade.value L.backend row = some (.i64 (toSqlOrdinal o))) ↔
      ((evaluate p known).effect.isPermit = true →
        (evaluate (p.lenient facts.truth known.truth) known).effect =
          (evaluate p known).effect) := by
  have hselects : row.selects L.backend lowered.filter ↔
      (evaluate p known).effect.isPermit = true :=
    (selects_iff_of_free h hl (fallbacksFree_partialEvaluate hfree facts)).trans
      (and_iff_right ht)
  have hgrade := grades_lowerResult hproj hfree h ht hl
  rw [hselects, effect_evaluate (p.lenient facts.truth known.truth)]
  refine imp_congr_right fun hp => ?_
  obtain ⟨o, ho⟩ := Effect.isPermit_eq_true.mp hp
  rw [SqlxLowerer.Grades] at hgrade
  rw [ho, hgrade]
  constructor
  · rintro ⟨o', ho', hval⟩
    cases ho'
    refine Effect.eq_of_outcome ?_
    cases hx : ((p.lenient facts.truth known.truth).effect known.truth).outcome with
    | none => rw [hx] at hval; cases hval
    | some o' =>
      rw [hx, Option.map_some, Option.map_some, Option.some.injEq, SqlxValue.i64.injEq] at hval
      rw [toSqlOrdinal_injective hval]
      rfl
  · intro hx
    exact ⟨o, rfl, by rw [hx]; rfl⟩

end Projection

namespace Sample

instance : Lattice.Total Tier where
  meet_eq_min a b := by cases a <;> cases b <;> rfl
  join_eq_max a b := by cases a <;> cases b <;> rfl

instance : SqlOutcome Tier where
  toSqlOrdinal
    | .shared => 1
    | .full => 2

instance : SqlOutcome.Monotone Tier where
  strict a b h := by
    revert h
    cases a <;> cases b <;> decide

/-- Grant `outcome` on one fact. -/
def tierIf (outcome : Tier) (fact : FactId) : Policy Tier :=
  .grant ⟨outcome, .has fact, none, .forbidden, [], none⟩

def ownerOrMember : Policy Tier := .any [tierIf .full owner, tierIf .shared member]

end Sample

open Sample in
theorem lowerResult_grade_owner :
    ∃ lowered, (documents Tier .sqlite).lowerResult request
        (partialEvaluate ownerOrMember (ownerUnknown .absent)) = .ok lowered ∧
      (((document [owner]).selects .sqlite lowered.filter →
          ∃ o, (evaluate ownerOrMember
              (ownerKnown .present .absent (by decide) (by decide))).effect = .permit o ∧
            lowered.grade.value .sqlite (document [owner]) =
              some (.i64 (SqlOutcome.toSqlOrdinal o))) ↔
        ((evaluate ownerOrMember
            (ownerKnown .present .absent (by decide) (by decide))).effect.isPermit = true →
          (evaluate (ownerOrMember.lenient (ownerUnknown .absent).truth
              (ownerKnown .present .absent (by decide) (by decide)).truth)
              (ownerKnown .present .absent (by decide) (by decide))).effect =
            (evaluate ownerOrMember
              (ownerKnown .present .absent (by decide) (by decide))).effect)) :=
  ⟨_, rfl, lowerResult_grade (documents Tier .sqlite) rfl ownerOrMember
    (by decide) _ request (document [owner]) _ (documents_completes Tier .sqlite) rfl _ rfl⟩

namespace Sample

def link : FactId := ⟨"link", by decide⟩

/-- Full access needs both facts; the link alone grants shared access. -/
def ownerAndMemberOrLink : Policy Tier :=
  .any [.all [tierIf .full owner, tierIf .full member], tierIf .shared link]

def allUnknown : PartialFacts := (ownerUnknown .unknown).withFact link .unknown

def ownerWithLink : KnownFacts :=
  (ownerKnown .present .absent Presence.present_ne_unknown Presence.absent_ne_unknown).insertKnown
    link .present Presence.present_ne_unknown

theorem documents_completes_link :
    (documents Tier .postgres).Completes request (document [owner, link]) allUnknown
      ownerWithLink where
  completedBy :=
    ((PartialFacts.CompletedBy.new.withFact owner .unknown .present _ (.inl rfl)).withFact member
      .unknown .absent _ (.inl rfl)).withFact link .unknown .present _ (.inl rfl)
  mirrors fact hfact predicate hp := by
    simp only [allUnknown, ownerUnknown, PartialFacts.presence_withFact] at hfact
    split at hfact
    · rename_i h
      subst h
      cases hp
      decide
    · split at hfact
      · rename_i h
        subst h
        cases hp
        decide
      · split at hfact
        · rename_i h
          subst h
          cases hp
          decide
        · cases hfact

end Sample

open Sample in
/-- A conjunction that denies the row still counts with the grade of the arm that holds. -/
theorem grade_exceeds_outcome :
    ¬ ∀ (O : Type) [LinearOrder O] [Lattice O] [Lattice.Total O] [SqlOutcome O]
      [SqlOutcome.Monotone O] (L : SqlxLowerer O), L.projection = ordinalProjection →
      ∀ p : Policy O, p.ObligationFree → ∀ (facts : PartialFacts) (cx : Context) (row : Row)
      (known : KnownFacts), L.Completes cx row facts known → L.OwnTenant cx row →
      ∀ lowered, L.lowerResult cx (partialEvaluate p facts) = .ok lowered →
      row.selects L.backend lowered.filter →
      ∃ o, (evaluate p known).effect = .permit o ∧
        lowered.grade.value L.backend row = some (.i64 (SqlOutcome.toSqlOrdinal o)) := by
  intro h
  obtain ⟨o, ho, hgrade⟩ := h Tier (documents Tier .postgres) rfl ownerAndMemberOrLink (by decide)
    allUnknown request (document [owner, link]) ownerWithLink documents_completes_link rfl _ rfl rfl
  cases o with
  | shared =>
    -- the grade is that of full access
    revert hgrade
    decide
  | full =>
    revert ho
    decide

end Gatekeep
