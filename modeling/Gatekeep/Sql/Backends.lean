import Gatekeep.Sql.Grade
import Gatekeep.Sql.Isolation
import Gatekeep.Sql.Visits

/-!
# Gatekeep.Sql.Backends

The same residual lowered for two backends. Postgres combines the grades of several arms in one call
that skips NULL, SQLite and MySQL pair by pair around functions that do not; `ordinalGrade` is what
each of them computes. So the grades agree on rows on which the predicates and the tenant columns do
(`lower_grade_agrees`), and the two lowerings fail alike.
-/

namespace Gatekeep

open Result

theorem findSome?_congr {α β : Type} {f g : α → Option β} {l : List α}
    (h : ∀ x ∈ l, f x = g x) : l.findSome? f = l.findSome? g := by
  induction l with
  | nil => rfl
  | cons x l ih =>
    rw [List.findSome?_cons, List.findSome?_cons, h x List.mem_cons_self,
      ih fun y hy => h y (List.mem_cons_of_mem _ hy)]

namespace SqlxLowerer

variable {O : Type} [SqlOutcome O] {L L' : SqlxLowerer O} {cx : Context} {row row' : Row}

/-- The grade that `lower` returns: NULL on the rows of other tenants. -/
theorem ordinal_lower (hproj : L.projection = ordinalProjection) {r : ResidualPolicy O}
    {v : FactId → Bool} (hm : ∀ fact ∈ r.facts, L.Mirrors cx row v fact) {lowered : Lowered}
    (h : L.lower cx r = .ok lowered) :
    L.Ordinal row lowered.grade
      (if row.column L.tenantColumn.qualified = some cx.tenant.value then r.ordinalGrade v
        else none) := by
  obtain ⟨l, hl, h⟩ := bind_eq_ok.mp h
  cases h
  split
  · rename_i hown
    rw [Ordinal, Gatekeep.value_enforceTenantProjection hown]
    exact ordinal_lowerPolicy hproj r l hl hm
  · rename_i hown
    have hforeign : L.Foreign cx row := by
      cases hcol : row.column L.tenantColumn.qualified with
      | none => exact .inl hcol
      | some tenant => exact .inr ⟨tenant, hcol, fun ht => hown (by rw [hcol, ht])⟩
    exact SqlxLowerer.value_enforceTenantProjection hforeign l.grade

/-- Two lowerers say the same about a fact: both have no predicate for it, or both have one and these
are both true, both false or both NULL. -/
def SameTruth (L L' : SqlxLowerer O) (cx : Context) (row row' : Row) (fact : FactId) : Prop :=
  (L.predicates fact cx).map (·.truth L.backend row) =
    (L'.predicates fact cx).map (·.truth L'.backend row')

omit [SqlOutcome O] in
theorem SameTruth.missing_eq {fact : FactId} (h : L.SameTruth L' cx row row' fact) :
    L.missing cx fact = L'.missing cx fact := by
  have h' := congrArg Option.isNone h
  rwa [Option.isNone_map, Option.isNone_map] at h'

/-- The facts as a row has them, by its predicates. -/
def rowFacts (L : SqlxLowerer O) (cx : Context) (row : Row) (fact : FactId) : Bool :=
  (L.predicates fact cx).map (·.truth L.backend row) == some (some true)

omit [SqlOutcome O] in
theorem mirrors_rowFacts (fact : FactId) : L.Mirrors cx row (L.rowFacts cx row) fact := by
  intro predicate hp
  rw [rowFacts, hp]
  rfl

omit [SqlOutcome O] in
theorem SameTruth.mirrors {fact : FactId} (h : L.SameTruth L' cx row row' fact) :
    L'.Mirrors cx row' (L.rowFacts cx row) fact := by
  intro predicate hp
  rw [rowFacts, show _ = _ from h, hp]
  rfl

/-- Lowered for any two backends, a residual has the same grade, NULL or a number, on rows that are
alike, or neither lowering succeeds. -/
theorem lower_grade_agrees (L L' : SqlxLowerer O) (hproj : L.projection = ordinalProjection)
    (hproj' : L'.projection = ordinalProjection) (cx : Context) (row row' : Row)
    (r : ResidualPolicy O)
    (htenant : row.column L.tenantColumn.qualified = row'.column L'.tenantColumn.qualified)
    (htruth : ∀ fact ∈ r.facts, L.SameTruth L' cx row row' fact) :
    (∃ e, L.lower cx r = .error e ∧ L'.lower cx r = .error e) ∨
      ∃ lowered lowered', L.lower cx r = .ok lowered ∧ L'.lower cx r = .ok lowered' ∧
        ∃ ordinal : Option Int64, lowered.grade.value L.backend row = ordinal.map .i64 ∧
          lowered'.grade.value L'.backend row' = ordinal.map .i64 := by
  have hfail : failure (L.lower cx r) = failure (L'.lower cx r) := by
    rw [failure_lower, failure_lower]
    refine findSome?_congr fun visit hvisit => ?_
    cases visit with
    | fact fact =>
      have hf := r.keptFacts_subset_facts (ResidualPolicy.mem_keptFacts_of_visit hvisit)
      rw [refusal, refusal, (htruth fact hf).missing_eq]
    | outcome o => rw [refusal, refusal, hproj, hproj']
  cases hl : L.lower cx r with
  | error e =>
    rw [hl] at hfail
    exact .inl ⟨e, rfl, failure_eq_some.mp hfail.symm⟩
  | ok lowered =>
    rw [hl] at hfail
    obtain ⟨lowered', hl'⟩ := failure_eq_none.mp hfail.symm
    refine .inr ⟨lowered, lowered', rfl, hl', _,
      ordinal_lower hproj (fun fact _ => mirrors_rowFacts fact) hl, ?_⟩
    have h' := ordinal_lower hproj' (fun fact hf => (htruth fact hf).mirrors) hl'
    rw [← htenant] at h'
    exact h'

end SqlxLowerer

namespace Sample

/-- Full access for owners and shared access for members, whichever a row has. -/
def openTiers : ResidualPolicy Tier :=
  .any [.grant ⟨.full, .has owner, none, .forbidden, [], none⟩,
    .grant ⟨.shared, .has member, none, .forbidden, [], none⟩]

end Sample

open Sample in
theorem lower_grade_agrees_owner :
    ∃ lowered lowered', (documents Tier .postgres).lower request openTiers = .ok lowered ∧
      (documents Tier .mysql).lower request openTiers = .ok lowered' ∧
      ∃ ordinal : Option Int64,
        lowered.grade.value .postgres (document [owner]) = ordinal.map .i64 ∧
          lowered'.grade.value .mysql (document [owner]) = ordinal.map .i64 := by
  rcases (documents Tier .postgres).lower_grade_agrees (documents Tier .mysql) rfl rfl request
    (document [owner]) (document [owner]) openTiers rfl fun fact _ => rfl with ⟨e, h, -⟩ | h
  · cases h
  · exact h

end Gatekeep
