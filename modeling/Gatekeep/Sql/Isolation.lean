import Gatekeep.Sql.Filter

/-!
# Gatekeep.Sql.Isolation

Rows of other tenants. Every filter and grade that leaves the lowering carries the tenant guard on
the outside: a filter as one side of an `AND`, a grade as the condition of a `CASE`. So on a row
whose tenant column is NULL or names another tenant no filter is true and every grade is NULL,
whatever stands inside the guard.
-/

namespace Gatekeep

namespace SqlxLowerer

variable {O : Type} {L : SqlxLowerer O} {cx : Context} {row : Row}

/-- The row's tenant column is NULL or names another tenant. -/
def Foreign (L : SqlxLowerer O) (cx : Context) (row : Row) : Prop :=
  row.column L.tenantColumn.qualified = none ∨
    ∃ tenant, row.column L.tenantColumn.qualified = some tenant ∧ tenant ≠ cx.tenant.value

/-- Nothing of the row is shown: the filter is not true on it and the grade is NULL. -/
structure Hides (L : SqlxLowerer O) (row : Row) (lowered : Lowered) : Prop where
  filter : ¬ row.selects L.backend lowered.filter
  grade : lowered.grade.value L.backend row = none

theorem Foreign.not_ownTenant (h : L.Foreign cx row) : ¬ L.OwnTenant cx row := by
  intro hown
  rw [OwnTenant] at hown
  rcases h with hnull | ⟨tenant, htenant, hne⟩
  · rw [hnull] at hown
    cases hown
  · rw [htenant] at hown
    exact hne (Option.some.inj hown)

/-- The guard of a filter decides before what it guards. -/
theorem not_selects_enforceTenantFilter (h : L.Foreign cx row) (policy : SqlxFragment) :
    ¬ row.selects L.backend (L.enforceTenantFilter cx policy) := by
  intro hs
  exact h.not_ownTenant ((selects_enforceTenantFilter policy).mp hs).1

theorem value_enforceTenantProjection (h : L.Foreign cx row) (grade : SqlxFragment) :
    (L.enforceTenantProjection cx grade).value L.backend row = none := by
  have hguard := not_selects_enforceTenantFilter h (.trusted .true)
  rw [Row.selects] at hguard
  rw [enforceTenantProjection, SqlxFragment.value_caseWhen, if_neg hguard]
  rfl

theorem hides_enforced (h : L.Foreign cx row) (policy grade : SqlxFragment) :
    L.Hides row ⟨L.enforceTenantFilter cx policy, L.enforceTenantProjection cx grade⟩ where
  filter := not_selects_enforceTenantFilter h policy
  grade := value_enforceTenantProjection h grade

theorem not_selects_lowerFilter (h : L.Foreign cx row) {residual : ResidualPolicy O}
    {filter : SqlxFragment} (hl : L.lowerFilter cx residual = .ok filter) :
    ¬ row.selects L.backend filter := by
  obtain ⟨policy, _, hl⟩ := Result.bind_eq_ok.mp hl
  cases hl
  exact not_selects_enforceTenantFilter h policy

theorem hides_lower (h : L.Foreign cx row) {residual : ResidualPolicy O} {lowered : Lowered}
    (hl : L.lower cx residual = .ok lowered) : L.Hides row lowered := by
  obtain ⟨inner, _, hl⟩ := Result.bind_eq_ok.mp hl
  cases hl
  exact hides_enforced h inner.filter inner.grade

theorem hides_lowerResult (h : L.Foreign cx row) {result : Residual O} {lowered : Lowered}
    (hl : L.lowerResult cx result = .ok lowered) : L.Hides row lowered := by
  cases result with
  | pending residual consulted => exact hides_lower h hl
  | resolved decision =>
    obtain ⟨inner, _, hl⟩ := Result.bind_eq_ok.mp hl
    cases hl
    exact hides_enforced h inner.filter inner.grade

/-- Whatever is lowered, by any of the three ways, hides the rows of other tenants. -/
theorem lowered_tenant_isolated (L : SqlxLowerer O) (cx : Context) (row : Row)
    (h : L.Foreign cx row) :
    (∀ residual filter, L.lowerFilter cx residual = .ok filter →
        ¬ row.selects L.backend filter) ∧
      (∀ residual lowered, L.lower cx residual = .ok lowered →
        ¬ row.selects L.backend lowered.filter ∧ lowered.grade.value L.backend row = none) ∧
      (∀ result lowered, L.lowerResult cx result = .ok lowered →
        ¬ row.selects L.backend lowered.filter ∧ lowered.grade.value L.backend row = none) := by
  refine ⟨fun residual filter hl => not_selects_lowerFilter h hl, ?_, ?_⟩
  · intro residual lowered hl
    have hides := hides_lower h hl
    exact ⟨hides.filter, hides.grade⟩
  · intro result lowered hl
    have hides := hides_lowerResult h hl
    exact ⟨hides.filter, hides.grade⟩

end SqlxLowerer

namespace Sample

/-- A row that belongs to no tenant, on which every predicate is true. -/
def orphan : Row where
  column _ := none
  raw _ := some (.bool true)

end Sample

open Sample in
theorem lowered_tenant_isolated_orphan :
    (∀ residual filter, (documents Unit .mysql).lowerFilter request residual = .ok filter →
        ¬ orphan.selects .mysql filter) ∧
      (∀ residual lowered, (documents Unit .mysql).lower request residual = .ok lowered →
        ¬ orphan.selects .mysql lowered.filter ∧ lowered.grade.value .mysql orphan = none) ∧
      (∀ result lowered, (documents Unit .mysql).lowerResult request result = .ok lowered →
        ¬ orphan.selects .mysql lowered.filter ∧ lowered.grade.value .mysql orphan = none) :=
  (documents Unit .mysql).lowered_tenant_isolated request orphan (.inl rfl)

end Gatekeep
