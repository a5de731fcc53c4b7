import Gatekeep.Sql.Grade
import Gatekeep.Sql.Isolation

/-!
# Gatekeep.Sql.Steady

Policies whose lists carry the outcomes of the point check. The grade of a lowered policy leaves out
the denying arms of the conjunctions the known facts leave open, so a conjunction that denies may
still lend its grade to a disjunction around it. A policy is steady when no conjunction stands under
an `Any`: then such an arm decides the row itself, and the row is not listed (`steady_list`).
-/

namespace Gatekeep

namespace Policy

variable {O : Type}

mutual

def conjunctionFree : Policy O → Bool
  | .permit _ | .deny | .grant _ => true
  | .all _ => false
  | .any policies => conjunctionFreeEach policies
  | .orElse primary fallback => conjunctionFree primary && conjunctionFree fallback

def conjunctionFreeEach : List (Policy O) → Bool
  | [] => true
  | p :: ps => conjunctionFree p && conjunctionFreeEach ps

end

mutual

/-- No conjunction stands among the alternatives of an `Any`. -/
def steady : Policy O → Bool
  | .permit _ | .deny | .grant _ => true
  | .all policies => steadyEach policies
  | .any policies => conjunctionFreeEach policies
  | .orElse primary fallback => steady primary && steady fallback

def steadyEach : List (Policy O) → Bool
  | [] => true
  | p :: ps => steady p && steadyEach ps

end

theorem conjunctionFreeEach_eq_all (ps : List (Policy O)) :
    conjunctionFreeEach ps = ps.all conjunctionFree := by
  induction ps with
  | nil => rfl
  | cons p ps ih => rw [conjunctionFreeEach, ih, List.all_cons]

theorem steadyEach_eq_all (ps : List (Policy O)) : steadyEach ps = ps.all steady := by
  induction ps with
  | nil => rfl
  | cons p ps ih => rw [steadyEach, ih, List.all_cons]

variable [Lattice O] {u : FactId → Option Bool} {v : FactId → Bool}

/-- Without conjunctions nothing is left out. -/
theorem effect_lenient_conjunctionFree (p : Policy O) :
    p.conjunctionFree = true → (p.lenient u v).effect v = p.effect v := by
  induction p using Policy.ind with
  | permit o => exact fun _ => rfl
  | deny => exact fun _ => rfl
  | grant g => exact fun _ => rfl
  | all ps ih =>
    intro h
    cases h
  | any ps ih =>
    intro h
    rw [conjunctionFree, conjunctionFreeEach_eq_all, List.all_eq_true] at h
    have harms : ps.map (fun p => ((p.lenient u v).effect v).outcome) =
        ps.map fun p => (p.effect v).outcome :=
      List.map_congr_left fun p hp => congrArg Effect.outcome (ih p hp (h p hp))
    refine Effect.eq_of_outcome ?_
    rw [outcome_lenient_any, outcome_any, harms]
  | orElse primary fallback ihp ihf =>
    intro h
    rw [conjunctionFree, Bool.and_eq_true] at h
    rw [effect_lenient_orElse, effect_orElse, isPermit_effect, ihp h.1, ihf h.2]

/-- Where a steady policy permits, no conjunction that decides has an arm to leave out. -/
theorem effect_lenient_steady (p : Policy O) :
    p.steady = true → (p.effect v).isPermit = true → (p.lenient u v).effect v = p.effect v := by
  induction p using Policy.ind with
  | permit o => exact fun _ _ => rfl
  | deny => exact fun _ _ => rfl
  | grant g => exact fun _ _ => rfl
  | all ps ih =>
    intro h hpermit
    rw [steady, steadyEach_eq_all, List.all_eq_true] at h
    by_cases hverdict : verdict u (.all ps) = none
    · have hall : ∀ p ∈ ps, (p.effect v).isPermit = true := by
        rw [effect_all, Effect.isPermit_all, Bool.and_eq_true, List.all_map,
          List.all_eq_true] at hpermit
        exact hpermit.2
      have harms : ps.map (fun p => ((p.lenient u v).effect v).outcome) =
          ps.map fun p => (p.effect v).outcome :=
        List.map_congr_left fun p hp =>
          congrArg Effect.outcome (ih p hp (h p hp) (hall p hp))
      have hevery : (ps.map (effect v)).all Effect.isPermit = true := by
        rw [List.all_map, List.all_eq_true]
        exact hall
      refine Effect.eq_of_outcome ?_
      rw [outcome_lenient_all hverdict, harms, effect_all, Effect.all, if_pos hevery,
        Effect.outcome_combine, List.map_map]
      rfl
    · rw [lenient, if_neg hverdict]
  | any ps ih =>
    intro h _
    rw [steady] at h
    exact effect_lenient_conjunctionFree (.any ps) h
  | orElse primary fallback ihp ihf =>
    intro h hpermit
    rw [steady, Bool.and_eq_true] at h
    rw [effect_orElse] at hpermit
    rw [effect_lenient_orElse, effect_orElse, ← isPermit_effect]
    by_cases hp : (primary.effect v).isPermit = true
    · rw [if_pos hp, if_pos hp]
      exact ihp h.1 hp
    · rw [if_neg hp] at hpermit
      rw [if_neg hp, if_neg hp]
      exact ihf h.2 hpermit

end Policy

/-! ## Lists -/

namespace SqlxLowerer

variable {O : Type} (L : SqlxLowerer O) (cx : Context)

instance (row : Row) : Decidable (L.OwnTenant cx row) :=
  inferInstanceAs (Decidable (_ = _))

/-- The rows a lowered query returns, each with the value of its grade column. -/
def listed (lowered : Lowered) (rows : List Row) : List (Row × Option SqlxValue) :=
  (rows.filter fun row => row.selects L.backend lowered.filter).map fun row =>
    (row, lowered.grade.value L.backend row)

variable [Lattice O] [DecidableEq O] [SqlOutcome O]

/-- The rows the point check permits, each with the ordinal of its outcome. -/
def checked (p : Policy O) (known : Row → KnownFacts) (rows : List Row) :
    List (Row × Option SqlxValue) :=
  rows.filterMap fun row =>
    if L.OwnTenant cx row then
      (evaluate p (known row)).effect.outcome.map fun o =>
        (row, some (.i64 (SqlOutcome.toSqlOrdinal o)))
    else none

end SqlxLowerer

section Lists

variable {O : Type} [LinearOrder O] [Lattice O] [Lattice.Total O] [SqlOutcome O]
  [SqlOutcome.Monotone O] {L : SqlxLowerer O} {cx : Context} {row : Row} {facts : PartialFacts}
  {known : KnownFacts} {p : Policy O} {lowered : Lowered}

/-- The grade column of a permitted row is the ordinal of its outcome. -/
theorem grades_of_steady (hproj : L.projection = ordinalProjection) (hfree : p.ObligationFree)
    (hsteady : p.steady = true) (h : L.Completes cx row facts known) (ht : L.OwnTenant cx row)
    (hl : L.lowerResult cx (partialEvaluate p facts) = .ok lowered) {o : O}
    (ho : (evaluate p known).effect = .permit o) : L.Grades row lowered.grade (some o) := by
  have hpermit : (p.effect known.truth).isPermit = true := by
    rw [← effect_evaluate, ho]
    rfl
  have hgrade := grades_lowerResult hproj hfree h ht hl
  rwa [Policy.effect_lenient_steady p hsteady hpermit, ← effect_evaluate, ho] at hgrade

/-- One row of the list. -/
theorem listed_row (hproj : L.projection = ordinalProjection) (hfree : p.ObligationFree)
    (hsteady : p.steady = true) (h : L.Completes cx row facts known)
    (hl : L.lowerResult cx (partialEvaluate p facts) = .ok lowered) :
    (if row.selects L.backend lowered.filter then
        some (row, lowered.grade.value L.backend row) else none) =
      if L.OwnTenant cx row then
        (evaluate p known).effect.outcome.map fun o =>
          (row, some (.i64 (SqlOutcome.toSqlOrdinal o)))
      else none := by
  have hselects := selects_iff_of_free h hl (fallbacksFree_partialEvaluate hfree facts)
  by_cases ht : L.OwnTenant cx row
  · rw [if_pos ht]
    cases ho : (evaluate p known).effect with
    | deny =>
      rw [if_neg]
      · rfl
      · simp [hselects, ho, Effect.isPermit]
    | permit o =>
      have hgrade := grades_of_steady hproj hfree hsteady h ht hl ho
      rw [if_pos (hselects.mpr ⟨ht, by rw [ho]; rfl⟩), hgrade]
      rfl
  · rw [if_neg ht, if_neg fun hs => ht (hselects.mp hs).1]

/-- The list of a steady policy without obligations is the point check, row by row: the rows of the
tenant that are permitted, each graded with its own outcome, whatever was known when the list was
lowered. -/
theorem steady_list (L : SqlxLowerer O) (hproj : L.projection = ordinalProjection) (p : Policy O)
    (hfree : p.ObligationFree) (hsteady : p.steady = true) (facts : PartialFacts) (cx : Context)
    (rows : List Row) (known : Row → KnownFacts)
    (h : ∀ row ∈ rows, L.Completes cx row facts (known row)) (lowered : Lowered)
    (hl : L.lowerResult cx (partialEvaluate p facts) = .ok lowered) :
    L.listed lowered rows = L.checked cx p known rows := by
  rw [SqlxLowerer.listed, SqlxLowerer.checked, ← List.filterMap_eq_map, List.filterMap_filter]
  exact List.filterMap_congr fun row hrow => by
    rw [← listed_row hproj hfree hsteady (h row hrow) hl]
    simp

end Lists

namespace Sample

/-- Owner and member as a row records them. -/
def recorded {O : Type} (L : SqlxLowerer O) (cx : Context) (row : Row) : KnownFacts :=
  (KnownFacts.new.withBool owner (holds owner)).withBool member (holds member)
where
  holds (fact : FactId) : Bool :=
    (L.predicates fact cx).any fun predicate => predicate.truth L.backend row == some true

theorem completes_recorded {O : Type} (L : SqlxLowerer O) (cx : Context) (row : Row) :
    L.Completes cx row (ownerUnknown .unknown) (recorded L cx row) where
  completedBy fact := by
    rw [ownerUnknown, recorded, PartialFacts.presence_withFact, PartialFacts.presence_withFact]
    split
    · exact fun h => absurd rfl h
    · split
      · exact fun h => absurd rfl h
      · rename_i hmember howner
        intro _
        rw [KnownFacts.presence_withBool, if_neg hmember, KnownFacts.presence_withBool,
          if_neg howner]
        rfl
  mirrors fact hfact predicate hp := by
    have hholds : recorded.holds L cx row fact = (predicate.truth L.backend row == some true) := by
      rw [recorded.holds, hp]
      rfl
    rw [ownerUnknown, PartialFacts.presence_withFact, PartialFacts.presence_withFact] at hfact
    rw [← hholds, KnownFacts.truth, recorded, KnownFacts.presence_withBool,
      KnownFacts.presence_withBool]
    split at hfact
    · rename_i hmember
      rw [if_pos hmember, hmember]
      cases recorded.holds L cx row fact <;> rfl
    · split at hfact
      · rename_i hmember howner
        rw [if_neg hmember, if_pos howner, howner]
        cases recorded.holds L cx row fact <;> rfl
      · cases hfact

/-- Rows of an owner, a member, both, and nobody, and a row that belongs to no tenant. -/
def holdings : List Row :=
  [document [owner], document [member], document [owner, member], document [], orphan]

end Sample

open Sample in
/-- The three rows of the tenant that somebody holds are listed, each with its own grade. -/
theorem steady_list_owner :
    ∃ lowered, (documents Tier .sqlite).lowerResult request
        (partialEvaluate ownerOrMember (ownerUnknown .unknown)) = .ok lowered ∧
      (documents Tier .sqlite).listed lowered holdings =
        (documents Tier .sqlite).checked request ownerOrMember
          (recorded (documents Tier .sqlite) request) holdings ∧
      ((documents Tier .sqlite).listed lowered holdings).map Prod.snd =
        [some (.i64 2), some (.i64 1), some (.i64 2)] :=
  ⟨_, rfl, steady_list (documents Tier .sqlite) rfl ownerOrMember (by decide) (by decide)
    (ownerUnknown .unknown) request holdings _
    (fun row _ => completes_recorded (documents Tier .sqlite) request row) _ rfl, rfl⟩

end Gatekeep
