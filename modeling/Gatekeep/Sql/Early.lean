import Gatekeep.Sql.Filter

/-!
# Gatekeep.Sql.Early

How the list depends on how early facts are known.

Lowering leaves out a fallback that carries an obligation, but only where the `OrElse` is still
there: reduction removes it once its primary is settled. So which fallbacks are left out depends on
which facts were deferred. `Policy.prune` removes them from the policy itself, and the filter
selects exactly what the policy permits without them (`selects_iff_listed`). Two ways of deferring
facts therefore list the same rows exactly when the two pruned policies agree.
-/

namespace Gatekeep

/-! ## Pruning a policy -/

namespace Policy

section Prune

variable {O : Type}

mutual

/-- The policy without the fallbacks that `drop` names. -/
def prune (drop : Policy O → Policy O → Bool) : Policy O → Policy O
  | .permit outcome => .permit outcome
  | .deny => .deny
  | .grant g => .grant g
  | .all policies => .all (pruneEach drop policies)
  | .any policies => .any (pruneEach drop policies)
  | .orElse primary fallback =>
    if drop primary fallback then prune drop primary
    else .orElse (prune drop primary) (prune drop fallback)

def pruneEach (drop : Policy O → Policy O → Bool) : List (Policy O) → List (Policy O)
  | [] => []
  | p :: ps => prune drop p :: pruneEach drop ps

end

theorem pruneEach_eq_map (drop : Policy O → Policy O → Bool) (ps : List (Policy O)) :
    pruneEach drop ps = ps.map (prune drop) := by
  induction ps with
  | nil => rfl
  | cons p ps ih => rw [pruneEach, ih, List.map_cons]

variable {drop : Policy O → Policy O → Bool} {u : FactId → Option Bool} {b : Grant O → Bool}

theorem permits_prune_all (ps : List (Policy O)) :
    (prune drop (.all ps)).permits b =
      (!ps.isEmpty && ps.all fun p => (prune drop p).permits b) := by
  rw [prune, permits, permitsEach_eq_map, pruneEach_eq_map, List.isEmpty_map, List.map_map,
    List.all_map]
  rfl

theorem permits_prune_any (ps : List (Policy O)) :
    (prune drop (.any ps)).permits b = ps.any fun p => (prune drop p).permits b := by
  rw [prune, permits, permitsEach_eq_map, pruneEach_eq_map, List.map_map, List.any_map]
  rfl

theorem permits_prune_orElse (primary fallback : Policy O) :
    (prune drop (.orElse primary fallback)).permits b =
      ((prune drop primary).permits b ||
        (!drop primary fallback && (prune drop fallback).permits b)) := by
  rw [prune]
  by_cases h : drop primary fallback = true
  · simp [h]
  · simp [h, permits]

/-- Pruning behind open primaries only does not contradict a verdict. -/
theorem within_verdict_prune (hdrop : ∀ primary fallback, drop primary fallback = true →
      verdict u primary = none)
    (h : ∀ g, Kleene.Within (g.condition.kleene u) (b g)) (p : Policy O) :
    Kleene.Within (p.verdict u) ((p.prune drop).permits b) := by
  induction p using Policy.ind with
  | permit o => exact fun _ h => (Option.some.inj h).symm
  | deny => exact fun _ h => (Option.some.inj h).symm
  | grant g => exact h g
  | all ps ih =>
    have hall := Kleene.within_conj ih
    rw [permits_prune_all, verdict, verdicts_eq_map]
    cases ps with
    | nil => exact fun _ h => (Option.some.inj h).symm
    | cons p ps => simpa [List.all_map] using hall
  | any ps ih =>
    have hany := Kleene.within_disj ih
    rw [permits_prune_any, verdict, verdicts_eq_map]
    split
    · intro _ h
      cases h
    · simpa [List.any_map] using hany
  | orElse primary fallback ihp ihf =>
    rw [permits_prune_orElse, verdict]
    split
    · rename_i hp
      rw [← ihp _ hp]
      exact fun _ h => (Option.some.inj h).symm
    · rename_i hp
      have hkept : drop primary fallback = false := by
        by_contra hne
        rw [hdrop primary fallback (by simpa using hne)] at hp
        cases hp
      rw [← ihp _ hp, hkept]
      exact ihf
    · intro _ h
      cases h

end Prune

/-! ## What lowering leaves out -/

section Hidden

variable {O : Type} [Lattice O] [DecidableEq O] (u : FactId → Option Bool) (w : FactId → Bool)

/-- What reduction leaves of a policy, settled or not. -/
def leftover (p : Policy O) : ResidualPolicy O :=
  if verdict u p = none then residue u w p else (settledResult u w p).constant

/-- The fallback is left out: its primary is open, and what is left of it carries an obligation. -/
def leftOut (primary fallback : Policy O) : Bool :=
  decide (verdict u primary = none) && (leftover u w fallback).carriesObligation

variable {u w} {v : FactId → Bool}

theorem leftOut_open {primary fallback : Policy O} (h : leftOut u w primary fallback = true) :
    verdict u primary = none := by
  simp only [leftOut, Bool.and_eq_true, decide_eq_true_eq] at h
  exact h.1

omit [Lattice O] [DecidableEq O] in
theorem selected_constant {r : EvalResult O} (h : r.Coherent) :
    r.constant.selected v = r.effect.isPermit := by
  cases h <;> rfl

/-- What is settled is the same for the residual and for the pruned policy. -/
theorem permits_prune_settled (hv : Agrees u v) {p : Policy O} {b : Bool}
    (h : verdict u p = some b) :
    (p.prune (leftOut u w)).permits (fun g => g.condition.holds v) = b :=
  (within_verdict_prune (fun _ _ => leftOut_open) (fun g => g.condition.within_kleene hv) p b h).symm

theorem selected_settled (hw : Agrees u w) {p : Policy O} {b : Bool} (h : verdict u p = some b) :
    (settledResult u w p).constant.selected v = b := by
  rw [selected_constant (coherent_settledResult p), isPermit_settledResult hw h]

/-- The arms of an open conjunction or disjunction: those known to permit, then those left open. -/
theorem selected_arms (hw : Agrees u w) {ps : List (Policy O)}
    (ih : ∀ p ∈ ps, verdict u p = none → (residue u w p).selected v =
      (p.prune (leftOut u w)).permits fun g => g.condition.holds v) :
    (∀ r ∈ grantedArms u w ps, r.selected v = true) ∧
      (residues u w ps).map (ResidualPolicy.selected v) =
        (ps.filter fun p => verdict u p = none).map fun p =>
          (p.prune (leftOut u w)).permits fun g => g.condition.holds v := by
  refine ⟨fun r hr => ?_, ?_⟩
  · obtain ⟨p, hp, rfl⟩ := List.mem_map.mp hr
    exact selected_settled hw (by simpa using (List.mem_filter.mp hp).2)
  · rw [residues_eq_map, List.map_map]
    refine List.map_congr_left fun p hp => ?_
    obtain ⟨hmem, hopen⟩ := List.mem_filter.mp hp
    exact ih p hmem (by simpa using hopen)

theorem selected_residue_pruned_all (hw : Agrees u w) (hv : Agrees u v) {ps : List (Policy O)}
    (ih : ∀ p ∈ ps, verdict u p = none → (residue u w p).selected v =
      (p.prune (leftOut u w)).permits fun g => g.condition.holds v)
    (h : verdict u (.all ps) = none) :
    (residue u w (.all ps)).selected v =
      ((Policy.all ps).prune (leftOut u w)).permits fun g => g.condition.holds v := by
  obtain ⟨hgranted, hopen⟩ := selected_arms hw ih
  have hnonempty : ps ≠ [] := by
    rintro rfl
    cases h
  obtain ⟨⟨q, hq, hqv⟩, hnone⟩ := verdict_all_eq_none h
  have hresidue : residue u w q ∈ residues u w ps := by
    rw [residues_eq_map]
    exact List.mem_map_of_mem (List.mem_filter.mpr ⟨hq, by simpa using hqv⟩)
  have harms : grantedArms u w ps ++ residues u w ps ≠ [] :=
    List.ne_nil_of_mem (List.mem_append_right _ hresidue)
  -- no arm is known to deny, so the settled ones all permit
  have hsettled : ∀ p ∈ ps, verdict u p ≠ none →
      (p.prune (leftOut u w)).permits (fun g => g.condition.holds v) = true := by
    intro p hp hpv
    obtain ⟨b, hb⟩ := Option.ne_none_iff_exists'.mp hpv
    rw [permits_prune_settled hv hb]
    by_contra hne
    rw [Bool.not_eq_true] at hne
    rw [hne] at hb
    exact hnone p hp hb
  rw [residue, ResidualPolicy.selected, ResidualPolicy.selectedEach_eq_map, permits_prune_all,
    List.isEmpty_eq_false_iff.mpr harms, List.isEmpty_eq_false_iff.mpr hnonempty,
    List.map_append, List.all_append, hopen]
  have hall : ((grantedArms u w ps).map (ResidualPolicy.selected v)).all id = true := by
    rw [List.all_map]
    exact List.all_eq_true.mpr hgranted
  rw [hall, Bool.true_and, Bool.eq_iff_iff, Bool.and_eq_true, Bool.and_eq_true, List.all_map,
    List.all_eq_true, List.all_eq_true]
  refine and_congr_right fun _ => ⟨fun hsel p hp => ?_, fun hsel p hp => ?_⟩
  · by_cases hpv : verdict u p = none
    · exact hsel p (List.mem_filter.mpr ⟨hp, by simpa using hpv⟩)
    · exact hsettled p hp hpv
  · exact hsel p (List.mem_filter.mp hp).1

theorem selected_residue_pruned_any (hw : Agrees u w) (hv : Agrees u v) {ps : List (Policy O)}
    (ih : ∀ p ∈ ps, verdict u p = none → (residue u w p).selected v =
      (p.prune (leftOut u w)).permits fun g => g.condition.holds v) :
    (residue u w (.any ps)).selected v =
      ((Policy.any ps).prune (leftOut u w)).permits fun g => g.condition.holds v := by
  obtain ⟨hgranted, hopen⟩ := selected_arms hw ih
  have hkept : ((if (grantedArms u w ps).isEmpty then (firstDenied u w ps).toList
      else grantedArms u w ps).map (ResidualPolicy.selected v)).any id =
        !(grantedArms u w ps).isEmpty := by
    cases hg : grantedArms u w ps with
    | cons r rs =>
      have hr := hgranted r (by simp [hg])
      simp [hr]
    | nil =>
      cases hd : ps.find? fun p => verdict u p = some false with
      | none => simp [firstDenied, hd]
      | some q =>
        have hq : verdict u q = some false := by simpa using List.find?_some hd
        simp [firstDenied, hd, selected_settled hw hq]
  rw [residue, ResidualPolicy.selected, ResidualPolicy.selectedEach_eq_map, permits_prune_any,
    List.map_append, List.any_append, hopen, hkept, Bool.eq_iff_iff, Bool.or_eq_true, List.any_map,
    List.any_eq_true, List.any_eq_true]
  constructor
  · rintro (hsome | ⟨p, hp, hpermit⟩)
    · obtain ⟨r, hr⟩ := List.exists_mem_of_ne_nil _ (by simpa using hsome)
      obtain ⟨p, hp, rfl⟩ := List.mem_map.mp hr
      obtain ⟨hmem, hpv⟩ := List.mem_filter.mp hp
      exact ⟨p, hmem, permits_prune_settled hv (by simpa using hpv)⟩
    · exact ⟨p, (List.mem_filter.mp hp).1, hpermit⟩
  · rintro ⟨p, hp, hpermit⟩
    cases hpv : verdict u p with
    | none => exact .inr ⟨p, List.mem_filter.mpr ⟨hp, by simpa using hpv⟩, hpermit⟩
    | some b =>
      rw [permits_prune_settled hv hpv] at hpermit
      subst hpermit
      refine .inl ?_
      have hmem : (settledResult u w p).constant ∈ grantedArms u w ps :=
        List.mem_map_of_mem (List.mem_filter.mpr ⟨hp, by simpa using hpv⟩)
      simpa using List.ne_nil_of_mem hmem

/-- What the filter of a residue decides is what the pruned policy permits. -/
theorem selected_residue_pruned (hw : Agrees u w) (hv : Agrees u v) (p : Policy O) :
    verdict u p = none → (residue u w p).selected v =
      (p.prune (leftOut u w)).permits fun g => g.condition.holds v := by
  induction p using Policy.ind with
  | permit o =>
    intro h
    cases h
  | deny =>
    intro h
    cases h
  | grant g =>
    intro h
    exact g.condition.holds_residue hv h
  | all ps ih => exact selected_residue_pruned_all hw hv ih
  | any ps ih => exact fun _ => selected_residue_pruned_any hw hv ih
  | orElse primary fallback ihp ihf =>
    intro h
    rw [permits_prune_orElse, residue]
    by_cases hp : verdict u primary = some false
    · have hf : verdict u fallback = none := by
        rw [verdict, hp] at h
        exact h
      have hkept : leftOut u w primary fallback = false := by simp [leftOut, hp]
      rw [if_pos hp, permits_prune_settled hv hp, hkept, ihf hf]
      rfl
    · have hprimary := verdict_primary h hp
      have hfallback : (leftover u w fallback).selected v =
          (fallback.prune (leftOut u w)).permits fun g => g.condition.holds v := by
        cases hf : verdict u fallback with
        | none => rw [leftover, if_pos hf, ihf hf]
        | some b =>
          rw [leftover, if_neg (by simp [hf]), selected_settled hw hf, permits_prune_settled hv hf]
      rw [if_neg hp, ResidualPolicy.selected, ihp hprimary, leftOut, ← leftover, hfallback, hprimary]
      simp

end Hidden

end Policy

/-! ## The rows listed -/

section Listed

variable {O : Type} [Lattice O] [DecidableEq O]

/-- What is left of a policy: the constant of its decision, or the pending residual. -/
def Residual.remains : Residual O → ResidualPolicy O
  | .resolved decision => policyFromDecision decision
  | .pending residual _ => residual

def Residual.isPending : Residual O → Bool
  | .resolved _ => false
  | .pending _ _ => true

/-- Lowering skips the fallback: `facts` leave its primary undecided, and what they leave of it
carries an obligation. -/
def PartialFacts.skips (facts : PartialFacts) (primary fallback : Policy O) : Bool :=
  (partialEvaluate primary facts).isPending &&
    (partialEvaluate fallback facts).remains.carriesObligation

/-- The policy without the fallbacks that are skipped. -/
def Policy.listed (facts : PartialFacts) (p : Policy O) : Policy O := p.prune facts.skips

variable {L : SqlxLowerer O} {cx : Context} {row : Row} {facts : PartialFacts} {known : KnownFacts}

theorem Residual.isPending_partialEvaluate (p : Policy O) :
    (partialEvaluate p facts).isPending = decide (p.verdict facts.truth = none) := by
  rw [partialEvaluate, reducePolicy_eq, Policy.reduced]
  cases p.verdict facts.truth <;> rfl

theorem Residual.remains_partialEvaluate (p : Policy O) :
    (partialEvaluate p facts).remains = p.leftover facts.truth (partialToKnown facts).truth := by
  rw [partialEvaluate, reducePolicy_eq, Policy.reduced, Policy.leftover]
  cases p.verdict facts.truth <;> rfl

theorem PartialFacts.skips_eq (facts : PartialFacts) :
    (facts.skips : Policy O → Policy O → Bool) =
      Policy.leftOut facts.truth (partialToKnown facts).truth := by
  funext primary fallback
  rw [skips, Policy.leftOut, Residual.isPending_partialEvaluate, Residual.remains_partialEvaluate]

theorem isPermit_listed (p : Policy O) :
    (evaluate (p.listed facts) known).effect.isPermit =
      (p.prune (Policy.leftOut facts.truth (partialToKnown facts).truth)).permits
        fun g => g.condition.holds known.truth := by
  rw [evaluate_eq, Policy.result, Policy.isPermit_resultWith, Policy.listed, PartialFacts.skips_eq]
  simp only [Grant.isPermit_result]

/-- The filter selects the rows of the tenant that the point check permits by the policy without
its skipped fallbacks. -/
theorem selects_iff_listed {p : Policy O} {lowered : Lowered} (h : L.Completes cx row facts known)
    (hl : L.lowerResult cx (partialEvaluate p facts) = .ok lowered) :
    row.selects L.backend lowered.filter ↔
      L.OwnTenant cx row ∧ (evaluate (p.listed facts) known).effect.isPermit = true := by
  have hw := agrees_partialToKnown facts
  have hv := h.completedBy.agrees
  rw [isPermit_listed]
  match hp : p.verdict facts.truth with
  | some b =>
    rw [partialEvaluate, reducePolicy_eq, Policy.reduced, hp] at hl
    rw [selects_lowerResult_resolved hl, Policy.permits_prune_settled hv hp]
    exact and_congr_right fun _ => by rw [← Policy.isPermit_settledResult hw hp]; rfl
  | none =>
    have hr : partialEvaluate p facts =
        .pending (p.residue facts.truth (partialToKnown facts).truth)
          (logged facts.presence (p.probes facts.truth)) := by
      rw [partialEvaluate, reducePolicy_eq, Policy.reduced, hp]
    rw [hr] at hl
    rw [selects_lower (mirrors_pending h hr) hl, Policy.selected_residue_pruned hw hv p hp]

/-- Two ways of deferring facts list the same row exactly when the skipped fallbacks make no
difference to it. -/
theorem lists_agree_iff (L : SqlxLowerer O) (p : Policy O) (cx : Context) (row : Row)
    (known : KnownFacts) (early late : PartialFacts) (hearly : L.Completes cx row early known)
    (hlate : L.Completes cx row late known) (loweredEarly loweredLate : Lowered)
    (he : L.lowerResult cx (partialEvaluate p early) = .ok loweredEarly)
    (hl : L.lowerResult cx (partialEvaluate p late) = .ok loweredLate) :
    (row.selects L.backend loweredEarly.filter ↔ row.selects L.backend loweredLate.filter) ↔
      (L.OwnTenant cx row →
        (evaluate (p.listed early) known).effect.isPermit =
          (evaluate (p.listed late) known).effect.isPermit) := by
  rw [selects_iff_listed hearly he, selects_iff_listed hlate hl, and_congr_right_iff,
    ← Bool.eq_iff_iff]

end Listed

namespace Sample

/-- Owners, or else members, of whom the owner is notified. -/
def ownerOrElse : Policy Unit :=
  .orElse (grantIf (.has owner) []) (grantIf (.has member) [notifyOwner])

/-- `ownerKnown` with nothing unknown. -/
def ownerAbsent : PartialFacts :=
  (PartialFacts.new.withFact owner .absent).withFact member .present

theorem documents_completes_late (backend : Backend) :
    (documents Unit backend).Completes request (document [member]) (ownerUnknown .present)
      (ownerKnown .absent .present (by decide) (by decide)) where
  completedBy := ownerUnknown_completedBy _ _
  mirrors fact hfact predicate hp := by
    have howner : fact = owner := by
      rw [ownerUnknown, PartialFacts.presence_withFact, PartialFacts.presence_withFact] at hfact
      split at hfact
      · cases hfact
      · split at hfact
        · rename_i h; exact h.symm
        · cases hfact
    subst howner
    cases hp
    rfl

theorem documents_completes_early (backend : Backend) :
    (documents Unit backend).Completes request (document [member]) ownerAbsent
      (ownerKnown .absent .present (by decide) (by decide)) where
  completedBy := (PartialFacts.CompletedBy.new.withFact owner .absent .absent (by decide)
    (.inr rfl)).withFact member .present .present (by decide) (.inr rfl)
  mirrors fact hfact := by
    rw [ownerAbsent, PartialFacts.presence_withFact, PartialFacts.presence_withFact] at hfact
    split at hfact
    · cases hfact
    · split at hfact
      · cases hfact
      · cases hfact

end Sample

open Sample in
theorem lists_agree_ownerOrElse :
    ∃ early late, (documents Unit .sqlite).lowerResult request
        (partialEvaluate ownerOrElse ownerAbsent) = .ok early ∧
      (documents Unit .sqlite).lowerResult request
        (partialEvaluate ownerOrElse (ownerUnknown .present)) = .ok late ∧
      (((document [member]).selects .sqlite early.filter ↔
          (document [member]).selects .sqlite late.filter) ↔
        ((documents Unit .sqlite).OwnTenant request (document [member]) →
          (evaluate (ownerOrElse.listed ownerAbsent)
            (ownerKnown .absent .present (by decide) (by decide))).effect.isPermit =
          (evaluate (ownerOrElse.listed (ownerUnknown .present))
            (ownerKnown .absent .present (by decide) (by decide))).effect.isPermit)) :=
  ⟨_, _, rfl, rfl, lists_agree_iff (documents Unit .sqlite) ownerOrElse request (document [member]) _
    _ _ (documents_completes_early .sqlite) (documents_completes_late .sqlite) _ _ rfl rfl⟩

open Sample in
/-- A member's row is listed when the owner is known to be absent, and not when this is left to the
row. -/
theorem ownerOrElse_listed_early_only :
    ∃ known, (documents Unit .sqlite).Completes request (document [member]) ownerAbsent known ∧
      (documents Unit .sqlite).Completes request (document [member]) (ownerUnknown .present) known ∧
      ∃ early late, (documents Unit .sqlite).lowerResult request
          (partialEvaluate ownerOrElse ownerAbsent) = .ok early ∧
        (documents Unit .sqlite).lowerResult request
          (partialEvaluate ownerOrElse (ownerUnknown .present)) = .ok late ∧
        (document [member]).selects .sqlite early.filter ∧
        ¬ (document [member]).selects .sqlite late.filter := by
  refine ⟨_, documents_completes_early .sqlite, documents_completes_late .sqlite, _, _, rfl, rfl,
    ?_, ?_⟩
  · unfold Row.selects
    decide +kernel
  · unfold Row.selects
    decide +kernel

end Gatekeep
