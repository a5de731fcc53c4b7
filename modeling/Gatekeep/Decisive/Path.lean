import Gatekeep.Decisive.Order

/-!
# Gatekeep.Decisive.Path

The decisive permit path of a decision.

* `ResidualPolicy.Decides`: the clauses that a permit takes its obligations from, and
  `mem_obligations_iff_decides`: it takes them from nowhere else.
* `required_obligation_kept_iff`: when an obligation that every clause carries survives.
-/

namespace Gatekeep

variable {O : Type}

namespace ResidualPolicy

section Decides

variable [Lattice O] [DecidableEq O]

/-- The effect of a residual under a valuation. -/
abbrev effect (v : FactId → Bool) (r : ResidualPolicy O) : Effect O := (r.result v).effect

/-- The clauses whose obligations `obs` a permit takes over. A conjunction follows the arm that
first brings the running meet down to the final outcome, if that arm grants it itself. A disjunction
follows the arms that are not below the join of the arms before them and that no later arm surpasses
together with all arms before it. -/
inductive Decides (v : FactId → Bool) : ResidualPolicy O → List ObligationId → Prop
  | permit (o : O) : Decides v (.permit o) []
  | permitWithTrace (o : O) (obs : List ObligationId) (satisfied : List FactId)
      (label : Option ClauseLabel) : Decides v (.permitWithTrace o obs satisfied label) obs
  | grant (g : Grant O) (holds : g.condition.holds v = true) : Decides v (.grant g) g.obligations
  | all (before : List (ResidualPolicy O)) (r : ResidualPolicy O) (later : List (ResidualPolicy O))
      {obs : List ObligationId}
      (meets : r.effect v = Effect.all ((before ++ r :: later).map (effect v)))
      (first : Effect.all (before.map (effect v)) ≠ Effect.all ((before ++ r :: later).map (effect v)))
      (arm : Decides v r obs) : Decides v (.all (before ++ r :: later)) obs
  | any (before : List (ResidualPolicy O)) (r : ResidualPolicy O) (later : List (ResidualPolicy O))
      {obs : List ObligationId}
      (reaches : ¬ (r.effect v).Below (Effect.any (before.map (effect v))))
      (stays : ∀ mid q rest, later = mid ++ q :: rest →
        ¬ (Effect.any ((before ++ r :: mid).map (effect v))).Below (q.effect v))
      (arm : Decides v r obs) : Decides v (.any (before ++ r :: later)) obs
  | primary {primary fallback : ResidualPolicy O} {obs : List ObligationId}
      (arm : Decides v primary obs) : Decides v (.orElse primary fallback) obs
  | fallback {primary fallback : ResidualPolicy O} {obs : List ObligationId}
      (denied : primary.effect v = .deny) (arm : Decides v fallback obs) :
      Decides v (.orElse primary fallback) obs

theorem effect_all (v : FactId → Bool) (rs : List (ResidualPolicy O)) :
    (ResidualPolicy.all rs).effect v = Effect.all (rs.map (effect v)) := by
  rw [effect, result, results_eq_map, EvalResult.effect_all, List.map_map]
  rfl

theorem effect_any (v : FactId → Bool) (rs : List (ResidualPolicy O)) :
    (ResidualPolicy.any rs).effect v = Effect.any (rs.map (effect v)) := by
  rw [effect, result, results_eq_map, EvalResult.effect_any, List.map_map]
  rfl

theorem Decides.isPermit {v : FactId → Bool} {r : ResidualPolicy O} {obs : List ObligationId}
    (h : r.Decides v obs) : (r.effect v).isPermit = true := by
  induction h with
  | permit o => rfl
  | permitWithTrace o obs satisfied label => rfl
  | grant g holds => exact (g.isPermit_result v).trans holds
  | all before r later meets first arm ih => rwa [effect_all, ← meets]
  | any before r later reaches stays arm ih =>
    rw [effect_any, Effect.isPermit_any, List.any_eq_true]
    exact ⟨r.effect v, List.mem_map_of_mem (by simp), ih⟩
  | @primary primary fallback obs arm ih =>
    rw [effect, result, if_pos ih]
    exact ih
  | @fallback primary fallback obs denied arm ih =>
    rw [effect, result, if_neg (by simp [denied, Effect.isPermit])]
    exact ih

variable [Lattice.Lawful O] {v : FactId → Bool} {x : ObligationId}

theorem mem_obligations_any (rs : List (ResidualPolicy O)) :
    x ∈ ((ResidualPolicy.any rs).result v).obligations ↔
      ∃ before r later, rs = before ++ r :: later ∧ x ∈ (r.result v).obligations ∧
        ¬ (r.effect v).Below (Effect.any (before.map (effect v))) ∧
        ∀ mid q rest, later = mid ++ q :: rest →
          ¬ (Effect.any ((before ++ r :: mid).map (effect v))).Below (q.effect v) := by
  let _ := Lattice.Lawful.joinOrder O
  have hjoin : ∀ a b : O, Lattice.join a b = a ⊔ b := fun _ _ => rfl
  have hgrade := grade_raised hjoin (effect v) fun r => (result v r).obligations
  rw [result, results_eq_map,
    mem_obligations_any_iff hjoin (List.forall_mem_map.mpr fun r _ => r.coherent_result v),
    List.map_map, Graded.mem_joinAll_iff, Graded.exists_split_map]
  refine exists_congr fun before => exists_congr fun r => exists_congr fun later =>
    and_congr_right fun _ => and_congr Iff.rfl (and_congr (not_congr ?_) ?_)
  · rw [Effect.below_iff hjoin, ← hgrade]
    rfl
  · have hmid : ∀ mid : List (ResidualPolicy O),
        Graded.grade (before.map ((fun r => raised r.effect r.obligations) ∘ result v)) ⊔
            (raised (r.effect v) (r.result v).obligations).1 ⊔
          Graded.grade (mid.map ((fun r => raised r.effect r.obligations) ∘ result v)) =
          (Effect.any ((before ++ r :: mid).map (effect v))).toWithBot := by
      intro mid
      rw [← hgrade, List.map_append, List.map_cons, Graded.grade_append, Graded.grade_cons, sup_assoc]
      rfl
    constructor
    · rintro h mid q rest rfl hlt
      rw [Effect.below_iff hjoin, ← hmid mid] at hlt
      exact h _ _ _ List.map_append hlt
    · intro h mid t rest heq hlt
      obtain ⟨mid, later', rfl, rfl, hl⟩ := List.map_eq_append_iff.mp heq
      obtain ⟨q, rest, rfl, rfl, rfl⟩ := List.map_eq_cons_iff.mp hl
      refine h mid q rest rfl ?_
      rw [Effect.below_iff hjoin, ← hmid mid]
      exact hlt

theorem mem_obligations_all {rs : List (ResidualPolicy O)}
    (hp : ∀ r ∈ rs, (r.effect v).isPermit = true) :
    x ∈ ((ResidualPolicy.all rs).result v).obligations ↔
      ∃ before r later, rs = before ++ r :: later ∧ x ∈ (r.result v).obligations ∧
        r.effect v = Effect.all (rs.map (effect v)) ∧
        Effect.all (before.map (effect v)) ≠ Effect.all (rs.map (effect v)) := by
  let _ := Lattice.Lawful.meetOrder O
  have hmeet : ∀ a b : O, Lattice.meet a b = a ⊓ b := fun _ _ => rfl
  have hfloor : ∀ l : List (ResidualPolicy O), (∀ r ∈ l, r ∈ rs) →
      Graded.floor (l.map ((fun r => lowered r.effect r.obligations) ∘ result v)) =
        (Effect.all (l.map (effect v))).toWithTop := by
    intro l hl
    exact floor_lowered hmeet (effect v) (fun r => (r.result v).obligations)
      fun r hr => hp r (hl r hr)
  rw [result, results_eq_map, mem_obligations_all_iff hmeet (List.forall_mem_map.mpr hp),
    List.map_map, Graded.mem_meetAll_iff, Graded.exists_split_map, hfloor rs fun _ h => h]
  refine exists_congr fun before => exists_congr fun r => exists_congr fun later =>
    and_congr_right fun heq => and_congr Iff.rfl (and_congr ?_ (not_congr ?_))
  · exact Effect.toWithTop_injective.eq_iff
  · rw [hfloor before (by simp_all), Effect.toWithTop_injective.eq_iff]

omit [Lattice.Lawful O] in
/-- A denial has no obligations and no decisive clause. -/
theorem mem_obligations_of_deny {r : ResidualPolicy O} (hdeny : r.effect v = .deny) :
    x ∈ (r.result v).obligations ↔ ∃ obs, r.Decides v obs ∧ x ∈ obs := by
  refine iff_of_false ?_ ?_
  · rw [(coherent_result v r).obligations_of_deny hdeny]
    exact List.not_mem_nil
  · rintro ⟨obs, h, -⟩
    have hpermit := h.isPermit
    rw [hdeny] at hpermit
    cases hpermit

/-- The obligations of a permit are those of the clauses on its decisive path. -/
theorem mem_obligations_iff_decides (r : ResidualPolicy O) :
    x ∈ (r.result v).obligations ↔ ∃ obs, r.Decides v obs ∧ x ∈ obs := by
  induction r using ResidualPolicy.ind with
  | permit o =>
    refine iff_of_false List.not_mem_nil ?_
    rintro ⟨obs, h, hx⟩
    cases h
    cases hx
  | deny => exact mem_obligations_of_deny rfl
  | permitWithTrace o obs satisfied label =>
    constructor
    · intro hx
      exact ⟨obs, .permitWithTrace o obs satisfied label, hx⟩
    · rintro ⟨obs', h, hx⟩
      cases h
      exact hx
  | denyWithTrace denied unsatisfied label reason shape => exact mem_obligations_of_deny rfl
  | grant g =>
    by_cases hg : g.condition.holds v = true
    · rw [result, Grant.result, grantResult, Condition.eval, if_pos hg]
      constructor
      · intro hx
        exact ⟨g.obligations, .grant g hg, hx⟩
      · rintro ⟨obs, h, hx⟩
        cases h
        exact hx
    · refine mem_obligations_of_deny (Effect.isPermit_eq_false.mp ?_)
      exact (g.isPermit_result v).trans (Bool.not_eq_true _ |>.mp hg)
  | all rs ih =>
    by_cases hp : ∀ r ∈ rs, (r.effect v).isPermit = true
    · rw [mem_obligations_all hp]
      constructor
      · rintro ⟨before, r, later, rfl, hx, hmeets, hfirst⟩
        obtain ⟨obs, harm, hobs⟩ := (ih r (by simp)).mp hx
        exact ⟨obs, .all before r later hmeets hfirst harm, hobs⟩
      · rintro ⟨obs, h, hobs⟩
        cases h with
        | all before r later hmeets hfirst harm =>
          exact ⟨before, r, later, rfl, (ih r (by simp)).mpr ⟨obs, harm, hobs⟩, hmeets, hfirst⟩
    · -- an arm denies, so the conjunction does and nothing is decisive
      simp only [not_forall, Bool.not_eq_true] at hp
      obtain ⟨r, hr, hd⟩ := hp
      refine mem_obligations_of_deny ?_
      rw [effect_all]
      exact Effect.all_of_deny (List.mem_map.mpr ⟨r, hr, Effect.isPermit_eq_false.mp hd⟩)
  | any rs ih =>
    rw [mem_obligations_any]
    constructor
    · rintro ⟨before, r, later, rfl, hx, hreaches, hstays⟩
      obtain ⟨obs, harm, hobs⟩ := (ih r (by simp)).mp hx
      exact ⟨obs, .any before r later hreaches hstays harm, hobs⟩
    · rintro ⟨obs, h, hobs⟩
      cases h with
      | any before r later hreaches hstays harm =>
        exact ⟨before, r, later, rfl, (ih r (by simp)).mpr ⟨obs, harm, hobs⟩, hreaches, hstays⟩
  | orElse primary fallback ihp ihf =>
    rw [result]
    split
    · rename_i hpermit
      rw [ihp]
      constructor
      · rintro ⟨obs, h, hx⟩
        exact ⟨obs, .primary h, hx⟩
      · rintro ⟨obs, h, hx⟩
        cases h with
        | primary h => exact ⟨obs, h, hx⟩
        | fallback denied h => simp [Effect.isPermit_eq_false.mpr denied] at hpermit
    · rename_i hdeny
      rw [ihf]
      constructor
      · rintro ⟨obs, h, hx⟩
        exact ⟨obs, .fallback (Effect.isPermit_eq_false.mp (Bool.not_eq_true _ |>.mp hdeny)) h, hx⟩
      · rintro ⟨obs, h, hx⟩
        cases h with
        | primary h => exact absurd h.isPermit hdeny
        | fallback denied h => exact ⟨obs, h, hx⟩

end Decides

end ResidualPolicy

/-! ## Obligations required on every permit path -/

mutual

/-- A policy as the residual that it is: nothing has been decided in it. -/
def Policy.asResidual : Policy O → ResidualPolicy O
  | .permit outcome => .permit outcome
  | .deny => .deny
  | .grant g => .grant g
  | .all policies => .all (asResiduals policies)
  | .any policies => .any (asResiduals policies)
  | .orElse primary fallback => .orElse (asResidual primary) (asResidual fallback)

def Policy.asResiduals : List (Policy O) → List (ResidualPolicy O)
  | [] => []
  | p :: ps => asResidual p :: asResiduals ps

end

mutual

/-- Every clause that can permit carries `x`: there is no bare permit, and each grant has it. -/
def ResidualPolicy.Obliges (x : ObligationId) : ResidualPolicy O → Prop
  | .permit _ => False
  | .deny | .denyWithTrace .. => True
  | .permitWithTrace _ obligations _ _ => x ∈ obligations
  | .grant g => x ∈ g.obligations
  | .all policies | .any policies => ObligesEach x policies
  | .orElse primary fallback => Obliges x primary ∧ Obliges x fallback

def ResidualPolicy.ObligesEach (x : ObligationId) : List (ResidualPolicy O) → Prop
  | [] => True
  | r :: rs => Obliges x r ∧ ObligesEach x rs

end

mutual

/-- There is no bare permit, and each grant carries `x`. -/
def Policy.Obliges (x : ObligationId) : Policy O → Prop
  | .permit _ => False
  | .deny => True
  | .grant g => x ∈ g.obligations
  | .all policies | .any policies => ObligesEach x policies
  | .orElse primary fallback => Obliges x primary ∧ Obliges x fallback

def Policy.ObligesEach (x : ObligationId) : List (Policy O) → Prop
  | [] => True
  | p :: ps => Obliges x p ∧ ObligesEach x ps

end

theorem Policy.asResiduals_eq_map (ps : List (Policy O)) : asResiduals ps = ps.map asResidual := by
  induction ps with
  | nil => rfl
  | cons p ps ih => rw [asResiduals, ih, List.map_cons]

theorem Policy.obligesEach_iff {x : ObligationId} {ps : List (Policy O)} :
    ObligesEach x ps ↔ ∀ p ∈ ps, p.Obliges x := by
  induction ps with
  | nil => simp [ObligesEach]
  | cons p ps ih => rw [ObligesEach, ih, List.forall_mem_cons]

theorem ResidualPolicy.obligesEach_iff {x : ObligationId} {rs : List (ResidualPolicy O)} :
    ObligesEach x rs ↔ ∀ r ∈ rs, r.Obliges x := by
  induction rs with
  | nil => simp [ObligesEach]
  | cons r rs ih => rw [ObligesEach, ih, List.forall_mem_cons]

theorem Policy.obliges_asResidual {x : ObligationId} (p : Policy O) :
    p.Obliges x → p.asResidual.Obliges x := by
  induction p using Policy.ind with
  | permit o => exact id
  | deny => exact id
  | grant g => exact id
  | all ps ih =>
    intro h
    rw [asResidual, ResidualPolicy.Obliges, ResidualPolicy.obligesEach_iff, asResiduals_eq_map]
    exact List.forall_mem_map.mpr fun p hp => ih p hp (obligesEach_iff.mp h p hp)
  | any ps ih =>
    intro h
    rw [asResidual, ResidualPolicy.Obliges, ResidualPolicy.obligesEach_iff, asResiduals_eq_map]
    exact List.forall_mem_map.mpr fun p hp => ih p hp (obligesEach_iff.mp h p hp)
  | orElse primary fallback ihp ihf =>
    intro h
    exact ⟨ihp h.1, ihf h.2⟩

section Required

variable [Lattice O] [DecidableEq O]

theorem Policy.result_asResidual (v : FactId → Bool) (p : Policy O) :
    p.asResidual.result v = p.result v := by
  induction p using Policy.ind with
  | permit o => rfl
  | deny => rfl
  | grant g => rfl
  | all ps ih =>
    rw [asResidual, ResidualPolicy.result, ResidualPolicy.results_eq_map, asResiduals_eq_map,
      List.map_map, Policy.result, resultWith, resultsWith_eq_map]
    exact congrArg EvalResult.all (List.map_congr_left ih)
  | any ps ih =>
    rw [asResidual, ResidualPolicy.result, ResidualPolicy.results_eq_map, asResiduals_eq_map,
      List.map_map, Policy.result, resultWith, resultsWith_eq_map]
    exact congrArg EvalResult.any (List.map_congr_left ih)
  | orElse primary fallback ihp ihf =>
    rw [asResidual, ResidualPolicy.result, Policy.result, resultWith, ihp, ihf]

theorem ResidualPolicy.Decides.obliged {v : FactId → Bool} {r : ResidualPolicy O}
    {obs : List ObligationId} {x : ObligationId} (h : r.Decides v obs) :
    r.Obliges x → x ∈ obs := by
  induction h with
  | permit o => exact False.elim
  | permitWithTrace o obs satisfied label => exact id
  | grant g holds => exact id
  | all before r later meets first arm ih =>
    intro ho
    exact ih (obligesEach_iff.mp ho r (by simp))
  | any before r later reaches stays arm ih =>
    intro ho
    exact ih (obligesEach_iff.mp ho r (by simp))
  | primary arm ih => exact fun ho => ih ho.1
  | fallback denied arm ih => exact fun ho => ih ho.2

/-- An obligation that every clause carries is kept exactly when some clause is decisive. -/
theorem ResidualPolicy.mem_obligations_of_obliges [Lattice.Lawful O] {v : FactId → Bool}
    {x : ObligationId} {r : ResidualPolicy O} (h : r.Obliges x) :
    x ∈ (r.result v).obligations ↔ ∃ obs, r.Decides v obs := by
  rw [mem_obligations_iff_decides]
  constructor
  · rintro ⟨obs, hd, -⟩
    exact ⟨obs, hd⟩
  · rintro ⟨obs, hd⟩
    exact ⟨obs, hd, hd.obliged h⟩

/-! Where any two outcomes are comparable, nothing is lost. -/

theorem Permit.mem_meet {x : ObligationId} (hmeet : ∀ a b : O, Lattice.meet a b = a ∨ Lattice.meet a b = b)
    {p q : Permit O} (hp : x ∈ p.obligations) (hq : x ∈ q.obligations) :
    x ∈ (p.meet q).obligations := by
  unfold Permit.meet
  dsimp only
  split
  · exact hp
  · rename_i hne
    rw [if_pos ((hmeet _ _).resolve_left hne)]
    exact hq

theorem Permit.mem_join {x : ObligationId} {p q : Permit O} (hp : x ∈ p.obligations)
    (hq : x ∈ q.obligations) : x ∈ (p.join q).obligations := by
  unfold Permit.join
  dsimp only
  split_ifs
  · exact (mem_unionObligations _ _).mpr (.inl hp)
  · exact hq
  · exact hp
  · exact (mem_unionObligations _ _).mpr (.inl hp)

omit [Lattice O] [DecidableEq O] in
/-- A fold of permits that all carry `x` carries it, when one step does. -/
theorem EvalResult.mem_fold {x : ObligationId} {f : Permit O → Permit O → Permit O}
    (hf : ∀ p q : Permit O, x ∈ p.obligations → x ∈ q.obligations → x ∈ (f p q).obligations)
    {rs : List (EvalResult O)} (h : ∀ r ∈ rs, r.effect.isPermit = true → x ∈ r.obligations)
    {r : EvalResult O} (hr : r.effect = .deny)
    (hp : (((Permit.fold f (rs.filterMap permit?)).map Permit.intoResult).getD r).effect.isPermit =
      true) :
    x ∈ (((Permit.fold f (rs.filterMap permit?)).map Permit.intoResult).getD r).obligations := by
  have hall : ∀ p ∈ rs.filterMap permit?, x ∈ p.obligations := by
    intro p hp
    obtain ⟨r', hr', hp⟩ := List.mem_filterMap.mp hp
    unfold permit? at hp
    split at hp
    · rename_i o he
      cases hp
      exact h r' hr' (by rw [he]; rfl)
    · cases hp
  cases hps : rs.filterMap permit? with
  | nil =>
    rw [hps, Permit.fold, Option.map_none, Option.getD_none, hr] at hp
    cases hp
  | cons p ps =>
    rw [hps] at hall
    rw [Permit.fold, Option.map_some, Option.getD_some]
    have hfold : ∀ (ps : List (Permit O)) (p : Permit O), x ∈ p.obligations →
        (∀ q ∈ ps, x ∈ q.obligations) → x ∈ (ps.foldl f p).obligations := by
      intro ps
      induction ps with
      | nil => exact fun p hp _ => hp
      | cons q ps ih =>
        intro p hp hq
        rw [List.forall_mem_cons] at hq
        exact ih (f p q) (hf p q hp hq.1) hq.2
    rw [List.forall_mem_cons] at hall
    exact hfold ps p hall.1 hall.2

theorem ResidualPolicy.mem_of_comparable {x : ObligationId} {v : FactId → Bool}
    (hmeet : ∀ a b : O, Lattice.meet a b = a ∨ Lattice.meet a b = b) (r : ResidualPolicy O) :
    r.Obliges x → (r.effect v).isPermit = true → x ∈ (r.result v).obligations := by
  induction r using ResidualPolicy.ind with
  | permit o => exact fun h => h.elim
  | deny =>
    intro _ h
    cases h
  | permitWithTrace o obs satisfied label => exact fun h _ => h
  | denyWithTrace denied unsatisfied label reason shape =>
    intro _ h
    cases h
  | grant g =>
    intro h hp
    rw [effect, result, g.isPermit_result v] at hp
    rw [result, Grant.result, grantResult, Condition.eval, if_pos hp]
    exact h
  | all rs ih =>
    intro h hp
    have harms : ∀ r ∈ rs.map (result v), r.effect.isPermit = true → x ∈ r.obligations :=
      List.forall_mem_map.mpr fun r hr => ih r hr (obligesEach_iff.mp h r hr)
    rw [effect, result, results_eq_map, EvalResult.all, EvalResult.allFrom] at hp
    rw [result, results_eq_map, EvalResult.all, EvalResult.allFrom]
    split at hp
    · rename_i r hr
      simpa [hp] using List.find?_some hr
    · exact EvalResult.mem_fold (fun _ _ => Permit.mem_meet hmeet) harms rfl hp
  | any rs ih =>
    intro h hp
    have harms : ∀ r ∈ rs.map (result v), r.effect.isPermit = true → x ∈ r.obligations :=
      List.forall_mem_map.mpr fun r hr => ih r hr (obligesEach_iff.mp h r hr)
    rw [effect, result, results_eq_map] at hp
    rw [result, results_eq_map]
    exact EvalResult.mem_fold (fun _ _ => Permit.mem_join) harms rfl hp
  | orElse primary fallback ihp ihf =>
    intro h
    rw [effect, result]
    split
    · exact ihp h.1
    · exact ihf h.2

/-- Two outcomes whose meet is neither of them lose an obligation that both arms carry. -/
theorem meet_comparable_of_kept {x : ObligationId}
    (h : ∀ (p : Policy O) (facts : KnownFacts), p.Obliges x →
      (evaluate p facts).isPermit = true → x ∈ (evaluate p facts).obligations) (a b : O) :
    Lattice.meet a b = a ∨ Lattice.meet a b = b := by
  by_contra hne
  rw [not_or] at hne
  have hx := h (.all [.grant ⟨a, .always, none, .forbidden, [x], none⟩,
      .grant ⟨b, .always, none, .forbidden, [x], none⟩]) KnownFacts.new
    (by simp [Policy.Obliges, Policy.ObligesEach]) rfl
  have hobs : (evaluate (.all [.grant ⟨a, .always, none, .forbidden, [x], none⟩,
      .grant ⟨b, .always, none, .forbidden, [x], none⟩]) KnownFacts.new).obligations =
      (Permit.meet ⟨a, [x], .permit a [] none⟩ ⟨b, [x], .permit b [] none⟩).obligations := rfl
  rw [hobs, Permit.meet] at hx
  simp only [if_neg hne.1, if_neg hne.2] at hx
  cases hx

/-- An obligation that every clause carries is on a permit exactly when the permit has a decisive
clause. It is on every permit of every policy and residual exactly when the meet of two outcomes is
always one of them. -/
theorem required_obligation_kept_iff [Lattice.Lawful O] (x : ObligationId) :
    (∀ (p : Policy O) (facts : KnownFacts), p.Obliges x →
      (((evaluate p facts).isPermit = true → x ∈ (evaluate p facts).obligations) ↔
        ((evaluate p facts).isPermit = true → ∃ obs, p.asResidual.Decides facts.truth obs))) ∧
    (∀ (r : ResidualPolicy O) (facts : KnownFacts), r.Obliges x →
      (((evaluateResidual r facts).isPermit = true → x ∈ (evaluateResidual r facts).obligations) ↔
        ((evaluateResidual r facts).isPermit = true → ∃ obs, r.Decides facts.truth obs))) ∧
    (((∀ (p : Policy O) (facts : KnownFacts), p.Obliges x →
        (evaluate p facts).isPermit = true → x ∈ (evaluate p facts).obligations) ∧
      ∀ (r : ResidualPolicy O) (facts : KnownFacts), r.Obliges x →
        (evaluateResidual r facts).isPermit = true → x ∈ (evaluateResidual r facts).obligations) ↔
      ∀ a b : O, Lattice.meet a b = a ∨ Lattice.meet a b = b) := by
  refine ⟨fun p facts h => ?_, fun r facts h => ?_, fun h => meet_comparable_of_kept h.1, fun h => ?_⟩
  · rw [evaluate_eq, ← p.result_asResidual]
    exact imp_congr_right fun _ =>
      ResidualPolicy.mem_obligations_of_obliges (p.obliges_asResidual h)
  · rw [evaluateResidual_eq]
    exact imp_congr_right fun _ => ResidualPolicy.mem_obligations_of_obliges h
  · constructor
    · intro p facts hp
      rw [evaluate_eq, ← p.result_asResidual]
      exact ResidualPolicy.mem_of_comparable h _ (p.obliges_asResidual hp)
    · intro r facts hr
      rw [evaluateResidual_eq]
      exact ResidualPolicy.mem_of_comparable h r hr

end Required

open Sample in
theorem required_obligation_kept_scopes :
    (∀ (p : Policy Scope) (facts : KnownFacts), p.Obliges logAccess →
      (((evaluate p facts).isPermit = true → logAccess ∈ (evaluate p facts).obligations) ↔
        ((evaluate p facts).isPermit = true → ∃ obs, p.asResidual.Decides facts.truth obs))) ∧
    (∀ (r : ResidualPolicy Scope) (facts : KnownFacts), r.Obliges logAccess →
      (((evaluateResidual r facts).isPermit = true →
          logAccess ∈ (evaluateResidual r facts).obligations) ↔
        ((evaluateResidual r facts).isPermit = true → ∃ obs, r.Decides facts.truth obs))) ∧
    (((∀ (p : Policy Scope) (facts : KnownFacts), p.Obliges logAccess →
        (evaluate p facts).isPermit = true → logAccess ∈ (evaluate p facts).obligations) ∧
      ∀ (r : ResidualPolicy Scope) (facts : KnownFacts), r.Obliges logAccess →
        (evaluateResidual r facts).isPermit = true →
          logAccess ∈ (evaluateResidual r facts).obligations) ↔
      ∀ a b : Scope, Lattice.meet a b = a ∨ Lattice.meet a b = b) :=
  required_obligation_kept_iff logAccess

open Sample in
/-- Both arms carry the obligation, and the permit for what they have in common does not. -/
theorem required_obligation_lost :
    Policy.Obliges logAccess (.all [grantScope .left [logAccess], grantScope .right [logAccess]]) ∧
      (evaluate (.all [grantScope .left [logAccess], grantScope .right [logAccess]])
        KnownFacts.new).isPermit = true ∧
      logAccess ∉ (evaluate (.all [grantScope .left [logAccess], grantScope .right [logAccess]])
        KnownFacts.new).obligations := by
  refine ⟨?_, by decide, by decide⟩
  simp [Policy.Obliges, Policy.ObligesEach, grantScope]

end Gatekeep
