import Gatekeep.Partial
import Gatekeep.Support.Kleene
import Gatekeep.Trace

/-!
# Gatekeep.Reduction.Condition

What the reduction of a condition computes, without its loops and accumulators. Everything is
relative to `u : FactId → Option Bool`, the truth of the facts as far as it is known.

* `Condition.kleene`: the truth of a condition, when `u` settles it.
* `Condition.residue`: what is left of it when `u` does not.
* `Condition.probes`: the known facts read on the way.

`reduceCondition_eq` says that this is what `reduceCondition` returns. Under a valuation that
agrees with `u`, the Kleene value is the truth (`within_kleene`) and a residue holds when the whole
condition does (`holds_residue`).
-/

namespace Gatekeep

/-- The truth of a fact, when it is known. -/
def PartialFacts.truth (facts : PartialFacts) (fact : FactId) : Option Bool :=
  match facts.presence fact with
  | .present => some true
  | .absent => some false
  | .unknown => none

theorem PartialFacts.truth_eq_none {facts : PartialFacts} {fact : FactId} :
    facts.truth fact = none ↔ facts.presence fact = .unknown := by
  unfold truth
  cases facts.presence fact <;> simp

/-- The list of consulted facts that reading `reads` makes. -/
def logged (presence : FactId → Presence) (reads : List FactId) : Consulted :=
  FirstSeen.extend [] (tag presence reads)

@[simp] theorem logged_nil (presence : FactId → Presence) : logged presence [] = [] := rfl

@[simp] theorem extend_logged (presence : FactId → Presence) (seen l : List FactId) :
    (logged presence seen).extend (logged presence l) = logged presence (seen ++ l) := by
  rw [Consulted.extend, logged, logged, logged, FirstSeen.extend_extend_nil, extend_tag_append]

theorem mem_logged {presence : FactId → Presence} {fact : FactId} {l : List FactId} :
    fact ∈ FirstSeen.keys (logged presence l) ↔ fact ∈ l := by
  rw [logged, FirstSeen.mem_keys_extend, keys_tag]
  simp

/-! ## Conditions -/

namespace Condition

variable (u : FactId → Option Bool)

mutual

def kleene : Condition → Option Bool
  | .always => some true
  | .never => some false
  | .has fact => u fact
  | .not inner => Kleene.neg (kleene inner)
  | .all conditions => if conditions.isEmpty then some false else Kleene.conj (kleenes conditions)
  | .any conditions => Kleene.disj (kleenes conditions)

def kleenes : List Condition → List (Option Bool)
  | [] => []
  | c :: cs => kleene c :: kleenes cs

end

mutual

/-- The known facts read: a conjunction stops at an arm known to fail, a disjunction at one known
to hold. -/
def probes : Condition → List FactId
  | .always => []
  | .never => []
  | .has fact => if u fact = none then [] else [fact]
  | .not inner => probes inner
  | .all conditions => probesAll conditions
  | .any conditions => probesAny conditions

def probesAll : List Condition → List FactId
  | [] => []
  | c :: cs => probes c ++ if kleene u c = some false then [] else probesAll cs

def probesAny : List Condition → List FactId
  | [] => []
  | c :: cs => probes c ++ if kleene u c = some true then [] else probesAny cs

end

/-- A single open arm stands for itself. -/
def closeAs (combine : List Condition → Condition) : List Condition → Condition
  | [residual] => residual
  | pending => combine pending

mutual

/-- What is left of a condition that `u` does not settle. -/
def residue : Condition → Condition
  | .always => .always
  | .never => .never
  | .has fact => .has fact
  | .not inner => .not (residue inner)
  | .all conditions => closeAs .all (residues conditions)
  | .any conditions => closeAs .any (residues conditions)

/-- The residues of the arms that `u` does not settle. -/
def residues : List Condition → List Condition
  | [] => []
  | c :: cs => if kleene u c = none then residue c :: residues cs else residues cs

end

theorem kleenes_eq_map (cs : List Condition) : kleenes u cs = cs.map (kleene u) := by
  induction cs with
  | nil => rfl
  | cons c cs ih => rw [kleenes, ih, List.map_cons]

theorem residues_eq_map (cs : List Condition) :
    residues u cs = (cs.filter fun c => kleene u c = none).map (residue u) := by
  induction cs with
  | nil => rfl
  | cons c cs ih =>
    rw [residues, ih, List.filter_cons]
    by_cases h : kleene u c = none <;> simp [h]

theorem residues_eq_nil {cs : List Condition} :
    residues u cs = [] ↔ none ∉ cs.map (kleene u) := by
  rw [residues_eq_map, List.map_eq_nil_iff, List.filter_eq_nil_iff]
  simp

/-- What a reduction returns, given its two readings of the condition. -/
def reduced (presence : FactId → Presence) (c : Condition) : ReducedCondition :=
  match kleene u c with
  | some satisfied => .known satisfied (logged presence (probes u c))
  | none => .pending (residue u c) (logged presence (probes u c))

end Condition

theorem closeReduced_nil (known : Bool) (combine : List Condition → Condition)
    (consulted : Consulted) : closeReduced known combine consulted [] = .known known consulted := rfl

theorem closeReduced_of_ne_nil {known : Bool} {combine : List Condition → Condition}
    {consulted : Consulted} {pending : List Condition} (h : pending ≠ []) :
    closeReduced known combine consulted pending =
      .pending (Condition.closeAs combine pending) consulted := by
  match pending, h with
  | [_], _ => rfl
  | _ :: _ :: _, _ => rfl

section Conditions

variable (facts : PartialFacts)

open Condition

theorem reduceConditionAll_eq (cs : List Condition)
    (ih : ∀ c ∈ cs, reduceCondition facts c = c.reduced facts.truth facts.presence) :
    ∀ seen pending, reduceConditionAll facts cs (logged facts.presence seen) pending =
      if Kleene.conj (kleenes facts.truth cs) = some false then
        .known false (logged facts.presence (seen ++ probesAll facts.truth cs))
      else closeReduced true .all
        (logged facts.presence (seen ++ probesAll facts.truth cs))
        (pending ++ residues facts.truth cs) := by
  induction cs with
  | nil => intro seen pending; simp [reduceConditionAll, kleenes, probesAll, residues]
  | cons c cs ihcs =>
    intro seen pending
    have hcs := ihcs fun c' hc' => ih c' (List.mem_cons_of_mem _ hc')
    rw [reduceConditionAll, ih c List.mem_cons_self, reduced, kleenes, probesAll, residues]
    match hk : kleene facts.truth c with
    | some false => simp
    | some true => simp [hcs]
    | none =>
      by_cases hrest : Kleene.conj (kleenes facts.truth cs) = some false <;>
        simp [hcs, Kleene.conj_cons_none, hrest]

theorem reduceConditionAny_eq (cs : List Condition)
    (ih : ∀ c ∈ cs, reduceCondition facts c = c.reduced facts.truth facts.presence) :
    ∀ seen pending, reduceConditionAny facts cs (logged facts.presence seen) pending =
      if Kleene.disj (kleenes facts.truth cs) = some true then
        .known true (logged facts.presence (seen ++ probesAny facts.truth cs))
      else closeReduced false .any
        (logged facts.presence (seen ++ probesAny facts.truth cs))
        (pending ++ residues facts.truth cs) := by
  induction cs with
  | nil => intro seen pending; simp [reduceConditionAny, kleenes, probesAny, residues]
  | cons c cs ihcs =>
    intro seen pending
    have hcs := ihcs fun c' hc' => ih c' (List.mem_cons_of_mem _ hc')
    rw [reduceConditionAny, ih c List.mem_cons_self, reduced, kleenes, probesAny, residues]
    match hk : kleene facts.truth c with
    | some true => simp
    | some false => simp [hcs]
    | none =>
      by_cases hrest : Kleene.disj (kleenes facts.truth cs) = some true <;>
        simp [hcs, Kleene.disj_cons_none, hrest]

/-- Condition reduction returns the Kleene value, or the residue when there is none. -/
theorem reduceCondition_eq (c : Condition) :
    reduceCondition facts c = c.reduced facts.truth facts.presence := by
  induction c using Condition.ind with
  | always => rfl
  | never => rfl
  | has fact =>
    cases hp : facts.presence fact <;>
      simp [reduceCondition, reduced, kleene, probes, residue, PartialFacts.truth, hp, logged, tag,
        Consulted.record]
  | not inner ih =>
    rw [reduceCondition, ih, reduced, reduced, kleene, probes, residue]
    cases hk : kleene facts.truth inner <;> rfl
  | all cs ih =>
    cases cs with
    | nil => rfl
    | cons c cs =>
      have hloop := reduceConditionAll_eq facts (c :: cs) ih [] []
      simp only [logged_nil, List.nil_append] at hloop
      simp only [reduceCondition, List.isEmpty_cons, Bool.false_eq_true, if_false, hloop, reduced,
        kleene, probes, residue]
      cases hk : Kleene.conj (kleenes facts.truth (c :: cs)) with
      | none =>
        have hne : residues facts.truth (c :: cs) ≠ [] := by
          rw [Ne, residues_eq_nil, ← kleenes_eq_map, not_not]
          exact Kleene.conj_eq_none hk
        simp [closeReduced_of_ne_nil hne]
      | some b =>
        cases b with
        | false => simp
        | true =>
          have hnil : residues facts.truth (c :: cs) = [] := by
            rw [residues_eq_nil, ← kleenes_eq_map]
            intro hn
            exact absurd (Kleene.conj_eq_true.mp hk _ hn) (by simp)
          simp [hnil, closeReduced_nil]
  | any cs ih =>
    cases cs with
    | nil => rfl
    | cons c cs =>
      have hloop := reduceConditionAny_eq facts (c :: cs) ih [] []
      simp only [logged_nil, List.nil_append] at hloop
      simp only [reduceCondition, List.isEmpty_cons, Bool.false_eq_true, if_false, hloop, reduced,
        kleene, probes, residue]
      cases hk : Kleene.disj (kleenes facts.truth (c :: cs)) with
      | none =>
        have hne : residues facts.truth (c :: cs) ≠ [] := by
          rw [Ne, residues_eq_nil, ← kleenes_eq_map, not_not]
          exact Kleene.disj_eq_none hk
        simp [closeReduced_of_ne_nil hne]
      | some b =>
        cases b with
        | true => simp
        | false =>
          have hnil : residues facts.truth (c :: cs) = [] := by
            rw [residues_eq_nil, ← kleenes_eq_map]
            intro hn
            exact absurd (Kleene.disj_eq_false.mp hk _ hn) (by simp)
          simp [hnil, closeReduced_nil]

end Conditions

/-! ## Soundness of the Kleene value -/

/-- The valuation `v` has the truth of every fact that `u` knows. -/
def Agrees (u : FactId → Option Bool) (v : FactId → Bool) : Prop :=
  ∀ fact, Kleene.Within (u fact) (v fact)

namespace Condition

variable {u : FactId → Option Bool} {v : FactId → Bool}

theorem within_kleene (h : Agrees u v) (c : Condition) :
    Kleene.Within (c.kleene u) (c.holds v) := by
  induction c using Condition.ind with
  | always => exact fun _ h => (Option.some.inj h).symm
  | never => exact fun _ h => (Option.some.inj h).symm
  | has fact => exact h fact
  | not inner ih => exact Kleene.within_neg ih
  | all cs ih =>
    cases cs with
    | nil => exact fun _ h => (Option.some.inj h).symm
    | cons c cs =>
      simp only [kleene, holds, List.isEmpty_cons, Bool.not_false, Bool.true_and, holdsAll_eq_all,
        kleenes_eq_map, Bool.false_eq_true, if_false]
      exact Kleene.within_conj ih
  | any cs ih =>
    rw [kleene, holds, holdsAny_eq_any, kleenes_eq_map]
    exact Kleene.within_disj ih

theorem holds_closeAs_all {cs : List Condition} (h : cs ≠ []) :
    holds v (closeAs .all cs) = cs.all (holds v) := by
  match cs, h with
  | [c], _ => simp [closeAs]
  | c :: c' :: cs, _ =>
    simp only [closeAs, holds, List.isEmpty_cons, Bool.not_false, Bool.true_and, holdsAll_eq_all]

theorem holds_closeAs_any {cs : List Condition} (h : cs ≠ []) :
    holds v (closeAs .any cs) = cs.any (holds v) := by
  match cs, h with
  | [c], _ => simp [closeAs]
  | c :: c' :: cs, _ =>
    rw [closeAs, holds, holdsAny_eq_any]
    intro single h
    cases h

/-- Where no arm is known to fail, the open arms decide a conjunction. -/
theorem all_residues (h : Agrees u v) (cs : List Condition)
    (ih : ∀ c ∈ cs, kleene u c = none → holds v (residue u c) = holds v c)
    (hf : some false ∉ cs.map (kleene u)) :
    (residues u cs).all (holds v) = cs.all (holds v) := by
  induction cs with
  | nil => rfl
  | cons c cs ihcs =>
    rw [List.map_cons, List.mem_cons, not_or] at hf
    have hcs := ihcs (fun c' hc' => ih c' (List.mem_cons_of_mem _ hc')) hf.2
    rw [residues, List.all_cons]
    match hk : kleene u c with
    | none => simp [hcs, ih c List.mem_cons_self hk]
    | some true => simp [hcs, ← within_kleene h c true hk]
    | some false => exact absurd hk.symm hf.1

theorem any_residues (h : Agrees u v) (cs : List Condition)
    (ih : ∀ c ∈ cs, kleene u c = none → holds v (residue u c) = holds v c)
    (hf : some true ∉ cs.map (kleene u)) :
    (residues u cs).any (holds v) = cs.any (holds v) := by
  induction cs with
  | nil => rfl
  | cons c cs ihcs =>
    rw [List.map_cons, List.mem_cons, not_or] at hf
    have hcs := ihcs (fun c' hc' => ih c' (List.mem_cons_of_mem _ hc')) hf.2
    rw [residues, List.any_cons]
    match hk : kleene u c with
    | none => simp [hcs, ih c List.mem_cons_self hk]
    | some false => simp [hcs, ← within_kleene h c false hk]
    | some true => exact absurd hk.symm hf.1

/-- An open condition and its residue hold together. -/
theorem holds_residue (h : Agrees u v) (c : Condition) :
    kleene u c = none → holds v (residue u c) = holds v c := by
  induction c using Condition.ind with
  | always =>
    intro h
    cases h
  | never =>
    intro h
    cases h
  | has fact => exact fun _ => rfl
  | not inner ih =>
    intro hk
    rw [residue, holds, holds, ih (Kleene.neg_eq_none.mp hk)]
  | all cs ih =>
    intro hk
    cases cs with
    | nil => cases hk
    | cons c cs =>
      simp only [kleene, List.isEmpty_cons, Bool.false_eq_true, if_false, kleenes_eq_map] at hk
      have hne : residues u (c :: cs) ≠ [] := by
        rw [Ne, residues_eq_nil, not_not]; exact Kleene.conj_eq_none hk
      have hf : some false ∉ (c :: cs).map (kleene u) := fun hf => by
        rw [Kleene.conj_eq_false.mpr hf] at hk; cases hk
      rw [residue, holds_closeAs_all hne, all_residues h _ ih hf, holds, holdsAll_eq_all]
      rfl
  | any cs ih =>
    intro hk
    rw [kleene, kleenes_eq_map] at hk
    have hne : residues u cs ≠ [] := by
      rw [Ne, residues_eq_nil, not_not]; exact Kleene.disj_eq_none hk
    have hf : some true ∉ cs.map (kleene u) := fun hf => by
      rw [Kleene.disj_eq_true.mpr hf] at hk; cases hk
    rw [residue, holds_closeAs_any hne, any_residues h _ ih hf, holds, holdsAny_eq_any]

end Condition

/-! ## Nothing unknown -/

namespace Condition

variable {u : FactId → Option Bool} {w : FactId → Bool}

theorem kleene_ne_none (c : Condition) : (∀ f ∈ c.facts, u f ≠ none) → c.kleene u ≠ none := by
  induction c using Condition.ind with
  | always =>
    intro _ h
    cases h
  | never =>
    intro _ h
    cases h
  | has fact => exact fun h => h fact List.mem_cons_self
  | not inner ih => exact fun h hk => ih h (Kleene.neg_eq_none.mp hk)
  | all cs ih =>
    intro h hk
    rw [facts, factsOf_eq_flatMap] at h
    rw [kleene] at hk
    split at hk
    · cases hk
    · obtain ⟨c, hc, hck⟩ := List.mem_map.mp (kleenes_eq_map u cs ▸ Kleene.conj_eq_none hk)
      exact ih c hc (fun f hf => h f (List.mem_flatMap.mpr ⟨c, hc, hf⟩)) hck
  | any cs ih =>
    intro h hk
    rw [facts, factsOf_eq_flatMap] at h
    obtain ⟨c, hc, hck⟩ := List.mem_map.mp (kleenes_eq_map u cs ▸ Kleene.disj_eq_none hk)
    exact ih c hc (fun f hf => h f (List.mem_flatMap.mpr ⟨c, hc, hf⟩)) hck

theorem kleene_of_known (hw : Agrees u w) {c : Condition} (h : ∀ f ∈ c.facts, u f ≠ none) :
    c.kleene u = some (c.holds w) := by
  obtain ⟨b, hb⟩ := Option.ne_none_iff_exists'.mp (c.kleene_ne_none h)
  rw [hb, c.within_kleene hw b hb]

theorem probesAll_of_known (hw : Agrees u w) (cs : List Condition)
    (ih : ∀ c ∈ cs, (∀ f ∈ c.facts, u f ≠ none) → c.probes u = c.reads w) :
    (∀ f ∈ factsOf cs, u f ≠ none) → probesAll u cs = readsAll w cs := by
  induction cs with
  | nil => exact fun _ => rfl
  | cons c cs ihcs =>
    intro h
    rw [factsOf, List.forall_mem_append] at h
    rw [probesAll, readsAll, ih c List.mem_cons_self h.1, kleene_of_known hw h.1,
      ihcs (fun c' hc' => ih c' (List.mem_cons_of_mem _ hc')) h.2]
    cases holds w c <;> simp

theorem probesAny_of_known (hw : Agrees u w) (cs : List Condition)
    (ih : ∀ c ∈ cs, (∀ f ∈ c.facts, u f ≠ none) → c.probes u = c.reads w) :
    (∀ f ∈ factsOf cs, u f ≠ none) → probesAny u cs = readsAny w cs := by
  induction cs with
  | nil => exact fun _ => rfl
  | cons c cs ihcs =>
    intro h
    rw [factsOf, List.forall_mem_append] at h
    rw [probesAny, readsAny, ih c List.mem_cons_self h.1, kleene_of_known hw h.1,
      ihcs (fun c' hc' => ih c' (List.mem_cons_of_mem _ hc')) h.2]
    cases holds w c <;> simp

theorem probes_of_known (hw : Agrees u w) (c : Condition) :
    (∀ f ∈ c.facts, u f ≠ none) → c.probes u = c.reads w := by
  induction c using Condition.ind with
  | always => exact fun _ => rfl
  | never => exact fun _ => rfl
  | has fact => exact fun h => if_neg (h fact List.mem_cons_self)
  | not inner ih => exact ih
  | all cs ih => exact probesAll_of_known hw cs ih
  | any cs ih => exact probesAny_of_known hw cs ih

end Condition

/-- Closing a bundle takes its unknown facts to be absent. -/
theorem presence_partialToKnown (facts : PartialFacts) (fact : FactId) :
    (partialToKnown facts).presence fact =
      if facts.presence fact = .unknown then .absent else facts.presence fact := by
  have hmem : ∀ e, e ∈ (facts.knownEntries.filter fun e => e.2 != .unknown) ↔
      facts.entries.observation e.1 = some e.2 ∧ e.2 ≠ .unknown := by
    rintro ⟨f, p⟩
    simp [PartialFacts.knownEntries, List.mem_filter, Facts.mem_iter]
  rw [KnownFacts.presence, PartialFacts.presence, Facts.presence_eq, Facts.presence_eq]
  by_cases hk : ∃ p, facts.entries.observation fact = some p ∧ p ≠ .unknown
  · obtain ⟨p, hobs, hp⟩ := hk
    have hknown : (partialToKnown facts).entries.observation fact = some p :=
      Facts.observation_foldl_of_mem _ _ fact p ((hmem (fact, p)).mpr ⟨hobs, hp⟩)
        fun e he hfact => by
          have := ((hmem e).mp he).1
          rw [hfact, hobs] at this
          exact (Option.some.inj this).symm
    rw [hknown, hobs]
    simp [hp]
  · have hknown : (partialToKnown facts).entries.observation fact = none := by
      refine (Facts.observation_foldl_of_not_mem _ _ fact fun e he hfact => hk ?_).trans
        (Facts.observation_empty fact)
      obtain ⟨hobs, hp⟩ := (hmem e).mp he
      exact ⟨e.2, hfact ▸ hobs, hp⟩
    rw [hknown]
    cases hobs : facts.entries.observation fact with
    | none => rfl
    | some p =>
      have hp : p = .unknown := not_not.mp fun hp => hk ⟨p, hobs, hp⟩
      simp [hp]

theorem agrees_partialToKnown (facts : PartialFacts) :
    Agrees facts.truth (partialToKnown facts).truth := by
  intro fact b hb
  rw [KnownFacts.truth, presence_partialToKnown]
  unfold PartialFacts.truth at hb
  cases hp : facts.presence fact <;> rw [hp] at hb <;> cases hb <;> rfl

end Gatekeep
