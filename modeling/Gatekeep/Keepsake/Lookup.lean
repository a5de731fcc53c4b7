import Gatekeep.Keepsake

/-!
# Gatekeep.Keepsake.Lookup

The grouped lookup answers every fact as a lookup of its own would.

Facts are grouped by subject slot, each group is looked up at once, and the answers are found again
under slot and relation. `Groups` is what the grouping loop keeps: a group has the subject of its
slot, and exactly the relations of the bindings with that slot. `mem_ids_lookUpAll` says what the
loop over the groups finds. So no fact sees an assignment of another subject or another relation
(`resolveForDecision_scoped`), and an assignment that was not asked for fails the whole call
(`refuses_resolveForDecision`).
-/

namespace Gatekeep

open Traced

namespace Keepsake

variable (K : Keepsake)

/-- The assignment is in effect, and known to be. -/
def isApplied (time : OffsetDateTime) (assignment : K.ActiveRelation) : Bool :=
  match K.stateAt time assignment with
  | .ok state => state = K.applied
  | .error _ => false

variable {K}

theorem isApplied_of_ok {time : OffsetDateTime} {assignment : K.ActiveRelation}
    {state : K.LifecycleState} (h : K.stateAt time assignment = .ok state) :
    K.isApplied time assignment = decide (state = K.applied) := by
  rw [isApplied, h]

end Keepsake

/-! ## One lookup -/

namespace SubjectLookup

variable {K : Keepsake} {E : Type} {lookup : SubjectLookup K} {tenant : K.TenantId}
  {time : OffsetDateTime}

/-- The answer is accepted: everything in it was asked for and has a known state. -/
def Accepts (lookup : SubjectLookup K) (tenant : K.TenantId) (time : OffsetDateTime)
    (assignments : List K.ActiveRelation) : Prop :=
  ∀ a ∈ assignments, lookup.InScope tenant a ∧ ∃ state, K.stateAt time a = .ok state

/-- What is accepted is filtered. -/
theorem effective_eq_ok {assignments es : List K.ActiveRelation} :
    (lookup.effective tenant time assignments : Except (KeepsakeResolveError K E) _) = .ok es ↔
      lookup.Accepts tenant time assignments ∧ es = assignments.filter (K.isApplied time) := by
  induction assignments generalizing es with
  | nil =>
    rw [effective]
    exact ⟨fun h => ⟨fun _ ha => (nomatch ha), (Except.ok.inj h).symm⟩, fun h => by rw [h.2]; rfl⟩
  | cons a as ih =>
    rw [effective, Accepts, List.forall_mem_cons]
    by_cases hscope : lookup.InScope tenant a
    swap
    · rw [if_neg hscope]
      exact ⟨fun h => (nomatch h), fun h => absurd h.1.1.1 hscope⟩
    rw [if_pos hscope]
    constructor
    · intro h
      obtain ⟨state, hstate, h⟩ := Result.bind_eq_ok.mp h
      obtain ⟨rest, hrest, h⟩ := Result.bind_eq_ok.mp h
      obtain ⟨haccepts, rfl⟩ := ih.mp hrest
      have hstate' := Result.mapError_eq_ok.mp hstate
      refine ⟨⟨⟨hscope, state, hstate'⟩, haccepts⟩, ?_⟩
      cases h
      rw [List.filter_cons, Keepsake.isApplied_of_ok hstate']
      simp
    · rintro ⟨⟨⟨-, state, hstate⟩, haccepts⟩, rfl⟩
      refine Result.bind_eq_ok.mpr ⟨state, Result.mapError_eq_ok.mpr hstate, ?_⟩
      refine Result.bind_eq_ok.mpr ⟨_, ih.mpr ⟨haccepts, rfl⟩, ?_⟩
      rw [List.filter_cons, Keepsake.isApplied_of_ok hstate]
      simp

end SubjectLookup

namespace EffectiveRelations

variable {K : Keepsake} {slot slot' : Option SubjectSlot} {relation : RelationId}

theorem mem_ids_insertAll {assignments : List K.ActiveRelation} {active : EffectiveRelations} :
    (slot', relation) ∈ (assignments.foldl (·.insert slot ·) active).ids ↔
      (slot', relation) ∈ active.ids ∨
        slot' = slot ∧ ∃ a ∈ assignments, K.relationId a = relation := by
  induction assignments generalizing active with
  | nil => simp
  | cons a as ih =>
    rw [List.foldl_cons, ih, insert, Finset.mem_insert, Prod.mk.injEq]
    constructor
    · rintro ((⟨rfl, rfl⟩ | hmem) | ⟨rfl, a', ha', rfl⟩)
      · exact .inr ⟨rfl, a, List.mem_cons_self, rfl⟩
      · exact .inl hmem
      · exact .inr ⟨rfl, a', List.mem_cons_of_mem _ ha', rfl⟩
    · rintro (hmem | ⟨rfl, a', ha', rfl⟩)
      · exact .inl (.inr hmem)
      · rcases List.mem_cons.mp ha' with rfl | ha'
        · exact .inl (.inl ⟨rfl, rfl⟩)
        · exact .inr ⟨rfl, a', ha', rfl⟩

theorem relationPresence_eq_present {active : EffectiveRelations} :
    active.relationPresence slot relation = .present ↔ (slot, relation) ∈ active.ids := by
  unfold relationPresence
  split
  · rename_i h; simp [h]
  · rename_i h; simp [h]

theorem relationPresence_ne_unknown (active : EffectiveRelations) :
    active.relationPresence slot relation ≠ .unknown := by
  unfold relationPresence
  split <;> simp

end EffectiveRelations

/-- The assignment is one of the target's tenant, subject and relation. -/
def KeepsakeRelationTarget.Matches {K : Keepsake} (target : KeepsakeRelationTarget K)
    (a : K.ActiveRelation) : Prop :=
  K.tenantId a = target.tenantId ∧ K.subject a = target.subject ∧
    K.relationId a = target.relationId

/-! ## Grouping -/

namespace KeepsakeResolver

variable {K : Keepsake} {σ E : Type} (r : KeepsakeResolver K σ E)

/-- The subject behind a slot, or the principal's. -/
def subjectOf (cx : Context) : Option SubjectSlot → Option K.SubjectRef
  | some slot =>
    cx.subjects[slot]?.bind fun subject =>
      (K.newSubjectRef subject.kind.value subject.id.value).toOption
  | none => (r.subjectMapper cx).toOption

variable {r} {cx : Context}

theorem subjectForBinding_eq_ok {binding : FactBinding} {subject : K.SubjectRef} :
    r.subjectForBinding binding cx = .ok subject ↔
      r.subjectOf cx binding.subjectSlot = some subject := by
  unfold subjectForBinding subjectOf
  cases binding.subjectSlot with
  | none => exact Result.mapError_eq_ok.trans Result.toOption_eq_some.symm
  | some slot =>
    cases hs : cx.subjects[slot]? with
    | none => simp [hs]
    | some named =>
      simp only [hs, Option.bind_some]
      exact Result.mapError_eq_ok.trans Result.toOption_eq_some.symm

/-- A target depends on its binding only through the slot and the names it copies. -/
theorem targetForBinding_eq_ok {binding : FactBinding} {target : KeepsakeRelationTarget K} :
    r.targetForBinding binding cx = .ok target ↔
      K.newTenantId cx.tenant.value = .ok target.tenantId ∧
        r.subjectOf cx binding.subjectSlot = some target.subject ∧
        target.fact = binding.fact ∧ target.relationId = binding.relationId ∧
        target.subjectSlot = binding.subjectSlot := by
  unfold targetForBinding
  simp only [Result.bind_eq_ok, Result.mapError_eq_ok, subjectForBinding_eq_ok]
  constructor
  · rintro ⟨tenant, htenant, subject, hsubject, hreturn⟩
    cases hreturn
    exact ⟨htenant, hsubject, rfl, rfl, rfl⟩
  · rintro ⟨htenant, hsubject, hfact, hrelation, hslot⟩
    refine ⟨_, htenant, _, hsubject, ?_⟩
    rw [← hfact, ← hrelation, ← hslot]
    rfl

/-- The groups of the bindings seen so far. -/
structure Groups (r : KeepsakeResolver K σ E) (cx : Context) (bindings : List FactBinding)
    (grouped : Grouped K) : Prop where
  covers : ∀ b ∈ bindings, b.subjectSlot ∈ grouped
  subject : ∀ (slot : Option SubjectSlot) (lookup : SubjectLookup K),
    grouped[slot]? = some lookup → r.subjectOf cx slot = some lookup.subject
  requested : ∀ (slot : Option SubjectSlot) (lookup : SubjectLookup K),
    grouped[slot]? = some lookup → ∀ relation, relation ∈ lookup.relationIds ↔
      ∃ b ∈ bindings, b.subjectSlot = slot ∧ b.relationId = relation

theorem Groups.empty : Groups r cx [] ∅ where
  covers _ hb := nomatch hb
  subject slot lookup h := by simp at h
  requested slot lookup h := by simp at h

theorem getElem?_enter (grouped : Grouped K) (target : KeepsakeRelationTarget K)
    (slot : Option SubjectSlot) :
    (SubjectLookup.enter grouped target)[slot]? =
      if target.subjectSlot = slot then
        some (match grouped[slot]? with
          | some lookup => { lookup with relationIds := lookup.relationIds.insert target.relationId }
          | none => ⟨target.subject, (∅ : Std.ExtTreeSet RelationId).insert target.relationId⟩)
      else grouped[slot]? := by
  rw [SubjectLookup.enter, Std.ExtTreeMap.getElem?_alter]
  simp only [Std.LawfulEqCmp.compare_eq_iff_eq]
  split
  · rename_i hslot
    subst hslot
    cases grouped[target.subjectSlot]? <;> rfl
  · rfl

/-- One pass through the grouping loop. -/
theorem Groups.enter {seen : List FactBinding} {grouped : Grouped K} {binding : FactBinding}
    {target : KeepsakeRelationTarget K} (h : Groups r cx seen grouped)
    (ht : r.targetForBinding binding cx = .ok target) :
    Groups r cx (seen ++ [binding]) (SubjectLookup.enter grouped target) := by
  obtain ⟨-, hsubject, -, hrelation, hslot⟩ := targetForBinding_eq_ok.mp ht
  constructor
  · intro b hb
    rw [← Std.ExtTreeMap.isSome_getElem?_iff_mem, getElem?_enter]
    split
    · rfl
    · rename_i hne
      rcases List.mem_append.mp hb with hb | hb
      · rw [Std.ExtTreeMap.isSome_getElem?_iff_mem]
        exact h.covers b hb
      · rw [List.mem_singleton.mp hb] at hne
        exact absurd hslot hne
  · intro slot lookup hl
    rw [getElem?_enter] at hl
    split at hl
    · rename_i hentered
      cases hl
      cases hold : grouped[slot]? with
      | none => rw [← hentered, hslot]; exact hsubject
      | some lookup => exact h.subject slot lookup hold
    · exact h.subject slot lookup hl
  · intro slot lookup hl relation
    simp only [List.mem_append, List.mem_singleton, or_and_right, exists_or, exists_eq_left]
    rw [getElem?_enter] at hl
    split at hl
    · rename_i hentered
      have hthis : binding.subjectSlot = slot := hslot ▸ hentered
      cases hl
      cases hold : grouped[slot]? with
      | none =>
        have hnone : ¬ ∃ b ∈ seen, b.subjectSlot = slot ∧ b.relationId = relation := by
          rintro ⟨b, hb, rfl, -⟩
          have := h.covers b hb
          rw [← Std.ExtTreeMap.isSome_getElem?_iff_mem, hold] at this
          cases this
        simp [hnone, hthis, hrelation]
      | some lookup =>
        simp only [Std.ExtTreeSet.mem_insert, Std.LawfulEqCmp.compare_eq_iff_eq]
        rw [h.requested slot lookup hold relation, hrelation, or_comm]
        simp [hthis]
    · rename_i hne
      have hother : binding.subjectSlot ≠ slot := fun heq => hne (hslot.trans heq)
      rw [h.requested slot lookup hl relation]
      simp [hother]

/-- The whole grouping loop. -/
theorem groups_group {seen bindings : List FactBinding} {grouped grouped' : Grouped K}
    (hseen : Groups r cx seen grouped) (h : r.group cx bindings grouped = .ok grouped') :
    Groups r cx (seen ++ bindings) grouped' ∧
      ∀ b ∈ bindings, ∃ target, r.targetForBinding b cx = .ok target := by
  induction bindings generalizing seen grouped with
  | nil =>
    cases h
    exact ⟨by rwa [List.append_nil], List.forall_mem_nil _⟩
  | cons b bs ih =>
    rw [group] at h
    obtain ⟨target, ht, h⟩ := Result.bind_eq_ok.mp h
    have ht := Result.mapError_eq_ok.mp ht
    obtain ⟨hgroups, htargets⟩ := ih (hseen.enter ht) h
    rw [List.append_assoc] at hgroups
    exact ⟨hgroups, List.forall_mem_cons.mpr ⟨⟨target, ht⟩, htargets⟩⟩

/-! ## Running the lookups -/

theorem result_lookUp {tenant : K.TenantId} {time : OffsetDateTime} {lookup : SubjectLookup K}
    {w : σ} {es : List K.ActiveRelation} :
    (r.lookUp tenant time lookup w).result = .ok es ↔
      ∃ assignments, (r.source tenant lookup.subject lookup.relationIds.toList w).1 =
          .ok assignments ∧
        lookup.Accepts tenant time assignments ∧ es = assignments.filter (K.isApplied time) := by
  show ((Act.call _ _ >>= _) w).result = .ok es ↔ _
  rw [Act.bind_call]
  show ((Act.check _ _ >>= _) _).result = .ok es ↔ _
  simp only [Act.result_bind_check, Act.result_check, SubjectLookup.effective_eq_ok]

/-- The source returns exactly the assignments asked for among the ones `held`. -/
def Exact (r : KeepsakeResolver K σ E) (held : K.ActiveRelation → Prop) : Prop :=
  ∀ tenant subject relationIds w assignments,
    (r.source tenant subject relationIds w).1 = .ok assignments → ∀ a, a ∈ assignments ↔
      held a ∧ K.tenantId a = tenant ∧ K.subject a = subject ∧ K.relationId a ∈ relationIds

variable {held : K.ActiveRelation → Prop} {tenant : K.TenantId} {time : OffsetDateTime}

/-- As far as they were asked for, the source returns the assignments `held` and no others. -/
def Follows (r : KeepsakeResolver K σ E) (held : K.ActiveRelation → Prop) : Prop :=
  ∀ tenant subject relationIds w assignments,
    (r.source tenant subject relationIds w).1 = .ok assignments → ∀ a, K.tenantId a = tenant →
      K.subject a = subject → K.relationId a ∈ relationIds → (a ∈ assignments ↔ held a)

theorem Exact.follows (h : r.Exact held) : r.Follows held := by
  intro tenant subject relationIds w assignments hanswer a htenant hsubject hrelation
  rw [h _ _ _ _ _ hanswer]
  exact and_iff_left ⟨htenant, hsubject, hrelation⟩

/-- What an accepted answer consists of. -/
theorem Follows.mem_iff (hfollows : r.Follows held) {lookup : SubjectLookup K} {w : σ}
    {assignments : List K.ActiveRelation}
    (h : (r.source tenant lookup.subject lookup.relationIds.toList w).1 = .ok assignments)
    (haccepts : lookup.Accepts tenant time assignments) (a : K.ActiveRelation) :
    a ∈ assignments ↔ held a ∧ lookup.InScope tenant a := by
  have hin : lookup.InScope tenant a → (a ∈ assignments ↔ held a) := by
    rintro ⟨htenant, hsubject, hrelation⟩
    exact hfollows _ _ _ _ _ h a htenant hsubject (Std.ExtTreeSet.mem_toList.mpr hrelation)
  constructor
  · intro ha
    have hscope := (haccepts a ha).1
    exact ⟨(hin hscope).mp ha, hscope⟩
  · rintro ⟨ha, hscope⟩
    exact (hin hscope).mpr ha

/-- The loop over the groups finds, under every slot, the relations in effect among those asked
for. Every assignment it came across had a known state. -/
theorem mem_ids_lookUpAll (hfollows : r.Follows held)
    {groups : List (Option SubjectSlot × SubjectLookup K)} {active active' : EffectiveRelations}
    {w : σ} (h : (r.lookUpAll tenant time groups active w).result = .ok active') :
    (∀ g ∈ groups, ∀ a, held a → g.2.InScope tenant a → ∃ state, K.stateAt time a = .ok state) ∧
      ∀ slot relation, (slot, relation) ∈ active'.ids ↔
        (slot, relation) ∈ active.ids ∨ ∃ lookup, (slot, lookup) ∈ groups ∧
          ∃ a, held a ∧ lookup.InScope tenant a ∧ K.relationId a = relation ∧
            K.isApplied time a = true := by
  induction groups generalizing active w with
  | nil =>
    cases h
    exact ⟨List.forall_mem_nil _, fun _ _ => by simp⟩
  | cons g groups ih =>
    obtain ⟨slot, lookup⟩ := g
    rw [lookUpAll] at h
    obtain ⟨es, hes, h⟩ := Act.result_bind.mp h
    obtain ⟨assignments, hanswer, haccepts, rfl⟩ := result_lookUp.mp hes
    obtain ⟨hstates, hids⟩ := ih h
    have hmem := hfollows.mem_iff hanswer haccepts
    refine ⟨List.forall_mem_cons.mpr ⟨fun a ha hscope => ?_, hstates⟩, fun slot' relation => ?_⟩
    · exact (haccepts a ((hmem a).mpr ⟨ha, hscope⟩)).2
    · rw [hids, EffectiveRelations.mem_ids_insertAll]
      simp only [List.mem_filter, hmem, List.mem_cons, Prod.mk.injEq, or_and_right, exists_or,
        or_assoc]
      refine or_congr_right (or_congr_left ?_)
      constructor
      · rintro ⟨rfl, a, ⟨⟨ha, hscope⟩, happlied⟩, hrelation⟩
        exact ⟨lookup, ⟨rfl, rfl⟩, a, ha, hscope, hrelation, happlied⟩
      · rintro ⟨_, ⟨rfl, rfl⟩, a, ha, hscope, hrelation, happlied⟩
        exact ⟨rfl, a, ⟨⟨ha, hscope⟩, happlied⟩, hrelation⟩

/-- What is found for one binding. -/
theorem relationPresence_of_run (hfollows : r.Follows held) {bindings : List FactBinding}
    {active : EffectiveRelations} {w : σ}
    (h : (r.activeRelationIdsBySubject cx bindings time w).result = .ok active)
    {binding : FactBinding} (hb : binding ∈ bindings) :
    ∃ target, r.targetForBinding binding cx = .ok target ∧
      (∀ a, held a → target.Matches a → ∃ state, K.stateAt time a = .ok state) ∧
      (active.relationPresence binding.subjectSlot binding.relationId = .present ↔
        ∃ a, held a ∧ target.Matches a ∧ K.isApplied time a = true) := by
  unfold activeRelationIdsBySubject at h
  obtain ⟨grouped, hgroup, h⟩ := Act.result_bind_check.mp h
  obtain ⟨tenant, htenant, h⟩ := Act.result_bind_check.mp h
  obtain ⟨hgroups, htargets⟩ := groups_group Groups.empty hgroup
  rw [List.nil_append] at hgroups
  obtain ⟨target, ht⟩ := htargets binding hb
  obtain ⟨htenant', hsubject, -, hrelation, hslot⟩ := targetForBinding_eq_ok.mp ht
  have heq : target.tenantId = tenant := by
    rw [htenant] at htenant'
    exact (Except.ok.inj htenant').symm
  -- the group of the binding's slot asks for its relation, of its subject
  obtain ⟨lookup, hlookup⟩ := Option.isSome_iff_exists.mp
    (Std.ExtTreeMap.isSome_getElem?_iff_mem.mpr (hgroups.covers binding hb))
  have hsubject' : lookup.subject = target.subject := by
    have := hgroups.subject _ _ hlookup
    rw [hsubject] at this
    exact (Option.some.inj this).symm
  have hrequested : target.relationId ∈ lookup.relationIds :=
    (hgroups.requested _ _ hlookup _).mpr ⟨binding, hb, rfl, hrelation.symm⟩
  have hscope : ∀ a, target.Matches a ↔
      lookup.InScope tenant a ∧ K.relationId a = binding.relationId := by
    intro a
    rw [KeepsakeRelationTarget.Matches, SubjectLookup.InScope, heq, hsubject', hrelation]
    constructor
    · rintro ⟨hat, has, har⟩
      exact ⟨⟨hat, has, har ▸ hrelation ▸ hrequested⟩, har⟩
    · rintro ⟨⟨hat, has, -⟩, har⟩
      exact ⟨hat, has, har⟩
  obtain ⟨hstates, hids⟩ := mem_ids_lookUpAll hfollows h
  refine ⟨target, ht, fun a ha hmatch => ?_, ?_⟩
  · have hmem := Std.ExtTreeMap.mem_toList_iff_getElem?_eq_some.mpr hlookup
    exact hstates _ hmem a ha ((hscope a).mp hmatch).1
  · rw [EffectiveRelations.relationPresence_eq_present, hids]
    simp only [EffectiveRelations.empty, Finset.notMem_empty, false_or,
      Std.ExtTreeMap.mem_toList_iff_getElem?_eq_some]
    constructor
    · rintro ⟨lookup', hlookup', a, ha, hin, har, happlied⟩
      rw [hlookup] at hlookup'
      cases hlookup'
      exact ⟨a, ha, (hscope a).mpr ⟨hin, har⟩, happlied⟩
    · rintro ⟨a, ha, hmatch, happlied⟩
      obtain ⟨hin, har⟩ := (hscope a).mp hmatch
      exact ⟨lookup, hlookup, a, ha, hin, har, happlied⟩

/-! ## Resolving for a decision -/

theorem bindingsFor_eq_ok {required : List FactId} {bindings : List FactBinding}
    (h : r.bindingsFor required = (.ok bindings : Except (Error K E) _)) :
    List.Forall₂ (fun fact b => r.bindings[fact]? = some b) required bindings := by
  induction required generalizing bindings with
  | nil =>
    cases h
    exact .nil
  | cons fact facts ih =>
    rw [bindingsFor] at h
    split at h
    · cases h
    · rename_i b hb
      obtain ⟨bs, hbs, h⟩ := Result.bind_eq_ok.mp h
      cases h
      exact .cons hb (ih hbs)

/-- A binding that was found is the one filed under its fact. -/
theorem getElem?_of_mem {required : List FactId} {bindings : List FactBinding}
    (h : r.bindingsFor required = (.ok bindings : Except (Error K E) _)) {b : FactBinding}
    (hb : b ∈ bindings) : b.fact ∈ required ∧ r.bindings[b.fact]? = some b := by
  have hall := bindingsFor_eq_ok h
  clear h
  induction hall with
  | nil => cases hb
  | cons hfact _ ih =>
    rcases List.mem_cons.mp hb with rfl | hb
    · rw [r.filed _ _ hfact]
      exact ⟨List.mem_cons_self, hfact⟩
    · exact (ih hb).imp_left (List.mem_cons_of_mem _)

theorem exists_binding {required : List FactId} {bindings : List FactBinding}
    (h : r.bindingsFor required = (.ok bindings : Except (Error K E) _)) {fact : FactId}
    (hfact : fact ∈ required) : ∃ b ∈ bindings, b.fact = fact := by
  have hall := bindingsFor_eq_ok h
  clear h
  induction hall with
  | nil => cases hfact
  | cons hb _ ih =>
    rcases List.mem_cons.mp hfact with rfl | hfact
    · exact ⟨_, List.mem_cons_self, r.filed _ _ hb⟩
    · obtain ⟨b, hb, hbf⟩ := ih hfact
      exact ⟨b, List.mem_cons_of_mem _ hb, hbf⟩

/-- The bundle built from one presence for each binding, at a fact that is bound. -/
theorem presence_fromBindings {required : List FactId} {bindings : List FactBinding}
    (h : r.bindingsFor required = (.ok bindings : Except (Error K E) _))
    (presence : FactBinding → Presence) {b : FactBinding} (hb : b ∈ bindings) :
    (Facts.fromEntries (bindings.map fun b => (b.fact, presence b))).presence b.fact =
      presence b := by
  rw [Facts.presence_eq, Facts.fromEntries, Facts.observation_foldl_of_mem _ _ _ (presence b)
    (List.mem_map.mpr ⟨b, hb, rfl⟩), Option.getD_some]
  rw [List.forall_mem_map]
  intro b' hb' (heq : b'.fact = b.fact)
  -- two bindings of one fact are the same binding
  have h₁ := (getElem?_of_mem h hb').2
  have h₂ := (getElem?_of_mem h hb).2
  rw [heq, h₂] at h₁
  rw [Option.some.inj h₁]

/-- The same bundle at a fact that was not asked for. -/
theorem presence_fromBindings_of_not_mem {required : List FactId} {bindings : List FactBinding}
    (h : r.bindingsFor required = (.ok bindings : Except (Error K E) _))
    (presence : FactBinding → Presence) {fact : FactId} (hfact : fact ∉ required) :
    (Facts.fromEntries (bindings.map fun b => (b.fact, presence b))).presence fact = .absent := by
  rw [Facts.presence_eq, Facts.fromEntries, Facts.observation_foldl_of_not_mem,
    Facts.observation_empty, Option.getD_none]
  rw [List.forall_mem_map]
  rintro b hb rfl
  exact hfact (getElem?_of_mem h hb).1

theorem conclude_eq_ok {F : Type} {facts : F} {active : EffectiveRelations} {w : σ}
    {resolution : FactResolution F}
    (h : (conclude facts active time w : Ran σ (KeepsakeCall K E) _).result = .ok resolution) :
    resolution.facts = facts ∧ metadataFreshUntil resolution.metadata = active.expiresAt ∧
      resolution.observedAt = time ∧ resolution.observations = [] := by
  unfold conclude at h
  obtain ⟨metadata, hmetadata, h⟩ := Act.result_bind_check.mp h
  have h := Act.result_check.mp h
  obtain ⟨source, -, hmetadata⟩ := Result.bind_eq_ok.mp hmetadata
  cases hmetadata
  unfold FactResolution.new at h
  split at h
  · cases h
  · cases h
    exact ⟨rfl, rfl, rfl, rfl⟩

/-- What both ways of resolving have in common: `find` looks the relations up, `build` makes facts
of them. -/
def resolveWith {F : Type} (r : KeepsakeResolver K σ E)
    (find : List FactBinding → OffsetDateTime → Run K σ E EffectiveRelations)
    (build : List FactBinding → EffectiveRelations → Except (Error K E) F)
    (required : List FactId) (clock : σ → OffsetDateTime × σ) : Run K σ E (FactResolution F) := do
  let observedAt ← Act.call clock .now
  let bindings ← Act.check id (r.bindingsFor required)
  let active ← find bindings observedAt
  let facts ← Act.check id (build bindings active)
  conclude facts active observedAt

/-- What a successful call consists of. -/
theorem resolveWith_eq_ok {F : Type}
    {find : List FactBinding → OffsetDateTime → Run K σ E EffectiveRelations}
    {build : List FactBinding → EffectiveRelations → Except (Error K E) F} {required : List FactId}
    {clock : σ → OffsetDateTime × σ} {w : σ} {resolution : FactResolution F}
    (h : (r.resolveWith find build required clock w).result = .ok resolution) :
    ∃ bindings active, r.bindingsFor required = (.ok bindings : Except (Error K E) _) ∧
      (find bindings (clock w).1 (clock w).2).result = .ok active ∧
      build bindings active = .ok resolution.facts ∧
      metadataFreshUntil resolution.metadata = active.expiresAt ∧
      resolution.observedAt = (clock w).1 ∧ resolution.observations = [] := by
  unfold resolveWith at h
  rw [Act.bind_call] at h
  obtain ⟨bindings, hbindings, h⟩ := Act.result_bind_check.mp h
  obtain ⟨active, hactive, h⟩ := Act.result_bind.mp h
  obtain ⟨facts, hfacts, h⟩ := Act.result_bind_check.mp h
  obtain ⟨rfl, hmetadata⟩ := conclude_eq_ok h
  exact ⟨bindings, active, hbindings, hactive, hfacts, hmetadata⟩

/-- The facts of a decision. -/
def decisionFacts (bindings : List FactBinding) (active : EffectiveRelations) :
    Except (Error K E) KnownFacts :=
  (KnownFacts.fromEntries (bindings.map fun b =>
    (b.fact, active.relationPresence b.subjectSlot b.relationId))).mapError
      fun e => .backend (.gatekeep e)

theorem resolveForDecision_eq (required : List FactId) :
    r.resolveForDecision required cx =
      r.resolveWith (r.activeRelationIdsBySubject cx) decisionFacts required := by
  funext clock
  unfold resolveForDecision resolveWith
  refine congrArg _ (funext fun observedAt => congrArg _ (funext fun bindings =>
    congrArg _ (funext fun active => ?_)))
  unfold decisionFacts
  cases KnownFacts.fromEntries (bindings.map fun b =>
    (b.fact, active.relationPresence b.subjectSlot b.relationId)) <;> rfl

theorem resolveForQuery_eq (required : List FactId) :
    r.resolveForQuery required cx = r.resolveWith (r.queryRelations cx)
      (fun bindings active => .ok (PartialFacts.fromEntries
        (bindings.map fun b => (b.fact, queryPresenceOf active b)))) required := rfl

/-- The presences of a decision are all known, so its facts are always accepted. -/
theorem decisionFacts_eq_ok (bindings : List FactBinding) (active : EffectiveRelations) :
    ∃ known, (decisionFacts bindings active : Except (Error K E) _) = .ok known ∧
      known.entries = Facts.fromEntries (bindings.map fun b =>
        (b.fact, active.relationPresence b.subjectSlot b.relationId)) := by
  have hnone : ∀ e ∈ bindings.map fun b =>
      (b.fact, active.relationPresence b.subjectSlot b.relationId), e.2 ≠ .unknown :=
    List.forall_mem_map.mpr fun _ _ => active.relationPresence_ne_unknown
  obtain ⟨known, hknown, hentries⟩ := KnownFacts.fromEntries_ok hnone
  exact ⟨known, Result.mapError_eq_ok.mpr hknown, hentries⟩

/-- What a successful decision found, and the facts it made of it. -/
theorem entries_resolveForDecision {required : List FactId} {clock : σ → OffsetDateTime × σ}
    {w : σ} {resolution : FactResolution KnownFacts}
    (h : (r.resolveForDecision required cx clock w).result = .ok resolution) :
    ∃ bindings active, r.bindingsFor required = (.ok bindings : Except (Error K E) _) ∧
      (r.activeRelationIdsBySubject cx bindings (clock w).1 (clock w).2).result = .ok active ∧
      resolution.facts.entries = Facts.fromEntries (bindings.map fun b =>
        (b.fact, active.relationPresence b.subjectSlot b.relationId)) := by
  rw [resolveForDecision_eq] at h
  obtain ⟨bindings, active, hbindings, hactive, hfacts, -⟩ := resolveWith_eq_ok h
  obtain ⟨known, hknown, hentries⟩ := decisionFacts_eq_ok (K := K) (E := E) bindings active
  rw [hknown] at hfacts
  cases hfacts
  exact ⟨bindings, active, hbindings, hactive, hentries⟩

end KeepsakeResolver

/-! ## One fact by itself -/

namespace Keepsake

variable {K : Keepsake}

/-- An authoritative time has an instant. -/
def Dated (K : Keepsake) : Prop := ∀ time, ∃ date, K.instant (K.authoritative time) = .ok date

/-- At most one assignment for each tenant, subject and relation. -/
def AtMostOne (held : K.ActiveRelation → Prop) : Prop :=
  ∀ a b, held a → held b → K.tenantId a = K.tenantId b → K.subject a = K.subject b →
    K.relationId a = K.relationId b → a = b

/-- The snapshot shows the assignment of its scope that is held, if there is one. -/
structure RelationSnapshot.Shows (snapshot : K.RelationSnapshot) (held : K.ActiveRelation → Prop) :
    Prop where
  some : ∀ a, snapshot.active = some a → held a ∧ K.tenantId a = snapshot.tenantId ∧
    K.subject a = snapshot.subject ∧ K.relationId a = snapshot.relationId
  none : snapshot.active = none → ∀ a, held a → K.tenantId a = snapshot.tenantId →
    K.subject a = snapshot.subject → K.relationId a ≠ snapshot.relationId

end Keepsake

namespace KeepsakeRelationTarget

variable {K : Keepsake} {held : K.ActiveRelation → Prop} {target : KeepsakeRelationTarget K}
  {snapshot : K.RelationSnapshot} {time : OffsetDateTime}

/-- The effective presence on a snapshot of the target's own scope. -/
theorem effectivePresence_of_scope (hdated : K.Dated) (htenant : snapshot.tenantId = target.tenantId)
    (hsubject : snapshot.subject = target.subject)
    (hrelation : snapshot.relationId = target.relationId) :
    target.effectivePresence (K.authoritative time) snapshot none =
      match snapshot.active with
      | none => .ok .absent
      | some a =>
        ((K.stateAt time a).mapError .evidence).map fun state =>
          if state = K.applied then .present else .absent := by
  obtain ⟨date, hdate⟩ := hdated time
  unfold effectivePresence
  rw [hdate]
  simp only [htenant, hsubject, hrelation, ne_eq, not_true, or_self, if_false]
  cases snapshot.active with
  | none => rfl
  | some a =>
    cases hstate : K.effectiveState (K.authoritative time) a none with
    | error e => simp [Keepsake.stateAt, hstate, mismatches]; rfl
    | ok state => simp [Keepsake.stateAt, hstate, mismatches]; rfl

/-- It is present exactly when an assignment held in the scope is in effect. -/
theorem effectivePresence_eq (hdated : K.Dated) (hone : Keepsake.AtMostOne held)
    (htenant : snapshot.tenantId = target.tenantId) (hsubject : snapshot.subject = target.subject)
    (hrelation : snapshot.relationId = target.relationId) (hshows : snapshot.Shows held)
    (hstates : ∀ a, held a → target.Matches a → ∃ state, K.stateAt time a = .ok state)
    {presence : Presence} (hknown : presence ≠ .unknown)
    (hpresence : presence = .present ↔
      ∃ a, held a ∧ target.Matches a ∧ K.isApplied time a = true) :
    target.effectivePresence (K.authoritative time) snapshot none = .ok presence := by
  have habsent : presence ≠ .present → presence = .absent := by
    intro hne
    cases presence with
    | present => exact absurd rfl hne
    | absent => rfl
    | unknown => exact absurd rfl hknown
  rw [effectivePresence_of_scope hdated htenant hsubject hrelation]
  cases hactive : snapshot.active with
  | none =>
    refine congrArg Except.ok (habsent fun hp => ?_).symm
    obtain ⟨a, ha, ⟨hat, has, har⟩, -⟩ := hpresence.mp hp
    exact hshows.none hactive a ha (hat.trans htenant.symm) (has.trans hsubject.symm)
      (har.trans hrelation.symm)
  | some a =>
    obtain ⟨ha, hat, has, har⟩ := hshows.some a hactive
    have hmatch : target.Matches a :=
      ⟨hat.trans htenant, has.trans hsubject, har.trans hrelation⟩
    obtain ⟨state, hstate⟩ := hstates a ha hmatch
    have hiff : presence = .present ↔ state = K.applied := by
      rw [hpresence, ← decide_eq_true_iff (p := state = K.applied),
        ← Keepsake.isApplied_of_ok hstate]
      constructor
      · rintro ⟨b, hb, ⟨hbt, hbs, hbr⟩, happlied⟩
        have hab : b = a := hone b a hb ha (hbt.trans hmatch.1.symm) (hbs.trans hmatch.2.1.symm)
          (hbr.trans hmatch.2.2.symm)
        rwa [hab] at happlied
      · exact fun happlied => ⟨a, ha, hmatch, happlied⟩
    simp only [hstate]
    refine congrArg Except.ok ?_
    beta_reduce
    by_cases happlied : state = K.applied
    · rw [if_pos happlied, hiff.mpr happlied]
    · rw [if_neg happlied, habsent (mt hiff.mp happlied)]

end KeepsakeRelationTarget

/-! ## Strays -/

/-- A lookup that was answered with an assignment of another tenant, of another subject or of a
relation that was not asked for. -/
def KeepsakeCall.Stray {K : Keepsake} {E : Type} : KeepsakeCall K E → Prop
  | .now _ => False
  | .lookup tenantId subject relationIds answer =>
    ∃ assignments, answer = .ok assignments ∧ ∃ a ∈ assignments,
      K.tenantId a ≠ tenantId ∨ K.subject a ≠ subject ∨ K.relationId a ∉ relationIds

namespace KeepsakeResolver

variable {K : Keepsake} {σ E : Type} (r : KeepsakeResolver K σ E)

theorem calls_lookUp (tenant : K.TenantId) (time : OffsetDateTime) (lookup : SubjectLookup K)
    (w : σ) :
    (r.lookUp tenant time lookup w).calls =
      [.lookup tenant lookup.subject lookup.relationIds.toList
        (r.source tenant lookup.subject lookup.relationIds.toList w).1] := by
  unfold lookUp
  rw [Act.bind_call]
  obtain ⟨e, -, hrun⟩ | ⟨assignments, -, hrun⟩ := Act.check_cases
    (fun e => (ResolveError.backend (KeepsakeResolveError.source e) : Error K E))
    (r.source tenant lookup.subject lookup.relationIds.toList w).1
    (fun assignments => Act.check .backend (lookup.effective tenant time assignments))
    (r.source tenant lookup.subject lookup.relationIds.toList w).2
  · rw [hrun]
    rfl
  · rw [hrun]
    rfl

theorem refuses_lookUp (tenant : K.TenantId) (time : OffsetDateTime) (lookup : SubjectLookup K) :
    Refuses KeepsakeCall.Stray (r.lookUp tenant time lookup) := by
  rintro w ⟨call, hcall, hstray⟩
  rw [calls_lookUp, List.mem_singleton] at hcall
  subst hcall
  obtain ⟨assignments, hanswer, a, ha, hout⟩ := hstray
  cases hresult : (r.lookUp tenant time lookup w).result with
  | error e => exact ⟨e, rfl⟩
  | ok es =>
    obtain ⟨assignments', hanswer', haccepts, -⟩ := result_lookUp.mp hresult
    rw [hanswer] at hanswer'
    cases hanswer'
    obtain ⟨htenant, hsubject, hrelation⟩ := (haccepts a ha).1
    rw [Std.ExtTreeSet.mem_toList] at hout
    simp [htenant, hsubject, hrelation] at hout

theorem refuses_lookUpAll (tenant : K.TenantId) (time : OffsetDateTime)
    (groups : List (Option SubjectSlot × SubjectLookup K)) (active : EffectiveRelations) :
    Refuses KeepsakeCall.Stray (r.lookUpAll tenant time groups active) := by
  induction groups generalizing active with
  | nil => exact .pure active
  | cons g groups ih => exact .bind (r.refuses_lookUp tenant time g.2) fun es => ih _

theorem refuses_resolveForDecision (required : List FactId) (cx : Context)
    (clock : σ → OffsetDateTime × σ) :
    Refuses KeepsakeCall.Stray (r.resolveForDecision required cx clock) := by
  refine .bind (.call fun _ => id) fun observedAt => ?_
  refine .bind (.check _ _) fun bindings => ?_
  refine .bind (.bind (.check _ _) fun grouped => .bind (.check _ _) fun tenant =>
    r.refuses_lookUpAll tenant observedAt _ _) fun active => ?_
  exact .bind (.check _ _) fun facts => .bind (.check _ _) fun metadata => .check _ _

/-! ## Grouped and scoped -/

variable {r}

theorem presence_of_run {held : K.ActiveRelation → Prop} (hdated : K.Dated) (hexact : r.Exact held)
    (hone : Keepsake.AtMostOne held) {required : List FactId} {cx : Context}
    {clock : σ → OffsetDateTime × σ} {w : σ} {resolution : FactResolution KnownFacts}
    (h : (r.resolveForDecision required cx clock w).result = .ok resolution) {fact : FactId}
    (hfact : fact ∈ required) :
    ∃ target, r.targetForFact fact cx = .ok target ∧
      ∀ snapshot : K.RelationSnapshot, snapshot.tenantId = target.tenantId →
        snapshot.subject = target.subject → snapshot.relationId = target.relationId →
        snapshot.Shows held →
        target.effectivePresence (K.authoritative (clock w).1) snapshot none =
          .ok (resolution.facts.presence fact) := by
  obtain ⟨bindings, active, hbindings, hactive, hentries⟩ := entries_resolveForDecision h
  obtain ⟨b, hb, rfl⟩ := exists_binding hbindings hfact
  obtain ⟨target, ht, hstates, hpresent⟩ := relationPresence_of_run hexact.follows hactive hb
  refine ⟨target, ?_, fun snapshot htenant hsubject hrelation hshows => ?_⟩
  · rw [targetForFact, (getElem?_of_mem hbindings hb).2]
    exact ht
  · rw [KnownFacts.presence, hentries, presence_fromBindings hbindings
      (fun b => active.relationPresence b.subjectSlot b.relationId) hb]
    exact KeepsakeRelationTarget.effectivePresence_eq hdated hone htenant hsubject hrelation hshows
      hstates active.relationPresence_ne_unknown hpresent

/-- Every fact has the presence its own scoped snapshot shows, and an answer with a stray in it
yields no facts. -/
theorem resolveForDecision_scoped (K : Keepsake) (hdated : K.Dated) (r : KeepsakeResolver K σ E)
    (required : List FactId) (cx : Context) (clock : σ → OffsetDateTime × σ) (w : σ) :
    (∀ held, r.Exact held → Keepsake.AtMostOne held → ∀ resolution,
      (r.resolveForDecision required cx clock w).result = .ok resolution →
      ∀ fact ∈ required, ∃ target, r.targetForFact fact cx = .ok target ∧
        ∀ snapshot : K.RelationSnapshot, snapshot.tenantId = target.tenantId →
          snapshot.subject = target.subject → snapshot.relationId = target.relationId →
          snapshot.Shows held →
          target.effectivePresence (K.authoritative (clock w).1) snapshot none =
            .ok (resolution.facts.presence fact)) ∧
      ((∃ call ∈ (r.resolveForDecision required cx clock w).calls, call.Stray) →
        ∃ e, (r.resolveForDecision required cx clock w).result = .error e) :=
  ⟨fun _ hexact hone _ h _ hfact => presence_of_run hdated hexact hone h hfact,
    r.refuses_resolveForDecision required cx clock w⟩

end KeepsakeResolver

namespace Sample

theorem keepsake_dated : keepsake.Dated := fun time => ⟨time, rfl⟩

theorem mem_storedFor {stored : List Assignment} {tenant : String} {subject : String × String}
    {relationIds : List RelationId} {a : Assignment} :
    a ∈ storedFor stored tenant subject relationIds ↔
      a ∈ stored ∧ a.tenant = tenant ∧ a.subject = subject ∧ a.relation ∈ relationIds := by
  simp [storedFor]

theorem ownersAndMembers_exact : ownersAndMembers.Exact (· = owns) := by
  intro tenant subject relationIds w assignments h a
  cases h
  exact mem_storedFor.trans (and_congr_left fun _ => List.mem_singleton)

theorem atMostOne_owns : Keepsake.AtMostOne (K := keepsake) (· = owns) := by
  intro a b ha hb _ _ _
  rw [ha, hb]

end Sample

open Sample in
theorem resolveForDecision_scoped_owner :
    ∃ resolution, (ownersAndMembers.resolveForDecision [owner, member] request (clockAt noon)
        ()).result = .ok resolution ∧
      ∀ fact ∈ [owner, member], ∃ target, ownersAndMembers.targetForFact fact request = .ok target ∧
        ∀ snapshot : keepsake.RelationSnapshot, snapshot.tenantId = target.tenantId →
          snapshot.subject = target.subject → snapshot.relationId = target.relationId →
          snapshot.Shows (· = owns) →
          target.effectivePresence (some noon) snapshot none =
            .ok (resolution.facts.presence fact) := by
  have hok : (ownersAndMembers.resolveForDecision [owner, member] request (clockAt noon)
      ()).result.toOption.isSome = true := by decide +kernel
  obtain ⟨resolution, h⟩ := Option.isSome_iff_exists.mp hok
  have h := Result.toOption_eq_some.mp h
  exact ⟨resolution, h, (KeepsakeResolver.resolveForDecision_scoped keepsake keepsake_dated
    ownersAndMembers [owner, member] request (clockAt noon) ()).1 _ ownersAndMembers_exact
      atMostOne_owns resolution h⟩

end Gatekeep
