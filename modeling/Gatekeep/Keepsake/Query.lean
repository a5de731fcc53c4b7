import Gatekeep.Completion
import Gatekeep.Keepsake.Lookup

/-!
# Gatekeep.Keepsake.Query

The facts of a query are a part of the facts of a decision.

A query leaves the deferred bindings out before it groups, so its lookups are not those of a
decision: a group may ask for fewer relations or be missing. What is found for one binding depends
on the binding alone (`relationPresence_of_run`), so both agree on the bindings that a query resolves.
With the deferred facts unknown, a policy reduced in the query and completed at the decision has the
effect of a decision (`resolveForQuery_refines`). The source is asked for no other subject than
those of the bindings that are resolved (`only_resolveForQuery`).
-/

namespace Gatekeep

open Traced

/-- The call is no lookup, or looks up the subject of a binding `asked` for, and of it only relations
`asked` for under the same slot. -/
def KeepsakeCall.For {K : Keepsake} {σ E : Type} (r : KeepsakeResolver K σ E) (cx : Context)
    (asked : FactBinding → Prop) : KeepsakeCall K E → Prop
  | .now _ => True
  | .lookup tenantId subject relationIds _ =>
    ∃ b target, asked b ∧ r.targetForBinding b cx = .ok target ∧ target.tenantId = tenantId ∧
      target.subject = subject ∧ ∀ relation ∈ relationIds, ∃ b', asked b' ∧
        b'.subjectSlot = b.subjectSlot ∧ b'.relationId = relation

theorem KeepsakeCall.For.mono {K : Keepsake} {σ E : Type} {r : KeepsakeResolver K σ E}
    {cx : Context} {asked asked' : FactBinding → Prop} (h : ∀ b, asked b → asked' b)
    {call : KeepsakeCall K E} (hcall : call.For r cx asked) : call.For r cx asked' := by
  cases call with
  | now time => trivial
  | lookup tenantId subject relationIds answer =>
    obtain ⟨b, target, hb, ht, htenant, hsubject, hrelations⟩ := hcall
    refine ⟨b, target, h b hb, ht, htenant, hsubject, fun relation hrelation => ?_⟩
    obtain ⟨b', hb', hslot, heq⟩ := hrelations relation hrelation
    exact ⟨b', h b' hb', hslot, heq⟩

namespace KeepsakeResolver

variable {K : Keepsake} {σ E : Type} {r : KeepsakeResolver K σ E} {cx : Context}

/-! ## What is asked for -/

/-- There is no group without a binding. -/
theorem exists_of_group {bindings : List FactBinding} {grouped grouped' : Grouped K}
    (h : r.group cx bindings grouped = .ok grouped') {slot : Option SubjectSlot}
    (hslot : slot ∈ grouped') : slot ∈ grouped ∨ ∃ b ∈ bindings, b.subjectSlot = slot := by
  induction bindings generalizing grouped with
  | nil =>
    cases h
    exact .inl hslot
  | cons b bs ih =>
    rw [group] at h
    obtain ⟨target, ht, h⟩ := Result.bind_eq_ok.mp h
    obtain ⟨-, -, -, -, htarget⟩ := targetForBinding_eq_ok.mp (Result.mapError_eq_ok.mp ht)
    rcases ih h with hentered | ⟨b', hb', heq⟩
    · rw [← Std.ExtTreeMap.isSome_getElem?_iff_mem, getElem?_enter] at hentered
      split at hentered
      · rename_i heq
        exact .inr ⟨b, List.mem_cons_self, htarget.symm.trans heq⟩
      · exact .inl (Std.ExtTreeMap.isSome_getElem?_iff_mem.mp hentered)
    · exact .inr ⟨b', List.mem_cons_of_mem _ hb', heq⟩

theorem only_lookUp {good : KeepsakeCall K E → Prop} {tenant : K.TenantId} {time : OffsetDateTime}
    {lookup : SubjectLookup K}
    (h : ∀ answer, good (.lookup tenant lookup.subject lookup.relationIds.toList answer)) :
    Only good (r.lookUp tenant time lookup) := by
  intro w c hc
  rw [calls_lookUp, List.mem_singleton] at hc
  rw [hc]
  exact h _

theorem only_lookUpAll {good : KeepsakeCall K E → Prop} {tenant : K.TenantId}
    {time : OffsetDateTime} {groups : List (Option SubjectSlot × SubjectLookup K)}
    (h : ∀ g ∈ groups, ∀ answer,
      good (.lookup tenant g.2.subject g.2.relationIds.toList answer))
    (active : EffectiveRelations) : Only good (r.lookUpAll tenant time groups active) := by
  induction groups generalizing active with
  | nil => exact .pure active
  | cons g groups ih =>
    obtain ⟨hg, hgroups⟩ := List.forall_mem_cons.mp h
    exact .bind (only_lookUp hg) fun es => ih hgroups _

/-- The grouped lookup asks for its bindings and nothing else. -/
theorem only_activeRelationIdsBySubject (bindings : List FactBinding) (time : OffsetDateTime) :
    Only (KeepsakeCall.For r cx (· ∈ bindings)) (r.activeRelationIdsBySubject cx bindings time) := by
  refine .bind_check fun grouped hgroup => .bind_check fun tenant htenant => ?_
  obtain ⟨hgroups, htargets⟩ := groups_group Groups.empty hgroup
  rw [List.nil_append] at hgroups
  refine only_lookUpAll (fun g hg answer => ?_) _
  obtain ⟨slot, lookup⟩ := g
  have hlookup := Std.ExtTreeMap.mem_toList_iff_getElem?_eq_some.mp hg
  have hmem : slot ∈ grouped := by
    rw [← Std.ExtTreeMap.isSome_getElem?_iff_mem, hlookup]
    rfl
  -- the group was opened by a binding, and this binding has the group's subject
  obtain ⟨b, hb, rfl⟩ := (exists_of_group hgroup hmem).resolve_left (by simp)
  obtain ⟨target, ht⟩ := htargets b hb
  obtain ⟨htenant', hsubject, -, -, -⟩ := targetForBinding_eq_ok.mp ht
  refine ⟨b, target, hb, ht, ?_, ?_, fun relation hrelation => ?_⟩
  · rw [htenant] at htenant'
    exact (Except.ok.inj htenant').symm
  · rw [hgroups.subject _ _ hlookup] at hsubject
    exact (Option.some.inj hsubject).symm
  · exact (hgroups.requested _ _ hlookup relation).mp (Std.ExtTreeSet.mem_toList.mp hrelation)

/-- The binding is one of a required fact, resolved in queries. -/
def ResolvedInQuery (r : KeepsakeResolver K σ E) (required : List FactId) (b : FactBinding) : Prop :=
  b.fact ∈ required ∧ r.bindings[b.fact]? = some b ∧ b.queryPresence = .resolve

/-- A query contacts the source only for the bindings it resolves. -/
theorem only_resolveForQuery (required : List FactId) (clock : σ → OffsetDateTime × σ) :
    Only (KeepsakeCall.For r cx (r.ResolvedInQuery required))
      (r.resolveForQuery required cx clock) := by
  refine .bind (.call fun _ => trivial) fun observedAt => ?_
  refine .bind_check fun bindings hbindings => .bind ?_ fun active =>
    .bind (.check _ _) fun metadata => .check _ _
  unfold queryRelations
  split
  · refine (only_activeRelationIdsBySubject _ observedAt).mono fun call => .mono fun b hb => ?_
    obtain ⟨hmem, hresolve⟩ := List.mem_filter.mp hb
    obtain ⟨hfact, hbound⟩ := getElem?_of_mem hbindings hmem
    exact ⟨hfact, hbound, beq_iff_eq.mp hresolve⟩
  · exact .pure _

/-! ## What is found -/

/-- What a successful query found, and the facts it made of it. -/
theorem entries_resolveForQuery {required : List FactId} {clock : σ → OffsetDateTime × σ} {w : σ}
    {resolution : FactResolution PartialFacts}
    (h : (r.resolveForQuery required cx clock w).result = .ok resolution) :
    ∃ bindings active, r.bindingsFor required = (.ok bindings : Except (Error K E) _) ∧
      (r.queryRelations cx bindings (clock w).1 (clock w).2).result = .ok active ∧
      resolution.facts.entries = Facts.fromEntries (bindings.map fun b =>
        (b.fact, queryPresenceOf active b)) := by
  rw [resolveForQuery_eq] at h
  obtain ⟨bindings, active, hbindings, hactive, hfacts, -⟩ := resolveWith_eq_ok h
  refine ⟨bindings, active, hbindings, hactive, ?_⟩
  rw [← Except.ok.inj hfacts]
  rfl

variable {held : K.ActiveRelation → Prop} {time : OffsetDateTime}

/-- Two grouped lookups at one time agree on the bindings they share. -/
theorem relationPresence_agree (hfollows : r.Follows held) {bindings bindings' : List FactBinding}
    {active active' : EffectiveRelations} {w w' : σ}
    (h : (r.activeRelationIdsBySubject cx bindings time w).result = .ok active)
    (h' : (r.activeRelationIdsBySubject cx bindings' time w').result = .ok active')
    {b : FactBinding} (hb : b ∈ bindings) (hb' : b ∈ bindings') :
    active.relationPresence b.subjectSlot b.relationId =
      active'.relationPresence b.subjectSlot b.relationId := by
  obtain ⟨target, ht, -, hpresent⟩ := relationPresence_of_run hfollows h hb
  obtain ⟨target', ht', -, hpresent'⟩ := relationPresence_of_run hfollows h' hb'
  rw [ht] at ht'
  cases ht'
  rw [EffectiveRelations.relationPresence_eq_present] at hpresent hpresent'
  exact if_congr (hpresent.trans hpresent'.symm) rfl rfl

/-- A query shows a resolved binding as a decision at the same time does. -/
theorem queryPresenceOf_agree (hfollows : r.Follows held) {bindings : List FactBinding}
    {active active' : EffectiveRelations} {w w' : σ}
    (h : (r.queryRelations cx bindings time w).result = .ok active)
    (h' : (r.activeRelationIdsBySubject cx bindings time w').result = .ok active')
    {b : FactBinding} (hb : b ∈ bindings) (hresolve : b.queryPresence = .resolve) :
    queryPresenceOf active b = active'.relationPresence b.subjectSlot b.relationId := by
  have hasked : (bindings.any fun b => b.queryPresence == .resolve) = true :=
    List.any_eq_true.mpr ⟨b, hb, beq_iff_eq.mpr hresolve⟩
  rw [queryRelations, if_pos hasked] at h
  rw [queryPresenceOf, hresolve]
  exact relationPresence_agree hfollows h h'
    (List.mem_filter.mpr ⟨hb, beq_iff_eq.mpr hresolve⟩) hb

/-- The fact is asked for and left open in queries. -/
def Deferred (r : KeepsakeResolver K σ E) (required : List FactId) (fact : FactId) : Prop :=
  fact ∈ required ∧ ∃ b, r.bindings[fact]? = some b ∧ b.queryPresence = .defer

/-- A query and a decision at the same time, fact by fact. -/
theorem presence_agree (hfollows : r.Follows held) {required : List FactId}
    {clock clock' : σ → OffsetDateTime × σ} {w w' : σ} (htime : (clock w).1 = (clock' w').1)
    {query : FactResolution PartialFacts} {decision : FactResolution KnownFacts}
    (h : (r.resolveForQuery required cx clock w).result = .ok query)
    (h' : (r.resolveForDecision required cx clock' w').result = .ok decision) (fact : FactId) :
    (r.Deferred required fact ∧ query.facts.presence fact = .unknown) ∨
      (¬ r.Deferred required fact ∧ query.facts.presence fact = decision.facts.presence fact) := by
  obtain ⟨bindings, active, hbindings, hactive, hentries⟩ := entries_resolveForQuery h
  obtain ⟨bindings', active', hbindings', hactive', hentries'⟩ := entries_resolveForDecision h'
  rw [hbindings] at hbindings'
  cases hbindings'
  rw [htime] at hactive
  rw [PartialFacts.presence, KnownFacts.presence, hentries, hentries']
  by_cases hfact : fact ∈ required
  swap
  · refine .inr ⟨fun hdeferred => hfact hdeferred.1, ?_⟩
    rw [presence_fromBindings_of_not_mem hbindings (queryPresenceOf active) hfact]
    exact (presence_fromBindings_of_not_mem hbindings
      (fun b => active'.relationPresence b.subjectSlot b.relationId) hfact).symm
  obtain ⟨b, hb, rfl⟩ := exists_binding hbindings hfact
  have hbound := (getElem?_of_mem hbindings hb).2
  rw [presence_fromBindings hbindings (queryPresenceOf active) hb, presence_fromBindings hbindings
    (fun b => active'.relationPresence b.subjectSlot b.relationId) hb]
  cases hpresence : b.queryPresence with
  | defer =>
    refine .inl ⟨⟨hfact, b, hbound, hpresence⟩, ?_⟩
    rw [queryPresenceOf, hpresence]
  | resolve =>
    refine .inr ⟨?_, queryPresenceOf_agree hfollows hactive hactive' hb hpresence⟩
    rintro ⟨-, b', hb', hdefer⟩
    rw [hbound] at hb'
    cases hb'
    rw [hpresence] at hdefer
    cases hdefer

/-! ## A query and the decision after it -/

/-- The facts of a query are those of a decision at the same time with the deferred ones unknown. So
a policy reduced over the first and completed with the second has the effect of a decision. The
query looks up only what it resolves. -/
theorem resolveForQuery_refines (r : KeepsakeResolver K σ E) (required : List FactId)
    (cx : Context) :
    (∀ held, r.Follows held → ∀ (time : OffsetDateTime) (clock clock' : σ → OffsetDateTime × σ)
      (w w' : σ) (query : FactResolution PartialFacts) (decision : FactResolution KnownFacts),
      (clock w).1 = time → (clock' w').1 = time →
      (r.resolveForQuery required cx clock w).result = .ok query →
      (r.resolveForDecision required cx clock' w').result = .ok decision →
      (∀ fact, (query.facts.presence fact = .unknown ↔ r.Deferred required fact) ∧
        (¬ r.Deferred required fact →
          query.facts.presence fact = decision.facts.presence fact)) ∧
      ∀ (O : Type) [Lattice O] [DecidableEq O] [Lattice.Lawful O] (p : Policy O),
        (completeResidual (partialEvaluate p query.facts) decision.facts).effect =
          (evaluate p decision.facts).effect) ∧
      ∀ (clock : σ → OffsetDateTime × σ) (w : σ),
        ∀ call ∈ (r.resolveForQuery required cx clock w).calls,
          call.For r cx (r.ResolvedInQuery required) := by
  refine ⟨?_, fun clock w => only_resolveForQuery required clock w⟩
  intro held hfollows time clock clock' w w' query decision htime htime' hquery hdecision
  have hagree := presence_agree hfollows (htime.trans htime'.symm) hquery hdecision
  constructor
  · intro fact
    obtain ⟨hdeferred, hunknown⟩ | ⟨hresolved, heq⟩ := hagree fact
    · exact ⟨iff_of_true hunknown hdeferred, fun h => absurd hdeferred h⟩
    · refine ⟨iff_of_false ?_ hresolved, fun _ => heq⟩
      rw [heq]
      exact decision.facts.presence_ne_unknown fact
  · intro O _ _ _ p
    refine PartialFacts.CompletedBy.effect_eq (fun fact hknown => ?_) p
    obtain ⟨-, hunknown⟩ | ⟨-, heq⟩ := hagree fact
    · exact absurd hunknown hknown
    · exact heq.symm

end KeepsakeResolver

open Sample in
theorem resolveForQuery_refines_owner :
    ∃ query decision,
      (ownersAndMembers.resolveForQuery [owner, member] request (clockAt noon) ()).result =
        .ok query ∧
      (ownersAndMembers.resolveForDecision [owner, member] request (clockAt noon) ()).result =
        .ok decision ∧
      (query.facts.presence owner = .present ∧ query.facts.presence member = .unknown) ∧
      (∀ fact, (query.facts.presence fact = .unknown ↔
          ownersAndMembers.Deferred [owner, member] fact) ∧
        (¬ ownersAndMembers.Deferred [owner, member] fact →
          query.facts.presence fact = decision.facts.presence fact)) ∧
      (completeResidual (partialEvaluate ownerThenMember query.facts) decision.facts).effect =
        (evaluate ownerThenMember decision.facts).effect ∧
      ∀ call ∈ (ownersAndMembers.resolveForQuery [owner, member] request (clockAt noon) ()).calls,
        call.For ownersAndMembers request (ownersAndMembers.ResolvedInQuery [owner, member]) := by
  have hquery : ((ownersAndMembers.resolveForQuery [owner, member] request (clockAt noon)
      ()).result.toOption.map fun query =>
        (query.facts.presence owner, query.facts.presence member)) = some (.present, .unknown) := by
    decide +kernel
  have hdecision : (ownersAndMembers.resolveForDecision [owner, member] request (clockAt noon)
      ()).result.toOption.isSome = true := by decide +kernel
  obtain ⟨query, hquery, hpresence⟩ := Option.map_eq_some_iff.mp hquery
  obtain ⟨decision, hdecision⟩ := Option.isSome_iff_exists.mp hdecision
  have hquery := Result.toOption_eq_some.mp hquery
  have hdecision := Result.toOption_eq_some.mp hdecision
  obtain ⟨hboth, hcalls⟩ := KeepsakeResolver.resolveForQuery_refines ownersAndMembers
    [owner, member] request
  obtain ⟨hfacts, heffect⟩ := hboth _ ownersAndMembers_exact.follows noon (clockAt noon)
    (clockAt noon) () () query decision rfl rfl hquery hdecision
  exact ⟨query, decision, hquery, hdecision, Prod.mk.inj hpresence, hfacts, heffect Unit ownerThenMember,
    hcalls (clockAt noon) ()⟩

end Gatekeep
