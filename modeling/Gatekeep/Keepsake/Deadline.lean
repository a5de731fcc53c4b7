import Gatekeep.Keepsake.Lookup

/-!
# Gatekeep.Keepsake.Deadline

How long resolved facts describe their source. The deadline reported with them is the first
deadline among the assignments in effect, so until then none of these ends; the others have ended
already. Hence resolving again before the deadline, against a source that has not changed, finds
the same assignments in effect (`lookUpAll_later`) and returns the same facts.

`Keepsake.Timely` is what this needs to know about `keepsake`. Three comparisons meet here: an
assignment is in effect strictly before its deadline, a deadline must not be before the
observation, and facts are used strictly before it. `Covers` is the one in which they are stated.
-/

namespace Gatekeep

open Traced

/-! ## Assignments over time -/

namespace Keepsake

variable {K : Keepsake}

/-- An assignment without a fulfillment policy is applied until its deadline. Without evidence, one
with such a policy is never reported as applied, and stays over once it is reported as over. -/
structure Timely (K : Keepsake) : Prop where
  applied_iff : ∀ a, K.hasFulfillmentPolicy a = false → ∀ time, ∃ state,
    K.stateAt time a = .ok state ∧
      (state = K.applied ↔ ∀ deadline, K.expiresAt a = some deadline → time < deadline)
  unfulfilled : ∀ a, K.hasFulfillmentPolicy a = true → ∀ time state, K.stateAt time a = .ok state →
    ∀ later, time ≤ later → ∃ state', K.stateAt later a = .ok state' ∧ state' ≠ K.applied

variable {a : K.ActiveRelation} {time later : OffsetDateTime}

/-- What is in effect has not reached its deadline. -/
theorem Timely.lt_deadline (hK : K.Timely) (h : K.isApplied time a = true) :
    ∀ deadline, K.expiresAt a = some deadline → time < deadline := by
  cases hpolicy : K.hasFulfillmentPolicy a with
  | false =>
    obtain ⟨state, hstate, hiff⟩ := hK.applied_iff a hpolicy time
    rw [isApplied_of_ok hstate] at h
    exact hiff.mp (of_decide_eq_true h)
  | true =>
    unfold isApplied at h
    split at h
    · rename_i state hstate
      obtain ⟨state', hstate', hne⟩ := hK.unfulfilled a hpolicy time state hstate time (le_refl time)
      rw [hstate] at hstate'
      cases hstate'
      exact absurd (of_decide_eq_true h) hne
    · cases h

/-- Before its deadline, what is in effect stays in effect; what is not never is again. -/
theorem Timely.isApplied_later (hK : K.Timely) {state : K.LifecycleState}
    (hstate : K.stateAt time a = .ok state) (hle : time ≤ later)
    (hfresh : K.isApplied time a = true →
      ∀ deadline, K.expiresAt a = some deadline → later < deadline) :
    (∃ state', K.stateAt later a = .ok state') ∧ K.isApplied later a = K.isApplied time a := by
  cases hpolicy : K.hasFulfillmentPolicy a with
  | false =>
    obtain ⟨state₁, hstate₁, hiff₁⟩ := hK.applied_iff a hpolicy time
    obtain ⟨state₂, hstate₂, hiff₂⟩ := hK.applied_iff a hpolicy later
    refine ⟨⟨state₂, hstate₂⟩, ?_⟩
    rw [isApplied_of_ok hstate₁] at hfresh ⊢
    rw [isApplied_of_ok hstate₂, decide_eq_decide]
    constructor
    · intro happlied
      exact hiff₁.mpr fun deadline hd => lt_of_le_of_lt hle (hiff₂.mp happlied deadline hd)
    · intro happlied
      exact hiff₂.mpr (hfresh (decide_eq_true happlied))
  | true =>
    obtain ⟨state', hstate', hne'⟩ := hK.unfulfilled a hpolicy time state hstate later hle
    have hnot : K.isApplied time a = false := by
      obtain ⟨state₁, hstate₁, hne⟩ :=
        hK.unfulfilled a hpolicy time state hstate time (le_refl time)
      rw [isApplied_of_ok hstate₁]
      exact decide_eq_false hne
    refine ⟨⟨state', hstate'⟩, ?_⟩
    rw [hnot, isApplied_of_ok hstate']
    exact decide_eq_false hne'

end Keepsake

theorem SubjectLookup.Accepts.later {K : Keepsake} (hK : K.Timely) {lookup : SubjectLookup K}
    {tenant : K.TenantId} {time later : OffsetDateTime} {assignments : List K.ActiveRelation}
    (h : lookup.Accepts tenant time assignments) (hle : time ≤ later)
    (hfresh : ∀ a ∈ assignments.filter (K.isApplied time),
      ∀ deadline, K.expiresAt a = some deadline → later < deadline) :
    lookup.Accepts tenant later assignments ∧
      assignments.filter (K.isApplied later) = assignments.filter (K.isApplied time) := by
  have hlater : ∀ a ∈ assignments, (∃ state', K.stateAt later a = .ok state') ∧
      K.isApplied later a = K.isApplied time a := by
    intro a ha
    obtain ⟨-, state, hstate⟩ := h a ha
    exact hK.isApplied_later hstate hle fun happlied => hfresh a (List.mem_filter.mpr ⟨ha, happlied⟩)
  exact ⟨fun a ha => ⟨(h a ha).1, (hlater a ha).1⟩, List.filter_congr fun a ha => (hlater a ha).2⟩

/-! ## The first deadline -/

namespace EffectiveRelations

variable {K : Keepsake} {active : EffectiveRelations} {slot : Option SubjectSlot}
  {time : OffsetDateTime}

/-- No deadline has been reached. -/
def Covers (active : EffectiveRelations) (time : OffsetDateTime) : Prop :=
  ∀ deadline, active.expiresAt = some deadline → time < deadline

theorem covers_empty : empty.Covers time := fun _ h => nomatch h

theorem covers_insert {a : K.ActiveRelation} :
    (active.insert slot a).Covers time ↔
      active.Covers time ∧ ∀ deadline, K.expiresAt a = some deadline → time < deadline := by
  unfold Covers insert
  cases K.expiresAt a with
  | none => simp
  | some deadline =>
    cases active.expiresAt with
    | none => simp
    | some current => simp [OffsetDateTime.lt_min]

theorem covers_insertAll {assignments : List K.ActiveRelation} :
    (assignments.foldl (·.insert slot ·) active).Covers time ↔
      active.Covers time ∧
        ∀ a ∈ assignments, ∀ deadline, K.expiresAt a = some deadline → time < deadline := by
  induction assignments generalizing active with
  | nil => simp
  | cons a as ih => rw [List.foldl_cons, ih, covers_insert, List.forall_mem_cons, and_assoc]

/-- The provenance is always accepted. -/
theorem metadata_eq_ok (active : EffectiveRelations) :
    ∃ metadata, active.metadata = .ok metadata ∧ metadata.freshUntil = active.expiresAt := by
  have hvalid : provenanceValid "keepsake.effective-snapshot" = true := by decide
  refine ⟨⟨⟨_, hvalid⟩, none, active.expiresAt⟩, ?_, rfl⟩
  unfold metadata BindingProvenance.new
  rw [dif_pos hvalid]
  rfl

/-- Facts with this deadline may be returned at a time it covers. -/
theorem Covers.new_eq_ok {F : Type} (h : active.Covers time) {metadata : FactResolutionMetadata}
    (hm : metadata.freshUntil = active.expiresAt) (facts : F) :
    ∃ resolution, FactResolution.new facts (some metadata) time = .ok resolution ∧
      resolution.facts = facts := by
  have hwindow : freshnessWindow (metadataFreshUntil (some metadata)) time = .ok () := by
    rw [freshnessWindow_eq_ok]
    intro deadline hd
    exact le_of_lt (h deadline (hm ▸ hd))
  unfold FactResolution.new
  split
  · rename_i e he
    rw [hwindow] at he
    cases he
  · exact ⟨_, rfl, rfl⟩

end EffectiveRelations

/-! ## Looking up again -/

namespace KeepsakeResolver

variable {K : Keepsake} {σ E : Type} {r : KeepsakeResolver K σ E} {cx : Context}
  {tenant : K.TenantId} {time later : OffsetDateTime}

/-- The source gives the same answer every time. -/
def Unchanging (r : KeepsakeResolver K σ E) : Prop :=
  ∀ tenant subject relationIds w w', (r.source tenant subject relationIds w).1 =
    (r.source tenant subject relationIds w').1

theorem covers_lookUpAll (hK : K.Timely)
    {groups : List (Option SubjectSlot × SubjectLookup K)} {active active' : EffectiveRelations}
    {w : σ} (h : (r.lookUpAll tenant time groups active w).result = .ok active')
    (hcovers : active.Covers time) : active'.Covers time := by
  induction groups generalizing active w with
  | nil =>
    cases h
    exact hcovers
  | cons g groups ih =>
    rw [lookUpAll] at h
    obtain ⟨es, hes, h⟩ := Act.result_bind.mp h
    obtain ⟨assignments, -, -, rfl⟩ := result_lookUp.mp hes
    refine ih h (EffectiveRelations.covers_insertAll.mpr ⟨hcovers, fun a ha => ?_⟩)
    exact hK.lt_deadline (List.mem_filter.mp ha).2

/-- Before the first deadline the loop finds the same again. -/
theorem lookUpAll_later (hK : K.Timely) (hsource : r.Unchanging) (hle : time ≤ later)
    {groups : List (Option SubjectSlot × SubjectLookup K)} {active active' : EffectiveRelations}
    {w : σ} (h : (r.lookUpAll tenant time groups active w).result = .ok active')
    (hcovers : active'.Covers later) (w' : σ) :
    (r.lookUpAll tenant later groups active w').result = .ok active' ∧ active.Covers later := by
  induction groups generalizing active w w' with
  | nil =>
    cases h
    exact ⟨rfl, hcovers⟩
  | cons g groups ih =>
    rw [lookUpAll] at h ⊢
    obtain ⟨es, hes, h⟩ := Act.result_bind.mp h
    obtain ⟨assignments, hanswer, haccepts, rfl⟩ := result_lookUp.mp hes
    -- the deadlines of this group are among those covered at the end
    have hinserted := (ih h (r.lookUp tenant later g.2 w').world).2
    obtain ⟨hbefore, hfresh⟩ := EffectiveRelations.covers_insertAll.mp hinserted
    obtain ⟨haccepts', hsame⟩ := haccepts.later hK hle hfresh
    have hanswer' : (r.source tenant g.2.subject g.2.relationIds.toList w').1 = .ok assignments :=
      (hsource _ _ _ w' w).trans hanswer
    have hrun : (r.lookUp tenant later g.2 w').result =
        .ok (assignments.filter (K.isApplied time)) :=
      result_lookUp.mpr ⟨assignments, hanswer', haccepts', hsame.symm⟩
    exact ⟨Act.result_bind.mpr ⟨_, hrun, (ih h _).1⟩, hbefore⟩

/-- A way to find relations in effect that reports a deadline covering the time, and finds the same
again until then. -/
structure Steady (find : OffsetDateTime → Run K σ E EffectiveRelations) : Prop where
  covers : ∀ {time w active}, (find time w).result = .ok active → active.Covers time
  again : ∀ {time w active later}, (find time w).result = .ok active → time ≤ later →
    active.Covers later → ∀ w', (find later w').result = .ok active

theorem steady_empty : Steady fun _ => (pure .empty : Run K σ E EffectiveRelations) where
  covers h := by
    cases h
    exact EffectiveRelations.covers_empty
  again h _ _ _ := by
    cases h
    rfl

theorem steady_activeRelationIdsBySubject (hK : K.Timely) (hsource : r.Unchanging) (cx : Context)
    (bindings : List FactBinding) : Steady (r.activeRelationIdsBySubject cx bindings) where
  covers h := by
    unfold activeRelationIdsBySubject at h
    obtain ⟨grouped, -, h⟩ := Act.result_bind_check.mp h
    obtain ⟨tenant, -, h⟩ := Act.result_bind_check.mp h
    exact covers_lookUpAll hK h EffectiveRelations.covers_empty
  again h hle hcovers w' := by
    unfold activeRelationIdsBySubject at h ⊢
    obtain ⟨grouped, hgroup, h⟩ := Act.result_bind_check.mp h
    obtain ⟨tenant, htenant, h⟩ := Act.result_bind_check.mp h
    refine Act.result_bind_check.mpr ⟨grouped, hgroup, ?_⟩
    refine Act.result_bind_check.mpr ⟨tenant, htenant, ?_⟩
    exact (lookUpAll_later hK hsource hle h hcovers w').1

theorem steady_queryRelations (hK : K.Timely) (hsource : r.Unchanging) (cx : Context)
    (bindings : List FactBinding) : Steady (r.queryRelations cx bindings) := by
  unfold queryRelations
  split
  · exact steady_activeRelationIdsBySubject hK hsource cx _
  · exact steady_empty

/-! ## No error of the window -/

theorem bindingsFor_error {required : List FactId} {e : Error K E}
    (h : r.bindingsFor required = .error e) : ∃ fact, e = .missingFact fact := by
  induction required with
  | nil => cases h
  | cons fact facts ih =>
    rw [bindingsFor] at h
    split at h
    · cases h
      exact ⟨fact, rfl⟩
    · cases hfacts : (r.bindingsFor facts : Except (Error K E) _) with
      | error e' =>
        rw [hfacts] at h
        cases h
        exact ih hfacts
      | ok bs =>
        rw [hfacts] at h
        cases h

theorem group_error {bindings : List FactBinding} {grouped : Grouped K} {e : Error K E}
    (h : r.group cx bindings grouped = .error e) :
    ∃ te : KeepsakeTargetError K, e = te.toResolveError := by
  induction bindings generalizing grouped with
  | nil => cases h
  | cons b bs ih =>
    rw [group] at h
    cases ht : r.targetForBinding b cx with
    | error te =>
      rw [ht] at h
      cases h
      exact ⟨te, rfl⟩
    | ok target =>
      rw [ht] at h
      exact ih h

theorem lookUpAll_error {groups : List (Option SubjectSlot × SubjectLookup K)}
    {active : EffectiveRelations} {w : σ} {e : Error K E}
    (h : (r.lookUpAll tenant time groups active w).result = .error e) : ∃ be, e = .backend be := by
  induction groups generalizing active w with
  | nil => cases h
  | cons g groups ih =>
    rw [lookUpAll] at h
    rcases Act.result_bind_error.mp h with h | ⟨es, -, h⟩
    · unfold lookUp at h
      rw [Act.bind_call] at h
      rcases Act.result_bind_check_error.mp h with ⟨e', -, rfl⟩ | ⟨assignments, -, h⟩
      · exact ⟨_, rfl⟩
      · obtain ⟨e', -, rfl⟩ := Act.result_check_error.mp h
        exact ⟨e', rfl⟩
    · exact ih h

theorem activeRelationIdsBySubject_error {bindings : List FactBinding} {w : σ}
    {e : FactResolutionError} :
    (r.activeRelationIdsBySubject cx bindings time w).result ≠ .error (.resolution e) := by
  intro h
  unfold activeRelationIdsBySubject at h
  rcases Act.result_bind_check_error.mp h with ⟨e', hgroup, he⟩ | ⟨grouped, -, h⟩
  · obtain ⟨te, rfl⟩ := group_error hgroup
    cases te <;> cases he
  · rcases Act.result_bind_check_error.mp h with ⟨e', -, he⟩ | ⟨tenant, -, h⟩
    · cases he
    · obtain ⟨be, he⟩ := lookUpAll_error h
      cases he

theorem queryRelations_error {bindings : List FactBinding} {w : σ} {e : FactResolutionError} :
    (r.queryRelations cx bindings time w).result ≠ .error (.resolution e) := by
  unfold queryRelations
  split
  · exact activeRelationIdsBySubject_error
  · intro h
    cases h

/-! ## Resolving again -/

theorem conclude_of_covers {F : Type} {active : EffectiveRelations} (h : active.Covers time)
    (facts : F) (w : σ) :
    ∃ resolution, (conclude facts active time w : Ran σ (KeepsakeCall K E) _).result =
      .ok resolution ∧ resolution.facts = facts := by
  obtain ⟨metadata, hmetadata, hfresh⟩ := active.metadata_eq_ok
  obtain ⟨resolution, hnew, hfacts⟩ := h.new_eq_ok hfresh facts
  refine ⟨resolution, ?_, hfacts⟩
  exact Act.result_bind_check.mpr ⟨metadata, hmetadata, Act.result_check.mpr hnew⟩

/-- What is resolved before its deadline stays true of the source until then: no deadline is before
its observation, and resolving again at any time before the deadline, in particular at any time at
which the result still validates, gives the same presences. -/
structure Covered {F : Type} (presence : F → FactId → Presence)
    (resolve : (σ → OffsetDateTime × σ) → Run K σ E (FactResolution F)) : Prop where
  window : ∀ clock w observedAt freshUntil, (resolve clock w).result ≠
    .error (.resolution (.invalidFreshnessWindow observedAt freshUntil))
  again : ∀ clock w resolution, (resolve clock w).result = .ok resolution → ∀ clock' w',
    (clock w).1 ≤ (clock' w').1 →
    (∀ deadline, metadataFreshUntil resolution.metadata = some deadline →
      (clock' w').1 < deadline) →
    ∃ later, (resolve clock' w').result = .ok later ∧
      ∀ fact, presence later.facts fact = presence resolution.facts fact
  validated : ∀ clock w resolution, (resolve clock w).result = .ok resolution → ∀ clock' w',
    resolution.validateAt (clock' w').1 = .ok () →
    ∃ later, (resolve clock' w').result = .ok later ∧
      ∀ fact, presence later.facts fact = presence resolution.facts fact

section ResolveWith

variable {F : Type} {find : List FactBinding → OffsetDateTime → Run K σ E EffectiveRelations}
  {build : List FactBinding → EffectiveRelations → Except (Error K E) F} {required : List FactId}

theorem resolveWith_window (hsteady : ∀ bindings, Steady (find bindings))
    (hfind : ∀ bindings time w e, (find bindings time w).result ≠ .error (.resolution e))
    (hbuild : ∀ bindings active e, build bindings active ≠ .error (.resolution e))
    (clock : σ → OffsetDateTime × σ) (w : σ) (e : FactResolutionError) :
    (r.resolveWith find build required clock w).result ≠ .error (.resolution e) := by
  intro h
  unfold resolveWith at h
  rw [Act.bind_call] at h
  rcases Act.result_bind_check_error.mp h with ⟨e', hbindings, he⟩ | ⟨bindings, -, h⟩
  · obtain ⟨fact, rfl⟩ := bindingsFor_error hbindings
    cases he
  rcases Act.result_bind_error.mp h with h | ⟨active, hactive, h⟩
  · exact hfind _ _ _ _ h
  rcases Act.result_bind_check_error.mp h with ⟨e', hfacts, rfl⟩ | ⟨facts, -, h⟩
  · exact hbuild _ _ _ hfacts
  -- the deadline covers the observation, so the last check passes
  obtain ⟨resolution, hok, -⟩ := conclude_of_covers (K := K) (E := E)
    ((hsteady bindings).covers hactive) facts (find bindings (clock w).1 (clock w).2).world
  rw [hok] at h
  cases h

theorem resolveWith_again (hsteady : ∀ bindings, Steady (find bindings))
    {clock clock' : σ → OffsetDateTime × σ} {w w' : σ} {resolution : FactResolution F}
    (h : (r.resolveWith find build required clock w).result = .ok resolution)
    (hle : (clock w).1 ≤ (clock' w').1)
    (hfresh : ∀ deadline, metadataFreshUntil resolution.metadata = some deadline →
      (clock' w').1 < deadline) :
    ∃ later, (r.resolveWith find build required clock' w').result = .ok later ∧
      later.facts = resolution.facts := by
  obtain ⟨bindings, active, hbindings, hactive, hfacts, hmetadata, -⟩ := resolveWith_eq_ok h
  rw [hmetadata] at hfresh
  have hactive' := (hsteady bindings).again hactive hle hfresh (clock' w').2
  obtain ⟨later, hlater, hsame⟩ := conclude_of_covers (K := K) (E := E) hfresh resolution.facts
    (find bindings (clock' w').1 (clock' w').2).world
  refine ⟨later, ?_, hsame⟩
  unfold resolveWith
  rw [Act.bind_call]
  refine Act.result_bind_check.mpr ⟨bindings, hbindings, ?_⟩
  refine Act.result_bind.mpr ⟨active, hactive', ?_⟩
  exact Act.result_bind_check.mpr ⟨resolution.facts, hfacts, hlater⟩

theorem covered_resolveWith (hsteady : ∀ bindings, Steady (find bindings))
    (hfind : ∀ bindings time w e, (find bindings time w).result ≠ .error (.resolution e))
    (hbuild : ∀ bindings active e, build bindings active ≠ .error (.resolution e))
    (presence : F → FactId → Presence) :
    Covered presence (r.resolveWith find build required) where
  window clock w observedAt freshUntil := resolveWith_window hsteady hfind hbuild clock w _
  again clock w resolution h clock' w' hle hfresh := by
    obtain ⟨later, hlater, hfacts⟩ := resolveWith_again hsteady h hle hfresh
    exact ⟨later, hlater, fun fact => by rw [hfacts]⟩
  validated clock w resolution h clock' w' hvalid := by
    obtain ⟨hpast, hfresh⟩ := freshAt_eq_ok.mp (FactResolution.validateAt_eq_ok.mp hvalid).2
    obtain ⟨-, -, -, -, -, -, hobserved, -⟩ := resolveWith_eq_ok h
    rw [hobserved] at hpast
    obtain ⟨later, hlater, hfacts⟩ := resolveWith_again hsteady h hpast hfresh
    exact ⟨later, hlater, fun fact => by rw [hfacts]⟩

end ResolveWith

theorem covered_resolveForDecision (hK : K.Timely) (hsource : r.Unchanging) (required : List FactId)
    (cx : Context) : Covered KnownFacts.presence (r.resolveForDecision required cx) := by
  rw [resolveForDecision_eq]
  refine covered_resolveWith (steady_activeRelationIdsBySubject hK hsource cx)
    (fun _ _ _ _ => activeRelationIdsBySubject_error) (fun bindings active e h => ?_) _
  obtain ⟨known, hknown, -⟩ := decisionFacts_eq_ok (K := K) (E := E) bindings active
  rw [hknown] at h
  cases h

theorem covered_resolveForQuery (hK : K.Timely) (hsource : r.Unchanging) (required : List FactId)
    (cx : Context) : Covered PartialFacts.presence (r.resolveForQuery required cx) := by
  rw [resolveForQuery_eq]
  exact covered_resolveWith (steady_queryRelations hK hsource cx)
    (fun _ _ _ _ => queryRelations_error) (fun _ _ _ h => by cases h) _

/-- The reported deadline covers the facts, in a decision and in a query. -/
theorem freshUntil_covers (K : Keepsake) (hK : K.Timely) (r : KeepsakeResolver K σ E)
    (hsource : r.Unchanging) (required : List FactId) (cx : Context) :
    Covered KnownFacts.presence (r.resolveForDecision required cx) ∧
      Covered PartialFacts.presence (r.resolveForQuery required cx) :=
  ⟨covered_resolveForDecision hK hsource required cx, covered_resolveForQuery hK hsource required cx⟩

end KeepsakeResolver

namespace Sample

theorem keepsake_timely : keepsake.Timely where
  applied_iff a _ time := by
    obtain ⟨tenant, subject, relation, expiresAt⟩ := a
    cases expiresAt with
    | none => exact ⟨.applied, rfl, fun _ _ h => (nomatch h), fun _ => rfl⟩
    | some deadline =>
      by_cases hlt : time < deadline
      · refine ⟨.applied, congrArg Except.ok (if_pos hlt), ?_⟩
        exact ⟨fun _ d hd => Option.some.inj hd ▸ hlt, fun _ => rfl⟩
      · refine ⟨.expired, congrArg Except.ok (if_neg hlt), ?_⟩
        exact ⟨fun h => (nomatch h), fun h => absurd (h deadline rfl) hlt⟩
  unfulfilled _ h := nomatch h

theorem ownersAndMembers_unchanging : ownersAndMembers.Unchanging := fun _ _ _ _ _ => rfl

end Sample

open Sample in
theorem freshUntil_covers_owner :
    ((ownersAndMembers.resolveForDecision [owner, member] request (clockAt noon)
        ()).result.toOption.map fun resolution =>
      (resolution.facts.presence owner, metadataFreshUntil resolution.metadata)) =
        some (.present, some one) ∧
      KeepsakeResolver.Covered KnownFacts.presence
        (ownersAndMembers.resolveForDecision [owner, member] request) ∧
      KeepsakeResolver.Covered PartialFacts.presence
        (ownersAndMembers.resolveForQuery [owner, member] request) :=
  ⟨by decide +kernel, KeepsakeResolver.freshUntil_covers keepsake keepsake_timely ownersAndMembers
    ownersAndMembers_unchanging [owner, member] request⟩

end Gatekeep
