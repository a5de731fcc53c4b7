import Gatekeep.Authorization.Boundary

/-!
# Gatekeep.Authorization.Freshness

Nothing stale or out of scope is recorded as a decision.

`Timely` is what holds at the clock reading at which an entry was assembled: the context is bound to
its tenant, its binding is in its window, and the facts and every selected observation are neither
from the future nor past their deadline. The clock is arbitrary and may run backwards, so the
reading is not compared with any other: what counts is where it stands among the calls. It follows
the resolution it judges, and in a batch it is the first call of its item, after everything the
items before it wrote.
-/

namespace Gatekeep

open Traced

variable {σ Resolver R A T O : Type}

/-- Observed by `r`, and not at or past its deadline there. -/
structure Window (observedAt : OffsetDateTime) (freshUntil : Option OffsetDateTime)
    (r : OffsetDateTime) : Prop where
  observed : observedAt ≤ r
  fresh : ∀ deadline, freshUntil = some deadline → r < deadline

theorem Window.of_freshAt {observedAt r : OffsetDateTime} {freshUntil : Option OffsetDateTime}
    (h : freshAt freshUntil observedAt r = .ok ()) : Window observedAt freshUntil r := by
  obtain ⟨hpast, hdeadline⟩ := freshAt_eq_ok.mp h
  exact ⟨hpast, hdeadline⟩

namespace Authorizer

section Timely

variable [Lattice O] [DecidableEq O] [Serialize O] (a : Authorizer σ Resolver A)

/-- `entry` was built from `resolution` for `cx`, and all of it was current and in scope at `r`. -/
structure Timely (policy : Policy O) (checked : Bool) (cx : Context)
    (resolution : FactResolution KnownFacts) (r : OffsetDateTime) (entry : AuditEntry) :
    Prop where
  built : ∃ anchor evidence occurrence,
    FactResolutionEvidence.fromResolution a.digest resolution = .ok evidence ∧
      AuditEntry.fromDecision occurrence anchor (evaluate policy resolution.facts) cx evidence =
        .ok entry
  tenant : cx.tenant = cx.binding.tenant
  binding : ∀ binding, cx.binding = .applicationVerified binding →
    binding.evidence.authenticatedAt ≤ r ∧ binding.validFrom ≤ r ∧ r < binding.validUntil
  facts : Window resolution.observedAt (metadataFreshUntil resolution.metadata) r
  observations : ∀ o ∈ resolution.observations,
    Window o.observedAt (metadataFreshUntil o.metadata) r
  explicit : checked = true → ∀ fact ∈ requiredFacts policy,
    (resolution.facts.observation fact).isSome

theorem timely_of_assembled {policy : Policy O} {anchor : PolicyAnchor} {checked : Bool}
    {required : Option (List FactId)} {cx : Context} {resolution : FactResolution KnownFacts}
    {r : OffsetDateTime} {pending : PendingDecision O}
    (hrequired : checked = true → required = some (requiredList policy))
    (h : a.Assembled policy anchor required cx resolution r pending) :
    a.Timely policy checked cx resolution r pending.entry := by
  obtain ⟨htenant, hbinding⟩ := Context.validateAt_eq_ok.mp h.contextValid
  obtain ⟨hobservations, hfacts⟩ := FactResolution.validateAt_eq_ok.mp h.resolutionValid
  obtain ⟨evidence, occurrence, hevidence, -, hentry⟩ := h.built
  refine ⟨⟨anchor, evidence, occurrence, hevidence, h.decision ▸ hentry⟩, htenant, ?_,
    .of_freshAt hfacts, fun o ho => .of_freshAt (hobservations o ho), ?_⟩
  · intro binding hverified
    rw [hverified] at hbinding
    exact ApplicationVerifiedTenantBinding.validateAt_eq_ok.mp hbinding
  · intro hchecked fact hfact
    refine h.explicit fact ?_
    rw [hrequired hchecked]
    exact mem_requiredList.mpr hfact

/-- Every record in these calls comes after the first of them, a clock reading at which its entry
was timely. -/
def TimelyRecords (policy : Policy O) (checked : Bool) (cx : Context)
    (resolution : FactResolution KnownFacts) (calls : List (Call R A T)) : Prop :=
  ∀ entry answer, .record entry answer ∈ calls → ∃ r after,
    calls = .now r :: after ∧ .record entry answer ∈ after ∧
      a.Timely policy checked cx resolution r entry

theorem timelyRecords_finish {policy : Policy O} {anchor : PolicyAnchor} {checked : Bool}
    {required : Option (List FactId)}
    (hrequired : checked = true → required = some (requiredList policy)) (cx : Context)
    (resolution : FactResolution KnownFacts) (w : σ) :
    a.TimelyRecords policy checked cx resolution
      ((a.finish policy anchor required cx resolution : Run σ R A T _) w).calls := by
  intro entry answer hmem
  unfold finish at hmem ⊢
  obtain ⟨r, calls, w', hcalls, ⟨pending, hrun, hassembled⟩ | ⟨e, hrun, -⟩⟩ :=
    a.assemble_cases (R := R) (T := T) policy anchor required cx resolution w
  · have htimely := a.timely_of_assembled hrequired hassembled
    have hquiet : .record entry answer ∉ calls := not_mem_of_quiet hcalls rfl
    rw [Act.bind_of_ok hrun] at hmem ⊢
    obtain ⟨w'', hpersist | ⟨source, hpersist⟩⟩ := a.persist_cases (R := R) (T := T) pending w'
    all_goals
      rw [hpersist] at hmem ⊢
      simp only [Ran.after, List.cons_append, List.mem_cons, List.mem_append, reduceCtorEq, hquiet,
        false_or, or_false, List.not_mem_nil, Call.record.injEq] at hmem
      obtain ⟨rfl, rfl⟩ := hmem
      exact ⟨r, _, rfl, by simp, htimely⟩
  · rw [Act.bind_of_error hrun] at hmem
    exact absurd hmem (not_mem_of_quiet (by rw [effects_cons_quiet rfl, hcalls]) rfl)

/-! ## The entry points -/

/-- Every record in the calls of one authorization comes after its resolution and the clock reading
that followed it, at which its entry was timely. -/
def ResolvedTimely (policy : Policy O) (checked : Bool) (cx : Context)
    (calls : List (Call R A T)) : Prop :=
  ∀ entry answer, .record entry answer ∈ calls → ∃ before resolution r after,
    calls = before ++ .resolve (.ok resolution) :: .now r :: after ∧
      .record entry answer ∈ after ∧ a.Timely policy checked cx resolution r entry

variable {a} in
theorem ResolvedTimely.after_quiet {policy : Policy O} {checked : Bool} {cx : Context}
    {before calls : List (Call R A T)} (hb : effects before = [])
    (h : a.ResolvedTimely policy checked cx calls) :
    a.ResolvedTimely policy checked cx (before ++ calls) := by
  intro entry answer hmem
  rcases List.mem_append.mp hmem with hbefore | hcalls
  · exact absurd hbefore (not_mem_of_quiet hb rfl)
  · obtain ⟨first, resolution, r, after, rfl, hafter, htimely⟩ := h entry answer hcalls
    exact ⟨before ++ first, resolution, r, after, (List.append_assoc ..).symm, hafter, htimely⟩

theorem resolvedTimely_guarded {policy : Policy O} {anchor : PolicyAnchor} {checked : Bool}
    {required : Option (List FactId)}
    (hrequired : checked = true → required = some (requiredList policy)) (cx : Context)
    (step : σ → ResolveResult R × σ) (w : σ) :
    let run : Run σ R A T (AuthorizationDecision O) := do
      a.checkContext cx
      let resolution ← Act.call step .resolve
      let resolution ← Act.check .resolve resolution
      a.finish policy anchor required cx resolution
    a.ResolvedTimely policy checked cx (run w).calls := by
  intro run
  obtain ⟨e, calls, w', hrun, hcalls, -⟩ | ⟨t, resolution, w', hrun⟩ :=
    a.guarded_cases (T := T) cx step (a.finish policy anchor required cx) w
  · rw [show run w = _ from hrun]
    exact fun entry answer hmem => absurd hmem (not_mem_of_quiet hcalls rfl)
  · rw [show run w = _ from hrun]
    intro entry answer hmem
    have hfinish : .record entry answer ∈
        ((a.finish policy anchor required cx resolution : Run σ R A T _) w').calls := by
      simpa [Ran.after] using hmem
    obtain ⟨r, after, hcalls, hafter, htimely⟩ :=
      a.timelyRecords_finish hrequired cx resolution w' entry answer hfinish
    exact ⟨[.now t], resolution, r, after, by simp [Ran.after, hcalls], hafter, htimely⟩

end Timely

section Batch

variable [Lattice O] [DecidableEq O] [Serialize O]

/-- A batch that fails as a whole records nothing. Otherwise the calls after the bulk load are those
of the items, one after the other, and the records of each are timely at its own first call. -/
def BatchTimely (a : Authorizer σ (BatchFactResolver σ R) A) (policy : Policy O)
    (contexts : List Context)
    (result : Except (BatchError R)
      (List (Except (AuthorizationError R A) (AuthorizationDecision O))))
    (calls : List (Call R A T)) : Prop :=
  match result with
  | .error _ => ∀ entry answer, .record entry answer ∉ calls
  | .ok _ => ∃ before resolutions segments, calls = before ++ segments.flatten ∧
      (∀ entry answer, .record entry answer ∉ before) ∧
      (contexts = [] ∨ .resolveBatch (.ok resolutions) ∈ before) ∧
      resolutions.length = contexts.length ∧
      List.Forall₂ (fun item segment => ∀ entry answer, .record entry answer ∈ segment →
        ∃ resolution, item.2 = .ok resolution ∧
          a.TimelyRecords policy true item.1 resolution segment) (contexts.zip resolutions) segments

theorem timely_item {a : Authorizer σ (BatchFactResolver σ R) A} {policy : PreparedPolicy O}
    {item : Context × ResolveResult R}
    {ran : Ran σ (Call R A T) (Except (AuthorizationError R A) (AuthorizationDecision O))}
    (h : a.Item policy item ran) {entry : AuditEntry} {answer : Except A Unit}
    (hmem : .record entry answer ∈ ran.calls) :
    ∃ resolution, item.2 = .ok resolution ∧
      a.TimelyRecords policy.policy true item.1 resolution ran.calls := by
  obtain ⟨cx, result⟩ := item
  obtain ⟨w, rfl⟩ := h
  unfold finishItem at hmem ⊢
  cases result with
  | error e => cases hmem
  | ok resolution =>
    exact ⟨resolution, rfl,
      a.timelyRecords_finish (fun _ => by rw [policy.required_eq]) cx resolution w⟩

theorem timely_authorizeBatch (a : Authorizer σ (BatchFactResolver σ R) A)
    (policy : PreparedPolicy O) (contexts : List Context) (limit : Nat) (w : σ) :
    a.BatchTimely policy.policy contexts
      (a.authorizeBatch (T := T) policy contexts limit w).result
      (a.authorizeBatch (T := T) policy contexts limit w).calls := by
  obtain ⟨e, calls, w', hrun, hcalls⟩ | ⟨before, resolutions, ran, w', hrun, hbefore, hlen, hload, hran⟩ :=
    a.authorizeBatch_cases (T := T) policy contexts limit w
  · rw [hrun]
    exact fun entry answer => not_mem_of_quiet hcalls rfl
  · rw [hrun]
    refine ⟨before, resolutions, ran.map Ran.calls, rfl,
      fun entry answer => not_mem_of_quiet hbefore rfl, hload, hlen, ?_⟩
    rw [List.forall₂_map_right_iff]
    exact hran.imp fun item r hitem entry answer hmem => timely_item hitem hmem

end Batch

section Results

variable [Lattice O] [DecidableEq O] [Serialize O]

/-- Nothing stale or out of scope is ever recorded as a decision, whatever the clock and the
resolver do. -/
theorem records_are_timely :
    (∀ (a : Authorizer σ (FactResolver σ R) A) (policy : PreparedPolicy O) (cx : Context) (w : σ),
      a.ResolvedTimely policy.policy true cx ((a.authorize policy cx : Run σ R A T _) w).calls) ∧
    (∀ (a : Authorizer σ (FactResolver σ R) A) (hash : Policy O → Except PostcardError PolicyHash)
      (id : PolicyId) (policy : Policy O) (cx : Context) (w : σ),
      a.ResolvedTimely policy false cx
        ((a.authorizePolicy hash id policy cx : Run σ R A T _) w).calls) ∧
    (∀ {Action Principal Resource : Type}
      (a : Authorizer σ (ResourcePolicy σ R Action Principal Resource O) A) (action : Action)
      (principal : Principal) (resource : Resource) (cx : Context) (w : σ),
      a.ResolvedTimely (a.resolver.policy action).policy true cx
        ((a.authorizeResource action principal resource cx : Run σ R A T _) w).calls) ∧
    ∀ (a : Authorizer σ (BatchFactResolver σ R) A) (policy : PreparedPolicy O)
      (contexts : List Context) (limit : Nat) (w : σ),
      a.BatchTimely policy.policy contexts
        (a.authorizeBatch (T := T) policy contexts limit w).result
        (a.authorizeBatch (T := T) policy contexts limit w).calls := by
  refine ⟨fun a policy cx w => ?_, fun a hash id policy cx w => ?_,
    fun a action principal resource cx w => ?_, fun a policy contexts limit w => ?_⟩
  · exact a.resolvedTimely_guarded (fun _ => by rw [policy.required_eq]; rfl) cx
      (a.resolver.resolveForDecision policy.required cx) w
  · obtain ⟨e, calls, w', hrun, hcalls, -⟩ | ⟨policyHash, t, w', -, hrun⟩ :=
      a.authorizePolicy_cases (T := T) hash id policy cx w
    · rw [hrun]
      exact fun entry answer hmem => absurd hmem (not_mem_of_quiet hcalls rfl)
    · rw [hrun]
      have hunchecked : false = true → (none : Option (List FactId)) = some (requiredList policy) :=
        fun h => (nomatch h)
      refine ResolvedTimely.after_quiet rfl ?_
      exact a.resolvedTimely_guarded hunchecked cx
        (a.resolver.resolveForDecision (requiredList policy) cx) w'
  · exact a.resolvedTimely_guarded (fun _ => by rw [(a.resolver.policy action).required_eq]) cx
      (a.resolver.resolve action principal resource cx) w
  · exact a.timely_authorizeBatch policy contexts limit w

end Results

end Authorizer

end Gatekeep
