import Gatekeep.Authorization

/-!
# Gatekeep.Authorization.Boundary

What every entry point of the authorizer guarantees, whatever the outside does.

`assemble_cases` and `persist_cases` say once what the two halves of the boundary do: the first only
reads, and freezes a decision that passed every check at one clock reading; the second records the
entry and observes the decision after the record succeeded. From them follows that no result is
returned without its record (`Boundary`), for each entry point and for every item of a batch.
-/

namespace Gatekeep

open Traced

variable {σ Resolver R A T O : Type}

namespace Call

/-- The calls that write or publish something. -/
def isEffect : Call R A T → Bool
  | .record .. | .observe _ | .recordAttempt .. => true
  | .now _ | .generate _ | .resolve _ | .resolveBatch _ => false

end Call

def effects (calls : List (Call R A T)) : List (Call R A T) := calls.filter Call.isEffect

@[simp] theorem effects_nil : effects ([] : List (Call R A T)) = [] := rfl

@[simp] theorem effects_append (c d : List (Call R A T)) :
    effects (c ++ d) = effects c ++ effects d := List.filter_append ..

theorem effects_cons_quiet {c : Call R A T} (h : c.isEffect = false) (calls : List (Call R A T)) :
    effects (c :: calls) = effects calls := by
  rw [effects, List.filter_cons_of_neg (by simp [h]), effects]

theorem mem_effects {c : Call R A T} {calls : List (Call R A T)} (h : c ∈ calls)
    (hc : c.isEffect = true) : c ∈ effects calls := List.mem_filter.mpr ⟨h, hc⟩

theorem not_mem_of_quiet {c : Call R A T} {calls : List (Call R A T)} (h : effects calls = [])
    (hc : c.isEffect = true) : c ∉ calls := by
  intro hmem
  have := mem_effects hmem hc
  rw [h] at this
  cases this

/-! ## The two halves -/

def AuthorizationError.isAudit : AuthorizationError R A → Bool
  | .audit .. => true
  | _ => false

namespace Authorizer

variable (a : Authorizer σ Resolver A)

theorem receive_eq_ok {required : Option (List FactId)} {cx : Context}
    {resolution : FactResolution KnownFacts} {r : OffsetDateTime}
    {evidence : FactResolutionEvidence} :
    (a.receive required cx resolution r : Except (AuthorizationError R A) _) = .ok evidence ↔
      cx.validateAt r = .ok () ∧ resolution.validateAt r = .ok () ∧
      (∀ fact ∈ required.getD [], (resolution.facts.observation fact).isSome) ∧
      FactResolutionEvidence.fromResolution a.digest resolution = .ok evidence := by
  unfold receive
  rw [Result.check_eq_ok, Result.mapError_eq_ok, Result.check_eq_ok, Result.mapError_eq_ok]
  refine and_congr_right fun _ => and_congr_right fun _ => ?_
  split
  · rename_i fact hfind
    have hmem := List.mem_of_find?_eq_some hfind
    have hnone := List.find?_some hfind
    refine ⟨fun h => (nomatch h), fun h => ?_⟩
    have hsome := h.1 fact hmem
    rw [Option.isNone_iff_eq_none] at hnone
    rw [hnone] at hsome
    cases hsome
  · rename_i hfind
    rw [Result.mapError_eq_ok]
    rw [List.find?_eq_none] at hfind
    exact ⟨fun h => ⟨fun fact hfact => by simpa [Option.isSome_iff_ne_none] using hfind fact hfact, h⟩,
      fun h => h.2⟩

/-- The checks fail over the context, the resolution or its evidence, and nothing else. -/
theorem receive_error_cases {required : Option (List FactId)} {cx : Context}
    {resolution : FactResolution KnownFacts} {r : OffsetDateTime} {e : AuthorizationError R A}
    (h : a.receive required cx resolution r = .error e) :
    (∃ error, e = .context error) ∨ (∃ error, e = .resolve error) ∨
      ∃ error, e = .factResolutionEvidence error := by
  unfold receive at h
  cases hcx : cx.validateAt r with
  | error error => rw [hcx] at h; cases h; exact .inl ⟨error, rfl⟩
  | ok _ =>
    rw [hcx] at h
    cases hres : resolution.validateAt r with
    | error error => rw [hres] at h; cases h; exact .inr (.inl ⟨_, rfl⟩)
    | ok _ =>
      rw [hres] at h
      simp only [Except.mapError, Result.ok_bind] at h
      split at h
      · cases h; exact .inr (.inl ⟨_, rfl⟩)
      · cases hev : FactResolutionEvidence.fromResolution a.digest resolution with
        | error error => rw [hev] at h; cases h; exact .inr (.inr ⟨error, rfl⟩)
        | ok _ => rw [hev] at h; cases h

theorem isAudit_of_receive {required : Option (List FactId)} {cx : Context}
    {resolution : FactResolution KnownFacts} {r : OffsetDateTime} {e : AuthorizationError R A}
    (h : a.receive required cx resolution r = .error e) : e.isAudit = false := by
  obtain ⟨error, rfl⟩ | ⟨error, rfl⟩ | ⟨error, rfl⟩ := a.receive_error_cases h <;> rfl

/-- A new occurrence costs an identity and a clock reading, and nothing else. -/
theorem occurrenceFor_cases (cx : Context) (w : σ) :
    ∃ calls w', effects calls = [] ∧
      ((∃ o, (a.occurrenceFor cx : Run σ R A T _) w = ⟨.ok o, calls, w'⟩ ∧
          (cx.decisionAuditOccurrence = some o ∨
            cx.decisionAuditOccurrence = none ∧ ∃ id t, DecisionAuditOccurrence.new id t = .ok o)) ∨
        ∃ e, (a.occurrenceFor cx : Run σ R A T _) w = ⟨.error (.occurrence e), calls, w'⟩) := by
  unfold occurrenceFor
  cases hcx : cx.decisionAuditOccurrence with
  | some o => exact ⟨[], w, rfl, .inl ⟨o, rfl, .inl rfl⟩⟩
  | none =>
    refine ⟨[.generate (a.ids w).1, .now (a.clock (a.ids w).2).1], (a.clock (a.ids w).2).2, rfl, ?_⟩
    cases hnew : DecisionAuditOccurrence.new (a.ids w).1 (a.clock (a.ids w).2).1 with
    | error e =>
      refine .inr ⟨e, ?_⟩
      simp only [generate, nowUtc, Act.bind_call, Ran.after, hnew]
      rfl
    | ok o =>
      refine .inl ⟨o, ?_, .inr ⟨rfl, _, _, hnew⟩⟩
      simp only [generate, nowUtc, Act.bind_call, Ran.after, hnew]
      rfl

section Assemble

variable [Lattice O] [DecidableEq O] [Serialize O]

/-- A pending decision with everything that was checked for it at the clock reading `r`. -/
structure Assembled (policy : Policy O) (anchor : PolicyAnchor) (required : Option (List FactId))
    (cx : Context) (resolution : FactResolution KnownFacts) (r : OffsetDateTime)
    (pending : PendingDecision O) : Prop where
  decision : pending.decision = evaluate policy resolution.facts
  contextValid : cx.validateAt r = .ok ()
  resolutionValid : resolution.validateAt r = .ok ()
  explicit : ∀ fact ∈ required.getD [], (resolution.facts.observation fact).isSome
  built : ∃ evidence occurrence,
    FactResolutionEvidence.fromResolution a.digest resolution = .ok evidence ∧
    (cx.decisionAuditOccurrence = some occurrence ∨
      cx.decisionAuditOccurrence = none ∧
        ∃ id t, DecisionAuditOccurrence.new id t = .ok occurrence) ∧
    AuditEntry.fromDecision occurrence anchor pending.decision cx evidence = .ok pending.entry

/-- Assembling only reads. It fails with anything but an audit error, or freezes a decision that
passed every check at its first clock reading. -/
theorem assemble_cases (policy : Policy O) (anchor : PolicyAnchor) (required : Option (List FactId))
    (cx : Context) (resolution : FactResolution KnownFacts) (w : σ) :
    ∃ r calls w', effects calls = [] ∧
      ((∃ pending, (a.assemble policy anchor required cx resolution : Run σ R A T _) w =
            ⟨.ok pending, .now r :: calls, w'⟩ ∧
          a.Assembled policy anchor required cx resolution r pending) ∨
        ∃ e, (a.assemble policy anchor required cx resolution : Run σ R A T _) w =
            ⟨.error e, .now r :: calls, w'⟩ ∧ e.isAudit = false) := by
  have hclock : (a.nowUtc : Run σ R A T _) w =
      ⟨.ok (a.clock w).1, [.now (a.clock w).1], (a.clock w).2⟩ := rfl
  unfold assemble
  rw [Act.bind_of_ok hclock]
  refine ⟨(a.clock w).1, ?_⟩
  obtain ⟨e, he, hrun⟩ | ⟨evidence, hevidence, hrun⟩ := Act.check_cases id
    (a.receive required cx resolution (a.clock w).1 : Except (AuthorizationError R A) _) _ _
  · rw [hrun]
    exact ⟨[], _, rfl, .inr ⟨e, rfl, a.isAudit_of_receive he⟩⟩
  rw [hrun]
  obtain ⟨hcontext, hresolution, hexplicit, hbuilt⟩ := a.receive_eq_ok.mp hevidence
  obtain ⟨calls, w', hcalls, ⟨o, ho, hsource⟩ | ⟨e, he⟩⟩ := a.occurrenceFor_cases cx (a.clock w).2
  swap
  · rw [Act.bind_of_error he]
    exact ⟨calls, w', hcalls, .inr ⟨_, rfl, rfl⟩⟩
  rw [Act.bind_of_ok ho]
  obtain ⟨e, he, hrun⟩ | ⟨entry, hentry, hrun⟩ := Act.check_cases AuthorizationError.ofConstruction
    (AuditEntry.fromDecision o anchor (evaluate policy resolution.facts) cx evidence) _ _
  · rw [hrun]
    refine ⟨calls, w', hcalls, .inr ⟨AuthorizationError.ofConstruction e, by simp [Ran.after], ?_⟩⟩
    cases e <;> rfl
  · rw [hrun]
    exact ⟨calls, w', hcalls, .inl ⟨⟨evaluate policy resolution.facts, entry⟩,
      by simp [Ran.after, Act.pure_apply],
      ⟨rfl, hcontext, hresolution, hexplicit, evidence, o, hbuilt, hsource, hentry⟩⟩⟩

end Assemble

/-- Persisting makes one record, and observes the decision if and only if it succeeded. -/
theorem persist_cases (pending : PendingDecision O) (w : σ) :
    ∃ w', (a.persist pending : Run σ R A T _) w =
        ⟨.ok ⟨pending.decision, pending.entry.occurrence⟩,
          [.record pending.entry (.ok ()), .observe pending.entry.summary], w'⟩ ∨
      ∃ source, (a.persist pending : Run σ R A T _) w =
        ⟨.error (.audit pending.entry.occurrence source), [.record pending.entry (.error source)],
          w'⟩ := by
  unfold persist persistPending record observe
  simp only [Act.mapError, Act.bind_call]
  cases h : (a.auditSink pending.entry w).1 with
  | error source => exact ⟨_, .inr ⟨source, rfl⟩⟩
  | ok _ => exact ⟨_, .inl rfl⟩

end Authorizer

/-! ## No result without its record -/

/-- The entry that stands for a returned decision. -/
structure AuditEntry.Describes (entry : AuditEntry) [Serialize O] (d : AuthorizationDecision O)
    (anchor : Except PostcardError PolicyAnchor) (cx : Context) : Prop where
  current : entry.validateCurrent = .ok ()
  effect : entry.effect = d.decision.effectKind
  obligations : entry.obligations = d.decision.obligations
  consulted : entry.consulted = d.decision.trace.consulted
  decisive : Decision.traceClause d.decision.trace.decisive = .ok entry.decisive
  anchor : anchor = .ok entry.anchor
  tenant : entry.tenant = cx.tenant
  principal : entry.principal = cx.principal
  subjects : entry.subjects = cx.subjects
  occurrence : entry.occurrence = d.auditOccurrence
  requested : ∀ o, cx.decisionAuditOccurrence = some o → entry.occurrence = o

/-- A decision is returned after exactly one successful record of its entry and one observation of
it; an error after no write at all, or after the one record whose failure it reports. -/
def Boundary [Serialize O] (anchor : Except PostcardError PolicyAnchor) (cx : Context)
    (result : Except (AuthorizationError R A) (AuthorizationDecision O))
    (calls : List (Call R A T)) : Prop :=
  match result with
  | .ok d => ∃ entry : AuditEntry,
      effects calls = [.record entry (.ok ()), .observe entry.summary] ∧ entry.Describes d anchor cx
  | .error e => effects calls = [] ∧ e.isAudit = false ∨
      ∃ (entry : AuditEntry) (source : A), effects calls = [.record entry (.error source)] ∧
        e = .audit entry.occurrence source

theorem Boundary.of_quiet [Serialize O] {anchor : Except PostcardError PolicyAnchor} {cx : Context}
    {result : Except (AuthorizationError R A) (AuthorizationDecision O)}
    {before calls : List (Call R A T)} (hb : effects before = [])
    (h : Boundary anchor cx result calls) : Boundary anchor cx result (before ++ calls) := by
  unfold Boundary at h ⊢
  rw [effects_append, hb, List.nil_append]
  exact h

namespace Authorizer

variable (a : Authorizer σ Resolver A) [Lattice O] [DecidableEq O] [Serialize O]

theorem describes_of_assembled {policy : Policy O} {anchor : PolicyAnchor}
    {required : Option (List FactId)} {cx : Context} {resolution : FactResolution KnownFacts}
    {r : OffsetDateTime} {pending : PendingDecision O}
    (h : a.Assembled policy anchor required cx resolution r pending) :
    pending.entry.Describes ⟨pending.decision, pending.entry.occurrence⟩ (.ok anchor) cx := by
  obtain ⟨evidence, occurrence, -, hsource, hentry⟩ := h.built
  obtain ⟨trace, reason, htrace, -, -, he⟩ := AuditEntry.fromDecision_eq_ok.mp hentry
  obtain ⟨clause, hclause, rfl⟩ := Result.map_eq_ok.mp htrace
  have hoccurrence : pending.entry.occurrence = occurrence := by
    rw [AuditEntry.occurrence, he]
  exact {
    current := pending.entry.valid
    effect := by rw [he]
    obligations := by rw [he]
    consulted := by rw [he]
    decisive := by rw [he, hclause]
    anchor := by rw [he]
    tenant := by rw [he]
    principal := by rw [he]
    subjects := by rw [he]
    occurrence := rfl
    requested := fun o ho => by
      rcases hsource with hsome | ⟨hnone, -⟩
      · rw [hoccurrence]
        exact Option.some.inj (hsome.symm.trans ho)
      · rw [hnone] at ho
        cases ho }

/-- The whole boundary after resolution. -/
theorem boundary_finish (policy : Policy O) (anchor : PolicyAnchor)
    (required : Option (List FactId)) (cx : Context) (resolution : FactResolution KnownFacts)
    (w : σ) :
    Boundary (.ok anchor) cx
      ((a.finish policy anchor required cx resolution : Run σ R A T _) w).result
      ((a.finish policy anchor required cx resolution : Run σ R A T _) w).calls := by
  unfold finish
  obtain ⟨r, calls, w', hcalls, ⟨pending, hrun, hassembled⟩ | ⟨e, hrun, he⟩⟩ :=
    a.assemble_cases policy anchor required cx resolution w
  · rw [Act.bind_of_ok hrun]
    refine Boundary.of_quiet (by rw [effects_cons_quiet rfl, hcalls]) ?_
    obtain ⟨w'', hpersist | ⟨source, hpersist⟩⟩ := a.persist_cases pending w'
    · rw [hpersist]
      exact ⟨pending.entry, rfl, a.describes_of_assembled hassembled⟩
    · rw [hpersist]
      exact .inr ⟨pending.entry, source, rfl, rfl⟩
  · rw [Act.bind_of_error hrun]
    exact .inl ⟨by rw [effects_cons_quiet rfl, hcalls], he⟩

/-- What precedes the boundary: the context is checked and facts are resolved, with no effect. -/
theorem guarded_cases {α : Type} (cx : Context) (step : σ → ResolveResult R × σ)
    (rest : FactResolution KnownFacts → Run σ R A T α) (w : σ) :
    let run : Run σ R A T α := do
      a.checkContext cx
      let resolution ← Act.call step .resolve
      let resolution ← Act.check .resolve resolution
      rest resolution
    (∃ e calls w', run w = ⟨.error e, calls, w'⟩ ∧ effects calls = [] ∧ e.isAudit = false) ∨
      ∃ t resolution w',
        run w = (rest resolution w').after [.now t, .resolve (.ok resolution)] := by
  intro run
  have hclock : (a.checkContext cx : Run σ R A T _) w =
      ⟨(cx.validateAt (a.clock w).1).mapError .context, [.now (a.clock w).1], (a.clock w).2⟩ := rfl
  cases hcx : cx.validateAt (a.clock w).1 with
  | error e =>
    rw [hcx] at hclock
    exact .inl ⟨.context e, [.now (a.clock w).1], (a.clock w).2, Act.bind_of_error hclock, rfl, rfl⟩
  | ok _ =>
    rw [hcx] at hclock
    have hrun : run w = _ := Act.bind_of_ok hclock
    rw [hrun, Act.bind_call]
    cases hres : (step (a.clock w).2).1 with
    | error e =>
      exact .inl ⟨.resolve e, [.now (a.clock w).1, .resolve (.error e)], _, rfl, rfl, rfl⟩
    | ok resolution => exact .inr ⟨(a.clock w).1, resolution, _, rfl⟩

theorem boundary_guarded (cx : Context) (step : σ → ResolveResult R × σ)
    (policy : Policy O) (anchor : PolicyAnchor) (required : Option (List FactId)) (w : σ) :
    let run : Run σ R A T (AuthorizationDecision O) := do
      a.checkContext cx
      let resolution ← Act.call step .resolve
      let resolution ← Act.check .resolve resolution
      a.finish policy anchor required cx resolution
    Boundary (.ok anchor) cx (run w).result (run w).calls := by
  intro run
  obtain ⟨e, calls, w', hrun, hcalls, he⟩ | ⟨t, resolution, w', hrun⟩ :=
    a.guarded_cases cx step (a.finish policy anchor required cx) w
  · rw [show run w = _ from hrun]
    exact .inl ⟨hcalls, he⟩
  · rw [show run w = _ from hrun]
    exact Boundary.of_quiet rfl (a.boundary_finish policy anchor required cx resolution w')

end Authorizer

/-! ## The entry points -/

namespace Authorizer

section Policies

variable [Lattice O] [DecidableEq O] [Serialize O] (a : Authorizer σ (FactResolver σ R) A)

theorem boundary_run (policy : Policy O) (anchor : PolicyAnchor) (required : List FactId)
    (cx : Context) (checked : Bool) (w : σ) :
    Boundary (.ok anchor) cx
      ((a.run policy anchor required cx checked : Run σ R A T _) w).result
      ((a.run policy anchor required cx checked : Run σ R A T _) w).calls :=
  a.boundary_guarded cx (a.resolver.resolveForDecision required cx) policy anchor _ w

/-- The unprepared path fails before the boundary, or has hashed its policy and goes through it. -/
theorem authorizePolicy_cases (hash : Policy O → Except PostcardError PolicyHash) (id : PolicyId)
    (policy : Policy O) (cx : Context) (w : σ) :
    (∃ e calls w', (a.authorizePolicy hash id policy cx : Run σ R A T _) w =
        ⟨.error e, calls, w'⟩ ∧ effects calls = [] ∧ e.isAudit = false) ∨
      ∃ policyHash t w', hash policy = .ok policyHash ∧
        (a.authorizePolicy hash id policy cx : Run σ R A T _) w =
          (a.run policy (PolicyAnchor.new id policyHash) (requiredList policy) cx false w').after
            [.now t] := by
  have hcheck : (a.checkContext cx : Run σ R A T _) w =
      ⟨(cx.validateAt (a.clock w).1).mapError .context, [.now (a.clock w).1], (a.clock w).2⟩ := rfl
  unfold authorizePolicy
  cases hcx : cx.validateAt (a.clock w).1 with
  | error e =>
    rw [hcx] at hcheck
    rw [Act.bind_of_error hcheck]
    exact .inl ⟨.context e, [.now (a.clock w).1], (a.clock w).2, rfl, rfl, rfl⟩
  | ok _ =>
    rw [hcx] at hcheck
    rw [Act.bind_of_ok hcheck]
    cases hhash : hash policy with
    | error e =>
      rw [Act.bind_check_error]
      exact .inl ⟨.policyHash e, [.now (a.clock w).1], (a.clock w).2, rfl, rfl, rfl⟩
    | ok policyHash =>
      rw [Act.bind_check_ok]
      exact .inr ⟨policyHash, (a.clock w).1, (a.clock w).2, rfl, rfl⟩

theorem boundary_authorizePolicy (hash : Policy O → Except PostcardError PolicyHash)
    (id : PolicyId) (policy : Policy O) (cx : Context) (w : σ) :
    Boundary ((hash policy).map (PolicyAnchor.new id)) cx
      ((a.authorizePolicy hash id policy cx : Run σ R A T _) w).result
      ((a.authorizePolicy hash id policy cx : Run σ R A T _) w).calls := by
  obtain ⟨e, calls, w', hrun, hcalls, he⟩ | ⟨policyHash, t, w', hhash, hrun⟩ :=
    a.authorizePolicy_cases (T := T) hash id policy cx w
  · rw [hrun]
    exact .inl ⟨hcalls, he⟩
  · rw [hrun, hhash]
    exact Boundary.of_quiet rfl (a.boundary_run policy (PolicyAnchor.new id policyHash) _ cx _ w')

end Policies

section Batch

variable [Lattice O] [DecidableEq O] [Serialize O] (a : Authorizer σ (BatchFactResolver σ R) A)

theorem checkContexts_cases (contexts : List Context) (index : Nat) (w : σ) :
    ∃ calls w', effects calls = [] ∧
      ((a.checkContexts contexts index : Act σ (Call R A T) (BatchError R) _) w =
          ⟨.ok (), calls, w'⟩ ∨
        ∃ e, (a.checkContexts contexts index : Act σ (Call R A T) (BatchError R) _) w =
          ⟨.error e, calls, w'⟩) := by
  induction contexts generalizing index w with
  | nil => exact ⟨[], w, rfl, .inl rfl⟩
  | cons cx contexts ih =>
    unfold checkContexts
    simp only [nowUtc, Act.bind_call]
    cases hcx : cx.validateAt (a.clock w).1 with
    | error e => exact ⟨[.now (a.clock w).1], (a.clock w).2, rfl, .inr ⟨.context index e, rfl⟩⟩
    | ok _ =>
      rw [Act.bind_check_ok]
      obtain ⟨calls, w', hcalls, hrun | ⟨e, hrun⟩⟩ := ih (index + 1) (a.clock w).2
      · rw [hrun]
        exact ⟨_, w', by rw [effects_append, hcalls]; rfl, .inl rfl⟩
      · rw [hrun]
        exact ⟨_, w', by rw [effects_append, hcalls]; rfl, .inr ⟨e, rfl⟩⟩

/-- The items run one after the other, each to its end, and none stops the loop. -/
theorem finishItems_eq (policy : PreparedPolicy O) (items : List (Context × ResolveResult R))
    (w : σ) :
    let step := fun item : Context × ResolveResult R =>
      (a.finishItem policy item.1 item.2 : Run σ R A T _)
    a.finishItems (T := T) policy items w =
      ⟨.ok ((Act.each step items w).map Ran.result),
        ((Act.each step items w).map Ran.calls).flatten, Act.afterEach step items w⟩ := by
  induction items generalizing w with
  | nil => rfl
  | cons item items ih =>
    obtain ⟨cx, resolution⟩ := item
    have hitem : ((a.finishItem policy cx resolution : Run σ R A T _).caught :
        Act σ (Call R A T) (BatchError R) _) w = ⟨.ok (a.finishItem policy cx resolution w).result,
          (a.finishItem policy cx resolution w).calls,
          (a.finishItem policy cx resolution w).world⟩ := rfl
    unfold finishItems
    rw [Act.bind_of_ok hitem, Act.bind_of_ok (ih _)]
    simp [Ran.after, Act.pure_apply, Act.each, Act.afterEach]

/-- A run of one item. -/
def Item (policy : PreparedPolicy O) (item : Context × ResolveResult R)
    (ran : Ran σ (Call R A T) (Except (AuthorizationError R A) (AuthorizationDecision O))) : Prop :=
  ∃ w, ran = a.finishItem policy item.1 item.2 w

/-- A batch fails as a whole with no effect, or runs every item in order after one bulk load. -/
theorem authorizeBatch_cases (policy : PreparedPolicy O) (contexts : List Context) (limit : Nat)
    (w : σ) :
    (∃ e calls w', a.authorizeBatch (T := T) policy contexts limit w = ⟨.error e, calls, w'⟩ ∧
        effects calls = []) ∨
      ∃ before resolutions ran w', a.authorizeBatch (T := T) policy contexts limit w =
          ⟨.ok (ran.map Ran.result), before ++ (ran.map Ran.calls).flatten, w'⟩ ∧
        effects before = [] ∧ resolutions.length = contexts.length ∧
        (contexts = [] ∨ .resolveBatch (.ok resolutions) ∈ before) ∧
        List.Forall₂ (a.Item policy) (contexts.zip resolutions) ran := by
  unfold authorizeBatch
  by_cases hlimit : contexts.length > limit
  · rw [if_pos hlimit]
    exact .inl ⟨.limit, [], w, rfl, rfl⟩
  rw [if_neg hlimit]
  by_cases hempty : contexts.isEmpty
  · rw [if_pos hempty]
    rw [List.isEmpty_iff] at hempty
    subst hempty
    exact .inr ⟨[], [], [], w, rfl, rfl, rfl, .inl rfl, .nil⟩
  rw [if_neg hempty]
  beta_reduce
  obtain ⟨checks, w₁, hchecks, hrun | ⟨e, hrun⟩⟩ := a.checkContexts_cases (T := T) contexts 0 w
  swap
  · rw [Act.bind_of_error hrun]
    exact .inl ⟨e, checks, w₁, rfl, hchecks⟩
  rw [Act.bind_of_ok hrun, Act.bind_call]
  cases hload : (a.resolver.resolveBatch policy.required contexts w₁).1 with
  | error e =>
    rw [Act.bind_check_error]
    exact .inl ⟨.resolve e, _, _, rfl, by simp [Ran.after, hchecks]; rfl⟩
  | ok resolutions =>
    rw [Act.bind_check_ok]
    by_cases hlen : resolutions.length = contexts.length
    · rw [if_neg (not_not.mpr hlen)]
      beta_reduce
      rw [a.finishItems_eq policy (contexts.zip resolutions), Ran.after_after]
      refine .inr ⟨checks ++ [.resolveBatch (.ok resolutions)], resolutions, _, _, rfl, ?_, hlen,
        .inr (by simp), Act.forall₂_each _ _ _⟩
      rw [effects_append, hchecks]
      rfl
    · rw [if_pos hlen]
      exact .inl ⟨.cardinality contexts.length resolutions.length, _, _, rfl,
        by simp [Ran.after, hchecks]; rfl⟩

theorem boundary_item {policy : PreparedPolicy O} {item : Context × ResolveResult R}
    {ran : Ran σ (Call R A T) (Except (AuthorizationError R A) (AuthorizationDecision O))}
    (h : a.Item policy item ran) : Boundary (.ok policy.anchor) item.1 ran.result ran.calls := by
  obtain ⟨cx, resolution⟩ := item
  obtain ⟨w, rfl⟩ := h
  unfold finishItem
  cases resolution with
  | error e => exact .inl ⟨rfl, rfl⟩
  | ok resolution =>
    exact a.boundary_finish policy.policy policy.anchor (some policy.required) cx resolution w

end Batch

/-- A batch fails as a whole with no write at all, or has one result for each context, in order,
each with the calls made for it. -/
def BatchBoundary [Serialize O] (policy : PreparedPolicy O) (contexts : List Context)
    (result : Except (BatchError R)
      (List (Except (AuthorizationError R A) (AuthorizationDecision O))))
    (calls : List (Call R A T)) : Prop :=
  match result with
  | .error _ => effects calls = []
  | .ok results => ∃ before ran, results = ran.map Prod.fst ∧
      calls = before ++ (ran.map Prod.snd).flatten ∧ effects before = [] ∧
      List.Forall₂ (fun cx item => Boundary (.ok policy.anchor) cx item.1 item.2) contexts ran

/-- What holds of every item of a loaded batch, read context by context. -/
theorem forall₂_contexts {α : Type} {contexts : List Context} {resolutions : List (ResolveResult R)}
    {ran : List α} {P : Context × ResolveResult R → α → Prop} {Q : Context → α → Prop}
    (hlen : resolutions.length = contexts.length)
    (h : List.Forall₂ P (contexts.zip resolutions) ran)
    (hPQ : ∀ item r, P item r → Q item.1 r) : List.Forall₂ Q contexts ran := by
  have hfst : (contexts.zip resolutions).map Prod.fst = contexts := List.map_fst_zip (by omega)
  rw [← hfst, List.forall₂_map_left_iff]
  exact h.imp hPQ

section Results

variable [Lattice O] [DecidableEq O] [Serialize O]

theorem boundary_authorizeBatch (a : Authorizer σ (BatchFactResolver σ R) A)
    (policy : PreparedPolicy O) (contexts : List Context) (limit : Nat) (w : σ) :
    BatchBoundary policy contexts (a.authorizeBatch (T := T) policy contexts limit w).result
      (a.authorizeBatch (T := T) policy contexts limit w).calls := by
  obtain ⟨e, calls, w', hrun, hcalls⟩ | ⟨before, resolutions, ran, w', hrun, hbefore, hlen, -, hran⟩ :=
    a.authorizeBatch_cases (T := T) policy contexts limit w
  · rw [hrun]
    exact hcalls
  · rw [hrun]
    refine ⟨before, ran.map fun r => (r.result, r.calls), by simp, by simp [Function.comp_def],
      hbefore, ?_⟩
    rw [List.forall₂_map_right_iff]
    exact forall₂_contexts hlen hran fun _ _ hitem => a.boundary_item hitem

/-- No authorization result without its audit record, at every entry point, whatever the resolver,
the sink, the observer, the clock and the identities do. -/
theorem no_result_without_record :
    (∀ (a : Authorizer σ (FactResolver σ R) A) (policy : PreparedPolicy O) (cx : Context) (w : σ),
      Boundary (.ok policy.anchor) cx ((a.authorize policy cx : Run σ R A T _) w).result
        ((a.authorize policy cx : Run σ R A T _) w).calls) ∧
    (∀ (a : Authorizer σ (FactResolver σ R) A) (hash : Policy O → Except PostcardError PolicyHash)
      (id : PolicyId) (policy : Policy O) (cx : Context) (w : σ),
      Boundary ((hash policy).map (PolicyAnchor.new id)) cx
        ((a.authorizePolicy hash id policy cx : Run σ R A T _) w).result
        ((a.authorizePolicy hash id policy cx : Run σ R A T _) w).calls) ∧
    (∀ {Action Principal Resource : Type}
      (a : Authorizer σ (ResourcePolicy σ R Action Principal Resource O) A) (action : Action)
      (principal : Principal) (resource : Resource) (cx : Context) (w : σ),
      Boundary (.ok (a.resolver.policy action).anchor) cx
        ((a.authorizeResource action principal resource cx : Run σ R A T _) w).result
        ((a.authorizeResource action principal resource cx : Run σ R A T _) w).calls) ∧
    ∀ (a : Authorizer σ (BatchFactResolver σ R) A) (policy : PreparedPolicy O)
      (contexts : List Context) (limit : Nat) (w : σ),
      BatchBoundary policy contexts (a.authorizeBatch (T := T) policy contexts limit w).result
        (a.authorizeBatch (T := T) policy contexts limit w).calls := by
  refine ⟨fun a policy cx w => ?_, fun a hash id policy cx w => ?_,
    fun a action principal resource cx w => ?_, fun a policy contexts limit w => ?_⟩
  · exact a.boundary_run policy.policy policy.anchor policy.required cx true w
  · exact a.boundary_authorizePolicy hash id policy cx w
  · exact a.boundary_guarded cx (a.resolver.resolve action principal resource cx)
      (a.resolver.policy action).policy (a.resolver.policy action).anchor
      (some (a.resolver.policy action).required) w
  · exact a.boundary_authorizeBatch policy contexts limit w

end Results

end Authorizer

end Gatekeep
