import Gatekeep.Authorization.Boundary

/-!
# Gatekeep.Authorization.Batch

A batch does what authorizing its contexts one after the other does.

The items of a batch share one bulk load, and the sequential calls load facts for each context
anew; between the items the sink changes. For the comparison the parts of the authorizer get states
of their own (`Parts`): the sink and the observer write `S`, identities are drawn from `G`, and the
clock and the resolver live in `E`. With a clock that stands still, what follows the resolution
does not see `E` (`reads_finish`), so each item agrees with the call of `authorize` that finds the
sink in the same state.
-/

namespace Gatekeep

open Traced

variable {S G E R A T O : Type}

/-- The parts of an authorizer, each over the state it uses. -/
structure Parts (S G E R A : Type) where
  resolver : BatchFactResolver E R
  auditSink : AuditEntry → S → Except A Unit × S
  observer : DecisionSummary → S → S
  clock : E → OffsetDateTime × E
  ids : G → DecisionAuditId × G
  digest : KnownFacts → Except PostcardError EvidenceDigest

namespace Parts

variable (p : Parts S G E R A)

def authorizer {Resolver : Type} (resolver : Resolver) : Authorizer ((S × G) × E) Resolver A where
  resolver
  auditSink entry w := ((p.auditSink entry w.1.1).1, ((p.auditSink entry w.1.1).2, w.1.2), w.2)
  observer summary w := ((p.observer summary w.1.1, w.1.2), w.2)
  clock w := ((p.clock w.2).1, w.1, (p.clock w.2).2)
  ids w := ((p.ids w.1.2).1, (w.1.1, (p.ids w.1.2).2), w.2)
  digest := p.digest

def factResolver : FactResolver ((S × G) × E) R where
  resolveForDecision required cx w :=
    ((p.resolver.resolveForDecision required cx w.2).1, w.1,
      (p.resolver.resolveForDecision required cx w.2).2)

def batchResolver : BatchFactResolver ((S × G) × E) R where
  toFactResolver := p.factResolver
  resolveBatch required contexts w :=
    ((p.resolver.resolveBatch required contexts w.2).1, w.1,
      (p.resolver.resolveBatch required contexts w.2).2)

def single : Authorizer ((S × G) × E) (FactResolver ((S × G) × E) R) A :=
  p.authorizer p.factResolver

def batch : Authorizer ((S × G) × E) (BatchFactResolver ((S × G) × E) R) A :=
  p.authorizer p.batchResolver

/-! ## What follows the resolution sees the sink and the identities only -/

section Reads

variable {Resolver ε : Type} (resolver : Resolver) {t : OffsetDateTime}
  (hclock : ∀ e, (p.clock e).1 = t)

include hclock in
theorem reads_nowUtc :
    Reads Prod.fst ((p.authorizer resolver).nowUtc : Act _ (Call R A T) ε _) := by
  refine Reads.call fun w w' hw => ⟨?_, hw⟩
  exact (hclock w.2).trans (hclock w'.2).symm

theorem reads_generate :
    Reads Prod.fst ((p.authorizer resolver).generate : Act _ (Call R A T) ε _) := by
  refine Reads.call fun w w' hw => ⟨?_, ?_⟩
  · show (p.ids w.1.2).1 = (p.ids w'.1.2).1
    rw [hw]
  · show (w.1.1, (p.ids w.1.2).2) = (w'.1.1, (p.ids w'.1.2).2)
    rw [hw]

theorem reads_record (entry : AuditEntry) :
    Reads Prod.fst ((p.authorizer resolver).record entry : Act _ (Call R A T) ε _) := by
  refine Reads.call fun w w' hw => ⟨?_, ?_⟩
  · show (p.auditSink entry w.1.1).1 = (p.auditSink entry w'.1.1).1
    rw [hw]
  · show ((p.auditSink entry w.1.1).2, w.1.2) = ((p.auditSink entry w'.1.1).2, w'.1.2)
    rw [hw]

theorem reads_observe (summary : DecisionSummary) :
    Reads Prod.fst ((p.authorizer resolver).observe summary : Act _ (Call R A T) ε _) := by
  refine Reads.call fun w w' hw => ⟨rfl, ?_⟩
  show (p.observer summary w.1.1, w.1.2) = (p.observer summary w'.1.1, w'.1.2)
  rw [hw]

include hclock in
theorem reads_occurrenceFor (cx : Context) :
    Reads Prod.fst ((p.authorizer resolver).occurrenceFor cx : Authorizer.Run _ R A T _) := by
  unfold Authorizer.occurrenceFor
  cases cx.decisionAuditOccurrence with
  | some o => exact Reads.pure o
  | none =>
    refine (p.reads_generate resolver).bind fun id => ?_
    refine (p.reads_nowUtc resolver hclock).bind fun now => ?_
    exact Reads.check _ _

variable [Lattice O] [DecidableEq O] [Serialize O]

include hclock in
theorem reads_finish (policy : Policy O) (anchor : PolicyAnchor) (required : Option (List FactId))
    (cx : Context) (resolution : FactResolution KnownFacts) :
    Reads Prod.fst ((p.authorizer resolver).finish policy anchor required cx resolution :
      Authorizer.Run _ R A T _) := by
  unfold Authorizer.finish Authorizer.assemble
  refine Reads.bind ?_ fun pending => Reads.mapError _ ?_
  · refine (p.reads_nowUtc resolver hclock).bind fun now => (Reads.check _ _).bind fun evidence => ?_
    refine (p.reads_occurrenceFor resolver hclock cx).bind fun occurrence => ?_
    exact (Reads.check _ _).bind fun entry => Reads.pure _
  · refine (p.reads_record resolver _).bind fun answer => (Reads.check _ _).bind fun _ => ?_
    exact (p.reads_observe resolver _).bind fun _ => Reads.pure _

end Reads

/-! ## The sink changes by records and observations only -/

/-- What a call does to the state of the sink and the observer. -/
def write : Call R A T → S → S
  | .record entry _, s => (p.auditSink entry s).2
  | .observe summary, s => p.observer summary s
  | _, s => s

/-- The state of the sink and the observer. -/
def sink (w : (S × G) × E) : S := w.1.1

section Logs

variable {Resolver : Type} (resolver : Resolver)

theorem logs_nowUtc {ε : Type} :
    Logs sink p.write ((p.authorizer resolver).nowUtc : Act _ (Call R A T) ε _) :=
  Logs.call fun _ => rfl

theorem logs_occurrenceFor (cx : Context) :
    Logs sink p.write ((p.authorizer resolver).occurrenceFor cx : Authorizer.Run _ R A T _) := by
  unfold Authorizer.occurrenceFor
  cases cx.decisionAuditOccurrence with
  | some o => exact Logs.pure o
  | none =>
    refine Logs.bind (Logs.call fun _ => rfl) fun id => ?_
    exact (p.logs_nowUtc resolver).bind fun now => Logs.check _ _

variable [Lattice O] [DecidableEq O] [Serialize O]

theorem logs_finish (policy : Policy O) (anchor : PolicyAnchor) (required : Option (List FactId))
    (cx : Context) (resolution : FactResolution KnownFacts) :
    Logs sink p.write ((p.authorizer resolver).finish policy anchor required cx resolution :
      Authorizer.Run _ R A T _) := by
  unfold Authorizer.finish Authorizer.assemble
  refine Logs.bind ?_ fun pending => Logs.mapError _ ?_
  · refine (p.logs_nowUtc resolver).bind fun now => (Logs.check _ _).bind fun evidence => ?_
    refine (p.logs_occurrenceFor resolver cx).bind fun occurrence => ?_
    exact (Logs.check _ _).bind fun entry => Logs.pure _
  · refine Logs.bind (Logs.call fun _ => rfl) fun answer => (Logs.check _ _).bind fun _ => ?_
    exact Logs.bind (Logs.call fun _ => rfl) fun _ => Logs.pure _

theorem logs_authorize (policy : PreparedPolicy O) (cx : Context) :
    Logs sink p.write (p.single.authorize policy cx : Authorizer.Run _ R A T _) := by
  unfold Authorizer.authorize Authorizer.run Authorizer.checkContext
  refine ((p.logs_nowUtc _).bind fun now => Logs.check _ _).bind fun _ => ?_
  refine Logs.bind (Logs.call fun _ => rfl) fun answer => (Logs.check _ _).bind fun resolution => ?_
  exact p.logs_finish _ _ _ _ _ _

end Logs

/-- Calls without effects leave the sink as it was. -/
theorem foldl_write_of_quiet {calls : List (Call R A T)} (h : effects calls = []) (s : S) :
    calls.foldl (fun s c => p.write c s) s = s := by
  induction calls with
  | nil => rfl
  | cons c calls ih =>
    rw [effects, List.filter_eq_nil_iff, List.forall_mem_cons] at h
    obtain ⟨hc, hcalls⟩ := h
    have hwrite : p.write c s = s := by
      cases c <;> first | rfl | exact absurd rfl hc
    rw [List.foldl_cons, hwrite]
    exact ih (List.filter_eq_nil_iff.mpr hcalls)

variable [Lattice O] [DecidableEq O] [Serialize O]

/-- A failure other than of the sink leaves the sink and the observer as it found them. -/
theorem sink_of_failed (policy : PreparedPolicy O) (cx : Context) (w : (S × G) × E)
    {e : AuthorizationError R A}
    (h : ((p.single.authorize policy cx : Authorizer.Run _ R A T _) w).result = .error e)
    (he : e.isAudit = false) :
    sink ((p.single.authorize policy cx : Authorizer.Run _ R A T _) w).world = sink w := by
  have hboundary := p.single.boundary_run (T := T) policy.policy policy.anchor policy.required cx
    true w
  change Boundary _ _ (p.single.authorize policy cx w).result _ at hboundary
  rw [h] at hboundary
  obtain ⟨hquiet, -⟩ | ⟨entry, source, -, rfl⟩ := hboundary
  · rw [p.logs_authorize policy cx w]
    exact p.foldl_write_of_quiet hquiet _
  · cases he

/-! ## Item by item -/

/-- The item of a batch and the call of `authorize` that stands for it. -/
structure Matches (item call : Ran ((S × G) × E) (Call R A T)
    (Except (AuthorizationError R A) (AuthorizationDecision O))) : Prop where
  result : item.result = call.result
  effects : effects item.calls = effects call.calls
  left : item.world.1 = call.world.1

omit [Lattice O] [DecidableEq O] [Serialize O] in
theorem effects_of_matches {items calls : List (Ran ((S × G) × E) (Call R A T)
    (Except (AuthorizationError R A) (AuthorizationDecision O)))}
    (h : List.Forall₂ Matches items calls) :
    Gatekeep.effects (items.map Ran.calls).flatten =
      (calls.map fun r => Gatekeep.effects r.calls).flatten := by
  induction h with
  | nil => rfl
  | cons hmatch _ ih => simp [hmatch.effects, ih]

section Pointwise

variable {policy : PreparedPolicy O} {t : OffsetDateTime} {answer : Context → ResolveResult R}
  (hclock : ∀ e, (p.clock e).1 = t)

include hclock in
theorem nowUtc_eq {Resolver ε : Type} (resolver : Resolver) (w : (S × G) × E) :
    ((p.authorizer resolver).nowUtc : Act _ (Call R A T) ε _) w =
      ⟨.ok t, [.now t], (w.1, (p.clock w.2).2)⟩ := by
  simp only [Authorizer.nowUtc, Act.call, authorizer, hclock]

include hclock in
/-- A valid context whose facts are answered goes straight to its item. -/
theorem authorize_eq {cx : Context} (hvalid : cx.validateAt t = .ok ())
    (hanswer : ∀ e, (p.resolver.resolveForDecision policy.required cx e).1 = answer cx)
    (w : (S × G) × E) :
    ∃ e, (p.single.authorize policy cx : Authorizer.Run _ R A T _) w =
      (p.batch.finishItem policy cx (answer cx) (w.1, e)).after [.now t, .resolve (answer cx)] := by
  have hcheck : (p.single.checkContext cx : Authorizer.Run _ R A T _) w =
      ⟨.ok (), [.now t], (w.1, (p.clock w.2).2)⟩ := by
    have hnow : (p.single.nowUtc : Authorizer.Run _ R A T _) w = _ := p.nowUtc_eq hclock _ w
    unfold Authorizer.checkContext
    rw [Act.bind_of_ok hnow, hvalid]
    rfl
  refine ⟨(p.resolver.resolveForDecision policy.required cx (p.clock w.2).2).2, ?_⟩
  unfold Authorizer.authorize Authorizer.run Authorizer.resolve
  rw [Act.bind_of_ok hcheck, Act.bind_call]
  have hstep : (p.single.resolver.resolveForDecision policy.required cx
      (w.1, (p.clock w.2).2)).1 = answer cx := hanswer _
  rw [hstep, Ran.after_after]
  rfl

include hclock in
theorem matches_item {cx : Context} (hvalid : cx.validateAt t = .ok ())
    (hanswer : ∀ e, (p.resolver.resolveForDecision policy.required cx e).1 = answer cx)
    {w w' : (S × G) × E} (hw : w.1 = w'.1) :
    Matches ((p.batch.finishItem policy cx (answer cx) : Authorizer.Run _ R A T _) w)
      (p.single.authorize policy cx w') := by
  obtain ⟨e, hrun⟩ := p.authorize_eq (T := T) hclock hvalid hanswer w'
  have hreads : Reads Prod.fst
      (p.batch.finishItem policy cx (answer cx) : Authorizer.Run _ R A T _) :=
    (Reads.check _ _).bind fun resolution => p.reads_finish _ hclock _ _ _ _ _
  have hagree := hreads w (w'.1, e) hw
  rw [hrun]
  refine ⟨hagree.result, ?_, hagree.world⟩
  show effects _ = effects ([.now t, .resolve (answer cx)] ++ _)
  rw [effects_append, hagree.calls]
  rfl

include hclock in
/-- The loop over the items against the calls in sequence. -/
theorem matches_each {contexts : List Context}
    (hvalid : ∀ cx ∈ contexts, cx.validateAt t = .ok ())
    (hanswer : ∀ cx ∈ contexts, ∀ e,
      (p.resolver.resolveForDecision policy.required cx e).1 = answer cx)
    {w w' : (S × G) × E} (hw : w.1 = w'.1) :
    let step := fun item : Context × ResolveResult R =>
      (p.batch.finishItem policy item.1 item.2 : Authorizer.Run _ R A T _)
    let items := contexts.zip (contexts.map answer)
    List.Forall₂ Matches (Act.each step items w)
        (Act.each (p.single.authorize policy) contexts w') ∧
      (Act.afterEach step items w).1 =
        (Act.afterEach (p.single.authorize policy : _ → Authorizer.Run _ R A T _) contexts w').1 := by
  induction contexts generalizing w w' with
  | nil => exact ⟨.nil, hw⟩
  | cons cx contexts ih =>
    intro step items
    rw [List.forall_mem_cons] at hvalid hanswer
    have hmatch := p.matches_item (T := T) hclock hvalid.1 hanswer.1 hw
    obtain ⟨hrest, hworld⟩ := ih hvalid.2 hanswer.2 hmatch.left
    exact ⟨.cons hmatch hrest, hworld⟩

include hclock in
/-- Every context is valid, so the load is reached with sink and identities untouched. -/
theorem checkContexts_eq {contexts : List Context}
    (hvalid : ∀ cx ∈ contexts, cx.validateAt t = .ok ()) (index : Nat) (w : (S × G) × E) :
    ∃ calls e, effects calls = [] ∧
      (p.batch.checkContexts contexts index : Act _ (Call R A T) (BatchError R) _) w =
        ⟨.ok (), calls, (w.1, e)⟩ := by
  induction contexts generalizing index w with
  | nil => exact ⟨[], w.2, rfl, rfl⟩
  | cons cx contexts ih =>
    rw [List.forall_mem_cons] at hvalid
    obtain ⟨calls, e, hcalls, hrun⟩ := ih hvalid.2 (index + 1) (w.1, (p.clock w.2).2)
    refine ⟨.now t :: calls, e, by rw [effects_cons_quiet rfl, hcalls], ?_⟩
    have hnow : (p.batch.nowUtc : Act _ (Call R A T) (BatchError R) _) w = _ :=
      p.nowUtc_eq hclock _ w
    unfold Authorizer.checkContexts
    rw [Act.bind_of_ok hnow, hvalid.1, Act.bind_check_ok, hrun]
    rfl

include hclock in
/-- The batch as one load and a loop over its items. -/
theorem authorizeBatch_eq {contexts : List Context} {limit : Nat}
    (hlimit : contexts.length ≤ limit) (hvalid : ∀ cx ∈ contexts, cx.validateAt t = .ok ())
    (hbatch : ∀ e, (p.resolver.resolveBatch policy.required contexts e).1 =
      .ok (contexts.map answer)) (w : (S × G) × E) :
    let step := fun item : Context × ResolveResult R =>
      (p.batch.finishItem policy item.1 item.2 : Authorizer.Run _ R A T _)
    let items := contexts.zip (contexts.map answer)
    ∃ before e, effects before = [] ∧ p.batch.authorizeBatch policy contexts limit w =
      ⟨.ok ((Act.each step items (w.1, e)).map Ran.result),
        before ++ ((Act.each step items (w.1, e)).map Ran.calls).flatten,
        Act.afterEach step items (w.1, e)⟩ := by
  intro step items
  unfold Authorizer.authorizeBatch
  rw [if_neg (not_lt.mpr hlimit)]
  cases hcontexts : contexts with
  | nil =>
    subst hcontexts
    exact ⟨[], w.2, rfl, rfl⟩
  | cons cx rest =>
    rw [← hcontexts, if_neg (by simp [hcontexts])]
    beta_reduce
    obtain ⟨checks, e, hchecks, hrun⟩ := p.checkContexts_eq (T := T) hclock hvalid 0 w
    have hload : (p.batch.resolver.resolveBatch policy.required contexts (w.1, e)).1 =
        .ok (contexts.map answer) := hbatch e
    rw [Act.bind_of_ok hrun, Act.bind_call, hload, Act.bind_check_ok, if_neg (by simp)]
    beta_reduce
    rw [p.batch.finishItems_eq policy items, Ran.after_after]
    refine ⟨checks ++ [.resolveBatch (.ok (contexts.map answer))],
      (p.resolver.resolveBatch policy.required contexts e).2, ?_, rfl⟩
    rw [effects_append, hchecks]
    rfl

/-- Batch authorization is pointwise authorization. With a clock that stands still and a bulk load
that answers as the single loads do, every item has the result of authorizing its context where the
items before it left the sink, records and publishes the same, and leaves the sink in the same
state. A failure other than of the sink leaves the sink and the observer as they were; and
whatever the outside does, a batch that fails as a whole does not touch them. -/
theorem authorizeBatch_pointwise (policy : PreparedPolicy O) (contexts : List Context)
    (limit : Nat) (t : OffsetDateTime) (answer : Context → ResolveResult R)
    (hlimit : contexts.length ≤ limit) (hvalid : ∀ cx ∈ contexts, cx.validateAt t = .ok ())
    (hclock : ∀ e, (p.clock e).1 = t)
    (hanswer : ∀ cx ∈ contexts, ∀ e,
      (p.resolver.resolveForDecision policy.required cx e).1 = answer cx)
    (hbatch : ∀ e, (p.resolver.resolveBatch policy.required contexts e).1 =
      .ok (contexts.map answer)) (w : (S × G) × E) :
    let ran := p.batch.authorizeBatch (T := T) policy contexts limit w
    let calls := Act.each (p.single.authorize policy : _ → Authorizer.Run _ R A T _) contexts w
    (∃ before items, effects before = [] ∧
      ran.calls = before ++ (items.map Ran.calls).flatten ∧
      ran.result = .ok (items.map Ran.result) ∧ items.length = contexts.length ∧
      List.Forall₂ Matches items calls) ∧
    effects ran.calls = (calls.map fun r => effects r.calls).flatten ∧
    ran.world.1 = (Act.afterEach (p.single.authorize policy : _ → Authorizer.Run _ R A T _)
      contexts w).1 ∧
    (∀ cx w e, ((p.single.authorize policy cx : Authorizer.Run _ R A T _) w).result = .error e →
      e.isAudit = false →
      sink ((p.single.authorize policy cx : Authorizer.Run _ R A T _) w).world = sink w) ∧
    ∀ {σ : Type} (a : Authorizer σ (BatchFactResolver σ R) A) (contexts : List Context)
      (limit : Nat) (w : σ) (e : BatchError R),
      (a.authorizeBatch (T := T) policy contexts limit w).result = .error e →
      effects (a.authorizeBatch (T := T) policy contexts limit w).calls = [] := by
  intro ran calls
  obtain ⟨before, e, hbefore, hrun⟩ := p.authorizeBatch_eq (T := T) hclock hlimit hvalid hbatch w
  obtain ⟨hmatches, hworld⟩ := p.matches_each (T := T) hclock hvalid hanswer
    (show ((w.1, e) : (S × G) × E).1 = w.1 from rfl)
  refine ⟨⟨before, _, hbefore, congrArg Ran.calls hrun, congrArg Ran.result hrun, ?_, hmatches⟩,
    ?_, ?_, ?_, ?_⟩
  · rw [Act.length_each, List.length_zip, List.length_map, Nat.min_self]
  · rw [show ran = _ from hrun, effects_append, hbefore, List.nil_append]
    exact effects_of_matches hmatches
  · rw [show ran = _ from hrun]
    exact hworld
  · exact fun cx w e he haudit => p.sink_of_failed policy cx w he haudit
  · intro σ a contexts limit w e he
    obtain ⟨e', calls, w', hrun, hcalls⟩ | ⟨before, resolutions, ran, w', hrun, -⟩ :=
      a.authorizeBatch_cases (T := T) policy contexts limit w
    · rw [hrun]
      exact hcalls
    · rw [hrun] at he
      cases he

end Pointwise

end Parts

namespace Sample

/-- The sink takes one entry and refuses the next ones. -/
def takesOne : Parts Nat Nat Unit Unit Unit where
  resolver := {
    resolveForDecision := fun _ _ e => (.ok (nothingKnown noon), e)
    resolveBatch := fun _ contexts e => (.ok (contexts.map fun _ => .ok (nothingKnown noon)), e) }
  auditSink _ n := (if n = 0 then .ok () else .error (), n + 1)
  observer _ n := n
  clock e := (noon, e)
  ids n := (generatedId, n + 1)
  digest _ := .ok ⟨Vector.replicate 32 0⟩

end Sample

open Sample in
theorem authorizeBatch_takesOne :
    effects (takesOne.batch.authorizeBatch (T := Unit) everyone [request, request] 2
        ((0, 0), ())).calls =
      ((Act.each (takesOne.single.authorize everyone : _ → Authorizer.Run _ Unit Unit Unit _)
        [request, request] ((0, 0), ())).map fun r => effects r.calls).flatten :=
  (takesOne.authorizeBatch_pointwise everyone [request, request] 2 noon
    (fun _ => .ok (nothingKnown noon)) (by decide) (by decide) (fun _ => rfl) (fun _ _ _ => rfl)
    (fun _ => rfl) ((0, 0), ())).2.1

end Gatekeep
