import Gatekeep.Authorization.Boundary
import Gatekeep.Completion
import Gatekeep.Denial

/-!
# Gatekeep.Coherence

A completed decision can always be audited.

An audit entry holds one decision several times over: as effect, clause, trace, consulted facts,
obligations and the numbered parameters of its denial reason. `Decision.Coherent` is what the
evaluators guarantee of these; `denialReason_matches` is what the denial reason of a coherent
decision looks like; `fromDecision_ne_entry` is that the check of an entry never fails for the
decisions of `evaluate`.
-/

namespace Gatekeep

/-! ## Coherent decisions -/

section Coherent

variable {O : Type}

/-- A permit has the clause that grants its outcome; a denial has a deny clause and no
obligations. -/
structure Decision.Coherent (d : Decision O) : Prop where
  permit : ∀ o, d.effect = .permit o ↔
    ∃ satisfied label, d.trace.decisive = .permit o satisfied label
  deny : d.effect = .deny → d.obligations = [] ∧
    ∃ denied unsatisfied label reason shape,
      d.trace.decisive = .deny denied unsatisfied label reason shape

theorem Decision.coherent_of_result {r : EvalResult O} (h : r.Coherent) (consulted : Consulted) :
    Decision.Coherent ⟨r.effect, r.obligations, ⟨consulted, r.decisive⟩⟩ := by
  cases h with
  | permit o obs satisfied label =>
    refine ⟨fun o' => ?_, fun h => (nomatch h)⟩
    simp
  | deny denied unsatisfied label reason shape =>
    refine ⟨fun o' => ?_, fun _ => ⟨rfl, denied, unsatisfied, label, reason, shape, rfl⟩⟩
    simp

theorem Decision.Coherent.withConsulted {d : Decision O} (h : d.Coherent) (consulted : Consulted) :
    (withConsulted d consulted).Coherent := ⟨h.permit, h.deny⟩

/-- Of a coherent decision only the first arm of each match in `policy_from_decision` is taken. -/
theorem Decision.Coherent.policyFromDecision {d : Decision O} (h : d.Coherent) :
    (∃ o satisfied label,
      policyFromDecision d = .permitWithTrace o d.obligations satisfied label) ∨
      ∃ denied unsatisfied label reason shape,
        policyFromDecision d = .denyWithTrace denied unsatisfied label reason shape := by
  unfold Gatekeep.policyFromDecision
  cases he : d.effect with
  | permit o =>
    obtain ⟨satisfied, label, hc⟩ := (h.permit o).mp he
    rw [hc]
    exact .inl ⟨o, satisfied, label, rfl⟩
  | deny =>
    obtain ⟨-, denied, unsatisfied, label, reason, shape, hc⟩ := h.deny he
    rw [hc]
    exact .inr ⟨denied, unsatisfied, label, reason, shape, rfl⟩

variable [Lattice O] [DecidableEq O]

theorem coherent_evaluate (p : Policy O) (facts : KnownFacts) : (evaluate p facts).Coherent := by
  rw [evaluate_eq]
  exact Decision.coherent_of_result (p.coherent_resultWith (Grant.coherent_result _)) _

theorem coherent_evaluateResidual (r : ResidualPolicy O) (facts : KnownFacts) :
    (evaluateResidual r facts).Coherent := by
  rw [evaluateResidual_eq]
  exact Decision.coherent_of_result (r.coherent_result _) _

theorem coherent_partialEvaluate {p : Policy O} {facts : PartialFacts} {d : Decision O}
    (h : partialEvaluate p facts = .resolved d) : d.Coherent := by
  rw [partialEvaluate, reducePolicy_eq, Policy.reduced] at h
  split at h
  · cases h
    exact Decision.coherent_of_result p.coherent_settledResult _
  · cases h

theorem coherent_completeResidual {residual : Residual O} (facts : KnownFacts)
    (h : ∀ d, residual = .resolved d → d.Coherent) :
    (completeResidual residual facts).Coherent := by
  cases residual with
  | resolved d => exact h d rfl
  | pending r consulted => exact (coherent_evaluateResidual r facts).withConsulted _

end Coherent

/-! ## Building the entry -/

theorem AuditRecord.observationsMatch_eq_ok {consulted : Consulted} {os : List FactObservation} :
    observationsMatch consulted os = .ok () ↔
      ∀ o ∈ os, ∀ e ∈ consulted, e.1 = o.fact → e.2 = o.expected := by
  induction os with
  | nil => simp [observationsMatch]
  | cons o os ih =>
    rw [observationsMatch, List.forall_mem_cons, ← ih]
    split
    · rename_i hany
      obtain ⟨e, he, hne⟩ := List.any_eq_true.mp hany
      rw [Bool.and_eq_true, beq_iff_eq, bne_iff_ne] at hne
      refine ⟨fun h => (nomatch h), fun h => ?_⟩
      exact absurd (h.1 e he hne.1) hne.2
    · rename_i hnone
      refine ⟨fun h => ⟨fun e he hfact => ?_, h⟩, fun h => h.2⟩
      by_contra hne
      refine hnone (List.any_eq_true.mpr ⟨e, he, ?_⟩)
      rw [Bool.and_eq_true, beq_iff_eq, bne_iff_ne]
      exact ⟨hfact, hne⟩

section Entry

variable {O : Type} [Lattice O] [DecidableEq O] [Serialize O]

omit [Serialize O] in
/-- The facts a decision read are the ones its evidence retains. -/
theorem observationsMatch_evaluate {p : Policy O} {resolution : FactResolution KnownFacts}
    {digest : KnownFacts → Except PostcardError EvidenceDigest} {evidence : FactResolutionEvidence}
    (h : FactResolutionEvidence.fromResolution digest resolution = .ok evidence) :
    AuditRecord.observationsMatch (evaluate p resolution.facts).trace.consulted
      evidence.observations = .ok () := by
  obtain ⟨hobservations, hfacts⟩ := FactResolutionEvidence.observations_fromResolution h
  rw [hobservations, AuditRecord.observationsMatch_eq_ok]
  intro o ho e he hfact
  obtain ⟨-, hpresence⟩ := consulted_evaluate he
  rw [hpresence, hfact, KnownFacts.presence, Facts.presence_eq]
  exact congrArg (·.getD .absent) (hfacts o ho)

omit [Lattice O] [DecidableEq O] in
/-- The duplicated fields of a coherent decision pass their check. -/
theorem validateAuditSemantics_of_coherent {d : Decision O} (h : d.Coherent) {trace : Trace}
    {reason : Option DenialReason} (htrace : d.toTrace = .ok trace)
    (hreason : d.denialReason = .ok reason) :
    validateAuditSemantics d.effectKind d.obligations trace.consulted trace.decisive reason trace =
      .ok () := by
  obtain ⟨clause, hclause, rfl⟩ := Result.map_eq_ok.mp htrace
  unfold validateAuditSemantics Decision.effectKind
  cases he : d.effect with
  | permit o =>
    obtain ⟨satisfied, label, hc⟩ := (h.permit o).mp he
    rw [hc] at hclause
    obtain ⟨value, -, rfl⟩ := Result.map_eq_ok.mp hclause
    have hnone : reason = none := by
      unfold Decision.denialReason at hreason
      rw [he] at hreason
      cases hreason
      rfl
    simp [hnone]
  | deny =>
    obtain ⟨hobligations, denied, unsatisfied, label, code, shape, hc⟩ := h.deny he
    have hmatches := Decision.denialReason_matches he hc hclause hreason
    rw [hc] at hclause
    cases denied with
    | none =>
      cases hclause
      simp [hobligations, hmatches]
    | some outcome =>
      obtain ⟨value, -, rfl⟩ := Result.map_eq_ok.mp hclause
      simp [hobligations, hmatches]

/-- The entry of a decision of `evaluate` passes every check; only serializing its outcome can
fail. -/
theorem fromDecision_ne_entry {p : Policy O} {resolution : FactResolution KnownFacts}
    {digest : KnownFacts → Except PostcardError EvidenceDigest} {evidence : FactResolutionEvidence}
    {occurrence : DecisionAuditOccurrence} (anchor : PolicyAnchor) (cx : Context)
    (hevidence : FactResolutionEvidence.fromResolution digest resolution = .ok evidence)
    (hoccurrence : occurrence.validate = .ok ()) (e : AuditEntryError) :
    AuditEntry.fromDecision occurrence anchor (evaluate p resolution.facts) cx evidence ≠
      .error (.entry e) := by
  unfold AuditEntry.fromDecision
  cases htrace : (evaluate p resolution.facts).toTrace with
  | error e => nofun
  | ok trace =>
    cases hreason : (evaluate p resolution.facts).denialReason with
    | error e => nofun
    | ok reason =>
      have hconsulted : trace.consulted = (evaluate p resolution.facts).trace.consulted := by
        obtain ⟨clause, -, rfl⟩ := Result.map_eq_ok.mp htrace
        rfl
      intro h
      obtain ⟨entry, hentry⟩ : ∃ entry, AuditEntry.new occurrence {
          requestId := cx.requestId
          anchor
          effect := (evaluate p resolution.facts).effectKind
          obligations := (evaluate p resolution.facts).obligations
          consulted := trace.consulted
          decisive := trace.decisive
          denialReason := reason
          trace
          binding := cx.binding
          factResolution := evidence
          tenant := cx.tenant
          principal := cx.principal
          subjects := cx.subjects
          locale := cx.locale } = .ok entry := by
        refine ⟨⟨_, AuditRecord.validateCurrent_eq_ok.mpr ?_⟩,
          AuditEntry.new_eq_ok.mpr ⟨hoccurrence, rfl⟩⟩
        refine ⟨.inr rfl,
          fun h => absurd (show auditEntrySchemaVersion = 1 from h) (by decide), ?_, hoccurrence,
          cx.bound.symm, ?_⟩
        · exact hconsulted ▸ observationsMatch_evaluate hevidence
        · exact validateAuditSemantics_of_coherent (coherent_evaluate p resolution.facts) htrace hreason
      simp only [Except.mapError, Result.ok_bind, hentry] at h
      cases h

open Traced in
/-- Assembling a decision never fails over its entry. -/
theorem Authorizer.assemble_ne_auditEntry {σ Resolver R A T : Type} (a : Authorizer σ Resolver A)
    (policy : Policy O) (anchor : PolicyAnchor) (required : Option (List FactId)) (cx : Context)
    (resolution : FactResolution KnownFacts) (w : σ)
    (hcx : ∀ o, cx.decisionAuditOccurrence = some o → o.validate = .ok ()) (e : AuditEntryError) :
    ((a.assemble policy anchor required cx resolution : Run σ R A T _) w).result ≠
      .error (.auditEntry e) := by
  have hclock : (a.nowUtc : Run σ R A T _) w =
      ⟨.ok (a.clock w).1, [.now (a.clock w).1], (a.clock w).2⟩ := rfl
  unfold assemble
  rw [Act.bind_of_ok hclock]
  obtain ⟨e', he', hrun⟩ | ⟨evidence, hevidence, hrun⟩ := Act.check_cases id
    (a.receive required cx resolution (a.clock w).1 : Except (AuthorizationError R A) _) _ _
  · rw [hrun]
    obtain ⟨error, rfl⟩ | ⟨error, rfl⟩ | ⟨error, rfl⟩ := a.receive_error_cases he' <;> nofun
  rw [hrun]
  obtain ⟨-, -, -, hbuilt⟩ := a.receive_eq_ok.mp hevidence
  obtain ⟨calls, w', -, ⟨o, ho, hsource⟩ | ⟨e', he'⟩⟩ := a.occurrenceFor_cases cx (a.clock w).2
  swap
  · rw [Act.bind_of_error he']
    nofun
  rw [Act.bind_of_ok ho]
  have hoccurrence : o.validate = .ok () := by
    rcases hsource with hsome | ⟨-, id, t, hnew⟩
    · exact hcx o hsome
    · exact DecisionAuditOccurrence.validate_of_new hnew
  obtain ⟨e', he', hrun⟩ | ⟨entry, -, hrun⟩ := Act.check_cases AuthorizationError.ofConstruction
    (AuditEntry.fromDecision o anchor (evaluate policy resolution.facts) cx evidence) _ _
  · rw [hrun]
    cases e' with
    | trace error => nofun
    | entry error => exact absurd he' (fromDecision_ne_entry anchor cx hbuilt hoccurrence error)
  · rw [hrun]
    nofun

end Entry

/-- A completed decision can always be audited: its entry passes every check and its denial reason
has an identity, for every policy, context, resolution and occurrence, so that assembling never
fails over an entry. Every decision of the evaluators is coherent, so that a decision is turned
back into a policy by the matching arms only. -/
theorem completed_decisions_auditable {O : Type} [Lattice O] [DecidableEq O] [Serialize O] :
    (∀ (p : Policy O) (cx : Context) (anchor : PolicyAnchor)
      (digest : KnownFacts → Except PostcardError EvidenceDigest)
      (resolution : FactResolution KnownFacts) (evidence : FactResolutionEvidence)
      (id : DecisionAuditId) (t : OffsetDateTime) (occurrence : DecisionAuditOccurrence),
      FactResolutionEvidence.fromResolution digest resolution = .ok evidence →
      DecisionAuditOccurrence.new id t = .ok occurrence →
      (∀ e, AuditEntry.fromDecision occurrence anchor (evaluate p resolution.facts) cx evidence ≠
        .error (.entry e)) ∧
      ∀ e, (evaluate p resolution.facts).denialReason ≠ .error (.identity e)) ∧
    (∀ {σ Resolver R A T : Type} (a : Authorizer σ Resolver A) (p : Policy O)
      (anchor : PolicyAnchor) (required : Option (List FactId)) (cx : Context)
      (resolution : FactResolution KnownFacts) (w : σ),
      (∀ o, cx.decisionAuditOccurrence = some o →
        ∃ id t, DecisionAuditOccurrence.new id t = .ok o) →
      ∀ e, ((a.assemble p anchor required cx resolution : Authorizer.Run σ R A T _) w).result ≠
        .error (.auditEntry e)) ∧
    (∀ (p : Policy O) (facts : KnownFacts), (evaluate p facts).Coherent) ∧
    (∀ (r : ResidualPolicy O) (facts : KnownFacts), (evaluateResidual r facts).Coherent) ∧
    (∀ (p : Policy O) (facts : PartialFacts) (d : Decision O),
      partialEvaluate p facts = .resolved d → d.Coherent ∧
        ((∃ o satisfied label,
          policyFromDecision d = .permitWithTrace o d.obligations satisfied label) ∨
        ∃ denied unsatisfied label reason shape,
          policyFromDecision d = .denyWithTrace denied unsatisfied label reason shape)) ∧
    (∀ (p : Policy O) (facts : PartialFacts) (known : KnownFacts),
      (completeResidual (partialEvaluate p facts) known).Coherent) ∧
    ∀ (r : ResidualPolicy O) (consulted : Consulted) (known : KnownFacts),
      (completeResidual (.pending r consulted) known).Coherent := by
  refine ⟨?_, ?_, coherent_evaluate, coherent_evaluateResidual, ?_, ?_, ?_⟩
  · intro p cx anchor digest resolution evidence id t occurrence hevidence hnew
    have hoccurrence := DecisionAuditOccurrence.validate_of_new hnew
    exact ⟨fun e => fromDecision_ne_entry anchor cx hevidence hoccurrence e,
      fun e => Decision.denialReason_ne_identity _ e⟩
  · intro σ Resolver R A T a p anchor required cx resolution w hcx e
    refine a.assemble_ne_auditEntry p anchor required cx resolution w (fun o ho => ?_) e
    obtain ⟨id, t, hnew⟩ := hcx o ho
    exact DecisionAuditOccurrence.validate_of_new hnew
  · intro p facts d h
    have hcoherent := coherent_partialEvaluate h
    exact ⟨hcoherent, hcoherent.policyFromDecision⟩
  · intro p facts known
    exact coherent_completeResidual known fun d hd => coherent_partialEvaluate hd
  · intro r consulted known
    exact coherent_completeResidual known fun d hd => (nomatch hd)

namespace Sample

/-- Reading is refused, with a reason, to those who do not own. -/
def ownersOnly : Policy Unit := .grant ⟨(), .has owner, none, .forbidden, [], some notOwner⟩

theorem owner_observable : observationIdentityValid owner = true := by decide

theorem noon_window : freshnessWindow (metadataFreshUntil none) noon = .ok () := rfl

/-- The principal is observed not to own. -/
def noOwnerObserved : FactResolution KnownFacts where
  facts := KnownFacts.new.withAbsent owner
  metadata := none
  observedAt := noon
  observations := [⟨owner, false, none, noon, owner_observable, noon_window⟩]
  window := noon_window
  canonical := ⟨by decide, List.pairwise_singleton _ _⟩

end Sample

open Sample in
theorem completed_decisions_auditable_owner :
    ∃ evidence, FactResolutionEvidence.fromResolution (fun _ => .ok ⟨Vector.replicate 32 0⟩)
        noOwnerObserved = .ok evidence ∧
      DecisionAuditOccurrence.new occurrence.decisionAuditId noon = .ok occurrence ∧
      AuditEntry.fromDecision occurrence anchor (evaluate ownersOnly noOwnerObserved.facts) request
        evidence ≠ .error (.entry .denialReasonMismatch) := by
  have hnew : DecisionAuditOccurrence.new occurrence.decisionAuditId noon = .ok occurrence := rfl
  refine ⟨_, rfl, hnew, ?_⟩
  have haudited := completed_decisions_auditable.1 ownersOnly request anchor
    (fun _ => .ok ⟨Vector.replicate 32 0⟩) noOwnerObserved _ _ noon occurrence rfl hnew
  exact haudited.1 .denialReasonMismatch

end Gatekeep
