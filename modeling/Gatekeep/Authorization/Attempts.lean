import Gatekeep.Authorization.Boundary

/-!
# Gatekeep.Authorization.Attempts

`authorize_recording_attempts`: a failed authorization is recorded once, as a decision that could
not be persisted or as an attempt.

`authorizeRecordingAttempts_cases` says what a run does after the authorization it wraps. The
attempt is validated at its own clock reading, which may refuse a context that was valid before.
An error of the occurrence is not recorded at all: the same clock that could not date the decision
would have to date the attempt.
-/

namespace Gatekeep

open Traced

variable {σ R A T O : Type}

/-- The entries given to the decision sink. -/
def decisionRecords (calls : List (Call R A T)) : List (AuditEntry × Except A Unit) :=
  calls.filterMap fun
    | .record entry answer => some (entry, answer)
    | _ => none

/-- The entries given to the attempt sink. -/
def attemptRecords (calls : List (Call R A T)) : List (AuthorizationAttempt × Except T Unit) :=
  calls.filterMap fun
    | .recordAttempt entry answer => some (entry, answer)
    | _ => none

theorem decisionRecords_append (c d : List (Call R A T)) :
    decisionRecords (c ++ d) = decisionRecords c ++ decisionRecords d := List.filterMap_append ..

theorem attemptRecords_append (c d : List (Call R A T)) :
    attemptRecords (c ++ d) = attemptRecords c ++ attemptRecords d := List.filterMap_append ..

/-- Both are read off the effects. -/
theorem decisionRecords_effects (calls : List (Call R A T)) :
    decisionRecords (effects calls) = decisionRecords calls := by
  unfold decisionRecords effects
  rw [List.filterMap_filter]
  congr 1
  funext c
  cases c <;> rfl

theorem attemptRecords_effects (calls : List (Call R A T)) :
    attemptRecords (effects calls) = attemptRecords calls := by
  unfold attemptRecords effects
  rw [List.filterMap_filter]
  congr 1
  funext c
  cases c <;> rfl

/-- An attempt that stands for a failed authorization of `cx`. -/
structure AuthorizationAttempt.Describes (entry : AuthorizationAttempt) (anchor : PolicyAnchor)
    (cx : Context) : Prop where
  anchor : entry.anchor = anchor
  tenant : entry.tenant = cx.tenant
  binding : entry.binding = cx.binding
  principal : entry.principal = cx.principal
  subjects : entry.subjects = cx.subjects
  requested : entry.requestId = cx.requestId

namespace Authorizer

theorem describes_of_newAttempt {anchor : PolicyAnchor} {cx : Context} {failure : AttemptFailure}
    {id : DecisionAuditId} {now : OffsetDateTime} {entry : AuthorizationAttempt}
    (h : newAttempt anchor cx failure id now = .ok entry) : entry.Describes anchor cx := by
  unfold newAttempt at h
  obtain ⟨occurrence, -, hnew⟩ := Result.bind_eq_ok.mp h
  unfold AuthorizationAttempt.new at hnew
  obtain ⟨-, hrecord⟩ := Result.check_eq_ok.mp hnew
  unfold AuthorizationAttempt.ofRecord at hrecord
  split at hrecord
  · cases hrecord
  · cases hrecord
    exact ⟨rfl, rfl, rfl, rfl, rfl, rfl⟩

variable [Lattice O] [DecidableEq O] [Serialize O] (a : Authorizer σ (FactResolver σ R) A)

/-- What follows the authorization: nothing after a decision or an error that is not to be recorded,
and otherwise a clock reading, an identity, and one attempt if one can be built. -/
theorem authorizeRecordingAttempts_cases (policy : PreparedPolicy O) (cx : Context)
    (attempts : AuthorizationAttempt → σ → Except T Unit × σ) (w : σ) :
    (∃ d calls w', a.authorize policy cx w = ⟨.ok d, calls, w'⟩ ∧
        a.authorizeRecordingAttempts policy cx attempts w = ⟨.ok d, calls, w'⟩) ∨
      ∃ e calls w₁, a.authorize policy cx w = ⟨.error e, calls, w₁⟩ ∧
        ((e.attemptFailure = none ∧ a.authorizeRecordingAttempts policy cx attempts w =
            ⟨.error (.authorization e), calls, w₁⟩) ∨
          ∃ failure now id w', e.attemptFailure = some failure ∧
            ((∃ scope, a.authorizeRecordingAttempts policy cx attempts w =
                ⟨.error (.unscoped e scope), calls ++ [Call.now now, .generate id], w'⟩) ∨
              ∃ entry, newAttempt policy.anchor cx failure id now = .ok entry ∧
                (a.authorizeRecordingAttempts policy cx attempts w =
                    ⟨.error (.authorization e),
                      calls ++ [Call.now now, .generate id, .recordAttempt entry (.ok ())], w'⟩ ∨
                  ∃ source, a.authorizeRecordingAttempts policy cx attempts w =
                    ⟨.error (.persistence e entry source),
                      calls ++ [Call.now now, .generate id, .recordAttempt entry (.error source)],
                      w'⟩))) := by
  unfold authorizeRecordingAttempts
  have hcaught : ((a.authorize policy cx : Run σ R A T _).caught :
      Act σ (Call R A T) (AttemptAuthorizationError R A T) _) w =
        ⟨.ok (a.authorize policy cx w).result, (a.authorize policy cx w).calls,
          (a.authorize policy cx w).world⟩ := rfl
  rw [Act.bind_of_ok hcaught]
  generalize a.authorize policy cx w = first
  obtain ⟨result, calls, w₁⟩ := first
  cases result with
  | ok d => exact .inl ⟨d, calls, w₁, rfl, by simp [Ran.after, Act.pure_apply]⟩
  | error e =>
    refine .inr ⟨e, calls, w₁, rfl, ?_⟩
    dsimp only
    cases hfailure : e.attemptFailure with
    | none => exact .inl ⟨rfl, by simp [Ran.after, throw, throwThe, MonadExceptOf.throw]⟩
    | some failure =>
      simp only [nowUtc, generate, Act.bind_call]
      refine .inr ⟨failure, (a.clock w₁).1, (a.ids (a.clock w₁).2).1, ?_⟩
      cases hentry : newAttempt policy.anchor cx failure (a.ids (a.clock w₁).2).1
          (a.clock w₁).1 with
      | error scope => exact ⟨_, rfl, .inl ⟨scope, rfl⟩⟩
      | ok entry =>
        dsimp only
        rw [Act.bind_call]
        cases hanswer : (attempts entry (a.ids (a.clock w₁).2).2).1 with
        | ok _ => exact ⟨_, rfl, .inr ⟨entry, rfl, .inl rfl⟩⟩
        | error source => exact ⟨_, rfl, .inr ⟨entry, rfl, .inr ⟨source, rfl⟩⟩⟩

/-! ## Failed attempts are recorded once -/

/-- The three ways in which a failure before the decision sink ends: recorded, kept with the entry
that could not be recorded, or kept because no attempt could be built. -/
def Accounted (anchor : PolicyAnchor) (cx : Context) (e : AuthorizationError R A)
    (result : AttemptAuthorizationError R A T)
    (attempts : List (AuthorizationAttempt × Except T Unit)) : Prop :=
  (∃ entry : AuthorizationAttempt, result = .authorization e ∧ attempts = [(entry, .ok ())] ∧
    entry.Describes anchor cx) ∨
  (∃ (entry : AuthorizationAttempt) (source : T), result = .persistence e entry source ∧
    attempts = [(entry, .error source)] ∧ entry.Describes anchor cx) ∨
  ∃ scope, result = .unscoped e scope ∧ attempts = []

/-- What a call of `authorize_recording_attempts` leaves behind, with `unrecorded` the errors that
are returned as they are. -/
def RecordedOnce (unrecorded : AuthorizationError R A → Bool) (anchor : PolicyAnchor) (cx : Context)
    (authorized : Except (AuthorizationError R A) (AuthorizationDecision O))
    (result : Except (AttemptAuthorizationError R A T) (AuthorizationDecision O))
    (calls : List (Call R A T)) : Prop :=
  match result with
  | .ok _ => attemptRecords calls = []
  | .error failed => ∃ e, authorized = .error e ∧
      (decisionRecords calls ≠ [] → attemptRecords calls = [] ∧ failed = .authorization e ∧
        ∃ occurrence source, e = .audit occurrence source) ∧
      (decisionRecords calls = [] → unrecorded e = false →
        Accounted anchor cx e failed (attemptRecords calls)) ∧
      (decisionRecords calls = [] → unrecorded e = true →
        failed = .authorization e ∧ attemptRecords calls = [])

/-- The error of dating a decision. -/
def isOccurrence : AuthorizationError R A → Bool
  | .occurrence _ => true
  | _ => false

theorem attemptFailure_eq_none {e : AuthorizationError R A} :
    e.attemptFailure = none ↔ e.isAudit = true ∨ isOccurrence e = true := by
  cases e <;> simp [AuthorizationError.attemptFailure, AuthorizationError.isAudit, isOccurrence]

/-- A failed authorization is recorded exactly once, unless its decision could not be dated: that
error is returned with nothing recorded. -/
theorem authorizeRecordingAttempts_recordedOnce (policy : PreparedPolicy O) (cx : Context)
    (attempts : AuthorizationAttempt → σ → Except T Unit × σ) (w : σ) :
    RecordedOnce isOccurrence policy.anchor cx ((a.authorize policy cx : Run σ R A T _) w).result
      (a.authorizeRecordingAttempts policy cx attempts w).result
      (a.authorizeRecordingAttempts policy cx attempts w).calls := by
  have hboundary := a.boundary_run (T := T) policy.policy policy.anchor policy.required cx true w
  obtain ⟨d, calls, w', hfirst, hrun⟩ | ⟨e, calls, w₁, hfirst, hrest⟩ :=
    a.authorizeRecordingAttempts_cases policy cx attempts w
  · change Boundary _ _ (a.authorize policy cx w).result (a.authorize policy cx w).calls at hboundary
    rw [hfirst] at hboundary
    obtain ⟨entry, heffects, -⟩ := hboundary
    rw [hrun]
    show attemptRecords calls = []
    rw [← attemptRecords_effects, heffects]
    rfl
  change Boundary _ _ (a.authorize policy cx w).result (a.authorize policy cx w).calls at hboundary
  rw [hfirst] at hboundary ⊢
  -- what the authorization itself recorded
  obtain ⟨heffects, haudit⟩ | ⟨entry, source, heffects, rfl⟩ := hboundary
  swap
  · have hdecisions : decisionRecords calls ≠ [] := by
      rw [← decisionRecords_effects, heffects]
      nofun
    obtain ⟨-, hrun⟩ | ⟨failure, _, _, _, hfailure, -⟩ := hrest
    · rw [hrun]
      refine ⟨_, rfl, fun _ => ⟨?_, rfl, _, _, rfl⟩, fun h => absurd h hdecisions,
        fun h => absurd h hdecisions⟩
      rw [← attemptRecords_effects, heffects]
      rfl
    · cases hfailure
  have hdecisions : decisionRecords calls = [] := by
    rw [← decisionRecords_effects, heffects]
    rfl
  have hattempts : attemptRecords calls = [] := by
    rw [← attemptRecords_effects, heffects]
    rfl
  obtain ⟨hnone, hrun⟩ | ⟨failure, now, id, w', hfailure, hrest⟩ := hrest
  · rw [hrun]
    refine ⟨e, rfl, fun h => absurd hdecisions h, fun _ h => ?_, fun _ _ => ⟨rfl, hattempts⟩⟩
    simp [attemptFailure_eq_none, haudit, h] at hnone
  obtain ⟨scope, hrun⟩ | ⟨entry, hentry, hrun | ⟨source, hrun⟩⟩ := hrest
  all_goals
    rw [hrun]
    refine ⟨e, rfl, fun h => ?_, fun _ _ => ?_, fun _ h => ?_⟩
    · rw [decisionRecords_append, hdecisions] at h
      exact absurd rfl h
    swap
    · rw [attemptFailure_eq_none.mpr (.inr h)] at hfailure
      cases hfailure
    rw [attemptRecords_append, hattempts]
  · exact .inr (.inr ⟨scope, rfl, rfl⟩)
  · exact .inl ⟨entry, rfl, rfl, describes_of_newAttempt hentry⟩
  · exact .inr (.inl ⟨entry, source, rfl, rfl, describes_of_newAttempt hentry⟩)

end Authorizer

namespace Sample

/-- One second before the Unix epoch. -/
def eve : OffsetDateTime :=
  ⟨-1, 0, 0, OffsetDateTime.zero_nano_lt, OffsetDateTime.zero_offset_bound, by decide⟩

/-- Every part answers, and the clock stands at `eve`. -/
def early : Authorizer Unit (FactResolver Unit Unit) Unit where
  resolver := ⟨fun _ _ w => (.ok (nothingKnown eve), w)⟩
  auditSink _ w := (.ok (), w)
  observer _ w := w
  clock w := (eve, w)
  ids w := (generatedId, w)
  digest _ := .ok ⟨Vector.replicate 32 0⟩

end Sample

open Sample in
/-- A decision that cannot be dated is neither recorded nor kept as an attempt. -/
theorem undated_attempt_unrecorded :
    ¬Authorizer.RecordedOnce (fun _ => false) everyone.anchor request
      ((early.authorize everyone request : Authorizer.Run Unit Unit Unit Unit _) ()).result
      (early.authorizeRecordingAttempts (T := Unit) everyone request
        (fun _ w => (.ok (), w)) ()).result
      (early.authorizeRecordingAttempts (T := Unit) everyone request
        (fun _ w => (.ok (), w)) ()).calls := by
  have hrun : early.authorizeRecordingAttempts (T := Unit) everyone request
      (fun _ w => (.ok (), w)) () = ⟨.error (.authorization (.occurrence .outOfRange)),
        [.now eve, .resolve (.ok (nothingKnown eve)), .now eve, .generate generatedId, .now eve],
        ()⟩ := by
    rfl
  rw [hrun]
  rintro ⟨e, -, -, haccounted, -⟩
  obtain ⟨entry, -, hattempts, -⟩ | ⟨entry, source, hattempts, -⟩ | ⟨scope, hunscoped, -⟩ :=
    haccounted rfl rfl
  · cases hattempts
  · cases hattempts
  · cases hunscoped

end Gatekeep
