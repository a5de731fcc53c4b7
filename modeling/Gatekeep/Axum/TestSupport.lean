import Gatekeep.Axum.Gatekeeper
import Gatekeep.Sql.AuditEvent

/-!
# Gatekeep.Axum.TestSupport

The assertion on a denial response, `test_support.rs` of `gatekeep-axum`: a received response is
parsed as JSON and compared with an expectation.

`assertDenialResponse_sent` says what is accepted of the responses that rejections are sent as. With
the record of the run behind one, `assertDenialResponse_served`: the assertion accepts a response
exactly when a denial was recorded that is presented as expected.
-/

namespace Gatekeep

open Serde

/-! ## Expectations -/

inductive ExpectedReason where
  | any
  | none
  | some (reason : String)
deriving DecidableEq

def DenialError.status : DenialError → StatusCode
  | .forbidden => .forbidden
  | .notFound => .notFound

theorem DenialError.status_ne_internalServerError (e : DenialError) :
    e.status ≠ .internalServerError := by
  cases e with
  | forbidden => exact StatusCode.internalServerError_ne_forbidden.symm
  | notFound => exact StatusCode.internalServerError_ne_notFound.symm

/-- Expected HTTP denial response. Its constructors set the status with the category. -/
structure ExpectedDenial where
  status : StatusCode
  error : DenialError
  message : Option String
  reason : ExpectedReason
  status_eq : status = error.status

namespace ExpectedDenial

def forbidden : ExpectedDenial := ⟨.forbidden, .forbidden, none, .any, rfl⟩

def notFound : ExpectedDenial := ⟨.notFound, .notFound, none, .any, rfl⟩

def withMessage (e : ExpectedDenial) (message : String) : ExpectedDenial :=
  { e with message := some message }

def withReason (e : ExpectedDenial) (reason : String) : ExpectedDenial :=
  { e with reason := .some reason }

def withoutReason (e : ExpectedDenial) : ExpectedDenial := { e with reason := .none }

end ExpectedDenial

/-- Error returned by the assertion; `β` is what collecting a body fails with. -/
inductive DenialAssertError (β : Type) where
  | status (expected actual : StatusCode)
  | body (error : β)
  | json (error : PayloadError)
  | shape
  | fields (actual : List String)
  | error (expected actual : DenialError)
  | message (expected actual : String)
  | reason (expected actual : Option String)
deriving DecidableEq

/-- A received response, with what collecting its body gives. -/
structure ReceivedResponse (β : Type) where
  status : StatusCode
  collected : Except β Bytes

/-! ## The assertion -/

section Assertion

variable {β : Type}

def denialBodyFieldNames : List String := ["error", "message", "reason"]

def denialBodyFields : Json → Except (DenialAssertError β) (List String)
  | .obj fields => .ok ((fields.map Prod.fst).insertionSort (· ≤ ·))
  | _ => .error .shape

def ExpectedDenial.checkMessage (e : ExpectedDenial) (body : DenialBody) :
    Except (DenialAssertError β) Unit :=
  match e.message with
  | some expected =>
    if body.message ≠ expected then .error (.message expected body.message) else .ok ()
  | none => .ok ()

def ExpectedDenial.checkReason (e : ExpectedDenial) (body : DenialBody) :
    Except (DenialAssertError β) Unit :=
  match e.reason with
  | .none => if body.reason.isSome then .error (.reason none body.reason) else .ok ()
  | .some expected =>
    if body.reason ≠ some expected then .error (.reason (some expected) body.reason) else .ok ()
  | .any => .ok ()

def assertDenialResponse (json : SerdeJson) (response : ReceivedResponse β)
    (expected : ExpectedDenial) : Except (DenialAssertError β) DenialBody := do
  if response.status ≠ expected.status then .error (.status expected.status response.status)
  let bytes ← response.collected.mapError .body
  let value ← ((json.fromSlice bytes).map Json.value).mapError fun e => .json (.text e)
  let fields ← denialBodyFields value
  if fields ≠ denialBodyFieldNames then .error (.fields fields)
  let body ← (Wire.readDenialBody value).mapError fun e => .json (.data e)
  if body.error ≠ expected.error then .error (.error expected.error body.error)
  expected.checkMessage body
  expected.checkReason body
  return body

end Assertion

/-! ## What it accepts -/

/-- A denial is what is expected. -/
structure ExpectedDenial.Matches (e : ExpectedDenial) (d : DenialResponse) : Prop where
  status : d.status = e.status
  error : d.body.error = e.error
  message : ∀ expected, e.message = some expected → d.body.message = expected
  absent : e.reason = .none → d.body.reason = none
  reason : ∀ expected, e.reason = .some expected → d.body.reason = some expected

section Accepts

variable {β : Type} {e : ExpectedDenial} {body : DenialBody}

theorem ExpectedDenial.checkMessage_eq_ok :
    (e.checkMessage body : Except (DenialAssertError β) Unit) = .ok () ↔
      ∀ expected, e.message = some expected → body.message = expected := by
  unfold checkMessage
  cases e.message with
  | none => simp
  | some expected => by_cases h : body.message = expected <;> simp [h]

theorem ExpectedDenial.checkReason_eq_ok :
    (e.checkReason body : Except (DenialAssertError β) Unit) = .ok () ↔
      (e.reason = .none → body.reason = none) ∧
        ∀ expected, e.reason = .some expected → body.reason = some expected := by
  unfold checkReason
  cases e.reason with
  | any => simp
  | none => cases body.reason <;> simp
  | some expected => by_cases h : body.reason = some expected <;> simp [h]

theorem ExpectedDenial.matches_iff {d : DenialResponse} :
    e.Matches d ↔ d.status = e.status ∧ d.body.error = e.error ∧
      (e.checkMessage d.body : Except (DenialAssertError β) Unit) = .ok () ∧
      (e.checkReason d.body : Except (DenialAssertError β) Unit) = .ok () := by
  rw [checkMessage_eq_ok, checkReason_eq_ok]
  exact ⟨fun h => ⟨h.status, h.error, h.message, h.absent, h.reason⟩,
    fun ⟨hstatus, herror, hmessage, habsent, hreason⟩ =>
      ⟨hstatus, herror, hmessage, habsent, hreason⟩⟩

/-- The fields of a written body have different keys. -/
theorem value_writeDenialBody (b : DenialBody) :
    (Wire.writeDenialBody b).value = Wire.writeDenialBody b := by
  obtain ⟨error, message, reason⟩ := b
  have herror : (Wire.denialError.write error).value = Wire.denialError.write error := by
    cases error <;> exact Json.value_str _
  have hreason :
      (writeOption Wire.text.write reason).value = writeOption Wire.text.write reason := by
    cases reason with
    | none => exact Json.value_null
    | some reason => exact Json.value_str reason
  have hmessage : (Wire.text.write message).value = Wire.text.write message :=
    Json.value_str message
  simp [Wire.writeDenialBody, Json.value, Json.valueFields, Json.enter, herror, hmessage, hreason]

theorem denialBodyFields_writeDenialBody (b : DenialBody) :
    denialBodyFields (β := β) (Wire.writeDenialBody b) = .ok denialBodyFieldNames := by
  have hsorted : ["error", "message", "reason"].insertionSort (· ≤ ·) =
      ["error", "message", "reason"] := by decide
  rw [Wire.writeDenialBody, denialBodyFields, denialBodyFieldNames]
  exact congrArg Except.ok hsorted

variable {R A : Type} {json : SerdeJson} {rejection : GatekeepRejection R A} {payload : Bytes}

/-- Of the responses that rejections are sent as, the assertion accepts the denials that match the
expectation, and returns their bodies. It accepts no error. -/
theorem assertDenialResponse_sent
    (hvec : json.toVec rejection.intoResponse.body = .ok payload)
    (hjson : json.Faithful rejection.intoResponse.body) :
    assertDenialResponse (β := β) json ⟨rejection.intoResponse.status, .ok payload⟩ e = .ok body ↔
      ∃ d, rejection = .denied d ∧ e.Matches d ∧ body = d.body := by
  cases rejection with
  | error error =>
    refine ⟨fun h => ?_, fun ⟨_, h, _⟩ => (nomatch h)⟩
    have hstatus := (Result.guard_eq_ok.mp h).1
    rw [not_not, e.status_eq] at hstatus
    exact absurd hstatus.symm e.error.status_ne_internalServerError
  | denied d =>
    have hread := hjson payload hvec
    have hdoc : (GatekeepRejection.denied d : GatekeepRejection R A).intoResponse.body =
        Wire.writeDenialBody d.body := rfl
    rw [hdoc] at hread
    unfold assertDenialResponse
    simp only [hread, Except.map, Except.mapError, Result.ok_bind, value_writeDenialBody,
      denialBodyFields_writeDenialBody, Wire.readDenialBody_writeDenialBody, Result.guard_eq_ok,
      Result.check_eq_ok, Result.pure_eq_ok, Except.ok.injEq, not_not, ne_eq,
      GatekeepRejection.denied.injEq, exists_eq_left', ExpectedDenial.matches_iff (β := β)]
    constructor
    · rintro ⟨hstatus, -, herror, hmessage, hreason, rfl⟩
      exact ⟨⟨hstatus, herror, hmessage, hreason⟩, rfl⟩
    · rintro ⟨⟨hstatus, herror, hmessage, hreason⟩, rfl⟩
      exact ⟨hstatus, trivial, herror, hmessage, hreason, rfl⟩

end Accepts

open Traced in
/-- The response that a handler's rejection is sent as is accepted exactly when the run recorded a
denial that is presented as expected; its body is then the one the record calls for. -/
theorem assertDenialResponse_served {β σ Resolver R A T O : Type} [Serialize O] [Lattice O]
    [DecidableEq O] {g : Gatekeeper σ Resolver A} {cx : Context}
    {ran : Ran σ (Call R A T) (Except (GatekeepRejection R A) (Authorized O))}
    (h : Gatekeeper.Serves g cx ran) {rejection : GatekeepRejection R A}
    (hran : ran.result = .error rejection) {json : SerdeJson} {payload : Bytes}
    (hvec : json.toVec rejection.intoResponse.body = .ok payload)
    (hjson : json.Faithful rejection.intoResponse.body) (expected : ExpectedDenial)
    (body : DenialBody) :
    assertDenialResponse (β := β) json ⟨rejection.intoResponse.status, .ok payload⟩ expected =
        .ok body ↔
      ∃ entry, decisionRecords ran.calls = [(entry, .ok ())] ∧ entry.effect = .deny ∧
        expected.Matches (g.denial entry cx.locale) ∧ body = (g.denial entry cx.locale).body := by
  rw [assertDenialResponse_sent hvec hjson]
  obtain ⟨e, hresult, hnone⟩ | ⟨entry, hrecords, ⟨authorized, hresult, -⟩ | ⟨hdeny, hresult⟩⟩ :=
    Gatekeeper.answers_of_serves h
  · cases hran.symm.trans hresult
    exact ⟨fun ⟨_, h, _⟩ => (nomatch h), fun ⟨entry, h, _⟩ => absurd h (hnone entry)⟩
  · cases hran.symm.trans hresult
  · cases hran.symm.trans hresult
    rw [hrecords]
    constructor
    · rintro ⟨d, hd, hmatches, rfl⟩
      cases hd
      exact ⟨entry, rfl, hdeny, hmatches, rfl⟩
    · rintro ⟨entry', hentry, -, hmatches, rfl⟩
      cases hentry
      exact ⟨_, rfl, hmatches, rfl⟩

open Sample in
theorem assertDenialResponse_served_owner :
    ∃ entry, decisionRecords (answered owner ⟨"not_owner", by decide⟩).calls = [(entry, .ok ())] ∧
      entry.effect = .deny ∧
      (ExpectedDenial.notFound.withMessage "not found").withoutReason.Matches
        (frontDesk.denial entry request.locale) ∧
      genericNotFound.body = (frontDesk.denial entry request.locale).body := by
  have hmatches : (ExpectedDenial.notFound.withMessage "not found").withoutReason.Matches
      genericNotFound := ⟨rfl, rfl, fun _ h => Option.some.inj h, fun _ => rfl, nofun⟩
  have hjson := serdeJson_faithful genericNotFound.intoResponse.body
  exact (assertDenialResponse_served (β := Unit) (serves_answered owner _) answered_owner rfl hjson
    _ _).mp ((assertDenialResponse_sent rfl hjson).mpr ⟨_, rfl, hmatches, rfl⟩)

end Gatekeep
