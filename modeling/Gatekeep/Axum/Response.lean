import Gatekeep.Authorization
import Gatekeep.Wire

/-!
# Gatekeep.Axum.Response

The HTTP form of a refusal, `response.rs` and `error.rs` of `gatekeep-axum`: a denial is presented
by its shape, an error of the boundary by one fixed body.

`ReasonCatalog` is any function from a reason and a locale to a text. A response is its status and
the JSON document of its body.
-/

namespace Gatekeep

open Serde

/-- `http::StatusCode`. -/
structure StatusCode where
  code : UInt16
deriving DecidableEq

namespace StatusCode

def badRequest : StatusCode := ⟨400⟩
def forbidden : StatusCode := ⟨403⟩
def notFound : StatusCode := ⟨404⟩
def internalServerError : StatusCode := ⟨500⟩

theorem internalServerError_ne_forbidden : internalServerError ≠ forbidden := by decide

theorem internalServerError_ne_notFound : internalServerError ≠ notFound := by decide

end StatusCode

/-- Presentation adapter for localized denial reasons. -/
abbrev ReasonCatalog := DenialReason → Locale → String

/-- The catalog that renders the stable reason code. -/
def identityReasonCatalog : ReasonCatalog := fun reason _ => reason.code.value

/-! ## Denials -/

/-- HTTP denial category. -/
inductive DenialError where
  | forbidden
  | notFound
deriving DecidableEq

/-- JSON body emitted for authorization denials. -/
structure DenialBody where
  error : DenialError
  message : String
  reason : Option String
deriving DecidableEq

/-- HTTP denial response produced by a policy denial. -/
structure DenialResponse where
  status : StatusCode
  body : DenialBody
deriving DecidableEq

/-- Presentation settings for policy denials. -/
structure DenialResponseConfig where
  forbiddenFallback : String
  hiddenFallback : String
  hiddenReason : Option ReasonCode
deriving DecidableEq

namespace DenialResponseConfig

def default : DenialResponseConfig := ⟨"forbidden", "not found", none⟩

def withForbiddenFallback (c : DenialResponseConfig) (message : String) : DenialResponseConfig :=
  { c with forbiddenFallback := message }

def withHiddenFallback (c : DenialResponseConfig) (message : String) : DenialResponseConfig :=
  { c with hiddenFallback := message }

def tryWithHiddenReason (c : DenialResponseConfig) (reason : String) :
    Except GatekeepError DenialResponseConfig := do
  let code ← OwnedId.new "reason_code" reason
  return { c with hiddenReason := some code }

variable (c : DenialResponseConfig)

def forbidden (reason : Option DenialReason) (locale : Locale) (catalog : ReasonCatalog) :
    DenialResponse where
  status := .forbidden
  body := {
    error := .forbidden
    message := reason.elim c.forbiddenFallback fun reason => catalog reason locale
    reason := reason.map fun reason => reason.code.value }

/-- The configured code replaces the reason of the policy, which does not enter. -/
def hidden (locale : Locale) (catalog : ReasonCatalog) : DenialResponse where
  status := .notFound
  body := {
    error := .notFound
    message := c.hiddenReason.elim c.hiddenFallback fun code => catalog ⟨code, ∅, .forbidden⟩ locale
    reason := none }

def denied (shape : DenyShape) (reason : Option DenialReason) (locale : Locale)
    (catalog : ReasonCatalog) : DenialResponse :=
  match shape with
  | .forbidden => c.forbidden reason locale catalog
  | .hidden => c.hidden locale catalog

end DenialResponseConfig

/-! ## Rejections -/

/-- Axum rejection returned by the gatekeeper. -/
inductive GatekeepRejection (R A : Type) where
  | denied (response : DenialResponse)
  | error (error : AuthorizationError R A)
deriving DecidableEq

/-- A response whose body is the JSON text of a document. -/
structure Response where
  status : StatusCode
  body : Json
deriving DecidableEq

namespace Wire

def denialError : Codec WireError DenialError :=
  Serde.unit [("forbidden", .forbidden), ("not_found", .notFound)]
    (fun
      | .forbidden => "forbidden"
      | .notFound => "not_found")
    (fun e => by cases e <;> rfl)

def writeDenialBody (b : DenialBody) : Json := .obj [
  ("error", denialError.write b.error),
  ("message", text.write b.message),
  ("reason", writeOption text.write b.reason)]

def readDenialBody : Reader WireError DenialBody := fun j => do
  let r ← Record.ofJson ["error", "message", "reason"] j
  let error ← r.required 0 "error" denialError.read
  let message ← r.required 1 "message" text.read
  let reason ← r.optional 2 "reason" text.read
  return ⟨error, message, reason⟩

@[simp] theorem readDenialBody_writeDenialBody (b : DenialBody) :
    readDenialBody (writeDenialBody b) = .ok b := by
  rw [readDenialBody, writeDenialBody, Record.ofJson_obj (by simp), Result.ok_bind,
    Record.required_write rfl, Result.ok_bind, Record.required_write rfl, Result.ok_bind,
    Record.optional_write rfl]
  rfl

end Wire

def DenialResponse.intoResponse (d : DenialResponse) : Response :=
  ⟨d.status, Wire.writeDenialBody d.body⟩

/-- The body of every error, whatever the error. -/
def errorResponse : Response where
  status := .internalServerError
  body := .obj [("error", .str "authorization_error"), ("message", .str "authorization failed")]

def GatekeepRejection.intoResponse {R A : Type} : GatekeepRejection R A → Response
  | .denied denial => denial.intoResponse
  | .error _ => errorResponse

end Gatekeep
