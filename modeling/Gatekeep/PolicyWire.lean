import Gatekeep.Support.SerdeRec
import Gatekeep.Wire

/-!
# Gatekeep.PolicyWire

The JSON form of conditions, policies and residual policies, as the implementations that serde
derives for `policy_model.rs` give it: a variant by its name, a boxed value as the value itself. The
readers are fixed points of one level of reading (`Serde.fix`). The format of an outcome is the
application's and may write `null`.

Conditions and policies read back as they were written. A residual does not always: what a constant
denial requested is an optional field, and an outcome that is written as `null` is lost there
(`ResidualPolicy.durable`).

Documents are read back here, not texts. The text reader of `serde_json` refuses what is nested
deeper than 128 levels, and a deep policy has such a text; that limit is not modelled.
-/

namespace Gatekeep

open Serde

namespace Wire

/-! ## Conditions -/

mutual

def writeCondition : Condition → Json
  | .always => .str "Always"
  | .never => .str "Never"
  | .has fact => .obj [("Has", factId.write fact)]
  | .not inner => .obj [("Not", writeCondition inner)]
  | .all conditions => .obj [("All", .arr (writeConditions conditions))]
  | .any conditions => .obj [("Any", .arr (writeConditions conditions))]

def writeConditions : List Condition → List Json
  | [] => []
  | condition :: conditions => writeCondition condition :: writeConditions conditions

end

theorem writeConditions_eq_map (conditions : List Condition) :
    writeConditions conditions = conditions.map writeCondition := by
  induction conditions with
  | nil => rfl
  | cons c cs ih => rw [writeConditions, ih, List.map_cons]

/-- One level of a condition; `self` reads what is inside. -/
def conditionStep (self : Reader WireError Condition) : Reader WireError Condition := fun j => do
  let (name, content) ← readVariant j
  match name with
  | "Always" => readEmpty .always content
  | "Never" => readEmpty .never content
  | "Has" => (readContent content >>= factId.read).map .has
  | "Not" => (readContent content >>= self).map .not
  | "All" => (readContent content >>= readList self).map .all
  | "Any" => (readContent content >>= readList self).map .any
  | _ => .error (.unknownVariant name)

def readCondition : Reader WireError Condition := fix conditionStep

theorem local_conditionStep : Local conditionStep :=
  local_of_below fun j => Below.variant fun name content hc => by
    dsimp only
    split
    · exact .const _
    · exact .const _
    · exact .const _
    · exact (Below.content hc fun c hc => .read hc).map _
    · exact (Below.content hc fun c hc => .list hc.le).map _
    · exact (Below.content hc fun c hc => .list hc.le).map _
    · exact .const _

theorem readCondition_eq (j : Json) : readCondition j = conditionStep readCondition j :=
  fix_eq local_conditionStep j

theorem readCondition_writeCondition (c : Condition) :
    readCondition (writeCondition c) = .ok c := by
  have hset : ∀ cs : List Condition, (∀ c ∈ cs, readCondition (writeCondition c) = .ok c) →
      readList readCondition (.arr (writeConditions cs)) = .ok cs := by
    intro cs ih
    rw [writeConditions_eq_map]
    exact readItems_map ih
  induction c using Condition.ind with
  | always => rw [readCondition_eq]; rfl
  | never => rw [readCondition_eq]; rfl
  | has fact =>
    rw [readCondition_eq, writeCondition]
    simp only [conditionStep, readVariant, readContent, Result.ok_bind, Codec.read_write]
    rfl
  | not inner ih =>
    rw [readCondition_eq, writeCondition]
    simp only [conditionStep, readVariant, readContent, Result.ok_bind, ih]
    rfl
  | all cs ih =>
    rw [readCondition_eq, writeCondition]
    simp only [conditionStep, readVariant, readContent, Result.ok_bind, hset cs ih]
    rfl
  | any cs ih =>
    rw [readCondition_eq, writeCondition]
    simp only [conditionStep, readVariant, readContent, Result.ok_bind, hset cs ih]
    rfl

def condition : Codec WireError Condition where
  write := writeCondition
  read := readCondition
  read_write := readCondition_writeCondition
  write_ne_null c := by cases c <;> nofun

/-! ## Policies -/

section Outcomes

variable {O : Type} (outcome : Format WireError O)

def writeGrant (g : Grant O) : Json := .obj [
  ("outcome", outcome.write g.outcome),
  ("condition", condition.write g.condition),
  ("label", writeOption clauseLabel.write g.label),
  ("deny_shape", denyShape.write g.denyShape),
  ("obligations", obligationIds.write g.obligations),
  ("reason", writeOption reasonCode.write g.reason)]

def readGrant : Reader WireError (Grant O) := fun j => do
  let r ← Record.ofJson ["outcome", "condition", "label", "deny_shape", "obligations", "reason"] j
  let outcome ← r.field 0 "outcome" outcome
  let condition ← r.required 1 "condition" condition.read
  let label ← r.optional 2 "label" clauseLabel.read
  let denyShape ← r.required 3 "deny_shape" denyShape.read
  let obligations ← r.required 4 "obligations" obligationIds.read
  let reason ← r.optional 5 "reason" reasonCode.read
  return { outcome, condition, label, denyShape, obligations, reason }

theorem readGrant_writeGrant (g : Grant O) : readGrant outcome (writeGrant outcome g) = .ok g := by
  rw [readGrant, writeGrant, Record.ofJson_obj (by simp), Result.ok_bind, Record.field_write rfl,
    Result.ok_bind, Record.required_write rfl, Result.ok_bind, Record.optional_write rfl,
    Result.ok_bind, Record.required_write rfl, Result.ok_bind, Record.required_write rfl,
    Result.ok_bind, Record.optional_write rfl]
  rfl

mutual

def writePolicy : Policy O → Json
  | .permit o => .obj [("Permit", outcome.write o)]
  | .deny => .str "Deny"
  | .grant g => .obj [("Grant", writeGrant outcome g)]
  | .all policies => .obj [("All", .arr (writePolicies policies))]
  | .any policies => .obj [("Any", .arr (writePolicies policies))]
  | .orElse primary fallback => .obj [("OrElse", .obj [
      ("primary", writePolicy primary),
      ("fallback", writePolicy fallback)])]

def writePolicies : List (Policy O) → List Json
  | [] => []
  | policy :: policies => writePolicy policy :: writePolicies policies

end

theorem writePolicies_eq_map (policies : List (Policy O)) :
    writePolicies outcome policies = policies.map (writePolicy outcome) := by
  induction policies with
  | nil => rfl
  | cons p ps ih => rw [writePolicies, ih, List.map_cons]

/-- The fields of an `OrElse`, for policies and residual policies alike. -/
def readOrElse {α : Type} (self : Reader WireError α) (orElse : α → α → α) : Reader WireError α :=
  fun j => do
    let r ← Record.ofJson ["primary", "fallback"] j
    let primary ← r.required 0 "primary" self
    let fallback ← r.required 1 "fallback" self
    return orElse primary fallback

/-- One level of a policy; `self` reads what is inside. -/
def policyStep (self : Reader WireError (Policy O)) : Reader WireError (Policy O) := fun j => do
  let (name, content) ← readVariant j
  match name with
  | "Permit" => (readContent content >>= outcome.read).map .permit
  | "Deny" => readEmpty .deny content
  | "Grant" => (readContent content >>= readGrant outcome).map .grant
  | "All" => (readContent content >>= readList self).map .all
  | "Any" => (readContent content >>= readList self).map .any
  | "OrElse" => readContent content >>= readOrElse self .orElse
  | _ => .error (.unknownVariant name)

def readPolicy : Reader WireError (Policy O) := fix (policyStep outcome)

theorem below_orElse {α : Type} {n : Nat} {j : Json} (h : j.height ≤ n) (orElse : α → α → α) :
    Below n fun self => readOrElse self orElse j :=
  .record h fun _ hr => (Below.required hr 0 "primary").bind fun _ =>
    (Below.required hr 1 "fallback").bind fun _ => .const _

theorem readOrElse_write {α : Type} {self : Reader WireError α} {orElse : α → α → α}
    {jp jf : Json} {p f : α} (hp : self jp = .ok p) (hf : self jf = .ok f) :
    readOrElse self orElse (.obj [("primary", jp), ("fallback", jf)]) = .ok (orElse p f) := by
  rw [readOrElse, Record.ofJson_obj (by simp), Result.ok_bind, Record.required_of_find rfl, hp,
    Result.ok_bind, Record.required_of_find rfl, hf]
  rfl

theorem local_policyStep : Local (policyStep outcome) :=
  local_of_below fun j => Below.variant fun name content hc => by
    dsimp only
    split
    · exact .const _
    · exact .const _
    · exact .const _
    · exact (Below.content hc fun c hc => .list hc.le).map _
    · exact (Below.content hc fun c hc => .list hc.le).map _
    · exact Below.content hc fun c hc => below_orElse hc.le _
    · exact .const _

theorem readPolicy_eq (j : Json) :
    readPolicy outcome j = policyStep outcome (readPolicy outcome) j :=
  fix_eq (local_policyStep outcome) j

theorem readPolicy_writePolicy (p : Policy O) :
    readPolicy outcome (writePolicy outcome p) = .ok p := by
  have harms : ∀ ps : List (Policy O),
      (∀ p ∈ ps, readPolicy outcome (writePolicy outcome p) = .ok p) →
      readList (readPolicy outcome) (.arr (writePolicies outcome ps)) = .ok ps := by
    intro ps ih
    rw [writePolicies_eq_map]
    exact readItems_map ih
  induction p using Policy.ind with
  | permit o =>
    rw [readPolicy_eq, writePolicy]
    simp only [policyStep, readVariant, readContent, Result.ok_bind, Format.read_write]
    rfl
  | deny => rw [readPolicy_eq]; rfl
  | grant g =>
    rw [readPolicy_eq, writePolicy]
    simp only [policyStep, readVariant, readContent, Result.ok_bind, readGrant_writeGrant]
    rfl
  | all ps ih =>
    rw [readPolicy_eq, writePolicy]
    simp only [policyStep, readVariant, readContent, Result.ok_bind, harms ps ih]
    rfl
  | any ps ih =>
    rw [readPolicy_eq, writePolicy]
    simp only [policyStep, readVariant, readContent, Result.ok_bind, harms ps ih]
    rfl
  | orElse primary fallback ihp ihf =>
    rw [readPolicy_eq, writePolicy]
    simp only [policyStep, readVariant, readContent, Result.ok_bind, readOrElse_write ihp ihf]

/-! ## Residual policies -/

mutual

def writeResidual : ResidualPolicy O → Json
  | .permit o => .obj [("Permit", outcome.write o)]
  | .deny => .str "Deny"
  | .permitWithTrace o obligations satisfied label => .obj [("PermitWithTrace", .obj [
      ("outcome", outcome.write o),
      ("obligations", obligationIds.write obligations),
      ("satisfied", factIds.write satisfied),
      ("label", writeOption clauseLabel.write label)])]
  | .denyWithTrace denied unsatisfied label reason shape => .obj [("DenyWithTrace", .obj [
      ("denied", writeOption outcome.write denied),
      ("unsatisfied", factIds.write unsatisfied),
      ("label", writeOption clauseLabel.write label),
      ("reason", writeOption reasonCode.write reason),
      ("shape", denyShape.write shape)])]
  | .grant g => .obj [("Grant", writeGrant outcome g)]
  | .all policies => .obj [("All", .arr (writeResiduals policies))]
  | .any policies => .obj [("Any", .arr (writeResiduals policies))]
  | .orElse primary fallback => .obj [("OrElse", .obj [
      ("primary", writeResidual primary),
      ("fallback", writeResidual fallback)])]

def writeResiduals : List (ResidualPolicy O) → List Json
  | [] => []
  | policy :: policies => writeResidual policy :: writeResiduals policies

end

theorem writeResiduals_eq_map (policies : List (ResidualPolicy O)) :
    writeResiduals outcome policies = policies.map (writeResidual outcome) := by
  induction policies with
  | nil => rfl
  | cons r rs ih => rw [writeResiduals, ih, List.map_cons]

def readPermitWithTrace : Reader WireError (ResidualPolicy O) := fun j => do
  let r ← Record.ofJson ["outcome", "obligations", "satisfied", "label"] j
  let outcome ← r.field 0 "outcome" outcome
  let obligations ← r.required 1 "obligations" obligationIds.read
  let satisfied ← r.required 2 "satisfied" factIds.read
  let label ← r.optional 3 "label" clauseLabel.read
  return .permitWithTrace outcome obligations satisfied label

def readDenyWithTrace : Reader WireError (ResidualPolicy O) := fun j => do
  let r ← Record.ofJson ["denied", "unsatisfied", "label", "reason", "shape"] j
  let denied ← r.optional 0 "denied" outcome.read
  let unsatisfied ← r.required 1 "unsatisfied" factIds.read
  let label ← r.optional 2 "label" clauseLabel.read
  let reason ← r.optional 3 "reason" reasonCode.read
  let shape ← r.required 4 "shape" denyShape.read
  return .denyWithTrace denied unsatisfied label reason shape

/-- One level of a residual policy; `self` reads what is inside. -/
def residualStep (self : Reader WireError (ResidualPolicy O)) :
    Reader WireError (ResidualPolicy O) := fun j => do
  let (name, content) ← readVariant j
  match name with
  | "Permit" => (readContent content >>= outcome.read).map .permit
  | "Deny" => readEmpty .deny content
  | "PermitWithTrace" => readContent content >>= readPermitWithTrace outcome
  | "DenyWithTrace" => readContent content >>= readDenyWithTrace outcome
  | "Grant" => (readContent content >>= readGrant outcome).map .grant
  | "All" => (readContent content >>= readList self).map .all
  | "Any" => (readContent content >>= readList self).map .any
  | "OrElse" => readContent content >>= readOrElse self .orElse
  | _ => .error (.unknownVariant name)

def readResidual : Reader WireError (ResidualPolicy O) := fix (residualStep outcome)

theorem local_residualStep : Local (residualStep outcome) :=
  local_of_below fun j => Below.variant fun name content hc => by
    dsimp only
    split
    · exact .const _
    · exact .const _
    · exact .const _
    · exact .const _
    · exact .const _
    · exact (Below.content hc fun c hc => .list hc.le).map _
    · exact (Below.content hc fun c hc => .list hc.le).map _
    · exact Below.content hc fun c hc => below_orElse hc.le _
    · exact .const _

theorem readResidual_eq (j : Json) :
    readResidual outcome j = residualStep outcome (readResidual outcome) j :=
  fix_eq (local_residualStep outcome) j

end Outcomes

end Wire

/-! ## What is lost of a residual policy -/

namespace ResidualPolicy

variable {O : Type} (outcome : Format WireError O)

mutual

/-- What a residual reads back as: a requested outcome that is written as `null` is lost. -/
def durable : ResidualPolicy O → ResidualPolicy O
  | .permit o => .permit o
  | .deny => .deny
  | .permitWithTrace o obligations satisfied label =>
    .permitWithTrace o obligations satisfied label
  | .denyWithTrace denied unsatisfied label reason shape =>
    .denyWithTrace (outcome.durable denied) unsatisfied label reason shape
  | .grant g => .grant g
  | .all policies => .all (durables policies)
  | .any policies => .any (durables policies)
  | .orElse primary fallback => .orElse (durable primary) (durable fallback)

def durables : List (ResidualPolicy O) → List (ResidualPolicy O)
  | [] => []
  | policy :: policies => durable policy :: durables policies

end

mutual

/-- The outcomes that the constant denials of a residual requested. -/
def requested : ResidualPolicy O → List O
  | .permit _ | .deny | .permitWithTrace .. | .grant _ => []
  | .denyWithTrace denied _ _ _ _ => denied.toList
  | .all policies | .any policies => requestedOf policies
  | .orElse primary fallback => requested primary ++ requested fallback

def requestedOf : List (ResidualPolicy O) → List O
  | [] => []
  | policy :: policies => requested policy ++ requestedOf policies

end

theorem durables_eq_map (policies : List (ResidualPolicy O)) :
    durables outcome policies = policies.map (durable outcome) := by
  induction policies with
  | nil => rfl
  | cons r rs ih => rw [durables, ih, List.map_cons]

/-- A residual is kept whole just when no constant denial requested an outcome written as `null`. -/
theorem durable_eq_self (r : ResidualPolicy O) :
    r.durable outcome = r ↔ ∀ o ∈ r.requested, outcome.write o ≠ .null := by
  have harms : ∀ rs : List (ResidualPolicy O),
      (∀ r ∈ rs, r.durable outcome = r ↔ ∀ o ∈ r.requested, outcome.write o ≠ .null) →
      (durables outcome rs = rs ↔ ∀ o ∈ requestedOf rs, outcome.write o ≠ .null) := by
    intro rs
    induction rs with
    | nil => simp [durables, requestedOf]
    | cons r rs ihrs =>
      intro ih
      rw [durables, requestedOf, List.forall_mem_append, List.cons.injEq, ih r List.mem_cons_self,
        ihrs fun r' hr' => ih r' (List.mem_cons_of_mem _ hr')]
  induction r using ResidualPolicy.ind with
  | permit o => simp [durable, requested]
  | deny => simp [durable, requested]
  | permitWithTrace o obs satisfied label => simp [durable, requested]
  | denyWithTrace denied unsatisfied label reason shape =>
    simp [durable, requested, outcome.durable_eq_self]
  | grant g => simp [durable, requested]
  | all rs ih => rw [durable, requested, ResidualPolicy.all.injEq, harms rs ih]
  | any rs ih => rw [durable, requested, ResidualPolicy.any.injEq, harms rs ih]
  | orElse primary fallback ihp ihf =>
    rw [durable, requested, ResidualPolicy.orElse.injEq, List.forall_mem_append]
    exact and_congr ihp ihf

end ResidualPolicy

namespace Wire

variable {O : Type} (outcome : Format WireError O)

theorem readResidual_writeResidual (r : ResidualPolicy O) :
    readResidual outcome (writeResidual outcome r) = .ok (r.durable outcome) := by
  have harms : ∀ rs : List (ResidualPolicy O),
      (∀ r ∈ rs, readResidual outcome (writeResidual outcome r) = .ok (r.durable outcome)) →
      readList (readResidual outcome) (.arr (writeResiduals outcome rs)) =
        .ok (ResidualPolicy.durables outcome rs) := by
    intro rs ih
    rw [writeResiduals_eq_map, ResidualPolicy.durables_eq_map]
    exact readItems_map_eq ih
  induction r using ResidualPolicy.ind with
  | permit o =>
    rw [readResidual_eq, writeResidual]
    simp only [residualStep, readVariant, readContent, Result.ok_bind, Format.read_write]
    rfl
  | deny => rw [readResidual_eq]; rfl
  | permitWithTrace o obligations satisfied label =>
    rw [readResidual_eq, writeResidual]
    simp only [residualStep, readVariant, readContent, Result.ok_bind, readPermitWithTrace]
    rw [Record.ofJson_obj (by simp), Result.ok_bind, Record.field_write rfl, Result.ok_bind,
      Record.required_write rfl, Result.ok_bind, Record.required_write rfl, Result.ok_bind,
      Record.optional_write rfl]
    rfl
  | denyWithTrace denied unsatisfied label reason shape =>
    rw [readResidual_eq, writeResidual]
    simp only [residualStep, readVariant, readContent, Result.ok_bind, readDenyWithTrace]
    rw [Record.ofJson_obj (by simp), Result.ok_bind, Record.optional_format rfl, Result.ok_bind,
      Record.required_write rfl, Result.ok_bind, Record.optional_write rfl, Result.ok_bind,
      Record.optional_write rfl, Result.ok_bind, Record.required_write rfl]
    rfl
  | grant g =>
    rw [readResidual_eq, writeResidual]
    simp only [residualStep, readVariant, readContent, Result.ok_bind, readGrant_writeGrant]
    rfl
  | all rs ih =>
    rw [readResidual_eq, writeResidual]
    simp only [residualStep, readVariant, readContent, Result.ok_bind, harms rs ih]
    rfl
  | any rs ih =>
    rw [readResidual_eq, writeResidual]
    simp only [residualStep, readVariant, readContent, Result.ok_bind, harms rs ih]
    rfl
  | orElse primary fallback ihp ihf =>
    rw [readResidual_eq, writeResidual]
    simp only [residualStep, readVariant, readContent, Result.ok_bind, readOrElse_write ihp ihf]
    rfl

end Wire

end Gatekeep
