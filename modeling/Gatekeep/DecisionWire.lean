import Gatekeep.StoredPolicy

/-!
# Gatekeep.DecisionWire

The JSON form of fact bundles and of decisions. A decision reads back as its `durable` form. Its
trace is written as the erased trace of it is (`writeTrace_toTrace`), so that each of the two can be
read from a document of the other. A document gives known facts just when it gives partial facts of
which none is unknown (`readKnownFacts_eq_ok`).

As in `PolicyWire`, what is read back is the document, not its text.
-/

namespace Gatekeep

open Serde

namespace Wire

/-! ## Fact bundles -/

/-- A presence with its stored value. -/
def writeFact (e : Presence × Option TraceValue) : Json :=
  .arr [presence.write e.1, writeOption id e.2]

def readFact : Reader WireError (Presence × Option TraceValue) :=
  readPair presence.read (readOption readValue)

def readFactId (key : String) : Except (Error WireError) FactId :=
  customError .identity (OwnedId.new "fact_id" key)

def writeFacts (facts : Facts) : Json :=
  .obj (facts.toList.map fun e => (e.1.value, writeFact e.2))

def readFacts : Reader WireError Facts := readMap readFactId readFact

def readPartialFacts : Reader WireError PartialFacts := fun j => (readFacts j).map .mk

inductive KnownFactsError where
  | facts (error : Error WireError)
  | unknown (reason : String)
deriving DecidableEq

def readKnownFacts (j : Json) : Except KnownFactsError KnownFacts := do
  let facts ← (readFacts j).mapError .facts
  (KnownFacts.deserialize facts).mapError .unknown

end Wire

/-- What a bundle reads back as: a stored value of `null` is lost, and no presence is. -/
def Facts.durable (facts : Facts) : Facts :=
  facts.map fun _ e => (e.1, e.2.filter (· ≠ .null))

@[simp] theorem Facts.observation_durable (facts : Facts) (fact : FactId) :
    facts.durable.observation fact = facts.observation fact := by
  rw [observation, observation, durable, Std.ExtTreeMap.getElem?_map, Option.map_map]
  rfl

def KnownFacts.durable (facts : KnownFacts) : KnownFacts where
  entries := facts.entries.durable
  noUnknown fact := by
    rw [Facts.observation_durable]
    exact facts.noUnknown fact

theorem KnownFacts.presence_durable (facts : KnownFacts) :
    facts.durable.presence = facts.presence :=
  funext fun _ => presence_eq_of_observation (Facts.observation_durable facts.entries _)

theorem KnownFacts.deserialize_eq_ok {facts : Facts} {known : KnownFacts} :
    KnownFacts.deserialize facts = .ok known ↔ known.entries = facts := by
  unfold deserialize
  split
  · rename_i h
    obtain ⟨e, he, hu⟩ := List.any_eq_true.mp h
    refine ⟨fun hk => ?_, fun hk => ?_⟩
    · cases hk
    · subst hk
      exact absurd (Facts.mem_iter.mp (by rw [← beq_iff_eq.mp hu]; exact he))
        (known.noUnknown e.1)
  · constructor
    · intro h
      cases h
      rfl
    · rintro rfl
      rfl

namespace Wire

theorem readFactId_value (fact : FactId) : readFactId fact.value = .ok fact := by
  rw [readFactId, fact.new_value (by decide), customError_ok]

theorem readFact_writeFact (e : Presence × Option TraceValue) :
    readFact (writeFact e) = .ok (e.1, e.2.filter (· ≠ .null)) := by
  simp only [readFact, writeFact, readPair, presence.read_write, Result.ok_bind, readOption_value]
  rfl

theorem readFacts_writeFacts (facts : Facts) : readFacts (writeFacts facts) = .ok facts.durable :=
  readMap_map readFactId_value readFact_writeFact facts

/-- Known facts are read where partial facts without an unknown one would be. -/
theorem readKnownFacts_eq_ok {j : Json} {known : KnownFacts} :
    readKnownFacts j = .ok known ↔ readPartialFacts j = .ok ⟨known.entries⟩ := by
  simp only [readKnownFacts, Result.bind_eq_ok, Result.mapError_eq_ok, readPartialFacts,
    Result.map_eq_ok, KnownFacts.deserialize_eq_ok, PartialFacts.mk.injEq]
  exact exists_congr fun facts => and_congr_right fun _ => eq_comm

theorem readKnownFacts_writeFacts (known : KnownFacts) :
    readKnownFacts (writeFacts known.entries) = .ok known.durable := by
  rw [readKnownFacts_eq_ok, readPartialFacts, readFacts_writeFacts]
  rfl

/-! ## Decisions -/

variable {O : Type} (outcome : Format WireError O)

def writeEffect : Effect O → Json
  | .permit o => .obj [("Permit", outcome.write o)]
  | .deny => .str "Deny"

def readEffect : Reader WireError (Effect O) := fun j => do
  let (name, content) ← readVariant j
  match name with
  | "Permit" => (readContent content >>= outcome.read).map .permit
  | "Deny" => readEmpty .deny content
  | _ => .error (.unknownVariant name)

def writeDecisive : DecisiveClause O → Json
  | .permit granted satisfied label => .obj [("Permit", .obj [
      ("granted", outcome.write granted),
      ("satisfied", factIds.write satisfied),
      ("label", writeOption clauseLabel.write label)])]
  | .deny denied unsatisfied label reason shape => .obj [("Deny", .obj [
      ("denied", writeOption outcome.write denied),
      ("unsatisfied", factIds.write unsatisfied),
      ("label", writeOption clauseLabel.write label),
      ("reason", writeOption reasonCode.write reason),
      ("shape", denyShape.write shape)])]

def readDecisive : Reader WireError (DecisiveClause O) := fun j => do
  let (name, content) ← readVariant j
  match name with
  | "Permit" =>
    let r ← readContent content >>= Record.ofJson ["granted", "satisfied", "label"]
    let granted ← r.field 0 "granted" outcome
    let satisfied ← r.required 1 "satisfied" factIds.read
    let label ← r.optional 2 "label" clauseLabel.read
    return .permit granted satisfied label
  | "Deny" =>
    let r ← readContent content >>=
      Record.ofJson ["denied", "unsatisfied", "label", "reason", "shape"]
    let denied ← r.optional 0 "denied" outcome.read
    let unsatisfied ← r.required 1 "unsatisfied" factIds.read
    let label ← r.optional 2 "label" clauseLabel.read
    let reason ← r.optional 3 "reason" reasonCode.read
    let shape ← r.required 4 "shape" denyShape.read
    return .deny denied unsatisfied label reason shape
  | _ => .error (.unknownVariant name)

def writeDecisionTrace (t : DecisionTrace O) : Json :=
  .obj [("consulted", consulted.write t.consulted), ("decisive", writeDecisive outcome t.decisive)]

def readDecisionTrace : Reader WireError (DecisionTrace O) := fun j => do
  let r ← Record.ofJson ["consulted", "decisive"] j
  let consulted ← r.required 0 "consulted" consulted.read
  let decisive ← r.required 1 "decisive" (readDecisive outcome)
  return ⟨consulted, decisive⟩

def writeDecision (d : Decision O) : Json := .obj [
  ("effect", writeEffect outcome d.effect),
  ("obligations", obligationIds.write d.obligations),
  ("trace", writeDecisionTrace outcome d.trace)]

def readDecision : Reader WireError (Decision O) := fun j => do
  let r ← Record.ofJson ["effect", "obligations", "trace"] j
  let effect ← r.required 0 "effect" (readEffect outcome)
  let obligations ← r.required 1 "obligations" obligationIds.read
  let trace ← r.required 2 "trace" (readDecisionTrace outcome)
  return ⟨effect, obligations, trace⟩

theorem readEffect_writeEffect (e : Effect O) :
    readEffect outcome (writeEffect outcome e) = .ok e := by
  cases e with
  | permit o =>
    simp only [writeEffect, readEffect, readVariant, readContent, Result.ok_bind,
      Format.read_write]
    rfl
  | deny => rfl

theorem readDecisive_writeDecisive (c : DecisiveClause O) :
    readDecisive outcome (writeDecisive outcome c) = .ok (c.durable outcome) := by
  cases c with
  | permit granted satisfied label =>
    simp only [writeDecisive, readDecisive, readVariant, readContent, Result.ok_bind]
    rw [Record.ofJson_obj (by simp), Result.ok_bind, Record.field_write rfl, Result.ok_bind,
      Record.required_write rfl, Result.ok_bind, Record.optional_write rfl]
    rfl
  | deny denied unsatisfied label reason shape =>
    simp only [writeDecisive, readDecisive, readVariant, readContent, Result.ok_bind]
    rw [Record.ofJson_obj (by simp), Result.ok_bind, Record.optional_format rfl, Result.ok_bind,
      Record.required_write rfl, Result.ok_bind, Record.optional_write rfl, Result.ok_bind,
      Record.optional_write rfl, Result.ok_bind, Record.required_write rfl]
    rfl

theorem readDecisionTrace_writeDecisionTrace (t : DecisionTrace O) :
    readDecisionTrace outcome (writeDecisionTrace outcome t) =
      .ok ⟨t.consulted, t.decisive.durable outcome⟩ := by
  rw [readDecisionTrace, writeDecisionTrace, Record.ofJson_obj (by simp), Result.ok_bind,
    Record.required_write rfl, Result.ok_bind, Record.required_of_find rfl,
    readDecisive_writeDecisive]
  rfl

theorem readDecision_writeDecision (d : Decision O) :
    readDecision outcome (writeDecision outcome d) = .ok (d.durable outcome) := by
  rw [readDecision, writeDecision, Record.ofJson_obj (by simp), Result.ok_bind,
    Record.required_of_find rfl, readEffect_writeEffect, Result.ok_bind,
    Record.required_write rfl, Result.ok_bind, Record.required_of_find rfl,
    readDecisionTrace_writeDecisionTrace]
  rfl

variable [Serialize O] {outcome}

theorem writeClause_traceClause (h : ∀ o : O, Serialize.toValue o = .ok (outcome.write o))
    (c : DecisiveClause O) : ∃ clause, Decision.traceClause c = .ok clause ∧
      writeClause clause = writeDecisive outcome c := by
  have hvalue : ∀ o : O, Decision.traceValue o = .ok (outcome.write o) := fun o => by
    rw [Decision.traceValue, h]
    rfl
  cases c with
  | permit granted satisfied label =>
    exact ⟨_, by rw [Decision.traceClause, hvalue]; rfl, rfl⟩
  | deny denied unsatisfied label reason shape =>
    cases denied with
    | none => exact ⟨_, rfl, rfl⟩
    | some o => exact ⟨_, by rw [Decision.traceClause, hvalue]; rfl, rfl⟩

/-- The erased trace of a decision is written as the typed one is. -/
theorem writeTrace_toTrace (h : ∀ o : O, Serialize.toValue o = .ok (outcome.write o))
    (d : Decision O) : ∃ trace, d.toTrace = .ok trace ∧
      writeTrace trace = writeDecisionTrace outcome d.trace := by
  obtain ⟨clause, hclause, hwrite⟩ := writeClause_traceClause h d.trace.decisive
  refine ⟨⟨d.trace.consulted, clause⟩, by rw [Decision.toTrace, hclause]; rfl, ?_⟩
  rw [writeTrace, writeDecisionTrace, hwrite]

end Wire

/-- Only the requested outcome of a denial can be lost of a decision. -/
theorem Decision.durable_eq_self {O : Type} (outcome : Format WireError O) (d : Decision O) :
    d.durable outcome = d ↔ ∀ o ∈ d.trace.decisive.denied, outcome.write o ≠ .null := by
  obtain ⟨effect, obligations, consulted, decisive⟩ := d
  cases decisive with
  | permit => simp [durable, DecisiveClause.durable, DecisiveClause.denied]
  | deny =>
    simp [durable, DecisiveClause.durable, DecisiveClause.denied, outcome.durable_eq_self]

open Wire

section Documents

variable {O : Type} [Lattice O] [DecidableEq O]

theorem evaluate_durable (policy : Policy O) (known : KnownFacts) :
    evaluate policy known.durable = evaluate policy known := by
  have htruth : known.durable.truth = known.truth := by
    funext fact
    rw [KnownFacts.truth, KnownFacts.truth, known.presence_durable]
  rw [evaluate_eq, evaluate_eq, htruth, known.presence_durable]

/-- A policy and known facts that were stored decide as they did, and the decision reads back but
for a requested outcome that is written as `null`. Its trace and the erased trace have one document,
from which each of the two is read back. -/
theorem stored_evaluation [Serialize O] (outcome : Format WireError O)
    (h : ∀ o : O, Serialize.toValue o = .ok (outcome.write o)) (policy : Policy O)
    (known : KnownFacts) :
    ∃ policy' known' trace, readPolicy outcome (writePolicy outcome policy) = .ok policy' ∧
      readKnownFacts (writeFacts known.entries) = .ok known' ∧
      evaluate policy' known' = evaluate policy known ∧
      (evaluate policy known).toTrace = .ok trace ∧
      writeTrace trace = writeDecisionTrace outcome (evaluate policy known).trace ∧
      readDecision outcome (writeDecision outcome (evaluate policy known)) =
        .ok ((evaluate policy known).durable outcome) ∧
      readDecisionTrace outcome (writeTrace trace) =
        .ok ((evaluate policy known).durable outcome).trace ∧
      readTrace (writeDecisionTrace outcome (evaluate policy known).trace) =
        .ok ⟨trace.consulted, trace.decisive.durable⟩ ∧
      ((evaluate policy known).durable outcome = evaluate policy known ↔
        ∀ o ∈ (evaluate policy known).trace.decisive.denied, outcome.write o ≠ .null) := by
  obtain ⟨trace, htrace, hwrite⟩ := writeTrace_toTrace h (evaluate policy known)
  refine ⟨policy, known.durable, trace, readPolicy_writePolicy outcome policy,
    readKnownFacts_writeFacts known, evaluate_durable policy known, htrace,
    hwrite, readDecision_writeDecision outcome _, ?_, ?_, Decision.durable_eq_self outcome _⟩
  · rw [hwrite, readDecisionTrace_writeDecisionTrace]
    rfl
  · rw [← hwrite, readTrace_writeTrace]

end Documents

namespace Wire

/-- The unit outcome is written as `null`. -/
def unitOutcome : Format WireError Unit where
  write _ := .null
  read
    | .null => .ok ()
    | _ => .error .invalidType
  absent := none
  read_write _ := rfl

end Wire

open Sample in
/-- The principal is known not to own: the decision that is read back requested nothing, and its two
traces have one document, which names the fact. -/
theorem stored_evaluation_owner :
    let d := evaluate (grantIf (.has owner) []) (KnownFacts.new.withAbsent owner)
    d.trace.consulted = [(owner, .absent)] ∧
      (d.durable unitOutcome).trace.decisive = .deny none [owner] none none .forbidden ∧
      ¬ d.durable unitOutcome = d ∧
      ∃ trace, d.toTrace = .ok trace ∧ writeTrace trace = writeDecisionTrace unitOutcome d.trace := by
  intro d
  obtain ⟨_, _, trace, -, -, -, htrace, hwrite, -, -, -, hlost⟩ := stored_evaluation unitOutcome
    (fun _ => rfl) (grantIf (.has owner) []) (KnownFacts.new.withAbsent owner)
  refine ⟨by decide +kernel, by decide +kernel, fun hself => ?_, trace, htrace, hwrite⟩
  exact hlost.mp hself () (by decide +kernel) rfl

end Gatekeep
