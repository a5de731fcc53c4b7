import Gatekeep.Audit

/-!
# Gatekeep.Prepared

Policies prepared for repeated use, `prepared.rs`: a policy with its anchor and the facts it
requires, in their order.

The content hash of a policy is a parameter here; `PolicyHash` computes it.
-/

namespace Gatekeep

variable {O : Type}

/-- `required_facts(policy).into_iter().collect()`. -/
def requiredList (policy : Policy O) : List FactId := (requiredFacts policy).toList

theorem mem_requiredList {policy : Policy O} {fact : FactId} :
    fact ∈ requiredList policy ↔ fact ∈ requiredFacts policy := Std.ExtTreeSet.mem_toList

/-- Immutable policy with its versioned identity and required facts. -/
structure PreparedPolicy (O : Type) where
  policy : Policy O
  anchor : PolicyAnchor
  required : List FactId
  required_eq : required = requiredList policy

theorem PreparedPolicy.mem_required (policy : PreparedPolicy O) {fact : FactId} :
    fact ∈ policy.required ↔ fact ∈ requiredFacts policy.policy := by
  rw [policy.required_eq]
  exact mem_requiredList

def PreparedPolicy.new (hash : Policy O → Except PostcardError PolicyHash) (id : PolicyId)
    (policy : Policy O) : Except PostcardError (PreparedPolicy O) := do
  let policyHash ← hash policy
  return ⟨policy, PolicyAnchor.new id policyHash, requiredList policy, rfl⟩

theorem PreparedPolicy.new_eq_ok {hash : Policy O → Except PostcardError PolicyHash} {id : PolicyId}
    {policy : Policy O} {prepared : PreparedPolicy O} (h : new hash id policy = .ok prepared) :
    prepared.policy = policy ∧ hash policy = .ok prepared.anchor.policyHash := by
  obtain ⟨policyHash, hhash, ⟨⟩⟩ := Result.bind_eq_ok.mp h
  exact ⟨rfl, hhash⟩

end Gatekeep
