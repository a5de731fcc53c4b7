import Gatekeep.Authorization
import Gatekeep.Support.Decimal

/-!
# Gatekeep.Keepsake

The fact resolver over Keepsake relations, the crate `gatekeep-keepsake`. A fact is bound to a
relation of the principal or of a named subject of the request, and is present when that subject
holds the relation at the time of the decision. Relations are looked up by subject: one call for
all facts that share a subject slot.

The `keepsake` crate itself is outside. `Keepsake` lists what the adapter calls of it and says
nothing about it; what a result needs to know is a hypothesis of its own. The source of relations
acts on a world of an arbitrary type and may answer as it likes.
-/

namespace Gatekeep

open Traced

/-! ## The crate -/

abbrev RelationId := BitVec 128

abbrev KeepsakeId := BitVec 128

/-- What the adapter uses of the `keepsake` crate. The accessors of an assignment are those of the
`Keepsake` stored in an `ActiveRelation`. -/
structure Keepsake where
  TenantId : Type
  SubjectRef : Type
  ActiveRelation : Type
  LifecycleState : Type
  ObservationTime : Type
  FulfillmentSnapshot : Type
  KeepsakeError : Type
  EffectiveRelationError : Type
  decTenantId : DecidableEq TenantId
  decSubjectRef : DecidableEq SubjectRef
  decLifecycleState : DecidableEq LifecycleState
  newTenantId : String → Except KeepsakeError TenantId
  newSubjectRef : String → String → Except KeepsakeError SubjectRef
  tenantId : ActiveRelation → TenantId
  subject : ActiveRelation → SubjectRef
  relationId : ActiveRelation → RelationId
  id : ActiveRelation → KeepsakeId
  expiresAt : ActiveRelation → Option OffsetDateTime
  /-- The assignment ends when it is fulfilled, which only evidence can tell. -/
  hasFulfillmentPolicy : ActiveRelation → Bool
  applied : LifecycleState
  authoritative : OffsetDateTime → ObservationTime
  instant : ObservationTime → Except EffectiveRelationError OffsetDateTime
  effectiveState : ObservationTime → ActiveRelation → Option FulfillmentSnapshot →
    Except EffectiveRelationError LifecycleState

namespace Keepsake

variable (K : Keepsake)

instance : DecidableEq K.TenantId := K.decTenantId

instance : DecidableEq K.SubjectRef := K.decSubjectRef

instance : DecidableEq K.LifecycleState := K.decLifecycleState

structure FulfillmentEvidence where
  tenantId : K.TenantId
  keepsakeId : KeepsakeId
  snapshot : K.FulfillmentSnapshot

/-- The assignment of one relation to one subject, or that there is none. -/
structure RelationSnapshot where
  tenantId : K.TenantId
  subject : K.SubjectRef
  relationId : RelationId
  active : Option K.ActiveRelation

/-- The state at an authoritative time, without evidence of fulfillment. -/
abbrev stateAt (time : OffsetDateTime) (assignment : K.ActiveRelation) :
    Except K.EffectiveRelationError K.LifecycleState :=
  K.effectiveState (K.authoritative time) assignment none

end Keepsake

/-! ## Errors -/

inductive KeepsakeResolveError (K : Keepsake) (E : Type) where
  | provenance (error : TenantBindingError)
  | scopeMismatch
  | effective (error : K.EffectiveRelationError)
  | subject (error : K.KeepsakeError)
  | source (error : E)
  | gatekeep (error : GatekeepError)

inductive KeepsakeTargetError (K : Keepsake) where
  | missingBinding (fact : FactId)
  | missingSubjectSlot (fact : FactId) (slot : SubjectSlot)
  | subject (fact : FactId) (source : K.KeepsakeError)
  | tenant (fact : FactId) (source : K.KeepsakeError)

/-- A target error as an error of resolving. -/
def KeepsakeTargetError.toResolveError {K : Keepsake} {E : Type} :
    KeepsakeTargetError K → ResolveError (KeepsakeResolveError K E)
  | .missingBinding fact => .missingFact fact
  | .missingSubjectSlot fact slot => .missingSubject fact slot
  | .subject _ source | .tenant _ source => .backend (.subject source)

inductive EffectiveFactError (K : Keepsake) where
  | scopeMismatch
  | fulfillmentScopeMismatch
  | evidence (error : K.EffectiveRelationError)

/-! ## Targets -/

/-- Resolved keepsake target for a fact binding. -/
structure KeepsakeRelationTarget (K : Keepsake) where
  tenantId : K.TenantId
  fact : FactId
  subject : K.SubjectRef
  relationId : RelationId
  subjectSlot : Option SubjectSlot

namespace KeepsakeRelationTarget

variable {K : Keepsake}

/-- The evidence is about another tenant or another incarnation of the assignment. -/
def mismatches (active : K.ActiveRelation) : Option K.FulfillmentEvidence → Bool
  | none => false
  | some evidence =>
    evidence.tenantId ≠ K.tenantId active || evidence.keepsakeId ≠ K.id active

/-- Effective presence from one scoped assignment or absence. -/
def effectivePresence (target : KeepsakeRelationTarget K) (time : K.ObservationTime)
    (snapshot : K.RelationSnapshot) (fulfillment : Option K.FulfillmentEvidence) :
    Except (EffectiveFactError K) Presence := do
  discard <| (K.instant time).mapError .evidence
  if snapshot.tenantId ≠ target.tenantId ∨ snapshot.subject ≠ target.subject ∨
      snapshot.relationId ≠ target.relationId then
    .error .scopeMismatch
  else
    match snapshot.active with
    | none => if fulfillment.isSome then .error .fulfillmentScopeMismatch else .ok .absent
    | some active =>
      if mismatches active fulfillment then .error .fulfillmentScopeMismatch
      else
        let state ← (K.effectiveState time active
          (fulfillment.map Keepsake.FulfillmentEvidence.snapshot)).mapError .evidence
        return if state = K.applied then .present else .absent

end KeepsakeRelationTarget

/-! ## Bindings and subjects -/

/-- Whether a fact is resolved during query preparation. -/
inductive QueryPresence where
  | resolve
  | defer
deriving DecidableEq

/-- Mapping from one fact to one relation. -/
structure FactBinding where
  fact : FactId
  relationId : RelationId
  subjectSlot : Option SubjectSlot
  queryPresence : QueryPresence
deriving DecidableEq

abbrev SubjectMapper (K : Keepsake) := Context → Except K.KeepsakeError K.SubjectRef

def tenantPrincipalKind (tenant principalKind : String) : String :=
  "tenant:" ++ toString tenant.utf8ByteSize ++ ":" ++ tenant ++
    "principal:" ++ toString principalKind.utf8ByteSize ++ ":" ++ principalKind

/-- `TenantScopedSubjectMapper`, the default. -/
def tenantScopedSubject (K : Keepsake) : SubjectMapper K := fun cx =>
  K.newSubjectRef (tenantPrincipalKind cx.tenant.value cx.principal.kind.value)
    cx.principal.id.value

/-- `PrincipalSubjectMapper`. -/
def principalSubject (K : Keepsake) : SubjectMapper K := fun cx =>
  K.newSubjectRef cx.principal.kind.value cx.principal.id.value

/-! ## The resolver -/

/-- `active_relations_for_subject_by_ids` of a source. -/
abbrev ActiveRelationSource (K : Keepsake) (σ E : Type) :=
  K.TenantId → K.SubjectRef → List RelationId → σ → Except E (List K.ActiveRelation) × σ

/-- Resolves facts from active relations. Every binding is filed under its own fact. -/
structure KeepsakeResolver (K : Keepsake) (σ E : Type) where
  source : ActiveRelationSource K σ E
  subjectMapper : SubjectMapper K
  bindings : Std.ExtTreeMap FactId FactBinding
  filed : ∀ (fact : FactId) (binding : FactBinding),
    bindings[fact]? = some binding → binding.fact = fact

/-- A call of the resolver, with its answer. -/
inductive KeepsakeCall (K : Keepsake) (E : Type) where
  | now (time : OffsetDateTime)
  | lookup (tenantId : K.TenantId) (subject : K.SubjectRef) (relationIds : List RelationId)
      (answer : Except E (List K.ActiveRelation))

/-- The relations to look up for one subject. -/
structure SubjectLookup (K : Keepsake) where
  subject : K.SubjectRef
  relationIds : Std.ExtTreeSet RelationId

/-- The relations in effect, and the first of their deadlines. -/
structure EffectiveRelations where
  ids : Finset (Option SubjectSlot × RelationId)
  expiresAt : Option OffsetDateTime

/-- The lookups of one request, by subject slot. -/
abbrev Grouped (K : Keepsake) := Std.ExtTreeMap (Option SubjectSlot) (SubjectLookup K)

namespace SubjectLookup

variable {K : Keepsake} {E : Type}

/-- The assignment is what was asked for. -/
def InScope (lookup : SubjectLookup K) (tenant : K.TenantId) (assignment : K.ActiveRelation) :
    Prop :=
  K.tenantId assignment = tenant ∧ K.subject assignment = lookup.subject ∧
    K.relationId assignment ∈ lookup.relationIds

instance (lookup : SubjectLookup K) (tenant : K.TenantId) (assignment : K.ActiveRelation) :
    Decidable (lookup.InScope tenant assignment) :=
  inferInstanceAs (Decidable (_ ∧ _ ∧ _))

/-- The assignments in effect at a time. -/
def effective (lookup : SubjectLookup K) (tenant : K.TenantId) (time : OffsetDateTime) :
    List K.ActiveRelation → Except (KeepsakeResolveError K E) (List K.ActiveRelation)
  | [] => .ok []
  | assignment :: assignments =>
    if lookup.InScope tenant assignment then do
      let state ← (K.stateAt time assignment).mapError .effective
      let rest ← effective lookup tenant time assignments
      return if state = K.applied then assignment :: rest else rest
    else .error .scopeMismatch

/-- Enter one target. -/
def enter (grouped : Grouped K) (target : KeepsakeRelationTarget K) : Grouped K :=
  grouped.alter target.subjectSlot fun
    | some lookup => some { lookup with relationIds := lookup.relationIds.insert target.relationId }
    | none => some ⟨target.subject, (∅ : Std.ExtTreeSet RelationId).insert target.relationId⟩

end SubjectLookup

namespace EffectiveRelations

variable {K : Keepsake}

def empty : EffectiveRelations := ⟨∅, none⟩

def insert (active : EffectiveRelations) (slot : Option SubjectSlot)
    (assignment : K.ActiveRelation) : EffectiveRelations where
  ids := Insert.insert (slot, K.relationId assignment) active.ids
  expiresAt :=
    match K.expiresAt assignment with
    | some deadline =>
      some (match active.expiresAt with
        | some current => current.min deadline
        | none => deadline)
    | none => active.expiresAt

def metadata (active : EffectiveRelations) : Except TenantBindingError FactResolutionMetadata := do
  let source ← BindingProvenance.new "keepsake.effective-snapshot"
  return ⟨source, none, active.expiresAt⟩

def relationPresence (active : EffectiveRelations) (slot : Option SubjectSlot)
    (relationId : RelationId) : Presence :=
  if (slot, relationId) ∈ active.ids then .present else .absent

end EffectiveRelations

namespace KeepsakeResolver

variable {K : Keepsake} {σ E : Type} (r : KeepsakeResolver K σ E)

def insertBinding (binding : FactBinding) : KeepsakeResolver K σ E where
  source := r.source
  subjectMapper := r.subjectMapper
  bindings := r.bindings.insert binding.fact binding
  filed fact b h := by
    rw [Std.ExtTreeMap.getElem?_insert] at h
    split at h
    · rename_i hfact
      cases h
      exact Std.LawfulEqCmp.eq_of_compare hfact
    · exact r.filed fact b h

/-- The subject part of `target_for_binding`. -/
def subjectForBinding (binding : FactBinding) (cx : Context) :
    Except (KeepsakeTargetError K) K.SubjectRef :=
  match binding.subjectSlot with
  | some slot =>
    match cx.subjects[slot]? with
    | none => .error (.missingSubjectSlot binding.fact slot)
    | some subject =>
      (K.newSubjectRef subject.kind.value subject.id.value).mapError (.subject binding.fact)
  | none => (r.subjectMapper cx).mapError (.subject binding.fact)

def targetForBinding (binding : FactBinding) (cx : Context) :
    Except (KeepsakeTargetError K) (KeepsakeRelationTarget K) := do
  let tenantId ← (K.newTenantId cx.tenant.value).mapError (.tenant binding.fact)
  let subject ← r.subjectForBinding binding cx
  return ⟨tenantId, binding.fact, subject, binding.relationId, binding.subjectSlot⟩

def targetForFact (fact : FactId) (cx : Context) :
    Except (KeepsakeTargetError K) (KeepsakeRelationTarget K) :=
  match r.bindings[fact]? with
  | none => .error (.missingBinding fact)
  | some binding => r.targetForBinding binding cx

abbrev Error (K : Keepsake) (E : Type) := ResolveError (KeepsakeResolveError K E)

abbrev Run (K : Keepsake) (σ E α : Type) := Act σ (KeepsakeCall K E) (Error K E) α

def bindingsFor : List FactId → Except (Error K E) (List FactBinding)
  | [] => .ok []
  | fact :: facts =>
    match r.bindings[fact]? with
    | none => .error (.missingFact fact)
    | some binding => do
      let bindings ← bindingsFor facts
      return binding :: bindings

/-- The loop that groups the bindings' targets by subject slot. -/
def group (cx : Context) : List FactBinding → Grouped K → Except (Error K E) (Grouped K)
  | [], grouped => .ok grouped
  | binding :: bindings, grouped => do
    let target ← (r.targetForBinding binding cx).mapError KeepsakeTargetError.toResolveError
    group cx bindings (SubjectLookup.enter grouped target)

/-- One lookup, and what of its answer is in effect. -/
def lookUp (tenantId : K.TenantId) (time : OffsetDateTime) (lookup : SubjectLookup K) :
    Run K σ E (List K.ActiveRelation) := do
  let relationIds := lookup.relationIds.toList
  let answer ← Act.call (r.source tenantId lookup.subject relationIds)
    (.lookup tenantId lookup.subject relationIds)
  let assignments ← Act.check (fun e => .backend (.source e)) answer
  Act.check .backend (lookup.effective tenantId time assignments)

/-- The loop over the groups. -/
def lookUpAll (tenantId : K.TenantId) (time : OffsetDateTime) :
    List (Option SubjectSlot × SubjectLookup K) → EffectiveRelations → Run K σ E EffectiveRelations
  | [], active => pure active
  | (slot, lookup) :: groups, active => do
    let assignments ← r.lookUp tenantId time lookup
    lookUpAll tenantId time groups (assignments.foldl (·.insert slot ·) active)

def activeRelationIdsBySubject (cx : Context) (bindings : List FactBinding)
    (time : OffsetDateTime) : Run K σ E EffectiveRelations := do
  let grouped ← Act.check id (r.group cx bindings ∅)
  let tenantId ← Act.check (fun e => .backend (.subject e)) (K.newTenantId cx.tenant.value)
  r.lookUpAll tenantId time grouped.toList .empty

/-- How both ways of resolving end: the facts, with metadata about what was found. -/
def conclude {F : Type} (facts : F) (active : EffectiveRelations) (observedAt : OffsetDateTime) :
    Run K σ E (FactResolution F) := do
  let metadata ← Act.check (fun e => .backend (.provenance e)) active.metadata
  Act.check .resolution (FactResolution.new facts (some metadata) observedAt)

def resolveForDecision (required : List FactId) (cx : Context)
    (clock : σ → OffsetDateTime × σ) : Run K σ E (FactResolution KnownFacts) := do
  let observedAt ← Act.call clock .now
  let bindings ← Act.check id (r.bindingsFor required)
  let active ← r.activeRelationIdsBySubject cx bindings observedAt
  let facts ← Act.check (fun e => .backend (.gatekeep e)) (KnownFacts.fromEntries
    (bindings.map fun b => (b.fact, active.relationPresence b.subjectSlot b.relationId)))
  conclude facts active observedAt

/-- The presence of a binding's fact in a query. -/
def queryPresenceOf (active : EffectiveRelations) (b : FactBinding) : Presence :=
  match b.queryPresence with
  | .resolve => active.relationPresence b.subjectSlot b.relationId
  | .defer => .unknown

/-- The lookup of `resolve_for_query`: deferred bindings are left out, and without others there is
none. -/
def queryRelations (cx : Context) (bindings : List FactBinding) (time : OffsetDateTime) :
    Run K σ E EffectiveRelations :=
  if bindings.any fun b => b.queryPresence == .resolve then
    r.activeRelationIdsBySubject cx (bindings.filter fun b => b.queryPresence == .resolve) time
  else pure .empty

def resolveForQuery (required : List FactId) (cx : Context)
    (clock : σ → OffsetDateTime × σ) : Run K σ E (FactResolution PartialFacts) := do
  let observedAt ← Act.call clock .now
  let bindings ← Act.check id (r.bindingsFor required)
  let active ← r.queryRelations cx bindings observedAt
  let facts := PartialFacts.fromEntries (bindings.map fun b => (b.fact, queryPresenceOf active b))
  conclude facts active observedAt

end KeepsakeResolver

namespace Sample

/-- An assignment without a fulfillment policy, as plain data. -/
structure Assignment where
  tenant : String
  subject : String × String
  relation : RelationId
  expiresAt : Option OffsetDateTime

inductive Lifecycle where
  | applied
  | expired
deriving DecidableEq

/-- Assignments that are applied until their deadline; a stale time tells nothing. -/
def keepsake : Keepsake where
  TenantId := String
  SubjectRef := String × String
  ActiveRelation := Assignment
  LifecycleState := Lifecycle
  ObservationTime := Option OffsetDateTime
  FulfillmentSnapshot := Unit
  KeepsakeError := Unit
  EffectiveRelationError := Unit
  decTenantId := inferInstance
  decSubjectRef := inferInstance
  decLifecycleState := inferInstance
  newTenantId := .ok
  newSubjectRef kind id := .ok (kind, id)
  tenantId := Assignment.tenant
  subject := Assignment.subject
  relationId := Assignment.relation
  id _ := 0
  expiresAt := Assignment.expiresAt
  hasFulfillmentPolicy _ := false
  applied := .applied
  authoritative := some
  instant
    | some time => .ok time
    | none => .error ()
  effectiveState time assignment _ :=
    match time, assignment.expiresAt with
    | none, _ => .error ()
    | some time, some deadline => .ok (if time < deadline then .applied else .expired)
    | some _, none => .ok .applied

/-- An hour after `noon`. -/
def one : OffsetDateTime :=
  ⟨1767272400, 0, 0, OffsetDateTime.zero_nano_lt, OffsetDateTime.zero_offset_bound, by decide⟩

/-- The principal of `request` owns until `one`. -/
def owns : Assignment := ⟨"acme", ("user", "u1"), 1, some one⟩

/-- The assignments of a store, by scope. -/
def storedFor (stored : List Assignment) (tenant : String) (subject : String × String)
    (relationIds : List RelationId) : List Assignment :=
  stored.filter fun a => a.tenant = tenant ∧ a.subject = subject ∧ a.relation ∈ relationIds

/-- Ownership and membership are relations of the principal; nothing changes in the store. -/
def ownersAndMembers : KeepsakeResolver keepsake Unit Unit :=
  let unbound : KeepsakeResolver keepsake Unit Unit :=
    { source := fun tenant subject relationIds w =>
        (.ok (storedFor [owns] tenant subject relationIds), w)
      subjectMapper := principalSubject keepsake
      bindings := ∅
      filed := by simp }
  (unbound.insertBinding ⟨owner, 1, none, .resolve⟩).insertBinding ⟨member, 2, none, .defer⟩

def clockAt (time : OffsetDateTime) : Unit → OffsetDateTime × Unit := fun w => (time, w)

end Sample

/-! ## Subjects of tenants -/

/-- Tenant and kind stand in the text behind their sizes, so neither can pass for a part of the
other. -/
theorem tenantPrincipalKind_injective {tenant tenant' kind kind' : String}
    (h : tenantPrincipalKind tenant kind = tenantPrincipalKind tenant' kind') :
    tenant = tenant' ∧ kind = kind' := by
  have hsized : ∀ t k : String, tenantPrincipalKind t k =
      "tenant:" ++ (toString t.utf8ByteSize ++ ":" ++ t ++
        ("principal:" ++ (toString k.utf8ByteSize ++ ":" ++ k ++ ""))) := by
    intro t k
    simp only [tenantPrincipalKind, String.append_assoc, String.append_empty]
  rw [hsized, hsized, String.append_right_inj] at h
  obtain ⟨htenant, hrest⟩ := Decimal.sized_inj h
  rw [String.append_right_inj] at hrest
  exact ⟨htenant, (Decimal.sized_inj hrest).1⟩

/-- With a store that keeps kind and id as they are given, two requests have the same subject only
if they agree on the tenant and on the principal. -/
theorem tenantScopedSubject_injective (K : Keepsake) (kindOf idOf : K.SubjectRef → String)
    (hstored : ∀ kind id subject, K.newSubjectRef kind id = .ok subject →
      kindOf subject = kind ∧ idOf subject = id)
    (cx cx' : Context) (subject subject' : K.SubjectRef)
    (h : tenantScopedSubject K cx = .ok subject) (h' : tenantScopedSubject K cx' = .ok subject')
    (hkind : kindOf subject = kindOf subject') (hid : idOf subject = idOf subject') :
    cx.tenant = cx'.tenant ∧ cx.principal = cx'.principal := by
  obtain ⟨hk, hi⟩ := hstored _ _ _ h
  obtain ⟨hk', hi'⟩ := hstored _ _ _ h'
  rw [hk, hk'] at hkind
  rw [hi, hi'] at hid
  obtain ⟨htenant, hprincipal⟩ := tenantPrincipalKind_injective hkind
  refine ⟨TenantId.ext_value htenant, ?_⟩
  exact SubjectRef.ext (OwnedId.ext_value hprincipal) (OwnedId.ext_value hid)

namespace Sample

/-- The same principal, asking in German under a request id. -/
def german : Context := { traced with locale := ⟨"de", by decide⟩ }

end Sample

open Sample in
theorem tenantScopedSubject_injective_request :
    request ≠ german ∧
      tenantScopedSubject keepsake request = .ok ("tenant:4:acmeprincipal:4:user", "u1") ∧
      tenantScopedSubject keepsake german = .ok ("tenant:4:acmeprincipal:4:user", "u1") ∧
      request.tenant = german.tenant ∧ request.principal = german.principal := by
  have h : tenantScopedSubject keepsake request = .ok ("tenant:4:acmeprincipal:4:user", "u1") := rfl
  have h' : tenantScopedSubject keepsake german = .ok ("tenant:4:acmeprincipal:4:user", "u1") := rfl
  have hne : request ≠ german := by
    intro heq
    have hid : request.requestId = german.requestId := by rw [heq]
    cases hid
  refine ⟨hne, h, h', tenantScopedSubject_injective keepsake Prod.fst Prod.snd ?_ request german
    _ _ h h' rfl rfl⟩
  intro kind id subject hs
  cases hs
  exact ⟨rfl, rfl⟩

end Gatekeep
