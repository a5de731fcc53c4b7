import Gatekeep.Authorization.Batch
import Gatekeep.RecordService.Access
import Gatekeep.Support.Journal

/-!
# Gatekeep.RecordService.Resolver

The tables of the record service and the resolver over them, `fixtures.sql` and `resolver.rs` of
the example `record-service`. The rows of a table carry that its primary key is one.

A batch is loaded by one query, whose rows are looked up again by key for each context. `get_load`
says that a context finds the row it would have found alone.
-/

namespace Gatekeep

namespace RecordService

open Journal

/-! ## Tables -/

/-- A row of `record_access`. -/
structure PermissionRow where
  tenant : String
  person : String
  record : String
  enabled : Bool
  owner : Bool
  shared : Bool
  released : Bool
  emergencyUntil : Option Int64
deriving DecidableEq

abbrev PermissionKey := String × String × String

def PermissionRow.key (row : PermissionRow) : PermissionKey := (row.tenant, row.person, row.record)

/-- A row of `records`. -/
structure RecordRow where
  tenant : String
  id : String
  summary : String
  sharedNotes : String
  privateNotes : String
deriving DecidableEq

def RecordRow.key (row : RecordRow) : String × String := (row.tenant, row.id)

/-- The two tables with their primary keys. -/
structure Tables where
  records : List RecordRow
  recordAccess : List PermissionRow
  recordsKey : Distinct RecordRow.key records
  accessKey : Distinct PermissionRow.key recordAccess

/-- The key under which the permission of a request is stored. -/
def recordId (cx : Context) : String :=
  if cx.principal.kind.value ≠ "person" then ""
  else
    match cx.subjects.toList.find? fun e => e.1.value = "record" ∧ e.2.kind.value = "record" with
    | none => ""
    | some e => e.2.id.value

def permissionKey (cx : Context) : PermissionKey :=
  (cx.tenant.value, cx.principal.id.value, recordId cx)

namespace Tables

variable (T : Tables)

/-- `SELECT .. FROM record_access WHERE tenant = ? AND person = ? AND record = ?`. -/
def permission (key : PermissionKey) : Option PermissionRow :=
  T.recordAccess.find? fun row => row.key = key

/-- `SELECT .. FROM record_access WHERE` one such clause for each context, joined by `OR`. -/
def permissions (contexts : List Context) : List PermissionRow :=
  T.recordAccess.filter fun row => contexts.any fun cx => row.key = permissionKey cx

end Tables

/-! ## Requests -/

inductive IdentityError where
  | identifier (error : GatekeepError)
  | binding (error : TenantBindingError)
  | context (error : ContextError)
deriving DecidableEq

/-- An explicitly trusted local fixture identity and resource. -/
def context (tenant person record : String) (now : OffsetDateTime) :
    Except IdentityError Context := do
  let tenant ← (TenantId.new tenant).mapError .identifier
  let binding ← (TrustedServiceBinding.new tenant "synthetic-local-fixture").mapError .binding
  let principal ← (SubjectRef.new "person" person).mapError .identifier
  let locale ← (Locale.new "en").mapError .identifier
  let cx ← (Context.fromTrustedService binding principal locale now).mapError .context
  let slot ← (OwnedId.new "subject_slot" "record").mapError .identifier
  let subject ← (SubjectRef.new "record" record).mapError .identifier
  return cx.withSubject slot subject

/-! ## Facts of a row -/

/-- The errors of decoding, `sqlx::Error::Decode`. -/
inductive DecodeError where
  | componentRange
  | provenance (error : TenantBindingError)
deriving DecidableEq

/-- `sqlx::Error`; `δ` are the errors of the driver. -/
inductive SqlxError (δ : Type) where
  | decode (error : DecodeError)
  | rowNotFound
  | driver (error : δ)
deriving DecidableEq

def facts (row : Option PermissionRow) (now : Int) : KnownFacts :=
  ((((KnownFacts.new.withBool RecordService.enabled (row.any (·.enabled))).withBool
    RecordService.owner (row.any (·.owner))).withBool
    RecordService.shared (row.any (·.shared))).withBool
    RecordService.released (row.any (·.released))).withBool
    RecordService.emergency ((row.bind (·.emergencyUntil)).any fun expiry => now < expiry.toInt)

variable {δ : Type}

/-- The end of an emergency that is not over. -/
def expiry (row : Option PermissionRow) (now : OffsetDateTime) :
    Except (ResolveError (SqlxError δ)) (Option OffsetDateTime) :=
  match (row.bind (·.emergencyUntil)).filter fun expiry => now.unixTimestamp < expiry.toInt with
  | none => .ok none
  | some expiry =>
    match OffsetDateTime.fromUnixTimestamp expiry.toInt with
    | none => .error (.backend (.decode .componentRange))
    | some time => .ok (some time)

def resolution (row : Option PermissionRow) (now : OffsetDateTime) :
    Except (ResolveError (SqlxError δ)) (FactResolution KnownFacts) := do
  let expiry ← expiry row now
  let source ← (BindingProvenance.new "sqlite.record-access").mapError
    fun e => ResolveError.backend (.decode (.provenance e))
  (FactResolution.new (facts row now.unixTimestamp) (some ⟨source, none, expiry⟩) now).mapError
    .resolution

theorem facts_of_resolution {row : Option PermissionRow} {now : OffsetDateTime}
    {r : FactResolution KnownFacts}
    (h : (resolution row now : ResolveResult (SqlxError δ)) = .ok r) :
    r.facts = facts row now.unixTimestamp := by
  unfold resolution at h
  simp only [Result.bind_eq_ok, Result.mapError_eq_ok] at h
  obtain ⟨expiry, -, source, -, hnew⟩ := h
  unfold FactResolution.new at hnew
  split at hnew <;> cases hnew
  rfl

/-- Every fact is left to the query. -/
def deferred (required : List FactId) : PartialFacts :=
  PartialFacts.fromEntries (required.map fun fact => (fact, .unknown))

/-! ## The resolver -/

/-- The application's pool, the clock, and the count of metadata queries, over a world `E`. -/
structure RecordResolver (E δ : Type) where
  pool : E → Except δ Tables × E
  clock : E → OffsetDateTime × E

namespace RecordResolver

variable {E : Type} (r : RecordResolver E δ)

/-- One metadata query, whatever the number of contexts. -/
def load (contexts : List Context) (w : E × Nat) :
    Except (SqlxError δ) (Std.ExtHashMap PermissionKey PermissionRow) × (E × Nat) :=
  match r.pool w.1 with
  | (.error e, env) => (.error (.driver e), env, w.2 + 1)
  | (.ok T, env) =>
    (.ok (.ofList ((T.permissions contexts).map fun row => (row.key, row))), env, w.2 + 1)

def resolveBatch (_required : List FactId) (contexts : List Context) (w : E × Nat) :
    Except (ResolveError (SqlxError δ)) (List (ResolveResult (SqlxError δ))) × (E × Nat) :=
  if contexts.isEmpty then (.ok [], w)
  else
    match r.load contexts w with
    | (.error e, w) => (.error (.backend e), w)
    | (.ok rows, w) =>
      (.ok (contexts.map fun cx => resolution rows[permissionKey cx]? (r.clock w.1).1),
        (r.clock w.1).2, w.2)

def resolveForDecision (required : List FactId) (cx : Context) (w : E × Nat) :
    ResolveResult (SqlxError δ) × (E × Nat) :=
  match r.resolveBatch required [cx] w with
  | (.error e, w) => (.error e, w)
  | (.ok results, w) => (results.getLast?.getD (.error (.backend .rowNotFound)), w)

def resolver : BatchFactResolver (E × Nat) (SqlxError δ) where
  resolveForDecision := r.resolveForDecision
  resolveBatch := r.resolveBatch

end RecordResolver

/-! ## One query for a batch -/

theorem Tables.permission_eq_some {T : Tables} {key : PermissionKey} {row : PermissionRow} :
    T.permission key = some row ↔ row ∈ T.recordAccess ∧ row.key = key := T.accessKey.find?_key

/-- The row a context of the batch finds is the one its own query finds. -/
theorem get_load (T : Tables) {contexts : List Context} {cx : Context} (hcx : cx ∈ contexts) :
    (Std.ExtHashMap.ofList ((T.permissions contexts).map fun row => (row.key, row)))[permissionKey
      cx]? = T.permission (permissionKey cx) := by
  have hkeys : ((T.permissions contexts).map fun row => (row.key, row)).Pairwise
      fun a b => (a.1 == b.1) = false := by
    rw [List.pairwise_map]
    refine (List.Pairwise.filter _ (List.pairwise_map.mp T.accessKey)).imp fun h => ?_
    simpa using h
  cases h : T.permission (permissionKey cx) with
  | none =>
    rw [Std.ExtHashMap.getElem?_ofList_of_contains_eq_false]
    rw [List.map_map, ← Bool.not_eq_true, List.contains_iff_mem]
    intro hmem
    obtain ⟨row, hrow, hkey⟩ := List.mem_map.mp hmem
    have hsome := Tables.permission_eq_some.mpr ⟨(List.mem_filter.mp hrow).1, hkey⟩
    rw [h] at hsome
    cases hsome
  | some row =>
    obtain ⟨hrow, hkey⟩ := Tables.permission_eq_some.mp h
    refine Std.ExtHashMap.getElem?_ofList_of_mem (k := row.key) (by simp [hkey]) hkeys ?_
    refine List.mem_map.mpr ⟨row, List.mem_filter.mpr ⟨hrow, ?_⟩, rfl⟩
    exact List.any_eq_true.mpr ⟨cx, hcx, by simpa using hkey⟩

/-! ## A batch against its requests one by one -/

section Batch

open Traced

variable {S G E A B O : Type} (r : RecordResolver E δ)

/-- The authorizer of the service, with any sink, observer, identities and digest. -/
def RecordResolver.parts (auditSink : AuditEntry → S → Except A Unit × S)
    (observer : DecisionSummary → S → S) (ids : G → DecisionAuditId × G)
    (digest : KnownFacts → Except PostcardError EvidenceDigest) :
    Parts S G (E × Nat) (SqlxError δ) A where
  resolver := r.resolver
  auditSink
  observer
  clock w := ((r.clock w.1).1, (r.clock w.1).2, w.2)
  ids
  digest

/-- How many metadata queries were made. -/
def queries (w : (S × G) × (E × Nat)) : Nat := w.2.2

variable {auditSink : AuditEntry → S → Except A Unit × S} {observer : DecisionSummary → S → S}
  {ids : G → DecisionAuditId × G} {digest : KnownFacts → Except PostcardError EvidenceDigest}

section Keeps

variable {Resolver ε : Type} (resolver : Resolver)

theorem keeps_nowUtc : Keeps queries (((r.parts auditSink observer ids digest).authorizer
    resolver).nowUtc : Act _ (Call (SqlxError δ) A B) ε _) := .call fun _ => rfl

theorem keeps_occurrenceFor (cx : Context) :
    Keeps queries (((r.parts auditSink observer ids digest).authorizer resolver).occurrenceFor cx :
      Authorizer.Run _ (SqlxError δ) A B _) := by
  unfold Authorizer.occurrenceFor
  cases cx.decisionAuditOccurrence with
  | some o => exact .pure o
  | none =>
    exact .bind (.call fun _ => rfl) fun id => (keeps_nowUtc r resolver).bind fun now => .check _ _

variable [Lattice O] [DecidableEq O] [Serialize O]

theorem keeps_finish (policy : Policy O) (anchor : PolicyAnchor) (required : Option (List FactId))
    (cx : Context) (resolution : FactResolution KnownFacts) :
    Keeps queries (((r.parts auditSink observer ids digest).authorizer resolver).finish policy
      anchor required cx resolution : Authorizer.Run _ (SqlxError δ) A B _) := by
  unfold Authorizer.finish Authorizer.assemble
  refine .bind ?_ fun pending => .mapError _ ?_
  · refine (keeps_nowUtc r resolver).bind fun now => .bind (.check _ _) fun evidence => ?_
    refine (keeps_occurrenceFor r resolver cx).bind fun occurrence => ?_
    exact .bind (.check _ _) fun entry => .pure _
  · refine .bind (.call fun _ => rfl) fun answer => .bind (.check _ _) fun _ => ?_
    exact .bind (.call fun _ => rfl) fun _ => .pure _

end Keeps

section Items

variable [Lattice O] [DecidableEq O] [Serialize O]

theorem keeps_finishItems (policy : PreparedPolicy O)
    (items : List (Context × ResolveResult (SqlxError δ))) :
    Keeps queries ((r.parts auditSink observer ids digest).batch.finishItems policy items :
      Act _ (Call (SqlxError δ) A B) (BatchError (SqlxError δ)) _) := by
  induction items with
  | nil => exact .pure _
  | cons item items ih =>
    unfold Authorizer.finishItems
    refine .bind (.caught (.bind (.check _ _) fun resolution => keeps_finish r _ _ _ _ _ _))
      fun result => ?_
    exact ih.bind fun results => .pure _

theorem keeps_checkContexts (contexts : List Context) (index : Nat) :
    Keeps queries ((r.parts auditSink observer ids digest).batch.checkContexts contexts index :
      Act _ (Call (SqlxError δ) A B) (BatchError (SqlxError δ)) _) := by
  induction contexts generalizing index with
  | nil => exact .pure _
  | cons cx contexts ih =>
    unfold Authorizer.checkContexts
    exact (keeps_nowUtc r _).bind fun now => .bind (.check _ _) fun _ => ih _

variable {T : Tables} {t : OffsetDateTime} (hpool : ∀ e, (r.pool e).1 = .ok T)
  (hclock : ∀ e, (r.clock e).1 = t)

include hpool hclock in
theorem resolveBatch_eq (required : List FactId) (contexts : List Context) (w : E × Nat) :
    (r.resolveBatch required contexts w).1 =
        .ok (contexts.map fun cx => resolution (T.permission (permissionKey cx)) t) ∧
      (r.resolveBatch required contexts w).2.2 = w.2 + if contexts.isEmpty then 0 else 1 := by
  unfold RecordResolver.resolveBatch RecordResolver.load
  by_cases hempty : contexts.isEmpty
  · rw [List.isEmpty_iff] at hempty
    subst hempty
    exact ⟨rfl, rfl⟩
  · have hp := hpool w.1
    rcases hrun : r.pool w.1 with ⟨answer, env⟩
    rw [hrun] at hp
    cases hp
    rw [if_neg hempty, if_neg hempty]
    refine ⟨congrArg Except.ok (List.map_congr_left fun cx hcx => ?_), rfl⟩
    rw [get_load T hcx, hclock]

include hpool hclock in
theorem resolveForDecision_eq (required : List FactId) (cx : Context) (w : E × Nat) :
    (r.resolveForDecision required cx w).1 = resolution (T.permission (permissionKey cx)) t ∧
      (r.resolveForDecision required cx w).2.2 = w.2 + 1 := by
  obtain ⟨hresults, hcount⟩ := resolveBatch_eq r hpool hclock required [cx] w
  unfold RecordResolver.resolveForDecision
  rcases hrun : r.resolveBatch required [cx] w with ⟨answer, w'⟩
  rw [hrun] at hresults hcount
  cases hresults
  exact ⟨rfl, hcount⟩

include hpool hclock in
theorem queries_authorize {policy : PreparedPolicy O} {cx : Context}
    (hvalid : cx.validateAt t = .ok ()) (w : (S × G) × (E × Nat)) :
    queries (((r.parts auditSink observer ids digest).single.authorize policy cx :
      Authorizer.Run _ (SqlxError δ) A B _) w).world = queries w + 1 := by
  set p := r.parts auditSink observer ids digest
  have hnow : (p.single.nowUtc : Authorizer.Run _ (SqlxError δ) A B _) w =
      ⟨.ok t, [.now t], (w.1, (p.clock w.2).2)⟩ := p.nowUtc_eq (fun e => hclock e.1) _ w
  have hcheck : (p.single.checkContext cx : Authorizer.Run _ (SqlxError δ) A B _) w =
      ⟨.ok (), [.now t], (w.1, (p.clock w.2).2)⟩ := by
    unfold Authorizer.checkContext
    rw [Act.bind_of_ok hnow, hvalid]
    rfl
  have hrest : ∀ answer, Keeps queries (Act.check .resolve answer >>= fun resolution =>
      p.single.finish policy.policy policy.anchor (some policy.required) cx resolution :
        Authorizer.Run _ (SqlxError δ) A B _) := fun answer =>
    .bind (.check _ _) fun resolution => keeps_finish r _ _ _ _ _ _
  unfold Authorizer.authorize Authorizer.run Authorizer.resolve
  rw [Act.bind_of_ok hcheck, Act.bind_call]
  exact (hrest _ _).trans
    (resolveForDecision_eq r hpool hclock policy.required cx (p.clock w.2).2).2

include hpool hclock in
theorem queries_authorizeBatch {policy : PreparedPolicy O} {contexts : List Context} {limit : Nat}
    (hlimit : contexts.length ≤ limit) (hvalid : ∀ cx ∈ contexts, cx.validateAt t = .ok ())
    (w : (S × G) × (E × Nat)) :
    queries ((r.parts auditSink observer ids digest).batch.authorizeBatch (T := B) policy contexts
      limit w).world = queries w + if contexts.isEmpty then 0 else 1 := by
  set p := r.parts auditSink observer ids digest
  unfold Authorizer.authorizeBatch
  rw [if_neg (not_lt.mpr hlimit)]
  by_cases hempty : contexts.isEmpty
  · rw [if_pos hempty, if_pos hempty]
    rfl
  rw [if_neg hempty, if_neg hempty]
  beta_reduce
  obtain ⟨checks, e, -, hrun⟩ := p.checkContexts_eq (T := B) (fun e => hclock e.1) hvalid 0 w
  have hchecks : queries (w.1, e) = queries w := by
    have hkeeps : queries ((p.batch.checkContexts contexts 0 :
        Act _ (Call (SqlxError δ) A B) (BatchError (SqlxError δ)) _) w).world = queries w :=
      keeps_checkContexts r contexts 0 w
    rwa [hrun] at hkeeps
  obtain ⟨hload, hcount⟩ := resolveBatch_eq r hpool hclock policy.required contexts e
  have hanswer : (p.batch.resolver.resolveBatch policy.required contexts (w.1, e)).1 =
      .ok (contexts.map fun cx => resolution (T.permission (permissionKey cx)) t) := hload
  rw [Act.bind_of_ok hrun, Act.bind_call, hanswer, Act.bind_check_ok, if_neg (by simp)]
  beta_reduce
  refine (keeps_finishItems r policy _ _).trans ?_
  rw [← hchecks]
  rw [if_neg hempty] at hcount
  exact hcount

include hpool hclock in
theorem queries_afterEach {policy : PreparedPolicy O} {contexts : List Context}
    (hvalid : ∀ cx ∈ contexts, cx.validateAt t = .ok ()) (w : (S × G) × (E × Nat)) :
    queries (Act.afterEach ((r.parts auditSink observer ids digest).single.authorize policy :
      _ → Authorizer.Run _ _ A B _) contexts w) = queries w + contexts.length := by
  induction contexts generalizing w with
  | nil => rfl
  | cons cx contexts ih =>
    rw [List.forall_mem_cons] at hvalid
    have hfirst : queries (((r.parts auditSink observer ids digest).single.authorize policy cx :
        Authorizer.Run _ (SqlxError δ) A B _) w).world = queries w + 1 :=
      queries_authorize r hpool hclock hvalid.1 w
    have hrest := ih hvalid.2 ((r.parts auditSink observer ids digest).single.authorize policy cx
      w : Ran _ (Call (SqlxError δ) A B) _).world
    rw [hfirst] at hrest
    rw [List.length_cons]
    refine hrest.trans ?_
    omega

/-- A batch is its requests one by one, at the cost of one metadata query. While the tables and the
clock stand still, every item has the result of authorizing its context alone, what is recorded and
observed is the same in the same order, and the sink and the identities are left as the single
requests leave them; but the batch makes one query, or none if it is empty, where they make one
each. -/
theorem batch_one_query (r : RecordResolver E δ) (T : Tables) (t : OffsetDateTime)
    (hpool : ∀ e, (r.pool e).1 = .ok T) (hclock : ∀ e, (r.clock e).1 = t)
    (policy : PreparedPolicy O) (contexts : List Context) (limit : Nat)
    (hlimit : contexts.length ≤ limit) (hvalid : ∀ cx ∈ contexts, cx.validateAt t = .ok ())
    (auditSink : AuditEntry → S → Except A Unit × S) (observer : DecisionSummary → S → S)
    (ids : G → DecisionAuditId × G) (digest : KnownFacts → Except PostcardError EvidenceDigest)
    (w : (S × G) × (E × Nat)) :
    let p := r.parts auditSink observer ids digest
    let ran := p.batch.authorizeBatch (T := B) policy contexts limit w
    let calls := Act.each (p.single.authorize policy : _ → Authorizer.Run _ _ A B _) contexts w
    let after :=
      Act.afterEach (p.single.authorize policy : _ → Authorizer.Run _ _ A B _) contexts w
    ran.result = .ok (calls.map Ran.result) ∧
      effects ran.calls = (calls.map fun r => effects r.calls).flatten ∧
      ran.world.1 = after.1 ∧
      queries ran.world = queries w + (if contexts.isEmpty then 0 else 1) ∧
      queries after = queries w + contexts.length := by
  intro p ran calls after
  let answer : Context → ResolveResult (SqlxError δ) :=
    fun cx => resolution (T.permission (permissionKey cx)) t
  have hbatch : ∀ e, (p.resolver.resolveBatch policy.required contexts e).1 =
      .ok (contexts.map answer) :=
    fun e => (resolveBatch_eq r hpool hclock policy.required contexts e).1
  have hanswer : ∀ cx ∈ contexts, ∀ e,
      (p.resolver.resolveForDecision policy.required cx e).1 = answer cx :=
    fun cx _ e => (resolveForDecision_eq r hpool hclock policy.required cx e).1
  obtain ⟨before, e, hbefore, hrun⟩ := p.authorizeBatch_eq (T := B) (fun e => hclock e.1) hlimit
    hvalid hbatch w
  obtain ⟨hmatches, hworld⟩ := p.matches_each (T := B) (fun e => hclock e.1) hvalid hanswer
    (show ((w.1, e) : (S × G) × (E × Nat)).1 = w.1 from rfl)
  refine ⟨?_, ?_, ?_, queries_authorizeBatch r hpool hclock hlimit hvalid w,
    queries_afterEach r hpool hclock hvalid w⟩
  · rw [show ran = _ from hrun, SqlxLowerer.map_eq_of_forall₂ (hmatches.imp fun _ _ h =>
      h.result.symm)]
  · rw [show ran = _ from hrun, effects_append, hbefore, List.nil_append]
    exact Parts.effects_of_matches hmatches
  · rw [show ran = _ from hrun]
    exact hworld

end Items

end Batch

/-! ## The fixtures -/

namespace Fixtures

open Sample

def fixtures : Tables where
  records := [⟨"demo", "one", "Synthetic released summary", "Synthetic shared notes",
      "Synthetic private notes"⟩,
    ⟨"other", "one", "Other tenant summary", "Other shared notes", "Other private notes"⟩]
  recordAccess := [⟨"demo", "owner", "one", true, true, false, false, none⟩,
    ⟨"demo", "participant", "one", true, false, true, false, some 4102444800⟩,
    ⟨"demo", "parent", "one", true, false, false, true, none⟩,
    ⟨"demo", "admin", "one", true, false, false, false, none⟩,
    ⟨"demo", "emergency", "one", true, false, false, false, some 4102444800⟩,
    ⟨"demo", "expired", "one", true, false, false, false, some 1⟩,
    ⟨"demo", "disabled", "one", false, true, true, true, some 4102444800⟩]
  recordsKey := by decide
  accessKey := by decide

/-- A pool that always answers with the fixtures. -/
def pool : RecordResolver Unit String := ⟨fun e => (.ok fixtures, e), fun e => (noon, e)⟩

def prepared : PreparedPolicy Access :=
  ⟨accessPolicy, anchor, requiredList accessPolicy, rfl⟩

def ownerRequest : Context where
  tenant := ⟨"demo", by decide⟩
  binding := .trustedService ⟨⟨"demo", by decide⟩, ⟨"synthetic-local-fixture", by decide⟩⟩
  principal := ⟨⟨"person", by decide⟩, ⟨"owner", owner_nonblank⟩⟩
  subjects := (∅ : Std.ExtTreeMap SubjectSlot SubjectRef).insert ⟨"record", by decide⟩
    ⟨⟨"record", by decide⟩, ⟨"one", by decide⟩⟩
  locale := request.locale
  requestId := none
  decisionAuditOccurrence := none
  bound := rfl

/-- Another person asks for the same record. -/
def requestOf (person : String) (h : isBlank person = false) : Context :=
  { ownerRequest with principal := ⟨ownerRequest.principal.kind, ⟨person, h⟩⟩ }

theorem parent_nonblank : isBlank "parent" = false := by decide

theorem expired_nonblank : isBlank "expired" = false := by decide

/-- An owner, the parent of a participant, and someone whose emergency access has expired. -/
def persons : List Context :=
  [ownerRequest, requestOf "parent" parent_nonblank, requestOf "expired" expired_nonblank]

/-- The sink counts the entries. -/
def counting : Parts Nat Nat (Unit × Nat) (SqlxError String) Unit :=
  pool.parts (fun _ n => (.ok (), n + 1)) (fun _ n => n) (fun n => (generatedId, n))
    fun _ => .ok ⟨Vector.replicate 32 0⟩

def idle : (Nat × Nat) × (Unit × Nat) := ((0, 0), ((), 0))

/-- What the fixtures have for a context. -/
def answered (cx : Context) : ResolveResult (SqlxError String) :=
  resolution (fixtures.permission (permissionKey cx)) noon

open Traced in
/-- The items of the batch, with their facts given: two permits of different grades and a denial. -/
theorem verdicts_persons :
    let step := fun item : Context × ResolveResult (SqlxError String) =>
      (counting.batch.finishItem prepared item.1 item.2 :
        Authorizer.Run _ (SqlxError String) Unit Unit _)
    (Act.each step (persons.zip (persons.map answered)) idle).map
        (fun r => r.result.toOption.map fun d => d.decision.outcome) =
      [some (some .full), some (some .released), some none] ∧
    (Act.afterEach step (persons.zip (persons.map answered)) idle).1 = (3, 0) := by
  decide +kernel

end Fixtures

open Fixtures Sample Traced in
/-- Three persons ask, in one batch and one after the other. Two are permitted, with different
grades, and one is denied. -/
theorem batch_one_query_owner :
    let batch := counting.batch.authorizeBatch (T := Unit) prepared persons 3 idle
    let single := (counting.single.authorize prepared : _ →
      Authorizer.Run _ (SqlxError String) Unit Unit _)
    let calls := Act.each single persons idle
    batch.result = .ok (calls.map Ran.result) ∧
      calls.map (fun r => r.result.toOption.map fun d => d.decision.outcome) =
        [some (some .full), some (some .released), some none] ∧
      batch.world.1 = (3, 0) ∧ queries batch.world = 1 ∧
      queries (Act.afterEach single persons idle) = 3 := by
  intro batch single calls
  have hvalid : ∀ cx ∈ persons, cx.validateAt noon = .ok () := by decide
  obtain ⟨hresult, -, hworld, hbatch, hsingle⟩ := batch_one_query (B := Unit) pool fixtures noon
    (fun _ => rfl) (fun _ => rfl) prepared persons 3 (by decide) hvalid
    (fun _ n => (.ok (), n + 1)) (fun _ n => n) (fun n => (generatedId, n))
    (fun _ => .ok ⟨Vector.replicate 32 0⟩) (A := Unit) idle
  have hanswer : ∀ cx ∈ persons, ∀ e,
      (counting.resolver.resolveForDecision prepared.required cx e).1 = answered cx :=
    fun cx _ e => (resolveForDecision_eq pool (fun _ => rfl) (fun _ => rfl) prepared.required cx e).1
  obtain ⟨hmatches, hafter⟩ := counting.matches_each (T := Unit) (fun _ => rfl) hvalid hanswer
    (rfl : idle.1 = idle.1)
  obtain ⟨hverdicts, hleft⟩ := verdicts_persons
  refine ⟨hresult, ?_, ?_, hbatch, hsingle⟩
  · rw [← hverdicts]
    exact SqlxLowerer.map_eq_of_forall₂ (hmatches.imp fun _ _ h => by rw [h.result])
  · rw [← hleft, show batch.world.1 = _ from hworld]
    exact hafter.symm

end RecordService

end Gatekeep
