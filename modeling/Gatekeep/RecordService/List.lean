import Gatekeep.RecordService.Resolver
import Gatekeep.Trace

/-!
# Gatekeep.RecordService.List

The list query of the record service, `list.rs` of the example `record-service`, as SQL evaluates
it: records joined with the permissions of one person, selected and graded by the lowered policy,
in the order of their identities, twenty at most.

`Tables.views` are the views a person has when each record of the tenant is checked by itself.
`listed_eq` says that the list query returns these, in order, and counts them.
-/

namespace Gatekeep

namespace RecordService

open Journal

/-! ## The lowered policy -/

/-- `Predicates::predicate`. -/
def predicate (now : Int64) (fact : FactId) (_cx : Context) : Option SqlxFragment :=
  if fact.value = "record.owner" then some (.raw [.text "access.owner"])
  else if fact.value = "record.shared" then some (.raw [.text "access.shared"])
  else if fact.value = "record.released" then some (.raw [.text "access.released"])
  else if fact.value = "person.enabled" then some (.raw [.text "access.enabled"])
  else if fact.value = "record.emergency" then
    some (.raw [.text "access.emergency_until > ", .bind (.i64 now)])
  else none

def lowerer (now : OffsetDateTime) : SqlxLowerer Access where
  backend := .sqlite
  predicates := predicate (Int64.ofInt now.unixTimestamp)
  projection := ordinalProjection
  tenantColumn := ⟨"records", "tenant", by decide, by decide⟩

def plan (policy : PreparedPolicy Access) (cx : Context) (now : OffsetDateTime) :
    Except LowerError Lowered :=
  (lowerer now).lowerResult cx (partialEvaluate policy.policy (deferred policy.required))

/-! ## Rows -/

/-- A row of the join, as the generated SQL sees it. -/
def joined (record : RecordRow) (access : Option PermissionRow) : Row where
  column name := if name = "records.tenant" then some record.tenant else none
  raw
    | [.text sql] =>
      if sql = "access.owner" then access.map fun a => .bool a.owner
      else if sql = "access.shared" then access.map fun a => .bool a.shared
      else if sql = "access.released" then access.map fun a => .bool a.released
      else if sql = "access.enabled" then access.map fun a => .bool a.enabled
      else none
    | [.text sql, .bind (.i64 now)] =>
      if sql = "access.emergency_until > " then
        (access.bind (·.emergencyUntil)).map fun expiry => .bool (now < expiry)
      else none
    | _ => none

structure View where
  id : String
  access : Access
  summary : String
  sharedNotes : Option String
  privateNotes : Option String
deriving DecidableEq

/-- A row of the list query. -/
structure ListedRow where
  id : String
  accessGrade : Option Int64
  summary : String
  sharedNotes : Option String
  privateNotes : Option String

/-- The selected columns; a comparison with NULL is not true. -/
def listedRow (record : RecordRow) (accessGrade : Option Int64) : ListedRow where
  id := record.id
  accessGrade
  summary := record.summary
  sharedNotes := if accessGrade.any (1 ≤ ·) then some record.sharedNotes else none
  privateNotes := if accessGrade.any (2 ≤ ·) then some record.privateNotes else none

namespace Tables

variable (T : Tables)

/-- `FROM records LEFT JOIN record_access access ON ..`. -/
def source (person : String) : List (RecordRow × Option PermissionRow) :=
  T.records.flatMap fun record =>
    match T.recordAccess.filter fun access =>
        access.tenant = record.tenant ∧ access.record = record.id ∧ access.person = person with
    | [] => [(record, none)]
    | accesses => accesses.map fun access => (record, some access)

/-- The rows on which the lowered filter is true. -/
def selected (person : String) (plan : Lowered) : List (RecordRow × Option PermissionRow) :=
  (T.source person).filter fun s => (joined s.1 s.2).selects .sqlite plan.filter

/-- `SELECT count(*) ..`. -/
def count (person : String) (plan : Lowered) : Nat := (T.selected person plan).length

/-- `SELECT .. ORDER BY id LIMIT 20 OFFSET 0`. -/
def listed (person : String) (plan : Lowered) : List ListedRow :=
  (((T.selected person plan).map fun s => listedRow s.1
    (SqlxValue.ordinal (plan.grade.value .sqlite (joined s.1 s.2)))).mergeSort
      fun a b => a.id ≤ b.id).take 20

end Tables

inductive RowError where
  | unexpectedNull
  | unrecognizedGrade
deriving DecidableEq

def decodeGrade : Option Int64 → Except RowError Access
  | none => .error .unexpectedNull
  | some grade =>
    if grade = 0 then .ok .released
    else if grade = 1 then .ok .shared
    else if grade = 2 then .ok .full
    else .error .unrecognizedGrade

def decodeRow (row : ListedRow) : Except RowError View :=
  (decodeGrade row.accessGrade).map fun access =>
    ⟨row.id, access, row.summary, row.sharedNotes, row.privateNotes⟩

/-! ## The views of a person -/

/-- What a grade of access discloses of a record. -/
def viewOf (record : RecordRow) (access : Access) : View where
  id := record.id
  access
  summary := record.summary
  sharedNotes := if Access.shared ≤ access then some record.sharedNotes else none
  privateNotes := if access = .full then some record.privateNotes else none

namespace Tables

variable (T : Tables)

/-- The access of a person to a record in the second `now`, checked by itself. -/
def access (tenant person record : String) (now : Int) : Option Access :=
  (evaluate accessPolicy (facts (T.permission (tenant, person, record)) now)).effect.outcome

/-- The views of the records of a tenant, each checked by itself. -/
def views (tenant person : String) (now : Int) : List View :=
  (T.records.filter fun record => record.tenant = tenant).filterMap fun record =>
    (T.access tenant person record.id now).map (viewOf record)

/-- What a list shows of them. -/
def firstViews (tenant person : String) (now : Int) : List View :=
  ((T.views tenant person now).mergeSort fun a b => a.id ≤ b.id).take 20

end Tables

theorem Tables.mem_views {T : Tables} {tenant person : String} {now : Int} {view : View} :
    view ∈ T.views tenant person now ↔ ∃ row access, row ∈ T.records ∧ row.tenant = tenant ∧
      T.access tenant person row.id now = some access ∧ viewOf row access = view := by
  simp only [views, List.mem_filterMap, List.mem_filter, decide_eq_true_eq, Option.map_eq_some_iff]
  constructor
  · rintro ⟨row, ⟨hrow, htenant⟩, access, haccess, hview⟩
    exact ⟨row, access, hrow, htenant, haccess, hview⟩
  · rintro ⟨row, access, hrow, htenant, haccess, hview⟩
    exact ⟨row, ⟨hrow, htenant⟩, access, haccess, hview⟩

namespace Tables

variable (T : Tables) {tenant person : String} {now : Int}

/-- A record has one view. -/
theorem distinct_views (tenant person : String) (now : Int) :
    Distinct View.id (T.views tenant person now) := by
  rw [Distinct, List.Nodup, List.pairwise_map, views, List.pairwise_filterMap]
  refine (List.Pairwise.filter _ (List.pairwise_map.mp T.recordsKey)).imp_of_mem ?_
  intro a b ha hb hkey v hv u hu hid
  obtain ⟨access, -, rfl⟩ := Option.map_eq_some_iff.mp hv
  obtain ⟨access', -, rfl⟩ := Option.map_eq_some_iff.mp hu
  simp only [List.mem_filter, decide_eq_true_eq] at ha hb
  exact hkey (Prod.ext (ha.2.trans hb.2.symm) hid)

/-- All views in the order of the list. -/
theorem pairwise_mergeSort_views (tenant person : String) (now : Int) :
    ((T.views tenant person now).mergeSort fun a b => a.id ≤ b.id).Pairwise
      fun a b => a.id < b.id := by
  have hperm := List.mergeSort_perm (T.views tenant person now) fun a b => decide (a.id ≤ b.id)
  have hsorted : ((T.views tenant person now).mergeSort fun a b => a.id ≤ b.id).Pairwise
      fun a b => decide (a.id ≤ b.id) = true :=
    List.pairwise_mergeSort
      (fun a b c hab hbc => by simpa using le_trans (of_decide_eq_true hab) (of_decide_eq_true hbc))
      (fun a b => by simpa using le_total a.id b.id) _
  have hdistinct : (((T.views tenant person now).mergeSort fun a b => a.id ≤ b.id).map
      View.id).Nodup := (hperm.map View.id).nodup_iff.mpr (T.distinct_views tenant person now)
  refine (hsorted.and (List.pairwise_map.mp hdistinct)).imp fun ⟨hle, hne⟩ => ?_
  exact lt_of_le_of_ne (of_decide_eq_true hle) hne

theorem pairwise_firstViews (tenant person : String) (now : Int) :
    (T.firstViews tenant person now).Pairwise fun a b => a.id < b.id :=
  (T.pairwise_mergeSort_views tenant person now).sublist (List.take_sublist _ _)

variable {T}

theorem firstViews_subset {view : View} (h : view ∈ T.firstViews tenant person now) :
    view ∈ T.views tenant person now :=
  List.mem_mergeSort.mp (List.mem_of_mem_take h)

/-- A view that is not shown comes after twenty that are. -/
theorem mem_firstViews_or {view : View} (h : view ∈ T.views tenant person now) :
    view ∈ T.firstViews tenant person now ∨ (T.firstViews tenant person now).length = 20 ∧
      ∀ v ∈ T.firstViews tenant person now, v.id < view.id := by
  have hsorted := T.pairwise_mergeSort_views tenant person now
  have h : view ∈ (T.views tenant person now).mergeSort fun a b => a.id ≤ b.id :=
    List.mem_mergeSort.mpr h
  unfold firstViews
  generalize (T.views tenant person now).mergeSort _ = l at *
  rw [← List.take_append_drop 20 l, List.mem_append] at h
  rw [← List.take_append_drop 20 l, List.pairwise_append] at hsorted
  rcases h with h | h
  · exact .inl h
  · refine .inr ⟨?_, fun v hv => hsorted.2.2 v hv view h⟩
    have hlength := List.length_pos_of_mem h
    rw [List.length_drop] at hlength
    rw [List.length_take]
    omega

end Tables

/-! ## Facts of a row, and what the row says of them -/

theorem Tables.source_eq (T : Tables) (person : String) :
    T.source person =
      T.records.map fun record => (record, T.permission (record.tenant, person, record.id)) := by
  rw [source, List.map_eq_flatMap]
  refine List.flatMap_congr fun record _ => ?_
  have hkey : (T.recordAccess.filter fun access =>
      access.tenant = record.tenant ∧ access.record = record.id ∧ access.person = person) =
      T.recordAccess.filter fun access => access.key = (record.tenant, person, record.id) := by
    refine List.filter_congr fun access _ => ?_
    simp only [PermissionRow.key, Prod.mk.injEq]
    exact decide_eq_decide.mpr (and_congr_right fun _ => and_comm)
  rw [hkey, T.accessKey.filter_key, permission]
  cases T.recordAccess.find? fun access => access.key = (record.tenant, person, record.id) <;> rfl

theorem presence_facts (row : Option PermissionRow) (now : Int) (fact : FactId) :
    (facts row now).presence fact =
      if RecordService.emergency = fact then
        if (row.bind (·.emergencyUntil)).any fun expiry => now < expiry.toInt then .present
        else .absent
      else if RecordService.released = fact then
        if row.any (·.released) then .present else .absent
      else if RecordService.shared = fact then if row.any (·.shared) then .present else .absent
      else if RecordService.owner = fact then if row.any (·.owner) then .present else .absent
      else if RecordService.enabled = fact then if row.any (·.enabled) then .present else .absent
      else .absent := by
  simp only [facts, KnownFacts.presence_withBool]
  rfl

theorem facts_accessPolicy : accessPolicy.facts =
    [RecordService.enabled, RecordService.owner, RecordService.shared, RecordService.released,
      RecordService.emergency] := rfl

theorem presence_deferred (required : List FactId) (fact : FactId) :
    (deferred required).presence fact = if fact ∈ required then .unknown else .absent := by
  rw [deferred, PartialFacts.fromEntries, PartialFacts.presence, Facts.presence_eq,
    Facts.fromEntries]
  by_cases h : fact ∈ required
  · rw [if_pos h, Facts.observation_foldl_of_mem _ _ fact .unknown
      (List.mem_map.mpr ⟨fact, h, rfl⟩)]
    · rfl
    · intro e he _
      obtain ⟨f, _, rfl⟩ := List.mem_map.mp he
      rfl
  · rw [if_neg h, Facts.observation_foldl_of_not_mem]
    · simp
    · intro e he
      obtain ⟨f, hf, rfl⟩ := List.mem_map.mp he
      rintro rfl
      exact h hf

theorem unixTimestamp_toInt (now : OffsetDateTime) :
    (Int64.ofInt now.unixTimestamp).toInt = now.unixTimestamp := by
  have hrange := now.inRange
  have hoffset := now.offset_bound
  refine Int64.toInt_ofInt_of_le ?_ ?_ <;>
    simp only [OffsetDateTime.unixTimestamp, minLocalSeconds, maxLocalSeconds] at * <;> omega

theorem truth_facts (row : Option PermissionRow) (now : Int) :
    (facts row now).truth RecordService.owner = row.any (·.owner) ∧
      (facts row now).truth RecordService.shared = row.any (·.shared) ∧
      (facts row now).truth RecordService.released = row.any (·.released) ∧
      (facts row now).truth RecordService.enabled = row.any (·.enabled) ∧
      (facts row now).truth RecordService.emergency =
        (row.bind (·.emergencyUntil)).any fun expiry => now < expiry.toInt := by
  have hread : ∀ b : Bool, ((if b then Presence.present else .absent) == .present) = b := by decide
  simp only [KnownFacts.truth, presence_facts]
  refine ⟨?_, ?_, ?_, ?_, ?_⟩ <;> exact hread _

/-- A column that is NULL is not true, as a row that is missing has no fact. -/
theorem map_bool_truth (access : Option PermissionRow) (column : PermissionRow → Bool) :
    (SqlxValue.truth (access.map fun a => .bool (column a)) == some true) =
      access.any column := by
  cases access with
  | none => rfl
  | some a => cases h : column a <;> simp [h]

/-- The predicate of a fact is true on the row of a person and a record when the fact is present. -/
theorem mirrors (cx : Context) (record : RecordRow) (access : Option PermissionRow)
    (now : OffsetDateTime) (fact : FactId) :
    (lowerer now).Mirrors cx (joined record access) (facts access now.unixTimestamp).truth fact := by
  intro fragment hfragment
  obtain ⟨howner, hshared, hreleased, henabled, hemergency⟩ :=
    truth_facts access now.unixTimestamp
  simp only [lowerer, predicate] at hfragment
  split at hfragment
  · rename_i hfact
    cases hfragment
    rw [show fact = RecordService.owner from OwnedId.ext_value hfact, howner]
    exact (map_bool_truth access (·.owner)).symm
  split at hfragment
  · rename_i hfact
    cases hfragment
    rw [show fact = RecordService.shared from OwnedId.ext_value hfact, hshared]
    exact (map_bool_truth access (·.shared)).symm
  split at hfragment
  · rename_i hfact
    cases hfragment
    rw [show fact = RecordService.released from OwnedId.ext_value hfact, hreleased]
    exact (map_bool_truth access (·.released)).symm
  split at hfragment
  · rename_i hfact
    cases hfragment
    rw [show fact = RecordService.enabled from OwnedId.ext_value hfact, henabled]
    exact (map_bool_truth access (·.enabled)).symm
  split at hfragment
  · rename_i hfact
    cases hfragment
    rw [show fact = RecordService.emergency from OwnedId.ext_value hfact, hemergency]
    have htime := unixTimestamp_toInt now
    show _ = (SqlxValue.truth ((access.bind (·.emergencyUntil)).map fun expiry =>
      .bool (Int64.ofInt now.unixTimestamp < expiry)) == some true)
    cases access.bind (·.emergencyUntil) with
    | none => rfl
    | some expiry =>
      simp only [Option.any_some, Option.map_some, Int64.lt_iff_toInt_lt, htime]
      cases decide (now.unixTimestamp < expiry.toInt) <;> rfl
  · cases hfragment

/-- The row of a person and a record completes what the list leaves open, with the facts the point
check finds. -/
theorem completes (policy : PreparedPolicy Access) (hpolicy : policy.policy = accessPolicy)
    (cx : Context) (record : RecordRow) (access : Option PermissionRow) (now : OffsetDateTime) :
    (lowerer now).Completes cx (joined record access) (deferred policy.required)
      (facts access now.unixTimestamp) := by
  have hrequired : ∀ fact, fact ∈ policy.required ↔ fact ∈ accessPolicy.facts := by
    intro fact
    rw [policy.mem_required, mem_requiredFacts, hpolicy]
  constructor
  · intro fact hknown
    rw [presence_deferred] at hknown ⊢
    split at hknown
    · exact absurd rfl hknown
    · rename_i hfact
      rw [hrequired, facts_accessPolicy] at hfact
      simp only [List.mem_cons, List.not_mem_nil, or_false, not_or] at hfact
      obtain ⟨h₁, h₂, h₃, h₄, h₅⟩ := hfact
      rw [if_neg (by rw [hrequired, facts_accessPolicy]; simp [h₁, h₂, h₃, h₄, h₅]), presence_facts,
        if_neg (Ne.symm h₅), if_neg (Ne.symm h₄), if_neg (Ne.symm h₃), if_neg (Ne.symm h₂),
        if_neg (Ne.symm h₁)]
  · intro fact _ fragment hfragment
    exact mirrors cx record access now fact fragment hfragment

/-! ## The list query and the views -/

/-- A view as a row of the list query. -/
def View.row (view : View) : ListedRow :=
  ⟨view.id, some (SqlOutcome.toSqlOrdinal view.access), view.summary, view.sharedNotes,
    view.privateNotes⟩

theorem listedRow_grade (record : RecordRow) (access : Access) :
    listedRow record (some (SqlOutcome.toSqlOrdinal access)) = (viewOf record access).row := by
  cases access <;> rfl

theorem decodeRow_row (view : View) : decodeRow view.row = .ok view := by
  obtain ⟨id, access, summary, sharedNotes, privateNotes⟩ := view
  cases access <;> rfl

section Query

variable {policy : PreparedPolicy Access} (hpolicy : policy.policy = accessPolicy) {cx : Context}
  {now : OffsetDateTime} {lowered : Lowered} (hplan : plan policy cx now = .ok lowered)
include hpolicy hplan

/-- One record of the list query. -/
theorem selected_row (T : Tables) (person : String) (record : RecordRow) :
    let access := T.permission (record.tenant, person, record.id)
    (if (joined record access).selects .sqlite lowered.filter then
        some (listedRow record
          (SqlxValue.ordinal (lowered.grade.value .sqlite (joined record access)))) else none) =
      if record.tenant = cx.tenant.value then
        (T.access cx.tenant.value person record.id now.unixTimestamp).map fun a => (viewOf record a).row
      else none := by
  intro access
  have hrow := listed_row (L := lowerer now) rfl (p := policy.policy)
    (by rw [hpolicy]; exact obligationFree_accessPolicy)
    (by rw [hpolicy]; exact steady_accessPolicy)
    (completes policy hpolicy cx record access now) hplan
  have hmap := congrArg (Option.map fun r : Row × Option SqlxValue =>
    listedRow record (SqlxValue.ordinal r.2)) hrow
  have hown : (lowerer now).OwnTenant cx (joined record access) ↔
      record.tenant = cx.tenant.value := by
    show (if ("records.tenant" : String) = "records.tenant" then some record.tenant else none) =
      some cx.tenant.value ↔ _
    rw [if_pos rfl, Option.some.injEq]
  simp only [apply_ite (Option.map _), Option.map_some, Option.map_none, Option.map_map] at hmap
  refine hmap.trans ?_
  simp only [hown]
  by_cases htenant : record.tenant = cx.tenant.value
  · rw [if_pos htenant, if_pos htenant, Tables.access, hpolicy, ← htenant]
    refine congrArg (fun f => Option.map f _) (funext fun a => ?_)
    exact listedRow_grade record a
  · rw [if_neg htenant, if_neg htenant]

theorem selected_eq (T : Tables) (person : String) :
    (T.selected person lowered).map (fun s => listedRow s.1
        (SqlxValue.ordinal (lowered.grade.value .sqlite (joined s.1 s.2)))) =
      (T.views cx.tenant.value person now.unixTimestamp).map View.row := by
  rw [Tables.selected, Tables.source_eq, ← List.filterMap_eq_map, List.filterMap_filter,
    List.filterMap_map, Tables.views, List.map_filterMap, List.filterMap_filter]
  refine List.filterMap_congr fun record _ => ?_
  have hrow := selected_row hpolicy hplan T person record
  simp only [Option.map_map, decide_eq_true_eq] at hrow ⊢
  exact hrow

/-- The list query returns the views of the person, each record checked by itself, in the order of
their identities and twenty at most, and counts all of them. -/
theorem listed_eq (T : Tables) (person : String) :
    (T.listed person lowered).mapM decodeRow =
        .ok (T.firstViews cx.tenant.value person now.unixTimestamp) ∧
      T.count person lowered = (T.views cx.tenant.value person now.unixTimestamp).length := by
  have hselected := selected_eq hpolicy hplan T person
  constructor
  · have hsort := List.map_mergeSort (r := fun a b : View => decide (a.id ≤ b.id))
      (s := fun a b : ListedRow => decide (a.id ≤ b.id)) (f := View.row)
      (l := T.views cx.tenant.value person now.unixTimestamp) fun _ _ _ _ => rfl
    rw [Tables.listed, Tables.firstViews, hselected, ← hsort, ← List.map_take]
    exact Result.mapM_map_of_ok decodeRow_row _
  · have hlength := congrArg List.length hselected
    rwa [List.length_map, List.length_map] at hlength

end Query

end RecordService

end Gatekeep
