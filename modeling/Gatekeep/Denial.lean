import Gatekeep.Audit

/-!
# Gatekeep.Denial

The denial reason of a decision and the check that compares one with a clause. A denied clause calls
for one reason at most (`clauseReason`): its code, its shape, a numbered parameter for each
unsatisfied fact and one for the requested outcome. `Decision.denialReason` builds it, and the check
of an audit entry accepts it and nothing else (`denialReasonMatchesTrace_iff`): the numbered keys
differ from each other, so the count of the parameters leaves no room for another one.
-/

namespace Gatekeep

/-- A map that has every entry of another and is no larger is that map. -/
theorem eq_of_entries_of_size {κ ν : Type} {cmp : κ → κ → Ordering} [Std.TransCmp cmp]
    [Std.LawfulEqCmp cmp] {m m' : Std.ExtTreeMap κ ν cmp}
    (h : ∀ (key : κ) (value : ν), m[key]? = some value → m'[key]? = some value) (hsize : m'.size ≤ m.size) :
    m' = m := by
  have hnodup : m.toList.Nodup := by
    refine Std.ExtTreeMap.distinct_keys_toList.imp fun hne heq => hne ?_
    rw [heq]
    exact Std.ReflCmp.compare_self
  have hsubset : m.toList ⊆ m'.toList := by
    rintro ⟨key, value⟩ hmem
    rw [Std.ExtTreeMap.mem_toList_iff_getElem?_eq_some] at hmem ⊢
    exact h key value hmem
  have hlength : m'.toList.length ≤ m.toList.length := by
    rwa [Std.ExtTreeMap.length_toList, Std.ExtTreeMap.length_toList]
  have hperm := (hnodup.subperm hsubset).perm_of_length_le hlength
  refine Std.ExtTreeMap.ext_getElem? fun key => Option.ext fun value => ?_
  rw [← Std.ExtTreeMap.mem_toList_iff_getElem?_eq_some,
    ← Std.ExtTreeMap.mem_toList_iff_getElem?_eq_some]
  exact hperm.mem_iff.symm

/-! ## The parameters of a denial reason -/

theorem not_isBlank_missingFactKey (index : Nat) : isBlank (missingFactKey index) = false := by
  unfold missingFactKey
  split
  · decide
  · have hlead : isBlank "missing_fact_" = false := by decide
    unfold isBlank at hlead ⊢
    rw [String.toList_append, List.all_append, hlead, Bool.false_and]

/-- The key of the unsatisfied fact at an index. -/
def missingFactParam (index : Nat) : ParamKey := ⟨missingFactKey index, not_isBlank_missingFactKey index⟩

def deniedOutcomeParam : ParamKey := ⟨"denied_outcome", by decide⟩

theorem missingFactKey_injective {i j : Nat} (h : missingFactKey i = missingFactKey j) : i = j := by
  have hlength (k : Nat) : "missing_fact" ≠ "missing_fact_" ++ toString k := fun hk => by
    have := congrArg (fun s => s.toList.length) hk
    simp at this
  unfold missingFactKey at h
  split at h
  · split at h
    · rename_i hi hj
      rw [hi, hj]
    · exact absurd h (hlength j)
  · split at h
    · exact absurd h.symm (hlength i)
    · exact Nat.repr_injective ((String.append_right_inj _).mp h)

theorem missingFactKey_ne_deniedOutcome (index : Nat) : missingFactKey index ≠ "denied_outcome" := by
  intro h
  have hfirst := congrArg (fun s => s.toList.head?) h
  unfold missingFactKey at hfirst
  split at hfirst
  · exact absurd hfirst (by decide)
  · rw [String.toList_append, List.head?_append] at hfirst
    simp at hfirst

theorem new_missingFactKey (index : Nat) :
    OwnedId.new "param_key" (missingFactKey index) = .ok (missingFactParam index) :=
  (missingFactParam index).new_value (by decide)

theorem new_deniedOutcome :
    OwnedId.new "param_key" "denied_outcome" = .ok deniedOutcomeParam :=
  deniedOutcomeParam.new_value (by decide)

/-- Enter the facts as parameters from an index on. -/
def enterFacts : List FactId → Nat → Std.ExtTreeMap ParamKey ReasonValue →
    Std.ExtTreeMap ParamKey ReasonValue
  | [], _, params => params
  | fact :: facts, index, params =>
    enterFacts facts (index + 1) (params.insert (missingFactParam index) (.fact fact))

theorem missingFactParams_eq (facts : List FactId) (index : Nat)
    (params : Std.ExtTreeMap ParamKey ReasonValue) :
    missingFactParams facts index params = .ok (enterFacts facts index params) := by
  induction facts generalizing index params with
  | nil => rfl
  | cons fact facts ih =>
    rw [missingFactParams, new_missingFactKey]
    exact ih _ _

theorem missingFactParam_ne {i j : Nat} (h : i ≠ j) : missingFactParam i ≠ missingFactParam j :=
  fun heq => h (missingFactKey_injective (congrArg OwnedId.value heq))

/-- The parameters after entering facts: the facts under their keys, and what was there before. -/
theorem getElem?_enterFacts_iff {key : ParamKey} {value : ReasonValue} {index : Nat}
    {params : Std.ExtTreeMap ParamKey ReasonValue}
    (h : ∀ i, index ≤ i → missingFactParam i ∉ params) (facts : List FactId) :
    (enterFacts facts index params)[key]? = some value ↔
      (∃ i fact, facts[i]? = some fact ∧ key = missingFactParam (index + i) ∧
        value = .fact fact) ∨ params[key]? = some value := by
  induction facts generalizing index params with
  | nil => simp [enterFacts]
  | cons fact facts ih =>
    have hnew : params[missingFactParam index]? = none :=
      Std.ExtTreeMap.getElem?_eq_none (h index le_rfl)
    have hrest : ∀ i, index + 1 ≤ i →
        missingFactParam i ∉ params.insert (missingFactParam index) (.fact fact) := by
      intro i hi hmem
      rcases Std.ExtTreeMap.mem_insert.mp hmem with heq | hin
      · exact missingFactParam_ne (show index ≠ i by omega) (Std.LawfulEqCmp.eq_of_compare heq)
      · exact h i (by omega) hin
    rw [enterFacts, ih hrest, Std.ExtTreeMap.getElem?_insert]
    constructor
    · rintro (⟨i, fact', hi, hkey, hvalue⟩ | hlookup)
      · exact .inl ⟨i + 1, fact', hi, by rw [hkey, Nat.add_right_comm, Nat.add_assoc], hvalue⟩
      · split at hlookup
        · rename_i heq
          cases hlookup
          exact .inl ⟨0, fact, rfl, (Std.LawfulEqCmp.eq_of_compare heq).symm, rfl⟩
        · exact .inr hlookup
    · rintro (⟨i, fact', hi, hkey, hvalue⟩ | hlookup)
      · cases i with
        | zero =>
          cases hi
          rw [if_pos (by rw [hkey]; exact Std.ReflCmp.compare_self), hvalue]
          exact .inr rfl
        | succ i => exact .inl ⟨i, fact', hi, by rw [hkey, Nat.add_assoc, Nat.add_comm 1], hvalue⟩
      · refine .inr ?_
        rw [if_neg]
        · exact hlookup
        · intro heq
          rw [← Std.LawfulEqCmp.eq_of_compare heq, hnew] at hlookup
          cases hlookup

/-- Entering facts under new keys adds one parameter for each. -/
theorem size_enterFacts {index : Nat} {params : Std.ExtTreeMap ParamKey ReasonValue}
    (h : ∀ i, index ≤ i → missingFactParam i ∉ params) (facts : List FactId) :
    (enterFacts facts index params).size = params.size + facts.length := by
  induction facts generalizing index params with
  | nil => rfl
  | cons fact facts ih =>
    have hnew : ¬params.contains (missingFactParam index) := h index le_rfl
    rw [enterFacts, ih, Std.ExtTreeMap.size_insert, if_neg hnew, List.length_cons]
    · omega
    · intro i hi hmem
      rcases Std.ExtTreeMap.mem_insert.mp hmem with heq | hin
      · exact missingFactParam_ne (show index ≠ i by omega) (Std.LawfulEqCmp.eq_of_compare heq)
      · exact h i (by omega) hin

/-- Looking a parameter up by its text finds it. -/
theorem DenialReason.param_value (r : DenialReason) (key : ParamKey) :
    r.param key.value = r.params[key]? := by
  have hentry : ∀ {e : ParamKey × ReasonValue}, e ∈ r.params.toList → e.1.value = key.value →
      r.params[key]? = some e.2 := by
    intro e he hkey
    rw [← OwnedId.ext_value hkey]
    exact Std.ExtTreeMap.mem_toList_iff_getElem?_eq_some.mp he
  unfold param
  cases hfind : r.params.toList.find? fun e => e.1.value == key.value with
  | none =>
    rw [List.find?_eq_none] at hfind
    cases hlookup : r.params[key]? with
    | none => rfl
    | some value =>
      have := hfind _ (Std.ExtTreeMap.mem_toList_iff_getElem?_eq_some.mpr hlookup)
      simp at this
  | some e =>
    have hkey : e.1.value = key.value := by simpa using List.find?_some hfind
    exact (hentry (List.mem_of_find?_eq_some hfind) hkey).symm

theorem missingFactsMatch_iff {r : DenialReason} {facts : List FactId} {index : Nat} :
    missingFactsMatch r facts index = true ↔
      ∀ i fact, facts[i]? = some fact → r.params[missingFactParam (index + i)]? = some (.fact fact) := by
  induction facts generalizing index with
  | nil => simp [missingFactsMatch]
  | cons fact facts ih =>
    have hparam : r.param (missingFactKey index) = r.params[missingFactParam index]? :=
      r.param_value (missingFactParam index)
    rw [missingFactsMatch, Bool.and_eq_true, decide_eq_true_eq, hparam, ih]
    constructor
    · rintro ⟨hfirst, hrest⟩ i fact' hi
      cases i with
      | zero =>
        cases hi
        exact hfirst
      | succ i =>
        rw [show index + (i + 1) = index + 1 + i by omega]
        exact hrest i fact' hi
    · intro h
      refine ⟨h 0 fact rfl, fun i fact' hi => ?_⟩
      rw [show index + 1 + i = index + (i + 1) by omega]
      exact h (i + 1) fact' hi

/-! ## The reason a clause calls for -/

theorem deniedOutcomeParam_ne (i : Nat) : deniedOutcomeParam ≠ missingFactParam i := fun heq =>
  missingFactKey_ne_deniedOutcome i (congrArg OwnedId.value heq).symm

/-- A parameter for each unsatisfied fact, and one for the requested outcome. -/
def clauseParams (denied : Option TraceValue) (unsatisfied : List FactId) :
    Std.ExtTreeMap ParamKey ReasonValue :=
  match denied with
  | none => enterFacts unsatisfied 0 ∅
  | some value => (enterFacts unsatisfied 0 ∅).insert deniedOutcomeParam (.outcome value)

/-- The reason of a clause, else its label: neither is blank. -/
def clauseCode (reason : Option ReasonCode) (label : Option ClauseLabel) : Option ReasonCode :=
  reason.or (label.map fun label => ⟨label.value, label.nonblank⟩)

def clauseReason : TraceClause → Option DenialReason
  | .permit .. => none
  | .deny denied unsatisfied label reason shape =>
    (clauseCode reason label).map fun code => ⟨code, clauseParams denied unsatisfied, shape⟩

theorem clauseCode_value (reason : Option ReasonCode) (label : Option ClauseLabel) :
    (reason.map OwnedId.value).or (label.map OwnedId.value) =
      (clauseCode reason label).map OwnedId.value := by
  cases reason with
  | some reason => rfl
  | none => cases label <;> rfl

theorem getElem?_enteredFacts_iff {key : ParamKey} {value : ReasonValue} (facts : List FactId) :
    (enterFacts facts 0 ∅)[key]? = some value ↔
      ∃ i fact, facts[i]? = some fact ∧ key = missingFactParam i ∧ value = .fact fact := by
  rw [getElem?_enterFacts_iff (fun i _ => Std.ExtTreeMap.not_mem_empty),
    Std.ExtTreeMap.getElem?_empty]
  simp

theorem deniedOutcome_not_mem (facts : List FactId) :
    deniedOutcomeParam ∉ enterFacts facts 0 ∅ := by
  rw [Std.ExtTreeMap.mem_iff_isSome_getElem?, Option.isSome_iff_exists]
  rintro ⟨value, hlookup⟩
  obtain ⟨i, -, -, hkey, -⟩ := (getElem?_enteredFacts_iff facts).mp hlookup
  exact deniedOutcomeParam_ne i hkey

theorem getElem?_clauseParams_iff {key : ParamKey} {value : ReasonValue}
    {denied : Option TraceValue} {unsatisfied : List FactId} :
    (clauseParams denied unsatisfied)[key]? = some value ↔
      (∃ i fact, unsatisfied[i]? = some fact ∧ key = missingFactParam i ∧ value = .fact fact) ∨
        ∃ outcome, denied = some outcome ∧ key = deniedOutcomeParam ∧ value = .outcome outcome := by
  cases denied with
  | none =>
    rw [clauseParams, getElem?_enteredFacts_iff]
    simp
  | some outcome =>
    rw [clauseParams, Std.ExtTreeMap.getElem?_insert]
    split
    · rename_i heq
      rw [← Std.LawfulEqCmp.eq_of_compare heq]
      constructor
      · intro h
        cases h
        exact .inr ⟨outcome, rfl, rfl, rfl⟩
      · rintro (⟨i, fact, -, hkey, -⟩ | ⟨outcome', ho, -, hvalue⟩)
        · exact absurd hkey (deniedOutcomeParam_ne i)
        · cases ho
          rw [hvalue]
    · rename_i hne
      rw [getElem?_enteredFacts_iff]
      refine ⟨.inl, fun h => h.resolve_right ?_⟩
      rintro ⟨outcome', -, hkey, -⟩
      exact hne (by rw [hkey]; exact Std.ReflCmp.compare_self)

theorem size_clauseParams (denied : Option TraceValue) (unsatisfied : List FactId) :
    (clauseParams denied unsatisfied).size =
      unsatisfied.length + if denied.isSome then 1 else 0 := by
  have hfacts : (enterFacts unsatisfied 0 ∅).size = unsatisfied.length := by
    rw [size_enterFacts fun i _ => Std.ExtTreeMap.not_mem_empty]
    simp
  cases denied with
  | none => exact hfacts
  | some value =>
    have hnew : ¬(enterFacts unsatisfied 0 ∅).contains deniedOutcomeParam :=
      deniedOutcome_not_mem unsatisfied
    rw [clauseParams, Std.ExtTreeMap.size_insert, if_neg hnew, hfacts]
    rfl

/-- The parameters the check looks at are all there are: their number leaves room for no other. -/
theorem params_eq_clauseParams_iff {r : DenialReason} {denied : Option TraceValue}
    {unsatisfied : List FactId} :
    r.params = clauseParams denied unsatisfied ↔
      r.params.size = unsatisfied.length + (if denied.isSome then 1 else 0) ∧
        missingFactsMatch r unsatisfied 0 = true ∧
        ∀ outcome, denied = some outcome → r.param "denied_outcome" = some (.outcome outcome) := by
  have hparam : r.param "denied_outcome" = r.params[deniedOutcomeParam]? :=
    r.param_value deniedOutcomeParam
  rw [missingFactsMatch_iff, hparam]
  constructor
  · intro h
    rw [h]
    refine ⟨size_clauseParams denied unsatisfied, fun i fact hi => ?_, fun outcome ho => ?_⟩
    · rw [Nat.zero_add]
      exact getElem?_clauseParams_iff.mpr (.inl ⟨i, fact, hi, rfl, rfl⟩)
    · exact getElem?_clauseParams_iff.mpr (.inr ⟨outcome, ho, rfl, rfl⟩)
  · rintro ⟨hsize, hfacts, hdenied⟩
    refine eq_of_entries_of_size (fun key value hlookup => ?_)
      (by rw [hsize, size_clauseParams])
    rcases getElem?_clauseParams_iff.mp hlookup with ⟨i, fact, hi, rfl, rfl⟩ | ⟨outcome, ho, rfl, rfl⟩
    · have := hfacts i fact hi
      rwa [Nat.zero_add] at this
    · exact hdenied outcome ho

/-- The check accepts the reason that the clause calls for and nothing else. -/
theorem denialReasonMatchesTrace_eq_true {written : Option DenialReason} {clause : TraceClause} :
    denialReasonMatchesTrace written clause = true ↔ written = clauseReason clause := by
  cases clause with
  | permit granted satisfied label => exact Option.isNone_iff_eq_none
  | deny denied unsatisfied label reason shape =>
    rw [denialReasonMatchesTrace, clauseCode_value, clauseReason]
    cases clauseCode reason label with
    | none => exact Option.isNone_iff_eq_none
    | some code =>
      cases written with
      | none => simp
      | some r =>
        have heq : r = ⟨code, clauseParams denied unsatisfied, shape⟩ ↔
            (r.code.value = code.value ∧ r.shape = shape) ∧
              r.params = clauseParams denied unsatisfied := by
          constructor
          · rintro rfl
            exact ⟨⟨rfl, rfl⟩, rfl⟩
          · rintro ⟨⟨hcode, hshape⟩, hparams⟩
            cases r
            cases OwnedId.ext_value hcode
            cases hshape
            cases hparams
            rfl
        rw [Option.map_some, Option.map_some, Option.some.injEq, heq, params_eq_clauseParams_iff]
        cases denied <;> simp

namespace Decision

theorem denialCode_eq (reason : Option ReasonCode) (label : Option ClauseLabel) :
    denialCode reason label = .ok (clauseCode reason label) := by
  cases reason with
  | some reason => rfl
  | none =>
    cases label with
    | none => rfl
    | some label =>
      have hnew : OwnedId.new "reason_code" label.value = .ok ⟨label.value, label.nonblank⟩ :=
        OwnedId.new_value (⟨label.value, label.nonblank⟩ : ReasonCode) (by decide)
      rw [denialCode, hnew]
      rfl

variable {O : Type} [Serialize O]

/-- The reason of a coded denial: one parameter for each unsatisfied fact, and one for the requested
outcome. -/
def codedReason (code : ReasonCode) (unsatisfied : List FactId) (shape : DenyShape) :
    Option O → Except TraceError (Option DenialReason)
  | none => .ok (some ⟨code, enterFacts unsatisfied 0 ∅, shape⟩)
  | some outcome => (traceValue outcome).map fun value =>
    some ⟨code, (enterFacts unsatisfied 0 ∅).insert deniedOutcomeParam (.outcome value), shape⟩

theorem denialReason_coded {d : Decision O} {denied : Option O} {unsatisfied : List FactId}
    {label : Option ClauseLabel} {reason : Option ReasonCode} {shape : DenyShape} {code : ReasonCode}
    (he : d.effect = .deny) (hc : d.trace.decisive = .deny denied unsatisfied label reason shape)
    (hcode : denialCode reason label = .ok (some code)) :
    d.denialReason = codedReason code unsatisfied shape denied := by
  unfold denialReason
  rw [he, hc]
  simp only [hcode, Result.ok_bind, missingFactParams_eq, new_deniedOutcome, Except.mapError]
  cases denied with
  | none => rfl
  | some outcome => cases traceValue outcome <;> rfl

theorem denialReason_uncoded {d : Decision O} {denied : Option O} {unsatisfied : List FactId}
    {label : Option ClauseLabel} {reason : Option ReasonCode} {shape : DenyShape}
    (he : d.effect = .deny) (hc : d.trace.decisive = .deny denied unsatisfied label reason shape)
    (hcode : denialCode reason label = .ok none) : d.denialReason = .ok none := by
  unfold denialReason
  rw [he, hc]
  simp only [hcode, Result.ok_bind]
  rfl

/-- Deriving a reason never fails over an identifier. -/
theorem denialReason_ne_identity (d : Decision O) (e : GatekeepError) :
    d.denialReason ≠ .error (.identity e) := by
  cases he : d.effect with
  | permit o =>
    simp [denialReason, he]
  | deny =>
    cases hc : d.trace.decisive with
    | permit granted satisfied label => simp [denialReason, he, hc]
    | deny denied unsatisfied label reason shape =>
      have hcode := denialCode_eq reason label
      cases hcl : clauseCode reason label with
      | none =>
        rw [hcl] at hcode
        rw [denialReason_uncoded he hc hcode]
        nofun
      | some code =>
        rw [hcl] at hcode
        rw [denialReason_coded he hc hcode]
        cases denied with
        | none => nofun
        | some outcome =>
          cases hvalue : Serialize.toValue outcome <;>
            simp [codedReason, traceValue, hvalue, Except.mapError, Except.map]

/-- A reason has the code of the clause it is built from. -/
theorem clauseCode_of_denialReason {d : Decision O} {r : DenialReason}
    (h : d.denialReason = .ok (some r)) :
    ∃ denied unsatisfied label reason shape,
      d.trace.decisive = .deny denied unsatisfied label reason shape ∧
        clauseCode reason label = some r.code := by
  cases he : d.effect with
  | permit o => simp [denialReason, he] at h
  | deny =>
    cases hc : d.trace.decisive with
    | permit granted satisfied label => simp [denialReason, he, hc] at h
    | deny denied unsatisfied label reason shape =>
      refine ⟨denied, unsatisfied, label, reason, shape, rfl, ?_⟩
      have hcode := denialCode_eq reason label
      cases hcl : clauseCode reason label with
      | none =>
        rw [hcl] at hcode
        rw [denialReason_uncoded he hc hcode] at h
        cases h
      | some code =>
        rw [hcl] at hcode
        rw [denialReason_coded he hc hcode] at h
        cases denied with
        | none =>
          cases h
          rfl
        | some outcome =>
          obtain ⟨value, -, hr⟩ := Result.map_eq_ok.mp h
          cases hr
          rfl

/-- A decision builds the reason that its serialized clause calls for. -/
theorem denialReason_eq {d : Decision O} {denied : Option O} {unsatisfied : List FactId}
    {label : Option ClauseLabel} {reason : Option ReasonCode} {shape : DenyShape}
    {clause : TraceClause} (he : d.effect = .deny)
    (hc : d.trace.decisive = .deny denied unsatisfied label reason shape)
    (hclause : traceClause d.trace.decisive = .ok clause) :
    d.denialReason = .ok (clauseReason clause) := by
  have hcode := denialCode_eq reason label
  rw [hc] at hclause
  cases hcl : clauseCode reason label with
  | none =>
    rw [hcl] at hcode
    rw [denialReason_uncoded he hc hcode]
    cases denied with
    | none =>
      cases hclause
      rw [clauseReason, hcl]
      rfl
    | some outcome =>
      obtain ⟨v, -, rfl⟩ := Result.map_eq_ok.mp hclause
      rw [clauseReason, hcl]
      rfl
  | some code =>
    rw [hcl] at hcode
    rw [denialReason_coded he hc hcode]
    cases denied with
    | none =>
      cases hclause
      rw [clauseReason, hcl]
      rfl
    | some outcome =>
      -- the outcome is serialized twice, to the same value
      obtain ⟨v, hv, rfl⟩ := Result.map_eq_ok.mp hclause
      rw [codedReason, hv, clauseReason, hcl]
      rfl

/-- The reason of a denial is the one that its serialized clause calls for. -/
theorem denialReason_matches {d : Decision O} {denied : Option O} {unsatisfied : List FactId}
    {label : Option ClauseLabel} {reason : Option ReasonCode} {shape : DenyShape}
    {clause : TraceClause} {written : Option DenialReason}
    (he : d.effect = .deny) (hc : d.trace.decisive = .deny denied unsatisfied label reason shape)
    (hclause : traceClause d.trace.decisive = .ok clause) (hreason : d.denialReason = .ok written) :
    denialReasonMatchesTrace written clause = true := by
  rw [denialReasonMatchesTrace_eq_true]
  rw [denialReason_eq he hc hclause] at hreason
  exact (Except.ok.inj hreason).symm

end Decision

/-- A JSON value serializes to itself. -/
instance TraceValue.serialize : Serialize TraceValue where
  toValue value := .ok value

/-- The check accepts a reason exactly when it is the one that every denied decision with this clause
builds, and every clause is the clause of a denied decision. That reason has the code of the clause,
or else its label, the clause's shape, and no parameters but those named after the unsatisfied facts
and the requested outcome. -/
theorem denialReasonMatchesTrace_iff (denied : Option TraceValue) (unsatisfied : List FactId)
    (label : Option ClauseLabel) (reason : Option ReasonCode) (shape : DenyShape)
    (written : Option DenialReason) :
    (∀ (O : Type) [Serialize O] (d : Decision O), d.effect = .deny →
      Decision.traceClause d.trace.decisive = .ok (.deny denied unsatisfied label reason shape) →
      (denialReasonMatchesTrace written (.deny denied unsatisfied label reason shape) = true ↔
        d.denialReason = .ok written)) ∧
    (∃ d : Decision TraceValue, d.effect = .deny ∧
      Decision.traceClause d.trace.decisive =
        .ok (.deny denied unsatisfied label reason shape)) ∧
    (denialReasonMatchesTrace written (.deny denied unsatisfied label reason shape) = true ↔
      written = (clauseCode reason label).map fun code =>
        ⟨code, clauseParams denied unsatisfied, shape⟩) ∧
    ∀ (key : ParamKey) (value : ReasonValue),
      (clauseParams denied unsatisfied)[key]? = some value ↔
        (∃ i fact, unsatisfied[i]? = some fact ∧ key.value = missingFactKey i ∧
          value = .fact fact) ∨
        ∃ outcome, denied = some outcome ∧ key.value = "denied_outcome" ∧
          value = .outcome outcome := by
  refine ⟨fun O _ d he hclause => ?_, ?_, denialReasonMatchesTrace_eq_true, fun key value => ?_⟩
  · cases hc : d.trace.decisive with
    | permit granted satisfied label' =>
      rw [hc] at hclause
      obtain ⟨v, -, hv⟩ := Result.map_eq_ok.mp hclause
      cases hv
    | deny denied' unsatisfied' label' reason' shape' =>
      rw [denialReasonMatchesTrace_eq_true, Decision.denialReason_eq he hc hclause,
        Except.ok.injEq]
      exact eq_comm
  · refine ⟨⟨.deny, [], ⟨[], .deny denied unsatisfied label reason shape⟩⟩, rfl, ?_⟩
    cases denied <;> rfl
  · have hfact : ∀ i, key = missingFactParam i ↔ key.value = missingFactKey i := fun i =>
      ⟨fun h => congrArg OwnedId.value h, fun h => OwnedId.ext_value h⟩
    have hdenied : key = deniedOutcomeParam ↔ key.value = "denied_outcome" :=
      ⟨fun h => congrArg OwnedId.value h, fun h => OwnedId.ext_value h⟩
    rw [getElem?_clauseParams_iff, hdenied]
    simp only [hfact]

end Gatekeep
