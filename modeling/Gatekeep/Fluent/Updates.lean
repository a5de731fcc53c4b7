import Gatekeep.Fluent

/-!
# Gatekeep.Fluent.Updates

Rejected updates of a catalog. A call that fails may have changed the catalog by then (`HalfApplied`):
the id of the hidden message is assigned before the fallback is validated, and Fluent has stored the
new messages of a resource when it reports a repeated one. After any other failing call the bundles
have the same entries as before (`SameCatalog`), later calls keep that so, and neither rendering nor a
report depends on more than entries (`rejected_update_unnoticed`).
-/

namespace Gatekeep

variable {F : FluentCrates}

/-- What `fluent-bundle` documents of a bundle: it formats by its settings and by its entries, and
adding a resource adds each entry whose id is new and reports the others. -/
structure FluentCrates.BundleEntries (F : FluentCrates) where
  Settings : Type
  Entry : Type
  settings : F.FluentBundle → Settings
  entry : F.FluentBundle → String → Option Entry
  resourceEntries : F.FluentResource → List (String × Entry)
  entry_newBundle : ∀ language id, entry (F.newBundle language) id = none
  settings_addResource : ∀ bundle resource,
    settings (F.addResource bundle resource).2 = settings bundle
  entry_addResource : ∀ bundle resource id, entry (F.addResource bundle resource).2 id =
    (entry bundle id).or ((resourceEntries resource).lookup id)
  addResource_eq_ok : ∀ bundle resource, (F.addResource bundle resource).1 = .ok () ↔
    ((resourceEntries resource).map Prod.fst).Nodup ∧
      ∀ e ∈ resourceEntries resource, entry bundle e.1 = none
  getMessage_congr : ∀ bundle bundle', settings bundle = settings bundle' →
    entry bundle = entry bundle' → F.getMessage bundle = F.getMessage bundle'
  formatPattern_congr : ∀ bundle bundle', settings bundle = settings bundle' →
    entry bundle = entry bundle' → F.formatPattern bundle = F.formatPattern bundle'

namespace FluentCrates.BundleEntries

variable (E : F.BundleEntries)

/-- No id of the resource is repeated or in the bundle. -/
def Fresh (bundle : F.FluentBundle) (resource : F.FluentResource) : Prop :=
  ((E.resourceEntries resource).map Prod.fst).Nodup ∧
    ∀ e ∈ E.resourceEntries resource, E.entry bundle e.1 = none

def SameBundle (bundle bundle' : F.FluentBundle) : Prop :=
  E.settings bundle = E.settings bundle' ∧ E.entry bundle = E.entry bundle'

theorem sameBundle_addResource {bundle bundle' : F.FluentBundle} (h : E.SameBundle bundle bundle')
    (resource : F.FluentResource) :
    E.SameBundle (F.addResource bundle resource).2 (F.addResource bundle' resource).2 := by
  refine ⟨?_, funext fun id => ?_⟩
  · rw [E.settings_addResource, E.settings_addResource, h.1]
  · rw [E.entry_addResource, E.entry_addResource, h.2]

/-- A resource without new ids adds nothing. -/
theorem sameBundle_of_present {bundle : F.FluentBundle} {resource : F.FluentResource}
    (h : ∀ e ∈ E.resourceEntries resource, E.entry bundle e.1 ≠ none) :
    E.SameBundle (F.addResource bundle resource).2 bundle := by
  refine ⟨E.settings_addResource bundle resource, funext fun id => ?_⟩
  rw [E.entry_addResource]
  cases hentry : E.entry bundle id with
  | some entry => rfl
  | none =>
    rw [Option.none_or, List.lookup_eq_none_iff]
    intro e he
    refine bne_iff_ne.mpr ?_
    rintro rfl
    exact h e he hentry

/-- A resource with a new id adds something. -/
theorem not_sameBundle_of_new {bundle : F.FluentBundle} {resource : F.FluentResource}
    {e : String × E.Entry} (he : e ∈ E.resourceEntries resource) (hnew : E.entry bundle e.1 = none) :
    ¬ E.SameBundle (F.addResource bundle resource).2 bundle := by
  intro hsame
  have hentry := congrFun hsame.2 e.1
  rw [E.entry_addResource, hnew, Option.none_or, List.lookup_eq_none_iff] at hentry
  exact bne_iff_ne.mp (hentry e he) rfl

theorem fresh_newBundle {language : F.LanguageIdentifier} {resource : F.FluentResource}
    (h : ∀ e ∈ E.resourceEntries resource, E.entry (F.newBundle language) e.1 ≠ none) :
    E.Fresh (F.newBundle language) resource := by
  have hnil : E.resourceEntries resource = [] :=
    List.eq_nil_iff_forall_not_mem.mpr fun e he => h e he (E.entry_newBundle language e.1)
  rw [Fresh, hnil]
  exact ⟨List.nodup_nil, fun e he => absurd he List.not_mem_nil⟩

end FluentCrates.BundleEntries

namespace FluentCatalog

/-! ## Catalogs of the same entries -/

variable (E : F.BundleEntries)

/-- Equal but for bundles, which have the same entries. -/
structure SameCatalog (c c' : FluentCatalog F) : Prop where
  fallbackLocale : c.fallbackLocale = c'.fallbackLocale
  hiddenMessageId : c.hiddenMessageId = c'.hiddenMessageId
  hiddenFallback : c.hiddenFallback = c'.hiddenFallback
  bundles : ∀ key : String, Option.Rel E.SameBundle c.bundles[key]? c'.bundles[key]?

variable {E} {c c' : FluentCatalog F}

theorem SameCatalog.refl (c : FluentCatalog F) : SameCatalog E c c where
  fallbackLocale := rfl
  hiddenMessageId := rfl
  hiddenFallback := rfl
  bundles key := by
    cases c.bundles[key]? with
    | none => exact .none
    | some bundle => exact .some ⟨rfl, rfl⟩

theorem SameCatalog.bundle_cases (h : SameCatalog E c c') (key : String) :
    (c.bundles[key]? = none ∧ c'.bundles[key]? = none) ∨
      ∃ bundle bundle', c.bundles[key]? = some bundle ∧ c'.bundles[key]? = some bundle' ∧
        E.SameBundle bundle bundle' := by
  have hbundle := h.bundles key
  generalize c.bundles[key]? = x, c'.bundles[key]? = y at hbundle
  cases hbundle with
  | some hbundle => exact .inr ⟨_, _, rfl, rfl, hbundle⟩
  | none => exact .inl ⟨rfl, rfl⟩

theorem SameCatalog.bundleOf (h : SameCatalog E c c') (language : F.LanguageIdentifier) :
    E.SameBundle (c.bundleOf language) (c'.bundleOf language) := by
  unfold FluentCatalog.bundleOf
  obtain ⟨hnone, hnone'⟩ | ⟨bundle, bundle', hsome, hsome', hbundle⟩ :=
    h.bundle_cases (F.languageText language)
  · rw [hnone, hnone']
    exact ⟨rfl, rfl⟩
  · rw [hsome, hsome']
    exact hbundle

theorem SameCatalog.store (h : SameCatalog E c c') (language : F.LanguageIdentifier)
    {bundle bundle' : F.FluentBundle} (hbundle : E.SameBundle bundle bundle') :
    SameCatalog E (c.store language bundle) (c'.store language bundle') where
  fallbackLocale := h.fallbackLocale
  hiddenMessageId := h.hiddenMessageId
  hiddenFallback := h.hiddenFallback
  bundles key := by
    rw [getElem?_store, getElem?_store]
    split
    · exact .some hbundle
    · exact h.bundles key

theorem SameCatalog.apply (h : SameCatalog E c c') (update : CatalogUpdate) :
    SameCatalog E (c.apply update).2 (c'.apply update).2 := by
  cases update with
  | setFallbackLocale locale =>
    simp only [FluentCatalog.apply, setFallbackLocale]
    cases (parseLocale locale : Except (FluentCatalogError F) _) with
    | error e => exact h
    | ok language => exact { h with fallbackLocale := rfl }
  | setHiddenMessage messageId fallback =>
    simp only [FluentCatalog.apply, setHiddenMessage]
    cases (validateMessageId messageId : Except (FluentCatalogError F) _) with
    | error e => exact h
    | ok messageId =>
      cases (validateHiddenFallback fallback : Except (FluentCatalogError F) _) with
      | error e => exact { h with hiddenMessageId := rfl }
      | ok fallback => exact { h with hiddenMessageId := rfl, hiddenFallback := rfl }
  | addResource locale source =>
    simp only [FluentCatalog.apply]
    obtain ⟨language, resource, hreads⟩ | ⟨-, e, herror⟩ := addResource_cases F locale source
    · rw [addResource_read hreads, addResource_read hreads]
      exact h.store language (E.sameBundle_addResource (h.bundleOf language) resource)
    · rw [herror, herror]
      exact h

theorem SameCatalog.applyAll (h : SameCatalog E c c') (updates : List CatalogUpdate) :
    SameCatalog E (c.applyAll updates) (c'.applyAll updates) :=
  List.foldl_rel h fun update _ _ _ h => h.apply update

/-! ## What observers see -/

/-- No rendering and no report tells the catalogs apart. -/
structure Indistinguishable (c c' : FluentCatalog F) : Prop where
  renderReason : ∀ reason locale, c.renderReason reason locale = c'.renderReason reason locale
  tryRenderReason : ∀ reason locale,
    c.tryRenderReason reason locale = c'.tryRenderReason reason locale
  missingReasons : ∀ {O : Type} (policy : PreparedPolicy O) locale,
    c.missingReasons policy locale = c'.missingReasons policy locale

theorem SameCatalog.localeCandidates (h : SameCatalog E c c') (locale : Locale) :
    c.localeCandidates locale = c'.localeCandidates locale := by
  rw [FluentCatalog.localeCandidates, FluentCatalog.localeCandidates, h.fallbackLocale]

theorem SameCatalog.bind_bundle {α : Type} (h : SameCatalog E c c') (key : String)
    {f g : F.FluentBundle → Option α}
    (hfg : ∀ bundle bundle', E.SameBundle bundle bundle' → f bundle = g bundle') :
    c.bundles[key]?.bind f = c'.bundles[key]?.bind g := by
  obtain ⟨hnone, hnone'⟩ | ⟨bundle, bundle', hsome, hsome', hbundle⟩ := h.bundle_cases key
  · rw [hnone, hnone']
    rfl
  · rw [hsome, hsome']
    exact hfg bundle bundle' hbundle

theorem SameCatalog.pattern? (h : SameCatalog E c c') (key messageId : String) :
    FluentCatalog.pattern? c.bundles[key]? messageId =
      FluentCatalog.pattern? c'.bundles[key]? messageId := by
  have hmessage := h.bind_bundle key fun bundle bundle' (hbundle : E.SameBundle bundle bundle') =>
    congrFun (E.getMessage_congr _ _ hbundle.1 hbundle.2) messageId
  rw [FluentCatalog.pattern?, FluentCatalog.pattern?, hmessage]

theorem SameCatalog.renderMessage_eq (h : SameCatalog E c c') (messageId : String)
    (args : Option F.FluentArgs) :
    c.renderMessage messageId args = c'.renderMessage messageId args := by
  funext key
  refine h.bind_bundle key fun bundle bundle' hbundle => ?_
  rw [E.getMessage_congr _ _ hbundle.1 hbundle.2, E.formatPattern_congr _ _ hbundle.1 hbundle.2]

theorem SameCatalog.tryRenderHidden (h : SameCatalog E c c') (locale : Locale) :
    c.tryRenderHidden locale = c'.tryRenderHidden locale := by
  rw [FluentCatalog.tryRenderHidden, FluentCatalog.tryRenderHidden, h.localeCandidates,
    h.hiddenMessageId, h.renderMessage_eq]

theorem SameCatalog.tryRenderReason (h : SameCatalog E c c') (reason : DenialReason)
    (locale : Locale) : c.tryRenderReason reason locale = c'.tryRenderReason reason locale := by
  have hrender : c.renderFromBundle reason = c'.renderFromBundle reason :=
    h.renderMessage_eq reason.code.value _
  rw [FluentCatalog.tryRenderReason, FluentCatalog.tryRenderReason, h.tryRenderHidden,
    h.localeCandidates, hrender]

theorem SameCatalog.indistinguishable (h : SameCatalog E c c') : Indistinguishable c c' where
  renderReason reason locale := by
    rw [FluentCatalog.renderReason, FluentCatalog.renderReason, renderHidden, renderHidden,
      h.tryRenderHidden, h.hiddenFallback, h.tryRenderReason]
  tryRenderReason := h.tryRenderReason
  missingReasons policy locale :=
    List.filter_congr fun reason _ => congrArg Option.isNone (h.pattern? locale.value reason)

/-! ## Rejected calls -/

variable (E) in
/-- The call is rejected with the catalog changed by then. -/
def HalfApplied (c : FluentCatalog F) : CatalogUpdate → Prop
  | .setFallbackLocale _ => False
  | .setHiddenMessage messageId fallback =>
    isBlank messageId = false ∧ isBlank fallback = true ∧ messageId ≠ c.hiddenMessageId
  | .addResource locale source => ∃ language resource, Reads F locale source language resource ∧
    ¬ E.Fresh (c.bundleOf language) resource ∧
    ∃ e ∈ E.resourceEntries resource, E.entry (c.bundleOf language) e.1 = none

theorem sameCatalog_setFallbackLocale {locale : String} {e : FluentCatalogError F}
    (h : (c.setFallbackLocale locale).1 = .error e) :
    SameCatalog E (c.setFallbackLocale locale).2 c := by
  unfold setFallbackLocale at h ⊢
  split at h
  · exact SameCatalog.refl c
  · cases h

theorem sameCatalog_setHiddenMessage_iff {messageId fallback : String} {e : FluentCatalogError F}
    (h : (c.setHiddenMessage messageId fallback).1 = .error e) :
    SameCatalog E (c.setHiddenMessage messageId fallback).2 c ↔
      ¬ HalfApplied E c (.setHiddenMessage messageId fallback) := by
  rw [HalfApplied]
  cases hid : isBlank messageId with
  | true =>
    simp only [setHiddenMessage, validateMessageId, hid, if_pos]
    refine iff_of_true (SameCatalog.refl c) ?_
    rintro ⟨⟨⟩, -⟩
  | false =>
    cases hfallback : isBlank fallback with
    | false =>
      simp [setHiddenMessage, validateMessageId, validateHiddenFallback, hid, hfallback] at h
    | true =>
      simp only [setHiddenMessage, validateMessageId, validateHiddenFallback, hid, hfallback,
        Bool.false_eq_true, if_false, if_true, true_and, not_not, ne_eq]
      exact ⟨fun hsame => hsame.hiddenMessageId,
        fun heq => { SameCatalog.refl c with hiddenMessageId := heq }⟩

theorem sameCatalog_store {language : F.LanguageIdentifier} {bundle : F.FluentBundle}
    (hfound : c.bundles[F.languageText language]? = some (c.bundleOf language))
    (hbundle : E.SameBundle bundle (c.bundleOf language)) :
    SameCatalog E (c.store language bundle) c := by
  refine ⟨rfl, rfl, rfl, fun key => ?_⟩
  rw [getElem?_store]
  split
  · rename_i hkey
    rw [← hkey, hfound]
    exact .some hbundle
  · exact (SameCatalog.refl c).bundles key

/-- A resource that is rejected by a bundle without adding to it has been rejected before. -/
theorem bundle_of_rejected {language : F.LanguageIdentifier} {resource : F.FluentResource}
    (hfresh : ¬ E.Fresh (c.bundleOf language) resource)
    (hpresent : ∀ e ∈ E.resourceEntries resource, E.entry (c.bundleOf language) e.1 ≠ none) :
    c.bundles[F.languageText language]? = some (c.bundleOf language) := by
  unfold FluentCatalog.bundleOf at hfresh hpresent ⊢
  cases hfound : c.bundles[F.languageText language]? with
  | none =>
    rw [hfound, Option.getD_none] at hfresh hpresent
    exact absurd (E.fresh_newBundle hpresent) hfresh
  | some bundle => rfl

theorem sameCatalog_addResource_iff {locale source : String} {e : FluentCatalogError F}
    (h : (c.addResource locale source).1 = .error e) :
    SameCatalog E (c.addResource locale source).2 c ↔
      ¬ HalfApplied E c (.addResource locale source) := by
  obtain ⟨language, resource, hreads⟩ | ⟨hunread, e', herror⟩ := addResource_cases F locale source
  · have hfresh : ¬ E.Fresh (c.bundleOf language) resource := by
      intro hfresh
      rw [addResource_read hreads, (E.addResource_eq_ok _ _).mpr hfresh] at h
      cases h
    rw [addResource_read hreads]
    constructor
    · rintro hsame ⟨language', resource', ⟨hlanguage, hresource⟩, -, x, hx, hnew⟩
      rw [hreads.1] at hlanguage
      rw [hreads.2] at hresource
      cases hlanguage
      cases hresource
      have hbundle := hsame.bundleOf language
      rw [bundleOf_store] at hbundle
      exact E.not_sameBundle_of_new hx hnew hbundle
    · intro hhalf
      have hpresent : ∀ x ∈ E.resourceEntries resource, E.entry (c.bundleOf language) x.1 ≠ none :=
        fun x hx hnew => hhalf ⟨language, resource, hreads, hfresh, x, hx, hnew⟩
      exact sameCatalog_store (bundle_of_rejected hfresh hpresent) (E.sameBundle_of_present hpresent)
  · rw [herror]
    refine iff_of_true (SameCatalog.refl c) ?_
    rintro ⟨language, resource, hreads, -⟩
    exact hunread language resource hreads

theorem sameCatalog_apply_iff {update : CatalogUpdate} {e : FluentCatalogError F}
    (h : (c.apply update).1 = .error e) :
    SameCatalog E (c.apply update).2 c ↔ ¬ HalfApplied E c update := by
  cases update with
  | setFallbackLocale locale => exact iff_of_true (sameCatalog_setFallbackLocale h) not_false
  | setHiddenMessage messageId fallback => exact sameCatalog_setHiddenMessage_iff h
  | addResource locale source => exact sameCatalog_addResource_iff h

/-- In any history of calls, a rejected call leaves bundles with the same entries and all else as it
was exactly when it is not half applied, and then nothing rendered or reported after it, also after
later calls, depends on whether it was made. -/
theorem rejected_update_unnoticed (E : F.BundleEntries) (updates : List CatalogUpdate)
    {update : CatalogUpdate}
    (h : ((applyAll new updates : FluentCatalog F).apply update).1.isOk = false) :
    (SameCatalog E ((applyAll new updates).apply update).2 (applyAll new updates) ↔
      ¬ HalfApplied E (applyAll new updates) update) ∧
    (¬ HalfApplied E (applyAll new updates) update → ∀ later,
      Indistinguishable (applyAll new (updates ++ update :: later) : FluentCatalog F)
        (applyAll new (updates ++ later))) := by
  obtain ⟨e, h⟩ := Result.isOk_eq_false.mp h
  have hstate := sameCatalog_apply_iff (E := E) h
  refine ⟨hstate, fun hhalf later => ?_⟩
  rw [applyAll_append, applyAll_append]
  exact ((hstate.mpr hhalf).applyAll later).indistinguishable

end FluentCatalog

namespace Sample

theorem repeated_eq_nil {seen ids : List String} :
    repeated seen ids = [] ↔ ids.Nodup ∧ ∀ id ∈ ids, id ∉ seen := by
  induction ids generalizing seen with
  | nil => exact iff_of_true rfl ⟨List.nodup_nil, fun id hid => absurd hid List.not_mem_nil⟩
  | cons id ids ih =>
    rw [repeated, List.nodup_cons, List.forall_mem_cons]
    split
    · rename_i hseen
      exact iff_of_false (List.cons_ne_nil _ _) fun h => h.2.1 hseen
    · rename_i hseen
      rw [ih]
      constructor
      · rintro ⟨hnodup, hnew⟩
        exact ⟨⟨fun hid => hnew id hid List.mem_cons_self, hnodup⟩, hseen,
          fun other hother hmem => hnew other hother (List.mem_cons_of_mem _ hmem)⟩
      · rintro ⟨⟨hid, hnodup⟩, -, hnew⟩
        refine ⟨hnodup, fun other hother hmem => ?_⟩
        rcases List.mem_cons.mp hmem with rfl | hmem
        · exact hid hother
        · exact hnew other hother hmem

theorem lookup_eq_none {bundle : List (String × String)} {id : String} :
    bundle.lookup id = none ↔ id ∉ bundle.map Prod.fst := by
  rw [List.lookup_eq_none_iff, List.mem_map]
  constructor
  · rintro h ⟨e, he, rfl⟩
    exact bne_iff_ne.mp (h e he) rfl
  · exact fun h e he => bne_iff_ne.mpr fun hid => h ⟨e, he, hid.symm⟩

theorem plainFluent_addResource_eq_ok (bundle resource : List (String × String)) :
    (plainFluent.addResource bundle resource).1 = .ok () ↔
      (resource.map Prod.fst).Nodup ∧ ∀ e ∈ resource, bundle.lookup e.1 = none := by
  have hrepeated : (plainFluent.addResource bundle resource).1 = .ok () ↔
      repeated (bundle.map Prod.fst) (resource.map Prod.fst) = [] := by
    unfold plainFluent
    dsimp only
    split
    · rename_i hnil
      exact iff_of_true rfl hnil
    · rename_i ids hids
      exact iff_of_false (fun h => by cases h) hids
  rw [hrepeated, repeated_eq_nil, List.forall_mem_map]
  simp only [lookup_eq_none]

def plainEntries : plainFluent.BundleEntries where
  Settings := Unit
  Entry := String
  settings _ := ()
  entry bundle id := List.lookup id bundle
  resourceEntries resource := resource
  entry_newBundle _ _ := rfl
  settings_addResource _ _ := rfl
  entry_addResource _ _ _ := List.lookup_append
  addResource_eq_ok := plainFluent_addResource_eq_ok
  getMessage_congr _ _ _ h := h
  formatPattern_congr _ _ _ _ := rfl

def rewording : CatalogUpdate := .addResource "en-US" "read-denied = No reading"

def clash : CatalogUpdate :=
  .addResource "en-US" "write-denied = No writing\nread-denied = No reading"

def blankFallback : CatalogUpdate := .setHiddenMessage "read-denied" " "

def writeDenied : DenialReason := ⟨⟨"write-denied", by decide⟩, ∅, .forbidden⟩

def hiddenRead : DenialReason := ⟨readDenied, ∅, .hidden⟩

/-- Each of the calls is rejected, and the last two change what is rendered. -/
theorem rejected_runs :
    let c : FluentCatalog plainFluent := .applyAll .new [deniedMessage]
    ((c.apply rewording).1.isOk = false ∧ (c.apply clash).1.isOk = false ∧
      (c.apply blankFallback).1.isOk = false) ∧
    (c.renderReason writeDenied american = "write-denied" ∧
      (c.apply clash).2.renderReason writeDenied american = "No writing") ∧
    (c.renderReason hiddenRead american = "not found" ∧
      (c.apply blankFallback).2.renderReason hiddenRead american = "Denied") ∧
    (("read-denied = No reading".toList.splitOn '\n').mapM plainMessage).toOption =
      some [("read-denied", "No reading")] ∧
    plainEntries.entry (c.bundleOf "en-US") "read-denied" ≠ none := by
  decide +kernel

theorem not_halfApplied_rewording : ¬ FluentCatalog.HalfApplied plainEntries
    (FluentCatalog.new.applyAll [deniedMessage]) rewording := by
  obtain ⟨-, -, -, hparsed, hpresent⟩ := rejected_runs
  rintro ⟨language, resource, ⟨hlanguage, hresource⟩, -, e, he, hnew⟩
  cases hresource.symm.trans (Result.toOption_eq_some.mp hparsed)
  cases hlanguage
  rw [List.mem_singleton.mp he] at hnew
  exact hpresent hnew

end Sample

open Sample FluentCatalog

theorem rewording_unnoticed : Indistinguishable
    (applyAll new ([deniedMessage] ++ rewording :: [blankFallback]) : FluentCatalog plainFluent)
    (applyAll new ([deniedMessage] ++ [blankFallback])) :=
  (rejected_update_unnoticed plainEntries [deniedMessage] rejected_runs.1.1).2
    not_halfApplied_rewording [blankFallback]

/-- A new message is rendered although its resource is rejected, and a hidden denial is rendered by a
message that is rejected with its blank fallback. -/
theorem half_applied_noticed :
    ((applyAll new [deniedMessage] : FluentCatalog plainFluent).apply clash).1.isOk = false ∧
      ¬ Indistinguishable (applyAll new [deniedMessage, clash] : FluentCatalog plainFluent)
        (applyAll new [deniedMessage]) ∧
    ((applyAll new [deniedMessage] : FluentCatalog plainFluent).apply blankFallback).1.isOk = false ∧
      ¬ Indistinguishable (applyAll new [deniedMessage, blankFallback] : FluentCatalog plainFluent)
        (applyAll new [deniedMessage]) := by
  obtain ⟨⟨-, hclash, hblank⟩, ⟨hcode, hwriting⟩, ⟨hgeneric, hdenied⟩, -⟩ := rejected_runs
  refine ⟨hclash, fun h => ?_, hblank, fun h => ?_⟩
  · have hrendered : "No writing" = "write-denied" :=
      hwriting.symm.trans ((h.renderReason writeDenied american).trans hcode)
    exact absurd hrendered (by decide)
  · have hrendered : "Denied" = "not found" :=
      hdenied.symm.trans ((h.renderReason hiddenRead american).trans hgeneric)
    exact absurd hrendered (by decide)

end Gatekeep
