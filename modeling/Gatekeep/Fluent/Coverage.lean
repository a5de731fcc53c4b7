import Gatekeep.Fluent

/-!
# Gatekeep.Fluent.Coverage

The coverage report against rendering. Bundles are stored under canonical locale texts
(`canonicalKeys_applyAll`), and rendering looks a locale up by its canonical text; the report looks it
up as it is spelled. So the two agree on a canonically spelled locale, and on another one only where
rendering has no message to find either (`coverage_agrees_iff`).
-/

namespace Gatekeep

variable {F : FluentCrates}

/-- What `unic-langid` documents: the text of a language identifier is read as one of the same text. -/
def FluentCrates.CanonicalLanguages (F : FluentCrates) : Prop :=
  ∀ text language, F.parseLanguage text = .ok language →
    ∃ language', F.parseLanguage (F.languageText language) = .ok language' ∧
      F.languageText language' = F.languageText language

namespace FluentCatalog

/-! ## The keys of the bundles -/

/-- The text of the language identifier that a text is read as. -/
def Canonical (F : FluentCrates) (key : String) : Prop :=
  ∃ language, F.parseLanguage key = .ok language ∧ F.languageText language = key

def CanonicalKeys (c : FluentCatalog F) : Prop := ∀ key ∈ c.bundles, Canonical F key

theorem canonicalKeys_apply (hF : F.CanonicalLanguages) {c : FluentCatalog F}
    (hc : c.CanonicalKeys) (update : CatalogUpdate) : (c.apply update).2.CanonicalKeys := by
  cases update with
  | setFallbackLocale locale =>
    rw [apply, setFallbackLocale]
    split <;> exact hc
  | setHiddenMessage messageId fallback =>
    rw [apply, setHiddenMessage]
    split
    · exact hc
    · dsimp only
      split <;> exact hc
  | addResource locale source =>
    rw [apply]
    obtain ⟨language, resource, hreads⟩ | ⟨-, e, herror⟩ := addResource_cases F locale source
    · rw [addResource_read hreads]
      intro key hkey
      rcases Std.ExtTreeMap.mem_insert.mp hkey with heq | hmem
      · rw [← Std.LawfulEqCmp.eq_of_compare heq]
        exact hF _ _ hreads.1
      · exact hc key hmem
    · rw [herror]
      exact hc

theorem canonicalKeys_applyAll (hF : F.CanonicalLanguages) (updates : List CatalogUpdate) :
    (applyAll new updates : FluentCatalog F).CanonicalKeys := by
  have hrun : ∀ c : FluentCatalog F, c.CanonicalKeys → (c.applyAll updates).CanonicalKeys := by
    induction updates with
    | nil => exact fun _ hc => hc
    | cons update updates ih => exact fun c hc => ih _ (canonicalKeys_apply hF hc update)
  exact hrun new fun key hkey => absurd hkey Std.ExtTreeMap.not_mem_empty

/-! ## What rendering consults first -/

/-- The bundle that rendering consults first for a locale. -/
def firstBundle (c : FluentCatalog F) (locale : Locale) : Option F.FluentBundle :=
  (c.localeCandidates locale).head?.bind fun key => c.bundles[key]?

/-- A candidate is only ever added at the end. -/
theorem prefix_pushLocaleCandidate (locales candidates : List String) :
    candidates <+: locales.foldl (pushLocaleCandidate (F := F)) candidates := by
  induction locales generalizing candidates with
  | nil => exact List.prefix_rfl
  | cons locale locales ih =>
    refine List.IsPrefix.trans ?_ (ih _)
    rw [pushLocaleCandidate]
    split
    · exact List.prefix_rfl
    · dsimp only
      split
      · exact List.prefix_rfl
      · exact List.prefix_append _ _

theorem head_localeCandidates (c : FluentCatalog F) {locale : Locale}
    {language : F.LanguageIdentifier} (h : F.parseLanguage locale.value = .ok language) :
    ∃ rest, c.localeCandidates locale = F.languageText language :: rest := by
  have hfirst : pushLocaleCandidate (F := F) [] locale.value = [F.languageText language] := by
    rw [pushLocaleCandidate, h]
    rfl
  unfold localeCandidates
  simp only [List.reduceOption_cons_of_some, List.foldl_cons, hfirst]
  obtain ⟨rest, hrest⟩ := prefix_pushLocaleCandidate (F := F) _ [F.languageText language]
  exact ⟨rest, hrest.symm⟩

theorem firstBundle_eq (c : FluentCatalog F) {locale : Locale} {language : F.LanguageIdentifier}
    (h : F.parseLanguage locale.value = .ok language) :
    c.firstBundle locale = c.bundles[F.languageText language]? := by
  obtain ⟨rest, hrest⟩ := c.head_localeCandidates h
  rw [firstBundle, hrest]
  rfl

/-- What the first bundle renders without errors is the result. -/
theorem tryRenderReason_of_firstBundle (c : FluentCatalog F) {locale : Locale}
    {reason : DenialReason} {bundle : F.FluentBundle} {pattern : F.Pattern}
    (hshape : reason.shape ≠ .hidden) (hbundle : c.firstBundle locale = some bundle)
    (hpattern : pattern? (some bundle) reason.code.value = some pattern)
    (herrors : (F.formatPattern bundle pattern (some (fluentArgs F reason))).2 = []) :
    c.tryRenderReason reason locale =
      some (F.formatPattern bundle pattern (some (fluentArgs F reason))).1 := by
  obtain ⟨key, hkey, hbundle⟩ := Option.bind_eq_some_iff.mp hbundle
  obtain ⟨rest, hcandidates⟩ := List.head?_eq_some_iff.mp hkey
  obtain ⟨message, hmessage, hvalue⟩ := Option.bind_eq_some_iff.mp hpattern
  have hrendered : c.renderFromBundle reason key =
      some (F.formatPattern bundle pattern (some (fluentArgs F reason))).1 := by
    rw [Option.bind_some] at hmessage
    simp [renderFromBundle, renderMessage, hbundle, hmessage, hvalue, herrors]
  rw [tryRenderReason, if_neg hshape, hcandidates, List.findSome?_cons, hrendered]

/-! ## The report -/

variable {O : Type}

theorem mem_missingReasons {c : FluentCatalog F} {policy : PreparedPolicy O} {locale : Locale}
    {code : String} : code ∈ c.missingReasons policy locale ↔
      code ∈ policy.inspect.reasons ∧ pattern? c.bundles[locale.value]? code = none := by
  rw [missingReasons, List.mem_filter, Std.ExtTreeSet.mem_toList, Option.isNone_iff_eq_none]

/-- A locale that is not spelled canonically is not the key of a bundle. -/
theorem no_bundle_of_spelling {c : FluentCatalog F} (hc : c.CanonicalKeys) {locale : String}
    {language : F.LanguageIdentifier} (h : F.parseLanguage locale = .ok language)
    (hspelling : F.languageText language ≠ locale) : c.bundles[locale]? = none := by
  refine Std.ExtTreeMap.getElem?_eq_none fun hmem => ?_
  obtain ⟨language', hlanguage', htext⟩ := hc locale hmem
  rw [h] at hlanguage'
  cases hlanguage'
  exact hspelling htext

/-- On such a locale every code is listed. -/
theorem listed_of_spelling {c : FluentCatalog F} (hc : c.CanonicalKeys) {policy : PreparedPolicy O}
    {locale : Locale} {language : F.LanguageIdentifier}
    (h : F.parseLanguage locale.value = .ok language)
    (hspelling : F.languageText language ≠ locale.value) {code : String}
    (hcode : code ∈ policy.inspect.reasons) : code ∈ c.missingReasons policy locale := by
  rw [mem_missingReasons, no_bundle_of_spelling hc h hspelling]
  exact ⟨hcode, rfl⟩

variable [Serialize O] [Lattice O] [DecidableEq O]

/-- The report lists the codes for which rendering finds no message where it looks first, so that
after an empty report every denial is rendered from there, unless it is hidden or Fluent reports an
error. -/
structure CoverageAgrees (c : FluentCatalog F) (policy : PreparedPolicy O) (locale : Locale) :
    Prop where
  listed : ∀ code ∈ policy.inspect.reasons,
    code ∈ c.missingReasons policy locale ↔ pattern? (c.firstBundle locale) code = none
  rendered : c.missingReasons policy locale = [] → ∀ facts reason,
    (evaluate policy.policy facts).denialReason = .ok (some reason) → reason.shape ≠ .hidden →
    ∃ bundle pattern, c.firstBundle locale = some bundle ∧
      pattern? (some bundle) reason.code.value = some pattern ∧
      ((F.formatPattern bundle pattern (some (fluentArgs F reason))).2 = [] →
        c.tryRenderReason reason locale =
          some (F.formatPattern bundle pattern (some (fluentArgs F reason))).1)

/-- It is enough that the right codes are listed. -/
theorem coverageAgrees_of_listed {c : FluentCatalog F} {policy : PreparedPolicy O} {locale : Locale}
    (h : ∀ code ∈ policy.inspect.reasons,
      code ∈ c.missingReasons policy locale ↔ pattern? (c.firstBundle locale) code = none) :
    c.CoverageAgrees policy locale := by
  refine ⟨h, fun hempty facts reason hreason hshape => ?_⟩
  have hfound : pattern? (c.firstBundle locale) reason.code.value ≠ none := by
    intro hnone
    have hmem := (h _ (policy.code_mem_reasons facts hreason)).mpr hnone
    rw [hempty] at hmem
    cases hmem
  cases hbundle : c.firstBundle locale with
  | none =>
    rw [hbundle] at hfound
    exact absurd rfl hfound
  | some bundle =>
    rw [hbundle] at hfound
    obtain ⟨pattern, hpattern⟩ := Option.ne_none_iff_exists'.mp hfound
    exact ⟨bundle, pattern, rfl, hpattern,
      c.tryRenderReason_of_firstBundle hshape hbundle hpattern⟩

/-- The report and rendering agree on a locale exactly when it is spelled canonically or rendering has
no message for any code of the policy where it looks first. -/
theorem coverage_agrees_iff (hF : F.CanonicalLanguages) (updates : List CatalogUpdate)
    (policy : PreparedPolicy O) {locale : Locale} {language : F.LanguageIdentifier}
    (h : F.parseLanguage locale.value = .ok language) :
    (applyAll new updates : FluentCatalog F).CoverageAgrees policy locale ↔
      F.languageText language = locale.value ∨ ∀ code ∈ policy.inspect.reasons,
        pattern? ((applyAll new updates : FluentCatalog F).bundles[F.languageText language]?) code =
          none := by
  have hkeys := canonicalKeys_applyAll hF updates
  generalize (applyAll new updates : FluentCatalog F) = c at hkeys
  rw [← c.firstBundle_eq h]
  by_cases hspelling : F.languageText language = locale.value
  · refine iff_of_true (coverageAgrees_of_listed fun code hcode => ?_) (.inl hspelling)
    rw [mem_missingReasons, c.firstBundle_eq h, hspelling]
    exact and_iff_right hcode
  · constructor
    · exact fun hagrees => .inr fun code hcode =>
        (hagrees.listed code hcode).mp (listed_of_spelling hkeys h hspelling hcode)
    · rintro (heq | hnone)
      · exact absurd heq hspelling
      · exact coverageAgrees_of_listed fun code hcode =>
          iff_of_true (listed_of_spelling hkeys h hspelling hcode) (hnone code hcode)

end FluentCatalog

namespace Sample

theorem plainFluent_canonicalLanguages : plainFluent.CanonicalLanguages := by
  intro text language h
  change plainLanguage text = .ok language at h
  unfold plainLanguage at h
  split at h
  · cases h
    exact ⟨"en", rfl, rfl⟩
  · cases h
    exact ⟨"en-US", rfl, rfl⟩
  · cases h
    exact ⟨"en-US", rfl, rfl⟩
  · cases h

/-- Denies with the code `read-denied`. -/
def ownersRead : PreparedPolicy Unit where
  policy := .grant ⟨(), .has owner, none, .forbidden, [], some readDenied⟩
  anchor := anchor
  required := [owner]
  required_eq := rfl

def lowerCase : Locale := ⟨"en-us", by decide⟩

theorem lowerCase_lookups :
    let c : FluentCatalog plainFluent := .applyAll .new [deniedMessage]
    FluentCatalog.pattern? c.bundles["en-us"]? "read-denied" = none ∧
      FluentCatalog.pattern? c.bundles["en-US"]? "read-denied" ≠ none := by
  decide +kernel

theorem readDenied_mem_reasons : "read-denied" ∈ ownersRead.inspect.reasons :=
  (ownersRead.inventories_inspect.reasons _).mpr ⟨_, List.mem_singleton_self _, rfl⟩

end Sample

open Sample FluentCatalog

/-- Rendering finds the message of `en-US` for the locale `en-us`, and the report does not. -/
theorem coverage_misses_spelling :
    ((new : FluentCatalog plainFluent).apply deniedMessage).1 = .ok () ∧
      ¬ (applyAll new [deniedMessage] : FluentCatalog plainFluent).CoverageAgrees ownersRead
        lowerCase := by
  obtain ⟨hmissing, hfound⟩ := lowerCase_lookups
  have hparse : plainFluent.parseLanguage lowerCase.value = .ok "en-US" := rfl
  refine ⟨rfl, fun hagrees => hfound ?_⟩
  have hnone := (hagrees.listed _ readDenied_mem_reasons).mp
    (mem_missingReasons.mpr ⟨readDenied_mem_reasons, hmissing⟩)
  rwa [firstBundle_eq _ hparse] at hnone

theorem coverage_agrees_american :
    plainFluent.CanonicalLanguages ∧ plainFluent.parseLanguage american.value = .ok "en-US" ∧
      (applyAll new [deniedMessage] : FluentCatalog plainFluent).CoverageAgrees ownersRead american :=
  ⟨plainFluent_canonicalLanguages, rfl,
    (coverage_agrees_iff plainFluent_canonicalLanguages [deniedMessage] ownersRead rfl).mpr
      (.inl rfl)⟩

end Gatekeep
