import Gatekeep.Inspection

/-!
# Gatekeep.Fluent

The reason catalog over Fluent messages, the crate `gatekeep-fluent`. Messages are kept in bundles,
one for each locale under its canonical text, and a denial reason is rendered by the first bundle
that can do it: of the requested locale, of its language, of the fallback locale, of its language.

Fluent and the language identifiers themselves are outside. `FluentCrates` lists what the catalog
uses of them and says nothing about it; what a result needs to know is a hypothesis of its own.
-/

namespace Gatekeep

/-! ## The crates -/

/-- What the catalog uses of `unic-langid`, of `fluent-bundle` and of the text form of JSON values. -/
structure FluentCrates where
  LanguageIdentifier : Type
  LanguageIdentifierError : Type
  ParserError : Type
  FluentResource : Type
  FluentBundle : Type
  FluentMessage : Type
  Pattern : Type
  FluentArgs : Type
  FluentValue : Type
  FluentError : Type
  parseLanguage : String → Except LanguageIdentifierError LanguageIdentifier
  languageText : LanguageIdentifier → String
  parseResource : String → Except (List ParserError) FluentResource
  parserErrorText : ParserError → String
  newBundle : LanguageIdentifier → FluentBundle
  /-- The bundle is changed in place, also when errors are reported. -/
  addResource : FluentBundle → FluentResource → Except (List FluentError) Unit × FluentBundle
  getMessage : FluentBundle → String → Option FluentMessage
  messageValue : FluentMessage → Option Pattern
  formatPattern : FluentBundle → Pattern → Option FluentArgs → String × List FluentError
  fluentErrorText : FluentError → String
  argsWithCapacity : Nat → FluentArgs
  setArg : FluentArgs → String → FluentValue → FluentArgs
  stringValue : String → FluentValue
  intValue : Int64 → FluentValue
  /-- The floating-point value of a number literal. -/
  floatValue : String → FluentValue
  jsonText : Json → String

/-- Errors returned while building a catalog. -/
inductive FluentCatalogError (F : FluentCrates) where
  | invalidLocale (locale : String) (source : F.LanguageIdentifierError)
  | parse (locale : String) (errors : List String)
  | resource (locale : String) (errors : List String)
  | emptyMessageId (field : String)
  | emptyFallbackMessage (field : String)

variable {F : FluentCrates}

def parseLocale (locale : String) : Except (FluentCatalogError F) F.LanguageIdentifier :=
  (F.parseLanguage locale).mapError (.invalidLocale locale)

def parseResource (locale source : String) : Except (FluentCatalogError F) F.FluentResource :=
  (F.parseResource source).mapError fun errors => .parse locale (errors.map F.parserErrorText)

def displayErrors (errors : List F.FluentError) : List String := errors.map F.fluentErrorText

def validateMessageId (value : String) : Except (FluentCatalogError F) String :=
  if isBlank value then .error (.emptyMessageId "hidden message id") else .ok value

def validateHiddenFallback (value : String) : Except (FluentCatalogError F) String :=
  if isBlank value then .error (.emptyFallbackMessage "hidden fallback message") else .ok value

/-- `str::split_once`. -/
def splitOnce (value : String) (delimiter : Char) : Option (String × String) :=
  if value.toList.contains delimiter then
    some (String.ofList (value.toList.takeWhile (· ≠ delimiter)),
      String.ofList (value.toList.dropWhile (· ≠ delimiter)).tail)
  else none

/-! ## Arguments -/

/-- A number of serde_json: a signed or an unsigned 64-bit integer, else a floating-point number. -/
def fluentInt (F : FluentCrates) (n : Int) : F.FluentValue :=
  if -2 ^ 63 ≤ n ∧ n < 2 ^ 63 then F.intValue (Int64.ofInt n)
  else if 0 ≤ n ∧ n < 2 ^ 64 then F.stringValue (toString n)
  else F.floatValue (toString n)

def jsonValue (F : FluentCrates) : Json → F.FluentValue
  | .null => F.stringValue "null"
  | .bool value => F.stringValue (toString value)
  | .int n => fluentInt F n
  | .decimal literal => F.floatValue literal
  | .str value => F.stringValue value
  | .arr items => F.stringValue (F.jsonText (.arr items))
  | .obj fields => F.stringValue (F.jsonText (.obj fields))

def fluentValue (F : FluentCrates) : ReasonValue → F.FluentValue
  | .str value => F.stringValue value
  | .int value => F.intValue value
  | .fact fact => F.stringValue fact.value
  | .outcome value => jsonValue F value

def fluentArgs (F : FluentCrates) (reason : DenialReason) : F.FluentArgs :=
  reason.params.toList.foldl (fun args e => F.setArg args e.1.value (fluentValue F e.2))
    (F.argsWithCapacity reason.params.size)

/-! ## The catalog -/

/-- Fluent catalog keyed by gatekeep reason codes. -/
structure FluentCatalog (F : FluentCrates) where
  bundles : Std.ExtTreeMap String F.FluentBundle
  fallbackLocale : Option String
  hiddenMessageId : String
  hiddenFallback : String

namespace FluentCatalog

def defaultHiddenMessage : String := "not found"

def defaultHiddenMessageId : String := "not-found"

def new : FluentCatalog F := ⟨∅, none, defaultHiddenMessageId, defaultHiddenMessage⟩

/-- The value of a bundle's message, when there are such a bundle and such a message. -/
def pattern? (bundle : Option F.FluentBundle) (messageId : String) : Option F.Pattern :=
  (bundle.bind fun bundle => F.getMessage bundle messageId).bind F.messageValue

/-- Lists policy reason identifiers missing from this exact locale. -/
def missingReasons {O : Type} (c : FluentCatalog F) (policy : PreparedPolicy O) (locale : Locale) :
    List String :=
  policy.inspect.reasons.toList.filter fun reason =>
    (pattern? c.bundles[locale.value]? reason).isNone

/-! A method that changes the catalog returns its result and the catalog that it leaves. -/

def setFallbackLocale (c : FluentCatalog F) (locale : String) :
    Except (FluentCatalogError F) Unit × FluentCatalog F :=
  match parseLocale locale with
  | .error e => (.error e, c)
  | .ok locale => (.ok (), { c with fallbackLocale := some (F.languageText locale) })

def setHiddenMessage (c : FluentCatalog F) (messageId fallback : String) :
    Except (FluentCatalogError F) Unit × FluentCatalog F :=
  match validateMessageId messageId with
  | .error e => (.error e, c)
  | .ok messageId =>
    -- assigned before the fallback is validated
    let c := { c with hiddenMessageId := messageId }
    match validateHiddenFallback fallback with
    | .error e => (.error e, c)
    | .ok fallback => (.ok (), { c with hiddenFallback := fallback })

def addResource (c : FluentCatalog F) (locale source : String) :
    Except (FluentCatalogError F) Unit × FluentCatalog F :=
  match parseLocale locale with
  | .error e => (.error e, c)
  | .ok locale =>
    let localeKey := F.languageText locale
    match parseResource localeKey source with
    | .error e => (.error e, c)
    | .ok resource =>
      let bundle := c.bundles[localeKey]?.getD (F.newBundle locale)
      let (result, bundle) := F.addResource bundle resource
      (result.mapError fun errors => .resource localeKey (displayErrors errors),
        { c with bundles := c.bundles.insert localeKey bundle })

/-! ## What adding a resource does -/

/-- The locale and the source parse. -/
def Reads (F : FluentCrates) (locale source : String) (language : F.LanguageIdentifier)
    (resource : F.FluentResource) : Prop :=
  F.parseLanguage locale = .ok language ∧ F.parseResource source = .ok resource

/-- The bundle that a resource is added to. -/
def bundleOf (c : FluentCatalog F) (language : F.LanguageIdentifier) : F.FluentBundle :=
  c.bundles[F.languageText language]?.getD (F.newBundle language)

/-- The catalog with a bundle in its place. -/
def store (c : FluentCatalog F) (language : F.LanguageIdentifier) (bundle : F.FluentBundle) :
    FluentCatalog F :=
  { c with bundles := c.bundles.insert (F.languageText language) bundle }

theorem getElem?_store (c : FluentCatalog F) (language : F.LanguageIdentifier)
    (bundle : F.FluentBundle) (key : String) : (c.store language bundle).bundles[key]? =
      if F.languageText language = key then some bundle else c.bundles[key]? := by
  rw [store, Std.ExtTreeMap.getElem?_insert]
  exact if_congr compare_eq_iff_eq rfl rfl

theorem bundleOf_store (c : FluentCatalog F) (language : F.LanguageIdentifier)
    (bundle : F.FluentBundle) : (c.store language bundle).bundleOf language = bundle := by
  rw [bundleOf, getElem?_store, if_pos rfl, Option.getD_some]

/-- A call reads its arguments, or it fails in every catalog and changes none. -/
theorem addResource_cases (F : FluentCrates) (locale source : String) :
    (∃ language resource, Reads F locale source language resource) ∨
      (∀ language resource, ¬ Reads F locale source language resource) ∧
        ∃ e, ∀ c : FluentCatalog F, c.addResource locale source = (.error e, c) := by
  cases hlanguage : F.parseLanguage locale with
  | error e =>
    refine .inr ⟨fun language resource h => ?_, .invalidLocale locale e, fun c => ?_⟩
    · cases hlanguage.symm.trans h.1
    · simp only [addResource, parseLocale, hlanguage, Except.mapError]
  | ok language =>
    cases hresource : F.parseResource source with
    | error errors =>
      refine .inr ⟨fun language' resource h => ?_,
        .parse (F.languageText language) (errors.map F.parserErrorText), fun c => ?_⟩
      · cases hresource.symm.trans h.2
      · simp only [addResource, parseLocale, hlanguage, parseResource, hresource, Except.mapError]
    | ok resource => exact .inl ⟨language, resource, hlanguage, hresource⟩

theorem addResource_read {locale source : String} {language : F.LanguageIdentifier}
    {resource : F.FluentResource} (h : Reads F locale source language resource)
    (c : FluentCatalog F) : c.addResource locale source =
      ((F.addResource (c.bundleOf language) resource).1.mapError fun errors =>
          .resource (F.languageText language) (displayErrors errors),
        c.store language (F.addResource (c.bundleOf language) resource).2) := by
  simp only [addResource, parseLocale, h.1, parseResource, h.2, Except.mapError]
  rfl

/-! ## Rendering -/

def pushLocaleCandidate (candidates : List String) (locale : String) : List String :=
  match F.parseLanguage locale with
  | .error _ => candidates
  | .ok locale =>
    let candidate := F.languageText locale
    if candidates.contains candidate then candidates else candidates ++ [candidate]

def localeCandidates (c : FluentCatalog F) (locale : Locale) : List String :=
  let orderedCandidates := [some locale.value, (splitOnce locale.value '-').map Prod.fst,
    c.fallbackLocale, c.fallbackLocale.bind fun value => (splitOnce value '-').map Prod.fst]
  orderedCandidates.reduceOption.foldl (pushLocaleCandidate (F := F)) []

def renderMessage (c : FluentCatalog F) (messageId : String) (args : Option F.FluentArgs)
    (localeKey : String) : Option String := do
  let bundle ← c.bundles[localeKey]?
  let message ← F.getMessage bundle messageId
  let pattern ← F.messageValue message
  let (rendered, errors) := F.formatPattern bundle pattern args
  if errors.isEmpty then some rendered else none

def renderFromBundle (c : FluentCatalog F) (reason : DenialReason) (localeKey : String) :
    Option String :=
  c.renderMessage reason.code.value (some (fluentArgs F reason)) localeKey

def tryRenderHidden (c : FluentCatalog F) (locale : Locale) : Option String :=
  (c.localeCandidates locale).findSome? (c.renderMessage c.hiddenMessageId none)

def renderHidden (c : FluentCatalog F) (locale : Locale) : String :=
  (c.tryRenderHidden locale).getD c.hiddenFallback

/-- Renders only when a matching message exists and resolves without formatting errors. -/
def tryRenderReason (c : FluentCatalog F) (reason : DenialReason) (locale : Locale) : Option String :=
  if reason.shape = .hidden then c.tryRenderHidden locale
  else (c.localeCandidates locale).findSome? (c.renderFromBundle reason)

/-- Renders, falling back to the reason code or to the generic hidden message. -/
def renderReason (c : FluentCatalog F) (reason : DenialReason) (locale : Locale) : String :=
  if reason.shape = .hidden then c.renderHidden locale
  else (c.tryRenderReason reason locale).getD reason.code.value

end FluentCatalog

/-! ## Histories of a catalog -/

/-- A call that may change a catalog. -/
inductive CatalogUpdate where
  | setFallbackLocale (locale : String)
  | setHiddenMessage (messageId fallback : String)
  | addResource (locale source : String)

namespace FluentCatalog

def apply (c : FluentCatalog F) : CatalogUpdate → Except (FluentCatalogError F) Unit × FluentCatalog F
  | .setFallbackLocale locale => c.setFallbackLocale locale
  | .setHiddenMessage messageId fallback => c.setHiddenMessage messageId fallback
  | .addResource locale source => c.addResource locale source

/-- The catalog after calls that succeeded or not. -/
def applyAll (c : FluentCatalog F) (updates : List CatalogUpdate) : FluentCatalog F :=
  updates.foldl (fun c update => (c.apply update).2) c

theorem applyAll_append (c : FluentCatalog F) (first rest : List CatalogUpdate) :
    c.applyAll (first ++ rest) = (c.applyAll first).applyAll rest := List.foldl_append

end FluentCatalog

/-! ## A small Fluent -/

namespace Sample

/-- The ids that occur among `seen` or earlier in the list. -/
def repeated (seen : List String) : List String → List String
  | [] => []
  | id :: ids => if id ∈ seen then id :: repeated seen ids else repeated (id :: seen) ids

def plainLanguage : String → Except Unit String
  | "en" => .ok "en"
  | "en-US" | "en-us" => .ok "en-US"
  | _ => .error ()

/-- A message `id = text`. -/
def plainMessage (line : List Char) : Except (List String) (String × String) :=
  match splitOnce (String.ofList line) '=' with
  | none => .error ["expected ="]
  | some (id, text) => .ok (String.ofList (id.toList.takeWhile (· ≠ ' ')),
      String.ofList (text.toList.dropWhile (· = ' ')))

/-- Some locales, and messages of one line without placeables. -/
def plainFluent : FluentCrates where
  LanguageIdentifier := String
  LanguageIdentifierError := Unit
  ParserError := String
  FluentResource := List (String × String)
  FluentBundle := List (String × String)
  FluentMessage := String
  Pattern := String
  FluentArgs := List (String × String)
  FluentValue := String
  FluentError := String
  parseLanguage := plainLanguage
  languageText := id
  parseResource source := (source.toList.splitOn '\n').mapM plainMessage
  parserErrorText := id
  newBundle _ := []
  addResource bundle resource :=
    (match repeated (bundle.map Prod.fst) (resource.map Prod.fst) with
      | [] => .ok ()
      | ids => .error (ids.map fun id => "Attempt to override an existing message: " ++ id),
      bundle ++ resource)
  getMessage bundle id := bundle.lookup id
  messageValue := some
  formatPattern _ pattern _ := (pattern, [])
  fluentErrorText := id
  argsWithCapacity _ := []
  setArg args key value := args ++ [(key, value)]
  stringValue := id
  intValue n := toString n.toInt
  floatValue := id
  jsonText _ := ""

def readDenied : ReasonCode := ⟨"read-denied", by decide⟩

def american : Locale := ⟨"en-US", by decide⟩

def deniedMessage : CatalogUpdate := .addResource "en-US" "read-denied = Denied"

end Sample

end Gatekeep
