import FastGeoApi.OpenApi.Security
import FastGeoApi.Startup.OpenapiFile

/-!
# The `openapi` command

`openapi` of `app/cli.py`. The target is `PYGEOAPI_OPENAPI` with the suffix `.json`. It is opened
for writing, and so emptied, before the document is generated and logged, the authentication
settings are checked and the document is augmented. The console reads what is logged as markup, so
a text with a tag such as `[/docs]` in it raises.
-/

namespace FastGeoApi

/-- The settings that the command reads. -/
structure CommandSettings extends GeneratorSettings, Configuration where
  opaEnabled : Option Bool
  jwksEnabled : Option Bool
  apiKeyEnabled : Option Bool
  pygeoapiKeyGlobal : Option String
  oidcWellKnownEndpoint : Option String
  oauth2TokenEndpoint : Option String

/-- A call of the command: its settings, and what it meets. -/
structure OpenapiCommand where
  settings : CommandSettings
  pydantic : Pydantic
  /-- `SecurityScheme(**fields)` of `openapi_pydantic`. -/
  securityScheme : List (String × PyVal) → Except PyError SecurityScheme
  /-- `log_console.log(text)` and `err_console.log(text)`. -/
  log : String → Except PyError Unit
  errLog : String → Except PyError Unit
  /-- `f"{cfg}"` and `f"{pygeoapi_conf}"`. -/
  cfgText : String
  pygeoapiConf : String
  /-- What keeps the target from being opened. -/
  openError : Option PyError
  /-- `generate_openapi_document(pygeoapi_conf, output_format="json")` of pygeoapi. -/
  generated : Except PyError String
  /-- What ends the writing of the target, and how many bytes are on the disk by then. -/
  writeError : Option (Nat × PyError)

def pyOption : Option String → PyVal
  | some s => .str s
  | none => .none

def mutuallyExclusive : PyError :=
  ⟨.valueError, "OPA_ENABLED, JWKS_ENABLED and API_KEY_ENABLED are mutually exclusive"⟩

namespace OpenapiCommand

/-- `security_schemes`. -/
def securitySchemes (c : OpenapiCommand) : Except PyError (List SecurityScheme) :=
  let cfg := c.settings
  if cfg.opaEnabled = some true then
    if cfg.apiKeyEnabled = some true ∨ cfg.jwksEnabled = some true then .error mutuallyExclusive
    else do
      let scheme ← c.securityScheme [("type", .str "openIdConnect"),
        ("openIdConnectUrl", pyOption cfg.oidcWellKnownEndpoint)]
      return [scheme]
  else if cfg.jwksEnabled = some true then
    if cfg.apiKeyEnabled = some true ∨ cfg.opaEnabled = some true then .error mutuallyExclusive
    else do
      let flow := .dict [(.str "tokenUrl", pyOption cfg.oauth2TokenEndpoint),
        (.str "scopes", .dict [])]
      let oauth2 ← c.securityScheme [("type", .str "oauth2"), ("name", .str "pygeoapi"),
        ("flows", .dict [(.str "clientCredentials", flow)])]
      let bearer ← c.securityScheme [("type", .str "http"), ("name", .str "pygeoapi"),
        ("scheme", .str "bearer"), ("bearerFormat", .str "JWT")]
      return [oauth2, bearer]
  else if cfg.apiKeyEnabled = some true then
    if cfg.opaEnabled = some true then
      .error ⟨.valueError, "OPA_ENABLED and API_KEY_ENABLED are mutually exclusive"⟩
    else if cfg.pygeoapiKeyGlobal.getD "" = "" then
      .error ⟨.valueError, "pygeoapi API KEY is missing"⟩
    else do
      let scheme ← c.securityScheme [("type", .str "apiKey"), ("name", .str "X-API-KEY"),
        ("security_scheme_in", .str "header")]
      return [scheme]
  else .ok []

/-- `openapi_string`, for the generated document. -/
def openapiString (c : OpenapiCommand) (oapiContent : String) : Except PyError String := do
  let securitySchemes ← c.securitySchemes
  let enriched ← augmentSecurity c.pydantic c.settings.toConfiguration oapiContent securitySchemes
  return c.pydantic.dumpJson enriched

/-- What is raised after these lines are logged: an exception of the console comes first. -/
def raiseAfter (c : OpenapiCommand) (lines : List String) (e : PyError) : PyError :=
  match lines.forM c.errLog with
  | .ok _ => e
  | .error logError => logError

/-- What the `except` clauses make of an exception. `oapi_content` is bound when the document is
generated. -/
def translate (c : OpenapiCommand) (oapiContent : Option String) (e : PyError) : PyError :=
  let environment := "Runtime environment variables: \n" ++ c.cfgText
  if e.cls = .other "FileNotFoundError" then
    c.raiseAfter ["Please configure pygeoapi settings in .env properly"] e
  else if e.cls = .osError then c.raiseAfter [environment] ⟨.other "PygeoapiEnvError", ""⟩
  else if e.cls = .other "LocaleError" then
    match oapiContent with
    | some content =>
      c.raiseAfter ["Runtime language configuration: \n" ++ content]
        ⟨.other "PygeoapiLanguageError", ""⟩
    | none => ⟨.unboundLocalError, "cannot access local variable 'oapi_content'"⟩
  else if e.cls = .other "ProviderConnectionError" then
    c.raiseAfter [environment, "pygeoapi configuration: \n" ++ c.pygeoapiConf] e
  else e

/-- `openapi_string`, after the generated document is logged. -/
def logAndAugment (c : OpenapiCommand) (oapiContent : String) : Except PyError String := do
  c.log ("OpenAPI content: " ++ oapiContent)
  c.openapiString oapiContent

/-- The body of the `with` statement: what is on the disk at its end, and what it raises. -/
def fillFile (c : OpenapiCommand) : List UInt8 × Except PyError Unit :=
  match c.generated with
  | .error e => ([], .error (c.translate none e))
  | .ok oapiContent =>
    match c.logAndAugment oapiContent with
    | .error e => ([], .error (c.translate (some oapiContent) e))
    | .ok text =>
      let bytes := text.toUTF8.data.toList
      match c.writeError with
      | none => (bytes, .ok ())
      | some (flushed, e) => (bytes.take flushed, .error (c.translate (some oapiContent) e))

/-- `openapi`: what is at the target afterwards, and what it raises. -/
def run (c : OpenapiCommand) (file : OpenapiFile) : OpenapiFile × Except PyError Unit :=
  if c.settings.configured then
    match c.openError with
    | some e => (file, .error (c.translate none e))
    | none => (some c.fillFile.1, c.fillFile.2)
  else
    match c.errLog "pygeoapi variables are not configured" with
    | .error e => (file, .error (c.translate none e))
    | .ok _ =>
      (file, .error ⟨.other "PygeoapiEnvError",
        "PYGEOAPI_CONFIG and PYGEOAPI_OPENAPI are not set"⟩)

/-- A command that fails leaves the target as it was. -/
def KeepsFile (c : OpenapiCommand) (file : OpenapiFile) : Prop :=
  ∀ e, (c.run file).2 = .error e → (c.run file).1 = file

/-- The text is what is at the target afterwards. -/
def Writes (c : OpenapiCommand) (text : String) (file : OpenapiFile) : Prop :=
  (c.run file).1 = some text.toUTF8.data.toList

/-- The document is generated and can be logged, the settings fit and the augmentation accepts the
document. -/
def Produces (c : OpenapiCommand) (text : String) : Prop :=
  ∃ oapiContent, c.generated = .ok oapiContent ∧
    c.log ("OpenAPI content: " ++ oapiContent) = .ok () ∧ c.openapiString oapiContent = .ok text

/-- The command does not come to open the target; or it makes the whole text, and where the writing
fails, the bytes that were written are the ones that were there; or the target is an empty file. -/
inductive LosesNothing (c : OpenapiCommand) (file : OpenapiFile) : Prop
  | unconfigured (h : c.settings.configured = false)
  | unopened (h : c.openError ≠ none)
  | produced {text : String} (h : c.Produces text)
      (hwrite : ∀ flushed e, c.writeError = some (flushed, e) →
        file = some (text.toUTF8.data.toList.take flushed))
  | empty (h : ∀ text, ¬c.Produces text) (hfile : file = some [])

/-! ## The exits of the command -/

section
variable {c : OpenapiCommand} {file : OpenapiFile}

theorem logAndAugment_eq_ok {oapiContent text : String} :
    c.logAndAugment oapiContent = .ok text ↔
      c.log ("OpenAPI content: " ++ oapiContent) = .ok () ∧
        c.openapiString oapiContent = .ok text := by
  rw [logAndAugment, except_bind_ok]
  exact ⟨fun ⟨_, hlog, htext⟩ => ⟨hlog, htext⟩, fun ⟨hlog, htext⟩ => ⟨(), hlog, htext⟩⟩

theorem keepsFile_of_unconfigured (h : c.settings.configured = false) : c.KeepsFile file := by
  intro e _
  rw [run, if_neg (by rw [h]; exact Bool.false_ne_true)]
  split <;> rfl

theorem keepsFile_of_unopened (h : c.openError ≠ none) : c.KeepsFile file := by
  obtain ⟨e, he⟩ := Option.ne_none_iff_exists'.mp h
  intro _ _
  unfold run
  split
  · rw [he]
  · split <;> rfl

/-- Once the target is open, what is filled in is what is there. -/
theorem run_of_opened (hcfg : c.settings.configured = true) (hopen : c.openError = none) :
    c.run file = (some c.fillFile.1, c.fillFile.2) := by
  rw [run, if_pos hcfg, hopen]

theorem keepsFile_of_opened (hcfg : c.settings.configured = true) (hopen : c.openError = none) :
    c.KeepsFile file ↔ ∀ e, c.fillFile.2 = .error e → some c.fillFile.1 = file := by
  rw [KeepsFile, run_of_opened hcfg hopen]

theorem fillFile_of_produces {text : String} (h : c.Produces text) :
    ∃ oapiContent, c.fillFile = match c.writeError with
      | none => (text.toUTF8.data.toList, .ok ())
      | some (flushed, e) =>
        (text.toUTF8.data.toList.take flushed, .error (c.translate (some oapiContent) e)) := by
  obtain ⟨oapiContent, hgenerated, hlog, hstring⟩ := h
  refine ⟨oapiContent, ?_⟩
  rw [fillFile, hgenerated]
  simp only [logAndAugment_eq_ok.mpr ⟨hlog, hstring⟩]

theorem keepsFile_of_produces (hcfg : c.settings.configured = true) (hopen : c.openError = none)
    {text : String} (h : c.Produces text) :
    c.KeepsFile file ↔ ∀ flushed e, c.writeError = some (flushed, e) →
      file = some (text.toUTF8.data.toList.take flushed) := by
  obtain ⟨oapiContent, hfill⟩ := fillFile_of_produces h
  rw [keepsFile_of_opened hcfg hopen, hfill]
  cases c.writeError with
  | none => exact iff_of_true nofun nofun
  | some failure =>
    obtain ⟨flushed, e⟩ := failure
    constructor
    · intro hkeeps flushed' e' heq
      cases heq
      exact (hkeeps _ rfl).symm
    · intro hflushed _ _
      exact (hflushed flushed e rfl).symm

/-- The generation, the log, the checks of the settings and the augmentation fail with an empty
file. -/
theorem fillFile_of_not_produces (h : ∀ text, ¬c.Produces text) :
    ∃ e, c.fillFile = ([], .error e) := by
  unfold fillFile
  cases hgenerated : c.generated with
  | error e => exact ⟨_, rfl⟩
  | ok oapiContent =>
    simp only
    cases hstring : c.logAndAugment oapiContent with
    | error e => exact ⟨_, rfl⟩
    | ok text => exact absurd ⟨oapiContent, hgenerated, logAndAugment_eq_ok.mp hstring⟩ (h text)

theorem keepsFile_of_not_produces (hcfg : c.settings.configured = true)
    (hopen : c.openError = none) (h : ∀ text, ¬c.Produces text) :
    c.KeepsFile file ↔ file = some [] := by
  obtain ⟨e, hfill⟩ := fillFile_of_not_produces h
  rw [keepsFile_of_opened hcfg hopen, hfill]
  exact ⟨fun hkeeps => (hkeeps e rfl).symm, fun hfile _ _ => hfile.symm⟩

/-- A command that succeeds has written the whole text. -/
theorem run_of_ok {oapiContent : String} (hgenerated : c.generated = .ok oapiContent)
    (h : (c.run file).2 = .ok ()) : ∃ text, c.openapiString oapiContent = .ok text ∧
      c.Writes text file := by
  unfold Writes
  by_cases hcfg : c.settings.configured = true
  · cases hopen : c.openError with
    | some e =>
      rw [run, if_pos hcfg, hopen] at h
      cases h
    | none =>
      rw [run_of_opened hcfg hopen] at h ⊢
      by_cases hproduces : ∃ text, c.Produces text
      · obtain ⟨text, htext⟩ := hproduces
        obtain ⟨_, hfill⟩ := fillFile_of_produces htext
        obtain ⟨content, hcontent, _, hstring⟩ := htext
        cases hgenerated.symm.trans hcontent
        refine ⟨text, hstring, ?_⟩
        rw [hfill] at h ⊢
        cases hwrite : c.writeError with
        | none => rfl
        | some failure =>
          rw [hwrite] at h
          cases h
      · obtain ⟨e, hfill⟩ := fillFile_of_not_produces fun text htext => hproduces ⟨text, htext⟩
        rw [hfill] at h
        cases h
  · rw [run, if_neg hcfg] at h
    split at h <;> cases h

end

/-- The previous file is kept through a failure exactly when there is nothing to lose. -/
theorem keepsFile_iff_losesNothing (c : OpenapiCommand) (file : OpenapiFile) :
    c.KeepsFile file ↔ c.LosesNothing file := by
  cases hcfg : c.settings.configured with
  | false => exact iff_of_true (keepsFile_of_unconfigured hcfg) (.unconfigured hcfg)
  | true =>
    by_cases hopen : c.openError = none
    · constructor
      · intro hkeeps
        by_cases hproduces : ∃ text, c.Produces text
        · obtain ⟨text, htext⟩ := hproduces
          exact .produced htext ((keepsFile_of_produces hcfg hopen htext).mp hkeeps)
        · have hnot : ∀ text, ¬c.Produces text := fun text htext => hproduces ⟨text, htext⟩
          exact .empty hnot ((keepsFile_of_not_produces hcfg hopen hnot).mp hkeeps)
      · intro hnothing
        cases hnothing with
        | unconfigured hcfg' =>
          rw [hcfg] at hcfg'
          cases hcfg'
        | unopened hopen' => exact absurd hopen hopen'
        | produced htext hwrite => exact (keepsFile_of_produces hcfg hopen htext).mpr hwrite
        | empty hnot hfile => exact (keepsFile_of_not_produces hcfg hopen hnot).mpr hfile
    · exact iff_of_true (keepsFile_of_unopened hopen) (.unopened hopen)

/-- OPA and JWKS are both enabled. -/
def conflictingCommand : OpenapiCommand where
  settings := {
    pygeoapiConfig := "pygeoapi-config.yml"
    pygeoapiOpenapi := "pygeoapi-openapi.yml"
    fastgeoapiContext := "/geoapi"
    pygeoapiSecurityScheme := some "bearer"
    opaEnabled := some true
    jwksEnabled := some true
    apiKeyEnabled := none
    pygeoapiKeyGlobal := none
    oidcWellKnownEndpoint := none
    oauth2TokenEndpoint := none }
  pydantic := lakesPydantic
  securityScheme _ := .ok bearerScheme
  log _ := .ok ()
  errLog _ := .ok ()
  cfgText := "OPA_ENABLED=True JWKS_ENABLED=True"
  pygeoapiConf := "/app/pygeoapi-config.yml"
  openError := none
  generated := .ok lakesText
  writeError := none

/-- The document that was there is lost. -/
theorem conflictingCommand_not_keepsFile :
    conflictingCommand.run (some [123, 125]) = (some [], .error mutuallyExclusive) ∧
      ¬conflictingCommand.KeepsFile (some [123, 125]) := by
  have hrun : conflictingCommand.run (some [123, 125]) = (some [], .error mutuallyExclusive) := rfl
  refine ⟨hrun, fun h => ?_⟩
  have hfile := h mutuallyExclusive (by rw [hrun])
  rw [hrun] at hfile
  cases hfile

end OpenapiCommand
end FastGeoApi
