import FastGeoApi.Python.Value
import Mathlib.Algebra.GroupWithZero.Nat

/-!
# The generated OpenAPI file

`ensure_openapi_file_exists` of `app/utils/openapi_generator.py`, one file operation after the
other, and what `/readyz` makes of the file. A start-up may end after any of the operations: it is
killed there. The file is created before the document is generated, so a start-up that ends in
between leaves a file that every later one takes for a generated document.
-/

namespace FastGeoApi

/-- What is on disk at `PYGEOAPI_OPENAPI`. -/
abbrev OpenapiFile := Option (List UInt8)

/-- The settings that `ensure_openapi_file_exists` looks at. -/
structure GeneratorSettings where
  pygeoapiConfig : String
  pygeoapiOpenapi : String

def GeneratorSettings.configured (cfg : GeneratorSettings) : Bool :=
  cfg.pygeoapiConfig ≠ "" && cfg.pygeoapiOpenapi ≠ ""

/-- Where a call of `ensure_openapi_file_exists` is. -/
inductive GeneratorState where
  | start
  /-- `exists()` has answered no. -/
  | missing
  /-- `write_text(data="")` is done. -/
  | created
  /-- `open(mode="w")` is done. -/
  | opened
  /-- The document is generated. The first bytes of its text have gone from the buffer of the open
  file to the disk, the rest has not. -/
  | writing (written rest : List UInt8)
  | returned
  | failed (e : PyError)

/-- A write at an offset; a gap before it is filled with zeros. -/
def writeAt (content : List UInt8) (offset : Nat) (bytes : List UInt8) : List UInt8 :=
  content.take offset ++ List.replicate (offset - content.length) 0 ++ bytes ++
    content.drop (offset + bytes.length)

/-- The next operation of `ensure_openapi_file_exists`, with what `generate_openapi_document` gives
and how many bytes go to the disk when some do. `none` when the call has come to an end. -/
def ensureStep (cfg : GeneratorSettings) (generated : Except PyError (List UInt8)) (flushed : Nat)
    (file : OpenapiFile) : GeneratorState → Option (OpenapiFile × GeneratorState)
  | .start =>
    if cfg.configured then
      match file with
      | none => some (none, .missing)
      | some content => some (some content, .returned)
    else
      some (file, .failed ⟨.other "PygeoapiEnvError",
        "PYGEOAPI_CONFIG and PYGEOAPI_OPENAPI are not set"⟩)
  | .missing => some (some [], .created)
  | .created => some (some [], .opened)
  | .opened =>
    match generated with
    | .ok text => some (file, .writing [] text)
    | .error e => some (file, .failed e)
  -- the file is closed when everything is written
  | .writing _ [] => some (file, .returned)
  | .writing written (byte :: rest) =>
    let bytes := (byte :: rest).take flushed
    some (some (writeAt (file.getD []) written.length bytes),
      .writing (written ++ bytes) ((byte :: rest).drop flushed))
  | .returned | .failed _ => none

/-- The operations of a call until it ends or is killed: it lives to make one for each number. -/
def ensureOperations (cfg : GeneratorSettings) (generated : Except PyError (List UInt8)) :
    List Nat → OpenapiFile → GeneratorState → OpenapiFile × GeneratorState
  | [], file, state => (file, state)
  | flushed :: operations, file, state =>
    match ensureStep cfg generated flushed file state with
    | none => (file, state)
    | some (file', state') => ensureOperations cfg generated operations file' state'

/-- A start-up of the application: what the generation gives, and the operations it lives to make,
each with the number of bytes that go to the disk in it. -/
structure StartUp where
  generated : Except PyError (List UInt8)
  operations : List Nat

/-- One start-up. -/
def startUp (cfg : GeneratorSettings) (u : StartUp) (file : OpenapiFile) :
    OpenapiFile × GeneratorState :=
  ensureOperations cfg u.generated u.operations file .start

/-- The file after start-ups from an empty directory. -/
def fileAfter (cfg : GeneratorSettings) (us : List StartUp) : OpenapiFile :=
  us.foldl (fun file u => (startUp cfg u file).1) none

/-- `readyz`: status and body. -/
def readyz (file : OpenapiFile) : Nat × PyVal :=
  match file with
  | none => (503, .dict [(.str "status", .str "not-ready"),
      (.str "reason", .str "pygeoapi OpenAPI document missing")])
  | some _ => (200, .dict [(.str "status", .str "ready")])

/-- Every file that the start-ups leave is a whole document: the one that the start-up generated
which made the file. -/
def WholeAfter (cfg : GeneratorSettings) (us : List StartUp) : Prop :=
  ∀ text, fileAfter cfg us = some text → ∃ us₁ u us₂, us = us₁ ++ u :: us₂ ∧
    fileAfter cfg us₁ = none ∧ fileAfter cfg (us₁ ++ [u]) = some text ∧ u.generated = .ok text

/-- A start-up ends before it creates the file, or it generates a document and lives until the whole
of it is on disk. -/
def StartUp.Uninterrupted (u : StartUp) : Prop :=
  u.operations.length ≤ 1 ∨
    ∃ text, u.generated = .ok text ∧ text.length ≤ (u.operations.drop 4).sum

section
variable {cfg : GeneratorSettings} {generated : Except PyError (List UInt8)} {u : StartUp}
  {us : List StartUp} {file : OpenapiFile}

/-! ## One start-up -/

theorem writeAt_end {content bytes : List UInt8} :
    writeAt content content.length bytes = content ++ bytes := by
  simp [writeAt]

theorem ensureOperations_writing {written rest : List UInt8} (operations : List Nat) :
    (ensureOperations cfg generated operations (some written) (.writing written rest)).1 =
      some (written ++ rest.take operations.sum) := by
  induction operations generalizing written rest with
  | nil => simp [ensureOperations]
  | cons flushed operations ih =>
    cases rest with
    | nil =>
      rw [List.take_nil, List.append_nil, ensureOperations, ensureStep]
      cases operations <;> rfl
    | cons byte rest =>
      rw [ensureOperations, ensureStep]
      simp only [Option.getD_some, writeAt_end]
      rw [ih, List.append_assoc, List.sum_cons, ← List.take_add]

/-- A file that is there stays as it is. -/
theorem startUp_present {content : List UInt8} :
    (startUp cfg u (some content)).1 = some content := by
  obtain ⟨generated, operations⟩ := u
  cases operations with
  | nil => rfl
  | cons flushed operations =>
    simp only [startUp, ensureOperations, ensureStep]
    cases cfg.configured with
    | true => cases operations <;> rfl
    | false => cases operations <;> rfl

theorem startUp_unconfigured (h : cfg.configured = false) : (startUp cfg u file).1 = file := by
  obtain ⟨generated, operations⟩ := u
  cases operations with
  | nil => rfl
  | cons flushed operations =>
    simp only [startUp, ensureOperations, ensureStep, h]
    cases operations <;> rfl

/-- The file that a start-up leaves where there was none. -/
theorem startUp_missing (h : cfg.configured = true) :
    (startUp cfg u none).1 =
      if u.operations.length ≤ 1 then none
      else match u.generated with
        | .ok text => some (text.take (u.operations.drop 4).sum)
        | .error _ => some [] := by
  obtain ⟨generated, operations⟩ := u
  match operations with
  | [] => rfl
  | [_] => simp [startUp, ensureOperations, ensureStep, h]
  | [_, _] | [_, _, _] => cases generated <;> simp [startUp, ensureOperations, ensureStep, h]
  | _ :: _ :: _ :: _ :: operations =>
    cases generated with
    | error e =>
      simp only [startUp, ensureOperations, ensureStep, h, if_true]
      cases operations <;> simp [ensureOperations, ensureStep]
    | ok text =>
      simp [startUp, ensureOperations, ensureStep, h, ensureOperations_writing]

theorem startUp_whole_iff (h : cfg.configured = true) :
    (∀ text, (startUp cfg u none).1 = some text → u.generated = .ok text) ↔ u.Uninterrupted := by
  rw [startUp_missing h, StartUp.Uninterrupted]
  by_cases hshort : u.operations.length ≤ 1
  · simp [hshort]
  · cases hgenerated : u.generated with
    | error e => simp [hshort]
    | ok text => simp [hshort, eq_comm]

/-! ## Many start-ups -/

theorem fileAfter_append {us' : List StartUp} :
    fileAfter cfg (us ++ us') =
      us'.foldl (fun file u => (startUp cfg u file).1) (fileAfter cfg us) :=
  List.foldl_append

theorem fileAfter_concat : fileAfter cfg (us ++ [u]) = (startUp cfg u (fileAfter cfg us)).1 :=
  fileAfter_append

/-- A file that is there stays as it is through further start-ups. -/
theorem fileAfter_keeps {us' : List StartUp} {content : List UInt8}
    (h : fileAfter cfg us = some content) : fileAfter cfg (us ++ us') = some content := by
  rw [fileAfter_append, h]
  induction us' with
  | nil => rfl
  | cons u us' ih => rw [List.foldl_cons, startUp_present, ih]

/-- A file comes from the start-up that found none and left it. -/
theorem exists_creator {text : List UInt8} (h : fileAfter cfg us = some text) :
    ∃ us₁ u us₂, us = us₁ ++ u :: us₂ ∧ fileAfter cfg us₁ = none ∧
      fileAfter cfg (us₁ ++ [u]) = some text := by
  induction us using List.reverseRecOn with
  | nil => cases h
  | append_singleton us u ih =>
    cases hus : fileAfter cfg us with
    | none => exact ⟨us, u, [], rfl, hus, h⟩
    | some content =>
      rw [fileAfter_keeps hus] at h
      cases h
      obtain ⟨us₁, v, us₂, rfl, hnone, hsome⟩ := ih hus
      exact ⟨us₁, v, us₂ ++ [u], by simp, hnone, hsome⟩

end

/-- The file is all or nothing through the start-ups just when each one that finds the settings and
no file is not interrupted while it makes the file. -/
theorem wholeAfter_iff_uninterrupted (cfg : GeneratorSettings) (us : List StartUp) :
    (∀ us', us' <+: us → WholeAfter cfg us') ↔
      ∀ us' u, us' ++ [u] <+: us → fileAfter cfg us' = none → cfg.configured = true →
        u.Uninterrupted := by
  constructor
  · intro h us' u hprefix hnone hcfg
    rw [← startUp_whole_iff hcfg]
    intro text htext
    have hfile : fileAfter cfg (us' ++ [u]) = some text := by rw [fileAfter_concat, hnone, htext]
    obtain ⟨us₁, v, us₂, heq, hnone₁, hsome, hgenerated⟩ := h _ hprefix text hfile
    -- the start-up that made the file is the last one: before it there was none
    rcases List.eq_nil_or_concat us₂ with rfl | ⟨us₃, v', rfl⟩
    · obtain ⟨rfl, hv⟩ := List.append_inj' heq rfl
      cases hv
      exact hgenerated
    · have hconcat : us' ++ [u] = (us₁ ++ [v] ++ us₃) ++ [v'] := by simpa using heq
      obtain ⟨rfl, _⟩ := List.append_inj' hconcat rfl
      rw [fileAfter_keeps hsome] at hnone
      cases hnone
  · intro h us' hprefix text htext
    obtain ⟨us₁, u, us₂, rfl, hnone, hsome⟩ := exists_creator htext
    refine ⟨us₁, u, us₂, rfl, hnone, hsome, ?_⟩
    rw [fileAfter_concat, hnone] at hsome
    cases hcfg : cfg.configured with
    | false =>
      rw [startUp_unconfigured hcfg] at hsome
      cases hsome
    | true =>
      have hcreator : us₁ ++ [u] <+: us := by
        refine List.IsPrefix.trans ⟨us₂, ?_⟩ hprefix
        simp
      exact (startUp_whole_iff hcfg).mpr (h us₁ u hcreator hnone hcfg) text hsome

/-- The settings of a deployment that is configured. -/
def pygeoapiSettings : GeneratorSettings where
  pygeoapiConfig := "pygeoapi-config.yml"
  pygeoapiOpenapi := "pygeoapi-openapi.yml"

/-- A start-up whose generation fails. -/
def failedStartUp : StartUp where
  generated := .error ⟨.other "FileNotFoundError", "pygeoapi-config.yml"⟩
  operations := [0, 0, 0, 0]

/-- A start-up that would generate a document, if it had to, and write it in two parts. -/
def laterStartUp : StartUp where
  generated := .ok [123, 125, 10]
  operations := [0, 0, 0, 0, 2, 1, 0]

/-- The start-up that fails leaves an empty file. The next one returns it as it is, and `/readyz`
reports it as ready. -/
theorem failedStartUp_not_wholeAfter :
    startUp pygeoapiSettings failedStartUp none =
        (some [], .failed ⟨.other "FileNotFoundError", "pygeoapi-config.yml"⟩) ∧
      startUp pygeoapiSettings laterStartUp (some []) = (some [], .returned) ∧
      readyz (fileAfter pygeoapiSettings [failedStartUp, laterStartUp]) =
        (200, .dict [(.str "status", .str "ready")]) ∧
      ¬WholeAfter pygeoapiSettings [failedStartUp] := by
  refine ⟨rfl, rfl, rfl, fun h => ?_⟩
  obtain ⟨us₁, u, us₂, heq, _, _, hgenerated⟩ := h [] rfl
  have hmem : u ∈ [failedStartUp] := by simp [heq]
  rw [List.mem_singleton.mp hmem] at hgenerated
  cases hgenerated

end FastGeoApi
