import FastGeoApi.OpenApi.Security

/-!
# Which paths are left in the document

`augment_security` collects the paths that it secures and drops the others. It means to drop the
OpenAPI endpoint, but looks for its name anywhere in a path.
-/

namespace FastGeoApi

/-- No path is lost but the one of the OpenAPI endpoint. -/
def KeepsEndpoints (paths result : Dict PathItem) : Prop :=
  ∀ key, (paths.get? key).isSome = true → key ≠ "/openapi" → (result.get? key).isSome = true

def NamesOpenapi (key : String) : Prop := Str.isIn "openapi" key = true

instance : Decidable (NamesOpenapi key) := inferInstanceAs (Decidable (_ = true))

theorem not_namesOpenapi {key : String} (h : Str.isIn "openapi" key = false) :
    ¬NamesOpenapi key :=
  Bool.eq_false_iff.mp h

theorem get?_securedPaths_of_not {name key : String} {paths : Dict PathItem} {value : PathItem}
    (hkey : ¬NamesOpenapi key) (h : paths.get? key = some value) :
    (securedPaths name paths).get? key = some (securePathItem name value) :=
  get?_securedPaths_of (Bool.eq_false_iff.mpr hkey) h

theorem isSome_securedPaths {name key : String} {paths : Dict PathItem} :
    ((securedPaths name paths).get? key).isSome = true ↔
      ¬NamesOpenapi key ∧ (paths.get? key).isSome = true := by
  rw [Option.isSome_iff_exists, Option.isSome_iff_exists, NamesOpenapi, Bool.not_eq_true]
  refine ⟨fun ⟨item, hitem⟩ => ?_, fun ⟨hkey, item, hitem⟩ => ?_⟩
  · obtain ⟨hkey, value, hvalue, _⟩ := get?_securedPaths.mp hitem
    exact ⟨hkey, value, hvalue⟩
  · exact ⟨_, get?_securedPaths.mpr ⟨hkey, item, hitem, rfl⟩⟩

theorem securedPaths_isEmpty_iff {name : String} {paths : Dict PathItem} :
    (securedPaths name paths).isEmpty = true ↔
      ∀ key, (paths.get? key).isSome = true → NamesOpenapi key := by
  rw [securedPaths_isEmpty]
  refine forall_congr' fun key => ⟨fun hkey hsome => ?_, fun hkey value hvalue => hkey ?_⟩
  · obtain ⟨value, hvalue⟩ := Option.isSome_iff_exists.mp hsome
    exact hkey value hvalue
  · rw [hvalue, Option.isSome_some]

/-- Every path is kept exactly when none but the OpenAPI endpoint has the name in it, or all
have. -/
theorem keepsEndpoints_iff {p : Pydantic} {cfg : Configuration} {doc : String}
    {securitySchemes : List SecurityScheme} {openapi result : OpenAPI} (hp : p.Lawful)
    (hdoc : p.validateJson doc = .ok openapi)
    (h : augmentSecurity p cfg doc securitySchemes = .ok result) :
    KeepsEndpoints openapi.paths result.paths ↔
      (∀ key, (openapi.paths.get? key).isSome = true → key ≠ "/openapi" → ¬NamesOpenapi key) ∨
        ∀ key, (openapi.paths.get? key).isSome = true → NamesOpenapi key := by
  rw [augmentSecurity_paths hp hdoc h, ← securedPaths_isEmpty_iff]
  split
  · rename_i hempty
    exact iff_of_true (fun _ hkey _ => hkey) (.inr hempty)
  · rename_i hsome
    rw [or_iff_left hsome]
    refine forall_congr' fun key => forall_congr' fun hkey => forall_congr' fun _ => ?_
    rw [isSome_securedPaths, and_iff_left hkey]

/-! ## A collection with the name in it -/

def tilesText : String :=
  "\x7b\"openapi\": \"3.0.2\", \"info\": \x7b\"title\": \"tiles\", \"version\": \"1\"\x7d, " ++
  "\"paths\": \x7b\"/collections/lakes\": \x7b\x7d, " ++
  "\"/collections/openapi-tiles\": \x7b\x7d\x7d, " ++
  "\"components\": \x7b\"schemas\": \x7b\x7d\x7d\x7d"

def tilesOpenAPI : OpenAPI where
  paths := (Dict.single "/collections/lakes" {}).set "/collections/openapi-tiles" {}
  fields := [(.str "openapi", .str "3.0.2"),
    (.str "info", .dict [(.str "title", .str "tiles"), (.str "version", .str "1")]),
    (.str "servers", .list [.dict [(.str "url", .str "/")]]),
    (.str "components", .dict [(.str "schemas", .dict [])])]

/-- `openapi_pydantic` as it behaves on `tilesText`, and rejecting every other text. -/
def tilesPydantic : Pydantic :=
  { lakesPydantic with
    validateJson := fun doc =>
      if doc = tilesText then .ok tilesOpenAPI else .error ⟨.validationError, "OpenAPI"⟩ }

theorem tilesPydantic_lawful : tilesPydantic.Lawful where
  keepsInstances h := (Except.ok.inj h) ▸ rfl
  readsBack _ h := nomatch h

theorem tiles_parsed : tilesPydantic.validateJson tilesText = .ok tilesOpenAPI := by
  simp only [tilesPydantic, if_true]

theorem tiles_augmented :
    ∃ result,
      augmentSecurity tilesPydantic lakesConfiguration tilesText [bearerScheme] = .ok result := by
  simp only [augmentSecurity, tiles_parsed]
  exact ⟨_, rfl⟩

theorem tilesSpec_keepsEndpoints_iff :
    ∃ result,
      augmentSecurity tilesPydantic lakesConfiguration tilesText [bearerScheme] = .ok result ∧
      (KeepsEndpoints tilesOpenAPI.paths result.paths ↔
        (∀ key, (tilesOpenAPI.paths.get? key).isSome = true → key ≠ "/openapi" →
            ¬NamesOpenapi key) ∨
          ∀ key, (tilesOpenAPI.paths.get? key).isSome = true → NamesOpenapi key) := by
  obtain ⟨result, hresult⟩ := tiles_augmented
  exact ⟨result, hresult, keepsEndpoints_iff tilesPydantic_lawful tiles_parsed hresult⟩

/-- The collection is not in the document that is served. -/
theorem tilesSpec_not_keepsEndpoints :
    ∃ result,
      augmentSecurity tilesPydantic lakesConfiguration tilesText [bearerScheme] = .ok result ∧
      result.paths.get? "/collections/openapi-tiles" = none ∧
      ¬KeepsEndpoints tilesOpenAPI.paths result.paths := by
  obtain ⟨result, hresult⟩ := tiles_augmented
  have hpaths := augmentSecurity_paths tilesPydantic_lawful tiles_parsed hresult
  rw [if_neg (by decide)] at hpaths
  have hlost : result.paths.get? "/collections/openapi-tiles" = none := by
    rw [hpaths]
    rfl
  refine ⟨result, hresult, hlost, fun hkeeps => ?_⟩
  have hkept := hkeeps "/collections/openapi-tiles" rfl (by decide)
  rw [hlost] at hkept
  cases hkept

end FastGeoApi
