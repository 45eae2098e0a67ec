import FastGeoApi.OpenApi.Augment

/-!
# Which operations are declared protected

An operation is declared protected when it names the security scheme and announces a 401 response.
`augment_security` sees to it for `get`, `post`, `options` and `delete`; operations of the other
methods stay as they were, and so does a whole document whose keys all contain `openapi`.
-/

namespace FastGeoApi

/-! ## Paths of the result -/

theorem get?_securedPaths {name key : String} {paths : Dict PathItem} {item : PathItem} :
    (securedPaths name paths).get? key = some item ↔
      Str.isIn "openapi" key = false ∧
        ∃ value, paths.get? key = some value ∧ securePathItem name value = item := by
  rw [securedPaths, Dict.get?_collect, Option.bind_eq_some_iff]
  by_cases hkey : Str.isIn "openapi" key
  · simp [hkey]
  · simp [hkey]

theorem get?_securedPaths_of {name key : String} {paths : Dict PathItem} {value : PathItem}
    (hkey : Str.isIn "openapi" key = false) (h : paths.get? key = some value) :
    (securedPaths name paths).get? key = some (securePathItem name value) :=
  get?_securedPaths.mpr ⟨hkey, value, h, rfl⟩

theorem securedPaths_isEmpty {name : String} {paths : Dict PathItem} :
    (securedPaths name paths).isEmpty = true ↔
      ∀ key value, paths.get? key = some value → Str.isIn "openapi" key = true := by
  rw [Dict.isEmpty_iff]
  refine ⟨fun h key value hvalue => ?_, fun h key => ?_⟩
  · by_contra hkey
    have hsome : (securedPaths name paths).get? key = some (securePathItem name value) :=
      get?_securedPaths_of (Bool.eq_false_iff.mpr hkey) hvalue
    rw [h key] at hsome
    cases hsome
  · rw [Option.eq_none_iff_forall_ne_some]
    intro item hitem
    obtain ⟨hkey, value, hvalue, _⟩ := get?_securedPaths.mp hitem
    rw [h key value hvalue] at hkey
    cases hkey

theorem lookup_setItem_other {items : List (PyKey × PyVal)} {key other : PyKey} {value : PyVal}
    (h : other ≠ key) : (setItem items key value).lookup other = items.lookup other := by
  rw [lookup_setItem, if_neg h]

/-- Only the components of a document are corrected. -/
theorem fixQueryablesResponseSchema_lookup {doc doc' : List (PyKey × PyVal)} {key : PyKey}
    (h : fixQueryablesResponseSchema doc = .ok doc') (hkey : key ≠ .str "components") :
    doc'.lookup key = doc.lookup key := by
  rw [fixQueryablesResponseSchema] at h
  obtain ⟨schemas, _, h⟩ := except_bind_ok.mp h
  obtain ⟨found, _, h⟩ := except_bind_ok.mp h
  cases found with
  | false => rw [← Except.ok.inj h]
  | true =>
    simp only [if_true] at h
    split at h
    · rw [← Except.ok.inj h, lookup_setItem_other hkey]
    · cases h

section
variable {p : Pydantic} {cfg : Configuration} {doc : String}
  {securitySchemes : List SecurityScheme} {openapi result : OpenAPI}

theorem augmentSecurity_eq_ok :
    augmentSecurity p cfg doc securitySchemes = .ok result ↔
      ∃ openapi, p.validateJson doc = .ok openapi ∧
      ∃ components, updateComponents ((PyVal.get (p.dump openapi) "components").getD .none)
        (securitySchemesOf cfg securitySchemes) = .ok components ∧
      ∃ content, fixQueryablesResponseSchema
        (setItem (p.dump openapi) (.str "components") components) = .ok content ∧
      p.validate content (if (securedPaths (schemeName cfg) openapi.paths).isEmpty then none
        else some (securedPaths (schemeName cfg) openapi.paths)) = .ok result := by
  simp only [augmentSecurity, except_bind_ok, ← apply_ite (p.validate _)]

/-- The paths of the result: the secured ones, or all paths unchanged when there are none. -/
theorem augmentSecurity_paths (hp : p.Lawful) (hdoc : p.validateJson doc = .ok openapi)
    (h : augmentSecurity p cfg doc securitySchemes = .ok result) :
    result.paths =
      if (securedPaths (schemeName cfg) openapi.paths).isEmpty then openapi.paths
      else securedPaths (schemeName cfg) openapi.paths := by
  obtain ⟨openapi', hdoc', components, _, content, hcontent, h⟩ := augmentSecurity_eq_ok.mp h
  obtain rfl : openapi' = openapi := Except.ok.inj (hdoc'.symm.trans hdoc)
  split at h
  · rename_i hempty
    rw [if_pos hempty]
    refine hp.readsBack ?_ h
    rw [PyVal.get, fixQueryablesResponseSchema_lookup hcontent (by decide),
      lookup_setItem_other (by decide), ← PyVal.get]
  · rename_i hsome
    rw [if_neg hsome]
    exact hp.keepsInstances h

end

/-! ## Protected operations -/

structure Operation.Declared (name : String) (op : Operation) : Prop where
  requirement : ∃ requirements, op.security = some requirements ∧
    ∃ requirement ∈ requirements, (requirement.get? name).isSome
  unauthorized : (op.responses.get? "401").isSome

/-- Every operation is declared protected, those of the OpenAPI endpoint apart. -/
def Protected (name : String) (paths : Dict PathItem) : Prop :=
  ∀ key item, paths.get? key = some item → key ≠ "/openapi" →
    ∀ m op, item.operation m = some op → op.Declared name

/-- The methods that `augment_security` has a branch for. -/
def Method.Handled : Method → Prop
  | .get | .post | .options | .delete => True
  | _ => False

/-- The operation is declared protected once its path item is secured. -/
def Securable (name : String) (m : Method) (op : Operation) : Prop :=
  (m.Handled → op.responses.isEmpty = false) ∧ (¬m.Handled → op.Declared name)

theorem get?_update_unauthorized {responses : Dict ResponseOrReference} :
    ((responses.update unauthorized).get? "401").isSome = true := by
  rw [unauthorized, Dict.update_single, Dict.get?_set, if_pos rfl, Option.isSome_some]

/-- The branch of a method does its work on operations that have a response. -/
theorem secureOperation_declared {name : String} {updates : List (Dict ResponseOrReference)}
    {op : Operation}
    (hupdates : ∀ responses : Dict ResponseOrReference,
      ((updates.foldl .update responses).get? "401").isSome = true) :
    (secureOperation name updates op).Declared name ↔ op.responses.isEmpty = false := by
  cases hempty : op.responses.isEmpty with
  | true =>
    refine ⟨fun h => ?_, (nomatch ·)⟩
    have h401 := h.unauthorized
    rw [secureOperation, hempty, if_pos rfl, Dict.isEmpty_iff.mp hempty] at h401
    cases h401
  | false =>
    refine ⟨fun _ => rfl, fun _ => ⟨⟨_, rfl, _, List.mem_singleton_self _, ?_⟩, ?_⟩⟩
    · rw [Dict.get?_single, Option.isSome_some]
    · rw [secureOperation, hempty]
      exact hupdates op.responses

theorem securePathItem_declared {name : String} {value : PathItem} {m : Method} :
    (∀ op, (securePathItem name value).operation m = some op → op.Declared name) ↔
      ∀ op, value.operation m = some op → Securable name m op := by
  have hunauthorized (responses : Dict ResponseOrReference) :
      (([unauthorized].foldl .update responses).get? "401").isSome = true :=
    get?_update_unauthorized
  have hnotFound (responses : Dict ResponseOrReference) :
      (([unauthorized, notFound].foldl .update responses).get? "401").isSome = true := by
    rw [List.foldl_cons, List.foldl_cons, List.foldl_nil]
    rw [notFound, Dict.update_single, Dict.get?_set, if_neg (by decide)]
    exact get?_update_unauthorized
  cases m <;>
    simp [securePathItem, PathItem.operation, Securable, Method.Handled,
      secureOperation_declared hunauthorized, secureOperation_declared hnotFound]

/-- What a document must have for every operation to be declared protected in the result: where a
path is secured, a response on every operation of a handled method and the declaration itself on
every other operation; and all declarations, where no path is. -/
structure SecurablePaths (name : String) (paths : Dict PathItem) : Prop where
  secured : ∀ key item, paths.get? key = some item → Str.isIn "openapi" key = false →
    ∀ m op, item.operation m = some op → Securable name m op
  unsecured : (∀ key item, paths.get? key = some item → Str.isIn "openapi" key = true) →
    Protected name paths

theorem protected_securedPaths {name : String} {paths : Dict PathItem} :
    Protected name (securedPaths name paths) ↔
      ∀ key item, paths.get? key = some item → Str.isIn "openapi" key = false →
        ∀ m op, item.operation m = some op → Securable name m op := by
  refine ⟨fun h key value hvalue hkey m => ?_, fun h key item hitem _ m => ?_⟩
  · have hne : key ≠ "/openapi" := by
      rintro rfl
      revert hkey
      decide
    exact securePathItem_declared.mp (h key _ (get?_securedPaths_of hkey hvalue) hne m)
  · obtain ⟨hkey, value, hvalue, rfl⟩ := get?_securedPaths.mp hitem
    exact securePathItem_declared.mpr (h key value hvalue hkey m)

theorem protected_iff_securable {p : Pydantic} {cfg : Configuration} {doc : String}
    {securitySchemes : List SecurityScheme} {openapi result : OpenAPI} (hp : p.Lawful)
    (hdoc : p.validateJson doc = .ok openapi)
    (h : augmentSecurity p cfg doc securitySchemes = .ok result) :
    Protected (schemeName cfg) result.paths ↔ SecurablePaths (schemeName cfg) openapi.paths := by
  rw [augmentSecurity_paths hp hdoc h]
  split
  · rename_i hempty
    have hall := securedPaths_isEmpty.mp hempty
    refine ⟨fun hprotected => ⟨fun key item hitem hkey => ?_, fun _ => hprotected⟩,
      fun hpaths => hpaths.unsecured hall⟩
    rw [hall key item hitem] at hkey
    cases hkey
  · rename_i hsome
    rw [protected_securedPaths]
    refine ⟨fun hsecured => ⟨hsecured, fun hall => ?_⟩, fun hpaths => hpaths.secured⟩
    exact absurd (securedPaths_isEmpty.mpr hall) hsome

/-! ## Dumping -/

def dumpResponse : ResponseOrReference → PyVal
  | .response description fields => .dict ((.str "description", .str description) :: fields)
  | .reference ref fields => .dict ((.str "$ref", .str ref) :: fields)

def dumpRequirement (requirement : SecurityRequirement) : PyVal :=
  .dict (requirement.items.map fun kv => (.str kv.1, .list (kv.2.map .str)))

def dumpOperation (op : Operation) : PyVal :=
  .dict ([(.str "responses", .dict (op.responses.items.map fun kv =>
      (.str kv.1, dumpResponse kv.2)))] ++ op.fields ++
    (op.security.map fun requirements =>
      (PyKey.str "security", PyVal.list (requirements.map dumpRequirement))).toList)

def dumpPathItem (item : PathItem) : PyVal :=
  .dict ([("get", item.get), ("put", item.put), ("post", item.post), ("delete", item.delete),
    ("options", item.options), ("head", item.head), ("patch", item.patch),
    ("trace", item.trace)].filterMap (fun (field, op) =>
      op.map fun op => (PyKey.str field, dumpOperation op)) ++ item.fields)

/-- The paths come before the components. -/
def insertPaths (paths : PyVal) : List (PyKey × PyVal) → List (PyKey × PyVal)
  | [] => [(.str "paths", paths)]
  | (key, v) :: items =>
    if key = .str "components" then (.str "paths", paths) :: (key, v) :: items
    else (key, v) :: insertPaths paths items

/-- `openapi.model_dump(by_alias=True, exclude_none=True)`, for models whose other fields are given
in their order. -/
def dumpModel (openapi : OpenAPI) : List (PyKey × PyVal) :=
  insertPaths (.dict (openapi.paths.items.map fun kv => (.str kv.1, dumpPathItem kv.2)))
    openapi.fields

mutual
/-- `json.dumps(v, indent=2)` for strings that need no escape, booleans, lists and dicts. -/
def indented (margin : String) : PyVal → String
  | .str s => "\"" ++ s ++ "\""
  | .bool b => if b then "true" else "false"
  | .list [] => "[]"
  | .list xs =>
    "[\n" ++ ",\n".intercalate (indentedList (margin ++ "  ") xs) ++ "\n" ++ margin ++ "]"
  | .dict [] => "\x7b\x7d"
  | .dict items =>
    "\x7b\n" ++ ",\n".intercalate (indentedItems (margin ++ "  ") items) ++ "\n" ++ margin ++ "\x7d"
  | _ => "null"

def indentedList (margin : String) : List PyVal → List String
  | [] => []
  | x :: xs => (margin ++ indented margin x) :: indentedList margin xs

def indentedItems (margin : String) : List (PyKey × PyVal) → List String
  | (.str key, x) :: items =>
    (margin ++ "\"" ++ key ++ "\": " ++ indented margin x) :: indentedItems margin items
  | _ => []
end

/-- `openapi.model_dump_json(by_alias=True, exclude_none=True, indent=2)`. -/
def dumpModelJson (openapi : OpenAPI) : String := indented "" (.dict (dumpModel openapi))

/-! ## A collection that can be written to -/

def lakesHead : String := "\x7b\"openapi\": \"3.0.2\", "

def lakesTail : String :=
  "\"info\": \x7b\"title\": \"lakes\", \"version\": \"1\"\x7d, " ++
  "\"paths\": \x7b\"/collections/lakes/items/\x7bfeatureId\x7d\": " ++
  "\x7b\"put\": \x7b\"responses\": \x7b\"204\": \x7b\"description\": \"Successful update\"\x7d\x7d\x7d\x7d\x7d, " ++
  "\"components\": \x7b\"schemas\": \x7b\x7d\x7d\x7d"

/-- `{"openapi": "3.0.2", "info": {..}, "paths": {"/collections/lakes/items/{featureId}": {"put":
{"responses": {"204": {"description": "Successful update"}}}}}, "components": {"schemas": {}}}`. -/
def lakesText : String := lakesHead ++ lakesTail

def lakesPut : Operation where
  security := none
  responses := .single "204" (.response "Successful update" [])
  fields := [(.str "deprecated", .bool false)]

def lakesFields : List (PyKey × PyVal) :=
  [(.str "openapi", .str "3.0.2"),
    (.str "info", .dict [(.str "title", .str "lakes"), (.str "version", .str "1")]),
    (.str "servers", .list [.dict [(.str "url", .str "/")]])]

def lakesOpenAPI : OpenAPI where
  paths := .single "/collections/lakes/items/\x7bfeatureId\x7d" { put := some lakesPut }
  fields := lakesFields ++ [(.str "components", .dict [(.str "schemas", .dict [])])]

/-- `openapi_pydantic` as it behaves on `lakesText`, and rejecting every other text. -/
def lakesPydantic : Pydantic where
  validateJson doc :=
    if doc = lakesText then .ok lakesOpenAPI else .error ⟨.validationError, "OpenAPI"⟩
  dump := dumpModel
  validate content paths :=
    match paths with
    | some paths => .ok ⟨paths, content.filter (·.1 ≠ .str "paths")⟩
    | none => .error ⟨.validationError, "OpenAPI"⟩
  dumpJson := dumpModelJson

theorem lakesPydantic_lawful : lakesPydantic.Lawful where
  keepsInstances h := (Except.ok.inj h) ▸ rfl
  readsBack _ h := nomatch h

def lakesConfiguration : Configuration where
  fastgeoapiContext := "/geoapi"
  pygeoapiSecurityScheme := some "bearer"

def bearerScheme : SecurityScheme where
  type := "http"
  dumped := .dict [(.str "type", .str "http"), (.str "scheme", .str "bearer")]

theorem lakes_parsed : lakesPydantic.validateJson lakesText = .ok lakesOpenAPI := by
  simp only [lakesPydantic, if_true]

theorem lakes_augmented :
    ∃ result,
      augmentSecurity lakesPydantic lakesConfiguration lakesText [bearerScheme] = .ok result := by
  simp only [augmentSecurity, lakes_parsed]
  exact ⟨_, rfl⟩

theorem lakes_put_not_securable : ¬Securable name .put lakesPut := by
  intro h
  obtain ⟨requirements, hrequirements, _⟩ := (h.2 (fun h => h)).requirement
  cases hrequirements

theorem lakesSpec_protected_iff :
    ∃ result,
      augmentSecurity lakesPydantic lakesConfiguration lakesText [bearerScheme] = .ok result ∧
      (Protected (schemeName lakesConfiguration) result.paths ↔
        SecurablePaths (schemeName lakesConfiguration) lakesOpenAPI.paths) := by
  obtain ⟨result, hresult⟩ := lakes_augmented
  exact ⟨result, hresult, protected_iff_securable lakesPydantic_lawful lakes_parsed hresult⟩

/-- The update operation is served as a public one. -/
theorem lakesSpec_not_protected :
    ∃ result,
      augmentSecurity lakesPydantic lakesConfiguration lakesText [bearerScheme] = .ok result ∧
      ¬Protected (schemeName lakesConfiguration) result.paths := by
  obtain ⟨result, hresult⟩ := lakes_augmented
  refine ⟨result, hresult, fun hprotected => ?_⟩
  rw [augmentSecurity_paths lakesPydantic_lawful lakes_parsed hresult, if_neg (by decide)]
    at hprotected
  have hsecurable := protected_securedPaths.mp hprotected _ _ Dict.get?_single (by decide) .put
  exact lakes_put_not_securable (hsecurable lakesPut rfl)

end FastGeoApi
