import FastGeoApi.OpenApi.Security
import FastGeoApi.Python.Path

/-!
# What a call does to the document

The paths of the result come from the objects that were parsed, and its other fields from their
dump. Where `openapi_pydantic` parses and dumps without loss (`Pydantic.Lossless`), a call returns
for every document with components, and `AugmentEffect` tells all that it changes.
-/

namespace FastGeoApi
open PyVal

/-- What the classes of `openapi_pydantic` describe. -/
structure ModelTypes where
  /-- Contents of a document as a model dumps them: no field is `None`, and no default is left
  out. -/
  content : List (PyKey × PyVal) → Prop
  /-- What a `SecurityScheme` dumps to. -/
  scheme : PyVal → Prop

/-- The fields of the model are those of the contents, its paths apart. -/
def HasFields (m : OpenAPI) (content : List (PyKey × PyVal)) : Prop :=
  ∀ (key : PyKey) path, key ≠ "paths" →
    (dict m.fields).look (.key key :: path) = (dict content).look (.key key :: path)

/-- Parsing and dumping without loss, up to fields that are `None`. -/
structure Pydantic.Lossless (p : Pydantic) (types : ModelTypes) : Prop where
  /-- A value that is an instance of its model already is taken as it is. -/
  keepsInstances : p.validate content (some paths) = .ok result → result.paths = paths
  /-- The paths of a parsed document are read back from its dump. -/
  readsBack : p.validateJson doc = .ok openapi →
    PyVal.get content "paths" = PyVal.get (p.dump openapi) "paths" →
    p.validate content none = .ok result → result.paths = openapi.paths
  /-- The other fields are dumped under their names. -/
  dumpsFields {key : PyKey} : key ≠ "paths" → (p.dump m).lookup key = m.fields.lookup key
  dumpsContent : p.validateJson doc = .ok openapi → types.content (p.dump openapi)
  /-- The components are a dict, and so are the schemas in them. -/
  components : types.content content → PyVal.get content "components" = some v →
    ∃ items, v = .dict items ∧
      ∀ u, PyVal.get items "schemas" = some u → ∃ schemas, u = .dict schemas
  /-- The security schemes are a field of the components. -/
  securitySchemes : types.content content → PyVal.get content "components" = some (.dict items) →
    (∀ kv ∈ schemes, (∃ name, kv.1 = .str name) ∧ types.scheme kv.2) →
    types.content (setItem content (.str "components")
      (.dict (setItem items (.str "securitySchemes") (.dict schemes))))
  /-- The schema for queryables is a `Schema`. -/
  queryables : types.content content → PyVal.get content "components" = some (.dict items) →
    PyVal.get items "schemas" = some (.dict schemas) →
    types.content (setItem content (.str "components")
      (.dict (setItem items (.str "schemas")
        (.dict (setItem schemas (.str "queryables") queryablesSchema)))))
  accepts : types.content content → ∃ result, p.validate content paths = .ok result
  /-- What a model dumps to is parsed to the same fields. -/
  keepsFields : types.content content → p.validate content paths = .ok result →
    HasFields result content

/-! ## The components -/

/-- The schemas after `fix_queryables_response_schema`. -/
def fixSchemas : PyVal → PyVal
  | .dict schemas =>
    if (PyVal.get schemas "queryables").isSome then
      .dict (setItem schemas (.str "queryables") queryablesSchema)
    else .dict schemas
  | schemas => schemas

/-- The security schemes are in components that are not empty, the schema for queryables is
corrected where there is one, and the rest is as it was. -/
structure EditedComponents (securitySchemes : PyVal) (items items' : List (PyKey × PyVal)) :
    Prop where
  isEmpty : items'.isEmpty = items.isEmpty
  securitySchemes : items.isEmpty = false →
    PyVal.get items' "securitySchemes" = some securitySchemes
  schemas : PyVal.get items' "schemas" = (PyVal.get items "schemas").map fixSchemas
  others : ∀ key : PyKey, key ≠ "securitySchemes" → key ≠ "schemas" →
    items'.lookup key = items.lookup key

theorem get_setItem_self {items : List (PyKey × PyVal)} {key : String} {value : PyVal} :
    PyVal.get (setItem items (.str key) value) key = some value := by
  rw [PyVal.get, lookup_setItem, if_pos rfl]

theorem isEmpty_setItem {items : List (PyKey × PyVal)} {key : PyKey} {value : PyVal} :
    (setItem items key value).isEmpty = false := by
  cases items with
  | nil => rfl
  | cons kv items =>
    rw [setItem]
    split <;> rfl

theorem isIn_dict {items : List (PyKey × PyVal)} {key : String} :
    (dict items).isIn key = .ok (PyVal.get items key).isSome := by
  rw [PyVal.isIn]
  congr 1
  induction items with
  | nil => rfl
  | cons kv items ih =>
    rw [List.any_cons, PyVal.get_cons, ih]
    by_cases hk : kv.1 = .str key
    · simp [hk]
    · simp [hk]

theorem getD_schemas {items : List (PyKey × PyVal)} {default : PyVal} :
    getMethod (.dict items) "schemas" default = .ok ((PyVal.get items "schemas").getD default) :=
  rfl

/-- `fix_queryables_response_schema` on a document with components. -/
theorem fixQueryablesResponseSchema_eq {content items : List (PyKey × PyVal)}
    (hcomponents : PyVal.get content "components" = some (.dict items))
    (hschemas : ∀ u, PyVal.get items "schemas" = some u → ∃ schemas, u = .dict schemas) :
    fixQueryablesResponseSchema content = .ok
      (match PyVal.get items "schemas" with
      | some (.dict schemas) =>
        if (PyVal.get schemas "queryables").isSome then
          setItem content (.str "components") (.dict (setItem items (.str "schemas")
            (.dict (setItem schemas (.str "queryables") queryablesSchema))))
        else content
      | _ => content) := by
  rw [fixQueryablesResponseSchema, hcomponents]
  simp only [Option.getD_some, getD_schemas]
  cases hget : PyVal.get items "schemas" with
  | none => rfl
  | some u =>
    obtain ⟨schemas, rfl⟩ := hschemas u hget
    simp only [Option.getD_some, bind, Except.bind, isIn_dict]
    cases (PyVal.get schemas "queryables").isSome <;> rfl

/-- The schemas are put back into the components. -/
theorem fixQueryablesResponseSchema_schemas {content items : List (PyKey × PyVal)}
    (hcomponents : PyVal.get content "components" = some (.dict items))
    (hschemas : ∀ u, PyVal.get items "schemas" = some u → ∃ schemas, u = .dict schemas) :
    ∃ content' items', fixQueryablesResponseSchema content = .ok content' ∧
      PyVal.get content' "components" = some (.dict items') ∧
      PyVal.get items' "schemas" = (PyVal.get items "schemas").map fixSchemas ∧
      (∀ key : PyKey, key ≠ "schemas" → items'.lookup key = items.lookup key) ∧
      items'.isEmpty = items.isEmpty ∧
      (content' = content ∨ ∃ schemas, PyVal.get items "schemas" = some (.dict schemas) ∧
        content' = setItem content (.str "components") (.dict (setItem items (.str "schemas")
          (.dict (setItem schemas (.str "queryables") queryablesSchema))))) := by
  rw [fixQueryablesResponseSchema_eq hcomponents hschemas]
  cases hget : PyVal.get items "schemas" with
  | none => exact ⟨content, items, rfl, hcomponents, hget, fun _ _ => rfl, rfl, .inl rfl⟩
  | some u =>
    obtain ⟨schemas, rfl⟩ := hschemas u hget
    cases hq : (PyVal.get schemas "queryables").isSome with
    | false =>
      refine ⟨content, items, by simp [hq], hcomponents, ?_, fun _ _ => rfl, rfl, .inl rfl⟩
      rw [hget, Option.map_some, fixSchemas, hq, if_neg Bool.false_ne_true]
    | true =>
      refine ⟨_, _, by simp [hq], get_setItem_self, ?_, fun key hkey => lookup_setItem_other hkey,
        ?_, .inr ⟨schemas, rfl, rfl⟩⟩
      · rw [get_setItem_self, Option.map_some, fixSchemas, hq, if_pos rfl]
      · rw [isEmpty_setItem]
        cases items with
        | nil => cases hget
        | cons kv items => rfl

/-! ## A whole call -/

/-- All that a call changes, from the document that was parsed to the one that it returns. -/
structure AugmentEffect (cfg : Configuration) (securitySchemes : List SecurityScheme)
    (openapi result : OpenAPI) : Prop where
  paths : result.paths =
    if (securedPaths (schemeName cfg) openapi.paths).isEmpty then openapi.paths
    else securedPaths (schemeName cfg) openapi.paths
  components : ∃ items items', PyVal.get openapi.fields "components" = some (.dict items) ∧
    EditedComponents (securitySchemesOf cfg securitySchemes) items items' ∧
    ∀ path, (dict result.fields).look (.key "components" :: path) = (dict items').look path
  others : ∀ (key : PyKey) path, key ≠ "paths" → key ≠ "components" →
    (dict result.fields).look (.key key :: path) = (dict openapi.fields).look (.key key :: path)

/-- Every scheme is written under the same name, so the last one is left. -/
theorem foldl_setItem_name {name : PyKey} {securitySchemes : List SecurityScheme} :
    securitySchemes.foldl (fun dumpedSchemes scheme => setItem dumpedSchemes name scheme.dumped)
      [] = (securitySchemes.getLast?.map fun scheme => (name, scheme.dumped)).toList := by
  induction securitySchemes using List.reverseRecOn with
  | nil => rfl
  | append_singleton securitySchemes scheme ih =>
    rw [List.foldl_append, ih, List.foldl_cons, List.foldl_nil, List.getLast?_concat]
    cases securitySchemes.getLast? with
    | none => rfl
    | some last => simp [setItem]

def Supported (scheme : SecurityScheme) : Prop :=
  scheme.type ∈ ["http", "apiKey", "oauth2", "openIdConnect"]

instance (scheme : SecurityScheme) : Decidable (Supported scheme) :=
  inferInstanceAs (Decidable (scheme.type ∈ ["http", "apiKey", "oauth2", "openIdConnect"]))

theorem securitySchemesOf_supported {cfg : Configuration} {securitySchemes : List SecurityScheme}
    (h : ∀ scheme ∈ securitySchemes, Supported scheme) :
    securitySchemesOf cfg securitySchemes =
      .dict (securitySchemes.getLast?.map fun scheme =>
        (PyKey.str (schemeName cfg), scheme.dumped)).toList := by
  have hall : securitySchemes.all (·.type ∈ ["http", "apiKey", "oauth2", "openIdConnect"]) =
      true := List.all_eq_true.mpr fun scheme hscheme => decide_eq_true (h scheme hscheme)
  rw [securitySchemesOf, if_pos hall, foldl_setItem_name]

theorem securitySchemesOf_dict {types : ModelTypes} (cfg : Configuration)
    {securitySchemes : List SecurityScheme}
    (h : ∀ scheme ∈ securitySchemes, types.scheme scheme.dumped) :
    ∃ schemes, securitySchemesOf cfg securitySchemes = .dict schemes ∧
      ∀ kv ∈ schemes, (∃ name, kv.1 = .str name) ∧ types.scheme kv.2 := by
  rw [securitySchemesOf]
  split
  · rw [foldl_setItem_name]
    refine ⟨_, rfl, fun kv hkv => ?_⟩
    obtain ⟨last, hlast, rfl⟩ := Option.map_eq_some_iff.mp (Option.mem_toList.mp hkv)
    exact ⟨⟨_, rfl⟩, h last (List.mem_of_getLast? hlast)⟩
  · exact ⟨[], rfl, fun kv hkv => absurd hkv List.not_mem_nil⟩

section
variable {p : Pydantic} {types : ModelTypes} {cfg : Configuration} {doc : String}
  {securitySchemes : List SecurityScheme} {openapi result : OpenAPI}
  {items : List (PyKey × PyVal)}

/-- Components that are not empty get the security schemes before the schema is corrected. -/
theorem editContent_nonempty (hp : p.Lossless types) {content schemes : List (PyKey × PyVal)}
    (hcontent : types.content content)
    (hitems : PyVal.get content "components" = some (.dict items))
    (hdicts : ∀ u, PyVal.get items "schemas" = some u → ∃ schemas, u = .dict schemas)
    (hschemes : ∀ kv ∈ schemes, (∃ name, kv.1 = .str name) ∧ types.scheme kv.2)
    (hempty : items.isEmpty = false) :
    ∃ content' items', fixQueryablesResponseSchema (setItem content (.str "components")
        (.dict (setItem items (.str "securitySchemes") (.dict schemes)))) = .ok content' ∧
      types.content content' ∧ PyVal.get content' "components" = some (.dict items') ∧
      EditedComponents (.dict schemes) items items' := by
  have hother : PyVal.get (setItem items (.str "securitySchemes") (.dict schemes)) "schemas" =
      PyVal.get items "schemas" := lookup_setItem_other (by decide)
  have hedited := hp.securitySchemes hcontent hitems hschemes
  have hsecured : PyVal.get (setItem content (.str "components")
      (.dict (setItem items (.str "securitySchemes") (.dict schemes)))) "components" =
      some (.dict (setItem items (.str "securitySchemes") (.dict schemes))) := get_setItem_self
  obtain ⟨content', items', hfix, hget, hschemas, hothers, hisEmpty, hcases⟩ :=
    fixQueryablesResponseSchema_schemas hsecured (hother.symm ▸ hdicts)
  refine ⟨content', items', hfix, ?_, hget, ?_⟩
  · rcases hcases with rfl | ⟨schemas, hget', rfl⟩
    · exact hedited
    · exact hp.queryables hedited get_setItem_self hget'
  · refine ⟨?_, fun _ => ?_, hother ▸ hschemas, fun key hne hne' => ?_⟩
    · rw [hisEmpty, isEmpty_setItem, hempty]
    · rw [PyVal.get, hothers _ (by decide), lookup_setItem, if_pos rfl]
    · rw [hothers key hne', lookup_setItem_other hne]

/-- The dumped copy of the document, after the security schemes and the schema for queryables. -/
theorem editContent (hp : p.Lossless types) {content schemes : List (PyKey × PyVal)}
    (hcontent : types.content content)
    (hitems : PyVal.get content "components" = some (.dict items))
    (hschemes : ∀ kv ∈ schemes, (∃ name, kv.1 = .str name) ∧ types.scheme kv.2) :
    ∃ components content' items', updateComponents (.dict items) (.dict schemes) = .ok components ∧
      fixQueryablesResponseSchema (setItem content (.str "components") components) =
        .ok content' ∧
      types.content content' ∧ PyVal.get content' "components" = some (.dict items') ∧
      EditedComponents (.dict schemes) items items' := by
  have hdicts : ∀ u, PyVal.get items "schemas" = some u → ∃ schemas, u = .dict schemas := by
    obtain ⟨_, heq, h⟩ := hp.components hcontent hitems
    cases heq
    exact h
  cases hempty : items.isEmpty with
  | true =>
    obtain rfl := List.isEmpty_iff.mp hempty
    have hsame : setItem content (.str "components") (.dict []) = content :=
      setItem_of_lookup hitems
    refine ⟨.dict [], content, [], rfl, ?_, hcontent, hitems, rfl, fun h => Bool.noConfusion h,
      rfl, fun _ _ _ => rfl⟩
    rw [hsame, fixQueryablesResponseSchema_eq hitems hdicts]
    rfl
  | false =>
    have htruthy : (dict items).truthy = true := by
      rw [PyVal.truthy, hempty]
      rfl
    obtain ⟨content', items', hfix, hedited⟩ :=
      editContent_nonempty hp hcontent hitems hdicts hschemes hempty
    exact ⟨_, content', items', by rw [updateComponents, if_pos htruthy], hfix, hedited⟩

theorem augmentSecurity_returns (cfg : Configuration) (hp : p.Lossless types)
    (hdoc : p.validateJson doc = .ok openapi)
    (hitems : PyVal.get openapi.fields "components" = some (.dict items))
    (hschemes : ∀ scheme ∈ securitySchemes, types.scheme scheme.dumped) :
    ∃ result, augmentSecurity p cfg doc securitySchemes = .ok result ∧
      AugmentEffect cfg securitySchemes openapi result := by
  obtain ⟨schemes, hS, hvalid⟩ := securitySchemesOf_dict cfg hschemes
  have hget : PyVal.get (p.dump openapi) "components" = some (.dict items) := by
    rw [PyVal.get, hp.dumpsFields (by decide), ← PyVal.get, hitems]
  obtain ⟨components, content, items', hupdate, hfix, hcontent, hget', hedited⟩ :=
    editContent hp (hp.dumpsContent hdoc) hget hvalid
  have hkept : ∀ key : PyKey, key ≠ "components" →
      content.lookup key = (p.dump openapi).lookup key := fun key hkey => by
    rw [fixQueryablesResponseSchema_lookup hfix hkey, lookup_setItem_other hkey]
  obtain ⟨result, hresult⟩ := hp.accepts hcontent
  have hfields := hp.keepsFields hcontent hresult
  refine ⟨result, augmentSecurity_eq_ok.mpr ⟨openapi, hdoc, components, ?_, content, hfix,
    hresult⟩, ⟨?_, ⟨items, items', hitems, hS ▸ hedited, fun path => ?_⟩,
    fun key path hpaths hcomponents => ?_⟩⟩
  · rw [hget, Option.getD_some, hS, hupdate]
  · split
    · rename_i hempty
      rw [if_pos hempty] at hresult
      exact hp.readsBack hdoc (hkept _ (by decide)) hresult
    · rename_i hsome
      rw [if_neg hsome] at hresult
      exact hp.keepsInstances hresult
  · rw [hfields _ _ (by decide), look_key_of_get hget']
  · rw [hfields _ _ hpaths, look_lookup, look_lookup, hkept _ hcomponents, hp.dumpsFields hpaths]

/-- Without components the call raises. -/
theorem augmentSecurity_components (hp : p.Lossless types)
    (hdoc : p.validateJson doc = .ok openapi)
    (h : augmentSecurity p cfg doc securitySchemes = .ok result) :
    ∃ items, PyVal.get openapi.fields "components" = some (.dict items) := by
  cases hcomponents : PyVal.get openapi.fields "components" with
  | none =>
    obtain ⟨openapi', hdoc', components, hupdate, content, hfix, _⟩ := augmentSecurity_eq_ok.mp h
    obtain rfl : openapi' = openapi := Except.ok.inj (hdoc'.symm.trans hdoc)
    rw [PyVal.get, hp.dumpsFields (by decide), ← PyVal.get, hcomponents] at hupdate
    obtain rfl : PyVal.none = components := Except.ok.inj hupdate
    rw [fixQueryablesResponseSchema, get_setItem_self] at hfix
    cases hfix
  | some v =>
    have hget : PyVal.get (p.dump openapi) "components" = some v := by
      rw [PyVal.get, hp.dumpsFields (by decide), ← PyVal.get, hcomponents]
    obtain ⟨items, rfl, _⟩ := hp.components (hp.dumpsContent hdoc) hget
    exact ⟨items, rfl⟩

theorem augmentSecurity_augmented (hp : p.Lossless types)
    (hschemes : ∀ scheme ∈ securitySchemes, types.scheme scheme.dumped)
    (hdoc : p.validateJson doc = .ok openapi)
    (h : augmentSecurity p cfg doc securitySchemes = .ok result) :
    AugmentEffect cfg securitySchemes openapi result := by
  obtain ⟨items, hitems⟩ := augmentSecurity_components hp hdoc h
  obtain ⟨result', h', haugmented⟩ := augmentSecurity_returns cfg hp hdoc hitems hschemes
  obtain rfl : result' = result := Except.ok.inj (h'.symm.trans h)
  exact haugmented

end

/-! ## A public collection -/

def roadsText : String :=
  "\x7b\"openapi\": \"3.0.2\", \"info\": \x7b\"title\": \"roads\", \"version\": \"1\"\x7d, " ++
  "\"paths\": \x7b\"/collections/roads\": \x7b\"get\": \x7b\"responses\": " ++
  "\x7b\"200\": \x7b\"description\": \"The collection\"\x7d\x7d\x7d\x7d\x7d, " ++
  "\"components\": \x7b\"schemas\": \x7b\x7d\x7d\x7d"

/-- The same without components. -/
def roadsPlainText : String :=
  "\x7b\"openapi\": \"3.0.2\", \"info\": \x7b\"title\": \"roads\", \"version\": \"1\"\x7d, " ++
  "\"paths\": \x7b\"/collections/roads\": \x7b\"get\": \x7b\"responses\": " ++
  "\x7b\"200\": \x7b\"description\": \"The collection\"\x7d\x7d\x7d\x7d\x7d\x7d"

def roadsHead : List (PyKey × PyVal) :=
  [(.str "openapi", .str "3.0.2"),
    (.str "info", .dict [(.str "title", .str "roads"), (.str "version", .str "1")]),
    (.str "servers", .list [.dict [(.str "url", .str "/")]])]

def roadsPaths : Dict PathItem :=
  .single "/collections/roads" { get := some {
    security := none
    responses := .single "200" (.response "The collection" [])
    fields := [(.str "deprecated", .bool false)] } }

def roadsPlain : OpenAPI := ⟨roadsPaths, roadsHead⟩

def roadsOpenAPI : OpenAPI :=
  ⟨roadsPaths, roadsHead ++ [(.str "components", .dict [(.str "schemas", .dict [])])]⟩

def roadsAugmented : OpenAPI where
  paths := securedPaths "pygeoapi bearer" roadsPaths
  fields := roadsHead ++ [(.str "components", .dict [(.str "schemas", .dict []),
    (.str "securitySchemes", .dict [(.str "pygeoapi bearer", bearerScheme.dumped)])])]

/-- What is served for `roadsText`. -/
def roadsAugmentedText : String := dumpModelJson roadsAugmented

/-- `openapi_pydantic` as it behaves on the documents with this collection, and rejecting every
other text. -/
def roadsPydantic : Pydantic where
  validateJson doc :=
    if doc = roadsText then .ok roadsOpenAPI
    else if doc = roadsAugmentedText then .ok roadsAugmented
    else if doc = roadsPlainText then .ok roadsPlain
    else .error ⟨.validationError, "OpenAPI"⟩
  dump := dumpModel
  validate content paths :=
    let secured := (dict content).look
      [.key "paths", .key "/collections/roads", .key "get", .key "security"]
    .ok ⟨paths.getD (if secured.isSome then roadsAugmented.paths else roadsPaths),
      content.filter (·.1 ≠ .str "paths")⟩
  dumpJson := dumpModelJson

theorem roads_parsed : roadsPydantic.validateJson roadsText = .ok roadsOpenAPI := by
  simp only [roadsPydantic, if_true]

theorem roads_components :
    PyVal.get roadsOpenAPI.fields "components" = some (.dict [(.str "schemas", .dict [])]) := rfl

theorem roadsAugmented_parsed :
    roadsPydantic.validateJson (roadsPydantic.dumpJson roadsAugmented) = .ok roadsAugmented := by
  have hne : roadsAugmentedText ≠ roadsText := by decide +kernel
  have hdumped : roadsPydantic.dumpJson roadsAugmented = roadsAugmentedText := by
    rw [roadsPydantic, roadsAugmentedText]
  rw [hdumped]
  simp only [roadsPydantic, if_neg hne, if_true]

theorem roadsPlain_parsed : roadsPydantic.validateJson roadsPlainText = .ok roadsPlain := by
  have hne : roadsPlainText ≠ roadsText := by decide +kernel
  have hne' : roadsPlainText ≠ roadsAugmentedText := by decide +kernel
  simp only [roadsPydantic, if_neg hne, if_neg hne', if_true]

theorem roads_augmented :
    augmentSecurity roadsPydantic lakesConfiguration roadsText [bearerScheme] =
      .ok roadsAugmented := by
  rw [augmentSecurity, roads_parsed]
  rfl

/-- Documents whose components, and the schemas in them, are dicts if they are there. -/
def roadsTypes : ModelTypes where
  content content := ∀ v, PyVal.get content "components" = some v → ∃ items, v = .dict items ∧
    ∀ u, PyVal.get items "schemas" = some u → ∃ schemas, u = .dict schemas
  scheme v := ∃ items, v = .dict items

theorem lookup_filter {items : List (PyKey × PyVal)} {key other : PyKey} (h : other ≠ key) :
    (items.filter (·.1 ≠ key)).lookup other = items.lookup other := by
  induction items with
  | nil => rfl
  | cons kv items ih =>
    obtain ⟨k, v⟩ := kv
    by_cases hkey : k = key
    · have hother : (other == k) = false := beq_eq_false_iff_ne.mpr (hkey ▸ h)
      rw [List.filter_cons_of_neg (by simpa using hkey), List.lookup_cons, hother, ih]
    · rw [List.filter_cons_of_pos (by simpa using hkey), List.lookup_cons, List.lookup_cons, ih]

theorem lookup_insertPaths {paths : PyVal} {items : List (PyKey × PyVal)} {key : PyKey}
    (h : key ≠ "paths") : (insertPaths paths items).lookup key = items.lookup key := by
  have hkey : (key == PyKey.str "paths") = false := beq_eq_false_iff_ne.mpr h
  induction items with
  | nil => rw [insertPaths, List.lookup_cons, hkey]
  | cons kv items ih =>
    obtain ⟨k, v⟩ := kv
    rw [insertPaths]
    split
    · rw [List.lookup_cons, hkey]
    · rw [List.lookup_cons, List.lookup_cons, ih]

theorem roadsPydantic_dump {m : OpenAPI} {key : PyKey} (h : key ≠ "paths") :
    (roadsPydantic.dump m).lookup key = m.fields.lookup key :=
  lookup_insertPaths h

theorem roadsPydantic_models {doc : String} {openapi : OpenAPI}
    (h : roadsPydantic.validateJson doc = .ok openapi) :
    openapi = roadsOpenAPI ∨ openapi = roadsAugmented ∨ openapi = roadsPlain := by
  simp only [roadsPydantic] at h
  split at h
  · exact .inl (Except.ok.inj h).symm
  · split at h
    · exact .inr (.inl (Except.ok.inj h).symm)
    · split at h
      · exact .inr (.inr (Except.ok.inj h).symm)
      · cases h

theorem roadsPydantic_lossless : roadsPydantic.Lossless roadsTypes where
  keepsInstances h := (Except.ok.inj h) ▸ rfl
  readsBack hdoc hpaths h := by
    rw [← Except.ok.inj h, look_key, hpaths]
    rcases roadsPydantic_models hdoc with rfl | rfl | rfl
    · rfl
    · rfl
    · rfl
  dumpsFields := roadsPydantic_dump
  dumpsContent hdoc := by
    intro v hv
    rw [PyVal.get, roadsPydantic_dump (by decide)] at hv
    rcases roadsPydantic_models hdoc with rfl | rfl | rfl
    · cases hv
      exact ⟨_, rfl, fun u hu => ⟨[], (Option.some.inj hu).symm⟩⟩
    · cases hv
      exact ⟨_, rfl, fun u hu => ⟨[], (Option.some.inj hu).symm⟩⟩
    · cases hv
  components h hv := h _ hv
  securitySchemes h hitems _ := by
    intro v hv
    rw [get_setItem_self] at hv
    refine ⟨_, (Option.some.inj hv).symm, fun u hu => ?_⟩
    rw [PyVal.get, lookup_setItem_other (by decide)] at hu
    obtain ⟨_, heq, hschemas⟩ := h _ hitems
    cases heq
    exact hschemas u hu
  queryables _ _ _ := by
    intro v hv
    rw [get_setItem_self] at hv
    refine ⟨_, (Option.some.inj hv).symm, fun u hu => ?_⟩
    rw [get_setItem_self] at hu
    exact ⟨_, (Option.some.inj hu).symm⟩
  accepts _ := ⟨_, rfl⟩
  keepsFields _ h := by
    intro key path hkey
    rw [← Except.ok.inj h, look_lookup, lookup_filter hkey, look_lookup]

theorem bearerScheme_valid : ∀ scheme ∈ [bearerScheme], roadsTypes.scheme scheme.dumped := by
  intro scheme hscheme
  rw [List.mem_singleton.mp hscheme]
  exact ⟨_, rfl⟩

end FastGeoApi
