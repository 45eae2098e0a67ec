import FastGeoApi.OpenApi.Frame
import FastGeoApi.Python.Json
import FastGeoApi.Resolver.Freshness

/-!
# The generated document

`generate_openapi_document` of `app/pygeoapi/openapi.py`. It parses the text that pygeoapi
generates, corrects the schema for queryables, and writes the document in the same format. A text is
represented by what it is parsed to.
-/

namespace FastGeoApi
open PyVal

/-- `fix_queryables_response_schema` on what a text is parsed to. -/
def fixDocument : PyVal → Except PyError PyVal
  | .dict doc => (fixQueryablesResponseSchema doc).map .dict
  | _ => .error ⟨.attributeError, "get"⟩

/-- `generate_openapi_document(cfg_file, output_format)`, for what pygeoapi generates in a format
and what `yaml.safe_load(yaml.safe_dump(v, sort_keys=False))` is. What `json.loads` gives needs no
`default=str`. -/
def generateOpenapiDocument (upstream : String → Except PyError CacheFile)
    (yamlRoundTrip : PyVal → Except PyError PyVal) (outputFormat : String) :
    Except PyError PyVal := do
  let raw ← upstream outputFormat
  let doc ← raw
  let doc ← fixDocument doc
  if outputFormat = "json" then jsonRoundTrip doc else yamlRoundTrip doc

/-- Values that come back from a format as they were, and what they are made of. -/
structure Durable (roundTrip : PyVal → Except PyError PyVal) (P : PyVal → Prop) : Prop where
  roundTrip {v : PyVal} : P v → roundTrip v = .ok v
  item {items : List (PyKey × PyVal)} {key : String} {v : PyVal} :
    P (.dict items) → PyVal.get items key = some v → P v
  setItem {items : List (PyKey × PyVal)} {key : String} {v : PyVal} :
    P (.dict items) → P v → P (.dict (setItem items (.str key) v))
  queryables : P queryablesSchema

/-- Where the schema for queryables is. -/
def queryablesPath : List Step := [.key "components", .key "schemas", .key "queryables"]

/-- The schema for queryables is corrected where there is one, and the rest of the document is as it
was. -/
structure Corrected (v v' : PyVal) : Prop where
  queryables : v'.at? queryablesPath = (v.at? queryablesPath).map fun _ => queryablesSchema
  others : ∀ path, ¬queryablesPath <+: path → v'.look path = v.look path

/-! ## Values inside a document -/

section
variable {items : List (PyKey × PyVal)} {key : String} {u v : PyVal} {p path : List Step}

/-- A value is replaced by one that only differs below `p`. -/
theorem look_setItem (hget : PyVal.get items key = some u)
    (h : ∀ path, ¬p <+: path → v.look path = u.look path) (hpath : ¬(.key key :: p) <+: path) :
    (dict (setItem items (.str key) v)).look path = (dict items).look path := by
  cases path with
  | nil =>
    have hne : items.isEmpty = false := by
      cases items with
      | nil => cases hget
      | cons kv items => rfl
    rw [look_nil, look_nil, shape, shape, isEmpty_setItem, hne]
  | cons step path =>
    cases step with
    | index i => rfl
    | key other =>
      by_cases hkey : other = .str key
      · subst hkey
        rw [look_key_of_get get_setItem_self, look_key_of_get hget]
        refine h path fun hp => hpath ?_
        exact List.cons_prefix_cons.mpr ⟨rfl, hp⟩
      · rw [look_lookup, look_lookup, lookup_setItem_other hkey]

theorem at?_key :
    (dict items).at? (.key key :: path) = (PyVal.get items key).bind (·.at? path) := by
  rw [at?_cons]
  rfl

/-- What is not in a value is not at a path into it. -/
theorem at?_of_not_isIn (h : v.isIn key = .ok false) : v.at? [.key key] = Option.none := by
  cases v with
  | dict items =>
    rw [isIn_dict, Except.ok.injEq, Option.isSome_eq_false_iff, Option.isNone_iff_eq_none] at h
    rw [at?_key, h]
    rfl
  | _ => rfl

end

/-- A document that is corrected is the one it was, or has the new schema in the old one's place. -/
theorem fixQueryablesResponseSchema_cases {doc doc' : List (PyKey × PyVal)}
    (h : fixQueryablesResponseSchema doc = .ok doc') :
    (doc' = doc ∧ (dict doc).at? queryablesPath = Option.none) ∨
      ∃ components schemas old, PyVal.get doc "components" = some (.dict components) ∧
        PyVal.get components "schemas" = some (.dict schemas) ∧
        PyVal.get schemas "queryables" = some old ∧
        doc' = setItem doc (.str "components") (.dict (setItem components (.str "schemas")
          (.dict (setItem schemas (.str "queryables") queryablesSchema)))) := by
  unfold fixQueryablesResponseSchema at h
  cases hcomponents : PyVal.get doc "components" with
  | none =>
    rw [hcomponents] at h
    cases h
    refine .inl ⟨rfl, ?_⟩
    rw [queryablesPath, at?_key, hcomponents]
    rfl
  | some components =>
    rw [hcomponents] at h
    cases components with
    | dict components =>
      cases hschemas : PyVal.get components "schemas" with
      | none =>
        simp only [Option.getD_some, getD_schemas, hschemas] at h
        cases h
        refine .inl ⟨rfl, ?_⟩
        rw [queryablesPath, at?_key, hcomponents, Option.bind_some, at?_key, hschemas]
        rfl
      | some schemas =>
        simp only [Option.getD_some, getD_schemas, hschemas, except_bind_ok, Except.ok.injEq,
          exists_eq_left'] at h
        obtain ⟨found, hfound, h⟩ := h
        cases found with
        | false =>
          cases h
          refine .inl ⟨rfl, ?_⟩
          rw [queryablesPath, at?_key, hcomponents, Option.bind_some, at?_key, hschemas,
            Option.bind_some]
          exact at?_of_not_isIn hfound
        | true =>
          rw [if_pos rfl] at h
          cases schemas with
          | dict schemas =>
            cases h
            rw [isIn_dict, Except.ok.injEq] at hfound
            obtain ⟨old, hold⟩ := Option.isSome_iff_exists.mp hfound
            exact .inr ⟨components, schemas, old, rfl, hschemas, hold, rfl⟩
          | _ => cases h
    | _ => cases h

section
variable {doc doc' : List (PyKey × PyVal)}

theorem Corrected.refl {v : PyVal} (h : v.at? queryablesPath = Option.none) : Corrected v v where
  queryables := by
    rw [h]
    rfl
  others _ _ := rfl

theorem fixQueryablesResponseSchema_corrected (h : fixQueryablesResponseSchema doc = .ok doc') :
    Corrected (.dict doc) (.dict doc') := by
  rcases fixQueryablesResponseSchema_cases h with
    ⟨rfl, habsent⟩ | ⟨components, schemas, old, hcomponents, hschemas, hold, rfl⟩
  · exact .refl habsent
  · refine ⟨?_, fun path hpath => ?_⟩
    · rw [queryablesPath, at?_key, at?_key, get_setItem_self, hcomponents, Option.bind_some,
        Option.bind_some, at?_key, at?_key, get_setItem_self, hschemas, Option.bind_some,
        Option.bind_some, at?_key, at?_key, get_setItem_self, hold]
      rfl
    · refine look_setItem hcomponents (fun path hpath => ?_) hpath
      refine look_setItem hschemas (fun path hpath => ?_) hpath
      exact look_setItem hold (fun path hpath => absurd List.nil_prefix hpath) hpath

/-- A corrected document is corrected to itself. -/
theorem fixQueryablesResponseSchema_idem (h : fixQueryablesResponseSchema doc = .ok doc') :
    fixQueryablesResponseSchema doc' = .ok doc' := by
  rcases fixQueryablesResponseSchema_cases h with
    ⟨rfl, -⟩ | ⟨components, schemas, old, hcomponents, hschemas, hold, rfl⟩
  · exact h
  · have hfound : (PyVal.get (setItem schemas (.str "queryables") queryablesSchema)
        "queryables").isSome = true := by
      rw [get_setItem_self]
      rfl
    have hdict : ∀ u, PyVal.get (setItem components (.str "schemas")
        (.dict (setItem schemas (.str "queryables") queryablesSchema))) "schemas" = some u →
        ∃ schemas, u = .dict schemas := by
      intro u hu
      rw [get_setItem_self] at hu
      cases hu
      exact ⟨_, rfl⟩
    rw [fixQueryablesResponseSchema_eq get_setItem_self hdict, get_setItem_self]
    simp only [hfound, if_true]
    -- each of the three assignments puts in what is there
    have hassigned : ∀ (items : List (PyKey × PyVal)) (key : String) (v : PyVal),
        setItem (setItem items (.str key) v) (.str key) v = setItem items (.str key) v :=
      fun items key v => setItem_of_lookup get_setItem_self
    rw [hassigned, hassigned, hassigned]

theorem Durable.fix {roundTrip : PyVal → Except PyError PyVal} {P : PyVal → Prop}
    (hP : Durable roundTrip P) (h : fixQueryablesResponseSchema doc = .ok doc')
    (hdoc : P (.dict doc)) : P (.dict doc') := by
  rcases fixQueryablesResponseSchema_cases h with
    ⟨rfl, -⟩ | ⟨components, schemas, old, hcomponents, hschemas, hold, rfl⟩
  · exact hdoc
  · have hcomps := hP.item hdoc hcomponents
    exact hP.setItem hdoc (hP.setItem hcomps (hP.setItem (hP.item hcomps hschemas) hP.queryables))

end

/-! ## What `json` keeps -/

/-- What holds of the items and of the new one holds of all. -/
theorem forall_setItem {Q : PyKey × PyVal → Prop} {items : List (PyKey × PyVal)} {key : PyKey}
    {v : PyVal} (h : ∀ kv ∈ items, Q kv) (hnew : Q (key, v)) :
    ∀ kv ∈ setItem items key v, Q kv := by
  induction items with
  | nil => exact fun kv hkv => List.mem_singleton.mp hkv ▸ hnew
  | cons kv items ih =>
    have hitems := fun kv' hkv' => h kv' (List.mem_cons_of_mem _ hkv')
    rw [setItem]
    split
    · rename_i hkey
      refine List.forall_mem_cons.mpr ⟨?_, hitems⟩
      rwa [hkey]
    · exact List.forall_mem_cons.mpr ⟨h kv List.mem_cons_self, ih hitems⟩

/-- The keys of a dict that is put together are those of the pairs, each one once. -/
theorem dictOf_keys {Q : PyKey → Prop} {pairs : List (PyKey × PyVal)}
    (h : ∀ kv ∈ pairs, Q kv.1) :
    ((dictOf pairs).map Prod.fst).Nodup ∧ ∀ kv ∈ dictOf pairs, Q kv.1 := by
  have hfold : ∀ acc : List (PyKey × PyVal), (acc.map Prod.fst).Nodup → (∀ kv ∈ acc, Q kv.1) →
      ((pairs.foldl (fun items kv => setItem items kv.1 kv.2) acc).map Prod.fst).Nodup ∧
        ∀ kv ∈ pairs.foldl (fun items kv => setItem items kv.1 kv.2) acc, Q kv.1 := by
    induction pairs with
    | nil => exact fun acc hnodup hacc => ⟨hnodup, hacc⟩
    | cons kv pairs ih =>
      intro acc hnodup hacc
      have hpairs := fun kv' hkv' => h kv' (List.mem_cons_of_mem _ hkv')
      refine ih hpairs _ (setItem_nodup hnodup _ _) ?_
      exact forall_setItem (Q := fun kv => Q kv.1) hacc (h kv List.mem_cons_self)
  exact hfold [] .nil (List.forall_mem_nil _)

/-- Strings are written as they are. -/
theorem written_keys {items pairs : List (PyKey × PyVal)}
    (h : List.Forall₂ WrittenAs items pairs) (hstrings : ∀ kv ∈ items, ∃ key, kv.1 = .str key) :
    pairs.map Prod.fst = items.map Prod.fst := by
  induction h with
  | nil => rfl
  | @cons kv kv' items pairs hkv _ ih =>
    obtain ⟨key, hkey, hkey', _⟩ := hkv
    obtain ⟨text, htext⟩ := hstrings kv List.mem_cons_self
    rw [htext] at hkey
    cases hkey
    rw [List.map_cons, List.map_cons, ih fun kv hkv => hstrings kv (List.mem_cons_of_mem _ hkv),
      hkey', htext]

/-- JSON keeps a dict that has strings for its keys, each one once, and values that it keeps. -/
theorem jsonNative_dict_iff {items : List (PyKey × PyVal)} :
    JsonNative (.dict items) ↔ (items.map Prod.fst).Nodup ∧
      ∀ kv ∈ items, (∃ key, kv.1 = .str key) ∧ JsonNative kv.2 := by
  rw [JsonNative, jsonRoundTrip_dict]
  constructor
  · rintro ⟨pairs, hwritten, heq⟩
    injection heq with heq
    have hkeys : ∀ kv' ∈ pairs, ∃ key, kv'.1 = .str key := by
      intro kv' hkv'
      obtain ⟨kv, _, key, _, hkey, _⟩ := exists_of_mem_forall₂ hwritten.flip hkv'
      exact ⟨key, hkey⟩
    obtain ⟨hnodup, hstrings⟩ := dictOf_keys (Q := fun k => ∃ key, k = .str key) hkeys
    rw [← heq] at hnodup hstrings
    -- with these keys the pairs are the items
    have hsame : pairs.map Prod.fst = items.map Prod.fst := written_keys hwritten hstrings
    have hpairs : items = pairs := by
      rw [heq]
      have hpairsNodup : (pairs.map Prod.fst).Nodup := hsame ▸ hnodup
      exact dictOf_eq_self (List.pairwise_map.mp hpairsNodup)
    rw [← hpairs] at hwritten
    refine ⟨hnodup, fun kv hkv => ⟨hstrings kv hkv, ?_⟩⟩
    obtain ⟨key, _, _, hvalue⟩ := List.forall₂_same.mp hwritten kv hkv
    exact hvalue
  · rintro ⟨hnodup, hall⟩
    refine ⟨items, List.forall₂_same.mpr fun kv hkv => ?_, ?_⟩
    · obtain ⟨⟨key, hkey⟩, hvalue⟩ := hall kv hkv
      exact ⟨key, by rw [hkey, jsonKey], hkey, hvalue⟩
    · rw [dictOf_eq_self]
      exact List.pairwise_map.mp hnodup

theorem durable_json : Durable jsonRoundTrip JsonNative where
  roundTrip h := h
  item h hget := ((jsonNative_dict_iff.mp h).2 _ (PyVal.mem_of_get hget)).2
  setItem := by
    intro items key v hitems hv
    obtain ⟨hnodup, hall⟩ := jsonNative_dict_iff.mp hitems
    exact jsonNative_dict_iff.mpr
      ⟨setItem_nodup hnodup _ _, forall_setItem hall ⟨⟨key, rfl⟩, hv⟩⟩
  queryables := rfl

theorem fixDocument_ok {v v' : PyVal} (h : fixDocument v = .ok v') :
    ∃ doc doc', v = .dict doc ∧ v' = .dict doc' ∧ fixQueryablesResponseSchema doc = .ok doc' := by
  cases v with
  | dict doc =>
    rw [fixDocument] at h
    cases hdoc : fixQueryablesResponseSchema doc with
    | error e =>
      rw [hdoc] at h
      cases h
    | ok doc' =>
      rw [hdoc] at h
      cases h
      exact ⟨doc, doc', rfl, rfl, hdoc⟩
  | _ => cases h

theorem generateOpenapiDocument_eq {upstream : String → Except PyError CacheFile}
    {yamlRoundTrip : PyVal → Except PyError PyVal} {outputFormat : String} {raw : PyVal}
    (hraw : upstream outputFormat = .ok (.ok raw)) :
    generateOpenapiDocument upstream yamlRoundTrip outputFormat = (fixDocument raw >>= fun doc =>
      if outputFormat = "json" then jsonRoundTrip doc else yamlRoundTrip doc) := by
  unfold generateOpenapiDocument
  rw [hraw]
  rfl

/-- What is generated is the document of pygeoapi with the correction, and comes back as it is. -/
theorem generated_cases {upstream : String → Except PyError CacheFile}
    {yamlRoundTrip : PyVal → Except PyError PyVal} {P : PyVal → Prop}
    (hyaml : Durable yamlRoundTrip P) {outputFormat : String} {raw : PyVal}
    (hraw : upstream outputFormat = .ok (.ok raw))
    (hkept : if outputFormat = "json" then JsonNative raw else P raw) {content : PyVal}
    (hgenerated : generateOpenapiDocument upstream yamlRoundTrip outputFormat = .ok content) :
    Corrected raw content ∧ fixDocument content = .ok content ∧
      (if outputFormat = "json" then jsonRoundTrip content else yamlRoundTrip content) =
        .ok content := by
  rw [generateOpenapiDocument_eq hraw] at hgenerated
  obtain ⟨fixed, hfixed, hwritten⟩ := except_bind_ok.mp hgenerated
  obtain ⟨doc, doc', rfl, rfl, hdoc⟩ := fixDocument_ok hfixed
  have hback : (if outputFormat = "json" then jsonRoundTrip (.dict doc')
      else yamlRoundTrip (.dict doc')) = .ok (.dict doc') := by
    split at hkept
    · rename_i hjson
      rw [if_pos hjson]
      exact durable_json.roundTrip (durable_json.fix hdoc hkept)
    · rename_i hyamlFormat
      rw [if_neg hyamlFormat]
      exact hyaml.roundTrip (hyaml.fix hdoc hkept)
  rw [hback] at hwritten
  cases hwritten
  refine ⟨fixQueryablesResponseSchema_corrected hdoc, ?_, hback⟩
  rw [fixDocument, fixQueryablesResponseSchema_idem hdoc]
  rfl

/-- Readers of the generated file get the document of pygeoapi, corrected. To correct it once more
changes nothing. -/
theorem generateOpenapiDocument_corrected (upstream : String → Except PyError CacheFile)
    (yamlRoundTrip : PyVal → Except PyError PyVal) (P : PyVal → Prop)
    (hyaml : Durable yamlRoundTrip P) (outputFormat : String) (raw : PyVal)
    (hraw : upstream outputFormat = .ok (.ok raw))
    (hkept : if outputFormat = "json" then JsonNative raw else P raw) (content : PyVal)
    (hgenerated : generateOpenapiDocument upstream yamlRoundTrip outputFormat = .ok content) :
    Corrected raw content ∧
      generateOpenapiDocument (fun _ => .ok (.ok content)) yamlRoundTrip outputFormat =
        .ok content := by
  obtain ⟨hcorrected, hfixed, hback⟩ := generated_cases hyaml hraw hkept hgenerated
  refine ⟨hcorrected, ?_⟩
  rw [generateOpenapiDocument_eq rfl, hfixed]
  exact hback

/-- A document with two schemas. -/
def lakesDocument (queryables bbox : PyVal) : PyVal :=
  .dict [(.str "openapi", .str "3.0.2"), (.str "components", .dict
    [(.str "schemas", .dict [(.str "queryables", queryables), (.str "bbox", bbox)])])]

/-- The schema as pygeoapi wraps it. -/
def wrappedQueryables : PyVal :=
  .dict [(.str "type", .str "object"), (.str "required", .list [.str "queryables"])]

theorem lakesDocument_corrected :
    Corrected (lakesDocument wrappedQueryables (.dict []))
        (lakesDocument queryablesSchema (.dict [])) ∧
      generateOpenapiDocument
        (fun _ => .ok (.ok (lakesDocument queryablesSchema (.dict [])))) jsonRoundTrip "json" =
          .ok (lakesDocument queryablesSchema (.dict [])) :=
  generateOpenapiDocument_corrected
    (fun _ => .ok (.ok (lakesDocument wrappedQueryables (.dict [])))) jsonRoundTrip JsonNative
    durable_json "json" (lakesDocument wrappedQueryables (.dict [])) rfl
    (by rw [if_pos rfl]; rfl) _ rfl

end FastGeoApi
