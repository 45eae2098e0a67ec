import FastGeoApi.OpenApi.Effect
import FastGeoApi.OpenApi.Endpoints

/-!
# What a call leaves alone

Outside the security schemes and the schema for queryables the fields of a document stay as they
are, and so does all of an operation but its requirement and the responses that are added. On its
own result a call changes nothing.
-/

namespace FastGeoApi
open PyVal

/-! ## Fields -/

section
variable {path : List Step} {u v : PyVal}

theorem fixSchemas_look_other (h : ¬[.key "queryables"] <+: path) :
    (fixSchemas v).look path = v.look path := by
  cases v with
  | dict schemas =>
    rw [fixSchemas]
    split
    · rename_i hq
      cases path with
      | nil =>
        have hne : schemas.isEmpty = false := by
          cases schemas with
          | nil => cases hq
          | cons kv schemas => rfl
        rw [look_nil, look_nil, shape, shape, isEmpty_setItem, hne]
      | cons step path =>
        cases step with
        | index i => rfl
        | key key =>
          have hne : key ≠ "queryables" := by
            rintro rfl
            exact h ⟨path, rfl⟩
          rw [look_lookup, look_lookup, lookup_setItem_other hne]
    · rfl
  | _ => rfl

theorem fixSchemas_look_queryables (h : (v.look [.key "queryables"]).isSome = true) :
    (fixSchemas v).look (.key "queryables" :: path) = queryablesSchema.look path := by
  cases v with
  | dict schemas =>
    rw [look_key_isSome] at h
    rw [fixSchemas, if_pos h, look_key_of_get get_setItem_self]
  | _ => cases h

theorem fixSchemas_of_absent (h : v.look [.key "queryables"] = .none) : fixSchemas v = v := by
  cases v with
  | dict schemas =>
    have habsent : ((dict schemas).look [.key "queryables"]).isSome = _ := look_key_isSome
    rw [h] at habsent
    rw [fixSchemas, if_neg (habsent ▸ Bool.false_ne_true)]
  | _ => rfl

theorem fixSchemas_isSome :
    ((fixSchemas v).look [.key "queryables"]).isSome = (v.look [.key "queryables"]).isSome := by
  cases h : v.look [.key "queryables"] with
  | none => rw [fixSchemas_of_absent h, h]
  | some shape =>
    rw [fixSchemas_look_queryables (h ▸ rfl)]
    rfl

/-- Schemas that were corrected are not changed by another correction. -/
theorem fixSchemas_same (h : Same v (fixSchemas u)) : Same (fixSchemas v) v := by
  intro path
  by_cases hpath : [.key "queryables"] <+: path
  · obtain ⟨rest, rfl⟩ := hpath
    cases hq : v.look [.key "queryables"] with
    | none => rw [fixSchemas_of_absent hq]
    | some shape =>
      have hu : (u.look [.key "queryables"]).isSome = true := by
        rw [← fixSchemas_isSome, ← h, hq]
        rfl
      rw [List.singleton_append, fixSchemas_look_queryables (hq ▸ rfl), h,
        fixSchemas_look_queryables hu]
  · exact fixSchemas_look_other hpath

end

namespace EditedComponents
variable {S : PyVal} {items items' : List (PyKey × PyVal)}

theorem look_other (h : EditedComponents S items items') {path : List Step}
    (hschemes : ¬[.key "securitySchemes"] <+: path)
    (hqueryables : ¬[.key "schemas", .key "queryables"] <+: path) :
    (dict items').look path = (dict items).look path := by
  cases path with
  | nil => rw [look_nil, look_nil, shape, shape, h.isEmpty]
  | cons step path =>
    cases step with
    | index i => rfl
    | key key =>
      have hne : key ≠ "securitySchemes" := by
        rintro rfl
        exact hschemes ⟨path, rfl⟩
      by_cases hkey : key = "schemas"
      · subst hkey
        have hpath : ¬[.key "queryables"] <+: path := fun ⟨rest, hrest⟩ =>
          hqueryables ⟨rest, by rw [← hrest]; rfl⟩
        rw [look_key, look_key, h.schemas]
        cases PyVal.get items "schemas" with
        | none => rfl
        | some v => exact fixSchemas_look_other hpath
      · rw [look_lookup, look_lookup, h.others key hne hkey]

theorem queryables (h : EditedComponents S items items') :
    ((dict items').look [.key "schemas", .key "queryables"]).isSome =
      ((dict items).look [.key "schemas", .key "queryables"]).isSome := by
  rw [look_key, look_key, h.schemas]
  cases PyVal.get items "schemas" with
  | none => rfl
  | some v => exact fixSchemas_isSome

section
variable {again again' : List (PyKey × PyVal)}

theorem same_securitySchemes (h : EditedComponents S items items')
    (hagain : Same (dict again) (dict items')) (h' : EditedComponents S again again')
    (path : List Step) : (dict again').look (.key "securitySchemes" :: path) =
      (dict again).look (.key "securitySchemes" :: path) := by
  cases hempty : again.isEmpty with
  | true =>
    have hempty' := h'.isEmpty
    rw [hempty] at hempty'
    rw [List.isEmpty_iff.mp hempty, List.isEmpty_iff.mp hempty']
  | false =>
    have hshape := Shape.dict.inj (Option.some.inj (hagain []))
    have hne : items.isEmpty = false := by rw [← h.isEmpty, ← hshape, hempty]
    rw [hagain, look_key_of_get (h'.securitySchemes hempty),
      look_key_of_get (h.securitySchemes hne)]

theorem same_schemas (h : EditedComponents S items items')
    (hagain : Same (dict again) (dict items')) (h' : EditedComponents S again again')
    (path : List Step) : (dict again').look (.key "schemas" :: path) =
      (dict again).look (.key "schemas" :: path) := by
  rw [look_key, look_key, h'.schemas]
  cases hget : PyVal.get again "schemas" with
  | none => rfl
  | some v =>
    have hlook : ∀ path, v.look path = (dict items').look (.key "schemas" :: path) :=
      fun path => by rw [← hagain, look_key_of_get hget]
    cases hget' : PyVal.get items "schemas" with
    | none =>
      have hnone := hlook []
      rw [look_key, h.schemas, hget'] at hnone
      cases hnone
    | some u =>
      have hv : Same v (fixSchemas u) := fun path => by
        rw [hlook, look_key, h.schemas, hget']
        rfl
      exact fixSchemas_same hv path

/-- Components that were edited are not changed when they are edited again. -/
theorem same (h : EditedComponents S items items')
    (hagain : Same (dict again) (dict items')) (h' : EditedComponents S again again') :
    Same (dict again') (dict again) := by
  intro path
  cases path with
  | nil => rw [look_nil, look_nil, shape, shape, h'.isEmpty]
  | cons step path =>
    cases step with
    | index i => rfl
    | key key =>
      by_cases hschemes : key = "securitySchemes"
      · subst hschemes
        exact h.same_securitySchemes hagain h' path
      · by_cases hkey : key = "schemas"
        · subst hkey
          exact h.same_schemas hagain h' path
        · rw [look_lookup, look_lookup, h'.others key hschemes hkey]

end

end EditedComponents

/-! ## Operations -/

/-- The responses that a call sets on the operations of a method. -/
def Method.ownResponses : Method → List String
  | .options => ["401", "404"]
  | _ => ["401"]

structure OperationKept (m : Method) (op op' : Operation) : Prop where
  fields : op'.fields = op.fields
  responses : ∀ code, code ∉ m.ownResponses → op'.responses.get? code = op.responses.get? code

structure PathItemKept (item item' : PathItem) : Prop where
  fields : item'.fields = item.fields
  operations : ∀ m, Option.Rel (OperationKept m) (item.operation m) (item'.operation m)

theorem OperationKept.refl (m : Method) (op : Operation) : OperationKept m op op :=
  ⟨rfl, fun _ _ => rfl⟩

theorem secureOperation_kept {m : Method} {name : String}
    {updates : List (Dict ResponseOrReference)}
    (h : ∀ (responses : Dict ResponseOrReference) code, code ∉ m.ownResponses →
      (updates.foldl .update responses).get? code = responses.get? code) (op : Operation) :
    OperationKept m op (secureOperation name updates op) := by
  refine ⟨rfl, fun code hcode => ?_⟩
  rw [secureOperation]
  split
  · rfl
  · exact h op.responses code hcode

theorem get?_update_unauthorized_other {responses : Dict ResponseOrReference} {code : String}
    (h : code ≠ "401") : (responses.update unauthorized).get? code = responses.get? code := by
  rw [unauthorized, Dict.update_single, Dict.get?_set, if_neg h]

theorem get?_update_notFound_other {responses : Dict ResponseOrReference} {code : String}
    (h : code ≠ "404") : (responses.update notFound).get? code = responses.get? code := by
  rw [notFound, Dict.update_single, Dict.get?_set, if_neg h]

theorem optionRel_map {R : α → α → Prop} {f : α → α} (h : ∀ a, R a (f a)) (o : Option α) :
    Option.Rel R o (o.map f) := by
  cases o with
  | none => exact .none
  | some a => exact .some (h a)

theorem optionRel_refl {R : α → α → Prop} (h : ∀ a, R a a) (o : Option α) : Option.Rel R o o := by
  cases o with
  | none => exact .none
  | some a => exact .some (h a)

theorem securePathItem_kept (name : String) (item : PathItem) :
    PathItemKept item (securePathItem name item) := by
  refine ⟨rfl, fun m => ?_⟩
  cases m with
  | put | head | patch | trace => exact optionRel_refl (OperationKept.refl _) _
  | get | post | delete =>
    refine optionRel_map (secureOperation_kept fun responses code hcode => ?_) _
    exact get?_update_unauthorized_other fun h => hcode (List.mem_singleton.mpr h)
  | options =>
    refine optionRel_map (secureOperation_kept fun responses code hcode => ?_) _
    rw [Method.ownResponses, List.mem_cons, List.mem_singleton, not_or] at hcode
    rw [List.foldl_cons, List.foldl_cons, List.foldl_nil, get?_update_notFound_other hcode.2,
      get?_update_unauthorized_other hcode.1]

/-! ## The frame -/

/-- The fields that a call is there to change, and the paths, which are no field of their own. -/
def OwnField (path : List Step) : Prop :=
  [.key "paths"] <+: path ∨ [.key "components", .key "securitySchemes"] <+: path ∨
    [.key "components", .key "schemas", .key "queryables"] <+: path

/-- The result differs from the parsed document in what the call is there to change only. -/
structure ChangesOnly (openapi result : OpenAPI) : Prop where
  fields : ∀ path, ¬OwnField path → (dict result.fields).look path = (dict openapi.fields).look path
  /-- The schema for queryables is there exactly when it was there before. -/
  queryables :
    ((dict result.fields).look [.key "components", .key "schemas", .key "queryables"]).isSome =
      ((dict openapi.fields).look [.key "components", .key "schemas", .key "queryables"]).isSome
  added : ∀ key, (result.paths.get? key).isSome = true → (openapi.paths.get? key).isSome = true
  kept : ∀ key item, openapi.paths.get? key = some item → ¬NamesOpenapi key →
    ∃ item', result.paths.get? key = some item' ∧ PathItemKept item item'
  /-- A path that names the endpoint is left out or left alone. -/
  endpoint : ∀ key item', result.paths.get? key = some item' → NamesOpenapi key →
    openapi.paths.get? key = some item'

section
variable {cfg : Configuration} {securitySchemes : List SecurityScheme} {openapi result : OpenAPI}

theorem AugmentEffect.look_other (h : AugmentEffect cfg securitySchemes openapi result)
    {path : List Step} (hpath : ¬OwnField path) :
    (dict result.fields).look path = (dict openapi.fields).look path := by
  obtain ⟨items, items', hitems, hedited, hlook⟩ := h.components
  cases path with
  | nil =>
    have hsome : (PyVal.get result.fields "components").isSome = true := by
      rw [← look_key_isSome, hlook]
      rfl
    have hne : ∀ {fields : List (PyKey × PyVal)}, (PyVal.get fields "components").isSome = true →
        fields.isEmpty = false := by
      intro fields hfields
      cases fields with
      | nil => cases hfields
      | cons kv fields => rfl
    rw [look_nil, look_nil, shape, shape, hne hsome, hne (hitems ▸ rfl)]
  | cons step path =>
    cases step with
    | index i => rfl
    | key key =>
      by_cases hkey : key = "components"
      · subst hkey
        rw [hlook, look_key_of_get hitems]
        refine hedited.look_other (fun ⟨rest, hrest⟩ => hpath ?_) fun ⟨rest, hrest⟩ => hpath ?_
        · exact .inr (.inl ⟨rest, by rw [← hrest]; rfl⟩)
        · exact .inr (.inr ⟨rest, by rw [← hrest]; rfl⟩)
      · refine h.others key path (fun hpaths => hpath (.inl ?_)) hkey
        exact ⟨path, hpaths ▸ rfl⟩

theorem AugmentEffect.changesOnly (h : AugmentEffect cfg securitySchemes openapi result) :
    ChangesOnly openapi result where
  fields path hpath := h.look_other hpath
  queryables := by
    obtain ⟨items, items', hitems, hedited, hlook⟩ := h.components
    rw [hlook, look_key_of_get hitems, hedited.queryables]
  added key hkey := by
    rw [h.paths] at hkey
    split at hkey
    · exact hkey
    · exact (isSome_securedPaths.mp hkey).2
  kept key item hitem hkey := by
    have hsecured : (securedPaths (schemeName cfg) openapi.paths).get? key =
        some (securePathItem (schemeName cfg) item) := get?_securedPaths_of_not hkey hitem
    rw [h.paths]
    split
    · rename_i hempty
      rw [Dict.isEmpty_iff.mp hempty] at hsecured
      cases hsecured
    · exact ⟨_, hsecured, securePathItem_kept _ item⟩
  endpoint key item' hitem' hkey := by
    rw [h.paths] at hitem'
    split at hitem'
    · exact hitem'
    · exact absurd hkey (not_namesOpenapi (get?_securedPaths.mp hitem').1)

end

/-- A call changes what it is for, and nothing else. -/
theorem augmentSecurity_changesOnly {p : Pydantic} {types : ModelTypes} {cfg : Configuration}
    {doc : String} {securitySchemes : List SecurityScheme} {openapi result : OpenAPI}
    (hp : p.Lossless types) (hschemes : ∀ scheme ∈ securitySchemes, types.scheme scheme.dumped)
    (hdoc : p.validateJson doc = .ok openapi)
    (h : augmentSecurity p cfg doc securitySchemes = .ok result) : ChangesOnly openapi result :=
  (augmentSecurity_augmented hp hschemes hdoc h).changesOnly

theorem roads_changesOnly :
    augmentSecurity roadsPydantic lakesConfiguration roadsText [bearerScheme] =
      .ok roadsAugmented ∧ ChangesOnly roadsOpenAPI roadsAugmented :=
  ⟨roads_augmented, augmentSecurity_changesOnly roadsPydantic_lossless bearerScheme_valid
    roads_parsed roads_augmented⟩

/-! ## Once more -/

theorem Dict.ext_items {d e : Dict α} (h : d.items = e.items) : d = e := by
  cases d
  cases e
  cases h
  rfl

theorem secureOperation_idem (name : String) {updates : List (Dict ResponseOrReference)}
    (h : ∀ responses : Dict ResponseOrReference, updates.foldl .update
      (updates.foldl .update responses) = updates.foldl .update responses) (op : Operation) :
    secureOperation name updates (secureOperation name updates op) =
      secureOperation name updates op := by
  cases hempty : op.responses.isEmpty with
  | true => simp [secureOperation, hempty]
  | false =>
    simp only [secureOperation, hempty, Bool.false_eq_true, if_false, h, ite_self]

theorem Dict.set_of_get? {d : Dict α} {key : String} {value : α} (h : d.get? key = some value) :
    d.set key value = d :=
  Dict.ext_items (setItem_of_lookup h)

theorem update_unauthorized_idem (responses : Dict ResponseOrReference) :
    [unauthorized].foldl .update ([unauthorized].foldl .update responses) =
      [unauthorized].foldl .update responses := by
  simp only [List.foldl_cons, List.foldl_nil, unauthorized, Dict.update_single]
  refine Dict.set_of_get? ?_
  rw [Dict.get?_set, if_pos rfl]

theorem update_notFound_idem (responses : Dict ResponseOrReference) :
    [unauthorized, notFound].foldl .update ([unauthorized, notFound].foldl .update responses) =
      [unauthorized, notFound].foldl .update responses := by
  simp only [List.foldl_cons, List.foldl_nil]
  have h401 : (((responses.update unauthorized).update notFound).update unauthorized) =
      (responses.update unauthorized).update notFound := by
    refine Dict.set_of_get? ?_
    rw [get?_update_notFound_other (by decide), unauthorized, Dict.update_single, Dict.get?_set,
      if_pos rfl]
  have h404 : ((responses.update unauthorized).update notFound).update notFound =
      (responses.update unauthorized).update notFound := by
    refine Dict.set_of_get? ?_
    rw [notFound, Dict.update_single, Dict.get?_set, if_pos rfl]
  rw [h401, h404]

theorem securePathItem_idem (name : String) (item : PathItem) :
    securePathItem name (securePathItem name item) = securePathItem name item := by
  have hunauthorized := fun op => secureOperation_idem name update_unauthorized_idem op
  have hnotFound := fun op => secureOperation_idem name update_notFound_idem op
  simp only [securePathItem, Option.map_map, Function.comp_def, hunauthorized, hnotFound]

theorem securedPaths_idem (name : String) (paths : Dict PathItem) :
    securedPaths name (securedPaths name paths) = securedPaths name paths := by
  refine Dict.ext_items ?_
  simp only [securedPaths, Dict.items_collect, List.filterMap_filterMap]
  refine List.filterMap_congr fun kv _ => ?_
  cases hkey : Str.isIn "openapi" kv.1 with
  | true => simp
  | false => simp [hkey, securePathItem_idem]

/-- The same document: equal paths, and fields that are equal as dicts are. -/
structure SameDocument (a b : OpenAPI) : Prop where
  paths : a.paths = b.paths
  fields : ∀ (key : PyKey) path, key ≠ "paths" →
    (dict a.fields).look (.key key :: path) = (dict b.fields).look (.key key :: path)

section
variable {cfg : Configuration} {securitySchemes : List SecurityScheme}
  {openapi first second : OpenAPI}

/-- The components of a result are a dict again. -/
theorem AugmentEffect.result_components (h : AugmentEffect cfg securitySchemes openapi first) :
    ∃ items, PyVal.get first.fields "components" = some (.dict items) := by
  obtain ⟨items, items', _, _, hlook⟩ := h.components
  have hshape := hlook []
  rw [look_key, look_nil] at hshape
  cases hget : PyVal.get first.fields "components" with
  | none =>
    rw [hget] at hshape
    cases hshape
  | some v =>
    rw [hget] at hshape
    obtain ⟨items, rfl, _⟩ := exists_dict_of_shape (Option.some.inj hshape)
    exact ⟨items, rfl⟩

theorem AugmentEffect.again (h : AugmentEffect cfg securitySchemes openapi first)
    (h' : AugmentEffect cfg securitySchemes first second) : SameDocument second first where
  paths := by
    rw [h'.paths]
    split
    · rfl
    · rename_i hsome
      rw [h.paths] at hsome ⊢
      split
      · rename_i hempty
        rw [if_pos hempty] at hsome
        exact absurd hempty hsome
      · exact securedPaths_idem _ _
  fields key path hpaths := by
    by_cases hkey : key = "components"
    · subst hkey
      obtain ⟨_, items', _, hedited, hlook⟩ := h.components
      obtain ⟨again, again', hagain, hedited', hlook'⟩ := h'.components
      have hsame : Same (dict again) (dict items') := fun path => by
        rw [← hlook, look_key_of_get hagain]
      rw [hlook', look_key_of_get hagain]
      exact hedited.same hsame hedited' path
    · exact h'.others key path hpaths hkey

end

/-- A call on the text of its own result returns that result. -/
theorem augmentSecurity_idempotent {p : Pydantic} {types : ModelTypes} {cfg : Configuration}
    {doc : String} {securitySchemes : List SecurityScheme} {first : OpenAPI}
    (hp : p.Lossless types) (hschemes : ∀ scheme ∈ securitySchemes, types.scheme scheme.dumped)
    (h : augmentSecurity p cfg doc securitySchemes = .ok first)
    (hback : p.validateJson (p.dumpJson first) = .ok first) :
    ∃ second, augmentSecurity p cfg (p.dumpJson first) securitySchemes = .ok second ∧
      SameDocument second first := by
  obtain ⟨openapi, hdoc, _⟩ := augmentSecurity_eq_ok.mp h
  have haugmented := augmentSecurity_augmented hp hschemes hdoc h
  obtain ⟨items, hitems⟩ := haugmented.result_components
  obtain ⟨second, hsecond, hagain⟩ := augmentSecurity_returns cfg hp hback hitems hschemes
  exact ⟨second, hsecond, haugmented.again hagain⟩

theorem roads_idempotent :
    ∃ second, augmentSecurity roadsPydantic lakesConfiguration
        (roadsPydantic.dumpJson roadsAugmented) [bearerScheme] =
      .ok second ∧ SameDocument second roadsAugmented :=
  augmentSecurity_idempotent roadsPydantic_lossless bearerScheme_valid roads_augmented
    roadsAugmented_parsed

end FastGeoApi
