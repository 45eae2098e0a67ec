import FastGeoApi.OpenApi.Frame

/-!
# Security schemes and the requirements that name them

`augment_security` writes every scheme under the one name made from the configuration, in place of
the schemes that were there, and only where there are components. The requirements that it sets
name that scheme; the others stay as they were.
-/

namespace FastGeoApi
open PyVal

/-! ## Definitions -/

/-- The document defines a security scheme equal to this one. -/
def Defines (d : OpenAPI) (scheme : SecurityScheme) : Prop :=
  ∃ (name : String) (v : PyVal),
    (dict d.fields).at? [.key "components", .key "securitySchemes", .key name] = some v ∧
    Same v scheme.dumped

/-- The document defines a security scheme of the name. -/
def DefinesName (d : OpenAPI) (name : String) : Prop :=
  ((dict d.fields).look [.key "components", .key "securitySchemes", .key name]).isSome = true

theorem PyVal.look_append {u v : PyVal} {path : List Step} (h : u.at? path = some v)
    (rest : List Step) : u.look (path ++ rest) = v.look rest := by
  rw [look, at?, List.foldlM_append, ← at?, h]
  rfl

theorem PyVal.at?_of_look {u : PyVal} {path : List Step} (h : (u.look path).isSome = true) :
    ∃ v, u.at? path = some v := by
  rw [look, Option.isSome_map] at h
  exact Option.isSome_iff_exists.mp h

section
variable {cfg : Configuration} {securitySchemes : List SecurityScheme}
  {openapi result : OpenAPI} {items : List (PyKey × PyVal)} {name : String}

/-- Where there are components, the last scheme is defined under the configured name, and nothing
else is. -/
theorem AugmentEffect.look_scheme (h : AugmentEffect cfg securitySchemes openapi result)
    (hsupported : ∀ scheme ∈ securitySchemes, Supported scheme)
    (hitems : PyVal.get openapi.fields "components" = some (.dict items))
    (hne : items.isEmpty = false) (name : String) (path : List Step) :
    (dict result.fields).look
        ([.key "components", .key "securitySchemes", .key name] ++ path) =
      if name = schemeName cfg then securitySchemes.getLast?.bind (·.dumped.look path)
      else .none := by
  obtain ⟨items₀, items', hitems₀, hedited, hlook⟩ := h.components
  cases hitems.symm.trans hitems₀
  have hget := hedited.securitySchemes hne
  rw [securitySchemesOf_supported hsupported] at hget
  rw [List.cons_append, hlook, List.cons_append, look_key_of_get hget, List.cons_append,
    List.nil_append, look_key]
  cases securitySchemes.getLast? with
  | none => simp
  | some last =>
    rw [Option.map_some, Option.toList_some, PyVal.get_cons, PyVal.get_nil]
    by_cases hname : name = schemeName cfg
    · rw [if_pos (congrArg PyKey.str hname.symm), if_pos hname]
      rfl
    · rw [if_neg fun heq => hname (PyKey.str.inj heq).symm, if_neg hname]
      rfl

theorem AugmentEffect.defines_iff (h : AugmentEffect cfg securitySchemes openapi result)
    (hsupported : ∀ scheme ∈ securitySchemes, Supported scheme)
    (hitems : PyVal.get openapi.fields "components" = some (.dict items))
    (hne : items.isEmpty = false) {scheme : SecurityScheme} :
    Defines result scheme ↔
      ∃ last, securitySchemes.getLast? = some last ∧ Same last.dumped scheme.dumped := by
  have hlook := h.look_scheme hsupported hitems hne
  refine ⟨fun ⟨name, v, hv, hsame⟩ => ?_, fun ⟨last, hlast, hsame⟩ => ?_⟩
  · have hsome := hlook name []
    rw [PyVal.look_append hv, look_nil] at hsome
    by_cases hname : name = schemeName cfg
    · cases hlast : securitySchemes.getLast? with
      | none =>
        rw [hlast, if_pos hname] at hsome
        cases hsome
      | some last =>
        refine ⟨last, rfl, Same.trans (fun path => ?_) hsame⟩
        rw [← PyVal.look_append hv, hlook, if_pos hname, hlast]
        rfl
    · rw [if_neg hname] at hsome
      cases hsome
  · have hlook' : ∀ path, (dict result.fields).look
        ([.key "components", .key "securitySchemes", .key (schemeName cfg)] ++ path) =
        last.dumped.look path := fun path => by
      rw [hlook, if_pos rfl, hlast]
      rfl
    have hend := hlook' []
    rw [List.append_nil, look_nil] at hend
    obtain ⟨v, hv⟩ := PyVal.at?_of_look (Option.isSome_iff_exists.mpr ⟨_, hend⟩)
    refine ⟨_, v, hv, Same.trans (fun path => ?_) hsame⟩
    rw [← PyVal.look_append hv, hlook']

/-- All schemes are defined exactly when they are one and the same. -/
theorem AugmentEffect.defines_all_iff (h : AugmentEffect cfg securitySchemes openapi result)
    (hsupported : ∀ scheme ∈ securitySchemes, Supported scheme)
    (hitems : PyVal.get openapi.fields "components" = some (.dict items))
    (hne : items.isEmpty = false) :
    (∀ scheme ∈ securitySchemes, Defines result scheme) ↔
      ∀ scheme ∈ securitySchemes, ∀ other ∈ securitySchemes, Same scheme.dumped other.dumped := by
  simp only [h.defines_iff hsupported hitems hne]
  refine ⟨fun hdefined scheme hscheme other hother => ?_, fun hsame scheme hscheme => ?_⟩
  · obtain ⟨last, hlast, hlastScheme⟩ := hdefined scheme hscheme
    obtain ⟨last', hlast', hlastOther⟩ := hdefined other hother
    cases hlast.symm.trans hlast'
    exact hlastScheme.symm.trans hlastOther
  · have hlast := List.getLast?_eq_some_getLast (List.ne_nil_of_mem hscheme)
    exact ⟨_, hlast, hsame _ (List.mem_of_getLast? hlast) scheme hscheme⟩

end

/-- Of a list of supported schemes, all are in the result exactly when they are equal. -/
theorem augmentSecurity_definesAll_iff {p : Pydantic} {types : ModelTypes} {cfg : Configuration}
    {doc : String} {securitySchemes : List SecurityScheme} {openapi : OpenAPI}
    {items : List (PyKey × PyVal)} (hp : p.Lossless types)
    (hschemes : ∀ scheme ∈ securitySchemes, types.scheme scheme.dumped)
    (hsupported : ∀ scheme ∈ securitySchemes, Supported scheme)
    (hdoc : p.validateJson doc = .ok openapi)
    (hitems : PyVal.get openapi.fields "components" = some (.dict items))
    (hne : items.isEmpty = false) :
    ∃ result, augmentSecurity p cfg doc securitySchemes = .ok result ∧
      ((∀ scheme ∈ securitySchemes, Defines result scheme) ↔
        ∀ scheme ∈ securitySchemes, ∀ other ∈ securitySchemes,
          Same scheme.dumped other.dumped) := by
  obtain ⟨result, hresult, haugmented⟩ := augmentSecurity_returns cfg hp hdoc hitems hschemes
  exact ⟨result, hresult, haugmented.defines_all_iff hsupported hitems hne⟩

/-- What `create_app` passes with a key set, in this order before `bearerScheme`. -/
def oauth2Scheme : SecurityScheme where
  type := "oauth2"
  dumped := .dict [(.str "type", .str "oauth2"), (.str "name", .str "pygeoapi"),
    (.str "flows", .dict [(.str "clientCredentials", .dict [
      (.str "scopes", .dict []), (.str "tokenUrl", .str "https://idp.example.com/token")])])]

theorem jwksSchemes_valid :
    ∀ scheme ∈ [oauth2Scheme, bearerScheme], roadsTypes.scheme scheme.dumped ∧
      Supported scheme := by
  intro scheme hscheme
  rcases List.mem_cons.mp hscheme with rfl | hscheme
  · exact ⟨⟨_, rfl⟩, by decide⟩
  · rw [List.mem_singleton.mp hscheme]
    exact ⟨⟨_, rfl⟩, by decide⟩

theorem jwksSchemes_definesAll_iff :
    ∃ result, augmentSecurity roadsPydantic lakesConfiguration roadsText
        [oauth2Scheme, bearerScheme] = .ok result ∧
      ((∀ scheme ∈ [oauth2Scheme, bearerScheme], Defines result scheme) ↔
        ∀ scheme ∈ [oauth2Scheme, bearerScheme], ∀ other ∈ [oauth2Scheme, bearerScheme],
          Same scheme.dumped other.dumped) :=
  augmentSecurity_definesAll_iff roadsPydantic_lossless
    (fun scheme hscheme => (jwksSchemes_valid scheme hscheme).1)
    (fun scheme hscheme => (jwksSchemes_valid scheme hscheme).2) roads_parsed roads_components rfl

/-- The scheme of the token endpoint is lost. -/
theorem jwksSchemes_lost :
    ∃ result, augmentSecurity roadsPydantic lakesConfiguration roadsText
        [oauth2Scheme, bearerScheme] = .ok result ∧
      ¬Defines result oauth2Scheme ∧
      ¬∀ scheme ∈ [oauth2Scheme, bearerScheme], Defines result scheme := by
  obtain ⟨result, hresult, haugmented⟩ := augmentSecurity_returns lakesConfiguration
    roadsPydantic_lossless roads_parsed roads_components
    fun scheme hscheme => (jwksSchemes_valid scheme hscheme).1
  have hlost : ¬Defines result oauth2Scheme := by
    rw [haugmented.defines_iff (fun scheme hscheme => (jwksSchemes_valid scheme hscheme).2)
      roads_components rfl]
    rintro ⟨last, hlast, hsame⟩
    cases hlast
    have htype := Shape.leaf.inj (Option.some.inj (hsame [.key "type"]))
    exact absurd (PyVal.str.inj htype) (by decide)
  exact ⟨result, hresult, hlost, fun h => hlost (h _ List.mem_cons_self)⟩

/-! ## Requirements -/

def Method.field : Method → String
  | .get => "get"
  | .put => "put"
  | .post => "post"
  | .delete => "delete"
  | .options => "options"
  | .head => "head"
  | .patch => "patch"
  | .trace => "trace"

/-- Where the operations of callbacks are, below an operation or below the components. -/
inductive InCallback : List Step → Prop where
  | here (callback expression : String) (m : Method) :
    InCallback [.key "callbacks", .key callback, .key expression, .key m.field]
  | inside (callback expression : String) (m : Method) (h : InCallback position) :
    InCallback
      ([.key "callbacks", .key callback, .key expression, .key m.field] ++ position)

/-- A requirement at the position names the scheme. -/
def MentionedAt (fields : List (PyKey × PyVal)) (position : List Step) (name : String) : Prop :=
  ∃ i, ((dict fields).look (position ++ [.key "security", .index i, .key name])).isSome = true

def Operation.Requires (op : Operation) (name : String) : Prop :=
  ∃ requirements, op.security = some requirements ∧
    ∃ requirement ∈ requirements, (requirement.get? name).isSome = true

/-- A security requirement of the document or of one of its operations names the scheme. -/
inductive Mentions (d : OpenAPI) (name : String) : Prop where
  | document (h : MentionedAt d.fields [] name)
  | operation (hitem : d.paths.get? key = some item) (hop : item.operation m = some op)
      (h : op.Requires name)
  | callback (hitem : d.paths.get? key = some item) (hop : item.operation m = some op)
      (hposition : InCallback position) (h : MentionedAt op.fields position name)
  | component (hposition : InCallback position)
      (h : MentionedAt d.fields (.key "components" :: position) name)

def NoDangling (d : OpenAPI) : Prop := ∀ name, Mentions d name → DefinesName d name

/-- A call keeps the path: its key does not contain `openapi`, or every key does. -/
def KeepsPath (d : OpenAPI) (key : String) : Prop :=
  NamesOpenapi key → ∀ other, (d.paths.get? other).isSome = true → NamesOpenapi other

/-- The mentions that a call leaves as they are. -/
inductive KeepsMention (d : OpenAPI) (name : String) : Prop where
  | document (h : MentionedAt d.fields [] name)
  | operation (hitem : d.paths.get? key = some item) (hkept : KeepsPath d key)
      (hop : item.operation m = some op) (huntouched : m.Handled → NamesOpenapi key)
      (h : op.Requires name)
  | callback (hitem : d.paths.get? key = some item) (hkept : KeepsPath d key)
      (hop : item.operation m = some op) (hposition : InCallback position)
      (h : MentionedAt op.fields position name)
  | component (hposition : InCallback position)
      (h : MentionedAt d.fields (.key "components" :: position) name)

/-- Some operation gets the requirement of the configured scheme. -/
def SecuresOperation (d : OpenAPI) : Prop :=
  ∃ key item m op, d.paths.get? key = some item ∧ ¬NamesOpenapi key ∧ m.Handled ∧
    item.operation m = some op

/-- What becomes of an operation of a path that is kept. -/
inductive Becomes (name key : String) (m : Method) (op : Operation) : Operation → Prop where
  | untouched (h : m.Handled → NamesOpenapi key) : Becomes name key m op op
  | secured (h : m.Handled) (hkey : ¬NamesOpenapi key)
      (updates : List (Dict ResponseOrReference)) :
    Becomes name key m op (secureOperation name updates op)

theorem securePathItem_becomes {name key : String} (hkey : ¬NamesOpenapi key) (item : PathItem)
    (m : Method) : Option.Rel (Becomes name key m) (item.operation m)
      ((securePathItem name item).operation m) := by
  cases m with
  | put | head | patch | trace => exact optionRel_refl (fun op => .untouched False.elim) _
  | get | post | delete | options =>
    refine optionRel_map (fun op => .secured ?_ hkey _) _
    exact trivial

section
variable {cfg : Configuration} {securitySchemes : List SecurityScheme}
  {openapi result : OpenAPI} {items : List (PyKey × PyVal)} {name key : String}

/-- The operations of the result are those of the paths that are kept. -/
theorem AugmentEffect.operations (h : AugmentEffect cfg securitySchemes openapi result)
    (hkept : KeepsPath openapi key) :
    Option.Rel (fun item item' => ∀ m, Option.Rel (Becomes (schemeName cfg) key m)
      (item.operation m) (item'.operation m)) (openapi.paths.get? key)
      (result.paths.get? key) := by
  rw [h.paths]
  split
  · rename_i hempty
    have hall := securedPaths_isEmpty_iff.mp hempty
    cases hitem : openapi.paths.get? key with
    | none => exact .none
    | some item =>
      have hkey := hall key (hitem ▸ rfl)
      exact .some fun m => optionRel_refl (fun op => .untouched fun _ => hkey) _
  · rename_i hsome
    have hkey : ¬NamesOpenapi key := fun hkey =>
      hsome (securedPaths_isEmpty_iff.mpr (hkept hkey))
    cases hitem : openapi.paths.get? key with
    | none =>
      have hnone : (securedPaths (schemeName cfg) openapi.paths).get? key = .none := by
        rw [Option.eq_none_iff_forall_ne_some]
        intro item' hitem'
        obtain ⟨_, item, hitem', _⟩ := get?_securedPaths.mp hitem'
        rw [hitem] at hitem'
        cases hitem'
      rw [hnone]
      exact .none
    | some item =>
      rw [get?_securedPaths_of_not hkey hitem]
      exact .some fun m => securePathItem_becomes hkey item m

theorem AugmentEffect.keepsPath (h : AugmentEffect cfg securitySchemes openapi result)
    {item' : PathItem} (hitem' : result.paths.get? key = some item') : KeepsPath openapi key := by
  rw [h.paths] at hitem'
  split at hitem'
  · rename_i hempty
    exact fun _ => securedPaths_isEmpty_iff.mp hempty
  · exact fun hkey => absurd hkey (not_namesOpenapi (get?_securedPaths.mp hitem').1)

/-- An operation of the result, traced back. -/
theorem AugmentEffect.operation_of_result (h : AugmentEffect cfg securitySchemes openapi result)
    {item' : PathItem} {m : Method} {op' : Operation}
    (hitem' : result.paths.get? key = some item') (hop' : item'.operation m = some op') :
    ∃ item op, openapi.paths.get? key = some item ∧ KeepsPath openapi key ∧
      item.operation m = some op ∧ Becomes (schemeName cfg) key m op op' := by
  have hkept := h.keepsPath hitem'
  have hrel := h.operations hkept
  rw [hitem'] at hrel
  generalize hitem : openapi.paths.get? key = o at hrel
  cases hrel with
  | some hitems =>
    have hops := hitems m
    rw [hop'] at hops
    generalize hop : PathItem.operation _ m = o at hops
    cases hops with
    | some hbecomes => exact ⟨_, _, rfl, hkept, hop, hbecomes⟩

/-- An operation of a path that is kept, traced on. -/
theorem AugmentEffect.operation_in_result (h : AugmentEffect cfg securitySchemes openapi result)
    {item : PathItem} {m : Method} {op : Operation}
    (hitem : openapi.paths.get? key = some item) (hkept : KeepsPath openapi key)
    (hop : item.operation m = some op) :
    ∃ item' op', result.paths.get? key = some item' ∧ item'.operation m = some op' ∧
      Becomes (schemeName cfg) key m op op' := by
  have hrel := h.operations hkept
  rw [hitem] at hrel
  generalize hitem' : result.paths.get? key = o at hrel
  cases hrel with
  | some hitems =>
    have hops := hitems m
    rw [hop] at hops
    generalize hop' : PathItem.operation _ m = o at hops
    cases hops with
    | some hbecomes => exact ⟨_, _, rfl, hop', hbecomes⟩

theorem secureOperation_requires {updates : List (Dict ResponseOrReference)} {op : Operation}
    {own : String} : (secureOperation own updates op).Requires name ↔ name = own := by
  refine ⟨?_, fun hname => ⟨_, rfl, _, List.mem_singleton_self _, ?_⟩⟩
  · rintro ⟨requirements, hrequirements, requirement, hmem, hname⟩
    cases hrequirements
    rw [List.mem_singleton.mp hmem, Dict.single, Dict.get?, List.lookup_cons] at hname
    by_contra hne
    rw [beq_eq_false_iff_ne.mpr hne] at hname
    cases hname
  · rw [hname, Dict.get?_single, Option.isSome_some]

theorem Becomes.fields {own : String} {m : Method} {op op' : Operation}
    (h : Becomes own key m op op') : op'.fields = op.fields := by
  cases h with
  | untouched => rfl
  | secured => rfl

theorem InCallback.head {position : List Step} (h : InCallback position) :
    ∃ rest, position = .key "callbacks" :: rest := by
  cases h with
  | here | inside => exact ⟨_, rfl⟩

theorem AugmentEffect.mentionedAt (h : AugmentEffect cfg securitySchemes openapi result)
    {position : List Step} (hposition : ∀ rest, ¬OwnField (position ++ rest)) :
    MentionedAt result.fields position name ↔ MentionedAt openapi.fields position name :=
  exists_congr fun i => by rw [h.look_other (hposition _)]

theorem not_ownField_security (rest : List Step) : ¬OwnField (.key "security" :: rest) := by
  simp [OwnField]

theorem not_ownField_callback {position : List Step} (h : InCallback position)
    (rest : List Step) : ¬OwnField ((.key "components" :: position) ++ rest) := by
  obtain ⟨tail, rfl⟩ := h.head
  simp [OwnField]

theorem AugmentEffect.mentionedAt_document
    (h : AugmentEffect cfg securitySchemes openapi result) :
    MentionedAt result.fields [] name ↔ MentionedAt openapi.fields [] name :=
  exists_congr fun i => by rw [List.nil_append, h.look_other (not_ownField_security _)]

theorem AugmentEffect.mentions_of_result (h : AugmentEffect cfg securitySchemes openapi result)
    (hmentions : Mentions result name) :
    KeepsMention openapi name ∨ name = schemeName cfg ∧ SecuresOperation openapi := by
  cases hmentions with
  | document hm => exact .inl (.document (h.mentionedAt_document.mp hm))
  | component hposition hm =>
    exact .inl (.component hposition
      ((h.mentionedAt (not_ownField_callback hposition)).mp hm))
  | callback hitem' hop' hposition hm =>
    obtain ⟨item, op, hitem, hkept, hop, hbecomes⟩ := h.operation_of_result hitem' hop'
    rw [hbecomes.fields] at hm
    exact .inl (.callback hitem hkept hop hposition hm)
  | operation hitem' hop' hm =>
    obtain ⟨item, op, hitem, hkept, hop, hbecomes⟩ := h.operation_of_result hitem' hop'
    cases hbecomes with
    | untouched huntouched => exact .inl (.operation hitem hkept hop huntouched hm)
    | secured hhandled hkey =>
      exact .inr ⟨secureOperation_requires.mp hm, _, item, _, op, hitem, hkey, hhandled, hop⟩

theorem AugmentEffect.mentions_of_keeps (h : AugmentEffect cfg securitySchemes openapi result)
    (hkeeps : KeepsMention openapi name) : Mentions result name := by
  cases hkeeps with
  | document hm => exact .document (h.mentionedAt_document.mpr hm)
  | component hposition hm =>
    exact .component hposition ((h.mentionedAt (not_ownField_callback hposition)).mpr hm)
  | callback hitem hkept hop hposition hm =>
    obtain ⟨item', op', hitem', hop', hbecomes⟩ := h.operation_in_result hitem hkept hop
    exact .callback hitem' hop' hposition (hbecomes.fields ▸ hm)
  | operation hitem hkept hop huntouched hm =>
    obtain ⟨item', op', hitem', hop', hbecomes⟩ := h.operation_in_result hitem hkept hop
    cases hbecomes with
    | untouched => exact .operation hitem' hop' hm
    | secured hhandled hkey => exact absurd (huntouched hhandled) hkey

theorem AugmentEffect.mentions_own (h : AugmentEffect cfg securitySchemes openapi result)
    (hsecures : SecuresOperation openapi) : Mentions result (schemeName cfg) := by
  obtain ⟨key, item, m, op, hitem, hkey, hhandled, hop⟩ := hsecures
  have hkept : KeepsPath openapi key := fun hnames => absurd hnames hkey
  obtain ⟨item', op', hitem', hop', hbecomes⟩ := h.operation_in_result hitem hkept hop
  refine .operation hitem' hop' ?_
  cases hbecomes with
  | untouched huntouched => exact absurd (huntouched hhandled) hkey
  | secured => exact secureOperation_requires.mpr rfl

/-- The result mentions what was left in it and the configured scheme. -/
theorem AugmentEffect.mentions_iff (h : AugmentEffect cfg securitySchemes openapi result) :
    Mentions result name ↔
      KeepsMention openapi name ∨ name = schemeName cfg ∧ SecuresOperation openapi := by
  refine ⟨h.mentions_of_result, fun hkeeps => ?_⟩
  rcases hkeeps with hkeeps | ⟨rfl, hsecures⟩
  · exact h.mentions_of_keeps hkeeps
  · exact h.mentions_own hsecures

theorem AugmentEffect.definesName_iff (h : AugmentEffect cfg securitySchemes openapi result)
    (hsupported : ∀ scheme ∈ securitySchemes, Supported scheme) (hschemes : securitySchemes ≠ [])
    (hitems : PyVal.get openapi.fields "components" = some (.dict items)) :
    DefinesName result name ↔ items.isEmpty = false ∧ name = schemeName cfg := by
  cases hempty : items.isEmpty with
  | true =>
    obtain ⟨items₀, items', hitems₀, hedited, hlook⟩ := h.components
    cases hitems.symm.trans hitems₀
    have hnil := hedited.isEmpty
    rw [hempty] at hnil
    rw [DefinesName, hlook, List.isEmpty_iff.mp hnil]
    simp [look_key]
  | false =>
    have hlook := h.look_scheme hsupported hitems hempty name []
    rw [List.append_nil] at hlook
    rw [DefinesName, hlook, List.getLast?_eq_some_getLast hschemes]
    by_cases hname : name = schemeName cfg
    · simp [hname, look_nil]
    · simp [hname]

end

/-- What a document must have for its requirements to be defined in the result: components, and
mentions of the configured scheme only; none at all where the components are empty. -/
structure Definable (cfg : Configuration) (openapi : OpenAPI) : Prop where
  components : ∃ items, PyVal.get openapi.fields "components" = some (.dict items) ∧
    (items.isEmpty = false → ∀ name, KeepsMention openapi name → name = schemeName cfg) ∧
    (items.isEmpty = true → (∀ name, ¬KeepsMention openapi name) ∧ ¬SecuresOperation openapi)

theorem AugmentEffect.noDangling_iff {cfg : Configuration} {securitySchemes : List SecurityScheme}
    {openapi result : OpenAPI} (h : AugmentEffect cfg securitySchemes openapi result)
    (hsupported : ∀ scheme ∈ securitySchemes, Supported scheme) (hschemes : securitySchemes ≠ []) :
    NoDangling result ↔ Definable cfg openapi := by
  obtain ⟨items, _, hitems, _⟩ := h.components
  rw [NoDangling]
  simp only [h.mentions_iff, h.definesName_iff hsupported hschemes hitems]
  refine ⟨fun hall => ⟨items, hitems, fun _ name hkeeps => (hall name (.inl hkeeps)).2,
    fun hempty => ⟨fun name hkeeps => ?_, fun hsecures => ?_⟩⟩, ?_⟩
  · rw [(hall name (.inl hkeeps)).1] at hempty
    cases hempty
  · rw [(hall _ (.inr ⟨rfl, hsecures⟩)).1] at hempty
    cases hempty
  · rintro ⟨items₀, hitems₀, hnamed, hnone⟩ name hmentions
    cases hitems.symm.trans hitems₀
    cases hempty : items.isEmpty with
    | true =>
      obtain ⟨hno, hsecures⟩ := hnone hempty
      rcases hmentions with hkeeps | ⟨_, hsecured⟩
      · exact absurd hkeeps (hno name)
      · exact absurd hsecured hsecures
    | false =>
      refine ⟨rfl, ?_⟩
      rcases hmentions with hkeeps | ⟨hname, _⟩
      · exact hnamed hempty name hkeeps
      · exact hname

/-- A call returns a document without dangling requirements exactly for these documents. -/
theorem augmentSecurity_noDangling_iff {p : Pydantic} {types : ModelTypes} {cfg : Configuration}
    {doc : String} {securitySchemes : List SecurityScheme} {openapi : OpenAPI}
    (hp : p.Lossless types)
    (hvalid : ∀ scheme ∈ securitySchemes, types.scheme scheme.dumped)
    (hsupported : ∀ scheme ∈ securitySchemes, Supported scheme) (hschemes : securitySchemes ≠ [])
    (hdoc : p.validateJson doc = .ok openapi) :
    (∃ result, augmentSecurity p cfg doc securitySchemes = .ok result ∧ NoDangling result) ↔
      Definable cfg openapi := by
  refine ⟨fun ⟨result, hresult, hdangling⟩ => ?_, fun hdefinable => ?_⟩
  · have haugmented := augmentSecurity_augmented hp hvalid hdoc hresult
    exact (haugmented.noDangling_iff hsupported hschemes).mp hdangling
  · obtain ⟨items, hitems, _⟩ := hdefinable.components
    obtain ⟨result, hresult, haugmented⟩ := augmentSecurity_returns cfg hp hdoc hitems hvalid
    exact ⟨result, hresult, (haugmented.noDangling_iff hsupported hschemes).mpr hdefinable⟩

theorem roads_noDangling_iff :
    (∃ result, augmentSecurity roadsPydantic lakesConfiguration roadsText [bearerScheme] =
        .ok result ∧ NoDangling result) ↔
      Definable lakesConfiguration roadsOpenAPI := by
  refine augmentSecurity_noDangling_iff roadsPydantic_lossless bearerScheme_valid ?_
    (List.cons_ne_nil _ _) roads_parsed
  intro scheme hscheme
  rw [List.mem_singleton.mp hscheme]
  decide

/-- A document without components is not served. -/
theorem roadsPlain_dangling :
    augmentSecurity roadsPydantic lakesConfiguration roadsPlainText [bearerScheme] =
        .error ⟨.attributeError, "get"⟩ ∧
      ¬∃ result, augmentSecurity roadsPydantic lakesConfiguration roadsPlainText [bearerScheme] =
        .ok result ∧ NoDangling result := by
  have hraises : augmentSecurity roadsPydantic lakesConfiguration roadsPlainText [bearerScheme] =
      .error ⟨.attributeError, "get"⟩ := by
    rw [augmentSecurity, roadsPlain_parsed]
    rfl
  refine ⟨hraises, ?_⟩
  rintro ⟨result, hresult, _⟩
  rw [hraises] at hresult
  cases hresult

end FastGeoApi
