import FastGeoApi.Lib.Threads
import FastGeoApi.OpenApi.Augment
import Mathlib.Data.Finset.Sort
import Mathlib.Data.String.Basic

/-!
# Conformance classes

`app/pygeoapi/api/conformance.py`. The class lists of the API modules are objects in memory. A call
makes a list for each provider and adds to it; `conformance_set` is of its own and is not shared.
The functions go operation by operation, so that other calls may operate in between.
-/

namespace FastGeoApi

/-- The class lists of an API module. -/
structure ApiModule where
  conformanceClasses : Option Address := none
  conformanceClassesFeatures : Option Address := none
  conformanceClassesRecords : Option Address := none

def ApiModule.Names (api : ApiModule) (a : Address) : Prop :=
  api.conformanceClasses = some a ∨ api.conformanceClassesFeatures = some a ∨
    api.conformanceClassesRecords = some a

/-- `pygeoapi.api` as it is loaded. -/
structure PygeoapiApis where
  /-- The lists in memory. -/
  lists : List (List String)
  /-- `CONFORMANCE_CLASSES`. -/
  conformanceClasses : Address
  /-- `all_apis()`. -/
  apis : Dict ApiModule
  conformanceClasses_lt : conformanceClasses < lists.length
  names_lt : ∀ {key api a}, apis.get? key = some api → api.Names a → a < lists.length

/-- A computation on the lists, one operation on them after the other. -/
abbrev Lists := Prog (List String) PyError

mutual
/-- `hash(v)` does not raise. -/
def PyVal.isHashable : PyVal → Bool
  | .list _ | .dict _ | .set _ => false
  | .tuple items => allHashable items
  | _ => true

def allHashable : List PyVal → Bool
  | [] => true
  | v :: items => v.isHashable && allHashable items
end

structure ResourceConfig where
  name : String
  resourceType : PyVal
  providerTypes : List PyVal

/-- `tuple(p.get("type", "") for p in providers)`. -/
def providerTypesOf : PyVal → Except PyError (List PyVal)
  | .list providers | .tuple providers => providers.mapM fun p => getMethod p "type" (.str "")
  -- neither characters nor keys nor elements of a set have a `get`
  | .str s => if s = "" then .ok [] else .error ⟨.attributeError, "get"⟩
  | .dict items => if items.isEmpty then .ok [] else .error ⟨.attributeError, "get"⟩
  | .set elems => if elems.isEmpty then .ok [] else .error ⟨.attributeError, "get"⟩
  | _ => .error ⟨.typeError, "object is not iterable"⟩

/-- `ResourceConfig.from_config_dict`. -/
def ResourceConfig.fromConfigDict (name : String) (config : PyVal) :
    Except PyError ResourceConfig := do
  let resourceType ← getMethod config "type" (.str "")
  let providers ← getMethod config "providers" (.list [])
  let providerTypes ← providerTypesOf providers
  return ⟨name, resourceType, providerTypes⟩

/-- The items of a list. -/
def listItems (a : Address) : Lists (List String) := do
  let object ← Prog.look a
  return object.getD []

/-- `classes.extend(module.name)`. -/
def extendWith (classes : Address) (name : String) : Option Address → Lists Unit
  | none => Prog.lift (.error ⟨.attributeError, name⟩)
  | some a => do
    let items ← listItems a
    Prog.alter classes (· ++ items)

/-- `apis_dict[provider_type]`, if it is there. -/
def findApi (apisDict : Dict ApiModule) : PyVal → Except PyError (Option ApiModule)
  | .str key => .ok (apisDict.get? key)
  | v => if v.isHashable then .ok none else .error ⟨.typeError, "unhashable type"⟩

def extendWithModule (classes : Address) : Option ApiModule → Lists Unit
  | some api => extendWith classes "CONFORMANCE_CLASSES" api.conformanceClasses
  | none => pure ()

def extendWithItemtypes (classes : Address) (providerType : PyVal) (itemtypesModule : ApiModule) :
    Lists Unit :=
  if providerType.eqStr "feature" then
    extendWith classes "CONFORMANCE_CLASSES_FEATURES" itemtypesModule.conformanceClassesFeatures
  else if providerType.eqStr "record" then
    extendWith classes "CONFORMANCE_CLASSES_RECORDS" itemtypesModule.conformanceClassesRecords
  else pure ()

/-- `get_provider_conformance`: the address of the list that it returns. -/
def getProviderConformance (providerType : PyVal) (apisDict : Dict ApiModule)
    (itemtypesModule : ApiModule) : Lists Address := do
  let classes ← Prog.make []
  let api ← Prog.lift (findApi apisDict providerType)
  extendWithModule classes api
  extendWithItemtypes classes providerType itemtypesModule
  return classes

/-- `apis_dict[key]`. -/
def getApi (apisDict : Dict ApiModule) (key : String) : Except PyError ApiModule :=
  match apisDict.get? key with
  | some api => .ok api
  | none => .error ⟨.keyError, key⟩

/-- `conformance_set.update(apis_dict[key].CONFORMANCE_CLASSES)`. -/
def updateFrom (apisDict : Dict ApiModule) (key : String) (conformanceSet : Finset String) :
    Lists (Finset String) := do
  let api ← Prog.lift (getApi apisDict key)
  match api.conformanceClasses with
  | none => Prog.lift (.error ⟨.attributeError, "CONFORMANCE_CLASSES"⟩)
  | some a => do
    let items ← listItems a
    return conformanceSet ∪ items.toFinset

/-- The loop over the providers of a resource. -/
def addProviders (apisDict : Dict ApiModule) (itemtypesModule : ApiModule) :
    List PyVal → Finset String → Lists (Finset String)
  | [], conformanceSet => pure conformanceSet
  | providerType :: providerTypes, conformanceSet => do
    let providerClasses ← getProviderConformance providerType apisDict itemtypesModule
    let items ← listItems providerClasses
    addProviders apisDict itemtypesModule providerTypes (conformanceSet ∪ items.toFinset)

/-- What the loop over the resources does for one of them. -/
def addResource (apisDict : Dict ApiModule) (itemtypesModule : ApiModule)
    (resource : ResourceConfig) (conformanceSet : Finset String) : Lists (Finset String) :=
  if resource.resourceType.eqStr "process" then updateFrom apisDict "process" conformanceSet
  else addProviders apisDict itemtypesModule resource.providerTypes conformanceSet

def addResources (apisDict : Dict ApiModule) (itemtypesModule : ApiModule) :
    List (String × PyVal) → Finset String → Lists (Finset String)
  | [], conformanceSet => pure conformanceSet
  | (name, config) :: resources, conformanceSet => do
    let resource ← Prog.lift (ResourceConfig.fromConfigDict name config)
    let conformanceSet ← addResource apisDict itemtypesModule resource conformanceSet
    addResources apisDict itemtypesModule resources conformanceSet

/-- `build_conformance_list`: `conforms_to` of the response. -/
def buildConformanceList (p : PygeoapiApis) (resources : Dict PyVal) (hasPubsub : Bool) :
    Lists (List String) := do
  let itemtypesModule ← Prog.lift (getApi p.apis "itemtypes")
  let base ← listItems p.conformanceClasses
  let conformanceSet ← addResources p.apis itemtypesModule resources.items base.toFinset
  let conformanceSet ←
    (if hasPubsub then updateFrom p.apis "pubsub" conformanceSet else pure conformanceSet)
  return conformanceSet.sort

/-! ## The classes as values -/

namespace PygeoapiApis

variable (p : PygeoapiApis)

def listAt (a : Address) : List String := p.lists[a]?.getD []

/-- `module.name`. -/
def classList (name : String) : Option Address → Except PyError (List String)
  | none => .error ⟨.attributeError, name⟩
  | some a => .ok (p.listAt a)

def moduleClasses : Option ApiModule → Except PyError (List String)
  | some api => p.classList "CONFORMANCE_CLASSES" api.conformanceClasses
  | none => .ok []

def itemtypesClasses (providerType : PyVal) (itemtypesModule : ApiModule) :
    Except PyError (List String) :=
  if providerType.eqStr "feature" then
    p.classList "CONFORMANCE_CLASSES_FEATURES" itemtypesModule.conformanceClassesFeatures
  else if providerType.eqStr "record" then
    p.classList "CONFORMANCE_CLASSES_RECORDS" itemtypesModule.conformanceClassesRecords
  else .ok []

def providerClasses (itemtypesModule : ApiModule) (providerType : PyVal) :
    Except PyError (List String) := do
  let api ← findApi p.apis providerType
  let own ← p.moduleClasses api
  let special ← p.itemtypesClasses providerType itemtypesModule
  return own ++ special

def addModule (key : String) (conformanceSet : Finset String) : Except PyError (Finset String) := do
  let api ← getApi p.apis key
  let items ← p.classList "CONFORMANCE_CLASSES" api.conformanceClasses
  return conformanceSet ∪ items.toFinset

def addAllProviders (itemtypesModule : ApiModule) :
    List PyVal → Finset String → Except PyError (Finset String)
  | [], conformanceSet => .ok conformanceSet
  | providerType :: providerTypes, conformanceSet => do
    let items ← p.providerClasses itemtypesModule providerType
    addAllProviders itemtypesModule providerTypes (conformanceSet ∪ items.toFinset)

def addOne (itemtypesModule : ApiModule) (resource : ResourceConfig)
    (conformanceSet : Finset String) : Except PyError (Finset String) :=
  if resource.resourceType.eqStr "process" then p.addModule "process" conformanceSet
  else p.addAllProviders itemtypesModule resource.providerTypes conformanceSet

def addAll (itemtypesModule : ApiModule) :
    List (String × PyVal) → Finset String → Except PyError (Finset String)
  | [], conformanceSet => .ok conformanceSet
  | (name, config) :: resources, conformanceSet => do
    let resource ← ResourceConfig.fromConfigDict name config
    let conformanceSet ← p.addOne itemtypesModule resource conformanceSet
    addAll itemtypesModule resources conformanceSet

/-- What `build_conformance_list` answers, without a memory. -/
def conformanceList (resources : Dict PyVal) (hasPubsub : Bool) : Except PyError (List String) := do
  let itemtypesModule ← getApi p.apis "itemtypes"
  let base ← Except.ok (p.listAt p.conformanceClasses)
  let conformanceSet ← p.addAll itemtypesModule resources.items base.toFinset
  let conformanceSet ←
    (if hasPubsub then p.addModule "pubsub" conformanceSet else .ok conformanceSet)
  return conformanceSet.sort

end PygeoapiApis

/-! ## One call -/

/-- What comes of a list of its own that is to be extended with these items. -/
inductive Extended (classes : Address) (object : List String) :
    Except PyError (List String) → Except PyError Unit → Own (List String) → Prop
  | ok (h : own classes = some (object ++ items)) : Extended classes object (.ok items) (.ok ()) own
  | error : Extended classes object (.error e) (.error e) own

/-- What comes of a call that is to return a list of its own with these items. -/
inductive Returned :
    Except PyError (List String) → Except PyError Address → Own (List String) → Prop
  | ok (h : own a = some items) : Returned (.ok items) (.ok a) own
  | error : Returned (.error e) (.error e) own

section
variable {p : PygeoapiApis} {own : Own (List String)} {classes : Address} {object : List String}

theorem ok_bind {a : α} {f : α → Except PyError β} : (Except.ok a >>= f) = f a := rfl

theorem findApi_eq_some {apis : Dict ApiModule} {v : PyVal} {api : ApiModule}
    (h : findApi apis v = .ok (some api)) : ∃ key, apis.get? key = some api := by
  unfold findApi at h
  split at h
  · exact ⟨_, Except.ok.inj h⟩
  · split at h <;> cases h

theorem names_of_getApi {key : String} {api : ApiModule} (h : getApi p.apis key = .ok api) :
    ∀ a, api.Names a → a < p.lists.length := by
  unfold getApi at h
  split at h
  · rename_i hget
    cases h
    exact fun a ha => p.names_lt hget ha
  · cases h

theorem yields_listItems {a : Address} (h : a < p.lists.length) :
    (listItems a).Yields p.lists (.ok (p.listAt a)) :=
  (Prog.Yields.look h).bind fun object _ => .pure (object.getD [])

theorem wp_extendWith (hown : own classes = some object) {name : String} {list : Option Address}
    (h : ∀ a, list = some a → a < p.lists.length) :
    (extendWith classes name list).Wp p.lists
      (Extended classes object (p.classList name list)) own := by
  cases list with
  | none => exact .error
  | some a =>
    -- the items are read from the list of the module, and added to the one of its own
    refine .inl ⟨h a rfl, object, hown, .ok ?_⟩
    rw [Function.update_self]
    rfl

theorem wp_extendWithModule (hown : own classes = some object) {api : Option ApiModule}
    (h : ∀ a api', api = some api' → api'.Names a → a < p.lists.length) :
    (extendWithModule classes api).Wp p.lists
      (Extended classes object (p.moduleClasses api)) own := by
  cases api with
  | none => exact .ok (by rwa [List.append_nil])
  | some api => exact wp_extendWith hown fun a ha => h a api rfl (.inl ha)

theorem wp_extendWithItemtypes (hown : own classes = some object) {itemtypesModule : ApiModule}
    (h : ∀ a, itemtypesModule.Names a → a < p.lists.length) (providerType : PyVal) :
    (extendWithItemtypes classes providerType itemtypesModule).Wp p.lists
      (Extended classes object (p.itemtypesClasses providerType itemtypesModule)) own := by
  unfold extendWithItemtypes PygeoapiApis.itemtypesClasses
  split
  · exact wp_extendWith hown fun a ha => h a (.inr (.inl ha))
  · split
    · exact wp_extendWith hown fun a ha => h a (.inr (.inr ha))
    · exact .ok (by rwa [List.append_nil])

/-- The list that is returned is one of its own, with the classes of the provider. -/
theorem wp_getProviderConformance {itemtypesModule : ApiModule}
    (h : ∀ a, itemtypesModule.Names a → a < p.lists.length) (providerType : PyVal) :
    (getProviderConformance providerType p.apis itemtypesModule).Wp p.lists
      (Returned (p.providerClasses itemtypesModule providerType)) own := by
  unfold getProviderConformance PygeoapiApis.providerClasses
  intro classes _ _
  refine Prog.Wp.bind ?_
  cases hfind : findApi p.apis providerType with
  | error e => exact .error
  | ok api =>
    have hnames : ∀ a api', api = some api' → api'.Names a → a < p.lists.length := by
      rintro a api' rfl ha
      obtain ⟨key, hkey⟩ := findApi_eq_some hfind
      exact p.names_lt hkey ha
    change Prog.Wp p.lists _ (extendWithModule classes api >>= fun _ => _) _
    refine Prog.Wp.bind ((wp_extendWithModule (Function.update_self ..) hnames).mono ?_)
    intro r own hextended
    rw [ok_bind]
    generalize p.moduleClasses api = result at hextended ⊢
    cases hextended with
    | error => exact .error
    | ok hown =>
      change Prog.Wp p.lists _ (extendWithItemtypes classes providerType _ >>= fun _ => _) _
      refine Prog.Wp.bind ((wp_extendWithItemtypes hown h providerType).mono ?_)
      intro r own hextended
      rw [ok_bind]
      generalize p.itemtypesClasses providerType itemtypesModule = result at hextended ⊢
      cases hextended with
      | error => exact .error
      | ok hown => exact .ok hown

theorem yields_providerClasses {itemtypesModule : ApiModule}
    (h : ∀ a, itemtypesModule.Names a → a < p.lists.length) (providerType : PyVal) :
    (getProviderConformance providerType p.apis itemtypesModule >>= listItems).Yields p.lists
      (p.providerClasses itemtypesModule providerType) := by
  intro own
  refine Prog.Wp.bind ((wp_getProviderConformance h providerType).mono ?_)
  intro r own hreturned
  generalize p.providerClasses itemtypesModule providerType = result at hreturned ⊢
  cases hreturned with
  | error => rfl
  | ok hown => exact .inr ⟨_, hown, rfl⟩

theorem yields_addProviders {itemtypesModule : ApiModule}
    (h : ∀ a, itemtypesModule.Names a → a < p.lists.length) (providerTypes : List PyVal)
    (conformanceSet : Finset String) :
    (addProviders p.apis itemtypesModule providerTypes conformanceSet).Yields p.lists
      (p.addAllProviders itemtypesModule providerTypes conformanceSet) := by
  induction providerTypes generalizing conformanceSet with
  | nil => exact .pure conformanceSet
  | cons providerType providerTypes ih =>
    rw [addProviders, PygeoapiApis.addAllProviders, ← Prog.bind_assoc]
    exact (yields_providerClasses h providerType).bind fun items _ => ih _

theorem yields_updateFrom (key : String) (conformanceSet : Finset String) :
    (updateFrom p.apis key conformanceSet).Yields p.lists (p.addModule key conformanceSet) := by
  refine (Prog.Yields.lift _).bind fun api hapi => ?_
  cases hlist : api.conformanceClasses with
  | none => exact .lift _
  | some a =>
    have hlt := names_of_getApi hapi a (.inl hlist)
    exact (yields_listItems hlt).bind fun items _ => .pure _

theorem yields_addResource {itemtypesModule : ApiModule}
    (h : ∀ a, itemtypesModule.Names a → a < p.lists.length) (resource : ResourceConfig)
    (conformanceSet : Finset String) :
    (addResource p.apis itemtypesModule resource conformanceSet).Yields p.lists
      (p.addOne itemtypesModule resource conformanceSet) := by
  unfold addResource PygeoapiApis.addOne
  split
  · exact yields_updateFrom "process" conformanceSet
  · exact yields_addProviders h resource.providerTypes conformanceSet

theorem yields_addResources {itemtypesModule : ApiModule}
    (h : ∀ a, itemtypesModule.Names a → a < p.lists.length) (resources : List (String × PyVal))
    (conformanceSet : Finset String) :
    (addResources p.apis itemtypesModule resources conformanceSet).Yields p.lists
      (p.addAll itemtypesModule resources conformanceSet) := by
  induction resources generalizing conformanceSet with
  | nil => exact .pure conformanceSet
  | cons resource resources ih =>
    exact (Prog.Yields.lift _).bind fun config _ =>
      (yields_addResource h config conformanceSet).bind fun set _ => ih set

theorem yields_buildConformanceList (resources : Dict PyVal) (hasPubsub : Bool) :
    (buildConformanceList p resources hasPubsub).Yields p.lists
      (p.conformanceList resources hasPubsub) := by
  refine (Prog.Yields.lift _).bind fun itemtypesModule hitemtypes => ?_
  refine (yields_listItems p.conformanceClasses_lt).bind fun base _ => ?_
  refine (yields_addResources (names_of_getApi hitemtypes) _ _).bind fun set _ => ?_
  refine Prog.Yields.bind ?_ fun set _ => .pure _
  split
  · exact yields_updateFrom "pubsub" set
  · exact .pure set

end

/-! ## Many calls -/

/-- Calls one after the other: their answers, and the memory afterwards. -/
def conformanceAnswers (p : PygeoapiApis) :
    List (Dict PyVal × Bool) → List (List String) →
      List (Except PyError (List String)) × List (List String)
  | [], m => ([], m)
  | (resources, hasPubsub) :: calls, m =>
    let call := (buildConformanceList p resources hasPubsub).run m
    let later := conformanceAnswers p calls call.2
    (call.1 :: later.1, later.2)

theorem conformanceAnswers_eq {p : PygeoapiApis} (calls : List (Dict PyVal × Bool))
    {m : List (List String)} (hm : p.lists <+: m) :
    (conformanceAnswers p calls m).1 = calls.map (fun call => p.conformanceList call.1 call.2) ∧
      p.lists <+: (conformanceAnswers p calls m).2 := by
  induction calls generalizing m with
  | nil => exact ⟨rfl, hm⟩
  | cons call calls ih =>
    obtain ⟨resources, hasPubsub⟩ := call
    obtain ⟨hanswer, hkept⟩ := (yields_buildConformanceList resources hasPubsub).run hm
    obtain ⟨hlater, hend⟩ := ih hkept
    refine ⟨?_, hend⟩
    rw [conformanceAnswers, List.map_cons, hanswer, hlater]

/-! ## The classes of a configuration -/

/-- The resource is of type `process`. -/
def IsProcess (config : PyVal) : Prop :=
  ∃ items, config = .dict items ∧ PyVal.get items "type" = some (.str "process")

/-- The resource has a provider of this type; the type of a provider without one is empty. -/
def HasProvider (config : PyVal) (t : String) : Prop :=
  ∃ items providers fields, config = .dict items ∧
    PyVal.get items "providers" = some (.list providers) ∧ .dict fields ∈ providers ∧
    (PyVal.get fields "type").getD (.str "") = .str t

/-- The providers of the resource, if it has any, are a list of mappings with string types. -/
def WellTyped (config : PyVal) : Prop :=
  ∃ items, config = .dict items ∧ ∀ v, PyVal.get items "providers" = some v →
    ∃ providers, v = .list providers ∧ ∀ provider ∈ providers, ∃ fields t,
      provider = .dict fields ∧ (PyVal.get fields "type").getD (.str "") = .str t

namespace PygeoapiApis

variable (p : PygeoapiApis)

/-- The class is in the list of the API module under this key. -/
def ListsClass (key : String) (list : ApiModule → Option Address) (c : String) : Prop :=
  ∃ api a, p.apis.get? key = some api ∧ list api = some a ∧ c ∈ p.listAt a

/-- The classes of providers of this type. -/
def BelongsTo (t c : String) : Prop :=
  p.ListsClass t (·.conformanceClasses) c ∨
    t = "feature" ∧ p.ListsClass "itemtypes" (·.conformanceClassesFeatures) c ∨
    t = "record" ∧ p.ListsClass "itemtypes" (·.conformanceClassesRecords) c

/-- The classes that a configuration stands for. -/
def Configured (resources : Dict PyVal) (hasPubsub : Bool) (c : String) : Prop :=
  c ∈ p.listAt p.conformanceClasses ∨
    (∃ r ∈ resources.items, IsProcess r.2) ∧ p.ListsClass "process" (·.conformanceClasses) c ∨
    (∃ r ∈ resources.items, ¬IsProcess r.2 ∧ ∃ t, HasProvider r.2 t ∧ p.BelongsTo t c) ∨
    hasPubsub = true ∧ p.ListsClass "pubsub" (·.conformanceClasses) c

/-- The API modules are there, each with the lists that are looked up in it. -/
structure Complete (resources : Dict PyVal) : Prop where
  itemtypes : ∃ api, p.apis.get? "itemtypes" = some api ∧
    api.conformanceClassesFeatures ≠ none ∧ api.conformanceClassesRecords ≠ none
  process : ∃ api, p.apis.get? "process" = some api ∧ api.conformanceClasses ≠ none
  pubsub : ∃ api, p.apis.get? "pubsub" = some api ∧ api.conformanceClasses ≠ none
  providers : ∀ r ∈ resources.items, ¬IsProcess r.2 → ∀ t, HasProvider r.2 t →
    ∀ api, p.apis.get? t = some api → api.conformanceClasses ≠ none

/-- What one resource adds. -/
def Contributes (config : PyVal) (c : String) : Prop :=
  IsProcess config ∧ p.ListsClass "process" (·.conformanceClasses) c ∨
    ¬IsProcess config ∧ ∃ t, HasProvider config t ∧ p.BelongsTo t c

section
variable {p : PygeoapiApis}

theorem classList_ok (name : String) {list : Option Address} (h : list ≠ none) :
    ∃ items, p.classList name list = .ok items ∧
      ∀ c, c ∈ items ↔ ∃ a, list = some a ∧ c ∈ p.listAt a := by
  cases list with
  | none => exact absurd rfl h
  | some a => exact ⟨_, rfl, fun c => by simp⟩

theorem addModule_ok {key : String}
    (h : ∃ api, p.apis.get? key = some api ∧ api.conformanceClasses ≠ none)
    (conformanceSet : Finset String) :
    ∃ set, p.addModule key conformanceSet = .ok set ∧
      ∀ c, c ∈ set ↔ c ∈ conformanceSet ∨ p.ListsClass key (·.conformanceClasses) c := by
  obtain ⟨api, hget, hlist⟩ := h
  obtain ⟨items, hitems, hmem⟩ := classList_ok (p := p) "CONFORMANCE_CLASSES" hlist
  refine ⟨conformanceSet ∪ items.toFinset, ?_, fun c => ?_⟩
  · rw [addModule, getApi, hget]
    simp only [ok_bind, hitems]
    rfl
  · rw [Finset.mem_union, List.mem_toFinset, hmem, ListsClass, hget]
    simp

theorem moduleClasses_ok {t : String}
    (h : ∀ api, p.apis.get? t = some api → api.conformanceClasses ≠ none) :
    ∃ own, p.moduleClasses (p.apis.get? t) = .ok own ∧
      ∀ c, c ∈ own ↔ p.ListsClass t (·.conformanceClasses) c := by
  cases hget : p.apis.get? t with
  | none => exact ⟨[], rfl, fun c => by simp [ListsClass, hget]⟩
  | some api =>
    obtain ⟨items, hitems, hmem⟩ := classList_ok (p := p) _ (h api hget)
    exact ⟨items, hitems, fun c => by simp [hmem, ListsClass, hget]⟩

theorem itemtypesClasses_ok {itemtypesModule : ApiModule}
    (hget : p.apis.get? "itemtypes" = some itemtypesModule)
    (hfeatures : itemtypesModule.conformanceClassesFeatures ≠ none)
    (hrecords : itemtypesModule.conformanceClassesRecords ≠ none) (t : String) :
    ∃ special, p.itemtypesClasses (.str t) itemtypesModule = .ok special ∧
      ∀ c, c ∈ special ↔
        t = "feature" ∧ p.ListsClass "itemtypes" (·.conformanceClassesFeatures) c ∨
        t = "record" ∧ p.ListsClass "itemtypes" (·.conformanceClassesRecords) c := by
  have hne : "record" ≠ "feature" := by decide
  unfold itemtypesClasses
  simp only [PyVal.eqStr_iff, PyVal.str.injEq]
  by_cases hfeature : t = "feature"
  · subst hfeature
    obtain ⟨items, hitems, hmem⟩ := classList_ok (p := p) _ hfeatures
    exact ⟨items, (if_pos rfl).trans hitems, fun c => by simp [hmem, ListsClass, hget, hne.symm]⟩
  · by_cases hrecord : t = "record"
    · subst hrecord
      obtain ⟨items, hitems, hmem⟩ := classList_ok (p := p) _ hrecords
      refine ⟨items, ?_, fun c => by simp [hmem, ListsClass, hget, hne]⟩
      rw [if_neg hfeature, if_pos rfl]
      exact hitems
    · refine ⟨[], ?_, fun c => by simp [hfeature, hrecord]⟩
      rw [if_neg hfeature, if_neg hrecord]

theorem providerClasses_ok {itemtypesModule : ApiModule}
    (hget : p.apis.get? "itemtypes" = some itemtypesModule)
    (hfeatures : itemtypesModule.conformanceClassesFeatures ≠ none)
    (hrecords : itemtypesModule.conformanceClassesRecords ≠ none) {t : String}
    (h : ∀ api, p.apis.get? t = some api → api.conformanceClasses ≠ none) :
    ∃ items, p.providerClasses itemtypesModule (.str t) = .ok items ∧
      ∀ c, c ∈ items ↔ p.BelongsTo t c := by
  obtain ⟨own, hown, hmem⟩ := moduleClasses_ok h
  obtain ⟨special, hspecial, hmem'⟩ := itemtypesClasses_ok hget hfeatures hrecords t
  refine ⟨own ++ special, ?_, fun c => ?_⟩
  · rw [providerClasses, findApi, ok_bind, hown, ok_bind, hspecial]
    rfl
  · rw [List.mem_append, hmem, hmem', BelongsTo]

/-- The loop over the providers: what has been collected, and the classes of those that were met. -/
theorem addAllProviders_ok {itemtypesModule : ApiModule}
    (hget : p.apis.get? "itemtypes" = some itemtypesModule)
    (hfeatures : itemtypesModule.conformanceClassesFeatures ≠ none)
    (hrecords : itemtypesModule.conformanceClassesRecords ≠ none) {providerTypes : List PyVal}
    (hstr : ∀ v ∈ providerTypes, ∃ t, v = .str t)
    (h : ∀ t, .str t ∈ providerTypes → ∀ api, p.apis.get? t = some api →
      api.conformanceClasses ≠ none) (conformanceSet : Finset String) :
    ∃ set, p.addAllProviders itemtypesModule providerTypes conformanceSet = .ok set ∧
      ∀ c, c ∈ set ↔ c ∈ conformanceSet ∨ ∃ t, .str t ∈ providerTypes ∧ p.BelongsTo t c := by
  induction providerTypes generalizing conformanceSet with
  | nil => exact ⟨conformanceSet, rfl, fun c => by simp⟩
  | cons v providerTypes ih =>
    obtain ⟨t, rfl⟩ := hstr v List.mem_cons_self
    obtain ⟨items, hitems, hmem⟩ :=
      providerClasses_ok hget hfeatures hrecords (h t List.mem_cons_self)
    obtain ⟨set, hset, hmem'⟩ := ih (fun v hv => hstr v (List.mem_cons_of_mem _ hv))
      (fun t ht => h t (List.mem_cons_of_mem _ ht)) (conformanceSet ∪ items.toFinset)
    refine ⟨set, ?_, fun c => ?_⟩
    · rw [addAllProviders, hitems, ok_bind, hset]
    · rw [hmem', Finset.mem_union, List.mem_toFinset, hmem, or_assoc]
      simp only [List.mem_cons, PyVal.str.injEq, or_and_right, exists_or, exists_eq_left]

/-- The type of a provider. -/
def providerType (provider : PyVal) : PyVal :=
  match provider with
  | .dict fields => (PyVal.get fields "type").getD (.str "")
  | _ => .none

theorem mapM_eq_ok {f : α → Except PyError β} {g : α → β} {xs : List α}
    (h : ∀ x ∈ xs, f x = .ok (g x)) : xs.mapM f = .ok (xs.map g) := by
  induction xs with
  | nil => rfl
  | cons x xs ih =>
    rw [List.mapM_cons, h x List.mem_cons_self, ih fun y hy => h y (List.mem_cons_of_mem x hy)]
    rfl

theorem isProcess_iff {items : List (PyKey × PyVal)} :
    ((PyVal.get items "type").getD (.str "")).eqStr "process" = true ↔ IsProcess (.dict items) := by
  rw [PyVal.eqStr_iff, IsProcess]
  cases hget : PyVal.get items "type" with
  | none => simp [hget]
  | some v => simp [hget]

theorem getMethod_dict {items : List (PyKey × PyVal)} {key : String} {default : PyVal} :
    getMethod (.dict items) key default = .ok ((PyVal.get items key).getD default) := rfl

/-- A configuration is taken apart into its type and the types of its providers. -/
theorem fromConfigDict_ok {config : PyVal} (h : WellTyped config) (name : String) :
    ∃ resource, ResourceConfig.fromConfigDict name config = .ok resource ∧
      (resource.resourceType.eqStr "process" = true ↔ IsProcess config) ∧
      (∀ v ∈ resource.providerTypes, ∃ t, v = .str t) ∧
      ∀ t, .str t ∈ resource.providerTypes ↔ HasProvider config t := by
  obtain ⟨items, rfl, hproviders⟩ := h
  cases hget : PyVal.get items "providers" with
  | none =>
    refine ⟨⟨name, _, []⟩, ?_, isProcess_iff, fun _ hv => (nomatch hv), fun t => ?_⟩
    · rw [ResourceConfig.fromConfigDict, getMethod_dict, ok_bind, getMethod_dict, hget]
      rfl
    · simp [HasProvider, hget]
  | some v =>
    obtain ⟨providers, rfl, htyped⟩ := hproviders v hget
    have hmap : providers.mapM (fun p => getMethod p "type" (.str "")) =
        .ok (providers.map providerType) := by
      refine mapM_eq_ok fun provider hprovider => ?_
      obtain ⟨fields, t, rfl, _⟩ := htyped provider hprovider
      rfl
    refine ⟨⟨name, _, providers.map providerType⟩, ?_, isProcess_iff, fun v hv => ?_, fun t => ?_⟩
    · rw [ResourceConfig.fromConfigDict, getMethod_dict, ok_bind, getMethod_dict, hget, ok_bind,
        Option.getD_some, providerTypesOf, hmap]
      rfl
    · obtain ⟨provider, hprovider, rfl⟩ := List.mem_map.mp hv
      obtain ⟨fields, t, rfl, ht⟩ := htyped provider hprovider
      exact ⟨t, ht⟩
    · rw [List.mem_map]
      constructor
      · rintro ⟨provider, hprovider, ht⟩
        obtain ⟨fields, _, rfl, _⟩ := htyped provider hprovider
        exact ⟨items, providers, fields, rfl, hget, hprovider, ht⟩
      · rintro ⟨items', providers', fields, heq, hget', hprovider, ht⟩
        cases heq
        rw [hget] at hget'
        cases hget'
        exact ⟨_, hprovider, ht⟩

section
variable {resources : Dict PyVal} {itemtypesModule : ApiModule}

theorem addOne_ok (hcomplete : p.Complete resources)
    (hget : p.apis.get? "itemtypes" = some itemtypesModule) {r : String × PyVal}
    (hr : r ∈ resources.items) (htyped : WellTyped r.2) (conformanceSet : Finset String) :
    ∃ resource set, ResourceConfig.fromConfigDict r.1 r.2 = .ok resource ∧
      p.addOne itemtypesModule resource conformanceSet = .ok set ∧
      ∀ c, c ∈ set ↔ c ∈ conformanceSet ∨ p.Contributes r.2 c := by
  obtain ⟨resource, hresource, hprocess, hstr, htypes⟩ := fromConfigDict_ok htyped r.1
  by_cases h : IsProcess r.2
  · obtain ⟨set, hset, hmem⟩ := addModule_ok hcomplete.process conformanceSet
    refine ⟨resource, set, hresource, ?_, fun c => ?_⟩
    · rw [addOne, if_pos (hprocess.mpr h), hset]
    · rw [hmem, Contributes]
      simp only [h, true_and, not_true_eq_false, false_and, or_false]
  · obtain ⟨api, hget', hfeatures, hrecords⟩ := hcomplete.itemtypes
    rw [hget] at hget'
    cases hget'
    obtain ⟨set, hset, hmem⟩ := addAllProviders_ok hget hfeatures hrecords hstr
      (fun t ht => hcomplete.providers r hr h t ((htypes t).mp ht)) conformanceSet
    refine ⟨resource, set, hresource, ?_, fun c => ?_⟩
    · rw [addOne, if_neg (hprocess.not.mpr h), hset]
    · rw [hmem, Contributes]
      simp only [h, false_and, not_false_eq_true, true_and, false_or, htypes]

/-- The loop over the resources: what has been collected, and what each of them adds. -/
theorem addAll_ok (hcomplete : p.Complete resources)
    (hget : p.apis.get? "itemtypes" = some itemtypesModule)
    (htyped : ∀ r ∈ resources.items, WellTyped r.2) {rest : List (String × PyVal)}
    (hrest : ∀ r ∈ rest, r ∈ resources.items) (conformanceSet : Finset String) :
    ∃ set, p.addAll itemtypesModule rest conformanceSet = .ok set ∧
      ∀ c, c ∈ set ↔ c ∈ conformanceSet ∨ ∃ r ∈ rest, p.Contributes r.2 c := by
  induction rest generalizing conformanceSet with
  | nil => exact ⟨conformanceSet, rfl, fun c => by simp⟩
  | cons r rest ih =>
    have hr := hrest r List.mem_cons_self
    obtain ⟨resource, set, hresource, hset, hmem⟩ :=
      addOne_ok hcomplete hget hr (htyped r hr) conformanceSet
    obtain ⟨set', hset', hmem'⟩ := ih (fun r hr => hrest r (List.mem_cons_of_mem _ hr)) set
    refine ⟨set', ?_, fun c => ?_⟩
    · rw [addAll, hresource, ok_bind, hset, ok_bind, hset']
    · rw [hmem', hmem, or_assoc]
      simp only [List.mem_cons, or_and_right, exists_or, exists_eq_left]

end

theorem conformanceList_ok {resources : Dict PyVal} (hcomplete : p.Complete resources)
    (htyped : ∀ r ∈ resources.items, WellTyped r.2) (hasPubsub : Bool) :
    ∃ classes, p.conformanceList resources hasPubsub = .ok classes ∧ classes.SortedLT ∧
      ∀ c, c ∈ classes ↔ p.Configured resources hasPubsub c := by
  obtain ⟨itemtypesModule, hget, _⟩ := hcomplete.itemtypes
  have hitemtypes : getApi p.apis "itemtypes" = .ok itemtypesModule := by rw [getApi, hget]
  obtain ⟨set, hset, hmem⟩ := addAll_ok hcomplete hget htyped (fun _ hr => hr)
    (p.listAt p.conformanceClasses).toFinset
  have hcontributes : ∀ c, (∃ r ∈ resources.items, p.Contributes r.2 c) ↔
      (∃ r ∈ resources.items, IsProcess r.2) ∧ p.ListsClass "process" (·.conformanceClasses) c ∨
        ∃ r ∈ resources.items, ¬IsProcess r.2 ∧ ∃ t, HasProvider r.2 t ∧ p.BelongsTo t c := by
    intro c
    simp only [Contributes, and_or_left, exists_or]
    refine or_congr_left ⟨?_, ?_⟩
    · rintro ⟨r, hr, hprocess, hlist⟩
      exact ⟨⟨r, hr, hprocess⟩, hlist⟩
    · rintro ⟨⟨r, hr, hprocess⟩, hlist⟩
      exact ⟨r, hr, hprocess, hlist⟩
  obtain ⟨final, hfinal, hmem'⟩ : ∃ final,
      (if hasPubsub then p.addModule "pubsub" set else .ok set) = .ok final ∧
        ∀ c, c ∈ final ↔ c ∈ set ∨
          hasPubsub = true ∧ p.ListsClass "pubsub" (·.conformanceClasses) c := by
    cases hasPubsub with
    | false => exact ⟨set, rfl, fun c => by simp⟩
    | true =>
      obtain ⟨final, hfinal, hmem'⟩ := addModule_ok hcomplete.pubsub set
      exact ⟨final, hfinal, fun c => by simp [hmem']⟩
  refine ⟨final.sort, ?_, Finset.sortedLT_sort final, fun c => ?_⟩
  · rw [conformanceList, hitemtypes, ok_bind, ok_bind, hset, ok_bind, hfinal]
    rfl
  · rw [Finset.mem_sort, hmem', hmem, List.mem_toFinset, hcontributes, Configured]
    simp only [or_assoc]

end

end PygeoapiApis

/-- The advertised classes are the configured ones; a call has no effect on later ones. -/
theorem conformance_exact (p : PygeoapiApis) :
    (∀ resources hasPubsub, p.Complete resources → (∀ r ∈ resources.items, WellTyped r.2) →
      ∃ classes, ((buildConformanceList p resources hasPubsub).run p.lists).1 = .ok classes ∧
        classes.Pairwise (· < ·) ∧ ∀ c, c ∈ classes ↔ p.Configured resources hasPubsub c) ∧
    ∀ calls, (conformanceAnswers p calls p.lists).1 =
        calls.map (fun call => ((buildConformanceList p call.1 call.2).run p.lists).1) ∧
      p.lists <+: (conformanceAnswers p calls p.lists).2 := by
  have halone : ∀ resources hasPubsub,
      ((buildConformanceList p resources hasPubsub).run p.lists).1 =
        p.conformanceList resources hasPubsub := fun resources hasPubsub =>
    ((yields_buildConformanceList resources hasPubsub).run List.prefix_rfl).1
  refine ⟨fun resources hasPubsub hcomplete htyped => ?_, fun calls => ?_⟩
  · obtain ⟨classes, hclasses, hsorted, hmem⟩ :=
      p.conformanceList_ok hcomplete htyped hasPubsub
    exact ⟨classes, (halone resources hasPubsub).trans hclasses, hsorted.pairwise, hmem⟩
  · obtain ⟨hanswers, hkept⟩ := conformanceAnswers_eq calls (List.prefix_refl p.lists)
    refine ⟨?_, hkept⟩
    simp only [hanswers, halone]

/-! ## A small configuration -/

/-- Four modules; the classes are named by what they are for. -/
def smallApis : Dict ApiModule where
  items := [
    ("coverage", { conformanceClasses := some 1 }),
    ("itemtypes", {
      conformanceClasses := some 2
      conformanceClassesFeatures := some 3
      conformanceClassesRecords := some 4 }),
    ("process", { conformanceClasses := some 5 }),
    ("pubsub", { conformanceClasses := some 6 })]
  nodup := by decide

theorem smallApis_modules {key : String} {api : ApiModule} (h : smallApis.get? key = some api) :
    api.conformanceClasses ≠ none ∧ ∀ a, api.Names a → a < 7 := by
  obtain ⟨before, after, hitems, _⟩ := List.lookup_eq_some_iff.mp h
  have hmem : (key, api) ∈ smallApis.items := by
    rw [hitems]
    simp
  simp only [smallApis, List.mem_cons, List.not_mem_nil, or_false, Prod.mk.injEq] at hmem
  rcases hmem with ⟨_, rfl⟩ | ⟨_, rfl⟩ | ⟨_, rfl⟩ | ⟨_, rfl⟩
  · exact ⟨by simp, fun a ha => by simp only [ApiModule.Names] at ha; grind⟩
  · exact ⟨by simp, fun a ha => by simp only [ApiModule.Names] at ha; grind⟩
  · exact ⟨by simp, fun a ha => by simp only [ApiModule.Names] at ha; grind⟩
  · exact ⟨by simp, fun a ha => by simp only [ApiModule.Names] at ha; grind⟩

def smallPygeoapi : PygeoapiApis where
  lists := [["core"], ["coverage"], ["common"], ["features", "core"], ["records"], ["processes"],
    ["pubsub"]]
  conformanceClasses := 0
  apis := smallApis
  conformanceClasses_lt := by decide
  names_lt hget hnames := (smallApis_modules hget).2 _ hnames

/-- A collection of features and a process. -/
def smallResources : Dict PyVal where
  items := [
    ("lakes", .dict [(.str "type", .str "collection"),
      (.str "providers", .list [.dict [(.str "type", .str "feature")]])]),
    ("hello", .dict [(.str "type", .str "process")])]
  nodup := by decide

theorem smallResources_complete : smallPygeoapi.Complete smallResources where
  itemtypes := ⟨_, rfl, by simp, by simp⟩
  process := ⟨_, rfl, by simp⟩
  pubsub := ⟨_, rfl, by simp⟩
  providers _ _ _ _ _ _ hget := (smallApis_modules hget).1

theorem smallResources_wellTyped : ∀ r ∈ smallResources.items, WellTyped r.2 := by
  simp only [smallResources, List.forall_mem_cons]
  refine ⟨⟨_, rfl, fun v hv => ?_⟩, ⟨_, rfl, fun v hv => ?_⟩, fun _ h => nomatch h⟩
  · obtain rfl := Option.some.inj hv
    refine ⟨_, rfl, fun provider hprovider => ?_⟩
    rw [List.mem_singleton.mp hprovider]
    exact ⟨_, "feature", rfl, rfl⟩
  · cases hv

theorem smallResources_exact :
    ∃ classes,
      ((buildConformanceList smallPygeoapi smallResources true).run smallPygeoapi.lists).1 =
        .ok classes ∧ classes.Pairwise (· < ·) ∧
      ∀ c, c ∈ classes ↔ smallPygeoapi.Configured smallResources true c :=
  (conformance_exact smallPygeoapi).1 smallResources true smallResources_complete
    smallResources_wellTyped

end FastGeoApi
