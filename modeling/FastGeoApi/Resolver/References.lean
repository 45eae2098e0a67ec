import FastGeoApi.Resolver.Origins
import FastGeoApi.Resolver.Pointers

/-!
# Local references after inlining

A `#/…` reference means a place in the document it was written in. The resolver copies it without
change, so in the result it is followed from the result's own root. It keeps its meaning exactly
when the same pointer, followed from the specification, leads to the same content
(`refsPreserved_iff_sameTarget`).
-/

namespace FastGeoApi
open Unfolding

/-- The document that a text with the given base was written in. -/
def sourceDocument (docs : Documents) (spec : PyVal) : Option String → Except PyError PyVal
  | none => .ok spec
  | some url => docs.get url

/-- `#/…`. -/
def isPointer (ref : String) : Bool := Str.startsWith ref "#/"

section
variable (rd : PointerReading) (docs : Documents) (spec : PyVal)

/-- The reference resolves inside `R`, to the resolved value of its target in its own document. -/
def KeepsMeaning (R : PyVal) (base : Option String) (ref : String) : Prop :=
  ∃ doc v w, sourceDocument docs spec base = .ok doc ∧ rd.read doc ref = some v ∧
    Resolves docs base v w ∧ rd.read R ref = some w

/-- Every local reference in `R` keeps its meaning. -/
def RefsPreserved (R : PyVal) : Prop :=
  ∀ base ref, Copies docs (none, spec) base ref → isPointer ref = true →
    KeepsMeaning rd docs spec R base ref

/-- From the specification, the pointer leads to a place with the content of its target. -/
def SameTarget (base : Option String) (ref : String) : Prop :=
  ∃ doc v p, sourceDocument docs spec base = .ok doc ∧ rd.read doc ref = some v ∧
    Walk docs rd.index (none, spec) (rd.tokens (fragmentOf ref)) p ∧
    Same (look docs) (.live base v) p

end

theorem keepsMeaning_iff_sameTarget {rd : PointerReading} {docs : Documents} {spec R : PyVal}
    (h : Resolves docs none spec R) {base : Option String} {ref : String} :
    KeepsMeaning rd docs spec R base ref ↔ SameTarget rd docs spec base ref := by
  refine ⟨fun ⟨doc, v, w, hdoc, hv, hw, hread⟩ => ?_, fun ⟨doc, v, p, hdoc, hv, hwalk, hsame⟩ => ?_⟩
  · obtain ⟨p, hwalk, hp⟩ := (follow_resolves h).mp hread
    have hsame : Same (look docs) (.live base v) p :=
      (same_iff (look_readable docs)).mpr ⟨w, hw.yields_live, hp⟩
    exact ⟨doc, v, p, hdoc, hv, hwalk, hsame⟩
  · obtain ⟨w, hw, hp⟩ := hsame.exists_yields
    have hread : rd.read R ref = some w := (follow_resolves h).mpr ⟨p, hwalk, hp⟩
    exact ⟨doc, v, w, hdoc, hv, yields_live_iff.mp hw, hread⟩

/-- The local references of a returned specification keep their meaning if and only if each of them,
followed from the specification, leads to the content of its target. -/
theorem refsPreserved_iff_sameTarget (rd : PointerReading) (w : World) (hw : w.Steady) (ttl : Int)
    (s : Session) (spec R : PyVal) (h : Returns w none ttl s spec R) :
    RefsPreserved rd w.document spec R ↔
      ∀ base ref, Copies w.document (none, spec) base ref → isPointer ref = true →
        SameTarget rd w.document spec base ref := by
  have hres : Resolves w.document none spec R := (returns_iff hw).mp h
  unfold RefsPreserved
  simp only [keepsMeaning_iff_sameTarget hres]

/-! ## A reference copied out of a fetched document -/

section
variable (docs : Documents) (spec : PyVal)

/-- The document at `base` has an external reference to the document at `base'`. -/
def RefersTo (base base' : Option String) : Prop :=
  ∃ doc ref url fragment, sourceDocument docs spec base = .ok doc ∧ RefIn ref doc ∧
    isExternal ref = true ∧ splitRef ref base = .ok (url, fragment) ∧ base' = some url

/-- The reference resolves inside the document it names. -/
def RefResolves (rd : PointerReading) (base : Option String) (doc : PyVal) (ref : String) : Prop :=
  if isExternal ref then ∃ p, lookupRef docs ref base = .ok p else ∃ v, rd.read doc ref = some v

/-- In the specification and in every document reachable from it, every reference resolves. -/
def AllRefsResolve (rd : PointerReading) : Prop :=
  ∀ base, Relation.ReflTransGen (RefersTo docs spec) none base →
    ∃ doc, sourceDocument docs spec base = .ok doc ∧ ∀ ref, RefIn ref doc →
      RefResolves docs rd base doc ref

/-- No reachable document leads back to itself. -/
def AcyclicDocuments : Prop :=
  ∀ base, Relation.ReflTransGen (RefersTo docs spec) none base →
    ¬Relation.TransGen (RefersTo docs spec) base base

end

def inliningUrl : String := "https://example.com/d.json"

/-- A document with a reference to one of its own definitions. -/
def inliningDocument : PyVal :=
  .dict [(.str "b", .dict [(.str "$ref", .str "#/c")]), (.str "c", .int 1)]

def inliningStore : Store := [(inliningUrl, inliningDocument)]

def inliningSpec : PyVal := .dict [(.str "a", .dict [(.str "$ref", .str inliningUrl)])]

def inliningResult : PyVal := .dict [(.str "a", inliningDocument)]

theorem inliningSpec_returns :
    Returns inliningStore.world none 86400 Session.start inliningSpec inliningResult :=
  ⟨4, _, rfl⟩

theorem inliningSpec_refsPreserved_iff :
    RefsPreserved .jsonPointer inliningStore.world.document inliningSpec inliningResult ↔
      ∀ base ref, Copies inliningStore.world.document (none, inliningSpec) base ref →
        isPointer ref = true →
        SameTarget .jsonPointer inliningStore.world.document inliningSpec base ref :=
  refsPreserved_iff_sameTarget .jsonPointer inliningStore.world inliningStore.world_steady 86400
    Session.start inliningSpec inliningResult inliningSpec_returns

theorem inlining_get {url : String} {doc : PyVal}
    (h : inliningStore.documents.get url = .ok doc) :
    doc = .dict [] ∨ url = inliningUrl ∧ doc = inliningDocument := by
  unfold Documents.get at h
  split at h
  · unfold Store.documents inliningStore at h
    by_cases hurl : url = inliningUrl
    · simp only [hurl, List.lookup_cons_self, Except.ok.injEq] at h
      exact .inr ⟨hurl, h.symm⟩
    · have hbeq : (url == inliningUrl) = false := beq_eq_false_iff_ne.mpr hurl
      simp [List.lookup_cons, hbeq] at h
  · exact .inl (Except.ok.inj h).symm

theorem not_refIn_str {ref str : String} : ¬RefIn ref (.str str) := by
  rintro ⟨items, hsub, _⟩
  cases hsub

theorem not_refIn_int {ref : String} {i : Int} : ¬RefIn ref (.int i) := by
  rintro ⟨items, hsub, _⟩
  cases hsub

theorem refIn_inliningSpec {ref : String} : RefIn ref inliningSpec ↔ ref = inliningUrl := by
  simp [inliningSpec, refIn_dict, not_refIn_str, eq_comm]

theorem refIn_inliningDocument {ref : String} : RefIn ref inliningDocument ↔ ref = "#/c" := by
  simp [inliningDocument, refIn_dict, not_refIn_str, not_refIn_int, eq_comm]

theorem inlining_refersTo {base base' : Option String}
    (h : RefersTo inliningStore.documents inliningSpec base base') :
    base = none ∧ base' = some inliningUrl := by
  obtain ⟨doc, ref, url, fragment, hdoc, href, hext, hsplit, hbase'⟩ := h
  cases base with
  | none =>
    cases hdoc
    rw [refIn_inliningSpec.mp href] at hsplit
    cases hsplit
    exact ⟨rfl, hbase'⟩
  | some base =>
    rcases inlining_get hdoc with rfl | ⟨_, rfl⟩
    · simp [refIn_dict] at href
    · rw [refIn_inliningDocument.mp href] at hext
      cases hext

theorem inlining_allRefsResolve {rd : PointerReading} (htokens : rd.tokens "/c" = ["c"]) :
    AllRefsResolve inliningStore.documents inliningSpec rd := by
  intro base hbase
  have hreach : base = none ∨ base = some inliningUrl := by
    cases hbase with
    | refl => exact .inl rfl
    | tail _ h => exact .inr (inlining_refersTo h).2
  rcases hreach with rfl | rfl
  · refine ⟨inliningSpec, rfl, fun ref href => ?_⟩
    rw [refIn_inliningSpec.mp href]
    exact ⟨(inliningDocument, inliningUrl), rfl⟩
  · refine ⟨inliningDocument, rfl, fun ref href => ?_⟩
    rw [refIn_inliningDocument.mp href]
    refine ⟨.int 1, ?_⟩
    rw [PointerReading.read, show fragmentOf "#/c" = "/c" from rfl, htokens]
    rfl

theorem inlining_acyclic : AcyclicDocuments inliningStore.documents inliningSpec := by
  intro base _ hcycle
  obtain ⟨_, hfirst, _⟩ := Relation.TransGen.head'_iff.mp hcycle
  obtain ⟨_, _, hlast⟩ := Relation.TransGen.tail'_iff.mp hcycle
  have hnone := (inlining_refersTo hfirst).1
  have hsome := (inlining_refersTo hlast).2
  rw [hnone] at hsome
  cases hsome

theorem inlining_copies :
    Copies inliningStore.documents (none, inliningSpec) (some inliningUrl) "#/c" := by
  let ref : Node := (some inliningUrl, .dict [(.str "$ref", .str "#/c")])
  have hwrites : Writes inliningStore.documents ref (some inliningUrl) "#/c" := by
    refine .kept rfl ?_ (refIn_dict.mpr (.inl rfl))
    intro s hs
    cases hs
    rfl
  have hspec : Copies inliningStore.documents (none, .dict [(.str "$ref", .str inliningUrl)])
      (some inliningUrl) "#/c" := by
    have hl : lookupRef inliningStore.documents inliningUrl none =
        .ok (inliningDocument, inliningUrl) := rfl
    refine (copies_external rfl rfl hl).mpr ((copies_descend rfl).mpr (.inr ?_))
    exact ⟨_, List.mem_cons_self, copies_iff.mpr (.inl hwrites)⟩
  exact (copies_descend rfl).mpr (.inr ⟨_, List.mem_cons_self, hspec⟩)

theorem inlining_not_refsPreserved {rd : PointerReading} (htokens : rd.tokens "/c" = ["c"]) :
    ¬RefsPreserved rd inliningStore.documents inliningSpec inliningResult := by
  intro h
  obtain ⟨_, _, w, _, _, _, hread⟩ := h _ _ inlining_copies rfl
  rw [PointerReading.read, show fragmentOf "#/c" = "/c" from rfl, htokens] at hread
  cases hread

/-- The copied reference points to nothing in the result. -/
theorem inliningSpec_not_refsPreserved :
    inliningStore.world.Steady ∧
      Returns inliningStore.world none 86400 Session.start inliningSpec inliningResult ∧
      AcyclicDocuments inliningStore.world.document inliningSpec ∧
      ∀ rd ∈ [PointerReading.jsonPointer, PointerReading.navigation],
        AllRefsResolve inliningStore.world.document inliningSpec rd ∧
        ¬RefsPreserved rd inliningStore.world.document inliningSpec inliningResult := by
  have htokens : ∀ rd ∈ [PointerReading.jsonPointer, PointerReading.navigation],
      rd.tokens "/c" = ["c"] := by
    intro rd hrd
    simp only [List.mem_cons, List.not_mem_nil, or_false] at hrd
    rcases hrd with rfl | rfl <;> rfl
  refine ⟨inliningStore.world_steady, inliningSpec_returns, ?_⟩
  rw [Store.world_document]
  exact ⟨inlining_acyclic, fun rd hrd =>
    ⟨inlining_allRefsResolve (htokens rd hrd), inlining_not_refsPreserved (htokens rd hrd)⟩⟩

end FastGeoApi
