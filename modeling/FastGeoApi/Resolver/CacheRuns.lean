import FastGeoApi.Resolver.Transparency

/-!
# The disk cache, settled

Any files that a run may find, earlier runs can have left: a reference with a fragment that its
document does not have is fetched, stored, and ends the run (`Filled.fetch`). So a transparent disk
cache gives the same outcome over the documents however they are seen, and that is what `CacheSafe`
says (`cacheSafe_of_transparent`).
-/

namespace FastGeoApi
open Unfolding

/-- A URL with a scheme and without a fragment. -/
def DocumentUrl (url : String) : Prop :=
  '#' ∉ url.toList ∧ ∃ scheme, Url.scheme url = .ok scheme ∧ scheme ≠ ""

section
variable {url : String}

theorem DocumentUrl.ne_empty (h : DocumentUrl url) : url ≠ "" := by
  rintro rfl
  obtain ⟨_, scheme, hscheme, hne⟩ := h
  cases hscheme
  exact hne rfl

theorem splitFirst_append {c : Char} {cs rest : List Char} (h : c ∉ cs) :
    Str.splitFirst c (cs ++ c :: rest) = some (cs, rest) := by
  have hcs : ∀ x ∈ cs, (decide (x ≠ c)) = true := fun x hx =>
    decide_eq_true (ne_of_mem_of_not_mem hx h)
  rw [Str.splitFirst, if_pos (by simp), List.takeWhile_append_of_pos hcs,
    List.dropWhile_append_of_pos hcs]
  simp

/-- A reference into the document at the URL. -/
def refTo (url fragment : String) : String := url ++ "#" ++ fragment

theorem splitRef_refTo (h : DocumentUrl url) (fragment : String) :
    splitRef (refTo url fragment) none = .ok (url, fragment) := by
  have hsplit : Str.splitFirst '#' (refTo url fragment).toList =
      some (url.toList, fragment.toList) := by
    rw [refTo, String.toList_append, String.toList_append, List.append_assoc]
    exact splitFirst_append h.1
  obtain ⟨_, scheme, hscheme, hne⟩ := id h
  simp only [splitRef, hsplit, String.ofList_toList, ne_eq, h.ne_empty, not_false_eq_true, if_true,
    resolveRelativeUrl, hscheme, bind, Except.bind, hne]
  rfl

theorem isExternal_refTo (h : DocumentUrl url) (fragment : String) :
    isExternal (refTo url fragment) = true := by
  have hne : url.toList ≠ [] := fun hnil => h.ne_empty (String.toList_eq_nil_iff.mp hnil)
  obtain ⟨c, cs, hcs⟩ := List.exists_cons_of_ne_nil hne
  have hc : c ≠ '#' := by
    rintro rfl
    exact h.1 (by rw [hcs]; exact List.mem_cons_self)
  rw [isExternal, Bool.not_eq_true', Bool.eq_false_iff, ne_eq, Str.startsWith_iff, refTo,
    String.toList_append, String.toList_append, hcs]
  rintro ⟨rest, hrest⟩
  exact hc (List.cons.inj hrest).1.symm

/-- Every document lacks some fragment. -/
theorem exists_navigate_error (doc : PyVal) :
    ∃ fragment e, navigateToFragment doc fragment = .error e := by
  let part (n : Nat) : String := String.ofList (List.replicate (n + 1) 'x')
  have hpart : ∃ n e, getItem doc (part n) = .error e := by
    cases doc with
    | dict items =>
      have hinj : Function.Injective fun n => PyKey.str (part n) := by
        intro m n h
        have hlength := congrArg String.length (PyKey.str.inj h)
        simpa [part] using hlength
      obtain ⟨n, hn⟩ := ((items.map Prod.fst).finite_toSet.preimage hinj.injOn).exists_notMem
      refine ⟨n, ⟨.keyError, part n⟩, ?_⟩
      have hget : PyVal.get items (part n) = none := by
        rw [PyVal.get, List.lookup_eq_none_iff]
        intro kv hkv
        have hne : PyKey.str (part n) ≠ kv.1 := by
          intro heq
          exact hn (List.mem_map.mpr ⟨kv, hkv, heq.symm⟩)
        simpa using hne
      rw [getItem, hget]
    | _ => exact ⟨0, _, rfl⟩
  obtain ⟨n, e, he⟩ := hpart
  refine ⟨String.ofList ('/' :: List.replicate (n + 1) 'x'), e, ?_⟩
  have hparts : fragmentParts (String.ofList ('/' :: List.replicate (n + 1) 'x')) = [part n] := by
    have hsplit : Str.split '/' ('/' :: List.replicate (n + 1) 'x') =
        [[], List.replicate (n + 1) 'x'] := by
      have hparts := Str.split_flatMap (c := '/') (List.forall_mem_singleton.mpr
        (by simp : '/' ∉ List.replicate (n + 1) 'x'))
      rwa [List.flatMap_singleton] at hparts
    rw [fragmentParts, Str.filter_split_strip, String.toList_ofList, hsplit]
    simp [part]
  have hne : ¬(String.ofList ('/' :: List.replicate (n + 1) 'x') = "" ∨
      String.ofList ('/' :: List.replicate (n + 1) 'x') = "/") := by
    rintro (h | h) <;> have hlist := congrArg String.toList h <;> simp at hlist
  rw [navigateToFragment, if_neg hne, hparts, List.foldlM_cons, he]
  rfl

end

section
variable {w : World} {dir : String} {used : Set String} {ttl : Int}

/-! ## The files that earlier runs can leave -/

/-- A run that is asked for a missing fragment of a document leaves its file, and no other. -/
theorem Filled.fetch {s : Session} {url : String} {doc : PyVal} (h : Filled w dir used s)
    (hw : w.Steady) (hfiles : w.WritesSucceed) (hurl : url ∈ used) (habs : DocumentUrl url)
    (hdoc : w.document url = .ok doc) (hmiss : s.disk (getCachePath w url dir) = none) :
    ∃ s', Filled w dir used s' ∧ s'.disk (getCachePath w url dir) ≠ none ∧
      ∀ path, path ≠ getCachePath w url dir → s'.disk path = s.disk path := by
  obtain ⟨fragment, e, hnav⟩ := exists_navigate_error doc
  let start : Session := { s with documentCache := fun _ => none }
  obtain ⟨r, s', hget, hstep⟩ := getDocument_step hw hfiles url dir 0 start
  have hread : readFromCache w url dir 0 start = some (.ok .none, start) :=
    readFromCache_missing hmiss
  have hstored : (r = .ok doc ∨ ∃ e, r = .error e) ∧
      s' = ((start.request url).remember url doc).write w dir url doc := by
    cases hstep with
    | memory hmem => cases hmem
    | broken _ hread' => cases hread.symm.trans hread'
    | disk _ hread' hsome =>
      cases hread.symm.trans hread'
      cases hsome
    | failed _ _ _ hdoc' => cases hdoc.symm.trans hdoc'
    | fetched _ hread' _ hdoc' =>
      cases hread.symm.trans hread'
      cases hdoc.symm.trans hdoc'
      refine ⟨?_, rfl⟩
      cases jsonRoundTrip doc with
      | error e => exact .inr ⟨e, rfl⟩
      | ok doc' => exact .inl rfl
  obtain ⟨hr, rfl⟩ := hstored
  have href : ∃ e, resolveRef w (refTo url fragment) none (some dir) 0 start =
      some (.error e, ((start.request url).remember url doc).write w dir url doc) := by
    unfold resolveRef
    rw [splitRef_refTo habs]
    simp only [Run.bind_apply, Run.lift, ne_eq, habs.ne_empty, not_false_eq_true, if_true, hget]
    rcases hr with rfl | ⟨e, rfl⟩
    · simp only [hnav]
      exact ⟨e, rfl⟩
    · exact ⟨e, rfl⟩
  obtain ⟨e, href⟩ := href
  have hrun : resolveExternalRefs w 1 (.dict [(.str "$ref", .str (refTo url fragment))])
      (some dir) 0 s =
        some (.error e, ((start.request url).remember url doc).write w dir url doc) := by
    have hsole : soleRef? [(.str "$ref", .str (refTo url fragment))] =
        some (.str (refTo url fragment)) := rfl
    unfold resolveExternalRefs
    simp only [Run.bind_apply, Run.update, resolveObject, hsole, isExternal_refTo habs, if_true]
    rw [show resolveRef w (refTo url fragment) none (some dir) 0
      { s with documentCache := fun _ => none } = _ from href]
  refine ⟨_, .run h hrun fun other hother => ?_, by simp, fun path hpath => ?_⟩
  · by_cases heq : other = url
    · exact heq ▸ hurl
    · rw [Session.write_documentCache, Session.remember_other heq] at hother
      exact absurd rfl hother
  · rw [Session.write_other hpath]
    rfl

/-- Earlier runs can have left the files of any used documents. -/
theorem exists_filled (hw : w.Steady) (hfiles : w.WritesSucceed)
    (hinj : Set.InjOn (fun url => getCachePath w url dir) used)
    (habs : ∀ url ∈ used, ∀ doc, w.document url = .ok doc → DocumentUrl url)
    (cached : Finset String)
    (hcached : ∀ url ∈ cached, url ∈ used ∧ ∃ doc, w.document url = .ok doc) :
    ∃ s, Filled w dir used s ∧
      ∀ url, url ∈ cached ↔ url ∈ used ∧ s.disk (getCachePath w url dir) ≠ none := by
  induction cached using Finset.induction_on with
  | empty => exact ⟨Session.start, .empty rfl, fun url => by simp [Session.start]⟩
  | insert url cached hnew ih =>
    obtain ⟨hurl, doc, hdoc⟩ := hcached url (Finset.mem_insert_self _ _)
    obtain ⟨s, hs, hdisk⟩ := ih fun other hother => hcached other (Finset.mem_insert_of_mem hother)
    have hmiss : s.disk (getCachePath w url dir) = none := by
      by_contra hfile
      exact hnew ((hdisk url).mpr ⟨hurl, hfile⟩)
    obtain ⟨s', hs', hfile, hother⟩ := hs.fetch hw hfiles hurl (habs url hurl doc hdoc) hdoc hmiss
    refine ⟨s', hs', fun other => ?_⟩
    rw [Finset.mem_insert, hdisk other]
    by_cases heq : other = url
    · subst heq
      exact iff_of_true (.inl rfl) ⟨hurl, hfile⟩
    · by_cases hother' : other ∈ used
      · have hpath : getCachePath w other dir ≠ getCachePath w url dir := fun hpath =>
          heq (hinj hother' hurl hpath)
        simp [heq, hother', hother _ hpath]
      · simp [heq, hother']

theorem lookupRef_seen_congr {docs : Documents} {cached cached' : Finset String}
    {base : Option String} {ref : String}
    (h : ∀ url fragment doc, splitRef ref base = .ok (url, fragment) → url ≠ "" →
      docs url = .ok doc → (url ∈ cached ↔ url ∈ cached')) :
    lookupRef (docs.seen cached) ref base = lookupRef (docs.seen cached') ref base := by
  unfold lookupRef
  cases hsplit : splitRef ref base with
  | error e => rfl
  | ok p =>
    obtain ⟨url, fragment⟩ := p
    by_cases hurl : url = ""
    · simp only [hurl, Documents.get]
      rfl
    · have hseen : docs.seen cached url = docs.seen cached' url := by
        cases hdoc : docs url with
        | error e => rw [seen_of_error hdoc, seen_of_error hdoc]
        | ok doc => simp only [Documents.seen, hdoc, h url fragment doc hsplit hurl hdoc]
      simp only [bind, Except.bind, Documents.get, ne_eq, hurl, not_false_eq_true, if_true, hseen]

/-- Whichever documents a run may come to see from cache files, there are earlier runs after which
it does. -/
theorem exists_outcome_seen (hw : w.Steady) (hfiles : w.WritesSucceed)
    (hinj : Set.InjOn (fun url => getCachePath w url dir) used)
    (habs : ∀ url ∈ used, ∀ doc, w.document url = .ok doc → DocumentUrl url)
    (hfresh : w.Unexpiring ttl) {spec : PyVal} (hused : UsedBy w.document used spec)
    (cached : Finset String) : ∃ s, Filled w dir used s ∧ ∀ r,
      Outcome w (some dir) ttl s spec r ↔
        Yields (expand (w.document.seen cached)) (none, spec) r := by
  classical
  let stored := cached.filter fun url => url ∈ used ∧ ∃ doc, w.document url = .ok doc
  obtain ⟨s, hs, hstored⟩ := exists_filled hw hfiles hinj habs stored fun url hurl =>
    (Finset.mem_filter.mp hurl).2
  refine ⟨s, hs, fun r => ?_⟩
  rw [hs.outcome_iff hw hfiles hinj hfresh hused hstored]
  refine yields_of_lookups fun base ref hl => lookupRef_seen_congr ?_
  intro url fragment doc hsplit hurl hdoc
  have hmem : url ∈ used := hused cached base ref url fragment hl hsplit hurl
  simp [stored, hmem, hdoc]

/-! ## What transparency says of the documents -/

/-- Where a run returns the same with and without cache files, what it looks up survives. -/
theorem unchanged_of_resolves {docs : Documents} {spec R : PyVal}
    (hno : ∀ url doc, docs url = .ok doc → NoClash doc) (hR : Resolves docs none spec R)
    (hseen : ∀ cached, Resolves (docs.seen cached) none spec R) : Unchanged docs spec := by
  intro base ref hl url fragment doc hsplit hurl hdoc
  have hsame : ∀ cached, lookupRef (docs.seen cached) ref base = lookupRef docs ref base :=
    fun cached => (follow hno hR spec (.inl rfl) (hseen cached)).2 base ref hl
  have hget : docs.get url = .ok doc := by rw [Documents.get, if_pos hurl, hdoc]
  -- a reference without a target would have ended the run
  have hlook : ∃ v, lookupRef docs ref base = .ok (v, url) ∧
      navigateToFragment doc fragment = .ok v := by
    cases hlook : lookupRef docs ref base with
    | error e => exact absurd hR (not_yields_of_broken ⟨base, ref, e, hl, hlook⟩ R)
    | ok p =>
      obtain ⟨fragment', doc', hsplit', hget', hnav⟩ := lookupRef_eq_ok.mp hlook
      cases hsplit.symm.trans hsplit'
      cases hget.symm.trans hget'
      exact ⟨p.1, rfl, hnav⟩
  obtain ⟨v, hlook, hnav⟩ := hlook
  obtain ⟨fragment', m, hsplit', hm, hnav'⟩ := lookupRef_eq_ok.mp ((hsame {url}).trans hlook)
  cases hsplit.symm.trans hsplit'
  rw [Documents.get, if_pos hurl] at hm
  obtain ⟨doc₁, doc', hdoc₁, htrip, rfl⟩ := seen_eq_ok.mp hm
  cases hdoc.symm.trans hdoc₁
  rw [if_pos (Finset.mem_singleton_self url)] at hnav'
  exact ⟨doc', htrip, hnav'.trans hnav.symm⟩

theorem cacheSafe_of_transparent (hw : w.Steady) (hfiles : w.WritesSucceed)
    (hinj : Set.InjOn (fun url => getCachePath w url dir) used)
    (habs : ∀ url ∈ used, ∀ doc, w.document url = .ok doc → DocumentUrl url)
    (hfresh : w.Unexpiring ttl) (hno : ∀ url doc, w.document url = .ok doc → NoClash doc)
    {spec : PyVal} (hused : UsedBy w.document used spec) (h : Transparent w dir used ttl spec) :
    CacheSafe w.document spec := by
  have hreturns : ∀ cached R, Resolves (w.document.seen cached) none spec R ↔
      Resolves w.document none spec R := by
    intro cached R
    obtain ⟨s, hs, hseen⟩ := exists_outcome_seen hw hfiles hinj habs hfresh hused cached
    exact (hseen (.ok R)).symm.trans (((h s hs).1 R).trans (returns_iff hw))
  have hraises : ∀ cached, Broken (w.document.seen cached) spec ↔ Broken w.document spec := by
    intro cached
    obtain ⟨s, hs, hseen⟩ := exists_outcome_seen hw hfiles hinj habs hfresh hused cached
    have hplain : Raises w none ttl s spec ↔ Broken w.document spec :=
      (exists_congr fun e => outcome_iff hw).trans broken_iff.symm
    exact broken_iff.trans ((exists_congr fun e => (hseen (.error e)).symm).trans
      ((h s hs).2.trans hplain))
  by_cases hR : ∃ R, Resolves w.document none spec R
  · obtain ⟨R, hR⟩ := hR
    exact .inl (unchanged_of_resolves hno hR fun cached => (hreturns cached R).mpr hR)
  by_cases hbroken : Broken w.document spec
  · exact .inr (.inl ⟨hbroken, fun cached => (hraises cached).mpr hbroken⟩)
  · have hendless : ∀ docs : Documents, (¬∃ R, Resolves docs none spec R) → ¬Broken docs spec →
        Endless docs spec := by
      intro docs hR hbroken
      refine endless_iff.mpr fun ⟨r, hr⟩ => ?_
      cases r with
      | ok R => exact hR ⟨R, hr⟩
      | error e => exact hbroken (broken_iff.mpr ⟨e, hr⟩)
    refine .inr (.inr ⟨hendless _ hR hbroken, fun cached => hendless _ ?_ ?_⟩)
    · exact fun ⟨R, hseen⟩ => hR ⟨R, (hreturns cached R).mp hseen⟩
    · exact fun hseen => hbroken ((hraises cached).mp hseen)

end

/-- The disk cache is transparent when the cache files make no difference to the documents as a run
sees them; and only then, where no two keys of a dict are written alike and the documents are at
absolute URLs. -/
theorem transparent_iff_cacheSafe (w : World) (hw : w.Steady) (hfiles : w.WritesSucceed)
    (dir : String) (used : Set String)
    (hinj : Set.InjOn (fun url => getCachePath w url dir) used) (ttl : Int)
    (hfresh : w.Unexpiring ttl) (spec : PyVal) (hused : UsedBy w.document used spec) :
    (CacheSafe w.document spec → Transparent w dir used ttl spec) ∧
      ((∀ url doc, w.document url = .ok doc → NoClash doc) →
        (∀ url ∈ used, ∀ doc, w.document url = .ok doc → DocumentUrl url) →
        Transparent w dir used ttl spec → CacheSafe w.document spec) := by
  refine ⟨transparent_of_cacheSafe hw hfiles hinj hfresh hused, fun hno habs h => ?_⟩
  exact cacheSafe_of_transparent hw hfiles hinj habs hfresh hno hused h

def dateUrl : String := "https://example.com/d.yaml"

/-- A YAML document with a date. -/
def dateStore : Store := [(dateUrl, .dict [(.str "released", .other "2024-01-01")])]

def dateSpec : PyVal := .dict [(.str "a", .dict [(.str "$ref", .str dateUrl)])]

def dateResult : PyVal := .dict [(.str "a", .dict [(.str "released", .other "2024-01-01")])]

/-- With the disk cache there is no value behind the reference. -/
theorem dateSpec_usedBy : UsedBy dateStore.world.document {dateUrl} dateSpec := by
  intro cached base ref url fragment hl hsplit _
  obtain ⟨kv, hkv, hl⟩ := looksUp_descend rfl hl
  obtain rfl := List.mem_singleton.mp hkv
  rcases looksUp_iff.mp hl with ⟨items, heq, sole, _⟩ | ⟨m, hm, _⟩
  · cases heq
    cases sole
    cases hsplit
    exact rfl
  · obtain ⟨v, url', hlook, _⟩ := (succ_external rfl rfl).mp hm.succ
    obtain ⟨_, doc, hsplit', hdoc, _⟩ := lookupRef_eq_ok.mp hlook
    cases hsplit'
    obtain ⟨_, _, hdoc', htrip, _⟩ := seen_eq_ok.mp (show dateStore.world.document.seen cached
      dateUrl = .ok doc from hdoc)
    cases hdoc'
    cases htrip

theorem dateStore_files : dateStore.world.WritesSucceed := ⟨fun _ _ => rfl, fun _ _ => rfl⟩

/-- The clock of a store stands still. -/
theorem Store.unexpiring (store : Store) : store.world.Unexpiring 86400 := by
  intro m n
  have hage : ¬(PyFloat.ofRat (store.world.time m - store.world.time n)).exceeds 86400 = true := by
    rw [PyFloat.exceeds_ofRat ⟨0, 0, by decide, by decide, by decide, by simp [Store.world]⟩]
    simp [Store.world]
  exact Bool.eq_false_iff.mpr hage

theorem dateStore_noClash (url : String) (doc : PyVal)
    (h : dateStore.world.document url = .ok doc) : NoClash doc := by
  have hdoc : dateStore.documents url = .ok doc := dateStore.world_document ▸ h
  rw [Store.documents] at hdoc
  split at hdoc
  · rename_i doc' hlookup
    obtain ⟨_, _, hstore, _⟩ := List.lookup_eq_some_iff.mp hlookup
    cases hdoc
    have hmem : (url, doc) ∈ dateStore := by
      rw [hstore]
      simp
    obtain ⟨rfl, rfl⟩ := Prod.mk.inj (List.mem_singleton.mp hmem)
    intro items hitems
    cases hitems with
    | refl => exact List.pairwise_singleton _ _
    | dict hx hsub =>
      obtain ⟨-, rfl⟩ := Prod.mk.inj (List.mem_singleton.mp hx)
      cases hsub
  · cases hdoc

theorem dateUrl_documentUrl : DocumentUrl dateUrl := ⟨by decide, "https", rfl, by decide⟩

theorem dateSpec_transparent_iff :
    Transparent dateStore.world "/cache" {dateUrl} 86400 dateSpec ↔
      CacheSafe dateStore.world.document dateSpec := by
  have h := transparent_iff_cacheSafe dateStore.world dateStore.world_steady dateStore_files
    "/cache" {dateUrl} (Set.injOn_singleton _ _) 86400 dateStore.unexpiring dateSpec
    dateSpec_usedBy
  exact ⟨h.2 dateStore_noClash fun url hurl _ _ => hurl ▸ dateUrl_documentUrl, h.1⟩

theorem dateSpec_returns : Returns dateStore.world none 86400 Session.start dateSpec dateResult :=
  ⟨4, _, rfl⟩

/-- With an empty disk cache, writing the document raises. -/
theorem dateSpec_raises (k : Nat) :
    ∃ s, resolveExternalRefs dateStore.world (k + 2) dateSpec (some "/cache") 86400
      Session.start = some (.error ⟨.typeError, "Object is not JSON serializable"⟩, s) :=
  ⟨_, rfl⟩

theorem dateSpec_not_transparent :
    dateStore.world.Steady ∧ dateStore.world.WritesSucceed ∧ dateStore.world.Unexpiring 86400 ∧
      Set.InjOn (fun url => getCachePath dateStore.world url "/cache") {dateUrl} ∧
      UsedBy dateStore.world.document {dateUrl} dateSpec ∧
      Returns dateStore.world none 86400 Session.start dateSpec dateResult ∧
      Raises dateStore.world (some "/cache") 86400 Session.start dateSpec ∧
      ¬Transparent dateStore.world "/cache" {dateUrl} 86400 dateSpec := by
  refine ⟨dateStore.world_steady, dateStore_files, dateStore.unexpiring, Set.injOn_singleton _ _,
    dateSpec_usedBy, dateSpec_returns, ?_, fun h => ?_⟩
  · obtain ⟨s, hs⟩ := dateSpec_raises 0
    exact ⟨_, 2, s, hs⟩
  · obtain ⟨k, s', hrun⟩ := ((h Session.start (.empty rfl)).1 dateResult).mpr dateSpec_returns
    match k, hrun with
    | 0, hrun => cases hrun
    | 1, hrun => cases hrun
    | k + 2, hrun =>
      obtain ⟨s, hs⟩ := dateSpec_raises k
      rw [hs] at hrun
      cases hrun

end FastGeoApi
