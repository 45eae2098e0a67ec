import FastGeoApi.Resolver.Inlining
import FastGeoApi.Resolver.Sessions
import Mathlib.Data.Set.Finite.Lattice

/-!
# Transparency of the disk cache

A cache file holds what JSON keeps of the fetched document. A run with the disk cache is a run over
the documents as `Documents.seen` has them: those that it finds in cache files are as JSON keeps
them, and those that JSON cannot encode are an error (`Filled.outcome_iff`). When that makes no
difference to what a run without the disk cache comes to is said by `CacheSafe`. Cache files come
from earlier runs (`Filled`); `used` is a set of URLs no two of which have the same cache file.
-/

namespace FastGeoApi
open Unfolding

/-- The documents that the run has in memory are all at URLs of the set. -/
def UsesOnly (used : Set String) (s : Session) : Prop :=
  ∀ url, s.documentCache url ≠ none → url ∈ used

/-- The disk cache is empty, or was filled by earlier runs. -/
inductive Filled (w : World) (dir : String) (used : Set String) : Session → Prop where
  | empty (h : s.disk = fun _ => none) : Filled w dir used s
  | run (h : Filled w dir used s)
      (hrun : resolveExternalRefs w fuel spec (some dir) ttl s = some (r, s'))
      (hused : UsesOnly used s') : Filled w dir used s'

/-- What is written at one time has not expired at another. -/
def World.Unexpiring (w : World) (ttl : Int) : Prop :=
  ∀ m n, (PyFloat.ofRat (w.time m - w.time n)).exceeds ttl = false

def Raises (w : World) (dir : Option String) (ttl : Int) (s : Session) (spec : PyVal) : Prop :=
  ∃ e, Outcome w dir ttl s spec (.error e)

/-- A run with the disk cache returns what a run without it returns, and raises when that does. -/
def Transparent (w : World) (dir : String) (used : Set String) (ttl : Int) (spec : PyVal) : Prop :=
  ∀ s, Filled w dir used s →
    (∀ R, Returns w (some dir) ttl s spec R ↔ Returns w none ttl s spec R) ∧
    (Raises w (some dir) ttl s spec ↔ Raises w none ttl s spec)

/-- The documents as a run has them that finds cache files for the given URLs. -/
def Documents.seen (docs : Documents) (cached : Finset String) : Documents := fun url => do
  let doc ← docs url
  let doc' ← jsonRoundTrip doc
  return if url ∈ cached then doc' else doc

/-- The fragment is the same in the document and in what JSON keeps of it. -/
def Survives (docs : Documents) (base : Option String) (ref : String) : Prop :=
  ∀ url fragment doc, splitRef ref base = .ok (url, fragment) → url ≠ "" → docs url = .ok doc →
    ∃ doc', jsonRoundTrip doc = .ok doc' ∧
      navigateToFragment doc' fragment = navigateToFragment doc fragment

/-- Whatever a run looks up survives a JSON round trip. -/
def Unchanged (docs : Documents) (spec : PyVal) : Prop :=
  ∀ base ref, LooksUp docs (none, spec) base ref → Survives docs base ref

/-- A reference that a run looks up has no target. -/
def Broken (docs : Documents) (spec : PyVal) : Prop :=
  ∃ base ref e, LooksUp docs (none, spec) base ref ∧ lookupRef docs ref base = .error e

/-- What a run goes through has no end. -/
def Endless (docs : Documents) (spec : PyVal) : Prop :=
  ∃ path : Nat → Node, path 0 = (none, spec) ∧ ∀ i, Visits (expand docs) (path i) (path (i + 1))

/-- The cache files make no difference: what is looked up survives, or some reference that is
looked up has no target whichever documents come from cache files, or there is no end whichever
do. -/
def CacheSafe (docs : Documents) (spec : PyVal) : Prop :=
  Unchanged docs spec ∨
    (Broken docs spec ∧ ∀ cached, Broken (docs.seen cached) spec) ∨
    (Endless docs spec ∧ ∀ cached, Endless (docs.seen cached) spec)

/-- Every document that a run with the disk cache looks up is at a URL of the set. -/
def UsedBy (docs : Documents) (used : Set String) (spec : PyVal) : Prop :=
  ∀ cached base ref url fragment, LooksUp (docs.seen cached) (none, spec) base ref →
    splitRef ref base = .ok (url, fragment) → url ≠ "" → url ∈ used

/-! ## Runs over documents -/

section
variable {docs docs' : Documents} {n : Node} {spec : PyVal} {cached : Finset String}

theorem seen_eq_ok {url : String} {m : PyVal} : docs.seen cached url = .ok m ↔
    ∃ doc doc', docs url = .ok doc ∧ jsonRoundTrip doc = .ok doc' ∧
      m = if url ∈ cached then doc' else doc := by
  simp only [Documents.seen, except_bind_ok, pure, Except.pure, Except.ok.injEq, eq_comm (b := m),
    exists_and_left]

theorem seen_of_error {url : String} {e : PyError} (h : docs url = .error e) :
    docs.seen cached url = .error e := by
  rw [Documents.seen, h]
  rfl

theorem seen_of_unencodable {url : String} {doc : PyVal} {e : PyError} (h : docs url = .ok doc)
    (htrip : jsonRoundTrip doc = .error e) : docs.seen cached url = .error e := by
  rw [Documents.seen, h]
  simp only [bind, Except.bind, htrip]

/-- Two sets of documents that answer the lookups of a node alike give it the same outcomes. -/
theorem yields_of_lookups (h : ∀ base ref, LooksUp docs n base ref →
    lookupRef docs' ref base = lookupRef docs ref base) {r : Except PyError PyVal} :
    Yields (expand docs') n r ↔ Yields (expand docs) n r := by
  refine yields_congr fun m hm => ?_
  obtain ⟨base, v⟩ := m
  cases v with
  | dict items =>
    cases dictCase items with
    | external ref sole isExt =>
      rw [expand_external sole isExt, expand_external sole isExt,
        h base ref ⟨items, hm, sole, isExt⟩]
    | keep v sole keep => rw [expand_keep sole keep, expand_keep sole keep]
    | descend sole => rw [expand_descend sole, expand_descend sole]
  | list xs => rw [expand_list, expand_list]
  | _ => rfl

theorem broken_iff : Broken docs spec ↔ ∃ e, Yields (expand docs) (none, spec) (.error e) := by
  simp only [yields_error_iff]
  refine ⟨?_, ?_⟩
  · rintro ⟨base, ref, e, ⟨items, hreach, sole, isExt⟩, hlook⟩
    exact ⟨e, _, hreach, by rw [expand_external sole isExt, hlook]⟩
  · rintro ⟨e, m, hreach, hfail⟩
    have hcase := expands docs m
    rw [hfail] at hcase
    cases hcase with
    | broken sole isExt hlook => exact ⟨_, _, e, ⟨_, hreach, sole, isExt⟩, hlook⟩

theorem endless_iff : Endless docs spec ↔ ¬Halts (expand docs) (none, spec) := not_halts_iff.symm

theorem not_yields_of_broken (h : Broken docs spec) (R : PyVal) :
    ¬Yields (expand docs) (none, spec) (.ok R) := by
  obtain ⟨e, he⟩ := broken_iff.mp h
  intro hR
  cases hR.unique he

theorem lookupRef_seen {base : Option String} {ref : String} (h : Survives docs base ref) :
    lookupRef (docs.seen cached) ref base = lookupRef docs ref base := by
  unfold lookupRef
  cases hsplit : splitRef ref base with
  | error e => rfl
  | ok p =>
    obtain ⟨url, fragment⟩ := p
    by_cases hurl : url = ""
    · simp only [hurl, Documents.get]
      rfl
    · simp only [bind, Except.bind, Documents.get, ne_eq, hurl, not_false_eq_true, if_true]
      cases hdoc : docs url with
      | error e => rw [seen_of_error hdoc]
      | ok doc =>
        obtain ⟨doc', htrip, hnav⟩ := h url fragment doc hsplit hurl hdoc
        rw [seen_eq_ok.mpr ⟨doc, doc', hdoc, htrip, rfl⟩]
        have hsame : navigateToFragment (if url ∈ cached then doc' else doc) fragment =
            navigateToFragment doc fragment := by
          split
          · exact hnav
          · rfl
        simp only [hsame]

end

section
variable {w : World} {dir : String} {used : Set String} {ttl : Int}

/-! ## The files of earlier runs -/

/-- The cache files of used URLs were written for the document at their URL. -/
def OwnFiles (w : World) (dir : String) (used : Set String) (s : Session) : Prop :=
  ∀ url ∈ used, ∀ file, s.disk (getCachePath w url dir) = some file →
    ∃ n doc, w.document url = .ok doc ∧ file = cacheFile (w.time n) url doc

theorem OwnFiles.write (h : OwnFiles w dir used s)
    (hinj : Set.InjOn (fun url => getCachePath w url dir) used) (hurl : url ∈ used)
    (hdoc : w.document url = .ok doc) : OwnFiles w dir used (s.write w dir url doc) := by
  intro url' hurl' file hfile
  by_cases heq : getCachePath w url' dir = getCachePath w url dir
  · have hsame : url' = url := hinj hurl' hurl heq
    subst hsame
    rw [Session.write_self, Option.some.injEq] at hfile
    exact ⟨_, doc, hdoc, hfile.symm⟩
  · rw [Session.write_other heq] at hfile
    exact h url' hurl' file hfile

/-- What an earlier run does to a session: documents stay in memory, and own files stay own files
as long as the URLs are used ones. -/
def KeepsFiles (w : World) (dir : String) (used : Set String) (s s' : Session) : Prop :=
  (∀ url, s.documentCache url ≠ none → s'.documentCache url ≠ none) ∧
    (UsesOnly used s' → OwnFiles w dir used s → OwnFiles w dir used s')

theorem KeepsFiles.refl (s : Session) : KeepsFiles w dir used s s :=
  ⟨fun _ h => h, fun _ h => h⟩

theorem KeepsFiles.trans (s s' s'' : Session) (h : KeepsFiles w dir used s s')
    (h' : KeepsFiles w dir used s' s'') : KeepsFiles w dir used s s'' := by
  refine ⟨fun url hurl => h'.1 url (h.1 url hurl), fun hused hs => h'.2 hused (h.2 ?_ hs)⟩
  exact fun url hurl => hused url (h'.1 url hurl)

theorem KeepsFiles.remember {s : Session} {url : String} {doc : PyVal} :
    KeepsFiles w dir used s (s.remember url doc) := by
  refine ⟨fun url' hurl' => ?_, fun _ hs => hs⟩
  by_cases heq : url' = url
  · subst heq
    simp
  · rwa [Session.remember_other heq]

theorem KeepsFiles.onlyClock {s s' : Session} (h : OnlyClock s s') :
    KeepsFiles w dir used s s' := by
  obtain ⟨n, rfl⟩ := h
  exact ⟨fun _ h => h, fun _ h => h⟩

theorem getDocument_keepsFiles (hw : w.Steady) (hfiles : w.WritesSucceed)
    (hinj : Set.InjOn (fun url => getCachePath w url dir) used) (url : String) :
    Run.Within (KeepsFiles w dir used) (getDocument w url (some dir) ttl) := by
  intro s r s' h
  obtain ⟨r', s'', hget, hstep⟩ := getDocument_step hw hfiles url dir ttl s
  rw [h] at hget
  cases hget
  cases hstep with
  | memory => exact .refl s
  | broken _ hread => exact .onlyClock (readFromCache_within _ _ _ _ _ _ _ hread)
  | disk _ hread =>
    have hclock := readFromCache_within _ _ _ _ _ _ _ hread
    exact .trans _ _ _ (.onlyClock hclock) .remember
  | failed _ hread =>
    have hclock := readFromCache_within _ _ _ _ _ _ _ hread
    exact .trans _ _ _ (.onlyClock hclock) ⟨fun _ h => h, fun _ h => h⟩
  | @fetched s₁ _ doc _ hread _ hdoc =>
    have hclock := readFromCache_within _ _ _ _ _ _ _ hread
    have hmem : KeepsFiles w dir used s ((s₁.request url).remember url doc) :=
      .trans _ _ _ (.onlyClock hclock) (.trans _ _ _ ⟨fun _ h => h, fun _ h => h⟩ .remember)
    refine .trans _ _ _ hmem ⟨fun _ h => h, fun hused hs => hs.write hinj ?_ hdoc⟩
    exact hused url (by simp)

theorem Filled.ownFiles (hw : w.Steady) (hfiles : w.WritesSucceed)
    (hinj : Set.InjOn (fun url => getCachePath w url dir) used) (h : Filled w dir used s) :
    OwnFiles w dir used s := by
  induction h with
  | empty h =>
    intro url _ file hfile
    simp [h] at hfile
  | run _ hrun hused ih =>
    have hkeeps := resolveObject_within KeepsFiles.refl KeepsFiles.trans
      (getDocument_keepsFiles hw hfiles hinj) _ _ _ _ _ _ hrun
    exact hkeeps.2 hused ih

/-- Earlier runs have left finitely many files. -/
theorem Filled.finite (h : Filled w dir used s) : {path | s.disk path ≠ none}.Finite := by
  induction h with
  | empty h => simp [h]
  | @run s fuel spec ttl r s' _ hrun _ ih =>
    let KeepsFinite (s s' : Session) : Prop :=
      {path | s.disk path ≠ none}.Finite → {path | s'.disk path ≠ none}.Finite
    refine resolveObject_within (I := KeepsFinite) (fun _ h => h) (fun _ _ _ h h' hs => h' (h hs))
      (fun url t r t' hcall ht => ?_) _ _ _ _ _ _ hrun ih
    obtain ⟨_, _, hget, hstep⟩ := getDocument_call w url dir ttl t
    rw [hcall] at hget
    cases hget
    have hclock : ∀ {r' t₁}, readFromCache w url dir ttl t = some (r', t₁) → t₁.disk = t.disk := by
      intro r' t₁ hread
      obtain ⟨n, rfl⟩ := readFromCache_within _ _ _ _ _ _ _ hread
      rfl
    cases hstep with
    | memory => exact ht
    | broken _ hread | disk _ hread | failed _ hread => exact (hclock hread).symm ▸ ht
    | fetched _ hread _ _ hwrite =>
      refine (ht.insert (getCachePath w url dir)).subset fun path hpath => ?_
      by_cases heq : path = getCachePath w url dir
      · exact .inl heq
      · have hbefore : t.disk path = t'.disk path := by
          rw [← hclock hread]
          exact (hwrite.frame.other path heq).symm
        exact .inr fun hnone => hpath (hbefore ▸ hnone)

theorem Filled.exists_cached (h : Filled w dir used s)
    (hinj : Set.InjOn (fun url => getCachePath w url dir) used) :
    ∃ cached : Finset String, ∀ url,
      url ∈ cached ↔ url ∈ used ∧ s.disk (getCachePath w url dir) ≠ none := by
  have hfin : {url | url ∈ used ∧ s.disk (getCachePath w url dir) ≠ none}.Finite :=
    .of_finite_image (h.finite.subset (by rintro _ ⟨url, ⟨_, hdisk⟩, rfl⟩; exact hdisk))
      (hinj.mono fun _ h => h.1)
  exact ⟨hfin.toFinset, fun url => hfin.mem_toFinset⟩

/-! ## What a run sees -/

/-- A value that reads back as `None` is `None`. -/
theorem jsonRoundTrip_isNone {doc doc' : PyVal} (htrip : jsonRoundTrip doc = .ok doc')
    (hnone : doc'.isNone = true) : doc = doc' := by
  have hdoc' : doc' = .none := by
    cases doc' <;> first | rfl | cases hnone
  subst hdoc'
  cases doc with
  | none => rfl
  | int i =>
    rw [jsonRoundTrip, except_bind_ok] at htrip
    obtain ⟨_, _, h⟩ := htrip
    cases h
  | list xs =>
    obtain ⟨_, _, h⟩ := jsonRoundTrip_list.mp htrip
    cases h
  | tuple xs =>
    obtain ⟨_, _, h⟩ := jsonRoundTrip_tuple.mp htrip
    cases h
  | dict items =>
    obtain ⟨_, _, h⟩ := jsonRoundTrip_dict.mp htrip
    cases h
  | _ => cases htrip

/-- What reading the cache file of a used URL comes to: there is no file, there is a part of a text,
or there is an entry. -/
inductive OwnRead (w : World) (url : String) (file : Option CacheFile) :
    Except PyError PyVal → Prop where
  | missing (h : file = none) : OwnRead w url file (.ok .none)
  | unencodable (hdoc : w.document url = .ok doc) (htrip : jsonRoundTrip doc = .error e) :
    OwnRead w url file (.ok .none)
  | entry (h : file ≠ none) (hdoc : w.document url = .ok doc)
      (htrip : jsonRoundTrip doc = .ok doc') : OwnRead w url file (.ok doc')

theorem OwnFiles.read {s t t₁ : Session} {url : String} {r : Except PyError PyVal}
    (h : OwnFiles w dir used s) (hfresh : w.Unexpiring ttl) (hurl : url ∈ used)
    (hsame : t.disk (getCachePath w url dir) = s.disk (getCachePath w url dir))
    (hread : readFromCache w url dir ttl t = some (r, t₁)) :
    OwnRead w url (s.disk (getCachePath w url dir)) r := by
  cases hdisk : s.disk (getCachePath w url dir) with
  | none =>
    rw [readFromCache_missing (hsame.trans hdisk)] at hread
    cases hread
    exact .missing rfl
  | some file =>
    obtain ⟨n, doc, hdoc, rfl⟩ := h url hurl file hdisk
    cases htrip : jsonRoundTrip doc with
    | error e =>
      rw [cacheFile_of_error htrip] at hdisk
      rw [readFromCache_truncated (hsame.trans hdisk)] at hread
      cases hread
      exact .unencodable hdoc htrip
    | ok doc' =>
      rw [cacheFile_of_ok htrip] at hdisk
      rw [readFromCache_entry (hsame.trans hdisk), hfresh] at hread
      cases hread
      exact .entry (Option.some_ne_none _) hdoc htrip

/-- A session of a run that started with the files of `s`: it has read no used URL that it does not
remember, and remembers documents as it has seen them. -/
structure Sees (w : World) (dir : String) (used : Set String) (cached : Finset String)
    (s t : Session) : Prop where
  unread : ∀ url ∈ used, t.documentCache url = none →
    t.disk (getCachePath w url dir) = s.disk (getCachePath w url dir)
  memory : ∀ url ∈ used, ∀ m, t.documentCache url = some m → w.document.seen cached url = .ok m

theorem Sees.remember {cached : Finset String} {s t : Session} {url : String} {m : PyVal}
    (h : Sees w dir used cached s t) (hm : w.document.seen cached url = .ok m) :
    Sees w dir used cached s (t.remember url m) := by
  refine ⟨fun other hother hmem => ?_, fun other hother m' hmem => ?_⟩ <;>
    by_cases heq : other = url
  · subst heq
    simp at hmem
  · rw [Session.remember_other heq] at hmem
    exact h.unread other hother hmem
  · subst heq
    rw [Session.remember_self, Option.some.injEq] at hmem
    exact hmem ▸ hm
  · rw [Session.remember_other heq] at hmem
    exact h.memory other hother m' hmem

theorem Sees.write {cached : Finset String} {s t : Session} {url : String} {doc : PyVal}
    (h : Sees w dir used cached s t)
    (hinj : Set.InjOn (fun url => getCachePath w url dir) used) (hurl : url ∈ used)
    (hmem : t.documentCache url ≠ none) : Sees w dir used cached s (t.write w dir url doc) := by
  refine ⟨fun other hother hother' => ?_, h.memory⟩
  have hpath : getCachePath w other dir ≠ getCachePath w url dir := by
    intro hpath
    rw [hinj hother hurl hpath] at hother'
    exact hmem hother'
  rw [Session.write_other hpath]
  exact h.unread other hother hother'

/-- At a used URL, `getDocument` answers with the document as it is seen. -/
theorem DocumentStep.seen {cached : Finset String} {s t t' : Session} {url : String}
    {r : Except PyError PyVal} (hstep : DocumentStep w url dir ttl t r t')
    (hinj : Set.InjOn (fun url => getCachePath w url dir) used) (hfresh : w.Unexpiring ttl)
    (hown : OwnFiles w dir used s)
    (hcached : ∀ url, url ∈ cached ↔ url ∈ used ∧ s.disk (getCachePath w url dir) ≠ none)
    (hurl : url ∈ used) (h : Sees w dir used cached s t) :
    r = w.document.seen cached url ∧ ∀ m, r = .ok m → Sees w dir used cached s t' := by
  have hread : ∀ {r' t₁}, t.documentCache url = none →
      readFromCache w url dir ttl t = some (r', t₁) →
      OwnRead w url (s.disk (getCachePath w url dir)) r' ∧ Sees w dir used cached s t₁ := by
    intro r' t₁ hmem hread
    refine ⟨hown.read hfresh hurl (h.unread url hurl hmem) hread, ?_⟩
    obtain ⟨n, rfl⟩ := readFromCache_within _ _ _ _ _ _ _ hread
    exact ⟨h.unread, h.memory⟩
  cases hstep with
  | memory hmem => exact ⟨(h.memory url hurl _ hmem).symm, fun _ _ => h⟩
  | broken hmem hbroken => cases (hread hmem hbroken).1
  | @disk t₁ m hmem hdisk hsome =>
    obtain ⟨hread, ht₁⟩ := hread hmem hdisk
    have hseen : w.document.seen cached url = .ok m := by
      cases hread with
      | missing | unencodable => cases hsome
      | @entry doc _ hfile hdoc htrip =>
        have hmem : url ∈ cached := (hcached url).mpr ⟨hurl, hfile⟩
        exact seen_eq_ok.mpr ⟨doc, m, hdoc, htrip, (if_pos hmem).symm⟩
    exact ⟨hseen.symm, fun _ _ => ht₁.remember hseen⟩
  | failed _ _ _ hdoc => exact ⟨(seen_of_error hdoc).symm, fun _ hr => nomatch hr⟩
  | @fetched t₁ miss doc hmem hmissed hmiss hdoc =>
    cases htrip : jsonRoundTrip doc with
    | error e => exact ⟨(seen_of_unencodable hdoc htrip).symm, fun _ hr => nomatch hr⟩
    | ok doc' =>
      obtain ⟨hread, ht₁⟩ := hread hmem hmissed
      have hseen : w.document.seen cached url = .ok doc := by
        refine seen_eq_ok.mpr ⟨doc, doc', hdoc, htrip, ?_⟩
        split
        · rename_i hmem
          -- there is an entry, so it was a null document that was read
          cases hread with
          | missing hfile => exact absurd hfile ((hcached url).mp hmem).2
          | unencodable hdoc' htrip' =>
            cases hdoc.symm.trans hdoc'
            cases htrip.symm.trans htrip'
          | entry _ hdoc' htrip' =>
            cases hdoc.symm.trans hdoc'
            cases htrip.symm.trans htrip'
            exact jsonRoundTrip_isNone htrip hmiss
        · rfl
      have hrequest : Sees w dir used cached s (t₁.request url) := ⟨ht₁.unread, ht₁.memory⟩
      refine ⟨hseen.symm, fun _ _ => (hrequest.remember hseen).write hinj hurl ?_⟩
      simp

theorem servesFrom_seen (hw : w.Steady) (hfiles : w.WritesSucceed)
    (hinj : Set.InjOn (fun url => getCachePath w url dir) used) (hfresh : w.Unexpiring ttl)
    {spec : PyVal} (hused : UsedBy w.document used spec) {cached : Finset String} {s : Session}
    (hown : OwnFiles w dir used s)
    (hcached : ∀ url, url ∈ cached ↔ url ∈ used ∧ s.disk (getCachePath w url dir) ≠ none) :
    ServesFrom w (some dir) ttl (Sees w dir used cached s) (w.document.seen cached)
      (none, spec) := by
  intro base ref t hl ht
  refine Agrees.bind (.lift ht) fun p t hsplit ht => ?_
  obtain ⟨url, fragment⟩ := p
  refine Agrees.bind ?_ fun doc t _ ht => Agrees.bind (.lift ht) fun _ t _ ht => .pure ht
  by_cases hurl : url = ""
  · simp only [hurl, Documents.get]
    exact .pure ht
  · simp only [Documents.get, ne_eq, hurl, not_false_eq_true, if_true]
    obtain ⟨r, t', hget, hstep⟩ := getDocument_step hw hfiles url dir ttl t
    obtain ⟨hr, ht'⟩ := hstep.seen hinj hfresh hown hcached
      (hused cached base ref url fragment hl hsplit hurl) ht
    rw [← hr]
    exact ⟨t', hget, ht'⟩

/-- A run with the disk cache is a run over the documents as it sees them. -/
theorem Filled.outcome_iff (h : Filled w dir used s) (hw : w.Steady) (hfiles : w.WritesSucceed)
    (hinj : Set.InjOn (fun url => getCachePath w url dir) used) (hfresh : w.Unexpiring ttl)
    {spec : PyVal} (hused : UsedBy w.document used spec) {cached : Finset String}
    (hcached : ∀ url, url ∈ cached ↔ url ∈ used ∧ s.disk (getCachePath w url dir) ≠ none)
    {r : Except PyError PyVal} : Outcome w (some dir) ttl s spec r ↔
      Yields (expand (w.document.seen cached)) (none, spec) r := by
  have hown := h.ownFiles hw hfiles hinj
  refine outcome_iff_of_serves (servesFrom_seen hw hfiles hinj hfresh hused hown hcached) ?_
  exact ⟨fun _ _ _ => rfl, fun _ _ _ hm => nomatch hm⟩

/-- Where the cache files make no difference, the disk cache is transparent. -/
theorem transparent_of_cacheSafe (hw : w.Steady) (hfiles : w.WritesSucceed)
    (hinj : Set.InjOn (fun url => getCachePath w url dir) used) (hfresh : w.Unexpiring ttl)
    {spec : PyVal} (hused : UsedBy w.document used spec) (h : CacheSafe w.document spec) :
    Transparent w dir used ttl spec := by
  intro s hs
  obtain ⟨cached, hcached⟩ := hs.exists_cached hinj
  have hdisk : ∀ r, Outcome w (some dir) ttl s spec r ↔ _ := fun r =>
    hs.outcome_iff hw hfiles hinj hfresh hused hcached
  have hplain : ∀ r, Outcome w none ttl s spec r ↔ _ := fun r => FastGeoApi.outcome_iff hw
  simp only [Returns, Raises, hdisk, hplain]
  rcases h with hunchanged | ⟨hbroken, hseen⟩ | ⟨hendless, hseen⟩
  · have hsame : ∀ r, Yields (expand (w.document.seen cached)) (none, spec) r ↔
        Yields (expand w.document) (none, spec) r := fun r =>
      yields_of_lookups fun base ref hl => lookupRef_seen (hunchanged base ref hl)
    exact ⟨fun R => hsame _, exists_congr fun e => hsame _⟩
  · refine ⟨fun R => iff_of_false ?_ ?_, iff_of_true ?_ ?_⟩
    · exact not_yields_of_broken (hseen cached) R
    · exact not_yields_of_broken hbroken R
    · exact broken_iff.mp (hseen cached)
    · exact broken_iff.mp hbroken
  · have hno := endless_iff.mp (hseen cached)
    have hno' := endless_iff.mp hendless
    exact ⟨fun R => iff_of_false (fun h => hno ⟨_, h⟩) fun h => hno' ⟨_, h⟩,
      iff_of_false (fun ⟨e, h⟩ => hno ⟨_, h⟩) fun ⟨e, h⟩ => hno' ⟨_, h⟩⟩

end
end FastGeoApi
