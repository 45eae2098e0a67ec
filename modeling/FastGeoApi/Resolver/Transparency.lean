import FastGeoApi.Resolver.DiskCache

/-!
# What transparency needs

A run over the documents and a run over the documents as they are seen with the disk cache, on a
value and on what JSON keeps of it (`View`). When both return the same, every lookup of the first
was answered alike in the second (`follow`), so that what was looked up survives a JSON round trip.
-/

namespace FastGeoApi
open Unfolding

/-! ## Lookups of a node -/

section
variable {docs : Documents} {base base' : Option String} {items : List (PyKey × PyVal)}
  {ref ref' : String}

theorem looksUp_iff {n : Node} :
    LooksUp docs n base' ref' ↔
      (∃ items, n = (base', .dict items) ∧ soleRef? items = some (.str ref') ∧
        isExternal ref' = true) ∨
      ∃ m, Visits (expand docs) n m ∧ LooksUp docs m base' ref' := by
  refine ⟨fun ⟨items, hreach, h⟩ => ?_, fun h => ?_⟩
  · rcases Relation.ReflTransGen.cases_head hreach with heq | ⟨m, hm, hrest⟩
    · exact .inl ⟨items, heq, h⟩
    · exact .inr ⟨m, hm, items, hrest, h⟩
  · rcases h with ⟨items, rfl, h⟩ | ⟨m, hm, h⟩
    · exact ⟨items, .refl, h⟩
    · exact h.head hm

theorem not_looksUp_leaf {v : PyVal} (hleaf : v.isLeaf = true) :
    ¬LooksUp docs (base, v) base' ref' := by
  rw [looksUp_iff]
  rintro (⟨items, heq, _⟩ | ⟨m, hm, _⟩)
  · cases heq
    cases hleaf
  · exact succ_leaf hleaf hm.succ

theorem not_looksUp_keep {v : PyVal} (sole : soleRef? items = some v)
    (keep : ∀ ref, v = .str ref → isExternal ref = false) :
    ¬LooksUp docs (base, .dict items) base' ref' := by
  rw [looksUp_iff]
  rintro (⟨items', heq, sole', isExt⟩ | ⟨m, hm, _⟩)
  · cases heq
    rw [sole, Option.some.injEq] at sole'
    rw [keep ref' sole'] at isExt
    cases isExt
  · exact succ_keep sole keep hm.succ

theorem looksUp_external {v : PyVal} {url : String} (sole : soleRef? items = some (.str ref))
    (isExt : isExternal ref = true) (hl : lookupRef docs ref base = .ok (v, url))
    (h : LooksUp docs (base, .dict items) base' ref') :
    (base' = base ∧ ref' = ref) ∨ LooksUp docs (some url, v) base' ref' := by
  rw [looksUp_iff] at h
  rcases h with ⟨items', heq, sole', _⟩ | ⟨m, hm, h⟩
  · cases heq
    rw [sole, Option.some.injEq, PyVal.str.injEq] at sole'
    exact .inl ⟨rfl, sole'.symm⟩
  · obtain ⟨v', url', hl', rfl⟩ := (succ_external sole isExt).mp hm.succ
    rw [hl] at hl'
    cases hl'
    exact .inr h

theorem looksUp_descend (sole : soleRef? items = none)
    (h : LooksUp docs (base, .dict items) base' ref') :
    ∃ kv ∈ items, LooksUp docs (base, kv.2) base' ref' := by
  rw [looksUp_iff] at h
  rcases h with ⟨items', heq, sole', _⟩ | ⟨m, hm, h⟩
  · cases heq
    simp [sole] at sole'
  · obtain ⟨kv, hkv, rfl⟩ := (succ_descend sole).mp hm.succ
    exact ⟨kv, hkv, h⟩

theorem looksUp_list {xs : List PyVal} (h : LooksUp docs (base, .list xs) base' ref') :
    ∃ x ∈ xs, LooksUp docs (base, x) base' ref' := by
  rw [looksUp_iff] at h
  rcases h with ⟨items', heq, _⟩ | ⟨m, hm, h⟩
  · cases heq
  · obtain ⟨x, hx, rfl⟩ := succ_list.mp hm.succ
    exact ⟨x, hx, h⟩

end

/-! ## Two views of a value -/

/-- `v'` is `v`, or what JSON keeps of it. -/
def View (v v' : PyVal) : Prop := v' = v ∨ (NoClash v ∧ jsonRoundTrip v = .ok v')

theorem NoClash.sub {u v : PyVal} (h : NoClash v) (hsub : u.Sub v) : NoClash u :=
  fun items hitems => h items (hitems.trans hsub)

theorem jsonRoundTrip_eq_str {v : PyVal} {str : String} (h : jsonRoundTrip v = .ok (.str str)) :
    v = .str str := by
  cases v with
  | str => exact (Except.ok.inj h)
  | int i =>
    rw [jsonRoundTrip, except_bind_ok] at h
    obtain ⟨_, _, h⟩ := h
    cases h
  | list xs =>
    obtain ⟨_, _, h⟩ := jsonRoundTrip_list.mp h
    cases h
  | tuple xs =>
    obtain ⟨_, _, h⟩ := jsonRoundTrip_tuple.mp h
    cases h
  | dict items =>
    obtain ⟨_, _, h⟩ := jsonRoundTrip_dict.mp h
    cases h
  | _ => cases h

/-- Of the values with nothing inside, only a tuple is changed. -/
theorem View.leaf {v v' : PyVal} (hleaf : v.isLeaf = true) (h : View v v') :
    v' = v ∨ ∃ ys, v' = .list ys := by
  rcases h with rfl | ⟨_, h⟩
  · exact .inl rfl
  · cases v with
    | dict | list => cases hleaf
    | tuple xs =>
      obtain ⟨ys, _, rfl⟩ := jsonRoundTrip_tuple.mp h
      exact .inr ⟨ys, rfl⟩
    | int i =>
      rw [jsonRoundTrip, except_bind_ok] at h
      obtain ⟨_, _, h⟩ := h
      exact .inl (Except.ok.inj h).symm
    | set | other => cases h
    | _ => exact .inl (Except.ok.inj h).symm

theorem View.list {xs : List PyVal} {v' : PyVal} (h : View (.list xs) v') :
    ∃ ys, v' = .list ys ∧ List.Forall₂ View xs ys := by
  rcases h with rfl | ⟨hno, h⟩
  · exact ⟨xs, rfl, List.forall₂_same.mpr fun x _ => .inl rfl⟩
  · obtain ⟨ys, hys, rfl⟩ := jsonRoundTrip_list.mp h
    refine ⟨ys, rfl, ?_⟩
    have hmem := (List.forall₂_and_left _ _).mpr ⟨fun x hx => hno.sub (.list hx .refl), hys⟩
    exact hmem.imp fun _ _ h => .inr h

theorem View.dict {items : List (PyKey × PyVal)} {v' : PyVal} (h : View (.dict items) v') :
    ∃ items', v' = .dict items' ∧
      (items' = items ∨ List.Forall₂ WrittenAs items items') ∧
      List.Forall₂ (fun kv kv' => View kv.2 kv'.2) items items' := by
  rcases h with rfl | ⟨hno, h⟩
  · exact ⟨items, rfl, .inl rfl, List.forall₂_same.mpr fun kv _ => .inl rfl⟩
  · obtain ⟨pairs, hpairs, rfl⟩ := jsonRoundTrip_dict.mp h
    rw [dictOf_of_written hpairs (hno items .refl)]
    refine ⟨pairs, rfl, .inr hpairs, ?_⟩
    have hmem := (List.forall₂_and_left _ _).mpr
      ⟨fun kv (hkv : kv ∈ items) => hno.sub (.dict (k := kv.1) hkv .refl), hpairs⟩
    refine hmem.imp fun kv kv' h => .inr ⟨h.1, ?_⟩
    obtain ⟨_, _, _, _, hvalue⟩ := h
    exact hvalue

theorem View.sole {v v' : PyVal} (h : View (.dict [(.str "$ref", v)]) v') :
    ∃ u, v' = .dict [(.str "$ref", u)] ∧ (u = v ∨ jsonRoundTrip v = .ok u) := by
  rcases h with rfl | ⟨_, h⟩
  · exact ⟨v, rfl, .inl rfl⟩
  · obtain ⟨pairs, hpairs, rfl⟩ := jsonRoundTrip_dict.mp h
    cases hpairs with
    | @cons _ kv' _ _ hkv hrest =>
      cases hrest
      obtain ⟨k', u⟩ := kv'
      obtain ⟨key, hkey, hk', hu⟩ := hkv
      cases hkey
      simp only at hk'
      exact ⟨u, by rw [hk']; rfl, .inr hu⟩

/-- A reference stays as it is. -/
theorem View.ref {items : List (PyKey × PyVal)} {ref : String} {v' : PyVal}
    (h : View (.dict items) v') (sole : soleRef? items = some (.str ref)) : v' = .dict items := by
  rw [soleRef?_eq_some.mp sole] at h ⊢
  obtain ⟨u, rfl, hu⟩ := h.sole
  rcases hu with rfl | hu
  · rfl
  · cases hu
    rfl

theorem soleRef?_written {items items' : List (PyKey × PyVal)}
    (h : List.Forall₂ WrittenAs items items') (sole : soleRef? items = none) :
    soleRef? items' = none := by
  unfold soleRef? at sole ⊢
  rw [← h.length_eq]
  split at sole
  · rename_i hlen
    obtain ⟨kv, rfl⟩ := List.length_eq_one_iff.mp hlen
    rw [if_pos hlen]
    cases h with
    | @cons _ kv' _ _ hkv hrest =>
      cases hrest
      obtain ⟨k, v⟩ := kv
      obtain ⟨k', v'⟩ := kv'
      obtain ⟨key, hk, hk', _⟩ := hkv
      simp only at hk'
      subst hk'
      rw [PyVal.get_cons] at sole ⊢
      split at sole
      · cases sole
      · rename_i hne
        have hkey : PyKey.str key ≠ .str "$ref" := by
          intro heq
          cases heq
          exact hne (jsonKey_eq_ref.mp hk)
        rw [if_neg hkey]
        rfl
  · rename_i hlen
    exact if_neg hlen

/-! ## Navigation in what JSON keeps -/

theorem getItem_written {doc doc' v : PyVal} {part : String} (hno : NoClash doc)
    (htrip : jsonRoundTrip doc = .ok doc') (h : getItem doc part = .ok v) :
    ∃ v', getItem doc' part = .ok v' ∧ jsonRoundTrip v = .ok v' ∧ NoClash v := by
  cases doc with
  | dict items =>
    obtain ⟨pairs, hpairs, rfl⟩ := jsonRoundTrip_dict.mp htrip
    have hitems := hno items .refl
    rw [dictOf_of_written hpairs hitems]
    rw [getItem] at h ⊢
    cases hget : PyVal.get items part with
    | none => simp [hget] at h
    | some u =>
      simp only [hget, Except.ok.injEq] at h
      subst h
      obtain ⟨u', hget', hu⟩ := get_written hpairs hitems hget
      exact ⟨u', by rw [hget'], hu, hno.sub (.dict (PyVal.mem_of_get hget) .refl)⟩
  | _ => cases h

theorem foldlM_getItem_written {parts : List String} {doc doc' v : PyVal} (hno : NoClash doc)
    (htrip : jsonRoundTrip doc = .ok doc') (h : parts.foldlM getItem doc = .ok v) :
    ∃ v', parts.foldlM getItem doc' = .ok v' ∧ jsonRoundTrip v = .ok v' ∧ NoClash v := by
  induction parts generalizing doc doc' with
  | nil =>
    cases h
    exact ⟨doc', rfl, htrip, hno⟩
  | cons part parts ih =>
    rw [List.foldlM_cons, except_bind_ok] at h
    obtain ⟨u, hu, hrest⟩ := h
    obtain ⟨u', hu', htrip', hno'⟩ := getItem_written hno htrip hu
    obtain ⟨v', hv', h'⟩ := ih hno' htrip' hrest
    exact ⟨v', by rw [List.foldlM_cons, except_bind_ok]; exact ⟨u', hu', hv'⟩, h'⟩

/-- What a fragment names in a document is read back under the same fragment. -/
theorem navigate_written {doc doc' v : PyVal} {fragment : String} (hno : NoClash doc)
    (htrip : jsonRoundTrip doc = .ok doc') (h : navigateToFragment doc fragment = .ok v) :
    ∃ v', navigateToFragment doc' fragment = .ok v' ∧ jsonRoundTrip v = .ok v' ∧ NoClash v := by
  unfold navigateToFragment at h ⊢
  split at h
  · rename_i hroot
    cases h
    exact ⟨doc', if_pos hroot, htrip, hno⟩
  · rename_i hroot
    rw [if_neg hroot]
    exact foldlM_getItem_written hno htrip h

/-! ## Following the lookups of a run -/

section
variable {docs : Documents} {cached : Finset String} {base : Option String}

/-- The lookups of the node are answered alike with and without cache files. -/
def SameLookups (docs : Documents) (cached : Finset String) (n : Node) : Prop :=
  ∀ base ref, LooksUp docs n base ref →
    lookupRef (docs.seen cached) ref base = lookupRef docs ref base

/-- With cache files a lookup is answered with a view of what it is answered with without. -/
theorem lookupRef_view (hno : ∀ url doc, docs url = .ok doc → NoClash doc) {ref url url' : String}
    {v v' : PyVal} (hlook : lookupRef docs ref base = .ok (v, url))
    (hseen : lookupRef (docs.seen cached) ref base = .ok (v', url')) : url' = url ∧ View v v' := by
  obtain ⟨fragment, doc, hsplit, hdoc, hnav⟩ := lookupRef_eq_ok.mp hlook
  obtain ⟨fragment', m, hsplit', hm, hnav'⟩ := lookupRef_eq_ok.mp hseen
  cases hsplit.symm.trans hsplit'
  refine ⟨rfl, ?_⟩
  by_cases hurl : url = ""
  · simp only [Documents.get, ne_eq, hurl, not_true, if_false] at hdoc hm
    cases hdoc
    cases hm
    exact .inl (Except.ok.inj (hnav'.symm.trans hnav))
  · simp only [Documents.get, ne_eq, hurl, not_false_eq_true, if_true] at hdoc hm
    obtain ⟨doc₁, doc', hdoc₁, htrip, rfl⟩ := seen_eq_ok.mp hm
    cases hdoc.symm.trans hdoc₁
    split at hnav'
    · obtain ⟨u, hu, htrip', hno'⟩ := navigate_written (hno url doc hdoc) htrip hnav
      cases hu.symm.trans hnav'
      exact .inr ⟨hno', htrip'⟩
    · exact .inl (Except.ok.inj (hnav'.symm.trans hnav))

/-- A run on a view of `v` that comes to the same as one on `v` was on `v` itself, with the same
lookups. -/
def Follows (docs : Documents) (cached : Finset String) (base : Option String) (v o : PyVal) :
    Prop :=
  ∀ v', View v v' → Resolves (docs.seen cached) base v' o →
    v' = v ∧ SameLookups docs cached (base, v)

theorem follow_items {items items' os : List (PyKey × PyVal)}
    (hitems : Itemwise (Follows docs cached base) items os)
    (hview : List.Forall₂ (fun kv kv' => View kv.2 kv'.2) items items')
    (hseen : Itemwise (Resolves (docs.seen cached) base) items' os) :
    items' = items ∧ ∀ kv ∈ items, SameLookups docs cached (base, kv.2) := by
  induction hitems generalizing items' with
  | nil =>
    cases hview
    exact ⟨rfl, fun _ h => absurd h List.not_mem_nil⟩
  | @cons kv kvo items os hkv _ ih =>
    obtain ⟨hkey, hfollows⟩ := hkv
    cases hview with
    | @cons _ kv' _ items' hv hvs =>
      cases hseen with
      | cons hkv' hseen =>
        obtain ⟨hsame, hlookups⟩ := hfollows kv'.2 hv hkv'.2
        obtain ⟨rfl, hrest⟩ := ih hvs hseen
        have hkv : kv' = kv := Prod.ext (hkv'.1.symm.trans hkey) hsame
        exact ⟨by rw [hkv], List.forall_mem_cons.mpr ⟨hlookups, hrest⟩⟩

theorem follow_list {xs ys os : List PyVal}
    (hxs : List.Forall₂ (Follows docs cached base) xs os) (hview : List.Forall₂ View xs ys)
    (hseen : List.Forall₂ (Resolves (docs.seen cached) base) ys os) :
    ys = xs ∧ ∀ x ∈ xs, SameLookups docs cached (base, x) := by
  induction hxs generalizing ys with
  | nil =>
    cases hview
    exact ⟨rfl, fun _ h => absurd h List.not_mem_nil⟩
  | cons hx _ ih =>
    cases hview with
    | cons hv hvs =>
      cases hseen with
      | cons hy hseen =>
        obtain ⟨rfl, hlookups⟩ := hx _ hv hy
        obtain ⟨rfl, hrest⟩ := ih hvs hseen
        exact ⟨rfl, List.forall_mem_cons.mpr ⟨hlookups, hrest⟩⟩

theorem follow (hno : ∀ url doc, docs url = .ok doc → NoClash doc) {v o : PyVal}
    (h : Resolves docs base v o) : Follows docs cached base v o := by
  refine Resolves.induction (P := Follows docs cached) ?_ ?_ ?_ ?_ ?_ h
  · intro base v hleaf v' hview hseen
    rcases hview.leaf hleaf with rfl | ⟨ys, rfl⟩
    · exact ⟨rfl, fun _ _ hl => absurd hl (not_looksUp_leaf hleaf)⟩
    · obtain ⟨_, _, rfl⟩ := resolves_list.mp hseen
      cases hleaf
  · intro base items v sole keep v' hview hseen
    rw [soleRef?_eq_some.mp sole] at hview
    obtain ⟨u, rfl, hu⟩ := hview.sole
    have keep' : ∀ ref, u = .str ref → isExternal ref = false := by
      intro ref href
      rcases hu with rfl | hu
      · exact keep ref href
      · exact keep ref (jsonRoundTrip_eq_str (href ▸ hu))
    have ho := (resolves_keep (soleRef?_eq_some.mpr rfl) keep').mp hseen
    exact ⟨ho.symm, fun _ _ hl => absurd hl (not_looksUp_keep sole keep)⟩
  · intro base items ref v url o sole isExt hlook _ ih v' hview hseen
    obtain rfl := hview.ref sole
    obtain ⟨u, url', hlook', hseen⟩ := (resolves_external sole isExt).mp hseen
    obtain ⟨rfl, hv⟩ := lookupRef_view hno hlook hlook'
    obtain ⟨rfl, hlookups⟩ := ih u hv hseen
    refine ⟨rfl, fun base' ref' hl => ?_⟩
    rcases looksUp_external sole isExt hlook hl with ⟨rfl, rfl⟩ | hl
    · exact hlook'.trans hlook.symm
    · exact hlookups base' ref' hl
  · intro base items os sole hitems v' hview hseen
    obtain ⟨items', rfl, hitems', hviews⟩ := hview.dict
    have sole' : soleRef? items' = none := by
      rcases hitems' with rfl | hwritten
      · exact sole
      · exact soleRef?_written hwritten sole
    obtain ⟨_, hseen, ho⟩ := (resolves_descend sole').mp hseen
    cases ho
    obtain ⟨rfl, hlookups⟩ := follow_items (hitems.imp fun _ _ h => h.2) hviews hseen
    refine ⟨rfl, fun base' ref' hl => ?_⟩
    obtain ⟨kv, hkv, hl⟩ := looksUp_descend sole hl
    exact hlookups kv hkv base' ref' hl
  · intro base xs os hxs v' hview hseen
    obtain ⟨ys, rfl, hviews⟩ := hview.list
    obtain ⟨_, hseen, ho⟩ := resolves_list.mp hseen
    cases ho
    obtain ⟨rfl, hlookups⟩ := follow_list (hxs.imp fun _ _ h => h.2) hviews hseen
    refine ⟨rfl, fun base' ref' hl => ?_⟩
    obtain ⟨x, hx, hl⟩ := looksUp_list hl
    exact hlookups x hx base' ref' hl

end

end FastGeoApi
