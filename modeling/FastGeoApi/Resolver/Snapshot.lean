import FastGeoApi.Python.Path
import FastGeoApi.Resolver.Fetches
import FastGeoApi.Resolver.Idempotence

/-!
# One call, one set of documents

The remote side may answer a URL differently each time, and the files of the disk cache may be of
any age. Still the outcome of one call is that of resolving over one fixed set of documents
(`resolveExternalRefs_snapshot`), and so for every part of what is resolved.
-/

namespace FastGeoApi
open Unfolding

section
variable {w : World} {dir : Option String} {ttl : Int}

/-- What a computation over documents gives for those that a run has met. Where the run has returned
or raised, that is for all documents that agree with the memory at its end; where a document could
not be had, for those that agree with the memory before and fail on that one. -/
inductive SnapshotOf (w : World) (dir : Option String) (ttl : Int)
    (ev : Documents → Option (Except PyError α)) (s s' : Session) : Except PyError α → Prop where
  | ok (h : ∀ docs, CacheOf docs s' → ev docs = some (.ok a)) : SnapshotOf w dir ttl ev s s' (.ok a)
  | raised (h : ∀ docs, CacheOf docs s' → ev docs = some (.error e)) :
    SnapshotOf w dir ttl ev s s' (.error e)
  | lost (url : String) (t : Session) (hkept : CacheKept s t) (hmem : t.documentCache url = none)
      (hcall : getDocument w url dir ttl t = some (.error e, s'))
      (h : ∀ docs, CacheOf docs t → docs url = .error e → ev docs = some (.error e)) :
    SnapshotOf w dir ttl ev s s' (.error e)

/-- Every run gives what the computation gives for the documents that the run has met. -/
def Run.Snapshots (w : World) (dir : Option String) (ttl : Int) (x : Run α)
    (ev : Documents → Option (Except PyError α)) : Prop :=
  ∀ s r s', x s = some (r, s') → CacheKept s s' ∧ SnapshotOf w dir ttl ev s s' r

theorem CacheOf.of_kept {docs : Documents} {s s' : Session} (h : CacheOf docs s')
    (hkept : CacheKept s s') : CacheOf docs s :=
  fun url doc hmem => h url doc (hkept url doc hmem)

namespace Run.Snapshots

theorem pure {a : α} :
    Run.Snapshots w dir ttl (Pure.pure a : Run α) fun _ => some (.ok a) := by
  intro s r s' h
  cases h
  exact ⟨.refl s, .ok fun _ _ => rfl⟩

theorem lift {x : Except PyError α} : Run.Snapshots w dir ttl (Run.lift x) fun _ => some x := by
  intro s r s' h
  cases h
  refine ⟨.refl s, ?_⟩
  cases x with
  | ok a => exact .ok fun _ _ => rfl
  | error e => exact .raised fun _ _ => rfl

theorem bind {x : Run α} {f : α → Run β} {ev : Documents → Option (Except PyError α)}
    {g : α → Documents → Option (Except PyError β)} (hx : Run.Snapshots w dir ttl x ev)
    (hf : ∀ a, Run.Snapshots w dir ttl (f a) (g a)) :
    Run.Snapshots w dir ttl (x >>= f) fun docs => andThen (ev docs) fun a => g a docs := by
  intro s r s' h
  rw [Run.bind_apply] at h
  cases hrun : x s with
  | none =>
    rw [hrun] at h
    cases h
  | some out =>
    obtain ⟨r₁, s₁⟩ := out
    rw [hrun] at h
    obtain ⟨hkept, hsnapshot⟩ := hx s r₁ s₁ hrun
    cases hsnapshot with
    | raised hev =>
      cases h
      refine ⟨hkept, .raised fun docs hdocs => ?_⟩
      rw [hev docs hdocs]
      rfl
    | lost url t hbefore hmem hcall hev =>
      cases h
      refine ⟨hkept, .lost url t hbefore hmem hcall fun docs hdocs hurl => ?_⟩
      rw [hev docs hdocs hurl]
      rfl
    | @ok a hev =>
      obtain ⟨hkept', hsnapshot'⟩ := hf a s₁ r s' h
      refine ⟨hkept.trans hkept', ?_⟩
      -- what `x` has met is still in memory for whatever follows
      cases hsnapshot' with
      | ok hg =>
        refine .ok fun docs hdocs => ?_
        rw [hev docs (hdocs.of_kept hkept')]
        exact hg docs hdocs
      | raised hg =>
        refine .raised fun docs hdocs => ?_
        rw [hev docs (hdocs.of_kept hkept')]
        exact hg docs hdocs
      | lost url t hbefore hmem hcall hg =>
        refine .lost url t (hkept.trans hbefore) hmem hcall fun docs hdocs hurl => ?_
        rw [hev docs (hdocs.of_kept hbefore)]
        exact hg docs hdocs hurl

theorem congr {x : Run α} {ev ev' : Documents → Option (Except PyError α)}
    (h : Run.Snapshots w dir ttl x ev) (heq : ∀ docs, ev docs = ev' docs) :
    Run.Snapshots w dir ttl x ev' := by
  rwa [← funext heq]

/-- The same step for a computation that needs no fuel. -/
theorem chain {x : Run α} {f : α → Run β} {y : Documents → Except PyError α}
    {g : α → Documents → Except PyError β}
    (hx : Run.Snapshots w dir ttl x fun docs => some (y docs))
    (hf : ∀ a, Run.Snapshots w dir ttl (f a) fun docs => some (g a docs)) :
    Run.Snapshots w dir ttl (x >>= f) fun docs => some (y docs >>= fun a => g a docs) := by
  refine (hx.bind hf).congr fun docs => ?_
  cases y docs <;> rfl

end Run.Snapshots

/-- All that a call gets or fails to get of the documents goes through here. -/
theorem getDocument_snapshots (url : String) :
    Run.Snapshots w dir ttl (getDocument w url dir ttl) fun docs => some (docs url) := by
  intro s r s' h
  have heffect := getDocument_effect h
  refine ⟨heffect.kept, ?_⟩
  cases r with
  | ok doc =>
    refine .ok fun docs hdocs => ?_
    rw [hdocs url doc (heffect.stored rfl)]
  | error e =>
    have hmem : s.documentCache url = none := by
      cases heffect with
      | broken hmem | failed hmem | fetched hmem => exact hmem
    refine .lost url s (.refl s) hmem h fun docs _ hurl => ?_
    rw [hurl]

theorem resolveRef_snapshots (ref : String) (base : Option String) :
    Run.Snapshots w dir ttl (resolveRef w ref base dir ttl) fun docs =>
      some (lookupRef docs ref base) := by
  refine Run.Snapshots.lift.chain fun p => Run.Snapshots.chain ?_ fun doc =>
    Run.Snapshots.lift.chain fun result => .pure
  split
  · rename_i hurl
    exact (getDocument_snapshots p.1).congr fun docs => by rw [Documents.get, if_pos hurl]
  · rename_i hurl
    exact Run.Snapshots.pure.congr fun docs => by rw [Documents.get, if_neg hurl]

variable {base : Option String} {f : PyVal → Run PyVal}
  {ev : Documents → Node → Option (Except PyError PyVal)}

theorem mapVals_snapshots (hf : ∀ v, Run.Snapshots w dir ttl (f v) fun docs => ev docs (base, v))
    (items : List (PyKey × PyVal)) :
    Run.Snapshots w dir ttl (Run.mapVals f items) fun docs =>
      andThen (evalAll (ev docs) (children base items)) fun vs =>
        some (.ok ((items.map Prod.fst).zip vs)) := by
  induction items with
  | nil => exact .pure
  | cons kv items ih =>
    refine ((hf kv.2).bind fun v' => ih.bind fun rest => .pure).congr fun docs => ?_
    have hchildren : children base (kv :: items) = (base, kv.2) :: children base items := rfl
    rw [hchildren]
    simp only [evalAll, andThen_assoc]
    rfl

theorem mapList_snapshots (hf : ∀ v, Run.Snapshots w dir ttl (f v) fun docs => ev docs (base, v))
    (items : List PyVal) :
    Run.Snapshots w dir ttl (Run.mapList f items) fun docs =>
      evalAll (ev docs) (items.map (base, ·)) := by
  induction items with
  | nil => exact .pure
  | cons v items ih => exact (hf v).bind fun v' => ih.bind fun rest => .pure

theorem resolveObject_snapshots (k : Nat) (base : Option String) (v : PyVal) :
    Run.Snapshots w dir ttl (resolveObject w dir ttl k base v) fun docs =>
      eval (expand docs) k (base, v) := by
  induction k generalizing base v with
  | zero =>
    intro s r s' h
    cases h
  | succ k ih =>
    cases v with
    | dict items =>
      cases dictCase items with
      | external ref sole isExt =>
        have href : Run.Snapshots w dir ttl (resolveRef w ref base dir ttl) _ :=
          resolveRef_snapshots ref base
        have h := href.bind fun p => ih (some p.2) p.1
        simp only [resolveObject, sole, isExt, if_true]
        refine h.congr fun docs => ?_
        rw [eval, expand_external sole isExt]
        cases lookupRef docs ref base <;> rfl
      | keep v sole keep =>
        have heval : ∀ docs, some (.ok (.dict items)) = eval (expand docs) (k + 1)
            (base, .dict items) := fun docs => by rw [eval, expand_keep sole keep]
        cases v with
        | str ref =>
          simp only [resolveObject, sole, keep ref rfl]
          exact Run.Snapshots.pure.congr heval
        | _ =>
          simp only [resolveObject, sole]
          exact Run.Snapshots.pure.congr heval
      | descend sole =>
        simp only [resolveObject, sole]
        refine ((mapVals_snapshots (ih base) items).bind fun kvs => .pure).congr fun docs => ?_
        rw [eval, expand_descend sole, andThen_assoc]
        rfl
    | list xs =>
      simp only [resolveObject]
      exact ((mapList_snapshots (ih base) xs).bind fun ys => .pure).congr fun docs => rfl
    | _ => exact Run.Snapshots.pure.congr fun docs => rfl

end

/-! ## Parts -/

open PyVal

/-- A mapping whose only key is `$ref`. -/
def PyVal.IsReference (v : PyVal) : Prop :=
  ∃ items ref, v = .dict items ∧ soleRef? items = some ref

/-- The path does not go into a reference. It may end in one. -/
def PyVal.Outside (v : PyVal) (path : List Step) : Prop :=
  ∀ p step rest u, path = p ++ step :: rest → v.at? p = some u → ¬u.IsReference

section
variable {items : List (PyKey × PyVal)} {v u : PyVal} {step : Step} {path : List Step}

theorem not_isReference_of_dict (h : soleRef? items = Option.none) : ¬(dict items).IsReference := by
  rintro ⟨_, ref, heq, hsole⟩
  cases heq
  cases h.symm.trans hsole

theorem PyVal.Outside.nil : v.Outside [] := by
  intro p step rest u hpath
  simp at hpath

theorem PyVal.Outside.cons (hv : ¬v.IsReference)
    (h : ∀ u, v.step? step = some u → u.Outside path) : v.Outside (step :: path) := by
  intro p step' rest w hpath hw
  cases p with
  | nil =>
    cases hw
    exact hv
  | cons step'' p =>
    obtain ⟨rfl, hrest⟩ := List.cons.inj hpath
    rw [at?_cons] at hw
    obtain ⟨u, hu, hw⟩ := Option.bind_eq_some_iff.mp hw
    exact h u hu p step' rest w hrest hw

theorem PyVal.Outside.soleRef?_none (h : (dict items).Outside (step :: path)) :
    soleRef? items = Option.none := by
  cases hsole : soleRef? items with
  | none => rfl
  | some ref => exact absurd ⟨items, ref, rfl, hsole⟩ (h [] step path _ rfl rfl)

theorem PyVal.Outside.tail (h : v.Outside (step :: path)) (hu : v.step? step = some u) :
    u.Outside path := by
  intro p step' rest w hpath hw
  refine h (step :: p) step' rest w (congrArg (step :: ·) hpath) ?_
  rw [at?_cons, hu, Option.bind_some, hw]

end

/-- What a value is resolved to has in its parts what they are resolved to. -/
theorem Resolves.part {docs : Documents} {base : Option String} {path : List Step}
    {v o u : PyVal} (h : Resolves docs base v o) (hpath : v.Outside path)
    (hu : v.at? path = some u) : ∃ u', o.at? path = some u' ∧ Resolves docs base u u' := by
  induction path generalizing v o with
  | nil =>
    cases hu
    exact ⟨o, rfl, h⟩
  | cons step path ih =>
    rw [at?_cons] at hu
    obtain ⟨next, hnext, hu'⟩ := Option.bind_eq_some_iff.mp hu
    have hrest := hpath.tail hnext
    cases v with
    | dict items =>
      obtain ⟨items', hitems, rfl⟩ := (resolves_descend hpath.soleRef?_none).mp h
      cases step with
      | index i => cases hnext
      | key key =>
        rcases hitems.lookup key with ⟨hnone, _⟩ | ⟨v', o', hv', ho', hresolves⟩
        · cases hnone.symm.trans hnext
        · cases hv'.symm.trans hnext
          rw [at?_cons, step?, ho', Option.bind_some]
          exact ih hresolves hrest hu'
    | list xs =>
      obtain ⟨ys, hys, rfl⟩ := resolves_list.mp h
      cases step with
      | key key => cases hnext
      | index i =>
        rw [step?] at hnext
        obtain ⟨hi, rfl⟩ := List.getElem?_eq_some_iff.mp hnext
        have hi' : i < ys.length := hys.length_eq ▸ hi
        rw [at?_cons, step?, List.getElem?_eq_getElem hi', Option.bind_some]
        exact ih (hys.get hi hi') hrest hu'
    | _ => cases step <;> cases hnext

/-! ## The call as a whole -/

/-- A call that returns has resolved every part over the documents that are in memory at its end. A
call that raises does so over these documents, whatever the others are; or there is a document that
it could not get, and it raises over whatever documents agree with the memory before and lack that
one in the same way. -/
theorem resolveExternalRefs_snapshot (w : World) (dir : Option String) (ttl : Int) (fuel : Nat)
    (spec : PyVal) (s : Session) (r : Except PyError PyVal) (s' : Session)
    (h : resolveExternalRefs w fuel spec dir ttl s = some (r, s')) :
    (∀ R, r = .ok R → ∀ docs, CacheOf docs s' → ∀ path part, spec.Outside path →
      spec.at? path = some part →
        ∃ part', R.at? path = some part' ∧ Resolves docs Option.none part part') ∧
    ∀ e, r = .error e →
      (∀ docs, CacheOf docs s' → Yields (expand docs) (Option.none, spec) (.error e)) ∨
      ∃ url t, t.documentCache url = Option.none ∧
        getDocument w url dir ttl t = some (.error e, s') ∧
        ∀ docs, CacheOf docs t → docs url = .error e →
          Yields (expand docs) (Option.none, spec) (.error e) := by
  obtain ⟨_, hsnapshot⟩ := resolveObject_snapshots fuel Option.none spec _ _ _ h
  constructor
  · intro R hR docs hdocs path part hpath hpart
    cases hR
    cases hsnapshot with
    | ok heval =>
      have hresolves : Resolves docs Option.none spec R := ⟨fuel, heval docs hdocs⟩
      exact hresolves.part hpath hpart
  · intro e he
    cases he
    cases hsnapshot with
    | raised heval => exact .inl fun docs hdocs => ⟨fuel, heval docs hdocs⟩
    | lost url t _ hmem hcall heval =>
      exact .inr ⟨url, t, hmem, hcall, fun docs hdocs hurl => ⟨fuel, heval docs hdocs hurl⟩⟩

/-- Every answer has the number of its request. -/
def countingWorld : World where
  get n _ := .ok ⟨.ok (.dict [(.str "request", .int n)]), .error ⟨.jsonDecodeError, ""⟩⟩
  time _ := 0
  sha256 url := url

def linkRefs : PyVal :=
  .list [.dict [(.str "$ref", .str linkUrl)], .dict [(.str "$ref", .str linkUrl)]]

/-- Both references are resolved to the first answer. -/
theorem linkRefs_snapshot : ∃ s', resolveExternalRefs countingWorld 4 linkRefs Option.none 86400
      Session.start = some (.ok (.list [.dict [(.str "request", .int 0)],
        .dict [(.str "request", .int 0)]]), s') ∧
    ∀ docs, CacheOf docs s' → ∃ part',
      (list [.dict [(.str "request", .int 0)], .dict [(.str "request", .int 0)]]).at? [.index 1] =
        some part' ∧ Resolves docs Option.none (.dict [(.str "$ref", .str linkUrl)]) part' := by
  refine ⟨_, rfl, fun docs hdocs => ?_⟩
  have hlist : ¬linkRefs.IsReference := by
    rintro ⟨items, ref, heq, _⟩
    cases heq
  exact (resolveExternalRefs_snapshot countingWorld Option.none 86400 4 linkRefs Session.start _ _
    rfl).1 _ rfl docs hdocs [.index 1] _ (.cons hlist fun _ _ => .nil) rfl

/-- Over documents that stay as they are, a part that is resolved on its own is the part of what is
resolved. -/
theorem resolveExternalRefs_part (w : World) (hw : w.Steady) (ttl : Int) (s : Session)
    (spec R : PyVal) (h : Returns w Option.none ttl s spec R) (path : List Step) (part : PyVal)
    (hpath : spec.Outside path) (hpart : spec.at? path = some part)
    (ttl' : Int) (s' : Session) :
    ∃ part', R.at? path = some part' ∧ Returns w Option.none ttl' s' part part' := by
  have hresolves : Resolves w.document Option.none spec R := (returns_iff hw).mp h
  obtain ⟨part', hpart', hresolved⟩ := hresolves.part hpath hpart
  exact ⟨part', hpart', (returns_iff hw).mpr hresolved⟩

theorem linksSpec_outside : linksSpec.Outside [.key "titled", .key "$ref"] := by
  refine .cons (not_isReference_of_dict rfl) fun u hu => ?_
  cases hu
  exact .cons (not_isReference_of_dict rfl) fun _ _ => .nil

/-- A `$ref` among other keys. -/
theorem linksSpec_part :
    ∃ part', linksResult.at? [.key "titled", .key "$ref"] = some part' ∧
      Returns linkStore.world Option.none 86400 Session.start (.str linkUrl) part' :=
  resolveExternalRefs_part linkStore.world linkStore.world_steady 86400 Session.start linksSpec
    linksResult linksSpec_returns [.key "titled", .key "$ref"] _ linksSpec_outside rfl 86400
    Session.start

end FastGeoApi
