import FastGeoApi.Resolver.Documents

/-!
# What a run does to the session

A relation between sessions that is reflexive and transitive and holds across every `getDocument`
holds across every run (`resolveObject_within`). A run that returns has the shape of the value it
resolves. The effect of `getDocument` on the session is the effect of reading a cache file, of a
request and of writing a cache file.
-/

namespace FastGeoApi

namespace Run

/-- `I` relates the sessions before and after the computation, whatever its outcome. -/
def Within (I : Session → Session → Prop) (x : Run α) : Prop :=
  ∀ s r s', x s = some (r, s') → I s s'

section
variable {I : Session → Session → Prop} (hrefl : ∀ s, I s s)
  (htrans : ∀ s s' s'', I s s' → I s' s'' → I s s'')
include hrefl

theorem Within.pure {a : α} : Within I (Pure.pure a : Run α) := by
  intro s r s' h
  cases h
  exact hrefl s

theorem Within.lift {x : Except PyError α} : Within I (Run.lift x) := by
  intro s r s' h
  cases h
  exact hrefl s

theorem Within.session : Within I Run.session := by
  intro s r s' h
  cases h
  exact hrefl s

include htrans

omit hrefl in
theorem Within.bind {x : Run α} {f : α → Run β} (hx : Within I x) (hf : ∀ a, Within I (f a)) :
    Within I (x >>= f) := by
  intro s r s' h
  rw [bind_apply] at h
  match hxs : x s with
  | none => simp [hxs] at h
  | some (.error e, s₁) =>
    simp only [hxs, Option.some.injEq, Prod.mk.injEq] at h
    exact h.2 ▸ hx s _ s₁ hxs
  | some (.ok a, s₁) =>
    simp only [hxs] at h
    exact htrans s s₁ s' (hx s _ s₁ hxs) (hf a s₁ r s' h)

theorem Within.mapVals {f : PyVal → Run PyVal} (hf : ∀ v, Within I (f v))
    (items : List (PyKey × PyVal)) : Within I (Run.mapVals f items) := by
  induction items with
  | nil => exact .pure hrefl
  | cons kv items ih =>
    exact .bind htrans (hf kv.2) fun _ => .bind htrans ih fun _ => .pure hrefl

theorem Within.mapList {f : PyVal → Run PyVal} (hf : ∀ v, Within I (f v)) (items : List PyVal) :
    Within I (Run.mapList f items) := by
  induction items with
  | nil => exact .pure hrefl
  | cons v items ih =>
    exact .bind htrans (hf v) fun _ => .bind htrans ih fun _ => .pure hrefl

end
end Run

section
variable {I : Session → Session → Prop} (hrefl : ∀ s, I s s)
  (htrans : ∀ s s' s'', I s s' → I s' s'' → I s s'')
  (hget : ∀ url, Run.Within I (getDocument w url dir ttl))
include hrefl htrans hget

theorem resolveRef_within (ref : String) (base : Option String) :
    Run.Within I (resolveRef w ref base dir ttl) := by
  refine .bind htrans (.lift hrefl) fun p => .bind htrans ?_ fun doc =>
    .bind htrans (.lift hrefl) fun _ => .pure hrefl
  split
  · exact hget _
  · exact .pure hrefl

theorem resolveObject_within (fuel : Nat) (base : Option String) (v : PyVal) :
    Run.Within I (resolveObject w dir ttl fuel base v) := by
  induction fuel generalizing base v with
  | zero =>
    intro s r s' h
    cases h
  | succ fuel ih =>
    cases v with
    | dict items =>
      rw [resolveObject]
      split
      · split
        · exact .bind htrans (resolveRef_within hrefl htrans hget _ _) fun p => ih _ _
        · exact .pure hrefl
      · exact .pure hrefl
      · exact .bind htrans (.mapVals hrefl htrans (ih base) items) fun _ => .pure hrefl
    | list xs => exact .bind htrans (.mapList hrefl htrans (ih base) xs) fun _ => .pure hrefl
    | _ => exact .pure hrefl

end

/-! ## Runs that return -/

namespace Run

theorem bind_eq_ok {x : Run α} {f : α → Run β} {s s' : Session} {b : β} :
    (x >>= f) s = some (.ok b, s') ↔
      ∃ a s₁, x s = some (.ok a, s₁) ∧ f a s₁ = some (.ok b, s') := by
  rw [bind_apply]
  match x s with
  | none | some (.error e, s₁) | some (.ok a, s₁) => simp

theorem pure_eq_ok {a b : α} {s s' : Session} :
    (pure a : Run α) s = some (.ok b, s') ↔ a = b ∧ s = s' := by
  rw [pure_apply]
  simp

end Run

section
variable {w : World} {dir : Option String} {ttl : Int} {k : Nat} {base : Option String}
  {s s' : Session} {o : PyVal}

theorem resolveObject_keep {items : List (PyKey × PyVal)} {v : PyVal}
    (sole : soleRef? items = some v) (keep : ∀ ref, v = .str ref → isExternal ref = false)
    (h : resolveObject w dir ttl k base (.dict items) s = some (.ok o, s')) :
    o = .dict items ∧ s' = s := by
  cases k with
  | zero => cases h
  | succ k =>
    cases v with
    | str ref =>
      simp only [resolveObject, sole, keep ref rfl] at h
      cases h
      exact ⟨rfl, rfl⟩
    | _ =>
      simp only [resolveObject, sole] at h
      cases h
      exact ⟨rfl, rfl⟩

end

/-! ## Cache files -/

/-- The file that `_write_to_cache` leaves behind. -/
def cacheFile (timestamp : Rat) (url : String) (document : PyVal) : CacheFile :=
  (jsonDump (cachedData timestamp url document)).1

theorem jsonRoundTrip_cachedData {t : Rat} {url : String} {doc : PyVal} :
    jsonRoundTrip (cachedData t url doc) = (jsonRoundTrip doc).map (cachedData t url) := by
  rw [cachedData, jsonRoundTrip]
  simp only [jsonRoundTripItems, jsonKey, jsonRoundTrip, bind, Except.bind, pure, Except.pure]
  cases jsonRoundTrip doc with
  | error e => rfl
  | ok doc' => rfl

theorem cacheFile_of_ok {t : Rat} {url : String} {doc doc' : PyVal}
    (h : jsonRoundTrip doc = .ok doc') : cacheFile t url doc = .ok (cachedData t url doc') := by
  simp [cacheFile, jsonDump, jsonRoundTrip_cachedData, h, Except.map]

theorem cacheFile_of_error {t : Rat} {url : String} {doc : PyVal} {e : PyError}
    (h : jsonRoundTrip doc = .error e) :
    cacheFile t url doc = .error ⟨.jsonDecodeError, "partial text"⟩ := by
  simp [cacheFile, jsonDump, jsonRoundTrip_cachedData, h, Except.map]

namespace Session

def request (s : Session) (url : String) : Session := { s with requests := s.requests ++ [url] }

def remember (s : Session) (url : String) (doc : PyVal) : Session :=
  { s with documentCache := Function.update s.documentCache url (some doc) }

/-- The cache file of the document is written. -/
def write (s : Session) (w : World) (dir url : String) (doc : PyVal) : Session :=
  { s with
    readings := s.readings + 1
    disk := Function.update s.disk (getCachePath w url dir)
      (some (cacheFile (w.time s.readings) url doc)) }

/-- The write of the cache file is stopped. -/
def leave (s : Session) (w : World) (dir url : String) (doc : PyVal) (fault : WriteFault) :
    Session :=
  { s with
    readings := s.readings + 1
    disk := Function.update s.disk (getCachePath w url dir)
      (fault.leaves (s.disk (getCachePath w url dir)) (cacheFile (w.time s.readings) url doc)) }

variable {s : Session} {w : World} {dir url other : String} {doc : PyVal}

@[simp] theorem request_documentCache : (s.request url).documentCache = s.documentCache := rfl

@[simp] theorem request_disk : (s.request url).disk = s.disk := rfl

@[simp] theorem remember_disk : (s.remember url doc).disk = s.disk := rfl

@[simp] theorem write_documentCache : (s.write w dir url doc).documentCache = s.documentCache := rfl

@[simp] theorem remember_self : (s.remember url doc).documentCache url = some doc :=
  Function.update_self _ _ _

theorem remember_other (h : other ≠ url) :
    (s.remember url doc).documentCache other = s.documentCache other :=
  Function.update_of_ne h _ _

@[simp] theorem write_self : (s.write w dir url doc).disk (getCachePath w url dir) =
    some (cacheFile (w.time s.readings) url doc) :=
  Function.update_self _ _ _

theorem write_other {path : String} (h : path ≠ getCachePath w url dir) :
    (s.write w dir url doc).disk path = s.disk path :=
  Function.update_of_ne h _ _

theorem leave_other {path : String} {fault : WriteFault} (h : path ≠ getCachePath w url dir) :
    (s.leave w dir url doc fault).disk path = s.disk path :=
  Function.update_of_ne h _ _

end Session

/-- Directories can be made and files can be written. -/
structure World.WritesSucceed (w : World) : Prop where
  mkdir : ∀ n dir, w.mkdir n dir = .ok ()
  write : ∀ n path, w.writeFault n path = none

/-- What becomes of a write: there is no directory for it, an `OSError` stops it, or the file is
written as far as the document can be encoded. -/
inductive WriteStep (w : World) (url dir : String) (doc : PyVal) (s : Session) :
    Except PyError Unit → Session → Prop where
  | noDirectory (h : w.mkdir s.requests.length dir = .error e) :
    WriteStep w url dir doc s (.error e) s
  | fault (fault : WriteFault)
      (h : w.writeFault s.requests.length (getCachePath w url dir) = some fault) :
    WriteStep w url dir doc s (.ok ()) (s.leave w dir url doc fault)
  | written :
    WriteStep w url dir doc s ((jsonRoundTrip doc).map fun _ => ()) (s.write w dir url doc)

theorem writeToCache_step (w : World) (url dir : String) (doc : PyVal) (s : Session) :
    ∃ r s', writeToCache w url doc dir s = some (r, s') ∧ WriteStep w url dir doc s r s' := by
  unfold writeToCache readClock
  simp only [Run.bind_apply, Run.session, Run.lift]
  cases hmkdir : w.mkdir s.requests.length dir with
  | error e => exact ⟨_, _, rfl, .noDirectory hmkdir⟩
  | ok =>
    simp only [Run.update, Run.pure_apply]
    cases hfault : w.writeFault s.requests.length (getCachePath w url dir) with
    | some fault => exact ⟨_, _, rfl, .fault fault hfault⟩
    | none =>
      refine ⟨_, _, ?_, .written⟩
      simp only [Run.bind_apply, Session.write, cacheFile, jsonDump, jsonRoundTrip_cachedData]
      cases jsonRoundTrip doc <;> rfl

/-- A write keeps the memory and the other files. -/
structure WriteStep.Frame (w : World) (url dir : String) (s s' : Session) : Prop where
  documentCache : s'.documentCache = s.documentCache
  requests : s'.requests = s.requests
  readings : s.readings ≤ s'.readings
  other : ∀ path, path ≠ getCachePath w url dir → s'.disk path = s.disk path

theorem WriteStep.frame {w : World} {url dir : String} {doc : PyVal} {s s' : Session}
    {r : Except PyError Unit} (h : WriteStep w url dir doc s r s') :
    WriteStep.Frame w url dir s s' := by
  cases h with
  | noDirectory => exact ⟨rfl, rfl, Nat.le_refl _, fun _ _ => rfl⟩
  | fault => exact ⟨rfl, rfl, Nat.le_succ _, fun _ h => Session.leave_other h⟩
  | written => exact ⟨rfl, rfl, Nat.le_succ _, fun _ h => Session.write_other h⟩

theorem World.WritesSucceed.step {w : World} (hw : w.WritesSucceed) {url dir : String}
    {doc : PyVal} {s s' : Session} {r : Except PyError Unit}
    (h : WriteStep w url dir doc s r s') :
    r = ((jsonRoundTrip doc).map fun _ => ()) ∧ s' = s.write w dir url doc := by
  cases h with
  | noDirectory h =>
    rw [hw.mkdir] at h
    cases h
  | fault _ h =>
    rw [hw.write] at h
    cases h
  | written => exact ⟨rfl, rfl⟩

/-- Nothing but the clock has moved. -/
def OnlyClock (s s' : Session) : Prop := ∃ n, s' = { s with readings := n }

theorem OnlyClock.refl (s : Session) : OnlyClock s s := ⟨s.readings, rfl⟩

theorem OnlyClock.trans (s s' s'' : Session) (h : OnlyClock s s') (h' : OnlyClock s' s'') :
    OnlyClock s s'' := by
  obtain ⟨n, rfl⟩ := h
  obtain ⟨n', rfl⟩ := h'
  exact ⟨n', rfl⟩

theorem readClock_within (w : World) : Run.Within OnlyClock (readClock w) := by
  intro s r s' h
  cases h
  exact ⟨_, rfl⟩

section
variable {I : Session → Session → Prop} (hrefl : ∀ s, I s s)
  (htrans : ∀ s s' s'', I s s' → I s' s'' → I s s'') (hclock : Run.Within I (readClock w))
include hrefl htrans hclock

theorem readFromCache_within_of (url dir : String) (ttl : Int) :
    Run.Within I (readFromCache w url dir ttl) := by
  refine .bind htrans (.session hrefl) fun s => ?_
  split
  · exact .pure hrefl
  · split
    · exact .pure hrefl
    · exact .lift hrefl
  · exact .bind htrans hclock fun now => .bind htrans (.lift hrefl) fun expired => .pure hrefl
  · exact .lift hrefl

end

theorem readFromCache_within (w : World) (url dir : String) (ttl : Int) :
    Run.Within OnlyClock (readFromCache w url dir ttl) :=
  readFromCache_within_of OnlyClock.refl OnlyClock.trans (readClock_within w) url dir ttl

/-! ## Documents -/

/-- What `_fetch_remote_document` gives when it makes the `n`-th request. -/
def World.fetched (w : World) (n : Nat) : Documents := fun url => do
  let content ← w.get n url
  if Str.endsWith url ".yaml" || Str.endsWith url ".yml" then content.yaml else content.json

theorem fetchRemoteDocument_apply (w : World) (url : String) (s : Session) :
    fetchRemoteDocument w url s = some (w.fetched s.requests.length url, s.request url) := by
  unfold fetchRemoteDocument World.fetched
  simp only [Run.bind_apply, Run.session, Run.update, Run.lift]
  cases w.get s.requests.length url with
  | error e => rfl
  | ok content =>
    simp only [bind, Except.bind]
    split <;> rfl

theorem World.Steady.fetched {w : World} (hw : w.Steady) (n : Nat) (url : String) :
    w.fetched n url = w.document url := by
  rw [World.fetched, hw n url, World.document]

/-- What `getDocument` with a disk cache may do: the cases of its body, in their order. -/
inductive DocumentCall (w : World) (url dir : String) (ttl : Int) (s : Session) :
    Except PyError PyVal → Session → Prop where
  | memory (hmem : s.documentCache url = some doc) : DocumentCall w url dir ttl s (.ok doc) s
  | broken (hmem : s.documentCache url = none)
      (hread : readFromCache w url dir ttl s = some (.error e, s₁)) :
      DocumentCall w url dir ttl s (.error e) s₁
  | disk (hmem : s.documentCache url = none)
      (hread : readFromCache w url dir ttl s = some (.ok doc, s₁)) (hdoc : doc.isNone = false) :
      DocumentCall w url dir ttl s (.ok doc) (s₁.remember url doc)
  | failed (hmem : s.documentCache url = none)
      (hread : readFromCache w url dir ttl s = some (.ok miss, s₁)) (hmiss : miss.isNone = true)
      (hdoc : w.fetched s.requests.length url = .error e) :
      DocumentCall w url dir ttl s (.error e) (s₁.request url)
  | fetched (hmem : s.documentCache url = none)
      (hread : readFromCache w url dir ttl s = some (.ok miss, s₁)) (hmiss : miss.isNone = true)
      (hdoc : w.fetched s.requests.length url = .ok doc)
      (hwrite : WriteStep w url dir doc ((s₁.request url).remember url doc) r s₂) :
      DocumentCall w url dir ttl s (r.map fun _ => doc) s₂

/-- The same in a steady world where files can be written. -/
inductive DocumentStep (w : World) (url dir : String) (ttl : Int) (s : Session) :
    Except PyError PyVal → Session → Prop where
  | memory (hmem : s.documentCache url = some doc) : DocumentStep w url dir ttl s (.ok doc) s
  | broken (hmem : s.documentCache url = none)
      (hread : readFromCache w url dir ttl s = some (.error e, s₁)) :
      DocumentStep w url dir ttl s (.error e) s₁
  | disk (hmem : s.documentCache url = none)
      (hread : readFromCache w url dir ttl s = some (.ok doc, s₁)) (hdoc : doc.isNone = false) :
      DocumentStep w url dir ttl s (.ok doc) (s₁.remember url doc)
  | failed (hmem : s.documentCache url = none)
      (hread : readFromCache w url dir ttl s = some (.ok miss, s₁)) (hmiss : miss.isNone = true)
      (hdoc : w.document url = .error e) :
      DocumentStep w url dir ttl s (.error e) (s₁.request url)
  | fetched (hmem : s.documentCache url = none)
      (hread : readFromCache w url dir ttl s = some (.ok miss, s₁)) (hmiss : miss.isNone = true)
      (hdoc : w.document url = .ok doc) :
      DocumentStep w url dir ttl s ((jsonRoundTrip doc).map fun _ => doc)
        (((s₁.request url).remember url doc).write w dir url doc)

section
variable {w : World} {url dir : String} {ttl : Int} {s : Session}

theorem readFromCache_missing (h : s.disk (getCachePath w url dir) = none) :
    readFromCache w url dir ttl s = some (.ok .none, s) := by
  unfold readFromCache
  simp only [Run.bind_apply, Run.session, h]
  rfl

/-- The exceptions of reading a file that are turned into a miss. -/
theorem readFromCache_caught {e : PyError} (he : e.cls = .jsonDecodeError ∨ e.cls = .osError)
    (h : s.disk (getCachePath w url dir) = some (.error e)) :
    readFromCache w url dir ttl s = some (.ok .none, s) := by
  unfold readFromCache
  simp only [Run.bind_apply, Run.session, h, if_pos he]
  rfl

theorem readFromCache_truncated {msg : String}
    (h : s.disk (getCachePath w url dir) = some (.error ⟨.jsonDecodeError, msg⟩)) :
    readFromCache w url dir ttl s = some (.ok .none, s) :=
  readFromCache_caught (.inl rfl) h

theorem readFromCache_entry {t : Rat} {doc : PyVal}
    (h : s.disk (getCachePath w url dir) = some (.ok (cachedData t url doc))) :
    readFromCache w url dir ttl s =
      some (.ok (if (PyFloat.ofRat (w.time s.readings - t)).exceeds ttl then .none else doc),
        { s with readings := s.readings + 1 }) := by
  unfold readFromCache
  simp only [Run.bind_apply, Run.session, h, cachedData, readClock, Run.update, Run.lift,
    Run.pure_apply, PyVal.get_cons, isExpired]
  simp [PyVal.number?, PyFloat.sub]

end

theorem readFromCache_isSome (w : World) (url dir : String) (ttl : Int) (s : Session) :
    ∃ r s', readFromCache w url dir ttl s = some (r, s') := by
  unfold readFromCache
  simp only [Run.bind_apply, Run.session]
  rcases s.disk (getCachePath w url dir) with _ | e | v
  · exact ⟨_, _, rfl⟩
  · simp only
    split <;> exact ⟨_, _, rfl⟩
  · cases v with
    | dict data =>
      simp only [Run.bind_apply, readClock, Run.session, Run.update, Run.lift, Run.pure_apply]
      cases isExpired (w.time s.readings) ((PyVal.get data "timestamp").getD (.int 0)) ttl <;>
        exact ⟨_, _, rfl⟩
    | _ => exact ⟨_, _, rfl⟩

theorem getDocument_call (w : World) (url dir : String) (ttl : Int) (s : Session) :
    ∃ r s', getDocument w url (some dir) ttl s = some (r, s') ∧
      DocumentCall w url dir ttl s r s' := by
  unfold getDocument
  simp only [Run.bind_apply, Run.session]
  cases hmem : s.documentCache url with
  | some doc => exact ⟨_, _, rfl, .memory hmem⟩
  | none =>
    obtain ⟨r, s₁, hread⟩ := readFromCache_isSome w url dir ttl s
    obtain ⟨n, hclock⟩ := readFromCache_within w url dir ttl s r s₁ hread
    simp only [Run.bind_apply, getDocument.cached, hread]
    cases r with
    | error e => exact ⟨_, _, rfl, .broken hmem hread⟩
    | ok doc =>
      simp only
      cases hdoc : doc.isNone with
      | false =>
        rw [if_neg Bool.false_ne_true]
        exact ⟨_, _, rfl, .disk hmem hread hdoc⟩
      | true =>
        have hrequests : s₁.requests = s.requests := by rw [hclock]
        rw [if_pos rfl, Run.bind_apply, fetchRemoteDocument_apply, hrequests]
        cases hfetch : w.fetched s.requests.length url with
        | error e => exact ⟨_, _, rfl, .failed hmem hread hdoc hfetch⟩
        | ok doc =>
          obtain ⟨r, s₂, hstore, hwrite⟩ :=
            writeToCache_step w url dir doc ((s₁.request url).remember url doc)
          refine ⟨_, _, ?_, .fetched hmem hread hdoc hfetch hwrite⟩
          simp only [Session.remember] at hstore
          simp only [getDocument.remember, getDocument.store, Run.bind_apply, Run.update, hstore,
            Run.pure_apply]
          cases r <;> rfl

theorem getDocument_step (hw : w.Steady) (hfiles : w.WritesSucceed) (url dir : String) (ttl : Int)
    (s : Session) :
    ∃ r s', getDocument w url (some dir) ttl s = some (r, s') ∧
      DocumentStep w url dir ttl s r s' := by
  obtain ⟨r, s', hget, hcall⟩ := getDocument_call w url dir ttl s
  refine ⟨r, s', hget, ?_⟩
  cases hcall with
  | memory hmem => exact .memory hmem
  | broken hmem hread => exact .broken hmem hread
  | disk hmem hread hdoc => exact .disk hmem hread hdoc
  | failed hmem hread hmiss hdoc => exact .failed hmem hread hmiss (hw.fetched _ url ▸ hdoc)
  | @fetched _ _ doc _ _ hmem hread hmiss hdoc hwrite =>
    obtain ⟨rfl, rfl⟩ := hfiles.step hwrite
    have hanswer : (((jsonRoundTrip doc).map fun _ => ()).map fun _ => doc) =
        (jsonRoundTrip doc).map fun _ => doc := by
      cases jsonRoundTrip doc <;> rfl
    rw [hanswer]
    exact .fetched hmem hread hmiss (hw.fetched _ url ▸ hdoc)

end FastGeoApi
