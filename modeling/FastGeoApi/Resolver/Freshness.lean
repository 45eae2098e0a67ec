import FastGeoApi.Lib.Lists
import FastGeoApi.Resolver.Sessions

/-!
# Freshness of the disk cache

Any calls of `getDocument`, in any number of resolver runs that share a cache directory, while the
remote side may change. Each call appends its completed writes to a log; the invariant (`Recorded`)
is that the cache file of a URL is the one that the last write of the log for it has left. `used` is
a set of URLs no two of which have the same cache file.
-/

namespace FastGeoApi

/-- The time between two readings of the clock is a float: it is not rounded. -/
def World.ExactAges (w : World) : Prop := ∀ m n, IsBinary64 (w.time m - w.time n)

/-- Readings that count the ticks of one power of two. -/
theorem World.exactAges_of_ticks {w : World} (tick : Int) (hmin : -1074 ≤ tick) (hmax : tick ≤ 971)
    (hticks : ∀ n, ∃ count : Nat, count < 2 ^ 53 ∧ w.time n = count * 2 ^ tick) :
    w.ExactAges := by
  intro m n
  obtain ⟨i, hi, him⟩ := hticks m
  obtain ⟨j, hj, hjn⟩ := hticks n
  refine ⟨i - j, tick, by omega, hmin, hmax, ?_⟩
  rw [him, hjn, ← sub_mul]
  push_cast
  rfl

/-- JSON gives the document back as it was. -/
def JsonNative (doc : PyVal) : Prop := jsonRoundTrip doc = .ok doc

/-- A completed write: the document that the request of this number brought, with its time stamp. -/
structure CacheWrite where
  url : String
  request : Nat
  document : PyVal
  time : Rat

/-- The writes of a call from `s` to `s'`. A call that has made a request with success writes the
document, and does nothing after it. -/
def writesOf (w : World) (url : String) (s s' : Session) : Except PyError PyVal → List CacheWrite
  | .ok doc =>
    if s'.requests = s.requests then []
    else [⟨url, s.requests.length, doc, w.time (s'.readings - 1)⟩]
  | .error _ => []

def lastWrite (log : List CacheWrite) (url : String) : Option CacheWrite :=
  log.reverse.find? (·.url = url)

@[simp] theorem lastWrite_append {log : List CacheWrite} {x : CacheWrite} {url : String} :
    lastWrite (log ++ [x]) url = if x.url = url then some x else lastWrite log url := by
  rw [lastWrite, List.reverse_append, List.reverse_singleton, List.singleton_append,
    List.find?_cons]
  split <;> simp_all [lastWrite]

theorem lastWrite_eq_some {log : List CacheWrite} {x : CacheWrite} {url : String}
    (h : lastWrite log url = some x) : x ∈ log ∧ x.url = url := by
  have hmem := List.mem_of_find?_eq_some h
  have hurl := List.find?_some h
  exact ⟨List.mem_reverse.mp hmem, of_decide_eq_true hurl⟩

/-- The sessions that calls lead to from an empty cache directory, with the log of the completed
writes. Each resolver run starts with an empty memory. -/
inductive Calls (w : World) (dir : String) (used : Set String) :
    List CacheWrite → Session → Prop where
  | empty (h : s.disk = fun _ => none) : Calls w dir used [] s
  | nextRun (h : Calls w dir used log s) :
    Calls w dir used log { s with documentCache := fun _ => none }
  | call (h : Calls w dir used log s) (hurl : url ∈ used)
    (hcall : getDocument w url (some dir) ttl s = some (r, s')) :
    Calls w dir used (log ++ writesOf w url s s' r) s'

/-- The call answered with a document that was not in memory, and made no request for it. -/
def FromDisk (url : String) (s s' : Session) : Prop :=
  s.documentCache url = none ∧ s'.requests = s.requests

section
variable {w : World} {dir url : String} {used : Set String} {ttl : Int} {s s' : Session}
  {r : Except PyError PyVal} {log : List CacheWrite}

/-! ## What one call does -/

/-- A call writes nothing and leaves the files alone, or it makes a request with success and writes
what the request brought. -/
inductive CallEffect (w : World) (url dir : String) (s : Session) (r : Except PyError PyVal)
    (s' : Session) : Prop where
  | noWrite (hlog : writesOf w url s s' r = []) (hdisk : s'.disk = s.disk)
    (hrequests : s.requests <+: s'.requests) (hreadings : s.readings ≤ s'.readings)
  | wrote (doc : PyVal) (s₁ : Session) (hr : r = .ok doc)
    (hdoc : w.fetched s.requests.length url = .ok doc)
    (hwrite : s' = s₁.write w dir url doc)
    (hdisk : s₁.disk = s.disk) (hrequests : s'.requests = s.requests ++ [url])
    (hreadings : s.readings ≤ s₁.readings)
    (hlog : writesOf w url s s' r = [⟨url, s.requests.length, doc, w.time s₁.readings⟩])

/-- Nothing but the clock has moved, and it has not moved back. -/
def ClockOn (s s' : Session) : Prop := ∃ n, s.readings ≤ n ∧ s' = { s with readings := n }

theorem ClockOn.refl (s : Session) : ClockOn s s := ⟨s.readings, Nat.le_refl _, rfl⟩

theorem ClockOn.trans (s s' s'' : Session) (h : ClockOn s s') (h' : ClockOn s' s'') :
    ClockOn s s'' := by
  obtain ⟨n, hn, rfl⟩ := h
  obtain ⟨m, hm, rfl⟩ := h'
  exact ⟨m, Nat.le_trans hn hm, rfl⟩

theorem readClock_clockOn (w : World) : Run.Within ClockOn (readClock w) := by
  intro s r s' h
  cases h
  exact ⟨s.readings + 1, Nat.le_succ _, rfl⟩

theorem readFromCache_clockOn (h : readFromCache w url dir ttl s = some (r, s')) : ClockOn s s' :=
  readFromCache_within_of ClockOn.refl ClockOn.trans (readClock_clockOn w) url dir ttl s r s' h

theorem writesOf_error {e : PyError} : writesOf w url s s' (.error e) = [] := rfl

theorem writesOf_of_requests (h : s'.requests = s.requests) : writesOf w url s s' r = [] := by
  cases r with
  | error e => rfl
  | ok doc => exact if_pos h

theorem writesOf_write {s₁ : Session} {doc : PyVal} (h : s₁.requests = s.requests ++ [url]) :
    writesOf w url s (s₁.write w dir url doc) (.ok doc) =
      [⟨url, s.requests.length, doc, w.time s₁.readings⟩] := by
  have hne : (s₁.write w dir url doc).requests ≠ s.requests := by
    rw [show (s₁.write w dir url doc).requests = s₁.requests from rfl, h]
    simp
  exact if_neg hne

theorem call_effect (hfiles : w.WritesSucceed)
    (hnative : ∀ n url doc, w.fetched n url = .ok doc → JsonNative doc)
    (h : getDocument w url (some dir) ttl s = some (r, s')) : CallEffect w url dir s r s' := by
  obtain ⟨r', s'', hget, hcall⟩ := getDocument_call w url dir ttl s
  rw [h] at hget
  cases hget
  cases hcall with
  | memory => exact .noWrite (writesOf_of_requests rfl) rfl (List.prefix_refl _) (Nat.le_refl _)
  | broken _ hread =>
    obtain ⟨n, hn, rfl⟩ := readFromCache_clockOn hread
    exact .noWrite writesOf_error rfl (List.prefix_refl _) hn
  | disk _ hread =>
    obtain ⟨n, hn, rfl⟩ := readFromCache_clockOn hread
    exact .noWrite (writesOf_of_requests rfl) rfl (List.prefix_refl _) hn
  | failed _ hread =>
    obtain ⟨n, hn, rfl⟩ := readFromCache_clockOn hread
    exact .noWrite writesOf_error rfl (List.prefix_append _ _) hn
  | @fetched s₁ _ doc _ _ _ hread _ hdoc hwrite =>
    obtain ⟨n, hn, rfl⟩ := readFromCache_clockOn hread
    obtain ⟨rfl, rfl⟩ := hfiles.step hwrite
    have htrip : jsonRoundTrip doc = .ok doc := hnative _ _ _ hdoc
    rw [htrip]
    exact .wrote doc (({ s with readings := n }.request url).remember url doc) rfl hdoc rfl rfl rfl
      hn (writesOf_write rfl)

/-! ## The invariant -/

/-- The cache files are those of the last writes, and every write of the log is of a document that
a request for its URL brought, at a time that the clock has shown. -/
structure Recorded (w : World) (dir : String) (used : Set String) (log : List CacheWrite)
    (s : Session) : Prop where
  files : ∀ url ∈ used, s.disk (getCachePath w url dir) =
    (lastWrite log url).map fun x => cacheFile x.time url x.document
  fetched : ∀ x ∈ log, s.requests[x.request]? = some x.url ∧
    w.fetched x.request x.url = .ok x.document
  past : ∀ x ∈ log, ∃ n < s.readings, x.time = w.time n

theorem Recorded.call (h : Recorded w dir used log s)
    (hinj : Set.InjOn (fun url => getCachePath w url dir) used) (hurl : url ∈ used)
    (heffect : CallEffect w url dir s r s') :
    Recorded w dir used (log ++ writesOf w url s s' r) s' := by
  cases heffect with
  | noWrite hlog hdisk hrequests hreadings =>
    rw [hlog, List.append_nil]
    refine ⟨fun url hurl => hdisk ▸ h.files url hurl, fun x hx => ?_, fun x hx => ?_⟩
    · obtain ⟨hrequest, hdoc⟩ := h.fetched x hx
      exact ⟨getElem?_of_isPrefix hrequests hrequest, hdoc⟩
    · obtain ⟨n, hn, htime⟩ := h.past x hx
      exact ⟨n, Nat.lt_of_lt_of_le hn hreadings, htime⟩
  | wrote doc s₁ hr hdoc hwrite hdisk hrequests hreadings hlog =>
    subst hwrite
    rw [hlog]
    refine ⟨fun other hother => ?_, fun x hx => ?_, fun x hx => ?_⟩
    · rw [lastWrite_append]
      by_cases heq : url = other
      · subst heq
        rw [Session.write_self, if_pos rfl]
        rfl
      · have hne : getCachePath w other dir ≠ getCachePath w url dir := fun hpath =>
          heq (hinj hother hurl hpath).symm
        rw [Session.write_other hne, if_neg heq, hdisk, h.files other hother]
    · rw [hrequests]
      rcases List.mem_append.mp hx with hx | hx
      · obtain ⟨hrequest, hdoc⟩ := h.fetched x hx
        exact ⟨getElem?_of_isPrefix (List.prefix_append _ _) hrequest, hdoc⟩
      · obtain rfl := List.mem_singleton.mp hx
        exact ⟨by simp, hdoc⟩
    · rcases List.mem_append.mp hx with hx | hx
      · obtain ⟨n, hn, htime⟩ := h.past x hx
        exact ⟨n, Nat.lt_succ_of_lt (Nat.lt_of_lt_of_le hn hreadings), htime⟩
      · obtain rfl := List.mem_singleton.mp hx
        exact ⟨s₁.readings, Nat.lt_succ_self _, rfl⟩

theorem Calls.recorded (h : Calls w dir used log s) (hfiles : w.WritesSucceed)
    (hinj : Set.InjOn (fun url => getCachePath w url dir) used)
    (hnative : ∀ n url doc, w.fetched n url = .ok doc → JsonNative doc) :
    Recorded w dir used log s := by
  induction h with
  | empty h => exact ⟨fun url _ => congrFun h _, fun x hx => (nomatch hx), fun x hx => (nomatch hx)⟩
  | nextRun _ ih => exact ⟨ih.files, ih.fetched, ih.past⟩
  | call _ hurl hcall ih => exact ih.call hinj hurl (call_effect hfiles hnative hcall)

/-- A cache file is read with success when its write is recent enough. -/
theorem Recorded.read (h : Recorded w dir used log s) (hexact : w.ExactAges)
    (hnative : ∀ n url doc, w.fetched n url = .ok doc → JsonNative doc) (hurl : url ∈ used)
    {doc : PyVal} (hread : readFromCache w url dir ttl s = some (.ok doc, s'))
    (hdoc : doc.isNone = false) :
    ∃ x, lastWrite log url = some x ∧ x.document = doc ∧ w.time s.readings - x.time ≤ ttl := by
  have hfile := h.files url hurl
  cases hlast : lastWrite log url with
  | none =>
    rw [hlast] at hfile
    rw [readFromCache_missing hfile] at hread
    cases hread
    cases hdoc
  | some x =>
    obtain ⟨hx, rfl⟩ := lastWrite_eq_some hlast
    have htrip : jsonRoundTrip x.document = .ok x.document := hnative _ _ _ (h.fetched x hx).2
    rw [hlast, Option.map_some, cacheFile_of_ok htrip] at hfile
    rw [readFromCache_entry hfile] at hread
    obtain ⟨n, _, htime⟩ := h.past x hx
    have hage : IsBinary64 (w.time s.readings - x.time) := htime ▸ hexact s.readings n
    by_cases hexpired : (PyFloat.ofRat (w.time s.readings - x.time)).exceeds ttl = true
    · rw [if_pos hexpired] at hread
      cases hread
      cases hdoc
    · rw [if_neg hexpired] at hread
      cases hread
      rw [PyFloat.exceeds_ofRat hage] at hexpired
      exact ⟨x, rfl, rfl, Rat.not_lt.mp hexpired⟩

/-- A call that is served from disk has read the cache file. -/
theorem fromDisk_read {doc : PyVal} (hfrom : FromDisk url s s')
    (hcall : DocumentCall w url dir ttl s (.ok doc) s') :
    doc.isNone = false ∧ ∃ s₁, readFromCache w url dir ttl s = some (.ok doc, s₁) := by
  obtain ⟨hmem, hrequests⟩ := hfrom
  generalize hr : (Except.ok doc : Except PyError PyVal) = r at hcall
  cases hcall with
  | memory hmem' =>
    rw [hmem] at hmem'
    cases hmem'
  | disk _ hread hdoc =>
    cases hr
    exact ⟨hdoc, _, hread⟩
  | fetched _ hread _ _ hwrite =>
    obtain ⟨n, _, rfl⟩ := readFromCache_clockOn hread
    rw [hwrite.frame.requests] at hrequests
    simp [Session.remember, Session.request] at hrequests
  | broken | failed => cases hr

end

theorem disk_hits_fresh (w : World) (hfiles : w.WritesSucceed) (dir : String) (used : Set String)
    (hinj : Set.InjOn (fun url => getCachePath w url dir) used)
    (hclock : ∀ m n, m ≤ n → w.time m ≤ w.time n) (hexact : w.ExactAges)
    (hnative : ∀ n url doc, w.fetched n url = .ok doc → JsonNative doc)
    (log : List CacheWrite) (s : Session) (hcalls : Calls w dir used log s)
    (url : String) (hurl : url ∈ used) (ttl : Int) (r : Except PyError PyVal) (s' : Session)
    (hcall : getDocument w url (some dir) ttl s = some (r, s')) :
    (∀ doc, r = .ok doc → FromDisk url s s' → ∃ x, lastWrite log url = some x ∧
      x.document = doc ∧ s.requests[x.request]? = some url ∧ w.fetched x.request url = .ok doc ∧
      x.time ≤ w.time s.readings ∧ w.time s.readings - x.time ≤ ttl) ∧
    (∀ e, r = .error e → s'.disk = s.disk) ∧
    ∀ other ∈ used, other ≠ url →
      s'.disk (getCachePath w other dir) = s.disk (getCachePath w other dir) := by
  have hrecorded := hcalls.recorded hfiles hinj hnative
  refine ⟨fun doc hr hfrom => ?_, ?_⟩
  · subst hr
    obtain ⟨r', s'', hget, hstep⟩ := getDocument_call w url dir ttl s
    rw [hcall] at hget
    cases hget
    obtain ⟨hdoc, s₁, hread⟩ := fromDisk_read hfrom hstep
    obtain ⟨x, hlast, rfl, hage⟩ := hrecorded.read hexact hnative hurl hread hdoc
    obtain ⟨hx, rfl⟩ := lastWrite_eq_some hlast
    obtain ⟨hrequest, hfetched⟩ := hrecorded.fetched x hx
    obtain ⟨n, hn, htime⟩ := hrecorded.past x hx
    exact ⟨x, hlast, rfl, hrequest, hfetched, htime ▸ hclock n _ (Nat.le_of_lt hn), hage⟩
  · cases call_effect hfiles hnative hcall with
    | noWrite _ hdisk => exact ⟨fun _ _ => hdisk, fun _ _ _ => by rw [hdisk]⟩
    | wrote doc s₁ hr _ hwrite hdisk =>
      subst hwrite
      refine ⟨fun e he => ?_, fun other hother hne => ?_⟩
      · rw [hr] at he
        cases he
      · have hpath : getCachePath w other dir ≠ getCachePath w url dir := fun hpath =>
          hne (hinj hother hurl hpath)
        rw [Session.write_other hpath, hdisk]

def lineUrl : String := "https://example.com/line.json"

def lineDocument : PyVal := .dict [(.str "type", .str "LineString")]

/-- One document, and a clock that moves on by one second at each reading for an hour. -/
def lineWorld : World :=
  { Store.world [(lineUrl, lineDocument)] with time := fun n => (min n 3600 : Nat) }

theorem lineWorld_files : lineWorld.WritesSucceed := ⟨fun _ _ => rfl, fun _ _ => rfl⟩

theorem lineWorld_exactAges : lineWorld.ExactAges := by
  refine World.exactAges_of_ticks 0 (by decide) (by decide) fun n => ?_
  exact ⟨min n 3600, by omega, by simp [lineWorld]⟩

theorem lineWorld_clock {m n : Nat} (h : m ≤ n) : lineWorld.time m ≤ lineWorld.time n :=
  Rat.natCast_le_natCast.mpr (min_le_min_right 3600 h)

theorem lineWorld_native (n : Nat) (url : String) (doc : PyVal)
    (h : lineWorld.fetched n url = .ok doc) : JsonNative doc := by
  have hdoc : Store.documents [(lineUrl, lineDocument)] url = .ok doc :=
    (congrFun (Store.world_document [(lineUrl, lineDocument)]) url).symm.trans h
  rw [Store.documents, List.lookup_cons] at hdoc
  split at hdoc
  · rename_i doc' hlookup
    split at hlookup
    · cases hlookup
      cases hdoc
      rfl
    · cases hlookup
  · cases hdoc

/-- The session of the run that has fetched the document. -/
def lineSession : Session :=
  ((Session.start.request lineUrl).remember lineUrl lineDocument).write lineWorld "/cache" lineUrl
    lineDocument

theorem lineSession_fetched :
    getDocument lineWorld lineUrl (some "/cache") 0 Session.start =
      some (.ok lineDocument, lineSession) := rfl

/-- The write of the first run. -/
def lineWrite : CacheWrite where
  url := lineUrl
  request := 0
  document := lineDocument
  time := lineWorld.time 0

/-- The next run, which starts with an empty memory. -/
def nextLineSession : Session := { lineSession with documentCache := fun _ => none }

theorem nextLineSession_calls : Calls lineWorld "/cache" {lineUrl} [lineWrite] nextLineSession := by
  have hlog : writesOf lineWorld lineUrl Session.start lineSession (.ok lineDocument) =
      [lineWrite] := writesOf_write rfl
  have hcalls := Calls.call (.empty rfl) (Set.mem_singleton lineUrl) lineSession_fetched
  rw [hlog] at hcalls
  exact .nextRun hcalls

theorem nextLineSession_served :
    getDocument lineWorld lineUrl (some "/cache") 3600 nextLineSession =
      some (.ok lineDocument,
        { nextLineSession with readings := 2 }.remember lineUrl lineDocument) := by
  have hage : ¬(PyFloat.ofRat (lineWorld.time 1 - lineWorld.time 0)).exceeds 3600 = true := by
    rw [PyFloat.exceeds_ofRat (lineWorld_exactAges 1 0)]
    decide +kernel
  have hread : readFromCache lineWorld lineUrl "/cache" 3600 nextLineSession =
      some (.ok lineDocument, { nextLineSession with readings := 2 }) := by
    have hfile : nextLineSession.disk (getCachePath lineWorld lineUrl "/cache") =
        some (.ok (cachedData (lineWorld.time 0) lineUrl lineDocument)) := rfl
    rw [readFromCache_entry hfile, show nextLineSession.readings = 1 from rfl, if_neg hage]
  have hmem : nextLineSession.documentCache lineUrl = none := rfl
  unfold getDocument
  simp only [Run.bind_apply, Run.session, hmem, getDocument.cached, hread]
  rfl

theorem nextLineSession_fresh :
    ∃ x, lastWrite [lineWrite] lineUrl = some x ∧ x.document = lineDocument ∧
      nextLineSession.requests[x.request]? = some lineUrl ∧
      lineWorld.fetched x.request lineUrl = .ok lineDocument ∧ x.time ≤ lineWorld.time 1 ∧
      lineWorld.time 1 - x.time ≤ (3600 : Int) := by
  have hfresh := disk_hits_fresh lineWorld lineWorld_files "/cache" {lineUrl}
    (Set.injOn_singleton _ _) (fun _ _ => lineWorld_clock) lineWorld_exactAges lineWorld_native _ _
    nextLineSession_calls lineUrl rfl 3600 _ _ nextLineSession_served
  exact hfresh.1 lineDocument rfl ⟨rfl, rfl⟩

end FastGeoApi
