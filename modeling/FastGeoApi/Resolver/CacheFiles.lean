import FastGeoApi.Lib.JsonScan
import FastGeoApi.Lib.Utf8
import FastGeoApi.Resolver.Fetches

/-!
# Cache files as bytes

What `json.load` makes of the bytes of a cache file, and what becomes of a run that comes upon it.
The file is opened as UTF-8. `String` has no surrogates: one that has no partner is read as U+FFFD.
-/

namespace FastGeoApi

namespace Json

/-! ## Values as Python has them -/

def CodePoint.toChar (c : CodePoint) : Char :=
  if h : c.val.isValidChar then Char.ofNatAux c.val h else '\ufffd'

def Text.toStr (s : Text) : String := String.ofList (s.map CodePoint.toChar)

/-- The exponent of a number: `-7` for `e-07`. -/
def Number.exponent (n : Number) : Int :=
  match n.exp.tail with
  | '-' :: digits => -(Nat.ofDigitChars 10 digits 0 : Int)
  | '+' :: digits => Nat.ofDigitChars 10 digits 0
  | digits => Nat.ofDigitChars 10 digits 0

/-- The number without its sign. -/
def Number.magnitude (n : Number) : Rat :=
  let shift := n.exponent - n.frac.length
  let numerator : Nat := Nat.ofDigitChars 10 (n.whole ++ n.frac) 0 * 10 ^ shift.toNat
  mkRat numerator (10 ^ (-shift).toNat)

/-- `float(text)`. -/
def Literal.toFloat : Literal → PyFloat
  | .nan => .nan
  | .infinity negative => .inf negative
  | .number n => .ofRat (if n.negative then -n.magnitude else n.magnitude)

mutual
def Value.toPy : Value → PyVal
  | .null => .none
  | .bool b => .bool b
  | .int i => .int i
  | .float x => .float x.toFloat
  | .str s => .str (Text.toStr s)
  | .arr items => .list (toPyItems items)
  | .obj members => .dict (dictOf (toPyMembers members))

def toPyItems : List Value → List PyVal
  | [] => []
  | v :: items => v.toPy :: toPyItems items

def toPyMembers : List (Text × Value) → List (PyKey × PyVal)
  | [] => []
  | (key, v) :: members => (.str (Text.toStr key), v.toPy) :: toPyMembers members
end

/-- The exception that is raised; `stuck` never occurs (`scan_ne_stuck`). -/
def Error.toPy (limits : Limits) : Error → PyError
  | .malformed msg => ⟨.jsonDecodeError, msg⟩
  | .digits => ⟨.valueError, "Exceeds the limit (" ++ toString limits.digits ++
      " digits) for integer string conversion"⟩
  | .depth | .stuck => ⟨.other "RecursionError", "maximum recursion depth exceeded"⟩

end Json

/-- The line ends of a file that is opened as a text. -/
def universalNewlines : List Char → List Char
  | [] => []
  | '\r' :: '\n' :: cs => '\n' :: universalNewlines cs
  | c :: cs => (if c = '\r' then '\n' else c) :: universalNewlines cs

/-- `json.loads`. -/
def jsonLoads (limits : Json.Limits) (text : List Char) : CacheFile :=
  match Json.scan limits text with
  | .ok v => .ok v.toPy
  | .error e => .error (e.toPy limits)

/-- `json.load` of a file with these bytes. -/
def CacheFile.ofBytes (limits : Json.Limits) (bytes : ByteArray) : CacheFile :=
  match String.fromUTF8? bytes with
  | none => .error ⟨.unicodeDecodeError, "'utf-8' codec can't decode bytes"⟩
  | some text => jsonLoads limits (universalNewlines text.toList)

/-- The value is what the file holds as its document. -/
def CacheFile.Stores (file : CacheFile) (doc : PyVal) : Prop :=
  ∃ data, file = .ok (.dict data) ∧ PyVal.get data "document" = some doc

/-- A file with these bytes is in the cache, at the path of the URL. -/
def HasFile (w : World) (url dir : String) (s : Session) (file : CacheFile) : Prop :=
  s.disk (getCachePath w url dir) = some file

/-- `_get_document` has the document at hand, or it has made its request. -/
def HadOrRequested (file : CacheFile) (use : DocumentUse) : Prop :=
  (∃ doc, use.answer = .ok doc ∧ (use.before.documentCache use.url = some doc ∨ file.Stores doc)) ∨
    use.after.requests = use.before.requests ++ [use.url]

/-- Whatever is done with a file of these bytes, it does no harm. -/
structure Harmless (limits : Json.Limits) (bytes : ByteArray) : Prop where
  /-- Reading it gives nothing or the stored document. -/
  read : ∀ w url dir ttl s, HasFile w url dir s (.ofBytes limits bytes) →
    ∃ v s', readFromCache w url dir ttl s = some (.ok v, s') ∧
      (v = .none ∨ CacheFile.Stores (.ofBytes limits bytes) v)
  /-- Otherwise the document is fetched. -/
  fallsBack : ∀ w url dir ttl s r s', HasFile w url dir s (.ofBytes limits bytes) →
    getDocument w url (some dir) ttl s = some (r, s') →
    HadOrRequested (.ofBytes limits bytes) ⟨url, s, r, s'⟩
  /-- No run fails on it. -/
  runs : ∀ w fuel spec dir ttl s,
    ∀ use ∈ (tracedResolveExternalRefs w fuel spec (some dir) ttl s).1,
      HasFile w use.url dir use.before (.ofBytes limits bytes) →
      HadOrRequested (.ofBytes limits bytes) use

/-- A number can be subtracted from the time. -/
def isTimestamp : PyVal → Bool
  | .bool _ | .float _ => true
  | .int i => i.natAbs < floatBound
  | _ => false

/-- The bytes are a text that is no JSON, or an object with a timestamp. -/
def MissOrEntry (limits : Json.Limits) (bytes : ByteArray) : Prop :=
  ∃ text, bytes = utf8 text ∧
    (Json.Refuses (Json.scan limits (universalNewlines text)) ∨
      ∃ members, Json.scan limits (universalNewlines text) = .ok (.obj members) ∧
        isTimestamp ((PyVal.get (dictOf (Json.toPyMembers members)) "timestamp").getD (.int 0)))

/-! ## Bytes -/

theorem fromUTF8?_utf8 (text : List Char) :
    String.fromUTF8? (utf8 text) = some (String.ofList text) := by
  have hvalid : (utf8 text).IsValidUTF8 := String.isValidUTF8 _
  rw [String.fromUTF8?, dif_pos hvalid]
  rfl

section
variable {limits : Json.Limits}

theorem CacheFile.ofBytes_utf8 (text : List Char) :
    CacheFile.ofBytes limits (utf8 text) = jsonLoads limits (universalNewlines text) := by
  rw [ofBytes, fromUTF8?_utf8]
  simp only [String.toList_ofList]

theorem CacheFile.ofBytes_cases (limits : Json.Limits) (bytes : ByteArray) :
    (∃ msg, ofBytes limits bytes = .error ⟨.unicodeDecodeError, msg⟩) ∨
      ∃ text, bytes = utf8 text := by
  cases htext : String.fromUTF8? bytes with
  | none => exact .inl ⟨_, by rw [ofBytes, htext]⟩
  | some text =>
    rw [String.fromUTF8?] at htext
    split at htext
    · rename_i hvalid
      exact .inr (exists_utf8 hvalid)
    · cases htext

end

/-! ## Reading -/

theorem isExpired_ok_iff {now : Rat} {timestamp : PyVal} {ttl : Int} :
    (∃ expired, isExpired now timestamp ttl = .ok expired) ↔ isTimestamp timestamp = true := by
  cases timestamp with
  | int i =>
    simp only [isExpired, isTimestamp, decide_eq_true_eq]
    split
    · rename_i hlt
      exact iff_of_true ⟨_, rfl⟩ hlt
    · rename_i hge
      refine iff_of_false ?_ hge
      rintro ⟨_, h⟩
      cases h
  | bool b => exact iff_of_true ⟨_, rfl⟩ rfl
  | float x => cases x <;> exact iff_of_true ⟨_, rfl⟩ rfl
  | _ =>
    refine iff_of_false ?_ Bool.false_ne_true
    rintro ⟨_, h⟩
    cases h

section
variable {w : World} {url dir : String} {ttl : Int} {s : Session} {file : CacheFile}

/-- The files that are read without an exception. -/
def CacheFile.Quiet (file : CacheFile) : Prop :=
  (∃ e, file = .error e ∧ (e.cls = .jsonDecodeError ∨ e.cls = .osError)) ∨
    ∃ data, file = .ok (.dict data) ∧
      isTimestamp ((PyVal.get data "timestamp").getD (.int 0)) = true

theorem CacheFile.Quiet.read (h : file.Quiet) (hfile : HasFile w url dir s file) (ttl : Int) :
    ∃ v s', readFromCache w url dir ttl s = some (.ok v, s') ∧ (v = .none ∨ file.Stores v) := by
  rcases h with ⟨e, rfl, he⟩ | ⟨data, rfl, htimestamp⟩
  · exact ⟨.none, s, readFromCache_caught he hfile, .inl rfl⟩
  · obtain ⟨expired, hexpired⟩ : ∃ expired, isExpired (w.time s.readings)
        ((PyVal.get data "timestamp").getD (.int 0)) ttl = .ok expired :=
      isExpired_ok_iff.mpr htimestamp
    refine ⟨if expired then .none else (PyVal.get data "document").getD .none,
      { s with readings := s.readings + 1 }, ?_, ?_⟩
    · unfold readFromCache
      simp only [Run.bind_apply, Run.session, show s.disk _ = _ from hfile, readClock, Run.update,
        Run.lift, Run.pure_apply, hexpired]
    · split
      · exact .inl rfl
      · cases hdoc : PyVal.get data "document" with
        | none => exact .inl rfl
        | some doc => exact .inr ⟨data, rfl, hdoc⟩

theorem CacheFile.quiet_of_read (hfile : HasFile w url dir s file) {v : PyVal} {s' : Session}
    (hread : readFromCache w url dir ttl s = some (.ok v, s')) : file.Quiet := by
  unfold readFromCache at hread
  simp only [Run.bind_apply, Run.session, show s.disk _ = _ from hfile] at hread
  rcases file with e | value
  · simp only at hread
    split at hread
    · rename_i he
      exact .inl ⟨e, rfl, he⟩
    · cases hread
  · cases value with
    | dict data =>
      simp only [Run.bind_apply, readClock, Run.session, Run.update, Run.lift,
        Run.pure_apply] at hread
      cases hexpired : isExpired (w.time s.readings)
        ((PyVal.get data "timestamp").getD (.int 0)) ttl with
      | ok expired => exact .inr ⟨data, rfl, isExpired_ok_iff.mp ⟨expired, hexpired⟩⟩
      | error e =>
        rw [hexpired] at hread
        cases hread
    | _ => cases hread

theorem CacheFile.Quiet.hadOrRequested (h : file.Quiet) (hfile : HasFile w url dir s file)
    {r : Except PyError PyVal} {s' : Session}
    (hget : getDocument w url (some dir) ttl s = some (r, s')) :
    HadOrRequested file ⟨url, s, r, s'⟩ := by
  obtain ⟨v, s₁, hread, hv⟩ := h.read hfile ttl
  obtain ⟨n, hclock⟩ := readFromCache_within w url dir ttl s _ s₁ hread
  obtain ⟨r', s'', hget', hcall⟩ := getDocument_call w url dir ttl s
  rw [hget] at hget'
  cases hget'
  cases hcall with
  | memory hmem => exact .inl ⟨_, rfl, .inl hmem⟩
  | broken _ hread' =>
    rw [hread] at hread'
    cases hread'
  | disk _ hread' hdoc =>
    rw [hread] at hread'
    cases hread'
    rcases hv with rfl | hstores
    · cases hdoc
    · exact .inl ⟨_, rfl, .inr hstores⟩
  | failed _ hread' =>
    rw [hread] at hread'
    cases hread'
    exact .inr (by rw [hclock]; rfl)
  | fetched _ hread' _ _ hwrite =>
    rw [hread] at hread'
    cases hread'
    exact .inr (hwrite.frame.requests.trans (by rw [hclock]; rfl))

end

/-! ## Contents that do no harm -/

section
variable {limits : Json.Limits} {bytes : ByteArray}

theorem jsonLoads_quiet_iff {text : List Char} : CacheFile.Quiet (jsonLoads limits text) ↔
    Json.Refuses (Json.scan limits text) ∨
      ∃ members, Json.scan limits text = .ok (.obj members) ∧
        isTimestamp
          ((PyVal.get (dictOf (Json.toPyMembers members)) "timestamp").getD (.int 0)) := by
  unfold jsonLoads
  cases hscan : Json.scan limits text with
  | error e =>
    refine ⟨?_, ?_⟩
    · rintro (⟨_, herror, he⟩ | ⟨data, herror, _⟩)
      · cases herror
        cases e with
        | malformed msg => exact .inl ⟨msg, rfl⟩
        | _ => rcases he with he | he <;> cases he
      · cases herror
    · rintro (⟨msg, hrefuses⟩ | ⟨members, hobj, _⟩)
      · cases hrefuses
        exact .inl ⟨_, rfl, .inl rfl⟩
      · cases hobj
  | ok v =>
    refine ⟨?_, ?_⟩
    · rintro (⟨_, herror, _⟩ | ⟨data, hdict, htimestamp⟩)
      · cases herror
      · cases v with
        | obj members =>
          cases hdict
          exact .inr ⟨members, rfl, htimestamp⟩
        | _ => cases hdict
    · rintro (⟨msg, hrefuses⟩ | ⟨members, hobj, htimestamp⟩)
      · cases hrefuses
      · cases hobj
        exact .inr ⟨_, rfl, htimestamp⟩

theorem quiet_iff : CacheFile.Quiet (.ofBytes limits bytes) ↔ MissOrEntry limits bytes := by
  refine ⟨fun h => ?_, ?_⟩
  · rcases CacheFile.ofBytes_cases limits bytes with ⟨msg, herror⟩ | ⟨text, rfl⟩
    · rw [herror] at h
      rcases h with ⟨_, h, he⟩ | ⟨_, h, _⟩ <;> cases h
      rcases he with he | he <;> cases he
    · rw [CacheFile.ofBytes_utf8] at h
      exact ⟨text, rfl, jsonLoads_quiet_iff.mp h⟩
  · rintro ⟨text, rfl, h⟩
    rw [CacheFile.ofBytes_utf8]
    exact jsonLoads_quiet_iff.mpr h

/-- A call in the record of a run is a call of `_get_document`. -/
theorem Consecutive.call {w : World} {dir : Option String} {ttl : Int} {s t : Session}
    {uses : List DocumentUse} (h : Consecutive w dir ttl s uses t) :
    ∀ use ∈ uses, getDocument w use.url dir ttl use.before = some (use.answer, use.after) := by
  induction h with
  | nil => exact fun _ h => nomatch h
  | cons hcall _ ih =>
    intro use huse
    rcases List.mem_cons.mp huse with rfl | huse
    · exact hcall
    · exact ih use huse

/-- A cache file does no harm exactly when it is a miss or an entry. -/
theorem harmless_iff_missOrEntry (limits : Json.Limits) (bytes : ByteArray) :
    Harmless limits bytes ↔ MissOrEntry limits bytes := by
  refine ⟨fun h => ?_, fun h => ?_⟩
  · let w : World :=
      { get := fun _ _ => .error ⟨.osError, ""⟩, time := fun _ => 0, sha256 := fun _ => "" }
    let s : Session := ⟨fun _ => none, fun _ => some (.ofBytes limits bytes), [], 0⟩
    obtain ⟨v, s', hread, _⟩ := h.read w "" "" 0 s rfl
    have hfile : HasFile w "" "" s (.ofBytes limits bytes) := rfl
    exact quiet_iff.mp (CacheFile.quiet_of_read hfile hread)
  · have hquiet : CacheFile.Quiet (.ofBytes limits bytes) := quiet_iff.mpr h
    refine ⟨fun w url dir ttl s hfile => hquiet.read hfile ttl,
      fun w url dir ttl s r s' hfile hget => hquiet.hadOrRequested hfile hget,
      fun w fuel spec dir ttl s use huse hfile => ?_⟩
    obtain ⟨t, hconsecutive, _⟩ := tracedResolveExternalRefs_consecutive fuel spec s
    exact hquiet.hadOrRequested hfile (hconsecutive.call use huse)

/-- Digits as CPython limits them, and a depth below its recursion limit. -/
def interpreterLimits : Json.Limits := ⟨4300, 900, 900, by decide, by decide⟩

/-- A list is no entry. -/
theorem list_not_harmless : ¬Harmless interpreterLimits (utf8 ['[', ']']) := by
  intro h
  let w : World :=
    { get := fun _ _ => .error ⟨.osError, ""⟩, time := fun _ => 0, sha256 := fun _ => "" }
  let s : Session := ⟨fun _ => none, fun _ => some (.ok (.list [])), [], 0⟩
  have hfile : HasFile w "" "" s (.ofBytes interpreterLimits (utf8 ['[', ']'])) := by
    rw [CacheFile.ofBytes_utf8]
    rfl
  obtain ⟨v, s', hread, _⟩ := h.read w "" "" 0 s hfile
  cases hread

end
end FastGeoApi
