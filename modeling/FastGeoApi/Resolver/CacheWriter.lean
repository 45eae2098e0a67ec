import FastGeoApi.Lib.JsonRoundTrip
import FastGeoApi.Python.Bytes
import FastGeoApi.Resolver.CacheFiles

/-!
# Writing a cache file

`_write_to_cache`, one file operation after the other. The file is truncated when it is opened, and
the text goes to the disk in pieces, from its beginning. A call may be cut off after any operation:
it is killed there, or there is no more room on the disk. What is then in the file is no JSON.
-/

namespace FastGeoApi

/-- What goes into a cache file: a document with a time and a URL. -/
structure CacheEntry where
  timestamp : Json.Literal
  url : Json.Text
  document : Json.Value
  timestamp_native : Json.Native (.float timestamp)
  document_native : Json.Native document

/-- Where a call of `_write_to_cache` is. -/
inductive WriterState where
  | start
  /-- The file is open. The first bytes of the text are on the disk, the rest is not. -/
  | writing (written rest : List UInt8)
  | returned
  | failed (e : Json.Error)

namespace CacheEntry

def key (s : String) : Json.Text := s.toList.map fun c => Json.codePoint c.toNat

/-- `cached_data`. -/
def members (entry : CacheEntry) : List (Json.Text × Json.Value) :=
  [(key "timestamp", .float entry.timestamp), (key "url", .str entry.url),
    (key "document", entry.document)]

/-- `json.dump(cached_data, f)`. -/
def output (entry : CacheEntry) (limits : Json.Limits) : Json.Output :=
  Json.print limits.digits (.obj entry.members) limits.printDepth

def bytes (entry : CacheEntry) (limits : Json.Limits) : List UInt8 :=
  (utf8 (entry.output limits).text).data.toList

/-- The next operation of `_write_to_cache`, with the number of bytes that go to the disk when some
do. `none` when the call has come to an end. -/
def writerStep (entry : CacheEntry) (limits : Json.Limits) (flushed : Nat)
    (file : Option (List UInt8)) : WriterState → Option (Option (List UInt8) × WriterState)
  | .start => some (some [], .writing [] (entry.bytes limits))
  -- the file is closed when everything is written, also when an exception is raised
  | .writing _ [] =>
    match (entry.output limits).error with
    | none => some (file, .returned)
    | some e => some (file, .failed e)
  | .writing written (byte :: rest) =>
    let flush := (byte :: rest).take flushed
    some (some (written ++ flush), .writing (written ++ flush) ((byte :: rest).drop flushed))
  | .returned | .failed _ => none

/-- The operations of a call until it ends or is cut off: it lives to make one for each number. -/
def writerOperations (entry : CacheEntry) (limits : Json.Limits) :
    List Nat → Option (List UInt8) → WriterState → Option (List UInt8) × WriterState
  | [], file, state => (file, state)
  | flushed :: operations, file, state =>
    match entry.writerStep limits flushed file state with
    | none => (file, state)
    | some (file', state') => writerOperations entry limits operations file' state'

/-- The content is a proper beginning of the text: of what is printed, or of what an exception kept
from being printed. -/
def Cut (entry : CacheEntry) (limits : Json.Limits) (content : List UInt8) : Prop :=
  content <+: entry.bytes limits ∧
    (content = entry.bytes limits → (entry.output limits).error ≠ none)

/-- The content is the whole text. -/
def Whole (entry : CacheEntry) (limits : Json.Limits) (content : List UInt8) : Prop :=
  content = entry.bytes limits ∧ (entry.output limits).error = none

end CacheEntry

/-- Whoever reads a file of this content finds nothing. -/
def Missed (limits : Json.Limits) (content : List UInt8) : Prop :=
  ∀ w url dir ttl s, HasFile w url dir s (.ofBytes limits ⟨content.toArray⟩) →
    readFromCache w url dir ttl s = some (.ok .none, s)

/-! ## ASCII texts -/

theorem bytes_of_ascii {text : List Char} (h : Json.Ascii text) :
    (utf8 text).data.toList = text.map fun c => c.val.toUInt8 := by
  rw [utf8, data_toByteArray, String.toList_ofList]
  induction text with
  | nil => rfl
  | cons c text ih =>
    have hc : c.val.toNat < 128 := (h c List.mem_cons_self).2
    rw [List.flatMap_cons, List.map_cons, ih fun d hd => h d (List.mem_cons_of_mem c hd)]
    rcases utf8EncodeChar_cases c with ⟨_, hencode⟩ | ⟨hge, _⟩
    · rw [hencode, List.singleton_append]
    · omega

/-- A beginning of the bytes is the bytes of a beginning. -/
theorem exists_text_of_bytes {text : List Char} (h : Json.Ascii text) {content : List UInt8}
    (hcontent : content <+: (utf8 text).data.toList) :
    ∃ p, p <+: text ∧ content = (utf8 p).data.toList := by
  rw [bytes_of_ascii h] at hcontent
  obtain ⟨p, hp, rfl⟩ := List.prefix_map_iff.mp hcontent
  exact ⟨p, hp, (bytes_of_ascii fun c hc => h c (hp.subset hc)).symm⟩

theorem ofBytes_content {text : List Char} :
    (⟨(utf8 text).data.toList.toArray⟩ : ByteArray) = utf8 text := by
  rw [Array.toArray_toList]

theorem universalNewlines_of_ascii {text : List Char} (h : Json.Ascii text) :
    universalNewlines text = text := by
  induction text with
  | nil => rfl
  | cons c text ih =>
    have hc : c ≠ '\r' := by
      rintro rfl
      exact absurd (h _ List.mem_cons_self) (by decide)
    have htext := ih fun d hd => h d (List.mem_cons_of_mem c hd)
    rw [universalNewlines, htext, if_neg hc]
    rintro _ rfl
    exact absurd rfl hc

namespace CacheEntry

variable {entry : CacheEntry} {limits : Json.Limits}

theorem native_members (entry : CacheEntry) : ∀ m ∈ entry.members, Json.Native m.2 := by
  simp only [members, List.forall_mem_cons]
  exact ⟨entry.timestamp_native, .str _, entry.document_native, fun _ h => nomatch h⟩

theorem ascii_output (entry : CacheEntry) (limits : Json.Limits) :
    Json.Ascii (entry.output limits).text :=
  Json.ascii_print (.obj entry.native_members)

/-! ## A file that was cut off -/

theorem Cut.refuses {content : List UInt8} (h : entry.Cut limits content) :
    ∃ msg, CacheFile.ofBytes limits ⟨content.toArray⟩ = .error ⟨.jsonDecodeError, msg⟩ := by
  obtain ⟨hbytes, hwhole⟩ := h
  have hascii := entry.ascii_output limits
  obtain ⟨p, hp, rfl⟩ := exists_text_of_bytes hascii hbytes
  have hcut : (entry.output limits).Cut p :=
    ⟨hp, fun heq => hwhole (congrArg (fun text => (utf8 text).data.toList) heq)⟩
  obtain ⟨msg, hscan⟩ := Json.refuses_cut entry.native_members hcut
  refine ⟨msg, ?_⟩
  rw [ofBytes_content, CacheFile.ofBytes_utf8,
    universalNewlines_of_ascii fun c hc => hascii c (hp.subset hc), jsonLoads, hscan]
  rfl

theorem Cut.missed {content : List UInt8} (h : entry.Cut limits content) :
    Missed limits content := by
  obtain ⟨msg, hrefuses⟩ := h.refuses
  intro w url dir ttl s hfile
  rw [hrefuses] at hfile
  exact readFromCache_truncated hfile

/-! ## A file that is complete -/

theorem toPy_joined (entry : CacheEntry) :
    (Json.Value.obj entry.members).joined.toPy =
      .dict [(.str "timestamp", .float entry.timestamp.toFloat),
        (.str "url", .str (Json.Text.toStr (Json.joinSurrogates entry.url))),
        (.str "document", entry.document.joined.toPy)] := by
  have hkeys : Json.Text.toStr (Json.joinSurrogates (key "timestamp")) = "timestamp" ∧
      Json.Text.toStr (Json.joinSurrogates (key "url")) = "url" ∧
      Json.Text.toStr (Json.joinSurrogates (key "document")) = "document" := by
    refine ⟨by rfl, by rfl, by rfl⟩
  simp only [members, Json.Value.joined, Json.joinedMembers, Json.Value.toPy, Json.toPyMembers,
    hkeys]
  rfl

/-- A complete file is an entry with what JSON keeps of the document. -/
theorem Whole.ofBytes {content : List UInt8} (h : entry.Whole limits content) :
    CacheFile.ofBytes limits ⟨content.toArray⟩ =
      .ok (.dict [(.str "timestamp", .float entry.timestamp.toFloat),
        (.str "url", .str (Json.Text.toStr (Json.joinSurrogates entry.url))),
        (.str "document", entry.document.joined.toPy)]) := by
  obtain ⟨rfl, herror⟩ := h
  have hscan := Json.scan_print (.obj entry.native_members) herror
  rw [bytes, ofBytes_content, CacheFile.ofBytes_utf8,
    universalNewlines_of_ascii (entry.ascii_output limits), jsonLoads, output, hscan, ← toPy_joined]

/-! ## The operations of a call -/

/-- What is on the disk in each state of a call: before it has begun, the old file. -/
def OnDisk (entry : CacheEntry) (limits : Json.Limits) (old file : Option (List UInt8)) :
    WriterState → Prop
  | .start => file = old
  | .writing written rest => file = some written ∧ written ++ rest = entry.bytes limits
  | .returned => file = some (entry.bytes limits) ∧ (entry.output limits).error = none
  | .failed e => file = some (entry.bytes limits) ∧ (entry.output limits).error = some e

theorem OnDisk.step {old file file' : Option (List UInt8)} {state state' : WriterState}
    {flushed : Nat} (h : OnDisk entry limits old file state)
    (hstep : entry.writerStep limits flushed file state = some (file', state')) :
    OnDisk entry limits old file' state' ∧ state' ≠ .start := by
  cases state with
  | start =>
    cases hstep
    exact ⟨⟨rfl, rfl⟩, fun h => nomatch h⟩
  | writing written rest =>
    obtain ⟨rfl, hbytes⟩ := h
    cases rest with
    | nil =>
      rw [List.append_nil] at hbytes
      subst hbytes
      rw [writerStep] at hstep
      split at hstep
      · rename_i herror
        cases hstep
        exact ⟨⟨rfl, herror⟩, fun h => nomatch h⟩
      · rename_i e herror
        cases hstep
        exact ⟨⟨rfl, herror⟩, fun h => nomatch h⟩
    | cons byte rest =>
      cases hstep
      refine ⟨⟨rfl, ?_⟩, fun h => nomatch h⟩
      rw [List.append_assoc, List.take_append_drop, hbytes]
  | returned => cases hstep
  | failed e => cases hstep

theorem OnDisk.run {old : Option (List UInt8)} (operations : List Nat)
    {file : Option (List UInt8)} {state : WriterState} (h : OnDisk entry limits old file state) :
    OnDisk entry limits old (entry.writerOperations limits operations file state).1
      (entry.writerOperations limits operations file state).2 := by
  induction operations generalizing file state with
  | nil => exact h
  | cons flushed operations ih =>
    rw [writerOperations]
    cases hstep : entry.writerStep limits flushed file state with
    | none => exact h
    | some next => exact ih (h.step hstep).1

/-- An open file holds a part of the text. -/
theorem OnDisk.cut_or_whole {old file : Option (List UInt8)} {state : WriterState}
    (h : OnDisk entry limits old file state) (hopen : state ≠ .start) :
    ∃ content, file = some content ∧ (entry.Cut limits content ∨ entry.Whole limits content) := by
  have hend : entry.Cut limits (entry.bytes limits) ∨ entry.Whole limits (entry.bytes limits) := by
    cases herror : (entry.output limits).error with
    | none => exact .inr ⟨rfl, herror⟩
    | some e => exact .inl ⟨List.prefix_rfl, fun _ hnone => nomatch hnone.symm.trans herror⟩
  cases state with
  | start => exact absurd rfl hopen
  | writing written rest =>
    obtain ⟨rfl, hbytes⟩ := h
    refine ⟨written, rfl, ?_⟩
    by_cases hrest : rest = []
    · rw [hrest, List.append_nil] at hbytes
      exact hbytes ▸ hend
    · refine .inl ⟨⟨rest, hbytes⟩, fun hwhole => absurd ?_ hrest⟩
      rw [← hbytes] at hwhole
      exact List.self_eq_append_right.mp hwhole
  | returned =>
    obtain ⟨rfl, herror⟩ := h
    exact ⟨_, rfl, .inr ⟨rfl, herror⟩⟩
  | failed e => exact ⟨_, h.1, hend⟩

end CacheEntry

/-- Wherever `_write_to_cache` is cut off, nobody takes what it leaves for an entry. -/
theorem interrupted_write_missed (limits : Json.Limits) (entry : CacheEntry) :
    (∀ content, entry.Cut limits content → Missed limits content) ∧
      ∀ old operations,
        let call := entry.writerOperations limits operations old .start
        (call.2 = .start → call.1 = old) ∧
          (call.2 ≠ .start → ∃ content, call.1 = some content ∧
            (entry.Cut limits content ∨ entry.Whole limits content)) := by
  refine ⟨fun content h => h.missed, fun old operations => ?_⟩
  intro call
  have hcall : CacheEntry.OnDisk entry limits old call.1 call.2 :=
    CacheEntry.OnDisk.run operations (show CacheEntry.OnDisk entry limits old old .start from rfl)
  refine ⟨fun hstart => ?_, fun hopen => hcall.cut_or_whole hopen⟩
  rw [hstart] at hcall
  exact hcall

end FastGeoApi
