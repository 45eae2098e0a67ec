import FastGeoApi.Lib.Interleaving
import FastGeoApi.Lib.JsonTrailing
import FastGeoApi.Resolver.CacheWriter
import FastGeoApi.Startup.OpenapiFile

/-!
# Processes that share the cache directory

Every worker of `app.main` resolves the references at its start, and all the workers use one cache
directory. Their file operations interleave in any order, and a process may stop for ever after any
of them. A text goes to the disk when the buffer of its file is full, or when the file is closed.
Where the texts fit in the buffer, whoever reads a cache file finds nothing or an entry that one of
the processes has written for this path: two calls of `_write_to_cache` that overlap leave a text
with the end of another one behind it at worst, and that is no JSON.
-/

namespace FastGeoApi
open Interleaving

/-- The contents of the cache files, by their paths. -/
abbrev CacheDisk := String → Option (List UInt8)

/-- A process writes a cache file, or it does not. -/
inductive CacheProcess where
  | resting
  | writing (path : String) (entry : CacheEntry) (written rest : List UInt8)

/-- The file operations of `_write_to_cache`. -/
inductive CacheOperation where
  | opens (path : String) (entry : CacheEntry)
  /-- This many bytes go to the disk, or the file is closed when all have gone. -/
  | proceeds (flushed : Nat)

def cacheStep (limits : Json.Limits) (disk : CacheDisk) :
    CacheOperation → CacheProcess → Option (CacheDisk × CacheProcess)
  | .opens path entry, .resting =>
    some (Function.update disk path (some []), .writing path entry [] (entry.bytes limits))
  | .proceeds _, .writing _ _ _ [] => some (disk, .resting)
  | .proceeds flushed, .writing path entry written (byte :: rest) =>
    let bytes := (byte :: rest).take flushed
    some (Function.update disk path (some (writeAt ((disk path).getD []) written.length bytes)),
      .writing path entry (written ++ bytes) ((byte :: rest).drop flushed))
  | _, _ => none

section
variable (limits : Json.Limits) (buffer : Nat) (writes : String → CacheEntry → Prop)

/-- A process writes the entries that it may write, and a part of a text goes to the disk only when
that fills the buffer. -/
def CacheOperation.Allowed (process : CacheProcess) : CacheOperation → Prop
  | .opens path entry => writes path entry
  | .proceeds flushed => ∀ path entry written rest,
      process = .writing path entry written rest → rest.length ≤ flushed ∨ buffer ≤ flushed

def CacheProcess.Moves (_ : Nat) (before after : CacheDisk × CacheProcess) : Prop :=
  ∃ operation, cacheStep limits before.1 operation before.2 = some after ∧
    operation.Allowed buffer writes before.2

/-- Any number of processes and their files. -/
abbrev CacheProcesses := State Nat CacheDisk CacheProcess

/-- No process writes, and the cache directory is empty. -/
def CacheProcesses.start : CacheProcesses where
  shared _ := none
  locals _ := .resting

def CacheProcesses.Reach (s : CacheProcesses) : Prop :=
  Reaches (CacheProcess.Moves limits buffer writes) (fun _ _ => True) CacheProcesses.start s

/-- The entries are printed without an exception, and fit in the buffer. -/
def Buffered : Prop := ∀ path entry, writes path entry →
  (entry.output limits).error = none ∧ (entry.bytes limits).length ≤ buffer

end

/-! ## Contents -/

/-- The bytes of an ASCII text that ends with the bracket of an object. -/
def Tail (tail : List UInt8) : Prop :=
  ∃ text, tail = (utf8 text).data.toList ∧ Json.Ascii text ∧
    (text = [] ∨ ∃ cs, text = cs ++ ['\x7d'])

/-- A file that is empty, or an entry with something behind it. -/
def Overlaid (limits : Json.Limits) (writes : String → CacheEntry → Prop) (path : String)
    (content : List UInt8) : Prop :=
  content = [] ∨ ∃ entry tail, writes path entry ∧ Tail tail ∧ content = entry.bytes limits ++ tail

section
variable {limits : Json.Limits} {buffer : Nat} {writes : String → CacheEntry → Prop}
  {entry : CacheEntry} {path : String} {content : List UInt8}

theorem Tail.nil : Tail [] := ⟨[], rfl, fun _ h => (nomatch h), .inl rfl⟩

theorem CacheEntry.bytes_eq (entry : CacheEntry) (limits : Json.Limits) :
    entry.bytes limits = (entry.output limits).text.map fun c => c.val.toUInt8 :=
  bytes_of_ascii (entry.ascii_output limits)

theorem CacheEntry.bytes_tail (h : (entry.output limits).error = none) :
    Tail (entry.bytes limits) :=
  ⟨_, rfl, entry.ascii_output limits, .inr (Json.print_obj_ends h)⟩

theorem Tail.append {tail tail' : List UInt8} (h : Tail tail) (h' : Tail tail') :
    Tail (tail ++ tail') := by
  obtain ⟨text, rfl, hascii, hends⟩ := h
  obtain ⟨text', rfl, hascii', hends'⟩ := h'
  have hall := hascii.append hascii'
  refine ⟨text ++ text', ?_, hall, ?_⟩
  · rw [bytes_of_ascii hascii, bytes_of_ascii hascii', bytes_of_ascii hall, List.map_append]
  · rcases hends' with rfl | ⟨cs, rfl⟩
    · rw [List.append_nil]
      exact hends
    · exact .inr ⟨text ++ cs, (List.append_assoc ..).symm⟩

/-- The end of a text ends as the text does. -/
theorem Tail.drop {tail : List UInt8} (h : Tail tail) (n : Nat) : Tail (tail.drop n) := by
  obtain ⟨text, rfl, hascii, hends⟩ := h
  have hdrop : Json.Ascii (text.drop n) := fun c hc => hascii c (List.mem_of_mem_drop hc)
  refine ⟨text.drop n, ?_, hdrop, ?_⟩
  · rw [bytes_of_ascii hascii, bytes_of_ascii hdrop, List.map_drop]
  · rcases hends with rfl | ⟨cs, rfl⟩
    · exact .inl List.drop_nil
    · by_cases hn : n ≤ cs.length
      · exact .inr ⟨cs.drop n, List.drop_append_of_le_length hn⟩
      · refine .inl (List.drop_eq_nil_of_le ?_)
        rw [List.length_append, List.length_singleton]
        omega

theorem Overlaid.tail (h : Overlaid limits writes path content)
    (hbuffered : Buffered limits buffer writes) : Tail content := by
  rcases h with rfl | ⟨entry, tail, hwrites, htail, rfl⟩
  · exact .nil
  · exact (CacheEntry.bytes_tail (hbuffered path entry hwrites).1).append htail

/-- A text that is written at the beginning of a file has the end of the old content behind it. -/
theorem Overlaid.write (h : Overlaid limits writes path content)
    (hbuffered : Buffered limits buffer writes) (hwrites : writes path entry) :
    Overlaid limits writes path (writeAt content 0 (entry.bytes limits)) := by
  refine .inr ⟨entry, content.drop (entry.bytes limits).length, hwrites,
    (h.tail hbuffered).drop _, ?_⟩
  simp [writeAt]

/-- Behind the text of an entry no other text makes JSON. -/
theorem missed_of_tail (herror : (entry.output limits).error = none) {tail : List UInt8}
    (h : Tail tail) (hne : tail ≠ []) : Missed limits (entry.bytes limits ++ tail) := by
  obtain ⟨text, rfl, hascii, rfl | ⟨cs, rfl⟩⟩ := h
  · exact absurd rfl hne
  have hall := (entry.ascii_output limits).append hascii
  have hskip : Json.skipWs (cs ++ ['\x7d']) ≠ [] := by
    intro hnil
    have hblank := List.dropWhile_eq_nil_iff.mp hnil '\x7d' (by simp)
    exact absurd hblank (by decide)
  obtain ⟨msg, hscan⟩ := Json.refuses_trailing entry.native_members herror hskip
  have hcontent : entry.bytes limits ++ (utf8 (cs ++ ['\x7d'])).data.toList =
      (utf8 ((entry.output limits).text ++ (cs ++ ['\x7d']))).data.toList := by
    simp only [entry.bytes_eq limits, bytes_of_ascii hascii, bytes_of_ascii hall, List.map_append]
  intro w url dir ttl s hfile
  rw [HasFile, hcontent, ofBytes_content, CacheFile.ofBytes_utf8, universalNewlines_of_ascii hall,
    jsonLoads, CacheEntry.output, hscan] at hfile
  exact readFromCache_truncated hfile

theorem missed_empty (limits : Json.Limits) : Missed limits [] := by
  obtain ⟨msg, hscan⟩ : Json.Refuses (Json.scan limits []) := by
    obtain ⟨msg, hscan⟩ : Json.Refuses (Json.scanOnce limits.digits limits.scanDepth []) :=
      Json.refuses_scanOnce_nil
    refine ⟨msg, ?_⟩
    rw [Json.scan, if_neg (by simp), show Json.skipWs [] = [] from rfl, hscan]
    rfl
  intro w url dir ttl s hfile
  rw [HasFile, show (⟨[].toArray⟩ : ByteArray) = utf8 [] from rfl, CacheFile.ofBytes_utf8,
    show universalNewlines [] = [] from rfl, jsonLoads, hscan] at hfile
  exact readFromCache_truncated hfile

theorem Overlaid.missed_or_whole (h : Overlaid limits writes path content)
    (hbuffered : Buffered limits buffer writes) :
    Missed limits content ∨ ∃ entry, writes path entry ∧ entry.Whole limits content := by
  rcases h with rfl | ⟨entry, tail, hwrites, htail, rfl⟩
  · exact .inl (missed_empty limits)
  · have herror := (hbuffered path entry hwrites).1
    by_cases hne : tail = []
    · subst hne
      exact .inr ⟨entry, hwrites, List.append_nil _, herror⟩
    · exact .inl (missed_of_tail herror htail hne)

end

/-! ## The invariant -/

/-- A process that writes has written nothing of its text, or all of it. -/
inductive CacheProcess.Whole (limits : Json.Limits) (writes : String → CacheEntry → Prop) :
    CacheProcess → Prop where
  | resting : Whole limits writes .resting
  | opened (h : writes path entry) :
    Whole limits writes (.writing path entry [] (entry.bytes limits))
  | written (h : writes path entry) :
    Whole limits writes (.writing path entry (entry.bytes limits) [])

/-- All the files are empty or overlaid, and all the processes between whole texts. -/
structure CacheProcesses.Sound (limits : Json.Limits) (writes : String → CacheEntry → Prop)
    (s : CacheProcesses) : Prop where
  files : ∀ path content, s.shared path = some content → Overlaid limits writes path content
  processes : ∀ i, (s.locals i).Whole limits writes

section
variable {limits : Json.Limits} {buffer : Nat} {writes : String → CacheEntry → Prop}

theorem bytes_ne_nil {entry : CacheEntry} (herror : (entry.output limits).error = none) :
    entry.bytes limits ≠ [] := by
  obtain ⟨cs, hcs⟩ := Json.print_obj_ends herror
  rw [entry.bytes_eq limits, CacheEntry.output, hcs]
  simp

theorem CacheProcesses.Sound.step {s : CacheProcesses} {i : Nat} {disk : CacheDisk}
    {process : CacheProcess} (h : CacheProcesses.Sound limits writes s)
    (hbuffered : Buffered limits buffer writes)
    (hmove : CacheProcess.Moves limits buffer writes i (s.shared, s.locals i) (disk, process)) :
    CacheProcesses.Sound limits writes (s.moved i disk process) := by
  obtain ⟨operation, hstep, hoperation⟩ := hmove
  have hprocesses : process.Whole limits writes →
      ∀ j, ((s.moved i disk process).locals j).Whole limits writes := fun hself =>
    forall_moved (P := fun _ p => CacheProcess.Whole limits writes p) hself
      fun j _ => h.processes j
  have hfile : ∀ path content, Overlaid limits writes path content →
      ∀ other content', Function.update s.shared path (some content) other = some content' →
        Overlaid limits writes other content' := by
    intro path content hcontent other content' hother
    by_cases heq : other = path
    · subst heq
      rw [Function.update_self, Option.some.injEq] at hother
      exact hother ▸ hcontent
    · rw [Function.update_of_ne heq] at hother
      exact h.files other content' hother
  have hlocal := h.processes i
  simp only at hstep hoperation
  generalize s.locals i = before at hstep hoperation hlocal
  cases hlocal with
  | resting =>
    cases operation with
    | opens path entry =>
      cases hstep
      exact ⟨hfile path [] (.inl rfl), hprocesses (.opened hoperation)⟩
    | proceeds flushed => cases hstep
  | @opened path entry hwrites =>
    cases operation with
    | opens => cases hstep
    | proceeds flushed =>
      obtain ⟨herror, hfits⟩ := hbuffered path entry hwrites
      have hall : (entry.bytes limits).length ≤ flushed := by
        rcases hoperation _ _ _ _ rfl with hall | hfull
        · exact hall
        · exact Nat.le_trans hfits hfull
      obtain ⟨byte, rest, hbytes⟩ := List.exists_cons_of_ne_nil (bytes_ne_nil herror)
      rw [hbytes] at hall
      simp only [hbytes, cacheStep, List.take_of_length_le hall, List.drop_of_length_le hall,
        List.nil_append, List.length_nil, Option.some.injEq, Prod.mk.injEq] at hstep
      rw [← hbytes] at hstep
      obtain ⟨rfl, rfl⟩ := hstep
      refine ⟨hfile path _ ?_, hprocesses (.written hwrites)⟩
      refine Overlaid.write ?_ hbuffered hwrites
      cases hold : s.shared path with
      | none => exact .inl rfl
      | some content => exact h.files path content hold
  | written hwrites =>
    cases operation with
    | opens => cases hstep
    | proceeds flushed =>
      cases hstep
      exact ⟨h.files, hprocesses .resting⟩

theorem CacheProcesses.Sound.start :
    CacheProcesses.Sound limits writes CacheProcesses.start :=
  ⟨fun _ _ h => (nomatch h), fun _ => .resting⟩

end

/-- Whatever the processes do, in whatever order, a cache file is one that nobody takes for an
entry, or the whole of an entry that one of them may write there. -/
theorem shared_cache_missed_or_whole (limits : Json.Limits) (buffer : Nat)
    (writes : String → CacheEntry → Prop) (hbuffered : Buffered limits buffer writes)
    (s : CacheProcesses) (hreach : CacheProcesses.Reach limits buffer writes s) (path : String)
    (content : List UInt8) (hfile : s.shared path = some content) :
    Missed limits content ∨ ∃ entry, writes path entry ∧ entry.Whole limits content := by
  have hsound : CacheProcesses.Sound limits writes s := Reaches.invariant
    (fun _ _ _ _ hs _ hmove => hs.step hbuffered hmove) hreach .start
  exact (hsound.files path content hfile).missed_or_whole hbuffered

/-- An entry that is stamped with the time 5.0. -/
def pointEntry : CacheEntry where
  timestamp := .number ⟨false, ['5'], ['0'], []⟩
  url := CacheEntry.key "https://example.com/point.yaml"
  document := .obj [(CacheEntry.key "type", .str (CacheEntry.key "Point"))]
  timestamp_native := by
    have hwhole : Json.WholeDigits ['5'] := .inr ⟨by decide, by decide, by simp⟩
    exact .number ⟨⟨hwhole, by simp, .inl rfl⟩, by decide, by decide⟩
  document_native := .obj fun m hm => by
    obtain rfl := List.mem_singleton.mp hm
    exact .str _

def pointPath : String := "/cache/0123456789abcdef.json"

def pointWrites (path : String) (entry : CacheEntry) : Prop :=
  path = pointPath ∧ entry = pointEntry

theorem pointWrites_buffered : Buffered interpreterLimits 8192 pointWrites := by
  rintro _ _ ⟨_, rfl⟩
  rw [pointEntry.bytes_eq, List.length_map]
  decide +kernel

theorem CacheProcesses.Reach.next {limits : Json.Limits} {buffer : Nat}
    {writes : String → CacheEntry → Prop} {s : CacheProcesses} {p : CacheDisk × CacheProcess}
    (h : CacheProcesses.Reach limits buffer writes s) (i : Nat) (operation : CacheOperation)
    (hstep : cacheStep limits s.shared operation (s.locals i) = some p)
    (hoperation : operation.Allowed buffer writes (s.locals i)) :
    CacheProcesses.Reach limits buffer writes (s.moved i p.1 p.2) :=
  Reaches.next h trivial ⟨operation, hstep, hoperation⟩

/-- A process that has opened the file for the entry. -/
def pointOpened : CacheProcess :=
  .writing pointPath pointEntry [] (pointEntry.bytes interpreterLimits)

def pointDisk (content : List UInt8) : CacheDisk :=
  Function.update (fun _ => none) pointPath (some content)

/-- Two processes have opened the file. -/
def pointBoth : CacheProcesses :=
  (CacheProcesses.start.moved 0 (pointDisk []) pointOpened).moved 1
    (Function.update (pointDisk []) pointPath (some [])) pointOpened

theorem pointBoth_reached :
    CacheProcesses.Reach interpreterLimits 8192 pointWrites pointBoth := by
  have hstart : CacheProcesses.Reach interpreterLimits 8192 pointWrites CacheProcesses.start :=
    .refl
  have hfirst := hstart.next 0 (.opens pointPath pointEntry) rfl ⟨rfl, rfl⟩
  exact hfirst.next 1 (.opens pointPath pointEntry) rfl ⟨rfl, rfl⟩

/-- The text of one of them has gone to the disk. -/
theorem pointBoth_missed_or_whole :
    Missed interpreterLimits (writeAt [] 0 ((pointEntry.bytes interpreterLimits).take 8192)) ∨
      ∃ entry, pointWrites pointPath entry ∧ entry.Whole interpreterLimits
        (writeAt [] 0 ((pointEntry.bytes interpreterLimits).take 8192)) := by
  obtain ⟨byte, rest, hbytes⟩ :=
    List.exists_cons_of_ne_nil (bytes_ne_nil (pointWrites_buffered _ _ ⟨rfl, rfl⟩).1)
  have hlocal : pointBoth.locals 0 = .writing pointPath pointEntry [] (byte :: rest) := by
    rw [← hbytes]
    rfl
  have hshared : pointBoth.shared pointPath = some [] := by
    rw [pointBoth, moved_shared]
    exact Function.update_self pointPath (some []) (pointDisk [])
  have hstep : cacheStep interpreterLimits pointBoth.shared (.proceeds 8192) (pointBoth.locals 0) =
      some (Function.update pointBoth.shared pointPath
          (some (writeAt [] 0 ((byte :: rest).take 8192))),
        .writing pointPath pointEntry ((byte :: rest).take 8192) ((byte :: rest).drop 8192)) := by
    rw [hlocal, cacheStep, hshared]
    rfl
  have hflushed := pointBoth_reached.next 0 (.proceeds 8192) hstep
    fun _ _ _ _ _ => .inr (Nat.le_refl _)
  rw [hbytes]
  refine shared_cache_missed_or_whole interpreterLimits 8192 pointWrites pointWrites_buffered _
    hflushed pointPath _ ?_
  rw [moved_shared]
  exact Function.update_self pointPath (some _) pointBoth.shared

end FastGeoApi
