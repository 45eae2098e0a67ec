import FastGeoApi.Lib.Json
import Mathlib.Data.List.Forall2

/-!
# What the scanner makes of a printed text

A printed value is read back, and a printed container that is cut off is refused: the scanner is at
the end of the text, or at a number that is not followed by what it expects.
-/

namespace FastGeoApi.Json

/-! ## Outputs -/

theorem Output.andThen_of_none {a b : Output} (h : a.error = none) :
    a.andThen b = ⟨a.text ++ b.text, b.error⟩ := by
  rw [Output.andThen, h]

theorem Output.andThen_of_some {a b : Output} {e : Error} (h : a.error = some e) :
    a.andThen b = a := by
  rw [Output.andThen, h]

theorem Output.andThen_text {a b : Output} (h : a.error = none) :
    (a.andThen b).text = a.text ++ b.text := by
  rw [andThen_of_none h]

theorem Output.andThen_error {a b : Output} :
    (a.andThen b).error = none ↔ a.error = none ∧ b.error = none := by
  cases h : a.error with
  | none => rw [andThen_of_none h, and_iff_right rfl]
  | some e => simp [andThen_of_some h, h]

theorem prefix_append_cases {p a b : List α} (h : p <+: a ++ b) :
    (p <+: a ∧ p ≠ a) ∨ ∃ q, p = a ++ q ∧ q <+: b := by
  rcases List.prefix_or_prefix_of_prefix h (List.prefix_append a b) with hp | ⟨q, rfl⟩
  · by_cases heq : p = a
    · exact .inr ⟨[], by rw [heq, List.append_nil], List.nil_prefix⟩
    · exact .inl ⟨hp, heq⟩
  · exact .inr ⟨q, rfl, (List.prefix_append_right_inj a).mp h⟩

/-- The text was cut off, inside of it or by the error that ended it. -/
def Output.Cut (out : Output) (p : List Char) : Prop :=
  p <+: out.text ∧ (p = out.text → out.error ≠ none)

theorem Output.Cut.andThen {a b : Output} {p : List Char} (h : (a.andThen b).Cut p) :
    a.Cut p ∨ a.error = none ∧ ∃ q, p = a.text ++ q ∧ b.Cut q := by
  obtain ⟨hpre, herror⟩ := h
  cases ha : a.error with
  | some e =>
    rw [andThen_of_some ha] at hpre herror
    exact .inl ⟨hpre, herror⟩
  | none =>
    rw [andThen_of_none ha] at hpre herror
    rcases prefix_append_cases hpre with ⟨hp, hne⟩ | ⟨q, rfl, hq⟩
    · exact .inl ⟨hp, fun heq => absurd heq hne⟩
    · exact .inr ⟨rfl, q, rfl, hq, fun heq => herror (congrArg (a.text ++ ·) heq)⟩

/-! ## Fuel -/

/-- What is left is shorter than `n`, and the fuel is not used up. -/
structure Shortens (n : Nat) (r : Except Error (α × List Char)) : Prop where
  lt : ∀ {a rest}, r = .ok (a, rest) → rest.length < n
  unstuck : r ≠ .error .stuck

/-- Something is taken off every text. -/
def Consumes (scan : List Char → Except Error (α × List Char)) : Prop :=
  ∀ cs, Shortens cs.length (scan cs)

section
variable {n m : Nat}

theorem Shortens.ok {a : α} {rest : List Char} (h : rest.length < n) :
    Shortens n (.ok (a, rest)) := by
  refine ⟨fun heq => ?_, fun heq => nomatch heq⟩
  cases heq
  exact h

theorem Shortens.error {e : Error} (h : e ≠ .stuck) :
    Shortens n (.error e : Except Error (α × List Char)) :=
  ⟨fun heq => (nomatch heq), fun heq => h (Except.error.inj heq)⟩

theorem Shortens.bind {x : Except Error (α × List Char)}
    {f : α × List Char → Except Error (β × List Char)} (hx : Shortens n x)
    (hf : ∀ a rest, rest.length < n → Shortens m (f (a, rest))) : Shortens m (x >>= f) := by
  cases x with
  | error e => exact .error fun h => hx.unstuck (congrArg _ h)
  | ok p => exact hf p.1 p.2 (hx.lt rfl)

theorem Shortens.mono {r : Except Error (α × List Char)} (h : Shortens n r) (hle : n ≤ m) :
    Shortens m r :=
  ⟨fun heq => Nat.lt_of_lt_of_le (h.lt heq) hle, h.unstuck⟩

end

theorem length_skipWs_le (cs : List Char) : (skipWs cs).length ≤ cs.length :=
  (List.dropWhile_suffix _).length_le

theorem scanUnits_consumes : Consumes scanUnits := by
  intro cs
  fun_induction scanUnits cs with
  | case4 | case7 | case11 =>
    rename_i ih
    refine ih.bind fun s rest hlt => .ok ?_
    simp only [List.length_cons]
    omega
  | case8 => exact .ok (Nat.lt_succ_self _)
  | _ => exact .error (fun h => nomatch h)

theorem scanString_consumes : Consumes scanString :=
  fun cs => (scanUnits_consumes cs).bind fun _ _ hlt => .ok hlt

theorem takeDigits_append_dropDigits (cs : List Char) : takeDigits cs ++ dropDigits cs = cs :=
  List.takeWhile_append_dropWhile

theorem dropDigits_suffix (cs : List Char) : dropDigits cs <:+ cs := List.dropWhile_suffix _

theorem scanFrac_suffix (cs : List Char) : (scanFrac cs).2 <:+ cs := by
  unfold scanFrac
  split
  · split
    · exact List.suffix_rfl
    · exact (dropDigits_suffix _).trans (List.suffix_cons _ _)
  · exact List.suffix_rfl

theorem scanSign_suffix (cs : List Char) : (scanSign cs).2 <:+ cs := by
  unfold scanSign
  split
  · exact List.suffix_cons _ _
  · exact List.suffix_cons _ _
  · exact List.suffix_rfl

theorem scanExp_suffix (cs : List Char) : (scanExp cs).2 <:+ cs := by
  unfold scanExp
  split
  · exact List.suffix_rfl
  · simp only
    split
    · exact ((dropDigits_suffix _).trans (scanSign_suffix _)).trans (List.suffix_cons _ _)
    · exact List.suffix_rfl

theorem scanMinus_suffix (cs : List Char) : (scanMinus cs).2 <:+ cs := by
  unfold scanMinus
  split
  · exact List.suffix_cons _ _
  · exact List.suffix_rfl

theorem scanWhole_eq {cs whole rest : List Char} (h : scanWhole cs = some (whole, rest)) :
    whole ≠ [] ∧ whole ++ rest = cs := by
  unfold scanWhole at h
  split at h
  · cases h
    exact ⟨List.cons_ne_nil _ _, rfl⟩
  · split at h
    · cases h
    · rename_i hne
      cases h
      exact ⟨hne, takeDigits_append_dropDigits _⟩

theorem scanNumber_suffix {cs rest : List Char} {n : Number}
    (h : scanNumber cs = some (n, rest)) : rest <:+ cs ∧ rest.length < cs.length := by
  unfold scanNumber at h
  simp only at h
  split at h
  · cases h
  · rename_i whole cs' hwhole
    cases h
    obtain ⟨hne, heq⟩ := scanWhole_eq hwhole
    have hrest := (scanExp_suffix (scanFrac cs').2).trans (scanFrac_suffix cs')
    have hminus := scanMinus_suffix cs
    rw [← heq] at hminus
    refine ⟨hrest.trans ((List.suffix_append whole cs').trans hminus), ?_⟩
    have hle := hrest.length_le
    have hle' := hminus.length_le
    have hpos := List.length_pos_iff.mpr hne
    rw [List.length_append] at hle'
    omega

theorem Number.value_ne_stuck {maxDigits : Nat} (n : Number) :
    n.value maxDigits ≠ .error .stuck := by
  unfold Number.value
  split
  · split <;> exact fun h => nomatch h
  · exact fun h => nomatch h

theorem scanScalar_suffix {maxDigits : Nat} {cs rest : List Char} {v : Value}
    (h : scanScalar maxDigits cs = .ok (v, rest)) : rest <:+ cs ∧ rest.length < cs.length := by
  unfold scanScalar at h
  split at h
  · rename_i text v hfind
    have hprefixed := List.find?_some hfind
    have hle : text.length ≤ cs.length := (List.isPrefixOf_iff_prefix.mp hprefixed).length_le
    have hall : ∀ entry ∈ constants, 0 < entry.1.length := by decide
    have hpos : 0 < text.length := hall _ (List.mem_of_find?_eq_some hfind)
    cases h
    refine ⟨List.drop_suffix _ _, ?_⟩
    rw [List.length_drop]
    omega
  · split at h
    · cases h
    · rename_i n rest hnumber
      cases hvalue : n.value maxDigits with
      | error e =>
        rw [hvalue] at h
        cases h
      | ok v =>
        rw [hvalue] at h
        cases h
        exact scanNumber_suffix hnumber

theorem scanScalar_consumes (maxDigits : Nat) : Consumes (scanScalar maxDigits) := by
  refine fun cs => ⟨fun h => (scanScalar_suffix h).2, ?_⟩
  unfold scanScalar
  split
  · exact fun h => nomatch h
  · split
    · exact fun h => nomatch h
    · rename_i n rest hnumber
      cases hvalue : n.value maxDigits with
      | error e => exact fun h => n.value_ne_stuck (hvalue.trans (congrArg _ (Except.error.inj h)))
      | ok v => exact fun h => nomatch h

section
variable {scan : List Char → Except Error (α × List Char)} {close : Char} {fuel : Nat}

/-- Only what comes behind the comma is left to `next`. -/
theorem scanTail_shortens {next : List Char → Except Error (List α × List Char)} {cs : List Char}
    (h : ∀ cs', cs'.length < cs.length → Shortens cs'.length (next cs')) :
    Shortens cs.length (scanTail close next cs) := by
  have hle := length_skipWs_le cs
  unfold scanTail
  cases hcs : skipWs cs with
  | nil => exact .error (fun h => nomatch h)
  | cons c rest =>
    rw [hcs, List.length_cons] at hle
    have hrest := length_skipWs_le rest
    simp only
    split
    · exact .ok (by omega)
    · split
      · exact (h _ (by omega)).mono (by omega)
      · exact .error (fun h => nomatch h)

theorem scanTail_congr {next next' : List Char → Except Error (List α × List Char)}
    {cs : List Char} (h : ∀ cs', cs'.length < cs.length → next cs' = next' cs') :
    scanTail close next cs = scanTail close next' cs := by
  have hle := length_skipWs_le cs
  unfold scanTail
  cases hcs : skipWs cs with
  | nil => rfl
  | cons c rest =>
    rw [hcs, List.length_cons] at hle
    have hrest := length_skipWs_le rest
    simp only [h (skipWs rest) (by omega)]

theorem scanItems_shortens (hs : Consumes scan) {cs : List Char} (h : cs.length < fuel) :
    Shortens cs.length (scanItems close scan fuel cs) := by
  induction fuel generalizing cs with
  | zero => cases h
  | succ fuel ih =>
    refine (hs cs).bind fun a cs' hlt => ?_
    have htail : Shortens cs'.length (scanTail close (scanItems close scan fuel) cs') :=
      scanTail_shortens fun cs'' hlt' => ih (by omega)
    exact htail.bind fun as rest hlt' => .ok (Nat.lt_trans hlt' hlt)

/-- More fuel than there are characters changes nothing. -/
theorem scanItems_fuel (hs : Consumes scan) {fuel fuel' : Nat} {cs : List Char}
    (h : cs.length < fuel) (h' : cs.length < fuel') :
    scanItems close scan fuel cs = scanItems close scan fuel' cs := by
  induction fuel generalizing fuel' cs with
  | zero => cases h
  | succ fuel ih =>
    cases fuel' with
    | zero => cases h'
    | succ fuel' =>
      rw [scanItems, scanItems]
      cases hscan : scan cs with
      | error e => rfl
      | ok p =>
        obtain ⟨a, cs'⟩ := p
        have hlt := (hs cs).lt hscan
        have htail : scanTail close (scanItems close scan fuel) cs' =
            scanTail close (scanItems close scan fuel') cs' :=
          scanTail_congr fun cs'' hlt' => ih (by omega) (by omega)
        simp only [bind, Except.bind, htail]

theorem scanContainer_shortens (hs : Consumes scan) (cs : List Char) :
    Shortens (cs.length + 1) (scanContainer close scan cs) := by
  have hle := length_skipWs_le cs
  unfold scanContainer
  split
  · refine .ok ?_
    rw [List.length_tail]
    omega
  · exact (scanItems_shortens hs (Nat.lt_succ_of_le hle)).mono (by omega)

end

section
variable {maxDigits : Nat}

theorem scanMember_consumes {scan : List Char → Except Error (Value × List Char)}
    (hs : Consumes scan) : Consumes (scanMember scan) := by
  intro cs
  cases cs with
  | nil => exact .error (fun h => nomatch h)
  | cons c cs =>
    rw [scanMember]
    split
    · refine (scanString_consumes cs).bind fun key cs' hlt => ?_
      have hle := length_skipWs_le cs'
      simp only
      split
      · rename_i cs'' hcolon
        rw [hcolon, List.length_cons] at hle
        have hle' := length_skipWs_le cs''
        refine (hs (skipWs cs'')).bind fun v rest hlt' => .ok ?_
        simp only [List.length_cons]
        omega
      · exact .error (fun h => nomatch h)
    · exact .error (fun h => nomatch h)

/-- The scanner comes to an end on every text with the fuel that it has. -/
theorem scanOnce_consumes (depth : Nat) : Consumes (scanOnce maxDigits depth) := by
  induction depth with
  | zero =>
    intro cs
    cases cs with
    | nil => exact .error (fun h => nomatch h)
    | cons c cs =>
      rw [scanOnce]
      split
      · exact (scanString_consumes cs).bind fun s rest hlt => .ok (Nat.lt_succ_of_lt hlt)
      · split
        · exact .error (fun h => nomatch h)
        · split
          · exact .error (fun h => nomatch h)
          · exact scanScalar_consumes maxDigits (c :: cs)
  | succ depth ih =>
    intro cs
    cases cs with
    | nil => exact .error (fun h => nomatch h)
    | cons c cs =>
      rw [scanOnce]
      split
      · exact (scanString_consumes cs).bind fun s rest hlt => .ok (Nat.lt_succ_of_lt hlt)
      · split
        · exact (scanContainer_shortens (scanMember_consumes ih) cs).bind fun _ _ hlt => .ok hlt
        · split
          · exact (scanContainer_shortens ih cs).bind fun _ _ hlt => .ok hlt
          · exact scanScalar_consumes maxDigits (c :: cs)

end

/-! ## Readings -/

/-- The scanner reports a text that is no JSON. -/
def Refuses (r : Except Error α) : Prop := ∃ msg, r = .error (.malformed msg)

def delimiters : List Char := [',', ']', '\x7d']

def whitespace : List Char := [' ', '\t', '\n', '\r']

/-- Behind the value the text ends, or a container goes on. -/
def Delimited (cs : List Char) : Prop := ∀ c ∈ cs.head?, c ∈ delimiters

/-- A container can go on here. -/
def Continues (cs : List Char) : Prop := ∃ c ∈ (skipWs cs).head?, c ∈ delimiters

/-- A text that was cut off is refused, or a part of it is read where no container goes on. -/
def Misses (r : Except Error (α × List Char)) : Prop :=
  Refuses r ∨ ∃ a rest, r = .ok (a, rest) ∧ ¬Continues rest

/-- The scanner reads the output as `a`, and misses on it when it is cut off. -/
structure Reads (scan : List Char → Except Error (α × List Char)) (out : Output) (a : α) :
    Prop where
  whole : out.error = none → ∀ rest, Delimited rest → scan (out.text ++ rest) = .ok (a, rest)
  cut : ∀ p, out.Cut p → Misses (scan p)
  nonempty : out.error = none → out.text ≠ []
  start : ∀ c ∈ out.text.head?, c ∉ whitespace ∧ c ∉ delimiters

/-- The same for the part of a container behind an item. -/
structure ReadsTail (scan : List Char → Except Error (α × List Char)) (out : Output) (a : α) :
    Prop where
  whole : out.error = none → ∀ rest, scan (out.text ++ rest) = .ok (a, rest)
  cut : ∀ p, out.Cut p → Refuses (scan p)
  strict : ∀ cs, ¬Continues cs → Refuses (scan cs)
  start : ∃ c cs, out.text = c :: cs ∧ c ∈ delimiters

theorem skipWs_cons {c : Char} (h : c ∉ whitespace) (cs : List Char) :
    skipWs (c :: cs) = c :: cs :=
  List.dropWhile_cons_of_neg (by simpa [whitespace] using h)

theorem skipWs_of_head {cs : List Char} (h : ∀ c ∈ cs.head?, c ∉ whitespace) :
    skipWs cs = cs := by
  cases cs with
  | nil => rfl
  | cons c cs => exact skipWs_cons (h c rfl) cs

/-- A test that every element of a list passes. -/
theorem forall_of_all {p : α → Prop} [DecidablePred p] {l : List α}
    (h : l.all (fun a => decide (p a)) = true) : ∀ a ∈ l, p a :=
  fun a ha => of_decide_eq_true (List.all_eq_true.mp h a ha)

theorem not_mem_whitespace : ∀ c ∈ delimiters, c ∉ whitespace := forall_of_all (by decide)

theorem head?_of_prefixed {p cs : List Char} (h : p <+: cs) {c : Char} (hc : c ∈ p.head?) :
    c ∈ cs.head? := by
  obtain ⟨q, rfl⟩ := h
  rw [List.head?_append, hc]
  rfl

theorem Delimited.prefix_of {p cs : List Char} (h : Delimited cs) (hp : p <+: cs) : Delimited p :=
  fun c hc => h c (head?_of_prefixed hp hc)

section
variable {scan : List Char → Except Error (α × List Char)} {out tail : Output} {a : α}
  {as : List α} {close : Char} {fuel : Nat}

theorem ReadsTail.delimited {scan : List Char → Except Error (α × List Char)} {a : α}
    (h : ReadsTail scan out a) (rest : List Char) : Delimited (out.text ++ rest) := by
  obtain ⟨c, cs, htext, hc⟩ := h.start
  rw [htext]
  rintro _ ⟨⟩
  exact hc

theorem scanTail_strict {next : List Char → Except Error (List α × List Char)}
    (hclose : close ∈ delimiters) {cs : List Char} (h : ¬Continues cs) :
    Refuses (scanTail close next cs) := by
  rw [scanTail]
  cases hcs : skipWs cs with
  | nil => exact ⟨_, rfl⟩
  | cons c rest =>
    have hc : c ∉ delimiters := fun hmem => h ⟨c, by rw [hcs]; rfl, hmem⟩
    have hne : c ≠ close := fun heq => hc (heq ▸ hclose)
    have hcomma : c ≠ ',' := fun heq => hc (heq ▸ List.mem_cons_self)
    simp only [if_neg hne, if_neg hcomma]
    exact ⟨_, rfl⟩

/-! ## Containers -/

theorem scanItems_whole (ho : Reads scan out a)
    (ht : ReadsTail (scanTail close (scanItems close scan fuel)) tail as)
    (herror : (out.andThen tail).error = none) (rest : List Char) :
    scanItems close scan (fuel + 1) ((out.andThen tail).text ++ rest) = .ok (a :: as, rest) := by
  obtain ⟨hout, htail⟩ := Output.andThen_error.mp herror
  rw [Output.andThen_of_none hout, List.append_assoc, scanItems,
    ho.whole hout _ (ht.delimited rest)]
  simp only [bind, Except.bind]
  rw [ht.whole htail]
  rfl

theorem scanItems_cut (ho : Reads scan out a)
    (ht : ReadsTail (scanTail close (scanItems close scan fuel)) tail as) {p : List Char}
    (hp : (out.andThen tail).Cut p) : Refuses (scanItems close scan (fuel + 1) p) := by
  rw [scanItems]
  rcases hp.andThen with hp | ⟨hout, q, rfl, hq⟩
  · rcases ho.cut p hp with ⟨msg, hscan⟩ | ⟨a', rest, hscan, hrest⟩
    · rw [hscan]
      exact ⟨msg, rfl⟩
    · rw [hscan]
      obtain ⟨msg, htail⟩ := ht.strict rest hrest
      simp only [bind, Except.bind]
      rw [htail]
      exact ⟨msg, rfl⟩
  · have hdelimited : Delimited q := by
      have htext := ht.delimited []
      rw [List.append_nil] at htext
      exact htext.prefix_of hq.1
    obtain ⟨msg, htail⟩ := ht.cut q hq
    rw [ho.whole hout q hdelimited]
    simp only [bind, Except.bind]
    rw [htail]
    exact ⟨msg, rfl⟩

theorem scanTail_close {next : List Char → Except Error (List α × List Char)}
    (hclose : close ∈ delimiters) (cs : List Char) :
    scanTail close next (close :: cs) = .ok ([], cs) := by
  rw [scanTail, skipWs_cons (not_mem_whitespace close hclose)]
  exact if_pos rfl

theorem scanTail_comma {next : List Char → Except Error (List α × List Char)}
    (hclose : close ≠ ',') (cs : List Char) :
    scanTail close next (',' :: cs) = next (skipWs cs) := by
  rw [scanTail, skipWs_cons (by decide)]
  simp only [if_neg (Ne.symm hclose), if_true]

theorem Output.cut_cons {c : Char} {cs p : List Char} {error : Option Error}
    (h : Output.Cut ⟨c :: cs, error⟩ p) : p = [] ∨ ∃ q, p = c :: q ∧ Output.Cut ⟨cs, error⟩ q := by
  obtain ⟨hpre, hwhole⟩ := h
  cases p with
  | nil => exact .inl rfl
  | cons d q =>
    obtain ⟨rfl, hq⟩ := List.cons_prefix_cons.mp hpre
    exact .inr ⟨q, rfl, hq, fun heq => hwhole (congrArg _ heq)⟩

theorem Output.not_cut_nil {p : List Char} : ¬Output.Cut ⟨[], none⟩ p :=
  fun h => h.2 (List.prefix_nil.mp h.1) rfl

theorem scanTail_nil {next : List Char → Except Error (List α × List Char)} :
    Refuses (scanTail close next []) := ⟨_, rfl⟩

/-- The scanner finds the start of a value, and not blanks or the end of a container. -/
theorem Reads.start_whole (ho : Reads scan out a) (herror : out.error = none) {rest : List Char}
    {c : Char} (hc : c ∈ (out.text ++ rest).head?) : c ∉ whitespace ∧ c ∉ delimiters := by
  obtain ⟨d, ds, htext⟩ := List.exists_cons_of_ne_nil (ho.nonempty herror)
  refine ho.start c ?_
  rw [htext] at hc ⊢
  exact hc

theorem Reads.start_andThen (ho : Reads scan out a) {c : Char}
    (hc : c ∈ (out.andThen tail).text.head?) : c ∉ whitespace ∧ c ∉ delimiters := by
  cases herror : out.error with
  | some e =>
    rw [Output.andThen_of_some herror] at hc
    exact ho.start c hc
  | none =>
    rw [Output.andThen_of_none herror] at hc
    exact ho.start_whole herror hc

theorem Reads.skipWs_start (ho : Reads scan out a) {p : List Char} (hp : p <+: out.text) :
    skipWs p = p :=
  skipWs_of_head fun c hc => (ho.start c (head?_of_prefixed hp hc)).1

theorem Reads.skipWs_cut (ho : Reads scan out a) {p : List Char}
    (hp : p <+: (out.andThen tail).text) : skipWs p = p :=
  skipWs_of_head fun _ hc => (ho.start_andThen (head?_of_prefixed hp hc)).1

theorem Reads.skipWs_whole (ho : Reads scan out a) (herror : out.error = none)
    (rest : List Char) : skipWs (out.text ++ rest) = out.text ++ rest :=
  skipWs_of_head fun _ hc => (ho.start_whole herror hc).1

theorem Reads.cut_nil (ho : Reads scan out a) : (out.andThen tail).Cut [] := by
  refine ⟨List.nil_prefix, fun htext herror => ?_⟩
  have hout := (Output.andThen_error.mp herror).1
  rw [Output.andThen_of_none hout] at htext
  exact ho.nonempty hout (List.append_eq_nil_iff.mp htext.symm).1

theorem printTail_cons {outs : List Output} :
    printTail close (out :: outs) = ⟨',' :: ' ' :: (out.andThen (printTail close outs)).text,
      (out.andThen (printTail close outs)).error⟩ := rfl

theorem readsTail_printTail (hclose : close ∈ delimiters) (hcomma : close ≠ ',')
    {outs : List Output} {as : List α} (h : List.Forall₂ (Reads scan) outs as) {fuel : Nat}
    (hfuel : outs.length ≤ fuel) :
    ReadsTail (scanTail close (scanItems close scan fuel)) (printTail close outs) as := by
  induction h generalizing fuel with
  | nil =>
    refine ⟨fun _ rest => scanTail_close hclose rest, fun p hp => ?_,
      fun cs => scanTail_strict hclose, _, _, rfl, hclose⟩
    rcases Output.cut_cons hp with rfl | ⟨q, _, hq⟩
    · exact scanTail_nil
    · exact absurd hq Output.not_cut_nil
  | @cons out a outs as ho _ ih =>
    cases fuel with
    | zero => cases hfuel
    | succ fuel =>
      have ht := ih (Nat.le_of_succ_le_succ hfuel)
      -- the blank behind the comma is skipped, and nothing of the item
      have hblank : ∀ cs, skipWs (' ' :: cs) = skipWs cs := fun cs => rfl
      rw [printTail_cons]
      refine ⟨fun herror rest => ?_, fun p hp => ?_, fun cs => scanTail_strict hclose, _, _, rfl,
        List.mem_cons_self⟩
      · have hout := (Output.andThen_error.mp herror).1
        have hskip := ho.skipWs_whole hout ((printTail close outs).text ++ rest)
        rw [← List.append_assoc, ← Output.andThen_text hout] at hskip
        rw [List.cons_append, List.cons_append, scanTail_comma hcomma, hblank, hskip]
        exact scanItems_whole ho ht herror rest
      · rcases Output.cut_cons hp with rfl | ⟨q, rfl, hq⟩
        · exact scanTail_nil
        · rw [scanTail_comma hcomma]
          rcases Output.cut_cons hq with rfl | ⟨item, rfl, hitem⟩
          · exact scanItems_cut ho ht ho.cut_nil
          · rw [hblank, ho.skipWs_cut hitem.1]
            exact scanItems_cut ho ht hitem

/-! ## Containers as a whole -/

/-- What is printed of a container behind its opening bracket. -/
def printRest (close : Char) : List Output → Output
  | [] => ⟨[close], none⟩
  | item :: items => item.andThen (printTail close items)

theorem printContainer_eq {opening : Char} {outs : List Output} :
    printContainer opening close outs =
      ⟨opening :: (printRest close outs).text, (printRest close outs).error⟩ := by
  cases outs with
  | nil => rfl
  | cons item items => rfl

theorem scanContainer_items (hs : Consumes scan) {cs : List Char} (hskip : skipWs cs = cs)
    (hhead : ∀ c ∈ cs.head?, c ∉ delimiters) (hclose : close ∈ delimiters)
    (hfuel : cs.length ≤ fuel) :
    scanContainer close scan cs = scanItems close scan (fuel + 1) cs := by
  have hne : cs.head? ≠ some close := fun h => hhead close h hclose
  rw [scanContainer, hskip, if_neg hne]
  exact scanItems_fuel hs (Nat.lt_succ_self _) (Nat.lt_succ_of_le hfuel)

theorem scanContainer_printed (hs : Consumes scan) (hempty : Refuses (scan []))
    (hclose : close ∈ delimiters) (hcomma : close ≠ ',') {outs : List Output} {as : List α}
    (h : List.Forall₂ (Reads scan) outs as) :
    ((printRest close outs).error = none → ∀ rest,
      scanContainer close scan ((printRest close outs).text ++ rest) = .ok (as, rest)) ∧
      ∀ p, (printRest close outs).Cut p → Refuses (scanContainer close scan p) := by
  cases h with
  | nil =>
    refine ⟨fun _ rest => ?_, fun p hp => ?_⟩
    · have hskip : skipWs (close :: rest) = close :: rest :=
        skipWs_cons (not_mem_whitespace close hclose) rest
      rw [printRest, List.singleton_append, scanContainer, hskip]
      exact if_pos rfl
    · rcases Output.cut_cons hp with rfl | ⟨q, _, hq⟩
      · obtain ⟨msg, hscan⟩ := hempty
        refine ⟨msg, ?_⟩
        rw [scanContainer, if_neg (fun h => nomatch h), skipWs, List.dropWhile_nil, scanItems,
          hscan]
        rfl
      · exact absurd hq Output.not_cut_nil
  | @cons out a outs as ho hos =>
    refine ⟨fun herror rest => ?_, fun p hp => ?_⟩
    · have hout := (Output.andThen_error.mp herror).1
      have hhead : ∀ c ∈ ((out.andThen (printTail close outs)).text ++ rest).head?,
          c ∉ whitespace ∧ c ∉ delimiters := by
        intro c hc
        rw [Output.andThen_text hout, List.append_assoc] at hc
        exact ho.start_whole hout hc
      have ht := readsTail_printTail hclose hcomma hos
        (Nat.le_add_right outs.length ((out.andThen (printTail close outs)).text ++ rest).length)
      rw [printRest, scanContainer_items hs (skipWs_of_head fun c hc => (hhead c hc).1)
        (fun c hc => (hhead c hc).2) hclose (Nat.le_add_left _ outs.length)]
      exact scanItems_whole ho ht herror rest
    · have ht := readsTail_printTail hclose hcomma hos (Nat.le_add_right outs.length p.length)
      rw [scanContainer_items hs (ho.skipWs_cut hp.1)
        (fun c hc => (ho.start_andThen (head?_of_prefixed hp.1 hc)).2) hclose
        (Nat.le_add_left _ outs.length)]
      exact scanItems_cut ho ht hp

end
end FastGeoApi.Json
