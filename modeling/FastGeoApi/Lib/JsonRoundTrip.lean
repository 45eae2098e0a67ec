import FastGeoApi.Lib.JsonLexical

/-!
# Printed text is read back

A value is scanned as it was printed, with its surrogates joined. An object that was cut off while
it was printed is refused.
-/

namespace FastGeoApi.Json

section
variable {maxDigits depth : Nat}

/-! ## Strings and containers -/

theorem reads_quote (s : Text) :
    Reads (scanOnce maxDigits depth) ⟨quote s, none⟩ (.str (joinSurrogates s)) := by
  have hstring : ∀ cs, scanOnce maxDigits depth ('"' :: cs) =
      scanString cs >>= fun p => .ok (.str p.1, p.2) := by
    intro cs
    cases depth with
    | zero =>
      rw [scanOnce, if_pos rfl]
      rfl
    | succ depth =>
      rw [scanOnce, if_pos rfl]
      rfl
  refine ⟨fun _ rest _ => ?_, fun p hp => ?_, fun _ => List.cons_ne_nil _ _, fun c hc => ?_⟩
  · rw [quote, List.cons_append, hstring, List.append_assoc, List.singleton_append,
      scanString_quoted]
    rfl
  · refine .inl ?_
    rcases Output.cut_cons hp with rfl | ⟨q, rfl, hq⟩
    · exact refuses_scanOnce_nil
    · obtain ⟨msg, hscan⟩ := refuses_scanString hq.1 fun heq => hq.2 heq rfl
      rw [hstring, hscan]
      exact ⟨msg, rfl⟩
  · obtain rfl := Option.some.inj hc
    decide

section
variable {scan : List Char → Except Error (Value × List Char)}

/-- The scanner of the value comes upon what is behind the colon. -/
theorem scanMember_key (key : Text) (cs : List Char) :
    scanMember scan (quote key ++ [':', ' '] ++ cs) =
      scan (skipWs cs) >>= fun p => .ok ((joinSurrogates key, p.1), p.2) := by
  have hkey : quote key ++ [':', ' '] ++ cs =
      '"' :: (key.flatMap escape ++ '"' :: ':' :: ' ' :: cs) := by
    simp [quote]
  have hcolon : skipWs (':' :: ' ' :: cs) = ':' :: ' ' :: cs := skipWs_cons (by decide) _
  have hblank : skipWs (' ' :: cs) = skipWs cs := rfl
  rw [hkey, scanMember, if_pos rfl, scanString_quoted]
  simp only [bind, Except.bind, hcolon, hblank]
  rfl

/-- A key that is cut off, or that has no value behind its colon. -/
theorem refuses_member_key (hempty : Refuses (scan [])) {key : Text} {p : List Char}
    (hp : p <+: quote key ++ [':', ' ']) (hne : p ≠ quote key ++ [':', ' ']) :
    Refuses (scanMember scan p) := by
  have hsplit : quote key ++ [':', ' '] = '"' :: (key.flatMap escape ++ ['"'] ++ [':', ' ']) := rfl
  have hcolon : skipWs [':'] = [':'] := skipWs_cons (by decide) _
  rw [hsplit] at hp hne
  rcases List.prefix_cons_iff.mp hp with rfl | ⟨q, rfl, hq⟩
  · exact ⟨_, rfl⟩
  rw [scanMember, if_pos rfl]
  rcases prefix_append_cases hq with ⟨hq, hcut⟩ | ⟨r, rfl, hr⟩
  · obtain ⟨msg, hscan⟩ := refuses_scanString hq hcut
    rw [hscan]
    exact ⟨msg, rfl⟩
  · rw [List.append_assoc, List.singleton_append, scanString_quoted]
    rcases List.prefix_cons_iff.mp hr with rfl | ⟨t, rfl, ht⟩
    · exact ⟨_, rfl⟩
    rcases List.prefix_cons_iff.mp ht with rfl | ⟨u, rfl, hu⟩
    · obtain ⟨msg, hscan⟩ := hempty
      refine ⟨msg, ?_⟩
      simp only [bind, Except.bind, hcolon]
      rw [skipWs, List.dropWhile_nil, hscan]
    · rw [List.prefix_nil.mp hu] at hne
      exact absurd rfl hne

/-- A member is a key, a colon and a value. -/
theorem reads_member {out : Output} {v : Value} (ho : Reads scan out v)
    (hempty : Refuses (scan [])) (key : Text) :
    Reads (scanMember scan) (Output.andThen ⟨quote key ++ [':', ' '], none⟩ out)
      (joinSurrogates key, v) := by
  refine ⟨fun herror rest hrest => ?_, fun p hp => ?_, fun _ => ?_, fun c hc => ?_⟩
  · have hout := (Output.andThen_error.mp herror).2
    rw [Output.andThen_text rfl, List.append_assoc, scanMember_key, ho.skipWs_whole hout,
      ho.whole hout rest hrest]
    rfl
  · rcases hp.andThen with hp | ⟨_, q, rfl, hq⟩
    · exact .inl (refuses_member_key hempty hp.1 fun heq => hp.2 heq rfl)
    · rw [scanMember_key, ho.skipWs_start hq.1]
      rcases ho.cut q hq with ⟨msg, hscan⟩ | ⟨v', rest, hscan, hrest⟩
      · rw [hscan]
        exact .inl ⟨msg, rfl⟩
      · rw [hscan]
        exact .inr ⟨_, rest, rfl, hrest⟩
  · exact List.cons_ne_nil _ _
  · obtain rfl := Option.some.inj hc
    decide

end

/-! ## Values -/

mutual
/-- The value with the surrogates joined in all of its strings. -/
def Value.joined : Value → Value
  | .str s => .str (joinSurrogates s)
  | .arr items => .arr (joinedItems items)
  | .obj members => .obj (joinedMembers members)
  | v => v

def joinedItems : List Value → List Value
  | [] => []
  | v :: items => v.joined :: joinedItems items

def joinedMembers : List (Text × Value) → List (Text × Value)
  | [] => []
  | (key, v) :: members => (joinSurrogates key, v.joined) :: joinedMembers members
end

/-- A number as a float is written. -/
structure Number.FloatRepr (n : Number) : Prop extends n.WellFormed where
  not_int : ¬n.isInt
  length_le : n.whole.length ≤ 17

/-- The floats in the value are written as floats are. -/
inductive Native : Value → Prop
  | null : Native .null
  | bool (b : Bool) : Native (.bool b)
  | int (i : Int) : Native (.int i)
  | nan : Native (.float .nan)
  | infinity (negative : Bool) : Native (.float (.infinity negative))
  | number {n : Number} : n.FloatRepr → Native (.float (.number n))
  | str (s : Text) : Native (.str s)
  | arr {items : List Value} : (∀ v ∈ items, Native v) → Native (.arr items)
  | obj {members : List (Text × Value)} : (∀ m ∈ members, Native m.2) → Native (.obj members)

theorem reads_items {scan : List Char → Except Error (Value × List Char)} {items : List Value}
    (h : ∀ v ∈ items, Reads scan (print maxDigits v depth) v.joined) :
    List.Forall₂ (Reads scan) (printItems maxDigits items depth) (joinedItems items) := by
  induction items with
  | nil => exact .nil
  | cons v items ih =>
    exact .cons (h v List.mem_cons_self) (ih fun w hw => h w (List.mem_cons_of_mem v hw))

theorem reads_members {scan : List Char → Except Error (Value × List Char)}
    {members : List (Text × Value)} (hempty : Refuses (scan []))
    (h : ∀ m ∈ members, Reads scan (print maxDigits m.2 depth) m.2.joined) :
    List.Forall₂ (Reads (scanMember scan)) (printMembers maxDigits members depth)
      (joinedMembers members) := by
  induction members with
  | nil => exact .nil
  | cons m members ih =>
    exact .cons (reads_member (h m List.mem_cons_self) hempty m.1)
      (ih fun m' hm' => h m' (List.mem_cons_of_mem m hm'))

section
variable {scan : List Char → Except Error (α × List Char)}
  {scanOuter : List Char → Except Error (Value × List Char)} {opening close : Char}
  {outs : List Output} {as : List α} {v : List α → Value}

/-- The scanner of a container comes upon the items behind its opening bracket. -/
structure Opens (scan : List Char → Except Error (α × List Char))
    (scanOuter : List Char → Except Error (Value × List Char)) (opening close : Char)
    (v : List α → Value) : Prop where
  consumes : Consumes scan
  empty : Refuses (scan [])
  outer : Refuses (scanOuter [])
  close_mem : close ∈ delimiters
  not_comma : close ≠ ','
  start : opening ∉ whitespace ∧ opening ∉ delimiters
  eq : ∀ cs, scanOuter (opening :: cs) =
    (do let (as, rest) ← scanContainer close scan cs; return (v as, rest))

theorem Opens.refuses (ho : Opens scan scanOuter opening close v)
    (h : List.Forall₂ (Reads scan) outs as) {p : List Char}
    (hp : (printContainer opening close outs).Cut p) : Refuses (scanOuter p) := by
  rw [printContainer_eq] at hp
  rcases Output.cut_cons hp with rfl | ⟨q, rfl, hq⟩
  · exact ho.outer
  · have hcut := (scanContainer_printed ho.consumes ho.empty ho.close_mem ho.not_comma h).2
    obtain ⟨msg, hscan⟩ := hcut q hq
    rw [ho.eq, hscan]
    exact ⟨msg, rfl⟩

theorem Opens.reads (ho : Opens scan scanOuter opening close v)
    (h : List.Forall₂ (Reads scan) outs as) :
    Reads scanOuter (printContainer opening close outs) (v as) := by
  have hwhole := (scanContainer_printed ho.consumes ho.empty ho.close_mem ho.not_comma h).1
  refine ⟨fun herror rest _ => ?_, fun p hp => .inl (ho.refuses h hp), fun _ => ?_, fun c hc => ?_⟩
  · rw [printContainer_eq] at herror ⊢
    rw [List.cons_append, ho.eq, hwhole herror rest]
    rfl
  · rw [printContainer_eq]
    exact List.cons_ne_nil _ _
  · rw [printContainer_eq] at hc
    obtain rfl := Option.some.inj hc
    exact ho.start

end

theorem opens_arr : Opens (scanOnce maxDigits depth) (scanOnce maxDigits (depth + 1)) '[' ']'
    .arr where
  consumes := scanOnce_consumes depth
  empty := refuses_scanOnce_nil
  outer := refuses_scanOnce_nil
  close_mem := by decide
  not_comma := by decide
  start := by decide
  eq cs := by
    rw [scanOnce]
    rfl

theorem opens_obj : Opens (scanMember (scanOnce maxDigits depth)) (scanOnce maxDigits (depth + 1))
    '\x7b' '\x7d' .obj where
  consumes := scanMember_consumes (scanOnce_consumes depth)
  empty := ⟨_, rfl⟩
  outer := refuses_scanOnce_nil
  close_mem := by decide
  not_comma := by decide
  start := by decide
  eq cs := by
    rw [scanOnce]
    rfl

/-- With at least its depth the scanner reads a value as it was printed. -/
theorem reads_print {v : Value} (hv : Native v) (hdigits : 17 ≤ maxDigits) {depth depth' : Nat}
    (hle : depth ≤ depth') :
    Reads (scanOnce maxDigits depth') (print maxDigits v depth) v.joined := by
  induction hv generalizing depth depth' with
  | null => exact reads_constant (.head _)
  | bool b =>
    cases b with
    | true => exact reads_constant (.tail _ (.head _))
    | false => exact reads_constant (.tail _ (.tail _ (.head _)))
  | int i => exact reads_printInt i
  | nan => exact reads_constant (.tail _ (.tail _ (.tail _ (.head _))))
  | infinity negative =>
    cases negative with
    | false => exact reads_constant (.tail _ (.tail _ (.tail _ (.tail _ (.head _)))))
    | true => exact reads_constant (.tail _ (.tail _ (.tail _ (.tail _ (.tail _ (.head _))))))
  | number hn =>
    exact reads_number hn.toWellFormed (if_neg hn.not_int) (Nat.le_trans hn.length_le hdigits)
  | str s => exact reads_quote s
  | arr _ ih =>
    cases depth with
    | zero => exact reads_failed
    | succ depth =>
      cases depth' with
      | zero => cases hle
      | succ depth' =>
        exact opens_arr.reads (reads_items fun v hv => ih v hv (Nat.le_of_succ_le_succ hle))
  | obj _ ih =>
    cases depth with
    | zero => exact reads_failed
    | succ depth =>
      cases depth' with
      | zero => cases hle
      | succ depth' =>
        exact opens_obj.reads (reads_members refuses_scanOnce_nil
          fun m hm => ih m hm (Nat.le_of_succ_le_succ hle))

/-- An object that is cut off is not even read in part. -/
theorem refuses_obj {members : List (Text × Value)} (hm : ∀ m ∈ members, Native m.2)
    (hdigits : 17 ≤ maxDigits) {depth depth' : Nat} (hle : depth ≤ depth') {p : List Char}
    (hp : (print maxDigits (.obj members) depth).Cut p) :
    Refuses (scanOnce maxDigits depth' p) := by
  cases depth with
  | zero =>
    rw [List.prefix_nil.mp hp.1]
    exact refuses_scanOnce_nil
  | succ depth =>
    cases depth' with
    | zero => cases hle
    | succ depth' =>
      exact opens_obj.refuses (reads_members refuses_scanOnce_nil
        fun m hmem => reads_print (hm m hmem) hdigits (Nat.le_of_succ_le_succ hle)) hp

/-! ## ASCII -/

theorem Ascii.append {cs cs' : List Char} (h : Ascii cs) (h' : Ascii cs') : Ascii (cs ++ cs') :=
  fun c hc => (List.mem_append.mp hc).elim (h c) (h' c)

theorem Ascii.andThen {a b : Output} (ha : Ascii a.text) (hb : Ascii b.text) :
    Ascii (a.andThen b).text := by
  unfold Output.andThen
  split
  · exact ha.append hb
  · exact ha

theorem ascii_hexEscape (n : Nat) : Ascii (hexEscape n) := by
  have hdigit : ∀ m, Printable (m % 16).digitChar := by
    have hall : ∀ d < 16, Printable d.digitChar := by decide
    exact fun m => hall _ (Nat.mod_lt m (by decide))
  intro c hc
  simp only [hexEscape, List.mem_cons, List.not_mem_nil, or_false] at hc
  rcases hc with rfl | rfl | rfl | rfl | rfl | rfl
  · decide
  · decide
  · exact hdigit _
  · exact hdigit _
  · exact hdigit _
  · exact hdigit _

theorem ascii_escape (c : CodePoint) : Ascii (escape c) := by
  unfold escape
  split
  · rename_i e he
    obtain ⟨l₁, l₂, heq, _⟩ := List.lookup_eq_some_iff.mp he
    have hmem : (c.val, e) ∈ shortEscapes := by
      rw [heq]
      exact List.mem_append_right _ List.mem_cons_self
    have hall : ∀ entry ∈ shortEscapes, Ascii ['\\', entry.2] := by decide
    exact hall _ hmem
  · split
    · rename_i hprintable
      rintro _ (_ | ⟨_, ⟨⟩⟩)
      rw [Printable, toNat_ofNat (by omega)]
      omega
    · split
      · exact ascii_hexEscape _
      · exact (ascii_hexEscape _).append (ascii_hexEscape _)

theorem ascii_quote (s : Text) : Ascii (quote s) := by
  intro c hc
  rcases List.mem_cons.mp hc with rfl | hc
  · decide
  rcases List.mem_append.mp hc with hc | hc
  · obtain ⟨d, _, hd⟩ := List.mem_flatMap.mp hc
    exact ascii_escape d c hd
  · rw [List.mem_singleton.mp hc]
    decide

theorem ascii_printTail {close : Char} (hclose : Printable close) {outs : List Output}
    (h : ∀ out ∈ outs, Ascii out.text) : Ascii (printTail close outs).text := by
  induction outs with
  | nil =>
    rintro _ (_ | ⟨_, ⟨⟩⟩)
    exact hclose
  | cons out outs ih =>
    have hcomma : Ascii [',', ' '] := by decide
    exact hcomma.andThen ((h out List.mem_cons_self).andThen
      (ih fun out' hout => h out' (List.mem_cons_of_mem out hout)))

theorem ascii_printContainer {opening close : Char} (h : Ascii [opening, close])
    {outs : List Output} (houts : ∀ out ∈ outs, Ascii out.text) :
    Ascii (printContainer opening close outs).text := by
  cases outs with
  | nil => exact h
  | cons out outs =>
    have hopening : Ascii [opening] := by
      rintro _ (_ | ⟨_, ⟨⟩⟩)
      exact h _ List.mem_cons_self
    refine Ascii.andThen hopening (Ascii.andThen (houts out List.mem_cons_self)
      (ascii_printTail ?_ fun out' hout => houts out' (List.mem_cons_of_mem out hout)))
    exact h close (List.mem_cons_of_mem opening List.mem_cons_self)

theorem ascii_items {items : List Value} (h : ∀ v ∈ items, Ascii (print maxDigits v depth).text) :
    ∀ out ∈ printItems maxDigits items depth, Ascii out.text := by
  induction items with
  | nil => exact fun out hout => nomatch hout
  | cons v items ih =>
    intro out hout
    rcases List.mem_cons.mp hout with rfl | hout
    · exact h v List.mem_cons_self
    · exact ih (fun w hw => h w (List.mem_cons_of_mem v hw)) out hout

theorem ascii_members {members : List (Text × Value)}
    (h : ∀ m ∈ members, Ascii (print maxDigits m.2 depth).text) :
    ∀ out ∈ printMembers maxDigits members depth, Ascii out.text := by
  induction members with
  | nil => exact fun out hout => nomatch hout
  | cons m members ih =>
    have hcolon : Ascii [':', ' '] := by decide
    intro out hout
    rcases List.mem_cons.mp hout with rfl | hout
    · exact ((ascii_quote m.1).append hcolon).andThen (h m List.mem_cons_self)
    · exact ih (fun m' hm' => h m' (List.mem_cons_of_mem m hm')) out hout

theorem Plain.ascii {cs : List Char} (h : Plain cs) : Ascii cs := fun c hc => (h c hc).1

theorem ascii_print {v : Value} (hv : Native v) : Ascii (print maxDigits v depth).text := by
  have hconstant : ∀ entry ∈ constants, Ascii entry.1 := by decide
  have hbrackets : Ascii ['[', ']'] := by decide
  have hbraces : Ascii ['\x7b', '\x7d'] := by decide
  induction hv generalizing depth with
  | null => exact hconstant _ (.head _)
  | bool b =>
    cases b with
    | true => exact hconstant _ (.tail _ (.head _))
    | false => exact hconstant _ (.tail _ (.tail _ (.head _)))
  | int i =>
    rw [print, printInt_eq]
    split
    · exact (intNumber_wellFormed i).plain.ascii
    · exact fun c hc => nomatch hc
  | nan => exact hconstant _ (.tail _ (.tail _ (.tail _ (.head _))))
  | infinity negative =>
    cases negative with
    | false => exact hconstant _ (.tail _ (.tail _ (.tail _ (.tail _ (.head _)))))
    | true => exact hconstant _ (.tail _ (.tail _ (.tail _ (.tail _ (.tail _ (.head _))))))
  | number hn => exact hn.toWellFormed.plain.ascii
  | str s => exact ascii_quote s
  | arr _ ih =>
    cases depth with
    | zero => exact fun c hc => nomatch hc
    | succ depth => exact ascii_printContainer hbrackets (ascii_items fun v hv => ih v hv)
  | obj _ ih =>
    cases depth with
    | zero => exact fun c hc => nomatch hc
    | succ depth => exact ascii_printContainer hbraces (ascii_members fun m hm => ih m hm)

end

/-! ## Whole texts -/

section
variable {limits : Limits}

theorem scan_ne_stuck (cs : List Char) : scan limits cs ≠ .error .stuck := by
  unfold scan
  split
  · exact fun h => nomatch h
  · cases hscan : scanOnce limits.digits limits.scanDepth (skipWs cs) with
    | error e =>
      exact fun h => (scanOnce_consumes limits.scanDepth (skipWs cs)).unstuck
        (hscan.trans (congrArg _ (Except.error.inj h)))
    | ok p =>
      obtain ⟨v, rest⟩ := p
      simp only [bind, Except.bind]
      split <;> exact fun h => nomatch h

theorem Ascii.no_bom {cs : List Char} (h : Ascii cs) : cs.head? ≠ some '\ufeff' :=
  fun hc => absurd (h _ (List.mem_of_mem_head? hc)) (by decide)

theorem scan_print {v : Value} (hv : Native v)
    (herror : (print limits.digits v limits.printDepth).error = none) :
    scan limits (print limits.digits v limits.printDepth).text = .ok v.joined := by
  have hreads := reads_print hv limits.digits_le limits.depth_le
  have hwhole := hreads.whole herror [] fun c hc => nomatch hc
  rw [List.append_nil] at hwhole
  rw [scan, if_neg (ascii_print hv).no_bom, hreads.skipWs_start List.prefix_rfl, hwhole]
  rfl

/-- The text of an object is refused, wherever it is cut off. -/
theorem refuses_cut {members : List (Text × Value)} (hm : ∀ m ∈ members, Native m.2)
    {p : List Char} (hp : (print limits.digits (.obj members) limits.printDepth).Cut p) :
    Refuses (scan limits p) := by
  have hobj : Native (.obj members) := .obj hm
  have hascii : Ascii p := fun c hc => ascii_print hobj c (hp.1.subset hc)
  have hreads := reads_print hobj limits.digits_le limits.depth_le
  obtain ⟨msg, hscan⟩ := refuses_obj hm limits.digits_le limits.depth_le hp
  rw [scan, if_neg hascii.no_bom, hreads.skipWs_start hp.1, hscan]
  exact ⟨msg, rfl⟩

end
end FastGeoApi.Json
