import FastGeoApi.Lib.JsonScan

/-!
# Printed strings and numbers are read back

An escaped code point above the basic plane is read as two surrogates, and they are joined again. A
scalar is scanned up to the first character that cannot go on with it.
-/

namespace FastGeoApi.Json

/-! ## Strings -/

/-- The code units that an escaped code point is read as. -/
def units (c : CodePoint) : Text :=
  if c.val < 0x10000 then [c]
  else [codePoint (0xd800 + (c.val - 0x10000) / 0x400),
    codePoint (0xdc00 + (c.val - 0x10000) % 0x400)]

theorem codePoint_val (n : Nat) : (codePoint n).val = n % 0x110000 := rfl

theorem hexVal_digitChar {n : Nat} (h : n < 16) : hexVal n.digitChar = some n := by
  have hall : ∀ n < 16, hexVal n.digitChar = some n := by decide
  exact hall n h

theorem hex4_hexEscape {n : Nat} (h : n < 0x10000) :
    hex4 (n / 0x1000 % 16).digitChar (n / 0x100 % 16).digitChar (n / 0x10 % 16).digitChar
      (n % 16).digitChar = some (codePoint n) := by
  have hlt : ∀ m, m % 16 < 16 := fun m => Nat.mod_lt m (by decide)
  have hsum : n / 0x1000 % 16 * 0x1000 + n / 0x100 % 16 * 0x100 + n / 0x10 % 16 * 0x10 + n % 16 =
      n := by omega
  simp only [hex4, hexVal_digitChar (hlt _), Option.bind_eq_bind, Option.bind_some, hsum]
  rfl

/-- The string goes on behind the code units. -/
def goesOn (s : Text) (r : Except Error (Text × List Char)) : Except Error (Text × List Char) := do
  let (s', rest) ← r
  return (s ++ s', rest)

theorem goesOn_append (s s' : Text) (r : Except Error (Text × List Char)) :
    goesOn s (goesOn s' r) = goesOn (s ++ s') r := by
  cases r with
  | error e => rfl
  | ok p => simp only [goesOn, bind, Except.bind, pure, Except.pure, List.append_assoc]

theorem Refuses.goesOn {r : Except Error (Text × List Char)} (h : Refuses r) (s : Text) :
    Refuses (goesOn s r) := by
  obtain ⟨msg, rfl⟩ := h
  exact ⟨msg, rfl⟩

theorem scanUnits_hexEscape {n : Nat} (h : n < 0x10000) {cs : List Char} (hcs : cs ≠ []) :
    scanUnits (hexEscape n ++ cs) = goesOn [codePoint n] (scanUnits cs) := by
  rw [hexEscape]
  simp only [List.cons_append, List.nil_append]
  rw [scanUnits]
  simp only [hex4_hexEscape h, if_neg hcs]
  rfl

theorem scanUnits_short {e : Char} {n : CodePoint} (hu : e ≠ 'u') (he : unescape? e = some n)
    (cs : List Char) : scanUnits ('\\' :: e :: cs) = goesOn [n] (scanUnits cs) := by
  rw [scanUnits.eq_def]
  split
  · rename_i heq
    cases heq
  · rename_i heq
    cases heq
    exact absurd rfl hu
  · rename_i heq
    cases heq
    simp only [if_neg hu, he]
    rfl
  · rename_i hslash heq
    cases heq
    exact absurd rfl (hslash _ _ rfl)

theorem scanUnits_printable {c : Char} (hquote : c ≠ '"') (hslash : c ≠ '\\')
    (hcontrol : 0x20 ≤ c.toNat) (cs : List Char) :
    scanUnits (c :: cs) = goesOn [codePoint c.toNat] (scanUnits cs) := by
  rw [scanUnits, if_neg hquote, if_neg hslash, if_neg (Nat.not_lt_of_le hcontrol)]
  · rfl
  · intro _ _ _ _ _ hc
    exact absurd hc hslash
  · intro _ _ hc
    exact absurd hc hslash

theorem toNat_ofNat {n : Nat} (h : n < 0xd800) : (Char.ofNat n).toNat = n := by
  have hvalid : n.isValidChar := .inl h
  rw [Char.ofNat, dif_pos hvalid]
  exact rfl

theorem codePoint_self (c : CodePoint) : codePoint c.val = c :=
  Fin.ext (Nat.mod_eq_of_lt c.isLt)

theorem shortEscapes_spec : ∀ entry ∈ shortEscapes, entry.2 ≠ 'u' ∧
    unescape? entry.2 = some (codePoint entry.1) ∧ entry.1 < 0x10000 := by
  decide

/-- The escapes of a code point. -/
theorem escape_cases (c : CodePoint) :
    (∃ e, escape c = ['\\', e] ∧ e ≠ 'u' ∧ unescape? e = some c ∧ units c = [c]) ∨
    (∃ d : Char, escape c = [d] ∧ d ≠ '"' ∧ d ≠ '\\' ∧ 0x20 ≤ d.toNat ∧ codePoint d.toNat = c ∧
      units c = [c]) ∨
    (∃ n < 0x10000, escape c = hexEscape n ∧ units c = [codePoint n]) ∨
    (∃ n < 0x10000, ∃ m < 0x10000, escape c = hexEscape n ++ hexEscape m ∧
      units c = [codePoint n, codePoint m]) := by
  have hbound := c.isLt
  unfold escape
  split
  · rename_i e he
    have hmem : (c.val, e) ∈ shortEscapes := by
      obtain ⟨l₁, l₂, heq, _⟩ := List.lookup_eq_some_iff.mp he
      rw [heq]
      exact List.mem_append_right _ List.mem_cons_self
    obtain ⟨hu, hunescape, hlt⟩ := shortEscapes_spec _ hmem
    exact .inl ⟨e, rfl, hu, (codePoint_self c) ▸ hunescape, if_pos hlt⟩
  · rename_i hlookup
    split
    · rename_i hprintable
      have htoNat : (Char.ofNat c.val).toNat = c.val := toNat_ofNat (by omega)
      have hne : ∀ n e, (n, e) ∈ shortEscapes → Char.ofNat c.val ≠ Char.ofNat n := by
        intro n e hmem heq
        have hn : n < 0xd800 := by
          have hall : ∀ entry ∈ shortEscapes, entry.1 < 0xd800 := by decide
          exact hall _ hmem
        have hval : c.val = n := by rw [← htoNat, heq, toNat_ofNat hn]
        have hnone := List.lookup_eq_none_iff.mp hlookup _ hmem
        simp [hval] at hnone
      refine .inr (.inl ⟨_, rfl, hne 0x22 '"' (by decide), hne 0x5c '\\' (by decide), ?_, ?_,
        if_pos (by omega)⟩)
      · rw [htoNat]
        exact hprintable.1
      · rw [htoNat, codePoint_self]
    · split
      · rename_i hlt
        exact .inr (.inr (.inl ⟨c.val, hlt, rfl, by rw [units, if_pos hlt, codePoint_self]⟩))
      · rename_i hge
        exact .inr (.inr (.inr ⟨_, by omega, _, by omega, rfl, if_neg hge⟩))

theorem scanUnits_escape (c : CodePoint) {cs : List Char} (hcs : cs ≠ []) :
    scanUnits (escape c ++ cs) = goesOn (units c) (scanUnits cs) := by
  rcases escape_cases c with ⟨e, he, hu, hunescape, hunits⟩ |
    ⟨d, hd, hquote, hslash, hcontrol, hc, hunits⟩ | ⟨n, hn, he, hunits⟩ |
    ⟨n, hn, m, hm, he, hunits⟩
  · rw [he, hunits]
    exact scanUnits_short hu hunescape cs
  · rw [hd, hunits, ← hc]
    exact scanUnits_printable hquote hslash hcontrol cs
  · rw [he, hunits, scanUnits_hexEscape hn hcs]
  · rw [he, hunits, List.append_assoc, scanUnits_hexEscape hn (by simp [hexEscape]),
      scanUnits_hexEscape hm hcs, goesOn_append]
    rfl

theorem scanUnits_quoted (s : Text) (rest : List Char) :
    scanUnits (s.flatMap escape ++ '"' :: rest) = .ok (s.flatMap units, rest) := by
  induction s with
  | nil => rfl
  | cons c s ih =>
    rw [List.flatMap_cons, List.flatMap_cons, List.append_assoc, scanUnits_escape c (by simp), ih]
    rfl

theorem refuses_scanUnits_nil : Refuses (scanUnits []) := ⟨_, rfl⟩

theorem refuses_hexEscape {n : Nat} {p : List Char} (hn : n < 0x10000) (h : p <+: hexEscape n) :
    Refuses (scanUnits p) := by
  have hmem := (List.mem_inits p _).mpr h
  simp only [hexEscape, List.inits, List.map_cons, List.map_nil, List.mem_cons, List.not_mem_nil,
    or_false] at hmem
  rcases hmem with rfl | rfl | rfl | rfl | rfl | rfl | rfl
  · exact ⟨_, rfl⟩
  · exact ⟨_, rfl⟩
  · exact ⟨_, rfl⟩
  · exact ⟨_, rfl⟩
  · exact ⟨_, rfl⟩
  · exact ⟨_, rfl⟩
  · rw [scanUnits]
    simp only [hex4_hexEscape hn, if_true]
    exact ⟨_, rfl⟩

theorem refuses_escape {c : CodePoint} {p : List Char} (h : p <+: escape c) :
    Refuses (scanUnits p) := by
  rcases escape_cases c with ⟨e, he, hu, hunescape, _⟩ | ⟨d, hd, hquote, hslash, hcontrol, _⟩ |
    ⟨n, hn, he, _⟩ | ⟨n, hn, m, hm, he, _⟩
  · rw [he] at h
    rcases List.prefix_cons_iff.mp h with rfl | ⟨q, rfl, hq⟩
    · exact refuses_scanUnits_nil
    · rcases List.prefix_cons_iff.mp hq with rfl | ⟨r, rfl, hr⟩
      · exact ⟨_, rfl⟩
      · rw [scanUnits_short hu hunescape, List.prefix_nil.mp hr]
        exact refuses_scanUnits_nil.goesOn _
  · rw [hd] at h
    rcases List.prefix_cons_iff.mp h with rfl | ⟨q, rfl, hq⟩
    · exact refuses_scanUnits_nil
    · rw [scanUnits_printable hquote hslash hcontrol, List.prefix_nil.mp hq]
      exact refuses_scanUnits_nil.goesOn _
  · rw [he] at h
    exact refuses_hexEscape hn h
  · rw [he] at h
    rcases prefix_append_cases h with ⟨h, _⟩ | ⟨q, rfl, hq⟩
    · exact refuses_hexEscape hn h
    · by_cases hnil : q = []
      · rw [hnil, List.append_nil]
        exact refuses_hexEscape hn List.prefix_rfl
      · rw [scanUnits_hexEscape hn hnil]
        exact (refuses_hexEscape hm hq).goesOn _

/-- A string that is cut off has no closing quote. -/
theorem refuses_quoted {s : Text} {p : List Char} (h : p <+: s.flatMap escape ++ ['"'])
    (hne : p ≠ s.flatMap escape ++ ['"']) : Refuses (scanUnits p) := by
  induction s generalizing p with
  | nil =>
    rcases List.prefix_cons_iff.mp h with rfl | ⟨q, rfl, hq⟩
    · exact refuses_scanUnits_nil
    · exact absurd (congrArg ('"' :: ·) (List.prefix_nil.mp hq)) hne
  | cons c s ih =>
    rw [List.flatMap_cons, List.append_assoc] at h hne
    rcases prefix_append_cases h with ⟨h, _⟩ | ⟨q, rfl, hq⟩
    · exact refuses_escape h
    · by_cases hnil : q = []
      · rw [hnil, List.append_nil]
        exact refuses_escape List.prefix_rfl
      · rw [scanUnits_escape c hnil]
        exact (ih hq fun heq => hne (congrArg _ heq)).goesOn _

theorem joinSurrogates_pair {high low : CodePoint}
    (h : (0xd800 ≤ high.val ∧ high.val ≤ 0xdbff) ∧ (0xdc00 ≤ low.val ∧ low.val ≤ 0xdfff))
    (s : Text) : joinSurrogates (high :: low :: s) =
      codePoint (0x10000 + (high.val - 0xd800) * 0x400 + (low.val - 0xdc00)) ::
        joinSurrogates s := by
  rw [joinSurrogates, if_pos h]

theorem joinSurrogates_cons {c : CodePoint} {s : Text}
    (h : ∀ low ∈ s.head?, (0xd800 ≤ c.val ∧ c.val ≤ 0xdbff) →
      ¬(0xdc00 ≤ low.val ∧ low.val ≤ 0xdfff)) :
    joinSurrogates (c :: s) = c :: joinSurrogates s := by
  cases s with
  | nil => rfl
  | cons low s => rw [joinSurrogates, if_neg fun hpair => h low rfl hpair.1 hpair.2]

theorem units_of_lt {c : CodePoint} (h : c.val < 0x10000) : units c = [c] := if_pos h

/-- The two code units of a code point are joined again. -/
theorem joinSurrogates_units_append {c : CodePoint} (h : ¬c.val < 0x10000) (s : Text) :
    joinSurrogates (units c ++ s) = c :: joinSurrogates s := by
  have hbound := c.isLt
  have hhigh : 0xd800 + (c.val - 0x10000) / 0x400 < 0x110000 := by omega
  have hlow : 0xdc00 + (c.val - 0x10000) % 0x400 < 0x110000 := by omega
  rw [units, if_neg h, List.cons_append, List.singleton_append, joinSurrogates_pair]
  · simp only [codePoint_val, Nat.mod_eq_of_lt hhigh, Nat.mod_eq_of_lt hlow]
    have hsum : 0x10000 + (0xd800 + (c.val - 0x10000) / 0x400 - 0xd800) * 0x400 +
        (0xdc00 + (c.val - 0x10000) % 0x400 - 0xdc00) = c.val := by omega
    rw [hsum, codePoint_self]
  · simp only [codePoint_val, Nat.mod_eq_of_lt hhigh, Nat.mod_eq_of_lt hlow]
    omega

theorem head?_units (c : CodePoint) {d : CodePoint} (s : Text) (h : d ∈ (units c ++ s).head?) :
    d = c ∨ 0xd800 ≤ d.val ∧ d.val ≤ 0xdbff := by
  have hbound := c.isLt
  have hhigh : 0xd800 + (c.val - 0x10000) / 0x400 < 0x110000 := by omega
  by_cases hlt : c.val < 0x10000
  · rw [units_of_lt hlt] at h
    exact .inl (Option.some.inj h).symm
  · rw [units, if_neg hlt] at h
    obtain rfl := Option.some.inj h
    refine .inr ?_
    rw [codePoint_val, Nat.mod_eq_of_lt hhigh]
    omega

/-- An escaped code point is read as the code units that it is joined from. -/
theorem joinSurrogates_units (s : Text) : joinSurrogates (s.flatMap units) = joinSurrogates s := by
  fun_induction joinSurrogates s with
  | case1 high low s hpair ih =>
    rw [List.flatMap_cons, List.flatMap_cons, units_of_lt (by omega), units_of_lt (by omega)]
    exact (joinSurrogates_pair hpair _).trans (congrArg _ ih)
  | case2 high low s hpair ih =>
    rw [List.flatMap_cons]
    by_cases hlt : high.val < 0x10000
    · rw [units_of_lt hlt, List.singleton_append, joinSurrogates_cons, ih]
      intro d hd hhigh hlow
      rcases head?_units low _ hd with rfl | hd
      · exact hpair ⟨hhigh, hlow⟩
      · omega
    · rw [joinSurrogates_units_append hlt, ih]
  | case3 s hshort =>
    rcases s with _ | ⟨c, _ | ⟨d, s⟩⟩
    · rfl
    · rw [List.flatMap_cons, List.flatMap_nil]
      by_cases hlt : c.val < 0x10000
      · rw [units_of_lt hlt]
        rfl
      · rw [joinSurrogates_units_append hlt]
        rfl
    · exact absurd rfl (hshort _ _ _)

theorem scanString_quoted (s : Text) (rest : List Char) :
    scanString (s.flatMap escape ++ '"' :: rest) = .ok (joinSurrogates s, rest) := by
  rw [scanString, scanUnits_quoted]
  exact congrArg (fun s => Except.ok (s, rest)) (joinSurrogates_units s)

theorem refuses_scanString {s : Text} {p : List Char} (h : p <+: s.flatMap escape ++ ['"'])
    (hne : p ≠ s.flatMap escape ++ ['"']) : Refuses (scanString p) := by
  obtain ⟨msg, hscan⟩ := refuses_quoted h hne
  rw [scanString, hscan]
  exact ⟨msg, rfl⟩

/-! ## Scalars -/

section
variable {maxDigits depth : Nat}

/-- What a string or a container begins with. -/
def openers : List Char := ['"', '\x7b', '[']

theorem scanOnce_scalar {c : Char} (h : c ∉ openers) (cs : List Char) :
    scanOnce maxDigits depth (c :: cs) = scanScalar maxDigits (c :: cs) := by
  simp only [openers, List.mem_cons, List.not_mem_nil, or_false, not_or] at h
  cases depth with
  | zero => rw [scanOnce, if_neg h.1, if_neg h.2.1, if_neg h.2.2]
  | succ depth => rw [scanOnce, if_neg h.1, if_neg h.2.1, if_neg h.2.2]

/-- A printable ASCII character. -/
abbrev Printable (c : Char) : Prop := 0x20 ≤ c.toNat ∧ c.toNat < 0x80

def Ascii (cs : List Char) : Prop := ∀ c ∈ cs, Printable c

instance (cs : List Char) : Decidable (Ascii cs) := List.decidableBAll _ cs

/-- The characters of scalars. -/
def Plain (cs : List Char) : Prop :=
  ∀ c ∈ cs, Printable c ∧ c ∉ whitespace ∧ c ∉ delimiters ∧ c ∉ openers

instance (cs : List Char) : Decidable (Plain cs) := List.decidableBAll _ cs

theorem Plain.not_continues {cs rest : List Char} (h : Plain cs) (hrest : rest <:+ cs) :
    ¬Continues rest := by
  rintro ⟨c, hc, hmem⟩
  have hplain : ∀ d ∈ rest.head?, d ∉ whitespace ∧ d ∉ delimiters :=
    fun d hd => (h d (hrest.subset (List.mem_of_mem_head? hd))).2.imp_right And.left
  rw [skipWs_of_head fun d hd => (hplain d hd).1] at hc
  exact (hplain c hc).2 hmem

theorem length_whole_le {cs whole rest : List Char} (h : scanWhole cs = some (whole, rest)) :
    whole.length ≤ (takeDigits cs).length := by
  unfold scanWhole at h
  split at h
  · cases h
    exact Nat.succ_le_succ (Nat.zero_le _)
  · split at h
    · cases h
    · cases h
      exact Nat.le_refl _

theorem length_takeDigits_le {cs cs' : List Char} (h : cs <+: cs') :
    (takeDigits cs).length ≤ (takeDigits cs').length := by
  obtain ⟨t, rfl⟩ := h
  rw [takeDigits, takeDigits, List.takeWhile_append]
  split
  · rename_i heq
    rw [heq, List.length_append]
    exact Nat.le_add_right _ _
  · exact Nat.le_refl _

theorem scanMinus_of_prefixed {cs cs' : List Char} (h : cs <+: cs') :
    (scanMinus cs).2 <+: (scanMinus cs').2 := by
  cases cs with
  | nil => exact List.nil_prefix
  | cons c cs =>
    obtain ⟨t, rfl⟩ := h
    rw [List.cons_append, scanMinus.eq_def, scanMinus.eq_def]
    by_cases hc : c = '-'
    · subst hc
      exact List.prefix_append _ _
    · split
      · rename_i heq
        exact absurd (List.cons.inj heq).1 hc
      · split
        · rename_i heq
          exact absurd (List.cons.inj heq).1 hc
        · exact List.prefix_append (c :: cs) t

theorem misses_scanScalar {cs : List Char} (h : Plain cs)
    (hdigits : (takeDigits (scanMinus cs).2).length ≤ maxDigits) :
    Misses (scanScalar maxDigits cs) := by
  cases hscan : scanScalar maxDigits cs with
  | ok p =>
    obtain ⟨v, rest⟩ := p
    exact .inr ⟨v, rest, rfl, h.not_continues (scanScalar_suffix hscan).1⟩
  | error e =>
    refine .inl ?_
    unfold scanScalar at hscan
    split at hscan
    · cases hscan
    · split at hscan
      · cases hscan
        exact ⟨_, rfl⟩
      · rename_i n rest hnumber
        unfold scanNumber at hnumber
        simp only at hnumber
        split at hnumber
        · cases hnumber
        · rename_i whole cs' hwhole
          have hlength := Nat.le_trans (length_whole_le hwhole) hdigits
          cases hnumber
          unfold Number.value at hscan
          simp only [if_pos hlength] at hscan
          split at hscan <;> cases hscan

theorem refuses_scanOnce_nil : Refuses (scanOnce maxDigits depth []) :=
  ⟨_, by rw [scanOnce]; rfl⟩

/-- Nothing was printed. -/
theorem reads_failed {e : Error} {v : Value} :
    Reads (scanOnce maxDigits depth) ⟨[], some e⟩ v := by
  refine ⟨fun h => (nomatch h), fun p hp => .inl ?_, fun h => (nomatch h), fun c hc => nomatch hc⟩
  rw [List.prefix_nil.mp hp.1]
  exact refuses_scanOnce_nil

theorem reads_scalar {text : List Char} {v : Value} (hplain : Plain text) (hne : text ≠ [])
    (hdigits : (takeDigits (scanMinus text).2).length ≤ maxDigits)
    (hwhole : ∀ rest, Delimited rest → scanScalar maxDigits (text ++ rest) = .ok (v, rest)) :
    Reads (scanOnce maxDigits depth) ⟨text, none⟩ v := by
  refine ⟨fun _ rest hrest => ?_, fun p hp => ?_, fun _ => hne, fun c hc => ?_⟩
  · obtain ⟨c, cs, rfl⟩ := List.exists_cons_of_ne_nil hne
    rw [List.cons_append, scanOnce_scalar (hplain c List.mem_cons_self).2.2.2]
    exact hwhole rest hrest
  · have hplain' : Plain p := fun c hc => hplain c (hp.1.subset hc)
    cases p with
    | nil => exact .inl refuses_scanOnce_nil
    | cons c cs =>
      rw [scanOnce_scalar (hplain' c List.mem_cons_self).2.2.2]
      exact misses_scanScalar hplain'
        (Nat.le_trans (length_takeDigits_le (scanMinus_of_prefixed hp.1)) hdigits)
  · obtain ⟨_, hblank, hdelimiter, _⟩ := hplain c (List.mem_of_mem_head? hc)
    exact ⟨hblank, hdelimiter⟩

theorem reads_constant {text : List Char} {v : Value} (h : (text, v) ∈ constants) :
    Reads (scanOnce maxDigits depth) ⟨text, none⟩ v := by
  have hall : ∀ entry ∈ constants, Plain entry.1 ∧ entry.1 ≠ [] ∧
      takeDigits (scanMinus entry.1).2 = [] := by decide
  obtain ⟨hplain, hne, hdigits⟩ := hall _ h
  refine reads_scalar hplain hne (hdigits ▸ Nat.zero_le _) fun rest _ => ?_
  simp only [constants, List.mem_cons, List.not_mem_nil, or_false, Prod.mk.injEq] at h
  rcases h with ⟨rfl, rfl⟩ | ⟨rfl, rfl⟩ | ⟨rfl, rfl⟩ | ⟨rfl, rfl⟩ | ⟨rfl, rfl⟩ | ⟨rfl, rfl⟩
  · rfl
  · rfl
  · rfl
  · rfl
  · rfl
  · rfl

/-! ## Numbers -/

/-- The digits before the point are those of a number. -/
def WholeDigits (whole : List Char) : Prop :=
  whole = ['0'] ∨ whole ≠ [] ∧ whole.head? ≠ some '0' ∧ ∀ c ∈ whole, c.isDigit

structure Number.WellFormed (n : Number) : Prop where
  whole : WholeDigits n.whole
  frac : ∀ c ∈ n.frac, c.isDigit
  exp : n.exp = [] ∨ ∃ letter sign digits, n.exp = letter :: (sign ++ digits) ∧
    (letter = 'e' ∨ letter = 'E') ∧ sign ∈ [[], ['+'], ['-']] ∧ digits ≠ [] ∧
    ∀ c ∈ digits, c.isDigit

/-- What is left does not begin with a digit. -/
def NoDigit (cs : List Char) : Prop := ∀ c ∈ cs.head?, ¬c.isDigit

theorem takeDigits_append {ds rest : List Char} (h : ∀ c ∈ ds, c.isDigit) (hrest : NoDigit rest) :
    takeDigits (ds ++ rest) = ds ∧ dropDigits (ds ++ rest) = rest := by
  have htake : rest.takeWhile Char.isDigit = [] ∧ rest.dropWhile Char.isDigit = rest := by
    cases rest with
    | nil => exact ⟨rfl, rfl⟩
    | cons c cs =>
      have hc : ¬c.isDigit := hrest c rfl
      exact ⟨List.takeWhile_cons_of_neg hc, List.dropWhile_cons_of_neg hc⟩
  constructor
  · rw [takeDigits, List.takeWhile_append_of_pos h, htake.1, List.append_nil]
  · rw [dropDigits, List.dropWhile_append_of_pos h, htake.2]

theorem scanWhole_append {whole rest : List Char} (h : WholeDigits whole) (hrest : NoDigit rest) :
    scanWhole (whole ++ rest) = some (whole, rest) := by
  rcases h with rfl | ⟨hne, hzero, hdigits⟩
  · rfl
  · obtain ⟨htake, hdrop⟩ := takeDigits_append hdigits hrest
    unfold scanWhole
    split
    · rename_i cs heq
      have hhead := congrArg List.head? heq
      rw [List.head?_append_of_ne_nil _ hne] at hhead
      exact absurd hhead hzero
    · rw [htake, hdrop, if_neg hne]

/-- The point with the digits after it. -/
def Number.fracText (n : Number) : List Char := if n.frac = [] then [] else '.' :: n.frac

theorem scanFrac_append {n : Number} {rest : List Char} (h : ∀ c ∈ n.frac, c.isDigit)
    (hrest : NoDigit rest) (hpoint : rest.head? ≠ some '.') :
    scanFrac (n.fracText ++ rest) = (n.frac, rest) := by
  unfold Number.fracText
  split
  · rename_i hnil
    rw [hnil, List.nil_append]
    unfold scanFrac
    split
    · exact absurd rfl hpoint
    · rfl
  · rename_i hne
    obtain ⟨htake, hdrop⟩ := takeDigits_append h hrest
    rw [List.cons_append, scanFrac, htake, hdrop, if_neg hne]

theorem scanSign_append {sign digits rest : List Char} (h : sign ∈ [[], ['+'], ['-']])
    (hne : digits ≠ []) (hdigits : ∀ c ∈ digits, c.isDigit) :
    scanSign (sign ++ digits ++ rest) = (sign, digits ++ rest) := by
  simp only [List.mem_cons, List.not_mem_nil, or_false] at h
  rcases h with rfl | rfl | rfl
  · obtain ⟨c, cs, rfl⟩ := List.exists_cons_of_ne_nil hne
    have hc : c.isDigit := hdigits c List.mem_cons_self
    rw [List.nil_append, List.cons_append]
    unfold scanSign
    split
    · rename_i heq
      cases heq
      cases hc
    · rename_i heq
      cases heq
      cases hc
    · rfl
  · rfl
  · rfl

theorem scanExp_append {n : Number} (h : n.WellFormed) {rest : List Char} (hrest : NoDigit rest)
    (hletter : ∀ c ∈ rest.head?, c ≠ 'e' ∧ c ≠ 'E') :
    scanExp (n.exp ++ rest) = (n.exp, rest) := by
  rcases h.exp with hexp | ⟨letter, sign, digits, hexp, hc, hsign, hne, hdigits⟩
  · rw [hexp, List.nil_append]
    cases rest with
    | nil => rfl
    | cons c cs =>
      obtain ⟨he, hE⟩ := hletter c rfl
      exact if_neg fun hc => hc.1.elim he hE
  · obtain ⟨htake, hdrop⟩ := takeDigits_append hdigits hrest
    rw [hexp, List.cons_append, scanExp]
    simp only [scanSign_append hsign hne hdigits, htake, hdrop]
    exact if_pos ⟨hc, hne⟩

theorem not_isDigit_of_mem :
    ∀ c ∈ delimiters, ¬c.isDigit ∧ c ≠ '.' ∧ c ≠ 'e' ∧ c ≠ 'E' :=
  forall_of_all (by decide)

theorem mem_head?_exp {n : Number} (h : n.WellFormed) {c : Char} {rest : List Char}
    (hc : c ∈ (n.exp ++ rest).head?) : c = 'e' ∨ c = 'E' ∨ c ∈ rest.head? := by
  rcases h.exp with hexp | ⟨letter, sign, digits, hexp, hletter, _⟩
  · rw [hexp] at hc
    exact .inr (.inr hc)
  · rw [hexp] at hc
    obtain rfl := Option.some.inj hc
    exact hletter.elim .inl fun h => .inr (.inl h)

theorem mem_head?_frac {n : Number} {c : Char} {rest : List Char}
    (hc : c ∈ (n.fracText ++ rest).head?) : c = '.' ∨ c ∈ rest.head? := by
  unfold Number.fracText at hc
  split at hc
  · exact .inr hc
  · exact .inl (Option.some.inj hc).symm

theorem Number.text_eq (n : Number) :
    n.text = (if n.negative then ['-'] else []) ++ (n.whole ++ (n.fracText ++ n.exp)) := by
  simp only [Number.text, Number.fracText, List.append_assoc]

theorem WholeDigits.isDigit {whole : List Char} (h : WholeDigits whole) :
    whole ≠ [] ∧ ∀ c ∈ whole, c.isDigit := by
  rcases h with rfl | ⟨hne, _, hdigits⟩
  · refine ⟨List.cons_ne_nil _ _, fun c hc => ?_⟩
    rw [List.mem_singleton.mp hc]
    decide
  · exact ⟨hne, hdigits⟩

theorem scanMinus_digit {cs : List Char} (h : ∃ c ∈ cs.head?, c.isDigit) :
    scanMinus cs = (false, cs) := by
  unfold scanMinus
  split
  · obtain ⟨c, hc, hdigit⟩ := h
    obtain rfl := Option.some.inj hc
    cases hdigit
  · rfl

theorem scanMinus_text {n : Number} (h : n.WellFormed) (rest : List Char) :
    scanMinus (n.text ++ rest) = (n.negative, n.whole ++ (n.fracText ++ (n.exp ++ rest))) := by
  obtain ⟨hne, hdigits⟩ := h.whole.isDigit
  rw [Number.text_eq, List.append_assoc, List.append_assoc, List.append_assoc]
  cases n.negative with
  | true => rfl
  | false =>
    refine scanMinus_digit ?_
    obtain ⟨c, cs, hcs⟩ := List.exists_cons_of_ne_nil hne
    rw [hcs] at hdigits ⊢
    exact ⟨c, rfl, hdigits c List.mem_cons_self⟩

theorem scanNumber_text {n : Number} (h : n.WellFormed) {rest : List Char}
    (hrest : Delimited rest) : scanNumber (n.text ++ rest) = some (n, rest) := by
  have hend : ∀ c ∈ rest.head?, ¬c.isDigit ∧ c ≠ '.' ∧ c ≠ 'e' ∧ c ≠ 'E' :=
    fun c hc => not_isDigit_of_mem c (hrest c hc)
  have hexp : ∀ c ∈ (n.exp ++ rest).head?, ¬c.isDigit ∧ c ≠ '.' := by
    intro c hc
    rcases mem_head?_exp h hc with rfl | rfl | hc
    · decide
    · decide
    · exact ⟨(hend c hc).1, (hend c hc).2.1⟩
  have hfrac : NoDigit (n.fracText ++ (n.exp ++ rest)) := by
    intro c hc
    rcases mem_head?_frac hc with rfl | hc
    · decide
    · exact (hexp c hc).1
  rw [scanNumber]
  simp only [scanMinus_text h rest, scanWhole_append h.whole hfrac,
    scanFrac_append h.frac (fun c hc => (hexp c hc).1) (fun hc => (hexp _ hc).2 rfl),
    scanExp_append h (fun c hc => (hend c hc).1) (fun c hc => (hend c hc).2.2)]

theorem constants_find_eq_none {cs : List Char} (h : ∃ c ∈ (scanMinus cs).2.head?, c.isDigit) :
    constants.find? (·.1.isPrefixOf cs) = none := by
  have hall : ∀ entry ∈ constants, (scanMinus entry.1).2.head?.any (! ·.isDigit) = true := by
    decide
  rw [List.find?_eq_none]
  intro entry hentry hstart
  obtain ⟨c, hc, hdigit⟩ := h
  obtain ⟨d, hd, hd'⟩ := (Option.any_eq_true _ _).mp (hall entry hentry)
  have hcd := head?_of_prefixed (scanMinus_of_prefixed (List.isPrefixOf_iff_prefix.mp hstart)) hd
  obtain rfl : c = d := Option.some.inj (hc.symm.trans hcd)
  rw [hdigit] at hd'
  cases hd'

theorem plain_of_isDigit {c : Char} (h : c.isDigit) :
    Printable c ∧ c ∉ whitespace ∧ c ∉ delimiters ∧ c ∉ openers := by
  have hall : ∀ d ∈ whitespace ++ delimiters ++ openers, ¬d.isDigit :=
    forall_of_all (by decide)
  obtain ⟨hge, hle⟩ : 48 ≤ c.toNat ∧ c.toNat ≤ 57 := Char.isDigit_iff_toNat.mp h
  refine ⟨⟨by omega, by omega⟩, fun hc => ?_, fun hc => ?_, fun hc => ?_⟩
  · exact hall c (by simp [hc]) h
  · exact hall c (by simp [hc]) h
  · exact hall c (by simp [hc]) h

theorem Number.WellFormed.plain {n : Number} (h : n.WellFormed) : Plain n.text := by
  have hchar : ∀ c ∈ ['-', '+', '.', 'e', 'E'],
      Printable c ∧ c ∉ whitespace ∧ c ∉ delimiters ∧ c ∉ openers :=
    forall_of_all (by decide)
  intro c hc
  rw [Number.text_eq] at hc
  rcases List.mem_append.mp hc with hc | hc
  · split at hc
    · exact hchar c (by simp_all)
    · cases hc
  rcases List.mem_append.mp hc with hc | hc
  · exact plain_of_isDigit (h.whole.isDigit.2 c hc)
  rcases List.mem_append.mp hc with hc | hc
  · unfold Number.fracText at hc
    split at hc
    · cases hc
    · rcases List.mem_cons.mp hc with rfl | hc
      · exact hchar _ (by decide)
      · exact plain_of_isDigit (h.frac c hc)
  · rcases h.exp with hexp | ⟨letter, sign, digits, hexp, hletter, hsign, _, hdigits⟩
    · rw [hexp] at hc
      cases hc
    · rw [hexp, List.mem_cons, List.mem_append] at hc
      rcases hc with rfl | hc | hc
      · rcases hletter with rfl | rfl
        · exact hchar _ (by decide)
        · exact hchar _ (by decide)
      · have hall : ∀ sign ∈ [[], ['+'], ['-']], sign ⊆ ['-', '+', '.', 'e', 'E'] :=
          forall_of_all (by decide)
        exact hchar c (hall sign hsign hc)
      · exact plain_of_isDigit (hdigits c hc)

theorem reads_number {n : Number} {v : Value} (h : n.WellFormed) (hv : n.value maxDigits = .ok v)
    (hlength : n.whole.length ≤ maxDigits) :
    Reads (scanOnce maxDigits depth) ⟨n.text, none⟩ v := by
  obtain ⟨hne, hdigits⟩ := h.whole.isDigit
  obtain ⟨d, ds, hcs⟩ := List.exists_cons_of_ne_nil hne
  refine reads_scalar h.plain ?_ ?_ fun rest hrest => ?_
  · intro hnil
    rw [Number.text_eq, hcs] at hnil
    simp at hnil
  · have hminus := scanMinus_text h []
    rw [List.append_nil, List.append_nil] at hminus
    have hfrac : NoDigit (n.fracText ++ n.exp) := by
      intro c hc
      rcases mem_head?_frac hc with rfl | hc
      · decide
      · rw [← List.append_nil n.exp] at hc
        rcases mem_head?_exp h hc with rfl | rfl | hc
        · decide
        · decide
        · cases hc
    rw [hminus, (takeDigits_append hdigits hfrac).1]
    exact hlength
  · have hfirst : ∃ c ∈ (scanMinus (n.text ++ rest)).2.head?, c.isDigit := by
      rw [scanMinus_text h rest]
      rw [hcs] at hdigits ⊢
      exact ⟨d, rfl, hdigits d List.mem_cons_self⟩
    rw [scanScalar, constants_find_eq_none hfirst, scanNumber_text h hrest]
    simp only [hv]
    rfl

theorem head?_toDigits {n : Nat} (h : 0 < n) : (Nat.toDigits 10 n).head? ≠ some '0' := by
  induction n using Nat.strongRecOn with
  | ind n ih =>
    by_cases hn : n < 10
    · rw [Nat.toDigits_of_lt_base hn, List.head?_cons]
      have hdigit : ∀ d < 10, 0 < d → d.digitChar ≠ '0' := by decide
      exact fun heq => hdigit n hn h (Option.some.inj heq)
    · have hdigits := Nat.toDigits_of_base_le (b := 10) (by omega) (Nat.le_of_not_lt hn)
      have hne : Nat.toDigits 10 (n / 10) ≠ [] := Nat.toDigits_ne_nil
      obtain ⟨c, cs, hcs⟩ := List.exists_cons_of_ne_nil hne
      have hhead := ih (n / 10) (by omega) (by omega)
      rw [hcs] at hdigits hhead
      rw [hdigits]
      exact hhead

theorem wholeDigits_toDigits (n : Nat) : WholeDigits (Nat.toDigits 10 n) := by
  rcases Nat.eq_zero_or_pos n with rfl | hpos
  · exact .inl rfl
  · exact .inr ⟨Nat.toDigits_ne_nil, head?_toDigits hpos,
      fun c hc => Nat.isDigit_of_mem_toDigits (by omega) (by omega) hc⟩

/-- An integer as a number without a point and an exponent. -/
def intNumber (i : Int) : Number := ⟨i < 0, Nat.toDigits 10 i.natAbs, [], []⟩

theorem intNumber_toInt (i : Int) : (intNumber i).toInt = i := by
  rw [Number.toInt, intNumber, Nat.ofDigitChars_ten_toDigits]
  by_cases hneg : i < 0
  · rw [if_pos (decide_eq_true hneg)]
    omega
  · rw [if_neg (by simpa using hneg)]
    omega

theorem intNumber_wellFormed (i : Int) : (intNumber i).WellFormed :=
  ⟨wholeDigits_toDigits _, fun _ hc => absurd hc List.not_mem_nil, .inl rfl⟩

theorem printInt_eq (i : Int) : printInt maxDigits i =
    if (intNumber i).whole.length ≤ maxDigits then ⟨(intNumber i).text, none⟩
    else ⟨[], some .digits⟩ := by
  have htext : (intNumber i).text =
      if i < 0 then '-' :: Nat.toDigits 10 i.natAbs else Nat.toDigits 10 i.natAbs := by
    simp only [Number.text_eq, intNumber, Number.fracText, if_true, List.append_nil,
      decide_eq_true_eq]
    split <;> rfl
  rw [htext]
  rfl

theorem reads_printInt (i : Int) :
    Reads (scanOnce maxDigits depth) (printInt maxDigits i) (.int i) := by
  rw [printInt_eq]
  split
  · rename_i hlength
    have hvalue : (intNumber i).value maxDigits = .ok (.int i) :=
      (if_pos hlength).trans (congrArg _ (congrArg _ (intNumber_toInt i)))
    exact reads_number (intNumber_wellFormed i) hvalue hlength
  · exact reads_failed

end
end FastGeoApi.Json
