import FastGeoApi.Asgi

/-!
# ASCII in bytes

Text in any letter case, looked for in bytes and in the string that they are the UTF-8 encoding of.
-/

namespace FastGeoApi

def lowerByte (b : UInt8) : UInt8 := if 65 ≤ b ∧ b ≤ 90 then b + 32 else b

/-- The bytes, with the ASCII letters in lower case. -/
def lowerBytes (b : ByteArray) : List UInt8 := b.data.toList.map lowerByte

/-- The bytes of an ASCII text. -/
def ascii (s : String) : List UInt8 := s.toList.map fun c => c.val.toUInt8

/-- `s.lower()`, on the ASCII letters. Python maps some other letters too, and none of them to an
ASCII letter of the texts that are looked for here. -/
def lower (s : String) : List Char := s.toList.map Char.toLower

theorem data_toByteArray {s : String} :
    s.toByteArray.data.toList = s.toList.flatMap String.utf8EncodeChar := by
  rw [← String.utf8Encode_toList, List.utf8Encode, List.toList_data_toByteArray]

/-- An ASCII character is one byte; every other one begins with a byte from 128 on. -/
theorem utf8EncodeChar_cases (c : Char) :
    (c.val.toNat < 128 ∧ String.utf8EncodeChar c = [c.val.toUInt8]) ∨
      (128 ≤ c.val.toNat ∧ ∃ b rest, String.utf8EncodeChar c = b :: rest ∧ 128 ≤ b.toNat) := by
  unfold String.utf8EncodeChar
  simp only
  split
  · rename_i h
    exact .inl ⟨Nat.lt_succ_of_le h, rfl⟩
  · rename_i h
    refine .inr ⟨Nat.lt_of_not_le h, ?_⟩
    split
    · refine ⟨_, _, rfl, ?_⟩
      rw [UInt8.toNat_ofNat']
      omega
    · split
      · refine ⟨_, _, rfl, ?_⟩
        rw [UInt8.toNat_ofNat']
        omega
      · refine ⟨_, _, rfl, ?_⟩
        rw [UInt8.toNat_ofNat']
        omega

theorem lowerByte_of_le {b : UInt8} (h : 128 ≤ b.toNat) : lowerByte b = b := by
  rw [lowerByte, if_neg]
  rw [UInt8.le_iff_toNat_le, UInt8.le_iff_toNat_le]
  intro h'
  have : (90 : UInt8).toNat = 90 := rfl
  omega

theorem toLower_of_le {c : Char} (h : 128 ≤ c.val.toNat) : c.toLower = c := by
  apply dif_neg
  intro h'
  have : c.val.toNat ≤ 90 := UInt32.le_iff_toNat_le.mp h'.2
  omega

/-- The two ways of mapping ASCII letters agree. -/
theorem toUInt8_toLower {c : Char} (h : c.val.toNat < 128) :
    c.toLower.val.toUInt8 = lowerByte c.val.toUInt8 := by
  have hall : ∀ n, n < 128 →
      (Char.ofNat n).toLower.val.toUInt8 = lowerByte (Char.ofNat n).val.toUInt8 := by decide
  have hc := hall c.toNat h
  rwa [Char.ofNat_toNat] at hc

theorem toLower_lt {c : Char} (h : c.val.toNat < 128) : c.toLower.val.toNat < 128 := by
  have hall : ∀ n, n < 128 → (Char.ofNat n).toLower.val.toNat < 128 := by decide
  have hc := hall c.toNat h
  rwa [Char.ofNat_toNat] at hc

theorem toLower_eq_space {c : Char} (h : c.toLower = ' ') : c = ' ' := by
  by_cases hc : c.val.toNat < 128
  · have hall : ∀ n, n < 128 → (Char.ofNat n).toLower = ' ' → Char.ofNat n = ' ' := by decide
    have hspace := hall c.toNat hc
    rw [Char.ofNat_toNat] at hspace
    exact hspace h
  · rwa [toLower_of_le (Nat.le_of_not_lt hc)] at h

theorem toUInt8_inj {c d : Char} (hc : c.val.toNat < 128) (hd : d.val.toNat < 128) :
    c.val.toUInt8 = d.val.toUInt8 ↔ c = d := by
  refine ⟨fun h => ?_, fun h => by rw [h]⟩
  have hnat : c.val.toNat % 256 = d.val.toNat % 256 := congrArg UInt8.toNat h
  apply Char.ext
  apply UInt32.toNat_inj.mp
  omega

/-- An ASCII text in lower case is at the start of a string, in any letter case, when its bytes are
at the start of the string's. -/
theorem prefix_lower_iff {text cs : List Char} (htext : ∀ c ∈ text, c.val.toNat < 128) :
    text <+: cs.map Char.toLower ↔
      text.map (fun c => c.val.toUInt8) <+: (cs.flatMap String.utf8EncodeChar).map lowerByte := by
  induction text generalizing cs with
  | nil => simp
  | cons t text ih =>
    have ht := htext t List.mem_cons_self
    cases cs with
    | nil => simp
    | cons c cs =>
      rw [List.map_cons, List.map_cons, List.flatMap_cons, List.map_append, List.cons_prefix_cons]
      rcases utf8EncodeChar_cases c with ⟨hc, hbytes⟩ | ⟨hc, b, rest, hbytes, hb⟩
      · have hlower : c.toLower.val.toNat < 128 := toLower_lt hc
        rw [hbytes, List.map_singleton, List.singleton_append, List.cons_prefix_cons,
          ih fun d hd => htext d (List.mem_cons_of_mem _ hd), ← toUInt8_toLower hc,
          toUInt8_inj ht hlower]
      · rw [hbytes, List.map_cons, List.cons_append, List.cons_prefix_cons, lowerByte_of_le hb,
          toLower_of_le hc]
        refine iff_of_false (fun h => ?_) fun h => ?_
        · rw [h.1] at ht
          omega
        · have hnat : t.val.toNat % 256 = b.toNat := congrArg UInt8.toNat h.1
          omega

/-- The same of bytes and the string that they decode to. -/
theorem ascii_prefix_iff {text s : String} {b : ByteArray}
    (htext : ∀ c ∈ text.toList, c.val.toNat < 128) (hs : decodeUtf8 b = .ok s) :
    text.toList.isPrefixOf (lower s) = true ↔ ascii text <+: lowerBytes b := by
  rw [List.isPrefixOf_iff_prefix, lower, prefix_lower_iff htext, ascii, lowerBytes,
    ← decodeUtf8_eq_ok.mp hs, data_toByteArray]

end FastGeoApi
