/-!
# UTF-8

Texts as bytes. A text that occurs in the bytes of a text is there as a part of it, and what stands
in front of it and behind it is text again.
-/

namespace FastGeoApi

def utf8 (text : List Char) : ByteArray := (String.ofList text).toByteArray

variable {xs ys text : List Char} {before after : ByteArray}

theorem utf8_inj : utf8 xs = utf8 ys ↔ xs = ys := by
  rw [utf8, utf8, String.toByteArray_inj, String.ofList_inj]

theorem utf8_append : utf8 (xs ++ ys) = utf8 xs ++ utf8 ys := by
  rw [utf8, String.ofList_append, String.toByteArray_append]
  rfl

theorem exists_utf8 {b : ByteArray} (h : b.IsValidUTF8) : ∃ xs, b = utf8 xs :=
  ⟨(String.ofByteArray b h).toList, by rw [utf8, String.ofList_toList]⟩

theorem utf8_size_pos (h : xs ≠ []) : 0 < (utf8 xs).size := by
  apply Nat.pos_of_ne_zero
  intro hsize
  have hempty : utf8 xs = utf8 [] := ByteArray.size_eq_zero_iff.mp hsize
  exact h (utf8_inj.mp hempty)

/-- A text that is a part of a text stands between two texts. -/
theorem isValidUTF8_around {middle : ByteArray}
    (h : (before ++ (middle ++ after)).IsValidUTF8) (hmiddle : middle.IsValidUTF8)
    (hne : 0 < middle.size) : before.IsValidUTF8 ∧ after.IsValidUTF8 := by
  let s : String := String.ofByteArray (before ++ (middle ++ after)) h
  have hbytes : s.toByteArray = before ++ (middle ++ after) := rfl
  have hend : s.rawEndPos.byteIdx = before.size + (middle.size + after.size) := by
    rw [String.byteIdx_rawEndPos, ← String.size_toByteArray, hbytes, ByteArray.size_append,
      ByteArray.size_append]
  have hextract : s.toByteArray.extract before.size (before.size + middle.size) = middle := by
    have hshift : (before ++ (middle ++ after)).extract (before.size + 0)
        (before.size + middle.size) = (middle ++ after).extract 0 middle.size :=
      ByteArray.extract_append_size_add
    rw [Nat.add_zero, ByteArray.extract_append_eq_left rfl] at hshift
    rw [hbytes, hshift]
  have hle : (⟨before.size + middle.size⟩ : String.Pos.Raw) ≤ s.rawEndPos := by
    rw [String.Pos.Raw.le_iff, hend]
    exact Nat.add_le_add_left (Nat.le_add_right _ _) _
  rw [← hextract, String.Pos.Raw.isValidUTF8_extract_iff ⟨before.size⟩ ⟨before.size + middle.size⟩
    (Nat.le_add_right _ _) hle] at hmiddle
  rcases hmiddle with hsame | ⟨hbegin, hfinish⟩
  · have hsize := congrArg String.Pos.Raw.byteIdx hsame
    simp only at hsize
    omega
  · refine ⟨?_, ?_⟩
    · have hvalid := hbegin.isValidUTF8_extract_zero
      rwa [hbytes, ByteArray.extract_append_eq_left rfl] at hvalid
    · have hvalid := hfinish.isValidUTF8_extract_utf8ByteSize
      rwa [← String.byteIdx_rawEndPos, hend, hbytes, ByteArray.extract_append_size_add' rfl,
        ByteArray.extract_append_eq_right rfl rfl] at hvalid

theorem utf8_split (h : utf8 text = before ++ utf8 xs ++ after) (hne : xs ≠ []) :
    ∃ front back, before = utf8 front ∧ after = utf8 back ∧ text = front ++ xs ++ back := by
  have hvalid : (before ++ (utf8 xs ++ after)).IsValidUTF8 := by
    rw [← ByteArray.append_assoc, ← h]
    exact String.isValidUTF8 _
  obtain ⟨hbefore, hafter⟩ := isValidUTF8_around hvalid (String.isValidUTF8 _) (utf8_size_pos hne)
  obtain ⟨front, rfl⟩ := exists_utf8 hbefore
  obtain ⟨back, rfl⟩ := exists_utf8 hafter
  rw [← utf8_append, ← utf8_append, utf8_inj] at h
  exact ⟨front, back, rfl, rfl, h⟩

theorem utf8_begins_iff {P : Char → Prop} :
    (∀ front c, utf8 xs = front ++ utf8 [c] → P c) ↔ ∀ c ∈ xs.getLast?, P c := by
  refine ⟨fun h c hc => ?_, fun h front c heq => ?_⟩
  · obtain ⟨front, rfl⟩ := List.getLast?_eq_some_iff.mp hc
    exact h (utf8 front) c utf8_append
  · rw [← ByteArray.append_empty (b := front ++ utf8 [c])] at heq
    obtain ⟨init, back, -, hback, rfl⟩ := utf8_split heq (List.cons_ne_nil c [])
    have hnil : [] = back := utf8_inj.mp hback
    rw [← hnil, List.append_nil] at h
    exact h c List.getLast?_concat

theorem utf8_ends_iff {P : Char → Prop} :
    (∀ c back, utf8 xs = utf8 [c] ++ back → P c) ↔ ∀ c ∈ xs.head?, P c := by
  refine ⟨fun h c hc => ?_, fun h c back heq => ?_⟩
  · obtain ⟨back, rfl⟩ := List.head?_eq_some_iff.mp hc
    have happ : utf8 ([c] ++ back) = utf8 [c] ++ utf8 back := utf8_append
    exact h c (utf8 back) happ
  · rw [← ByteArray.empty_append (b := utf8 [c])] at heq
    obtain ⟨front, rest, hfront, -, rfl⟩ := utf8_split heq (List.cons_ne_nil c [])
    have hnil : [] = front := utf8_inj.mp hfront
    rw [← hnil] at h
    exact h c rfl

end FastGeoApi
