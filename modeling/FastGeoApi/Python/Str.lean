import FastGeoApi.Lib.Substitution
import Mathlib.Data.List.DropRight
import Mathlib.Data.List.Induction
import Mathlib.Data.List.Infix

/-!
# Python string operations

The `str` methods that the code uses, on the list of characters of a string.
-/

namespace FastGeoApi.Str

/-- `s.startswith(p)`. -/
def startsWith (s p : String) : Bool := p.toList.isPrefixOf s.toList

/-- `s.endswith(p)`. -/
def endsWith (s p : String) : Bool := p.toList.isSuffixOf s.toList

theorem startsWith_iff {s p : String} : startsWith s p = true ↔ p.toList <+: s.toList :=
  List.isPrefixOf_iff_prefix

theorem endsWith_iff {s p : String} : endsWith s p = true ↔ p.toList <:+ s.toList :=
  List.isSuffixOf_iff_suffix

/-- `p in s`. -/
def isIn (p s : String) : Bool := s.toList.tails.any (p.toList.isPrefixOf ·)

theorem isIn_iff {p s : String} : isIn p s = true ↔ p.toList <:+: s.toList := by
  rw [isIn, List.any_eq_true, List.infix_iff_prefix_suffix]
  refine exists_congr fun t => ?_
  rw [List.mem_tails, List.isPrefixOf_iff_prefix, and_comm]

/-- `s.replace(old, new)`. -/
def replace (s old new : String) : String :=
  String.ofList (Substitution.replaceAll old.toList new.toList s.toList)

/-- Split at the first occurrence of a character. -/
def splitFirst (c : Char) (cs : List Char) : Option (List Char × List Char) :=
  if c ∈ cs then some (cs.takeWhile (· ≠ c), (cs.dropWhile (· ≠ c)).drop 1) else none

/-- `cs.split(c)`. -/
def split (c : Char) : List Char → List (List Char)
  | [] => [[]]
  | x :: xs =>
    if x = c then [] :: split c xs
    else match split c xs with
      | [] => [[x]]
      | part :: parts => (x :: part) :: parts

theorem split_cons_self {c : Char} {cs : List Char} : split c (c :: cs) = [] :: split c cs := by
  rw [split, if_pos rfl]

theorem split_append {c : Char} {part cs : List Char} (h : c ∉ part) {first : List Char}
    {rest : List (List Char)} (hcs : split c cs = first :: rest) :
    split c (part ++ cs) = (part ++ first) :: rest := by
  induction part with
  | nil => exact hcs
  | cons x part ih =>
    rw [List.mem_cons, not_or] at h
    rw [List.cons_append, split, if_neg (Ne.symm h.1), ih h.2, List.cons_append]

/-- Parts without the separator come back from a text in which it stands before each of them. -/
theorem split_flatMap {c : Char} {parts : List (List Char)} (h : ∀ part ∈ parts, c ∉ part) :
    split c (parts.flatMap (c :: ·)) = [] :: parts := by
  induction parts with
  | nil => rfl
  | cons part parts ih =>
    have hrest := ih fun part' hpart' => h part' (List.mem_cons_of_mem _ hpart')
    rw [List.flatMap_cons, List.cons_append, split_cons_self,
      split_append (h part List.mem_cons_self) hrest, List.append_nil]

theorem split_ne_nil (c : Char) (cs : List Char) : split c cs ≠ [] := by
  cases cs with
  | nil => exact List.cons_ne_nil _ _
  | cons x cs =>
    rw [split]
    split
    · exact List.cons_ne_nil _ _
    · split <;> exact List.cons_ne_nil _ _

theorem split_concat_self {c : Char} {cs : List Char} :
    split c (cs ++ [c]) = split c cs ++ [[]] := by
  induction cs with
  | nil => rw [List.nil_append, split_cons_self, split, List.singleton_append]
  | cons x cs ih =>
    rw [List.cons_append, split, split, ih]
    split
    · rfl
    · obtain ⟨first, rest, hcs⟩ := List.exists_cons_of_ne_nil (split_ne_nil c cs)
      rw [hcs]
      rfl

/-- `cs.rstrip(c)`. -/
def rstrip (c : Char) (cs : List Char) : List Char := cs.rdropWhile (· = c)

section
variable {c : Char} {cs cs' : List Char}

theorem ne_of_mem_getLast?_rstrip {x : Char} (h : x ∈ (rstrip c cs).getLast?) : x ≠ c := by
  have hne : rstrip c cs ≠ [] := by
    intro hnil
    rw [hnil] at h
    cases h
  have hlast : (rstrip c cs).getLast hne = x := by
    rw [Option.mem_def, List.getLast?_eq_some_getLast hne] at h
    exact Option.some.inj h
  rintro rfl
  exact List.rdropWhile_last_not (· = x) cs hne (decide_eq_true hlast)

theorem rstrip_append_of_all (h : ∀ x ∈ cs', x = c) : rstrip c (cs ++ cs') = rstrip c cs := by
  have hnil : cs'.reverse.dropWhile (· = c) = [] :=
    List.dropWhile_eq_nil_iff.mpr fun x hx => decide_eq_true (h x (List.mem_reverse.mp hx))
  rw [rstrip, List.rdropWhile, List.reverse_append, List.dropWhile_append, hnil]
  rfl

theorem rstrip_append_of_exists (h : ∃ x ∈ cs', x ≠ c) :
    rstrip c (cs ++ cs') = cs ++ rstrip c cs' := by
  have hne : cs'.reverse.dropWhile (· = c) ≠ [] := by
    obtain ⟨x, hx, hxc⟩ := h
    intro hnil
    exact hxc (of_decide_eq_true (List.dropWhile_eq_nil_iff.mp hnil x (List.mem_reverse.mpr hx)))
  rw [rstrip, List.rdropWhile, List.reverse_append, List.dropWhile_append,
    if_neg (by rwa [List.isEmpty_iff]), List.reverse_append, List.reverse_reverse]
  rfl

end

/-- `cs.partition(sep)`, when the separator is there. -/
def partition (sep : List Char) : List Char → Option (List Char × List Char)
  | [] => none
  | c :: cs =>
    if sep.isPrefixOf (c :: cs) then some ([], (c :: cs).drop sep.length)
    else (partition sep cs).map fun p => (c :: p.1, p.2)

section
variable {sep cs front back : List Char} {c : Char}

/-- Where the separator comes first, or later. -/
theorem partition_cons_eq_some (h : partition sep (c :: cs) = some (front, back)) :
    front = [] ∧ c :: cs = sep ++ back ∨
      ∃ front', front = c :: front' ∧ ¬sep <+: c :: cs ∧
        partition sep cs = some (front', back) := by
  rw [partition] at h
  split at h
  · obtain ⟨rest, hrest⟩ := List.isPrefixOf_iff_prefix.mp ‹_›
    cases h
    refine .inl ⟨rfl, ?_⟩
    rw [← hrest, List.drop_left]
  · rename_i hmiss
    obtain ⟨⟨front', back'⟩, hpartition, hp⟩ := Option.map_eq_some_iff.mp h
    cases hp
    exact .inr ⟨front', rfl, fun hp => hmiss (List.isPrefixOf_iff_prefix.mpr hp), hpartition⟩

theorem partition_of_prefix (hsep : sep ≠ []) : partition sep (sep ++ back) = some ([], back) := by
  cases sep with
  | nil => exact absurd rfl hsep
  | cons s sep =>
    rw [List.cons_append, partition, if_pos]
    · rw [← List.cons_append, List.drop_left]
    · exact List.isPrefixOf_iff_prefix.mpr (List.prefix_append (s :: sep) back)

theorem partition_of_not_prefix (h : ¬sep <+: c :: cs) :
    partition sep (c :: cs) = (partition sep cs).map fun p => (c :: p.1, p.2) := by
  rw [partition, if_neg fun hp => h (List.isPrefixOf_iff_prefix.mp hp)]

theorem eq_append_of_partition (h : partition sep cs = some (front, back)) :
    cs = front ++ (sep ++ back) := by
  induction cs generalizing front with
  | nil => cases h
  | cons c cs ih =>
    rcases partition_cons_eq_some h with ⟨rfl, hcs⟩ | ⟨front', rfl, -, hrest⟩
    · exact hcs
    · exact congrArg (c :: ·) (ih hrest)

/-- What comes behind the first separator does not matter. -/
theorem partition_append (hsep : sep ≠ []) (h : partition sep cs = some (front, back))
    (back' : List Char) : partition sep (front ++ (sep ++ back')) = some (front, back') := by
  induction cs generalizing front with
  | nil => cases h
  | cons c cs ih =>
    rcases partition_cons_eq_some h with ⟨rfl, -⟩ | ⟨front', rfl, hmiss, hrest⟩
    · exact partition_of_prefix hsep
    · have hmiss' : ¬sep <+: c :: (front' ++ (sep ++ back')) := by
        intro hp
        apply hmiss
        have hshort : sep.length ≤ (c :: (front' ++ sep)).length := by
          rw [List.length_cons, List.length_append]
          omega
        have hwithin : sep <+: c :: (front' ++ sep) := by
          refine List.prefix_of_prefix_length_le hp ?_ hshort
          rw [← List.append_assoc]
          exact List.prefix_append (c :: (front' ++ sep)) back'
        rw [eq_append_of_partition hrest, ← List.append_assoc]
        exact hwithin.trans (List.prefix_append (c :: (front' ++ sep)) back)
      rw [List.cons_append, partition_of_not_prefix hmiss', ih hrest]
      rfl

end

/-- `cs.strip(c)`. -/
def strip (c : Char) (cs : List Char) : List Char :=
  ((cs.dropWhile (· = c)).reverse.dropWhile (· = c)).reverse

section
variable {c : Char} {cs : List Char}

theorem filter_split_dropWhile :
    (split c (cs.dropWhile (· = c))).filter (· ≠ []) = (split c cs).filter (· ≠ []) := by
  induction cs with
  | nil => rfl
  | cons x cs ih =>
    by_cases hx : x = c
    · rw [List.dropWhile_cons_of_pos (by simpa using hx), ih, hx, split_cons_self,
        List.filter_cons_of_neg (by simp)]
    · rw [List.dropWhile_cons_of_neg (by simpa using hx)]

theorem filter_split_dropEndWhile :
    (split c (cs.reverse.dropWhile (· = c)).reverse).filter (· ≠ []) =
      (split c cs).filter (· ≠ []) := by
  induction cs using List.reverseRecOn with
  | nil => rfl
  | append_singleton cs x ih =>
    rw [List.reverse_append, List.reverse_singleton, List.singleton_append]
    by_cases hx : x = c
    · rw [List.dropWhile_cons_of_pos (by simpa using hx), ih, hx, split_concat_self,
        List.filter_append, List.filter_cons_of_neg (by simp), List.filter_nil, List.append_nil]
    · rw [List.dropWhile_cons_of_neg (by simpa using hx), List.reverse_cons, List.reverse_reverse]

/-- Stripping the separator takes away empty parts only. -/
theorem filter_split_strip :
    (split c (strip c cs)).filter (· ≠ []) = (split c cs).filter (· ≠ []) := by
  rw [strip, filter_split_dropEndWhile, filter_split_dropWhile]

end

/-- `c.join(parts)`. -/
def join (c : Char) : List (List Char) → List Char
  | [] => []
  | [part] => part
  | part :: parts => part ++ c :: join c parts

/-- `sep.join(parts)`, for a string. -/
def joinWith (sep : String) : List String → String
  | [] => ""
  | [part] => part
  | part :: parts => part ++ sep ++ joinWith sep parts

/-- `s.replace(p, "")`, scanning from the left; the fuel is the length of the text. -/
def removeAux (p : List Char) : Nat → List Char → List Char
  | 0, cs => cs
  | _ + 1, [] => []
  | k + 1, c :: cs =>
    if p.isPrefixOf (c :: cs) then removeAux p k ((c :: cs).drop p.length)
    else c :: removeAux p k cs

/-- `s.replace(p, "")` for a nonempty `p`. -/
def remove (s p : String) : String :=
  String.ofList (removeAux p.toList s.toList.length s.toList)

theorem removeAux_eq {p : List Char} (hp : p ≠ []) {k : Nat} {cs : List Char} (h : cs.length ≤ k) :
    removeAux p k cs = Substitution.replaceAll p [] cs := by
  induction k generalizing cs with
  | zero =>
    rw [List.length_eq_zero_iff.mp (Nat.le_zero.mp h), Substitution.replaceAll_nil hp, removeAux]
  | succ k ih =>
    cases cs with
    | nil => rw [Substitution.replaceAll_nil hp, removeAux]
    | cons c cs =>
      rw [removeAux]
      by_cases hprefix : p <+: c :: cs
      · rw [if_pos (List.isPrefixOf_iff_prefix.mpr hprefix)]
        obtain ⟨rest, hrest⟩ := hprefix
        have hpos := List.length_pos_iff.mpr hp
        have hlength := congrArg List.length hrest
        rw [List.length_append] at hlength
        rw [← hrest, List.drop_left, Substitution.replaceAll_hit hp, List.nil_append, ih (by omega)]
      · rw [if_neg fun hp => hprefix (List.isPrefixOf_iff_prefix.mp hp),
          Substitution.replaceAll_miss hprefix, ih (Nat.le_of_succ_le_succ h)]

theorem remove_eq_replace {s p : String} (hp : p ≠ "") : remove s p = replace s p "" := by
  have hne : p.toList ≠ [] := fun h => hp (String.toList_eq_nil_iff.mp h)
  rw [remove, removeAux_eq hne (Nat.le_refl _), replace]
  rfl

end FastGeoApi.Str
