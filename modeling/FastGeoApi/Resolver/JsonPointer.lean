import FastGeoApi.Lib.JsonLexical
import FastGeoApi.Python.Path
import FastGeoApi.Resolver.Pointers

/-!
# Fragments as JSON pointers

`_navigate_to_fragment` looks up the nonempty parts of a fragment as they stand
(`navigateToFragment_eq`), so it follows a JSON pointer where every token is the key of a mapping
that needs no escape, and otherwise it does not.
-/

namespace FastGeoApi

/-- A key or an index that a reference token stands for: in JSON every key is a string. -/
inductive PointerStep where
  | key (key : String)
  | index (i : Nat)
  deriving DecidableEq

def PointerStep.step : PointerStep → Step
  | .key k => .key k
  | .index i => .index i

namespace JsonPointer

/-- The path in a document. -/
def steps (path : List PointerStep) : List Step := path.map PointerStep.step

section
variable {doc : PyVal} {step : PointerStep} {path : List PointerStep}

theorem at?_steps_cons :
    doc.at? (steps (step :: path)) = (doc.step? step.step).bind (·.at? (steps path)) :=
  PyVal.at?_cons

theorem along_key {leaf : PyVal} {key : String} :
    PyVal.along leaf (steps (.key key :: path)) =
      .dict [(.str key, PyVal.along leaf (steps path))] := rfl

theorem along_index {leaf : PyVal} {i : Nat} :
    PyVal.along leaf (steps (.index i :: path)) =
      .list (List.replicate i .none ++ [PyVal.along leaf (steps path)]) := rfl

end

def escape (cs : List Char) : List Char :=
  cs.flatMap fun c => if c = '~' then ['~', '0'] else if c = '/' then ['~', '1'] else [c]

/-- The reference token of a step. -/
def token : PointerStep → List Char
  | .key key => escape key.toList
  | .index i => i.repr.toList

/-- The JSON pointer of a path, as a JSON string holds it. -/
def encode (path : List PointerStep) : String :=
  String.ofList ((path.map token).flatMap ('/' :: ·))

/-- In a reference token `~` begins `~0` or `~1`. -/
def EscapesOnly : List Char → Prop
  | '~' :: '0' :: cs | '~' :: '1' :: cs => EscapesOnly cs
  | '~' :: _ => False
  | _ :: cs => EscapesOnly cs
  | [] => True

/-- The raw reference tokens of a pointer. -/
def rawTokens (pointer : String) : List (List Char) := (Str.split '/' pointer.toList).drop 1

/-- A pointer is empty or begins with `/`, and its tokens are escaped properly. -/
structure WellFormed (pointer : String) : Prop where
  start : pointer = "" ∨ Str.startsWith pointer "/" = true
  escapes : ∀ cs ∈ rawTokens pointer, EscapesOnly cs

/-- The pointer names the value in the document. -/
def Names (doc : PyVal) (pointer : String) (v : PyVal) : Prop :=
  WellFormed pointer ∧
    doc.follow PointerReading.jsonPointer.index (PointerReading.jsonPointer.tokens pointer) = some v

/-! ## Escaping -/

/-- No character of the text has to be escaped. -/
def Unescaped (cs : List Char) : Prop := '/' ∉ cs ∧ '~' ∉ cs

instance (cs : List Char) : Decidable (Unescaped cs) := inferInstanceAs (Decidable (_ ∧ _))

theorem slash_not_mem_escape (cs : List Char) : '/' ∉ escape cs := by
  intro h
  obtain ⟨c, _, hc⟩ := List.mem_flatMap.mp h
  split at hc
  · simp at hc
  · split at hc
    · simp at hc
    · rename_i hne
      exact hne (List.mem_singleton.mp hc).symm

theorem escape_of_unescaped {cs : List Char} (h : Unescaped cs) : escape cs = cs := by
  induction cs with
  | nil => rfl
  | cons c cs ih =>
    obtain ⟨hslash, htilde⟩ := h
    rw [List.mem_cons, not_or] at hslash htilde
    rw [escape, List.flatMap_cons, if_neg (Ne.symm htilde.1), if_neg (Ne.symm hslash.1), ← escape,
      ih ⟨hslash.2, htilde.2⟩, List.singleton_append]

theorem length_le_escape (cs : List Char) : cs.length ≤ (escape cs).length := by
  induction cs with
  | nil => exact Nat.le_refl _
  | cons c cs ih =>
    rw [escape, List.flatMap_cons, ← escape, List.length_append, List.length_cons]
    split
    · simp only [List.length_cons, List.length_nil]
      omega
    · split <;>
      · simp only [List.length_cons, List.length_nil]
        omega

theorem escape_eq_self_iff {cs : List Char} : escape cs = cs ↔ Unescaped cs := by
  refine ⟨fun h => ?_, escape_of_unescaped⟩
  induction cs with
  | nil => exact ⟨List.not_mem_nil, List.not_mem_nil⟩
  | cons c cs ih =>
    have hlength := congrArg List.length h
    have hle := length_le_escape cs
    rw [escape, List.flatMap_cons, ← escape] at h hlength
    rw [List.length_append, List.length_cons] at hlength
    split at h
    · rename_i hc
      simp only [if_pos hc, List.length_cons, List.length_nil] at hlength
      omega
    · rename_i htilde
      split at h
      · rename_i hslash
        simp only [if_neg htilde, if_pos hslash, List.length_cons, List.length_nil] at hlength
        omega
      · rename_i hslash
        have hrest := ih (List.cons.inj h).2
        rw [Unescaped, List.mem_cons, List.mem_cons, not_or, not_or]
        exact ⟨⟨Ne.symm hslash, hrest.1⟩, Ne.symm htilde, hrest.2⟩

theorem unescape_cons {c : Char} (h : c ≠ '~') (cs : List Char) :
    PointerReading.unescape (c :: cs) = c :: PointerReading.unescape cs := by
  rw [PointerReading.unescape]
  · rintro _ rfl
    exact absurd rfl h
  · rintro _ rfl
    exact absurd rfl h

theorem escapesOnly_cons {c : Char} (h : c ≠ '~') (cs : List Char) :
    EscapesOnly (c :: cs) ↔ EscapesOnly cs := by
  rw [EscapesOnly]
  · exact fun _ hc _ => h hc
  · exact fun _ hc _ => h hc
  · exact h

/-- Escaping is undone. -/
theorem unescape_escape (cs : List Char) : PointerReading.unescape (escape cs) = cs := by
  induction cs with
  | nil => rfl
  | cons c cs ih =>
    rw [escape, List.flatMap_cons, ← escape]
    split
    · rename_i hc
      rw [hc, List.cons_append, List.cons_append, List.nil_append, PointerReading.unescape, ih]
    · rename_i htilde
      split
      · rename_i hc
        rw [hc, List.cons_append, List.cons_append, List.nil_append, PointerReading.unescape, ih]
      · rw [List.singleton_append, unescape_cons htilde, ih]

theorem escapesOnly_escape (cs : List Char) : EscapesOnly (escape cs) := by
  induction cs with
  | nil => exact trivial
  | cons c cs ih =>
    rw [escape, List.flatMap_cons, ← escape]
    split
    · exact ih
    · rename_i htilde
      split
      · exact ih
      · rw [List.singleton_append, escapesOnly_cons htilde]
        exact ih

theorem escapesOnly_of_unescaped {cs : List Char} (h : '~' ∉ cs) : EscapesOnly cs := by
  induction cs with
  | nil => exact trivial
  | cons c cs ih =>
    rw [List.mem_cons, not_or] at h
    exact (escapesOnly_cons (Ne.symm h.1) cs).mpr (ih h.2)

theorem unescape_of_unescaped {cs : List Char} (h : '~' ∉ cs) :
    PointerReading.unescape cs = cs := by
  induction cs with
  | nil => rfl
  | cons c cs ih =>
    rw [List.mem_cons, not_or] at h
    rw [unescape_cons (Ne.symm h.1), ih h.2]

theorem length_unescape_le (cs : List Char) :
    (PointerReading.unescape cs).length ≤ cs.length := by
  fun_induction PointerReading.unescape cs with
  | case1 cs ih | case2 cs ih =>
    simp only [List.length_cons]
    omega
  | case3 c cs _ _ ih => exact Nat.succ_le_succ ih
  | case4 => exact Nat.le_refl _

/-- An escape in a token stands for something else. -/
theorem not_mem_of_unescape_eq {cs : List Char} (hcs : EscapesOnly cs)
    (h : PointerReading.unescape cs = cs) : '~' ∉ cs := by
  fun_induction PointerReading.unescape cs with
  | case1 cs _ | case2 cs _ =>
    have hlength := congrArg List.length h
    have hle := length_unescape_le cs
    simp only [List.length_cons] at hlength
    omega
  | case3 c cs hslash htilde ih =>
    by_cases hc : c = '~'
    · -- a `~` that begins neither of the escapes
      subst hc
      rw [EscapesOnly] at hcs
      · exact hcs.elim
      · exact fun cs' => htilde cs' rfl
      · exact fun cs' => hslash cs' rfl
    · rw [List.mem_cons, not_or]
      exact ⟨Ne.symm hc, ih ((escapesOnly_cons hc cs).mp hcs) (List.cons.inj h).2⟩
  | case4 => exact List.not_mem_nil

/-! ## Tokens -/

theorem isDigit_of_mem_token {i : Nat} {c : Char} (h : c ∈ token (.index i)) :
    c.isDigit = true := by
  rw [token, Nat.toList_repr] at h
  exact Nat.isDigit_of_mem_toDigits (by omega) (by omega) h

theorem slash_not_mem_token (step : PointerStep) : '/' ∉ token step := by
  cases step with
  | key key => exact slash_not_mem_escape _
  | index i => exact fun h => absurd (isDigit_of_mem_token h) (by decide)

theorem token_ne_nil {step : PointerStep} (h : step ≠ .key "") : token step ≠ [] := by
  cases step with
  | index i =>
    rw [token, Nat.toList_repr]
    exact Nat.toDigits_ne_nil
  | key key =>
    have hlength := length_le_escape key.toList
    intro hnil
    rw [show escape key.toList = [] from hnil] at hlength
    have hchars : key.toList = [] := List.length_eq_zero_iff.mp (Nat.le_zero.mp hlength)
    exact h (congrArg PointerStep.key (String.toList_eq_nil_iff.mp hchars))

theorem split_encode (path : List PointerStep) :
    Str.split '/' (encode path).toList = [] :: path.map token := by
  rw [encode, String.toList_ofList, Str.split_flatMap]
  intro part hpart
  obtain ⟨step, _, rfl⟩ := List.mem_map.mp hpart
  exact slash_not_mem_token step

theorem rawTokens_encode (path : List PointerStep) : rawTokens (encode path) = path.map token := by
  rw [rawTokens, split_encode, List.drop_one, List.tail_cons]

/-- The keys that are looked up for these tokens. -/
def keysOf (tokens : List (List Char)) : List String :=
  (tokens.filter (· ≠ [])).map String.ofList

@[simp] theorem keysOf_nil : keysOf [] = [] := rfl

theorem keysOf_cons_nil {tokens : List (List Char)} : keysOf ([] :: tokens) = keysOf tokens := rfl

theorem keysOf_cons {cs : List Char} {tokens : List (List Char)} (h : cs ≠ []) :
    keysOf (cs :: tokens) = String.ofList cs :: keysOf tokens := by
  rw [keysOf, List.filter_cons_of_pos (by simpa using h), List.map_cons, keysOf]

theorem ne_empty_of_mem_keysOf {tokens : List (List Char)} {key : String}
    (h : key ∈ keysOf tokens) : key ≠ "" := by
  obtain ⟨cs, hcs, rfl⟩ := List.mem_map.mp h
  have hne : cs ≠ [] := of_decide_eq_true (List.mem_filter.mp hcs).2
  intro hempty
  exact hne (String.ofList_eq_empty_iff.mp hempty)

theorem navigateToFragment_eq (doc : PyVal) (fragment : String) :
    navigateToFragment doc fragment =
      (keysOf (Str.split '/' fragment.toList)).foldlM getItem doc := by
  unfold navigateToFragment
  split
  · rename_i h
    rcases h with rfl | rfl
    · rfl
    · rfl
  · rw [fragmentParts, Str.filter_split_strip, keysOf]

/-! ## Paths -/

end JsonPointer

/-- A key that stands in a pointer as it is. -/
def PointerStep.Plain : PointerStep → Prop
  | .key k => k ≠ "" ∧ JsonPointer.Unescaped k.toList
  | .index _ => False

instance : DecidablePred PointerStep.Plain := fun step =>
  match step with
  | .key k => inferInstanceAs (Decidable (k ≠ "" ∧ JsonPointer.Unescaped k.toList))
  | .index _ => inferInstanceAs (Decidable False)

namespace JsonPointer

/-- Navigation to the pointer of the path reads what is there, in every document. -/
def ReadsPath (path : List PointerStep) : Prop :=
  ∀ doc v, doc.at? (steps path) = some v → navigateToFragment doc (encode path) = .ok v

theorem navigateToFragment_encode (doc : PyVal) (path : List PointerStep) :
    navigateToFragment doc (encode path) = (keysOf (path.map token)).foldlM getItem doc := by
  rw [navigateToFragment_eq, split_encode, keysOf_cons_nil]

theorem foldlM_getItem_of_plain {path : List PointerStep} (h : ∀ step ∈ path, step.Plain)
    {doc v : PyVal} (hv : doc.at? (steps path) = some v) :
    (keysOf (path.map token)).foldlM getItem doc = .ok v := by
  induction path generalizing doc with
  | nil =>
    cases hv
    rfl
  | cons step path ih =>
    have hstep := h step List.mem_cons_self
    have hrest := fun step' hstep' => h step' (List.mem_cons_of_mem _ hstep')
    rw [at?_steps_cons] at hv
    obtain ⟨u, hu, hrestv⟩ := Option.bind_eq_some_iff.mp hv
    cases step with
    | index i => exact hstep.elim
    | key key =>
      have htoken : token (.key key) = key.toList := escape_of_unescaped hstep.2
      have hne : key.toList ≠ [] := fun hnil => hstep.1 (String.toList_eq_nil_iff.mp hnil)
      rw [List.map_cons, htoken, keysOf_cons hne, String.ofList_toList, List.foldlM_cons]
      cases doc with
      | dict items =>
        have hget : PyVal.get items key = some u := hu
        rw [getItem, hget]
        exact ih hrest hrestv
      | _ => cases hu

/-- Looking up keys that are not there does not lead to a number. -/
theorem foldlM_getItem_empty_key {keys : List String} (h : ∀ key ∈ keys, key ≠ "") {x : PyVal} :
    keys.foldlM getItem (.dict [(.str "", x)]) ≠ .ok (.int 0) := by
  cases keys with
  | nil =>
    intro heq
    cases heq
  | cons key keys =>
    have hkey : PyKey.str "" ≠ .str key := fun heq =>
      h key List.mem_cons_self (PyKey.str.inj heq).symm
    rw [List.foldlM_cons, getItem, PyVal.get_cons, if_neg hkey]
    intro heq
    cases heq

theorem plain_of_navigates {path : List PointerStep}
    (h : (keysOf (path.map token)).foldlM getItem (PyVal.along (.int 0) (steps path)) =
      .ok (.int 0)) :
    ∀ step ∈ path, step.Plain := by
  induction path with
  | nil => exact fun step hstep => absurd hstep List.not_mem_nil
  | cons step path ih =>
    rw [List.map_cons] at h
    cases step with
    | index i =>
      rw [keysOf_cons (token_ne_nil PointerStep.noConfusion), List.foldlM_cons, along_index] at h
      cases h
    | key key =>
      by_cases hempty : key = ""
      · subst hempty
        rw [along_key] at h
        exact absurd h (foldlM_getItem_empty_key fun key hkey => ne_empty_of_mem_keysOf hkey)
      · have hne : token (.key key) ≠ [] := token_ne_nil fun heq => hempty (PointerStep.key.inj heq)
        rw [keysOf_cons hne, List.foldlM_cons, along_key, getItem, PyVal.get_cons] at h
        by_cases hkey : PyKey.str key = .str (String.ofList (token (.key key)))
        · rw [if_pos hkey] at h
          have hescape : escape key.toList = key.toList := by
            have hkey := congrArg String.toList (PyKey.str.inj hkey)
            rw [String.toList_ofList] at hkey
            exact hkey.symm
          intro step hstep
          rcases List.mem_cons.mp hstep with rfl | hstep
          · exact ⟨hempty, escape_eq_self_iff.mp hescape⟩
          · exact ih h step hstep
        · rw [if_neg hkey] at h
          cases h

theorem readsPath_iff (path : List PointerStep) : ReadsPath path ↔ ∀ step ∈ path, step.Plain := by
  refine ⟨fun h => ?_, fun h doc v hv => ?_⟩
  · have hread := h _ _ (PyVal.at?_along (.int 0) (steps path))
    rw [navigateToFragment_encode] at hread
    exact plain_of_navigates hread
  · rw [navigateToFragment_encode]
    exact foldlM_getItem_of_plain h hv

/-! ## Fragments -/

/-- In every document that has no value under the fragment, navigation to it raises. -/
def RejectsUnnamed (fragment : String) : Prop :=
  ∀ doc, (∀ v, ¬Names doc fragment v) → ∃ e, navigateToFragment doc fragment = .error e

/-- The fragment is empty, or a pointer with nonempty tokens that hold no escape. -/
def PlainFragment (fragment : String) : Prop :=
  fragment = "" ∨
    Str.startsWith fragment "/" = true ∧ ∀ cs ∈ rawTokens fragment, cs ≠ [] ∧ '~' ∉ cs

theorem names_empty (doc : PyVal) : Names doc "" doc :=
  ⟨⟨.inl rfl, fun _ hcs => absurd hcs List.not_mem_nil⟩, rfl⟩

/-- The tokens of a pointer as a document is followed along. -/
theorem tokens_eq (fragment : String) :
    PointerReading.jsonPointer.tokens fragment =
      (rawTokens fragment).map fun cs => String.ofList (PointerReading.unescape cs) := rfl

theorem decimal?_repr (i : Nat) : PointerReading.decimal? i.repr = some i := by
  have hdigits : (Nat.toDigits 10 i).all Char.isDigit = true :=
    List.all_eq_true.mpr fun c hc => Nat.isDigit_of_mem_toDigits (by omega) (by omega) hc
  have hzero : (Nat.toDigits 10 i).head? = some '0' → (Nat.toDigits 10 i).length = 1 := by
    intro hhead
    rcases Nat.eq_zero_or_pos i with rfl | hpos
    · rfl
    · exact absurd hhead (Json.head?_toDigits hpos)
  unfold PointerReading.decimal?
  simp only [Nat.toList_repr]
  rw [if_pos ⟨Nat.toDigits_ne_nil, hdigits, hzero⟩]
  exact congrArg some Nat.ofDigitChars_ten_toDigits

theorem unescape_token_index (i : Nat) :
    PointerReading.unescape (token (.index i)) = token (.index i) ∧
      EscapesOnly (token (.index i)) := by
  have htilde : '~' ∉ token (.index i) := fun h => absurd (isDigit_of_mem_token h) (by decide)
  exact ⟨unescape_of_unescaped htilde, escapesOnly_of_unescaped htilde⟩

theorem escapesOnly_token (step : PointerStep) : EscapesOnly (token step) := by
  cases step with
  | key key => exact escapesOnly_escape _
  | index i => exact (unescape_token_index i).2

theorem child_token {step : PointerStep} {v u : PyVal} (h : v.step? step.step = some u) :
    v.child PointerReading.jsonPointer.index
      (String.ofList (PointerReading.unescape (token step))) = some u := by
  cases step with
  | key key =>
    rw [token, unescape_escape, String.ofList_toList]
    cases v with
    | dict items => exact h
    | _ => cases h
  | index i =>
    rw [(unescape_token_index i).1, token, String.ofList_toList]
    cases v with
    | list xs =>
      have hindex : PointerReading.jsonPointer.index i.repr = some i := decimal?_repr i
      rw [PyVal.child, hindex]
      exact h
    | _ => cases h

/-- The encoding of a path names the value at the path. -/
theorem names_encode {doc v : PyVal} {path : List PointerStep} (h : doc.at? (steps path) = some v) :
    Names doc (encode path) v := by
  refine ⟨⟨?_, fun cs hcs => ?_⟩, ?_⟩
  · cases path with
    | nil => exact .inl rfl
    | cons step path =>
      have hchars : (encode (step :: path)).toList =
          '/' :: (token step ++ (path.map token).flatMap ('/' :: ·)) := by
        rw [encode, String.toList_ofList, List.map_cons, List.flatMap_cons, List.cons_append]
      exact .inr (Str.startsWith_iff.mpr ⟨_, hchars.symm⟩)
  · rw [rawTokens_encode] at hcs
    obtain ⟨step, _, rfl⟩ := List.mem_map.mp hcs
    exact escapesOnly_token step
  · rw [tokens_eq, rawTokens_encode]
    induction path generalizing doc with
    | nil => exact h
    | cons step path ih =>
      rw [at?_steps_cons] at h
      obtain ⟨u, hu, hrest⟩ := Option.bind_eq_some_iff.mp h
      rw [List.map_cons, List.map_cons, PyVal.follow_cons, child_token hu, Option.bind_some]
      exact ih hrest

theorem split_of_startsWith {fragment : String} (h : Str.startsWith fragment "/" = true) :
    Str.split '/' fragment.toList = [] :: rawTokens fragment := by
  obtain ⟨rest, hrest⟩ := Str.startsWith_iff.mp h
  have hcons : fragment.toList = '/' :: rest := hrest.symm
  rw [rawTokens, hcons, Str.split_cons_self, List.drop_one, List.tail_cons]

theorem keysOf_eq_map {tokens : List (List Char)} (h : ∀ cs ∈ tokens, cs ≠ []) :
    keysOf tokens = tokens.map String.ofList := by
  rw [keysOf, List.filter_eq_self.mpr fun cs hcs => by simpa using h cs hcs]

theorem foldlM_getItem_along (leaf : PyVal) (keys : List String) :
    keys.foldlM getItem (PyVal.along leaf (steps (keys.map .key))) = .ok leaf := by
  induction keys with
  | nil => rfl
  | cons key keys ih =>
    rw [List.map_cons, along_key, List.foldlM_cons, getItem, PyVal.get_cons, if_pos rfl]
    exact ih

/-- What the navigation finds by keys, a pointer with the same tokens finds as well. -/
theorem follow_of_foldlM {keys : List String} {doc v : PyVal}
    (h : keys.foldlM getItem doc = .ok v) (index : String → Option Nat) :
    doc.follow index keys = some v := by
  induction keys generalizing doc with
  | nil =>
    cases h
    rfl
  | cons key keys ih =>
    rw [List.foldlM_cons] at h
    obtain ⟨u, hu, hrest⟩ := except_bind_ok.mp h
    rw [PyVal.follow_cons]
    cases doc with
    | dict items =>
      rw [getItem] at hu
      cases hget : PyVal.get items key with
      | none =>
        rw [hget] at hu
        cases hu
      | some u' =>
        rw [hget] at hu
        cases hu
        rw [PyVal.child, hget]
        exact ih hrest
    | _ => cases hu

theorem child_along_empty (keys : List String) (h : ∀ key ∈ keys, key ≠ "")
    (index : String → Option Nat) :
    (PyVal.along (.int 0) (steps (keys.map .key))).child index "" = none := by
  cases keys with
  | nil => rfl
  | cons key keys =>
    have hkey : PyKey.str key ≠ .str "" := fun heq => h key List.mem_cons_self (PyKey.str.inj heq)
    rw [List.map_cons, along_key, PyVal.child, PyVal.get_cons, if_neg hkey, PyVal.get_nil]

/-- In a document that has nothing but the keys that are looked up, the pointer names a value only
where its tokens are those keys. -/
theorem plain_of_follow {tokens : List (List Char)} {index : String → Option Nat} {v : PyVal}
    (hescapes : ∀ cs ∈ tokens, EscapesOnly cs)
    (h : (PyVal.along (.int 0) (steps ((keysOf tokens).map .key))).follow index
      (tokens.map fun cs => String.ofList (PointerReading.unescape cs)) = some v) :
    ∀ cs ∈ tokens, cs ≠ [] ∧ '~' ∉ cs := by
  induction tokens with
  | nil => exact fun cs hcs => absurd hcs List.not_mem_nil
  | cons cs tokens ih =>
    rw [List.map_cons, PyVal.follow_cons] at h
    by_cases hnil : cs = []
    · subst hnil
      have hnone := child_along_empty (keysOf tokens) (fun _ => ne_empty_of_mem_keysOf) index
      rw [keysOf_cons_nil, PointerReading.unescape, String.ofList_nil, hnone] at h
      cases h
    · rw [keysOf_cons hnil, List.map_cons, along_key, PyVal.child, PyVal.get_cons] at h
      by_cases hkey :
          PyKey.str (String.ofList cs) = .str (String.ofList (PointerReading.unescape cs))
      · rw [if_pos hkey] at h
        have hunescape : PointerReading.unescape cs = cs :=
          (String.ofList_injective (PyKey.str.inj hkey)).symm
        intro cs' hcs'
        rcases List.mem_cons.mp hcs' with rfl | hcs'
        · exact ⟨hnil, not_mem_of_unescape_eq (hescapes _ List.mem_cons_self) hunescape⟩
        · exact ih (fun cs hcs => hescapes cs (List.mem_cons_of_mem _ hcs)) h cs' hcs'
      · rw [if_neg hkey] at h
        cases h

theorem plainFragment_of_rejects {fragment : String} (h : RejectsUnnamed fragment) :
    PlainFragment fragment := by
  by_cases hempty : fragment = ""
  · exact .inl hempty
  · -- a document along the parts that are looked up is navigated, so the pointer must name a value
    have hnav := foldlM_getItem_along (.int 0) (keysOf (Str.split '/' fragment.toList))
    rw [← navigateToFragment_eq] at hnav
    have hnamed : ∃ v, Names (PyVal.along (.int 0)
        (steps ((keysOf (Str.split '/' fragment.toList)).map .key))) fragment v := by
      by_contra hnone
      obtain ⟨e, he⟩ := h _ fun v hv => hnone ⟨v, hv⟩
      rw [hnav] at he
      cases he
    obtain ⟨v, hwf, hfollow⟩ := hnamed
    have hstart := hwf.start.resolve_left hempty
    rw [split_of_startsWith hstart, keysOf_cons_nil, tokens_eq] at hfollow
    exact .inr ⟨hstart, plain_of_follow hwf.escapes hfollow⟩

theorem names_of_navigates {fragment : String} (h : PlainFragment fragment) {doc v : PyVal}
    (hv : navigateToFragment doc fragment = .ok v) : ∃ u, Names doc fragment u := by
  rcases h with rfl | ⟨hstart, htokens⟩
  · exact ⟨doc, names_empty doc⟩
  · have hkeys : keysOf (rawTokens fragment) = PointerReading.jsonPointer.tokens fragment := by
      rw [keysOf_eq_map fun cs hcs => (htokens cs hcs).1, tokens_eq]
      refine List.map_congr_left fun cs hcs => ?_
      rw [unescape_of_unescaped (htokens cs hcs).2]
    rw [navigateToFragment_eq, split_of_startsWith hstart, keysOf_cons_nil, hkeys] at hv
    refine ⟨v, ⟨.inr hstart, fun cs hcs => ?_⟩, follow_of_foldlM hv _⟩
    exact escapesOnly_of_unescaped (htokens cs hcs).2

theorem rejectsUnnamed_iff (fragment : String) :
    RejectsUnnamed fragment ↔ PlainFragment fragment := by
  refine ⟨plainFragment_of_rejects, fun h doc hnone => ?_⟩
  cases hnav : navigateToFragment doc fragment with
  | error e => exact ⟨e, rfl⟩
  | ok v =>
    obtain ⟨u, hu⟩ := names_of_navigates h hnav
    exact absurd hu (hnone u)

/-- Navigation implements JSON pointers exactly where paths are made of keys that need no escape,
and rejects what names nothing exactly where the tokens of the fragment are such keys. -/
theorem navigatesPointers_iff_plain (path : List PointerStep) (fragment : String) :
    (ReadsPath path ↔ ∀ step ∈ path, step.Plain) ∧
      (RejectsUnnamed fragment ↔ PlainFragment fragment) :=
  ⟨readsPath_iff path, rejectsUnnamed_iff fragment⟩

/-- The path item that `#/paths/~1collections` refers to. -/
def collectionsDoc : PyVal :=
  .dict [(.str "paths", .dict [(.str "/collections", .dict [(.str "summary", .str "all")])])]

def collectionsPath : List PointerStep := [.key "paths", .key "/collections"]

theorem collections_not_navigated :
    collectionsDoc.at? (steps collectionsPath) = some (.dict [(.str "summary", .str "all")]) ∧
    encode collectionsPath = "/paths/~1collections" ∧
    navigateToFragment collectionsDoc "/paths/~1collections" =
      .error ⟨.keyError, "~1collections"⟩ ∧
    ¬((∀ path, ReadsPath path) ∧ ∀ fragment, RejectsUnnamed fragment) := by
  have hencode : encode collectionsPath = "/paths/~1collections" := by decide +kernel
  have hnav : navigateToFragment collectionsDoc "/paths/~1collections" =
      .error ⟨.keyError, "~1collections"⟩ := by rfl
  refine ⟨rfl, hencode, hnav, fun ⟨hreads, _⟩ => ?_⟩
  have hread := hreads collectionsPath collectionsDoc _ rfl
  rw [hencode, hnav] at hread
  cases hread

end JsonPointer
end FastGeoApi
