import FastGeoApi.Lib.Lists
import FastGeoApi.Python.Value

/-!
# Regular expressions

`re.compile(p)` and whether `.match(s)` finds something, for a pattern in which only `.` is special;
patterns with other special characters are left to a parameter.
-/

namespace FastGeoApi

def specialChars : List Char := "^$*+?|()[]\\\x7b\x7d".toList

/-- No character is special, `.` apart. -/
def isPlain (p : String) : Bool := p.toList.all (· ∉ specialChars)

/-- A plain pattern matches at the start of the text. -/
def fits : List Char → List Char → Bool
  | [], _ => true
  | _ :: _, [] => false
  | p :: ps, c :: cs => (p = c || (p = '.' && c ≠ '\n')) && fits ps cs

structure Re where
  /-- `re.compile(p)` and `.match`, for a pattern that is not plain. -/
  special : String → Except PyError (String → Bool)

def Re.compile (re : Re) (p : String) : Except PyError (String → Bool) :=
  if isPlain p then .ok fun s => fits p.toList s.toList else re.special p

/-! ## Plain patterns -/

theorem fits_self (p cs : List Char) : fits p (p ++ cs) = true := by
  induction p with
  | nil => rfl
  | cons c p ih => simp [fits, ih]

theorem fits_append {p q cs : List Char} :
    fits (p ++ q) cs = true ↔
      ∃ u v, cs = u ++ v ∧ u.length = p.length ∧ fits p u = true ∧ fits q v = true := by
  induction p generalizing cs with
  | nil =>
    refine ⟨fun h => ⟨[], cs, rfl, rfl, rfl, h⟩, ?_⟩
    intro hsplit
    obtain ⟨u, v, rfl, hlength, _, hv⟩ := hsplit
    rw [List.length_eq_zero_iff.mp hlength]
    exact hv
  | cons c p ih =>
    cases cs with
    | nil =>
      refine ⟨nofun, ?_⟩
      intro hsplit
      obtain ⟨u, v, hnil, hlength, _⟩ := hsplit
      rw [(List.append_eq_nil_iff.mp hnil.symm).1] at hlength
      cases hlength
    | cons d cs =>
      rw [List.cons_append, fits, Bool.and_eq_true, ih]
      constructor
      · intro hfits
        obtain ⟨hd, u, v, rfl, hlength, hu, hv⟩ := hfits
        refine ⟨d :: u, v, rfl, congrArg (· + 1) hlength, ?_, hv⟩
        rw [fits, hd, hu, Bool.and_self]
      · intro hsplit
        obtain ⟨u, v, hcs, hlength, hu, hv⟩ := hsplit
        cases u with
        | nil => cases hlength
        | cons e u =>
          obtain ⟨rfl, rfl⟩ := List.cons.inj hcs
          rw [fits, Bool.and_eq_true] at hu
          exact ⟨hu.1, u, v, rfl, Nat.succ.inj hlength, hu.2, hv⟩

theorem fits_literal {p cs : List Char} (h : '.' ∉ p) : fits p cs = true ↔ p <+: cs := by
  induction p generalizing cs with
  | nil => simp [fits]
  | cons c p ih =>
    rw [List.mem_cons, not_or] at h
    cases cs with
    | nil => simp [fits]
    | cons d cs =>
      have hc : c ≠ '.' := Ne.symm h.1
      rw [fits, Bool.and_eq_true, ih h.2, List.cons_prefix_cons]
      simp [hc]

/-! ## Compiling a list of patterns -/

theorem mapM_compile {re : Re} {patterns : List String} {compiled : List (String → Bool)} :
    patterns.mapM re.compile = .ok compiled ↔
      List.Forall₂ (fun p m => re.compile p = .ok m) patterns compiled := by
  induction patterns generalizing compiled with
  | nil => simp [pure, Except.pure, eq_comm]
  | cons p patterns ih =>
    rw [List.mapM_cons, List.forall₂_cons_left_iff]
    simp only [except_bind_ok, ih, pure, Except.pure, Except.ok.injEq, eq_comm (b := compiled),
      exists_and_left]

/-- One of the patterns matches the text. -/
def Re.Matches (re : Re) (patterns : List String) (s : String) : Prop :=
  ∃ p ∈ patterns, ∃ m, re.compile p = .ok m ∧ m s = true

theorem any_compiled {re : Re} {patterns : List String} {compiled : List (String → Bool)}
    {s : String} (h : patterns.mapM re.compile = .ok compiled) :
    compiled.any (· s) = true ↔ re.Matches patterns s := by
  rw [mapM_compile] at h
  rw [List.any_eq_true]
  constructor
  · intro hany
    obtain ⟨m, hm, hs⟩ := hany
    obtain ⟨p, hp, hcompile⟩ := exists_of_mem_forall₂ h.flip hm
    exact ⟨p, hp, m, hcompile, hs⟩
  · intro hmatches
    obtain ⟨p, hp, m, hcompile, hs⟩ := hmatches
    obtain ⟨m', hm', hcompile'⟩ := exists_of_mem_forall₂ h hp
    obtain rfl : m = m' := Except.ok.inj (hcompile.symm.trans hcompile')
    exact ⟨m, hm', hs⟩

end FastGeoApi
