import FastGeoApi.Lib.JsonRoundTrip

/-!
# JSON with something behind it

The text of an object ends with its bracket, and it is refused when anything but blanks stands
behind it.
-/

namespace FastGeoApi.Json

section
variable {close : Char} {outs : List Output}

theorem printTail_ends (h : (printTail close outs).error = none) :
    ∃ cs, (printTail close outs).text = cs ++ [close] := by
  induction outs with
  | nil => exact ⟨[], rfl⟩
  | cons out outs ih =>
    rw [printTail_cons] at h ⊢
    obtain ⟨hout, htail⟩ := Output.andThen_error.mp h
    obtain ⟨cs, hcs⟩ := ih htail
    exact ⟨',' :: ' ' :: (out.text ++ cs), by simp [Output.andThen_text hout, hcs]⟩

theorem printContainer_ends {opening : Char}
    (h : (printContainer opening close outs).error = none) :
    ∃ cs, (printContainer opening close outs).text = cs ++ [close] := by
  rw [printContainer_eq] at h ⊢
  cases outs with
  | nil => exact ⟨[opening], rfl⟩
  | cons out outs =>
    obtain ⟨hout, htail⟩ := Output.andThen_error.mp h
    obtain ⟨cs, hcs⟩ := printTail_ends htail
    exact ⟨opening :: (out.text ++ cs), by simp [printRest, Output.andThen_text hout, hcs]⟩

end

section
variable {maxDigits depth depth' : Nat} {members : List (Text × Value)} {limits : Limits}

theorem print_obj_ends (h : (print maxDigits (.obj members) depth).error = none) :
    ∃ cs, (print maxDigits (.obj members) depth).text = cs ++ ['\x7d'] := by
  cases depth with
  | zero => cases h
  | succ depth => exact printContainer_ends h

/-- The scanner reads an object, whatever stands behind it. -/
theorem scanOnce_print_obj (hm : ∀ m ∈ members, Native m.2) (hdigits : 17 ≤ maxDigits)
    (hle : depth ≤ depth') (herror : (print maxDigits (.obj members) depth).error = none)
    (rest : List Char) :
    scanOnce maxDigits depth' ((print maxDigits (.obj members) depth).text ++ rest) =
      .ok ((Value.obj members).joined, rest) := by
  cases depth with
  | zero => cases herror
  | succ depth =>
    cases depth' with
    | zero => cases hle
    | succ depth' =>
      have hreads := reads_members refuses_scanOnce_nil fun m hmem =>
        reads_print (hm m hmem) hdigits (Nat.le_of_succ_le_succ hle)
      have hopens : Opens (scanMember (scanOnce maxDigits depth'))
          (scanOnce maxDigits (depth' + 1)) '\x7b' '\x7d' .obj := opens_obj
      have hwhole := (scanContainer_printed hopens.consumes hopens.empty hopens.close_mem
        hopens.not_comma hreads).1
      rw [print, printContainer_eq] at herror ⊢
      rw [List.cons_append, hopens.eq, hwhole herror rest]
      rfl

/-- An object with more than blanks behind it is no JSON. -/
theorem refuses_trailing (hm : ∀ m ∈ members, Native m.2)
    (herror : (print limits.digits (.obj members) limits.printDepth).error = none)
    {rest : List Char} (hrest : skipWs rest ≠ []) :
    Refuses
      (scan limits ((print limits.digits (.obj members) limits.printDepth).text ++ rest)) := by
  have hobj : Native (.obj members) := .obj hm
  have hreads := reads_print hobj limits.digits_le limits.depth_le
  have hbom : ((print limits.digits (.obj members) limits.printDepth).text ++ rest).head? ≠
      some '\ufeff' := by
    obtain ⟨c, cs, htext⟩ := List.exists_cons_of_ne_nil (hreads.nonempty herror)
    have hascii : Ascii (print limits.digits (.obj members) limits.printDepth).text :=
      ascii_print hobj
    rw [htext] at hascii ⊢
    exact hascii.no_bom
  rw [scan, if_neg hbom, hreads.skipWs_whole herror,
    scanOnce_print_obj hm limits.digits_le limits.depth_le herror rest]
  exact ⟨"Extra data", if_neg hrest⟩

end
end FastGeoApi.Json
