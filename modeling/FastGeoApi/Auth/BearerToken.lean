import FastGeoApi.Auth.FailClosed
import FastGeoApi.Auth.Rfc6750

/-!
# Bearer credentials

RFC 6750 has the scheme `Bearer` in any letter case, a space and the token. `authenticate` takes
every `Bearer ` out of the header instead, wherever it stands, and looks for no scheme.
-/

namespace FastGeoApi
open Substitution

/-- The header is the scheme, one space and the token. -/
def IsBearer (header token : String) : Prop :=
  ∃ scheme : List Char, scheme.map Char.toLower = "bearer".toList ∧
    header.toList = scheme ++ ' ' :: token.toList

/-- `auth_header.lower().startswith("bearer ")`. -/
def bearerTest (header : String) : Bool := "bearer ".toList.isPrefixOf (lower header)

/-- Whatever decodes the tokens, the claims returned are those of the token in the header, and a
header that is accepted passes the test of the other middleware. -/
def ParsesBearer (header : String) : Prop :=
  ∀ w config request, request.headers.lookup "authorization" = some header → ∀ claims,
    (authenticate w config request = .ok claims ↔
      ∃ token, IsBearer header token ∧ decodeToken w config token = .ok claims) ∧
    (authenticate w config request = .ok claims → bearerTest header = true)

/-- It is the test of `RFC6750CompliantAuthMiddleware`. -/
theorem tokenWasProvided_eq_test (scope : McpScope) :
    tokenWasProvided scope = (decodeUtf8 (authHeader (scope.headers.getD []))).map bearerTest := by
  rw [tokenWasProvided]
  cases decodeUtf8 (authHeader (scope.headers.getD [])) <;> rfl

section
variable {header token : String}

theorem IsBearer.bearerTest (h : IsBearer header token) : bearerTest header = true := by
  obtain ⟨scheme, hscheme, heq⟩ := h
  rw [FastGeoApi.bearerTest, lower, heq, List.map_append, hscheme]
  exact List.isPrefixOf_iff_prefix.mpr ⟨token.toList.map Char.toLower, rfl⟩

/-- What comes in front of the token. -/
theorem isBearer_iff : IsBearer header token ↔
    ∃ start : List Char, start.map Char.toLower = "bearer ".toList ∧
      header.toList = start ++ token.toList := by
  refine ⟨fun ⟨scheme, hscheme, heq⟩ => ⟨scheme ++ [' '], ?_, ?_⟩, fun ⟨start, hstart, heq⟩ => ?_⟩
  · rw [List.map_append, hscheme]
    rfl
  · rw [heq, List.append_assoc, List.singleton_append]
  · have hsplit : start.map Char.toLower = "bearer".toList ++ [' '] := hstart
    obtain ⟨scheme, last, rfl, hscheme, hlast⟩ := List.map_eq_append_iff.mp hsplit
    obtain ⟨c, rfl, hc⟩ := List.map_eq_singleton_iff.mp hlast
    rw [toLower_eq_space hc, List.append_assoc, List.singleton_append] at heq
    exact ⟨scheme, hscheme, heq⟩

theorem bearerTest_iff : bearerTest header = true ↔ ∃ token, IsBearer header token := by
  refine ⟨fun h => ?_, fun ⟨token, h⟩ => h.bearerTest⟩
  obtain ⟨rest, hrest⟩ := List.isPrefixOf_iff_prefix.mp h
  rw [lower] at hrest
  obtain ⟨start, token, heq, hstart, _⟩ := List.map_eq_append_iff.mp hrest.symm
  refine ⟨String.ofList token, isBearer_iff.mpr ⟨start, hstart, ?_⟩⟩
  rw [heq, String.toList_ofList]

/-! ## The text that is taken out -/

def bearer : List Char := "Bearer ".toList

theorem remove_bearer :
    (Str.remove header "Bearer ").toList = replaceAll bearer [] header.toList := by
  rw [Str.remove_eq_replace (by decide), Str.replace, String.toList_ofList]
  rfl

theorem bearer_ne_nil : bearer ≠ [] := List.cons_ne_nil _ _

/-- In another letter case the scheme stays in the text. -/
theorem replaceAll_other_case {start text : List Char}
    (hstart : start.map Char.toLower = "bearer ".toList) (hne : start ≠ bearer) :
    replaceAll bearer [] (start ++ text) = start ++ replaceAll bearer [] text := by
  refine replaceAll_pass fun t hnil ht hprefix => ?_
  obtain ⟨front, rfl⟩ := ht
  cases front with
  | nil =>
    have hlength : t.length = bearer.length := by
      have hmap := congrArg List.length hstart
      rwa [List.length_map] at hmap
    rw [List.nil_append] at hne
    have hsame := List.prefix_of_prefix_length_le hprefix (List.prefix_append t text) hlength.ge
    exact hne (hsame.eq_of_length hlength.symm).symm
  | cons c front =>
    -- the first letter comes once, and the text begins behind it
    obtain ⟨rest, hrest⟩ := hprefix
    cases t with
    | nil => exact hnil rfl
    | cons d t =>
      obtain rfl : 'B' = d := (List.cons.inj hrest).1
      rw [List.cons_append, List.map_cons, List.map_append, List.map_cons] at hstart
      have hmem : Char.toLower 'B' ∈ "earer ".toList := by
        have htail : front.map Char.toLower ++ Char.toLower 'B' :: t.map Char.toLower =
            "earer ".toList := (List.cons.inj hstart).2
        rw [← htail]
        exact List.mem_append_right _ List.mem_cons_self
      exact absurd hmem (by decide)

/-- The token is never what is left of a scheme in another letter case. -/
theorem ne_other_case {start : List Char} (hstart : start.map Char.toLower = "bearer ".toList)
    (hne : start ≠ bearer) (text : List Char) : text ≠ start ++ replaceAll bearer [] text := by
  induction hn : text.length using Nat.strongRecOn generalizing text with
  | ind n ih =>
    intro heq
    have hlength : start.length = 7 := by
      have hmap := congrArg List.length hstart
      rwa [List.length_map] at hmap
    have hshort : (replaceAll bearer [] text).length < n := by
      have htext := congrArg List.length heq
      rw [List.length_append, hn] at htext
      omega
    refine ih _ hshort (replaceAll bearer [] text) rfl ?_
    rw [← replaceAll_other_case hstart hne, ← heq]

/-! ## Which headers are parsed right -/

theorem authenticate_eq_ok {w : JwksWorld} {config : JWKSConfig} {request : Request}
    (hheader : request.headers.lookup "authorization" = some header) {claims : Claims} :
    authenticate w config request = .ok claims ↔
      header ≠ "" ∧ decodeToken w config (Str.remove header "Bearer ") = .ok claims := by
  rw [authenticate, hheader, Option.getD_some]
  by_cases hempty : header = ""
  · simp [hempty]
  · simp only [hempty, if_false, ne_eq, not_false_eq_true, true_and]
    cases decodeToken w config (Str.remove header "Bearer ") <;> simp

end

/-- `Bearer`, a space, and a token without the two. -/
def PlainBearer (header : String) : Prop :=
  ∃ token, header = "Bearer " ++ token ∧ Str.isIn "Bearer " token = false

section
variable {header token : String}

theorem IsBearer.unique {token' : String} (h : IsBearer header token)
    (h' : IsBearer header token') : token = token' := by
  obtain ⟨start, hstart, heq⟩ := isBearer_iff.mp h
  obtain ⟨start', hstart', heq'⟩ := isBearer_iff.mp h'
  have hlength : start.length = start'.length := by
    have hmap := congrArg List.length (hstart.trans hstart'.symm)
    rwa [List.length_map, List.length_map] at hmap
  exact String.toList_inj.mp (List.append_inj_right (heq.symm.trans heq') hlength)

theorem isBearer_append : IsBearer ("Bearer " ++ token) token :=
  isBearer_iff.mpr ⟨bearer, by decide, String.toList_append ..⟩

theorem remove_append (h : Str.isIn "Bearer " token = false) :
    Str.remove ("Bearer " ++ token) "Bearer " = token := by
  have hnot : ¬bearer <:+: token.toList := fun hoccurs => by
    rw [Str.isIn_iff.mpr hoccurs] at h
    cases h
  have hsplit : ("Bearer " ++ token).toList = bearer ++ token.toList := String.toList_append ..
  rw [← String.toList_inj, remove_bearer, hsplit, replaceAll_hit bearer_ne_nil, List.nil_append,
    replaceAll_of_not_infix hnot]

theorem parsesBearer_of_plain (h : PlainBearer header) : ParsesBearer header := by
  obtain ⟨token, rfl, hnot⟩ := h
  intro w config request hheader claims
  have hne : "Bearer " ++ token ≠ "" := by
    intro hempty
    have hlength := congrArg String.length hempty
    rw [String.length_append] at hlength
    cases Nat.eq_zero_of_add_eq_zero_right hlength
  rw [authenticate_eq_ok hheader, remove_append hnot]
  refine ⟨⟨fun ⟨_, hclaims⟩ => ⟨token, isBearer_append, hclaims⟩, ?_⟩,
    fun _ => isBearer_append.bearerTest⟩
  rintro ⟨token', hbearer, hclaims⟩
  obtain rfl : token = token' := isBearer_append.unique hbearer
  exact ⟨hne, hclaims⟩

theorem parsesBearer_empty : ParsesBearer "" := by
  intro w config request hheader claims
  have hno : ¬∃ token, IsBearer "" token := fun hbearer =>
    absurd (bearerTest_iff.mpr hbearer) (by decide)
  rw [authenticate_eq_ok hheader]
  refine ⟨iff_of_false (fun h => h.1 rfl) ?_, fun h => absurd rfl h.1⟩
  rintro ⟨token, hbearer, _⟩
  exact hno ⟨token, hbearer⟩

end

/-! ## A decoder that knows one token -/

def oneTokenWorld (token : String) : JwksWorld where
  getJwks _ := .ok [⟨some "RS256", []⟩]
  decode _ t _ := if t = token then .ok cognitoClaims else .error ⟨.joseError, "bad_signature"⟩
  validate _ _ _ := .ok ()
  now := 1000

theorem oneTokenWorld_decodes {token : String} :
    ∃ claims, decodeToken (oneTokenWorld token) {} token = .ok claims := by
  refine ⟨setDefaultAudience cognitoClaims, decodeToken_eq_ok.mpr ?_⟩
  rw [decodeClaims_eq_ok]
  exact ⟨_, rfl, "RS256", rfl, cognitoClaims, if_pos rfl, rfl, rfl, rfl, rfl⟩

theorem eq_of_decodes {token t : String} {claims : Claims}
    (h : decodeToken (oneTokenWorld token) {} t = .ok claims) : t = token := by
  obtain ⟨_, _, _, _, _, hdecode, _⟩ := decodeClaims_eq_ok.mp (decodeToken_eq_ok.mp h)
  by_contra hne
  simp [oneTokenWorld, hne] at hdecode

def requestWith (header : String) : Request where
  method := "GET"
  path := "/geoapi/collections"
  headers := [("authorization", header)]

theorem requestWith_header (header : String) :
    (requestWith header).headers.lookup "authorization" = some header := List.lookup_cons_self

theorem plain_of_parsesBearer {header : String} (hne : header ≠ "") (h : ParsesBearer header) :
    PlainBearer header := by
  obtain ⟨claims, hclaims⟩ : ∃ claims, decodeToken
      (oneTokenWorld (Str.remove header "Bearer ")) {} (Str.remove header "Bearer ") = .ok claims :=
    oneTokenWorld_decodes
  have haccepted : authenticate (oneTokenWorld (Str.remove header "Bearer ")) {}
      (requestWith header) = .ok claims :=
    (authenticate_eq_ok (requestWith_header header)).mpr ⟨hne, hclaims⟩
  obtain ⟨token, hbearer, hdecodes⟩ := (h _ _ _ (requestWith_header header) claims).1.mp haccepted
  obtain ⟨start, hstart, heq⟩ := isBearer_iff.mp hbearer
  have htoken : token.toList = replaceAll bearer [] (start ++ token.toList) := by
    rw [← heq, ← remove_bearer, ← eq_of_decodes hdecodes]
  by_cases hcase : start = bearer
  · rw [hcase, replaceAll_hit bearer_ne_nil, List.nil_append] at htoken
    refine ⟨token, String.toList_inj.mp ?_, ?_⟩
    · rw [heq, hcase, String.toList_append]
      rfl
    · rw [← Bool.not_eq_true, Str.isIn_iff]
      exact (replaceAll_eq_self_iff.mp htoken.symm).resolve_right bearer_ne_nil
  · rw [replaceAll_other_case hstart hcase] at htoken
    exact absurd htoken (ne_other_case hstart hcase _)

theorem parsesBearer_iff (header : String) :
    ParsesBearer header ↔ header = "" ∨ PlainBearer header := by
  refine ⟨fun h => ?_, fun h => ?_⟩
  · by_cases hempty : header = ""
    · exact .inl hempty
    · exact .inr (plain_of_parsesBearer hempty h)
  · rcases h with rfl | hplain
    · exact parsesBearer_empty
    · exact parsesBearer_of_plain hplain

theorem oneTokenWorld_accepts {token header : String} (hne : header ≠ "")
    (h : Str.remove header "Bearer " = token) :
    ∃ claims, authenticate (oneTokenWorld token) {} (requestWith header) = .ok claims := by
  obtain ⟨claims, hclaims⟩ : ∃ claims, decodeToken (oneTokenWorld token) {} token = .ok claims :=
    oneTokenWorld_decodes
  exact ⟨claims, (authenticate_eq_ok (requestWith_header header)).mpr ⟨hne, h.symm ▸ hclaims⟩⟩

/-- A token without a scheme, one with `Bearer ` in its middle, and the scheme in small letters: the
first two are accepted, and the third is not. -/
theorem headers_not_parsed :
    ((∃ claims, authenticate (oneTokenWorld "abc") {} (requestWith "abc") = .ok claims) ∧
        ¬ParsesBearer "abc") ∧
      ((∃ claims, authenticate (oneTokenWorld "abc") {} (requestWith "Bearer aBearer bc") =
          .ok claims) ∧ ¬ParsesBearer "Bearer aBearer bc") ∧
      (∀ claims, authenticate (oneTokenWorld "abc") {} (requestWith "bearer abc") ≠ .ok claims) ∧
        ¬ParsesBearer "bearer abc" := by
  refine ⟨⟨oneTokenWorld_accepts (by decide) (by decide), fun h => ?_⟩,
    ⟨oneTokenWorld_accepts (by decide) (by decide), fun h => ?_⟩, fun claims hclaims => ?_,
    fun h => ?_⟩
  · obtain ⟨token, heq, _⟩ := plain_of_parsesBearer (by decide) h
    have hlist := congrArg String.toList heq
    rw [String.toList_append] at hlist
    cases hlist
  · obtain ⟨token, heq, hnot⟩ := plain_of_parsesBearer (by decide) h
    have hlist := congrArg String.toList heq
    rw [String.toList_append] at hlist
    have hsplit : bearer ++ "aBearer bc".toList = bearer ++ token.toList := hlist
    rw [← String.toList_inj.mp (List.append_cancel_left hsplit)] at hnot
    exact absurd hnot (by decide)
  · rw [authenticate_eq_ok (requestWith_header _)] at hclaims
    exact absurd (eq_of_decodes hclaims.2) (by decide)
  · obtain ⟨token, heq, _⟩ := plain_of_parsesBearer (by decide) h
    have hlist := congrArg String.toList heq
    rw [String.toList_append] at hlist
    cases hlist

end FastGeoApi
