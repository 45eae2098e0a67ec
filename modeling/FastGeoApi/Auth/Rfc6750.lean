import Mathlib
import FastGeoApi.Python.Bytes
import FastGeoApi.Python.Dict
import FastGeoApi.Python.Str

/-!
# Authentication errors of the MCP server

`RFC6750CompliantAuthMiddleware` of `app/auth/mcp_auth_provider.py`. `_send_auth_error` is inherited
from the MCP SDK: it is a parameter, with what the middleware relies on in `SendsChallenges`.
-/

namespace FastGeoApi

/-- A pydantic URL. Its text has no quote: pydantic encodes them. -/
structure AnyHttpUrl where
  text : String
  noQuote : '"' ∉ text.toList

/-- A scope as the middleware sees it. Header names and values are raw bytes. -/
structure McpScope where
  type : String
  headers : Option (List (ByteArray × ByteArray))
  /-- `isinstance(scope.get("user"), AuthenticatedUser)`. -/
  userAuthenticated : Bool
  /-- The scopes of `scope.get("auth")`. -/
  auth : Option (List String)

structure McpAuthMiddleware where
  requiredScopes : List String
  resourceMetadataUrl : Option AnyHttpUrl

/-- What a call of the middleware comes to. -/
inductive AuthAnswer where
  | invalidToken
  | missingToken
  | insufficientScope (requiredScope : String)
  | app

/-- `headers.get(b"authorization", b"")`. -/
def authHeader (headers : List (ByteArray × ByteArray)) : ByteArray :=
  (pyGet (pyDict headers) "authorization".toByteArray).getD .empty

/-- The new value of `_token_was_provided`. -/
def tokenWasProvided (scope : McpScope) : Except PyError Bool := do
  let authHeader ← decodeUtf8 (authHeader (scope.headers.getD []))
  return "bearer ".toList.isPrefixOf (lower authHeader)

/-- The loop over the required scopes. -/
def checkScopes (authCredentials : Option (List String)) : List String → AuthAnswer
  | [] => .app
  | requiredScope :: requiredScopes =>
    match authCredentials with
    | none => .insufficientScope requiredScope
    | some scopes =>
      if requiredScope ∈ scopes then checkScopes authCredentials requiredScopes
      else .insufficientScope requiredScope

/-- `__call__`, up to the answer that it gives, with the value of `_token_was_provided` before and
after. -/
def McpAuthMiddleware.call (mw : McpAuthMiddleware) (tokenProvided : Bool) (scope : McpScope) :
    Bool × Except PyError AuthAnswer :=
  if scope.type = "http" then
    match tokenWasProvided scope with
    | .error e => (tokenProvided, .error e)
    | .ok provided => (provided, .ok (answer provided))
  else (tokenProvided, .ok (answer tokenProvided))
where
  answer (provided : Bool) : AuthAnswer :=
    if scope.userAuthenticated then checkScopes scope.auth mw.requiredScopes
    else if provided then .invalidToken
    else .missingToken

/-! ## Challenges -/

def missingTokenBody : ByteArray :=
  ("\x7b\"error\": \"unauthorized\", \"error_description\": \"Authentication required. " ++
    "Please authenticate to access this resource.\"\x7d").toByteArray

/-- `www_auth_parts`. -/
def wwwAuthParts (resourceMetadataUrl : Option AnyHttpUrl) : List String :=
  ["realm=\"mcp\""] ++ match resourceMetadataUrl with
    | none => []
    | some url => ["resource_metadata=\"" ++ url.text ++ "\""]

/-- `www_authenticate`. -/
def wwwAuthenticate (resourceMetadataUrl : Option AnyHttpUrl) : String :=
  "Bearer " ++ Str.joinWith ", " (wwwAuthParts resourceMetadataUrl)

/-- `_send_missing_token_error`. -/
def sendMissingTokenError (resourceMetadataUrl : Option AnyHttpUrl) : List Message :=
  [.start {
      status := 401
      headers := [("content-type", "application/json"),
        ("content-length", toString missingTokenBody.size),
        ("www-authenticate", wwwAuthenticate resourceMetadataUrl)] },
    .body missingTokenBody false]

/-- The messages that an answer is sent in; the inner application sends its own. -/
def answerMessages (sendAuthError : Nat → String → String → List Message) (mw : McpAuthMiddleware) :
    AuthAnswer → List Message
  | .invalidToken => sendAuthError 401 "invalid_token"
      "The provided bearer token is invalid, expired, or revoked."
  | .missingToken => sendMissingTokenError mw.resourceMetadataUrl
  | .insufficientScope requiredScope => sendAuthError 403 "insufficient_scope"
      ("Required scope: " ++ requiredScope)
  | .app => []

/-- The parameters of a challenge from the left, each one `name="value"`, with `, ` in between. -/
def challengeParams : Nat → List Char → List (String × String)
  | 0, _ => []
  | fuel + 1, cs =>
    match cs.dropWhile (· ≠ '=') with
    | '=' :: '"' :: rest =>
      (String.ofList (cs.takeWhile (· ≠ '=')), String.ofList (rest.takeWhile (· ≠ '"'))) ::
        challengeParams fuel ((rest.dropWhile (· ≠ '"')).drop 3)
    | _ => []

/-- The error code of a Bearer challenge. -/
def errorCode (challenge : String) : Option String :=
  (challengeParams challenge.length (challenge.toList.drop 7)).lookup "error"

/-- One response of this status is sent, and its challenge has this error code or none. -/
def Responds (messages : List Message) (status : Nat) (code : Option String) : Prop :=
  ∃ start body challenge, messages = [.start start, .body body false] ∧ start.status = status ∧
    start.headers.lookup "www-authenticate" = some challenge ∧ errorCode challenge = code

/-- What `_send_auth_error` of the SDK does: one response, whose challenge names the error. -/
def SendsChallenges (sendAuthError : Nat → String → String → List Message) : Prop :=
  ∀ status error description, '"' ∉ error.toList →
    Responds (sendAuthError status error description) status (some error)

/-! ## What RFC 6750 asks for -/

/-- Header names are the same in any letter case. -/
def isAuthorization (name : ByteArray) : Prop := lowerBytes name = ascii "authorization"

/-- The scheme is what comes before the first space, and is the same in any letter case. -/
def hasBearerScheme (value : ByteArray) : Prop :=
  (lowerBytes value).takeWhile (· ≠ 32) = ascii "bearer"

def BearerPresent (headers : List (ByteArray × ByteArray)) : Prop :=
  ∃ header ∈ headers, isAuthorization header.1 ∧ hasBearerScheme header.2

def ScopeMissing (mw : McpAuthMiddleware) (scope : McpScope) : Prop :=
  ∃ requiredScope ∈ mw.requiredScopes, ∀ scopes, scope.auth = some scopes → requiredScope ∉ scopes

/-- The call does not raise, and answers as RFC 6750 has it. -/
structure Rfc6750Compliant (sendAuthError : Nat → String → String → List Message)
    (mw : McpAuthMiddleware) (tokenProvided : Bool) (scope : McpScope) : Prop where
  answers : ∃ answer, (mw.call tokenProvided scope).2 = .ok answer ∧
    (scope.userAuthenticated = false → BearerPresent (scope.headers.getD []) → answer ≠ .app ∧
      Responds (answerMessages sendAuthError mw answer) 401 (some "invalid_token")) ∧
    (scope.userAuthenticated = false → ¬BearerPresent (scope.headers.getD []) → answer ≠ .app ∧
      Responds (answerMessages sendAuthError mw answer) 401 none) ∧
    (scope.userAuthenticated = true → ScopeMissing mw scope → answer ≠ .app ∧
      Responds (answerMessages sendAuthError mw answer) 403 (some "insufficient_scope")) ∧
    (scope.userAuthenticated = true → ¬ScopeMissing mw scope →
      answer = .app ∧ answerMessages sendAuthError mw answer = [])

/-- The header that the middleware looks at is text, and when a Bearer header is there and the user
is not authenticated, it is that header: it begins with `bearer` and a space, in any letter case. -/
structure Classifiable (scope : McpScope) : Prop where
  decodes : ∃ text, decodeUtf8 (authHeader (scope.headers.getD [])) = .ok text
  bearer : scope.userAuthenticated = false → BearerPresent (scope.headers.getD []) →
    ascii "bearer " <+: lowerBytes (authHeader (scope.headers.getD []))

/-! ## Error codes -/

theorem takeWhile_ne {c : Char} {cs ds : List Char} (h : c ∉ cs) :
    (cs ++ c :: ds).takeWhile (· ≠ c) = cs ∧ (cs ++ c :: ds).dropWhile (· ≠ c) = c :: ds := by
  have hall : ∀ d ∈ cs, decide (d ≠ c) = true := by
    intro d hd
    apply decide_eq_true
    rintro rfl
    exact h hd
  rw [List.takeWhile_append_of_pos hall, List.dropWhile_append_of_pos hall]
  simp

theorem challengeParams_cons {name value rest : List Char} {fuel : Nat} (hname : '=' ∉ name)
    (hvalue : '"' ∉ value) :
    challengeParams (fuel + 1) (name ++ '=' :: '"' :: (value ++ '"' :: rest)) =
      (String.ofList name, String.ofList value) :: challengeParams fuel (rest.drop 2) := by
  rw [challengeParams, (takeWhile_ne hname).1, (takeWhile_ne hname).2]
  simp only
  rw [(takeWhile_ne hvalue).1, (takeWhile_ne hvalue).2, List.drop_succ_cons]

theorem challengeParams_nil {fuel : Nat} : challengeParams fuel [] = [] := by
  cases fuel <;> rfl

/-- A challenge that begins with an error code. -/
theorem errorCode_of_first {code rest : String} (h : '"' ∉ code.toList) :
    errorCode ("Bearer " ++ ("error=\"" ++ code ++ "\"" ++ rest)) = some code := by
  have hparams : ("Bearer " ++ ("error=\"" ++ code ++ "\"" ++ rest)).toList.drop 7 =
      "error".toList ++ '=' :: '"' :: (code.toList ++ '"' :: rest.toList) := by
    simp [String.toList_append]
  obtain ⟨n, hn⟩ : ∃ n, ("Bearer " ++ ("error=\"" ++ code ++ "\"" ++ rest)).length = n + 1 := by
    apply Nat.exists_eq_succ_of_ne_zero
    simp [String.length_append]
  rw [errorCode, hparams, hn, challengeParams_cons (by decide) h, String.ofList_toList,
    String.ofList_toList]
  exact List.lookup_cons_self

theorem errorCode_wwwAuthenticate {url : Option AnyHttpUrl} :
    errorCode (wwwAuthenticate url) = none := by
  cases url with
  | none => decide
  | some url =>
    have hparams : (wwwAuthenticate (some url)).toList.drop 7 =
        "realm".toList ++ '=' :: '"' :: ("mcp".toList ++ '"' :: (", ".toList ++
          ("resource_metadata".toList ++ '=' :: '"' :: (url.text.toList ++ ['"'])))) := by
      simp [wwwAuthenticate, wwwAuthParts, Str.joinWith, String.toList_append]
    obtain ⟨n, hn⟩ : ∃ n, (wwwAuthenticate (some url)).length = n + 2 := by
      refine ⟨(wwwAuthenticate (some url)).length - 2, ?_⟩
      have hbearer : "Bearer ".length = 7 := rfl
      simp [wwwAuthenticate, wwwAuthParts, Str.joinWith, String.length_append]
      omega
    rw [errorCode, hparams, hn, challengeParams_cons (by decide) (by decide)]
    have hrest : (", ".toList ++ ("resource_metadata".toList ++ '=' :: '"' ::
        (url.text.toList ++ ['"']))).drop 2 =
        "resource_metadata".toList ++ '=' :: '"' :: (url.text.toList ++ ['"']) := rfl
    rw [hrest, challengeParams_cons (by decide) url.noQuote, List.drop_nil, challengeParams_nil]
    have hrealm : ("error" == String.ofList "realm".toList) = false := by decide
    have hmetadata : ("error" == String.ofList "resource_metadata".toList) = false := by decide
    rw [List.lookup_cons, hrealm, List.lookup_cons, hmetadata, List.lookup_nil]

/-! ## Which scopes are answered right -/

section
variable {sendAuthError : Nat → String → String → List Message} {mw : McpAuthMiddleware}
  {tokenProvided : Bool} {scope : McpScope} {headers : List (ByteArray × ByteArray)}

theorem sendMissingTokenError_responds :
    Responds (sendMissingTokenError mw.resourceMetadataUrl) 401 none :=
  ⟨_, _, _, rfl, rfl, rfl, errorCode_wwwAuthenticate⟩

theorem Responds.code_unique {messages : List Message} {status : Nat} {code code' : Option String}
    (h : Responds messages status code) (h' : Responds messages status code') : code = code' := by
  obtain ⟨start, body, challenge, rfl, _, hlookup, hcode⟩ := h
  obtain ⟨start', body', challenge', heq, _, hlookup', hcode'⟩ := h'
  cases heq
  rw [hlookup] at hlookup'
  cases hlookup'
  rw [← hcode, hcode']

theorem scopeMissing_cons {requiredScope : String} {requiredScopes : List String}
    {resourceMetadataUrl : Option AnyHttpUrl} :
    ScopeMissing ⟨requiredScope :: requiredScopes, resourceMetadataUrl⟩ scope ↔
      (∀ scopes, scope.auth = some scopes → requiredScope ∉ scopes) ∨
        ScopeMissing ⟨requiredScopes, resourceMetadataUrl⟩ scope := by
  simp [ScopeMissing]

/-- The loop finds a missing scope when there is one. -/
theorem checkScopes_cases :
    (¬ScopeMissing mw scope ∧ checkScopes scope.auth mw.requiredScopes = .app) ∨
      (ScopeMissing mw scope ∧
        ∃ s, checkScopes scope.auth mw.requiredScopes = .insufficientScope s) := by
  obtain ⟨requiredScopes, url⟩ := mw
  simp only
  induction requiredScopes with
  | nil => exact .inl ⟨fun ⟨_, h, _⟩ => (List.not_mem_nil h).elim, rfl⟩
  | cons s requiredScopes ih =>
    rw [scopeMissing_cons]
    cases hauth : scope.auth with
    | none => exact .inr ⟨.inl fun _ h => (nomatch h), s, rfl⟩
    | some scopes =>
      rw [hauth] at ih
      rw [checkScopes]
      by_cases hs : s ∈ scopes
      · simp only [hs, if_true]
        have hhas : ¬∀ scopes', some scopes = some scopes' → s ∉ scopes' := fun h => h scopes rfl hs
        simpa only [hhas, false_or] using ih
      · simp only [hs, if_false]
        refine .inr ⟨.inl fun scopes' h => ?_, s, rfl⟩
        cases h
        exact hs

theorem tokenWasProvided_eq {text : String}
    (h : decodeUtf8 (authHeader (scope.headers.getD [])) = .ok text) :
    tokenWasProvided scope =
      .ok (decide (ascii "bearer " <+: lowerBytes (authHeader (scope.headers.getD [])))) := by
  have hascii : "bearer ".toList.all (·.val.toNat < 128) = true := by decide
  have hbearer : ∀ c ∈ "bearer ".toList, c.val.toNat < 128 := fun c hc =>
    of_decide_eq_true (List.all_eq_true.mp hascii c hc)
  rw [tokenWasProvided, h]
  simp only [bind, Except.bind, pure, Except.pure]
  rw [Bool.eq_iff_iff.mpr ((ascii_prefix_iff hbearer h).trans decide_eq_true_iff.symm)]

theorem bearerPresent_of_authHeader (h : ascii "bearer " <+: lowerBytes (authHeader headers)) :
    BearerPresent headers := by
  rw [authHeader] at h
  cases hget : pyGet (pyDict headers) "authorization".toByteArray with
  | none =>
    rw [hget] at h
    exact absurd h (by decide)
  | some value =>
    rw [hget, Option.getD_some] at h
    refine ⟨("authorization".toByteArray, value), mem_of_pyGet_pyDict hget, ?_, ?_⟩
    · have hname : lowerBytes "authorization".toByteArray = ascii "authorization" := by decide
      exact hname
    · obtain ⟨rest, hrest⟩ := h
      have hspace : ascii "bearer " = ascii "bearer" ++ [32] := by decide
      have hletters : ∀ b ∈ ascii "bearer", decide (b ≠ 32) = true :=
        List.all_eq_true.mp (by decide)
      rw [hasBearerScheme, ← hrest, hspace, List.append_assoc,
        List.takeWhile_append_of_pos hletters]
      simp

/-- The answer of a call that does not raise. -/
theorem call_http (hhttp : scope.type = "http") {provided : Bool}
    (h : tokenWasProvided scope = .ok provided) :
    mw.call tokenProvided scope =
      (provided, .ok (McpAuthMiddleware.call.answer mw scope provided)) := by
  rw [McpAuthMiddleware.call, if_pos hhttp, h]

theorem compliant_of_classifiable (hsend : SendsChallenges sendAuthError)
    (hhttp : scope.type = "http") (h : Classifiable scope) :
    Rfc6750Compliant sendAuthError mw tokenProvided scope := by
  obtain ⟨text, htext⟩ := h.decodes
  refine ⟨_, congrArg Prod.snd (call_http hhttp (tokenWasProvided_eq htext)), ?_⟩
  unfold McpAuthMiddleware.call.answer
  cases huser : scope.userAuthenticated with
  | false =>
    rw [if_neg Bool.false_ne_true]
    by_cases hbearer : ascii "bearer " <+: lowerBytes (authHeader (scope.headers.getD []))
    · rw [if_pos (decide_eq_true hbearer)]
      refine ⟨fun _ _ => ⟨nofun, hsend _ _ _ (by decide)⟩, fun _ hnot => ?_, nofun, nofun⟩
      exact absurd (bearerPresent_of_authHeader hbearer) hnot
    · rw [if_neg (by simpa using hbearer)]
      refine ⟨fun _ hpresent => ?_, fun _ _ => ⟨nofun, sendMissingTokenError_responds⟩, nofun,
        nofun⟩
      exact absurd (h.bearer huser hpresent) hbearer
  | true =>
    rw [if_pos rfl]
    refine ⟨nofun, nofun, ?_⟩
    rcases @checkScopes_cases mw scope with ⟨hhas, happ⟩ | ⟨hmissing, s, hs⟩
    · rw [happ]
      exact ⟨fun _ hmissing => absurd hmissing hhas, fun _ _ => ⟨rfl, rfl⟩⟩
    · rw [hs]
      exact ⟨fun _ _ => ⟨nofun, hsend _ _ _ (by decide)⟩, fun _ hhas => absurd hmissing hhas⟩

theorem classifiable_of_compliant (hhttp : scope.type = "http")
    (h : Rfc6750Compliant sendAuthError mw tokenProvided scope) :
    Classifiable scope := by
  obtain ⟨answer, hanswer, hinvalid, _⟩ := h.answers
  cases hdecode : decodeUtf8 (authHeader (scope.headers.getD [])) with
  | error e =>
    have hraises : tokenWasProvided scope = .error e := by rw [tokenWasProvided, hdecode]; rfl
    rw [McpAuthMiddleware.call, if_pos hhttp, hraises] at hanswer
    cases hanswer
  | ok text =>
    refine ⟨⟨text, hdecode⟩, fun huser hpresent => ?_⟩
    by_contra hbearer
    rw [call_http hhttp (tokenWasProvided_eq hdecode)] at hanswer
    unfold McpAuthMiddleware.call.answer at hanswer
    rw [huser, if_neg Bool.false_ne_true, if_neg (by simpa using hbearer)] at hanswer
    cases hanswer
    have hcode := (hinvalid huser hpresent).2.code_unique sendMissingTokenError_responds
    cases hcode

end

/-- The middleware answers an HTTP scope as RFC 6750 has it just when the last header with the name
`authorization` is UTF-8 and, for a user who is not authenticated, begins with `bearer` and a space
where there is a Bearer header at all. -/
theorem compliant_iff_classifiable (sendAuthError : Nat → String → String → List Message)
    (hsend : SendsChallenges sendAuthError) (mw : McpAuthMiddleware) (tokenProvided : Bool)
    (scope : McpScope) (hhttp : scope.type = "http") :
    Rfc6750Compliant sendAuthError mw tokenProvided scope ↔ Classifiable scope :=
  ⟨classifiable_of_compliant hhttp, compliant_of_classifiable hsend hhttp⟩

/-- `_send_auth_error` as the SDK has it. -/
def sdkSendAuthError (status : Nat) (error description : String) : List Message :=
  let body := "\x7b\"error\": \"" ++ error ++ "\", \"error_description\": \"" ++ description ++
    "\"\x7d"
  [.start {
      status := status
      headers := [("content-type", "application/json"),
        ("content-length", toString body.toByteArray.size),
        ("www-authenticate", "Bearer " ++ Str.joinWith ", "
          ["error=\"" ++ error ++ "\"", "error_description=\"" ++ description ++ "\""])] },
    .body body.toByteArray false]

theorem sdkSendAuthError_sendsChallenges : SendsChallenges sdkSendAuthError := by
  intro status error description herror
  have hjoin : Str.joinWith ", "
      ["error=\"" ++ error ++ "\"", "error_description=\"" ++ description ++ "\""] =
      "error=\"" ++ error ++ "\"" ++ (", " ++ ("error_description=\"" ++ description ++ "\"")) :=
    String.append_assoc
  refine ⟨_, _, _, rfl, rfl, rfl, ?_⟩
  rw [hjoin]
  exact errorCode_of_first herror

def mcpMiddleware : McpAuthMiddleware where
  requiredScopes := ["read"]
  resourceMetadataUrl := none

/-- A request of nobody who is known, with these headers. -/
def anonymousScope (headers : List (ByteArray × ByteArray)) : McpScope where
  type := "http"
  headers := some headers
  userAuthenticated := false
  auth := none

def rejectedScope : McpScope :=
  anonymousScope [("authorization".toByteArray, "BEARER expired".toByteArray)]

theorem rejectedScope_compliant_iff :
    Rfc6750Compliant sdkSendAuthError mcpMiddleware false rejectedScope ↔
      Classifiable rejectedScope :=
  compliant_iff_classifiable sdkSendAuthError sdkSendAuthError_sendsChallenges mcpMiddleware false
    rejectedScope rfl

/-- A byte that is not UTF-8. -/
def garbledScope : McpScope := anonymousScope [("authorization".toByteArray, ⟨#[0xff]⟩)]

def twiceScope : McpScope :=
  anonymousScope [("authorization".toByteArray, "Bearer expired".toByteArray),
    ("authorization".toByteArray, "Basic dTpw".toByteArray)]

/-- The first call raises; the second one, with an expired token, is answered as one without. -/
theorem garbledScope_not_compliant :
    (mcpMiddleware.call false garbledScope).2 = .error ⟨.unicodeDecodeError, "utf-8"⟩ ∧
      ¬Rfc6750Compliant sdkSendAuthError mcpMiddleware false garbledScope ∧
      BearerPresent (twiceScope.headers.getD []) ∧
      (mcpMiddleware.call false twiceScope).2 = .ok .missingToken ∧
      ¬Rfc6750Compliant sdkSendAuthError mcpMiddleware false twiceScope := by
  have hraises : (mcpMiddleware.call false garbledScope).2 =
      .error ⟨.unicodeDecodeError, "utf-8"⟩ := rfl
  have hbearer : BearerPresent (twiceScope.headers.getD []) := by
    refine ⟨_, List.mem_cons_self, ?_⟩
    unfold isAuthorization hasBearerScheme
    decide
  have hmissing : (mcpMiddleware.call false twiceScope).2 = .ok .missingToken := rfl
  refine ⟨hraises, fun h => ?_, hbearer, hmissing, fun h => ?_⟩
  · obtain ⟨answer, hanswer, _⟩ := h.answers
    rw [hraises] at hanswer
    cases hanswer
  · obtain ⟨answer, hanswer, hinvalid, _⟩ := h.answers
    rw [hmissing] at hanswer
    cases hanswer
    have hcode := (hinvalid rfl hbearer).2.code_unique sendMissingTokenError_responds
    cases hcode

end FastGeoApi
