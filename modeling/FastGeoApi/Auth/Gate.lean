import FastGeoApi.Auth.Jwks
import FastGeoApi.Config
import FastGeoApi.Python.Regex

/-!
# The authentication gate

`Oauth2Middleware` of `app/middleware/oauth2.py`. What a request does to it is a list of events:
the authenticators asked, the call of the inner application and the responses of its own.
-/

namespace FastGeoApi

/-- What an authenticator returns. -/
inductive AuthValue where
  | dict (claims : Claims)
  | redirect (url : String)
  | other (repr : String)

/-- An implementation of `AuthInterface`; its `authenticate` may be a coroutine or not. -/
structure Authenticator where
  isCoroutine : Bool
  authenticate : Request → Except PyError AuthValue

inductive Event where
  | authenticated (outcome : Except PyError AuthValue)
  | app
  | redirect (url : String)
  | unauthorized

structure Oauth2Middleware where
  authentication : List Authenticator
  skipEndpoints : List (String → Bool)

def defaultSkip : List String := ["/openapi", "/openapi.json", "/docs", "/redoc"]

/-- The patterns that `__init__` compiles. -/
def skipPatterns (cfg : Configuration) (skipEndpoints : Option (List String)) : List String :=
  let endpoints := match skipEndpoints with
    | none | some [] => defaultSkip
    | some endpoints => endpoints
  if cfg.fastgeoapiContext ∈ endpoints then endpoints
  else endpoints.map (cfg.fastgeoapiContext ++ ·)

/-- `Oauth2Middleware.__init__`. -/
def Oauth2Middleware.init (re : Re) (cfg : Configuration) (authentication : List Authenticator)
    (skipEndpoints : Option (List String)) : Except PyError Oauth2Middleware := do
  let compiled ← (skipPatterns cfg skipEndpoints).mapM re.compile
  return ⟨authentication, compiled⟩

def shouldSkipEndpoint (endpoint : String) (skipEndpoints : List (String → Bool)) : Bool :=
  skipEndpoints.any (· endpoint)

/-- `user_info_or_auth_redirect`: unassigned, a coroutine object, or what was returned. -/
inductive UserInfo where
  | unbound
  | coroutine
  | value (v : AuthValue)

/-- The loop over the authenticators, from the variable it starts with: the outcomes, and the
variable it leaves behind with `successful`. A coroutine object is assigned before it is awaited, so
it is left behind when the awaited call raises; a plain call that raises assigns nothing. -/
def authLoop (request : Request) :
    List Authenticator → UserInfo → List Event × Except PyError (UserInfo × Bool)
  | [], userInfo => ([], .ok (userInfo, false))
  | auth :: auths, userInfo =>
    let outcome := auth.authenticate request
    match outcome with
    | .ok (.dict claims) => ([.authenticated outcome], .ok (.value (.dict claims), true))
    | .ok v =>
      let (events, result) := authLoop request auths (.value v)
      (.authenticated outcome :: events, result)
    | .error e =>
      if e.cls = .oauth2Error then
        let (events, result) :=
          authLoop request auths (if auth.isCoroutine then .coroutine else userInfo)
        (.authenticated outcome :: events, result)
      else ([.authenticated outcome], .error e)

/-- What comes after the loop. -/
def answer : UserInfo × Bool → List Event × Except PyError Unit
  | (.unbound, _) => ([], .error ⟨.unboundLocalError, "user_info_or_auth_redirect"⟩)
  | (.value (.redirect url), _) => ([.redirect url], .ok ())
  | (_, true) => ([.app], .ok ())
  | (_, false) => ([.unauthorized], .ok ())

/-- `Oauth2Middleware.__call__`. -/
def Oauth2Middleware.call (mw : Oauth2Middleware) (scope : Scope) :
    List Event × Except PyError Unit :=
  match scope with
  | .lifespan => ([.app], .ok ())
  | .other _ => ([], .error ⟨.other "AssertionError", ""⟩)
  | .http request =>
    if request.method = "OPTIONS" then ([.app], .ok ())
    else if shouldSkipEndpoint request.path mw.skipEndpoints then ([.app], .ok ())
    else
      match authLoop request mw.authentication .unbound with
      | (events, .error e) => (events, .error e)
      | (events, .ok left) => (events ++ (answer left).1, (answer left).2)

/-- `JWKSAuthentication`, as an authenticator. -/
def jwksAuthenticator (w : JwksWorld) (config : JWKSConfig) : Authenticator where
  isCoroutine := true
  authenticate request := (authenticate w config request).map .dict

/-- The authenticator lets the request in. -/
def Authenticator.Admits (auth : Authenticator) (request : Request) : Prop :=
  ∃ claims, auth.authenticate request = .ok (.dict claims)

/-- The authenticator raises something that the gate does not catch. -/
def Authenticator.Breaks (auth : Authenticator) (request : Request) : Prop :=
  ∃ e, auth.authenticate request = .error e ∧ e.cls ≠ .oauth2Error

/-- Some authenticator admits the request, and none before it admits it or breaks. -/
def Admitted (auths : List Authenticator) (request : Request) : Prop :=
  ∃ before auth after, auths = before ++ auth :: after ∧ auth.Admits request ∧
    ∀ earlier ∈ before, ¬earlier.Admits request ∧ ¬earlier.Breaks request

section
variable {request : Request} {auths : List Authenticator} {userInfo : UserInfo}

theorem admitted_nil : ¬Admitted [] request := by
  intro hadmitted
  obtain ⟨before, auth, after, h, _⟩ := hadmitted
  cases before <;> cases h

theorem admitted_cons {auth : Authenticator} :
    Admitted (auth :: auths) request ↔
      auth.Admits request ∨
        ¬auth.Admits request ∧ ¬auth.Breaks request ∧ Admitted auths request := by
  constructor
  · intro hadmitted
    obtain ⟨before, admitting, after, h, hadmits, hbefore⟩ := hadmitted
    cases before with
    | nil =>
      obtain ⟨rfl, _⟩ := List.cons.inj h
      exact .inl hadmits
    | cons first before =>
      obtain ⟨rfl, rfl⟩ := List.cons.inj h
      obtain ⟨hrejects, hholds⟩ := hbefore auth List.mem_cons_self
      refine .inr ⟨hrejects, hholds, before, admitting, after, rfl, hadmits, ?_⟩
      exact fun earlier hearlier => hbefore earlier (List.mem_cons_of_mem _ hearlier)
  · rintro (hadmits | ⟨hrejects, hholds, before, admitting, after, rfl, hadmits, hbefore⟩)
    · exact ⟨[], auth, auths, rfl, hadmits, nofun⟩
    · refine ⟨auth :: before, admitting, after, rfl, hadmits, ?_⟩
      rintro earlier hearlier
      rcases List.mem_cons.mp hearlier with rfl | hearlier
      · exact ⟨hrejects, hholds⟩
      · exact hbefore earlier hearlier

/-- The loop only asks authenticators. -/
theorem authLoop_events {e : Event} (h : e ∈ (authLoop request auths userInfo).1) :
    ∃ outcome, e = .authenticated outcome := by
  induction auths generalizing userInfo with
  | nil => cases h
  | cons auth auths ih =>
    rw [authLoop] at h
    split at h
    · exact ⟨_, List.mem_singleton.mp h⟩
    · rcases List.mem_cons.mp h with rfl | h
      · exact ⟨_, rfl⟩
      · exact ih h
    · split at h
      · rcases List.mem_cons.mp h with rfl | h
        · exact ⟨_, rfl⟩
        · exact ih h
      · exact ⟨_, List.mem_singleton.mp h⟩

/-- The loop is successful when the request is admitted. -/
theorem authLoop_successful :
    (∃ left, (authLoop request auths userInfo).2 = .ok (left, true)) ↔ Admitted auths request := by
  induction auths generalizing userInfo with
  | nil => simp [authLoop, admitted_nil]
  | cons auth auths ih =>
    rw [authLoop, admitted_cons, Authenticator.Admits, Authenticator.Breaks]
    cases houtcome : auth.authenticate request with
    | ok v => cases v <;> simp [ih]
    | error e =>
      by_cases hcls : e.cls = .oauth2Error
      · simp [hcls, ih]
      · simp [hcls]

/-- A successful loop leaves the claims that it stopped at. -/
theorem authLoop_dict {left : UserInfo}
    (h : (authLoop request auths userInfo).2 = .ok (left, true)) :
    ∃ claims, left = .value (.dict claims) := by
  induction auths generalizing userInfo with
  | nil => cases h
  | cons auth auths ih =>
    rw [authLoop] at h
    split at h
    · cases h
      exact ⟨_, rfl⟩
    · exact ih h
    · split at h
      · exact ih h
      · cases h

/-! ## Requests that are neither preflight nor skipped -/

theorem answer_length {left : UserInfo × Bool} : (answer left).1.length ≤ 1 := by
  rcases left with ⟨_ | _ | (_ | _ | _), _ | _⟩ <;> simp [answer]

/-- The inner application is called after a successful loop, and after no other. -/
theorem app_mem_answer {successful : Bool}
    (h : successful = true → ∃ claims, userInfo = .value (.dict claims)) :
    Event.app ∈ (answer (userInfo, successful)).1 ↔ successful = true := by
  cases successful with
  | true =>
    obtain ⟨claims, rfl⟩ := h rfl
    exact ⟨fun _ => rfl, fun _ => List.mem_singleton_self _⟩
  | false =>
    refine ⟨fun happ => ?_, nofun⟩
    rcases userInfo with _ | _ | (_ | _ | _) <;> simp [answer] at happ

section
variable {mw : Oauth2Middleware}

/-- The request has to be authenticated. -/
structure Guarded (mw : Oauth2Middleware) (request : Request) : Prop where
  method : request.method ≠ "OPTIONS"
  notSkipped : shouldSkipEndpoint request.path mw.skipEndpoints = false

theorem call_guarded (h : Guarded mw request) :
    mw.call (.http request) =
      match authLoop request mw.authentication .unbound with
      | (events, .error e) => (events, .error e)
      | (events, .ok left) => (events ++ (answer left).1, (answer left).2) := by
  rw [Oauth2Middleware.call]
  simp only [h.method, h.notSkipped, if_false, Bool.false_eq_true]

/-- After the loop at most one thing happens, and it is the call of the inner application exactly
when the request is admitted. -/
theorem call_events (h : Guarded mw request) :
    ∃ asked last, (mw.call (.http request)).1 = asked ++ last ∧
      (∀ e ∈ asked, ∃ outcome, e = .authenticated outcome) ∧ last.length ≤ 1 ∧
      (Event.app ∈ last ↔ Admitted mw.authentication request) := by
  have hasked : ∀ e ∈ (authLoop request mw.authentication .unbound).1,
      ∃ outcome, e = .authenticated outcome := fun e he => authLoop_events he
  have hsuccessful : (∃ left, (authLoop request mw.authentication .unbound).2 = .ok (left, true)) ↔
      Admitted mw.authentication request := authLoop_successful
  rw [call_guarded h]
  cases hloop : authLoop request mw.authentication .unbound with
  | mk events result =>
    rw [hloop] at hasked hsuccessful
    rw [← hsuccessful]
    cases result with
    | error e =>
      refine ⟨events, [], (List.append_nil _).symm, hasked, Nat.zero_le 1, ?_⟩
      exact ⟨nofun, nofun⟩
    | ok left =>
      obtain ⟨userInfo, successful⟩ := left
      refine ⟨events, (answer (userInfo, successful)).1, rfl, hasked, answer_length, ?_⟩
      rw [app_mem_answer]
      · simp
      · rintro rfl
        exact authLoop_dict (congrArg Prod.snd hloop)

end

end
end FastGeoApi
