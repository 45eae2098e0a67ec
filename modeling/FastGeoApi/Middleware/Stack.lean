import FastGeoApi.Auth.PublicPaths
import FastGeoApi.Lib.Layers
import FastGeoApi.Middleware.OpenApi
import FastGeoApi.Middleware.Proxy

/-!
# The middlewares around pygeoapi

Each middleware of the application as a layer, and what the gate does to the layers before and
behind it: pygeoapi gets what the gate lets in, as if the gate were not there, and for everything
else it might as well be another application.
-/

namespace FastGeoApi
open Layers

/-- What a scope comes to: the messages that are sent, the scopes that pygeoapi is called with, and
whether an exception comes up. -/
structure Served where
  sent : List Message
  reached : List Scope
  result : Except PyError Unit

abbrev Asgi := App Scope Served

abbrev Middleware := Layer Scope Served

namespace Served

def answered (messages : List Message) : Served := ⟨messages, [], .ok ()⟩

def raised (e : PyError) : Served := ⟨[], [], .error e⟩

/-- One after the other, as long as nothing is raised. -/
def andThen (first second : Served) : Served :=
  match first.result with
  | .error _ => first
  | .ok () => ⟨first.sent ++ second.sent, first.reached ++ second.reached, second.result⟩

/-- pygeoapi is not called. -/
def Unreached (served : Served) : Prop := served.reached = []

@[simp] theorem unreached_answered {messages : List Message} : (answered messages).Unreached := rfl

@[simp] theorem unreached_raised {e : PyError} : (raised e).Unreached := rfl

theorem andThen_nothing (first : Served) : first.andThen (answered []) = first := by
  obtain ⟨sent, reached, result⟩ := first
  cases result with
  | error e => rfl
  | ok _ =>
    rw [andThen, answered]
    simp only [List.append_nil]

theorem nothing_andThen (second : Served) : (answered []).andThen second = second := rfl

theorem Unreached.andThen {first second : Served} (h : first.Unreached) (h' : second.Unreached) :
    (first.andThen second).Unreached := by
  unfold Served.andThen
  cases first.result with
  | error e => exact h
  | ok _ =>
    rw [Unreached] at h h' ⊢
    rw [h, h', List.append_nil]

end Served

/-! ## The gate -/

def unauthorizedBody : ByteArray := "\x7b\"message\":\"Unauthenticated\"\x7d".toByteArray

/-- `get_unauthorized_response`. -/
def getUnauthorizedResponse : List Message :=
  [.start {
      status := 401
      headers := [("content-length", toString unauthorizedBody.size),
        ("content-type", "application/json")] },
    .body unauthorizedBody false]

/-- What an event of the gate does, around this inner application. `redirectResponse` is what a
`RedirectResponse` sends. -/
def Event.serve (redirectResponse : String → List Message) (app : Asgi) (scope : Scope) :
    Event → Served
  | .authenticated _ => .answered []
  | .app => app scope
  | .redirect url => .answered (redirectResponse url)
  | .unauthorized => .answered getUnauthorizedResponse

/-- `Oauth2Middleware.__call__`, around the inner application. -/
def Oauth2Middleware.layer (mw : Oauth2Middleware) (redirectResponse : String → List Message) :
    Middleware := fun app scope =>
  let run := mw.call scope
  (run.1.map (Event.serve redirectResponse app scope)).foldr Served.andThen ⟨[], [], run.2⟩

/-- The scopes that the gate lets in. -/
inductive Oauth2Middleware.LetsIn (mw : Oauth2Middleware) : Scope → Prop
  | lifespan : mw.LetsIn .lifespan
  | preflight {request : Request} (h : request.method = "OPTIONS") : mw.LetsIn (.http request)
  | skipped {request : Request}
      (h : shouldSkipEndpoint request.path mw.skipEndpoints = true) : mw.LetsIn (.http request)
  | admitted {request : Request} (h : Admitted mw.authentication request) :
      mw.LetsIn (.http request)

section
variable {mw : Oauth2Middleware} {redirectResponse : String → List Message} {app : Asgi}
  {scope : Scope} {request : Request} {events : List Event} {rest : Served}

/-- Asking an authenticator sends nothing. -/
theorem foldr_asked (h : ∀ e ∈ events, ∃ outcome, e = .authenticated outcome) :
    (events.map (Event.serve redirectResponse app scope)).foldr Served.andThen rest = rest := by
  induction events with
  | nil => rfl
  | cons e events ih =>
    obtain ⟨outcome, rfl⟩ := h e List.mem_cons_self
    rw [List.map_cons, List.foldr_cons, ih fun e' he' => h e' (List.mem_cons_of_mem _ he')]
    exact Served.nothing_andThen rest

/-- An admitted request goes on to the inner application, after the authenticators. -/
theorem call_admitted (hguarded : Guarded mw request) (h : Admitted mw.authentication request) :
    ∃ asked, (∀ e ∈ asked, ∃ outcome, e = .authenticated outcome) ∧
      mw.call (.http request) = (asked ++ [.app], .ok ()) := by
  rw [call_guarded hguarded]
  obtain ⟨left, hleft⟩ : ∃ left,
      (authLoop request mw.authentication .unbound).2 = .ok (left, true) :=
    authLoop_successful.mpr h
  obtain ⟨claims, rfl⟩ := authLoop_dict hleft
  refine ⟨(authLoop request mw.authentication .unbound).1, fun e he => authLoop_events he, ?_⟩
  cases hloop : authLoop request mw.authentication .unbound with
  | mk events result =>
    rw [hloop] at hleft
    cases hleft
    rfl

/-- What the gate lets in goes through it as if it were not there. -/
theorem Oauth2Middleware.LetsIn.idle (h : mw.LetsIn scope) :
    Layer.Idle (mw.layer redirectResponse) scope := by
  intro app
  have happ (asked : List Event) (hasked : ∀ e ∈ asked, ∃ outcome, e = .authenticated outcome)
      (hcall : mw.call scope = (asked ++ [.app], .ok ())) :
      mw.layer redirectResponse app scope = app scope := by
    rw [Oauth2Middleware.layer, hcall]
    simp only [List.map_append, List.foldr_append]
    rw [foldr_asked hasked]
    exact Served.andThen_nothing (app scope)
  cases h with
  | lifespan => exact happ [] nofun rfl
  | preflight h => exact happ [] nofun (by rw [Oauth2Middleware.call, if_pos h]; rfl)
  | skipped h => exact happ [] nofun (by rw [call_skipped h]; rfl)
  | @admitted request h =>
    by_cases hguarded : Guarded mw request
    · obtain ⟨asked, hasked, hcall⟩ := call_admitted hguarded h
      exact happ asked hasked hcall
    · -- a request that is not guarded is a preflight or is skipped
      by_cases hmethod : request.method = "OPTIONS"
      · exact happ [] nofun (by rw [Oauth2Middleware.call, if_pos hmethod]; rfl)
      · have hskip : shouldSkipEndpoint request.path mw.skipEndpoints = true := by
          by_contra hnot
          exact hguarded ⟨hmethod, eq_false_of_ne_true hnot⟩
        exact happ [] nofun (by rw [call_skipped hskip]; rfl)

theorem app_not_mem_call (h : ¬mw.LetsIn scope) : Event.app ∉ (mw.call scope).1 := by
  cases scope with
  | lifespan => exact absurd .lifespan h
  | other type => exact nofun
  | http request =>
    have hguarded : Guarded mw request := by
      refine ⟨fun hmethod => h (.preflight hmethod), eq_false_of_ne_true fun hskip => ?_⟩
      exact h (.skipped hskip)
    obtain ⟨asked, last, hevents, hasked, -, happ⟩ := call_events hguarded
    rw [hevents, List.mem_append]
    rintro (hin | hin)
    · obtain ⟨outcome, houtcome⟩ := hasked _ hin
      cases houtcome
    · exact h (.admitted (happ.mp hin))

/-- What the gate does not let in is answered whatever is behind it. -/
theorem blocks_of_not_letsIn (h : ¬mw.LetsIn scope) :
    Layer.Blocks (mw.layer redirectResponse) scope := by
  intro app app'
  rw [Oauth2Middleware.layer, Oauth2Middleware.layer]
  have hserve : (mw.call scope).1.map (Event.serve redirectResponse app scope) =
      (mw.call scope).1.map (Event.serve redirectResponse app' scope) := by
    refine List.map_congr_left fun e he => ?_
    cases e with
    | app => exact absurd he (app_not_mem_call h)
    | _ => rfl
  simp only [hserve]

theorem keeps_layer : Layer.Keeps (mw.layer redirectResponse) Served.Unreached := by
  intro app happ scope
  rw [Oauth2Middleware.layer]
  generalize (mw.call scope).1 = events
  induction events with
  | nil => rfl
  | cons e events ih =>
    rw [List.map_cons, List.foldr_cons]
    refine Served.Unreached.andThen ?_ ih
    cases e with
    | app => exact happ scope
    | _ => rfl

end

/-! ## The other middlewares -/

/-- `OpenapiSecurityMiddleware.__call__`, around the inner application. -/
def openapiSecurityLayer (s : Starlette) (p : Pydantic) (cfg : Configuration)
    (securitySchemes : List SecurityScheme) : Middleware := fun app scope =>
  let served := app scope
  match openapiSecurityMiddleware s p cfg securitySchemes scope served.sent with
  | (sent, .ok ()) => ⟨sent, served.reached, served.result⟩
  | (sent, .error e) => ⟨sent, served.reached, .error e⟩

/-- What a response sends when it is called. -/
def Starlette.Response.messages (response : Starlette.Response) : List Message :=
  [.start { status := response.statusCode, headers := response.rawHeaders },
    .body response.body false]

/-- `ForwardedLinksMiddleware`, around the inner application. What `call_next` reads of what the
inner application does is Starlette's. -/
def forwardedLinksLayer (s : Starlette) (readResponse : Served → Except PyError InnerResponse)
    (pygeoapiBaseurl : String) : Middleware := fun app scope =>
  let served := app scope
  match scope with
  | .http request =>
    match readResponse served >>= dispatch s pygeoapiBaseurl request with
    | .ok response => ⟨response.messages, served.reached, .ok ()⟩
    | .error e => ⟨[], served.reached, .error e⟩
  | _ => served

section
variable {p : Pydantic} {cfg : Configuration} {securitySchemes : List SecurityScheme}
  {s : Starlette} {readResponse : Served → Except PyError InnerResponse} {pygeoapiBaseurl : String}

theorem openapiSecurityLayer_reached {app : Asgi} {scope : Scope} :
    (openapiSecurityLayer s p cfg securitySchemes app scope).reached = (app scope).reached := by
  rw [openapiSecurityLayer]
  split <;> rfl

theorem forwardedLinksLayer_reached {app : Asgi} {scope : Scope} :
    (forwardedLinksLayer s readResponse pygeoapiBaseurl app scope).reached =
      (app scope).reached := by
  cases scope with
  | http request =>
    simp only [forwardedLinksLayer]
    split <;> rfl
  | _ => rfl

theorem passes_openapiSecurityLayer (scope : Scope) :
    Layer.Passes (openapiSecurityLayer s p cfg securitySchemes) scope :=
  ⟨fun served => openapiSecurityLayer s p cfg securitySchemes (fun _ => served) scope, fun _ => rfl⟩

theorem keeps_openapiSecurityLayer :
    Layer.Keeps (openapiSecurityLayer s p cfg securitySchemes) Served.Unreached := by
  intro app happ scope
  rw [Served.Unreached, openapiSecurityLayer_reached]
  exact happ scope

theorem keeps_forwardedLinksLayer :
    Layer.Keeps (forwardedLinksLayer s readResponse pygeoapiBaseurl) Served.Unreached := by
  intro app happ scope
  rw [Served.Unreached, forwardedLinksLayer_reached]
  exact happ scope

end
end FastGeoApi
