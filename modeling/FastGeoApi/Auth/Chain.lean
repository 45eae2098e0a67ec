import FastGeoApi.Auth.Gate

/-!
# Chains of authenticators

Every authenticator of a chain returns a dict, returns a redirect or raises `Oauth2Error`. What the
gate does after its loop depends on what the loop variable was assigned last (`lastAssigned`).
-/

namespace FastGeoApi

section
variable (auth : Authenticator) (request : Request)

def Authenticator.Redirects (url : String) : Prop :=
  auth.authenticate request = .ok (.redirect url)

def Authenticator.Rejects : Prop :=
  ∃ e, auth.authenticate request = .error e ∧ e.cls = .oauth2Error

/-- The three outcomes that the interface has. -/
inductive Authenticator.Conforms : Prop where
  | dict (h : auth.Admits request)
  | redirect (url : String) (h : auth.Redirects request url)
  | rejects (h : auth.Rejects request)

/-- A coroutine that raises is left behind in the loop variable, since it is assigned before it is
awaited. -/
def Authenticator.LeavesCoroutine : Prop := auth.isCoroutine = true ∧ auth.Rejects request

def Authenticator.rejects : Bool :=
  match auth.authenticate request with
  | .error e => e.cls = .oauth2Error
  | .ok _ => false

end

/-- What a chain is to be answered with. -/
inductive ChainAnswer (auths : List Authenticator) (request : Request) : Event → Prop where
  | app (h : ∃ auth ∈ auths, auth.Admits request) : ChainAnswer auths request .app
  | redirect (hnone : ∀ auth ∈ auths, ¬auth.Admits request)
      (h : ∃ auth ∈ auths, auth.Redirects request url) : ChainAnswer auths request (.redirect url)
  | unauthorized (hnone : ∀ auth ∈ auths, ¬auth.Admits request)
      (h : ∀ auth ∈ auths, ∀ url, ¬auth.Redirects request url) :
      ChainAnswer auths request .unauthorized

/-- The same authenticators; only those that raise have moved. -/
structure Rearranged (request : Request) (auths auths' : List Authenticator) : Prop where
  perm : auths'.Perm auths
  order : auths'.filter (!·.rejects request) = auths.filter (!·.rejects request)

/-- The gate asks authenticators and then gives the answer of the chain, wherever the authenticators
that raise stand in it. -/
def ChainWellDefined (mw : Oauth2Middleware) (request : Request) : Prop :=
  ∀ auths, Rearranged request mw.authentication auths →
    ∃ asked last, { mw with authentication := auths }.call (.http request) =
        (asked ++ [last], .ok ()) ∧
      (∀ e ∈ asked, ∃ outcome, e = .authenticated outcome) ∧
      ChainAnswer mw.authentication request last

/-- Some authenticator returns a dict; or some returns a redirect, and no coroutine raises; or none
returns a redirect, and one is a coroutine. -/
inductive Answerable (auths : List Authenticator) (request : Request) : Prop where
  | dict (h : ∃ auth ∈ auths, auth.Admits request)
  | redirect (h : ∃ auth ∈ auths, ∃ url, auth.Redirects request url)
      (hleaves : ∀ auth ∈ auths, ¬auth.LeavesCoroutine request)
  | unauthorized (h : ∀ auth ∈ auths, ∀ url, ¬auth.Redirects request url)
      (hcoroutine : ∃ auth ∈ auths, auth.isCoroutine = true)

/-! ## The loop variable -/

def assign (request : Request) (userInfo : UserInfo) (auth : Authenticator) : UserInfo :=
  match auth.authenticate request with
  | .ok v => .value v
  | .error _ => if auth.isCoroutine then .coroutine else userInfo

def lastAssigned (request : Request) (auths : List Authenticator) (userInfo : UserInfo) :
    UserInfo :=
  auths.foldl (assign request) userInfo

section
variable {request : Request} {auth : Authenticator} {auths auths' : List Authenticator}
  {userInfo : UserInfo}

theorem assign_redirects {url : String} (h : auth.Redirects request url) :
    assign request userInfo auth = .value (.redirect url) := by
  rw [assign, h]

theorem assign_rejects (h : auth.Rejects request) :
    assign request userInfo auth = if auth.isCoroutine then .coroutine else userInfo := by
  obtain ⟨e, he, _⟩ := h
  rw [assign, he]

theorem Authenticator.Rejects.not_redirects (h : auth.Rejects request) (url : String) :
    ¬auth.Redirects request url := by
  obtain ⟨e, he, _⟩ := h
  intro hredirect
  rw [Authenticator.Redirects, he] at hredirect
  cases hredirect

theorem Authenticator.Conforms.not_breaks (h : auth.Conforms request) : ¬auth.Breaks request := by
  rintro ⟨e, he, hcls⟩
  cases h with
  | dict h =>
    obtain ⟨claims, hclaims⟩ := h
    rw [he] at hclaims
    cases hclaims
  | redirect url h =>
    rw [Authenticator.Redirects, he] at h
    cases h
  | rejects h =>
    obtain ⟨e', he', hcls'⟩ := h
    rw [he] at he'
    cases he'
    exact hcls hcls'

theorem Authenticator.Conforms.rejects_of_not (h : auth.Conforms request)
    (hnone : ¬auth.Admits request) (hnever : ∀ url, ¬auth.Redirects request url) :
    auth.Rejects request := by
  cases h with
  | dict h => exact absurd h hnone
  | redirect url h => exact absurd h (hnever url)
  | rejects h => exact h

theorem admitted_iff (h : ∀ auth ∈ auths, auth.Conforms request) :
    Admitted auths request ↔ ∃ auth ∈ auths, auth.Admits request := by
  induction auths with
  | nil => simp [admitted_nil]
  | cons auth auths ih =>
    have hholds := (h auth List.mem_cons_self).not_breaks
    rw [admitted_cons, ih fun auth hauth => h auth (List.mem_cons_of_mem _ hauth)]
    simp only [List.exists_mem_cons_iff, hholds, not_false_eq_true, true_and]
    tauto

/-- Without a dict the loop asks everyone. -/
theorem authLoop_no_dict (userInfo : UserInfo) (h : ∀ auth ∈ auths, auth.Conforms request)
    (hnone : ∀ auth ∈ auths, ¬auth.Admits request) :
    (authLoop request auths userInfo).2 = .ok (lastAssigned request auths userInfo, false) := by
  induction auths generalizing userInfo with
  | nil => rfl
  | cons auth auths ih =>
    have htail (userInfo : UserInfo) : (authLoop request auths userInfo).2 =
        .ok (lastAssigned request auths userInfo, false) :=
      ih userInfo (fun auth hauth => h auth (List.mem_cons_of_mem _ hauth))
        fun auth hauth => hnone auth (List.mem_cons_of_mem _ hauth)
    rw [lastAssigned, List.foldl_cons, ← lastAssigned, authLoop]
    cases h auth List.mem_cons_self with
    | dict hadmits => exact absurd hadmits (hnone auth List.mem_cons_self)
    | redirect url hredirect =>
      have hauth : auth.authenticate request = .ok (.redirect url) := hredirect
      rw [assign_redirects hredirect, ← htail, hauth]
    | rejects hrejects =>
      rw [assign_rejects hrejects, ← htail]
      obtain ⟨e, hauth, hcls⟩ := hrejects
      simp only [hauth, hcls, if_true]

theorem lastAssigned_concat (h : auth.LeavesCoroutine request) :
    lastAssigned request (auths ++ [auth]) userInfo = .coroutine := by
  rw [lastAssigned, List.foldl_append, List.foldl_cons, List.foldl_nil, assign_rejects h.2,
    if_pos h.1]

/-- Where no coroutine is left behind, the variable has the last redirect. -/
theorem lastAssigned_redirect (userInfo : UserInfo) (h : ∀ auth ∈ auths, auth.Conforms request)
    (hnone : ∀ auth ∈ auths, ¬auth.Admits request)
    (hleaves : ∀ auth ∈ auths, ¬auth.LeavesCoroutine request) :
    (∃ auth ∈ auths, ∃ url, auth.Redirects request url ∧
        lastAssigned request auths userInfo = .value (.redirect url)) ∨
      (∀ auth ∈ auths, ∀ url, ¬auth.Redirects request url) ∧
        lastAssigned request auths userInfo = userInfo := by
  induction auths generalizing userInfo with
  | nil => exact .inr ⟨fun auth hauth => absurd hauth List.not_mem_nil, rfl⟩
  | cons auth auths ih =>
    have htail (userInfo : UserInfo) := ih userInfo
      (fun auth hauth => h auth (List.mem_cons_of_mem _ hauth))
      (fun auth hauth => hnone auth (List.mem_cons_of_mem _ hauth))
      fun auth hauth => hleaves auth (List.mem_cons_of_mem _ hauth)
    rw [lastAssigned, List.foldl_cons, ← lastAssigned]
    rcases htail (assign request userInfo auth) with
      ⟨later, hlater, url, hurl, hlast⟩ | ⟨hnext, hlast⟩
    · exact .inl ⟨later, List.mem_cons_of_mem _ hlater, url, hurl, hlast⟩
    · rw [hlast]
      cases h auth List.mem_cons_self with
      | dict hadmits => exact absurd hadmits (hnone auth List.mem_cons_self)
      | redirect url hredirect =>
        exact .inl ⟨auth, List.mem_cons_self, url, hredirect, assign_redirects hredirect⟩
      | rejects hrejects =>
        have hcoroutine : ¬auth.isCoroutine = true := fun hcoroutine =>
          hleaves auth List.mem_cons_self ⟨hcoroutine, hrejects⟩
        refine .inr ⟨fun other hother => ?_, ?_⟩
        · rcases List.mem_cons.mp hother with rfl | hother
          · exact hrejects.not_redirects
          · exact hnext other hother
        · rw [assign_rejects hrejects, if_neg hcoroutine]

/-- Where everyone raises, the variable has a coroutine or was never assigned. -/
theorem lastAssigned_rejects (userInfo : UserInfo) (h : ∀ auth ∈ auths, auth.Rejects request) :
    (∃ auth ∈ auths, auth.isCoroutine = true) ∧
        lastAssigned request auths userInfo = .coroutine ∨
      (∀ auth ∈ auths, ¬auth.isCoroutine = true) ∧
        lastAssigned request auths userInfo = userInfo := by
  induction auths generalizing userInfo with
  | nil => exact .inr ⟨fun auth hauth => absurd hauth List.not_mem_nil, rfl⟩
  | cons auth auths ih =>
    have htail := ih (assign request userInfo auth)
      fun auth hauth => h auth (List.mem_cons_of_mem _ hauth)
    rw [lastAssigned, List.foldl_cons, ← lastAssigned]
    rcases htail with ⟨⟨later, hlater, hcoroutine⟩, hlast⟩ | ⟨hnext, hlast⟩
    · exact .inl ⟨⟨later, List.mem_cons_of_mem _ hlater, hcoroutine⟩, hlast⟩
    · rw [hlast, assign_rejects (h auth List.mem_cons_self)]
      by_cases hcoroutine : auth.isCoroutine = true
      · exact .inl ⟨⟨auth, List.mem_cons_self, hcoroutine⟩, if_pos hcoroutine⟩
      · refine .inr ⟨fun other hother => ?_, if_neg hcoroutine⟩
        rcases List.mem_cons.mp hother with rfl | hother
        · exact hcoroutine
        · exact hnext other hother

/-! ## The call -/

variable {mw : Oauth2Middleware}

theorem call_dict (hguard : Guarded mw request)
    (h : ∀ auth ∈ mw.authentication, auth.Conforms request)
    (hdict : ∃ auth ∈ mw.authentication, auth.Admits request) :
    ∃ asked, mw.call (.http request) = (asked ++ [.app], .ok ()) ∧
      ∀ e ∈ asked, ∃ outcome, e = .authenticated outcome := by
  have hadmitted : Admitted mw.authentication request := (admitted_iff h).mpr hdict
  have hsuccessful : ∃ left, (authLoop request mw.authentication .unbound).2 = .ok (left, true) :=
    authLoop_successful.mpr hadmitted
  obtain ⟨left, hleft⟩ := hsuccessful
  obtain ⟨claims, rfl⟩ := authLoop_dict hleft
  refine ⟨(authLoop request mw.authentication .unbound).1, ?_, fun e he => authLoop_events he⟩
  rw [call_guarded hguard]
  cases hloop : authLoop request mw.authentication .unbound with
  | mk events result =>
    rw [hloop] at hleft
    obtain rfl : result = _ := hleft
    rfl

theorem call_no_dict (hguard : Guarded mw request)
    (h : ∀ auth ∈ mw.authentication, auth.Conforms request)
    (hnone : ∀ auth ∈ mw.authentication, ¬auth.Admits request) :
    ∃ asked, mw.call (.http request) =
        (asked ++ (answer (lastAssigned request mw.authentication .unbound, false)).1,
          (answer (lastAssigned request mw.authentication .unbound, false)).2) ∧
      ∀ e ∈ asked, ∃ outcome, e = .authenticated outcome := by
  have hleft := authLoop_no_dict .unbound h hnone
  refine ⟨(authLoop request mw.authentication .unbound).1, ?_, fun e he => authLoop_events he⟩
  rw [call_guarded hguard]
  cases hloop : authLoop request mw.authentication .unbound with
  | mk events result =>
    rw [hloop] at hleft
    obtain rfl : result = _ := hleft
    rfl

end

section
variable {request : Request} {mw : Oauth2Middleware} {auths auths' : List Authenticator}

theorem Rearranged.refl : Rearranged request auths auths := ⟨.refl _, rfl⟩

theorem Rearranged.mem_iff (h : Rearranged request auths auths') {auth : Authenticator} :
    auth ∈ auths' ↔ auth ∈ auths := h.perm.mem_iff

/-- One that raises is moved to the end. -/
theorem Rearranged.moved {before after : List Authenticator} {auth : Authenticator}
    (h : auth.Rejects request) :
    Rearranged request (before ++ auth :: after) (before ++ after ++ [auth]) := by
  have hrejects : auth.rejects request = true := by
    obtain ⟨e, he, hcls⟩ := h
    rw [Authenticator.rejects, he]
    exact decide_eq_true hcls
  refine ⟨?_, ?_⟩
  · rw [List.append_assoc]
    exact (List.perm_append_singleton auth after).append_left before
  · simp [List.filter_append, hrejects]

/-- The answer to a chain without a dict is the one that the loop variable leads to. -/
theorem ChainWellDefined.answer (hdefined : ChainWellDefined mw request)
    (hguard : Guarded mw request) (h : ∀ auth ∈ mw.authentication, auth.Conforms request)
    (hnone : ∀ auth ∈ mw.authentication, ¬auth.Admits request)
    (hauths : Rearranged request mw.authentication auths) :
    ∃ asked asked' last,
      asked ++ (answer (lastAssigned request auths .unbound, false)).1 = asked' ++ [last] ∧
      (answer (lastAssigned request auths .unbound, false)).2 = .ok () ∧
      ChainAnswer mw.authentication request last := by
  obtain ⟨asked', last, hcall, _, hlast⟩ := hdefined auths hauths
  have hguard' : Guarded { mw with authentication := auths } request :=
    ⟨hguard.method, hguard.notSkipped⟩
  obtain ⟨asked, hcall', _⟩ := call_no_dict hguard'
    (fun auth hauth => h auth (hauths.mem_iff.mp hauth))
    fun auth hauth => hnone auth (hauths.mem_iff.mp hauth)
  rw [hcall] at hcall'
  obtain ⟨hevents, hresult⟩ := Prod.mk.inj hcall'
  exact ⟨asked, asked', last, hevents.symm, hresult.symm, hlast⟩

theorem answerable_of_wellDefined (hguard : Guarded mw request)
    (h : ∀ auth ∈ mw.authentication, auth.Conforms request)
    (hdefined : ChainWellDefined mw request) : Answerable mw.authentication request := by
  by_cases hdict : ∃ auth ∈ mw.authentication, auth.Admits request
  · exact .dict hdict
  have hnone : ∀ auth ∈ mw.authentication, ¬auth.Admits request :=
    fun auth hauth hadmits => hdict ⟨auth, hauth, hadmits⟩
  by_cases hredirect : ∃ auth ∈ mw.authentication, ∃ url, auth.Redirects request url
  · refine .redirect hredirect fun auth hauth hleaves => ?_
    obtain ⟨before, after, hsplit⟩ := List.append_of_mem hauth
    have hmoved : Rearranged request mw.authentication (before ++ after ++ [auth]) :=
      hsplit ▸ .moved hleaves.2
    obtain ⟨asked, asked', last, hevents, _, hlast⟩ := hdefined.answer hguard h hnone hmoved
    rw [lastAssigned_concat hleaves] at hevents
    obtain ⟨_, hunauthorized⟩ := List.append_inj' hevents rfl
    cases hunauthorized
    cases hlast with
    | unauthorized _ hnever =>
      obtain ⟨other, hother, url, hurl⟩ := hredirect
      exact hnever other hother url hurl
  · have hnever : ∀ auth ∈ mw.authentication, ∀ url, ¬auth.Redirects request url :=
      fun auth hauth url hurl => hredirect ⟨auth, hauth, url, hurl⟩
    have hrejects : ∀ auth ∈ mw.authentication, auth.Rejects request :=
      fun auth hauth => (h auth hauth).rejects_of_not (hnone auth hauth) (hnever auth hauth)
    rcases lastAssigned_rejects .unbound hrejects with ⟨hcoroutine, _⟩ | ⟨_, hlast⟩
    · exact .unauthorized hnever hcoroutine
    · obtain ⟨asked, asked', last, _, hresult, _⟩ := hdefined.answer hguard h hnone .refl
      rw [hlast] at hresult
      cases hresult

theorem wellDefined_of_answerable (hguard : Guarded mw request)
    (h : ∀ auth ∈ mw.authentication, auth.Conforms request)
    (hanswerable : Answerable mw.authentication request) : ChainWellDefined mw request := by
  intro auths hauths
  have hguard' : Guarded { mw with authentication := auths } request :=
    ⟨hguard.method, hguard.notSkipped⟩
  have hconforms : ∀ auth ∈ auths, auth.Conforms request :=
    fun auth hauth => h auth (hauths.mem_iff.mp hauth)
  by_cases hdict : ∃ auth ∈ mw.authentication, auth.Admits request
  · obtain ⟨auth, hauth, hadmits⟩ := hdict
    obtain ⟨asked, hcall, hasked⟩ :=
      call_dict hguard' hconforms ⟨auth, hauths.mem_iff.mpr hauth, hadmits⟩
    exact ⟨asked, .app, hcall, hasked, .app ⟨auth, hauth, hadmits⟩⟩
  have hnone : ∀ auth ∈ mw.authentication, ¬auth.Admits request :=
    fun auth hauth hadmits => hdict ⟨auth, hauth, hadmits⟩
  have hnone' : ∀ auth ∈ auths, ¬auth.Admits request :=
    fun auth hauth => hnone auth (hauths.mem_iff.mp hauth)
  obtain ⟨asked, hcall, hasked⟩ := call_no_dict hguard' hconforms hnone'
  cases hanswerable with
  | dict h => exact absurd h hdict
  | redirect hredirect hleaves =>
    have hleaves' : ∀ auth ∈ auths, ¬auth.LeavesCoroutine request :=
      fun auth hauth => hleaves auth (hauths.mem_iff.mp hauth)
    rcases lastAssigned_redirect .unbound hconforms hnone' hleaves' with
      ⟨auth, hauth, url, hurl, hlast⟩ | ⟨hnever, _⟩
    · rw [hlast] at hcall
      exact ⟨asked, .redirect url, hcall, hasked,
        .redirect hnone ⟨auth, hauths.mem_iff.mp hauth, hurl⟩⟩
    · obtain ⟨auth, hauth, url, hurl⟩ := hredirect
      exact absurd hurl (hnever auth (hauths.mem_iff.mpr hauth) url)
  | unauthorized hnever hcoroutine =>
    have hrejects : ∀ auth ∈ auths, auth.Rejects request := fun auth hauth =>
      (hconforms auth hauth).rejects_of_not (hnone' auth hauth)
        (hnever auth (hauths.mem_iff.mp hauth))
    rcases lastAssigned_rejects .unbound hrejects with ⟨_, hlast⟩ | ⟨hplain, _⟩
    · rw [hlast] at hcall
      exact ⟨asked, .unauthorized, hcall, hasked, .unauthorized hnone hnever⟩
    · obtain ⟨auth, hauth, hcoroutine⟩ := hcoroutine
      exact absurd hcoroutine (hplain auth (hauths.mem_iff.mpr hauth))

end

theorem chainWellDefined_iff (mw : Oauth2Middleware) (request : Request)
    (hguard : Guarded mw request) (h : ∀ auth ∈ mw.authentication, auth.Conforms request) :
    ChainWellDefined mw request ↔ Answerable mw.authentication request :=
  ⟨answerable_of_wellDefined hguard h, wellDefined_of_answerable hguard h⟩

/-! ## A login page and a bearer token -/

/-- Sends everyone to the identity broker. -/
def loginRedirect : Authenticator where
  isCoroutine := false
  authenticate _ := .ok (.redirect "https://idp.example.com/login")

def noToken : Authenticator where
  isCoroutine := true
  authenticate _ := .error ⟨.oauth2Error, "Auth token not found in the incoming request"⟩

def collectionsRequest : Request where
  method := "GET"
  path := "/geoapi/collections"
  headers := []

/-- The gate with these authenticators, and nothing to skip. -/
def gateOf (auths : List Authenticator) : Oauth2Middleware where
  authentication := auths
  skipEndpoints := []

theorem gateOf_guarded (auths : List Authenticator) : Guarded (gateOf auths) collectionsRequest :=
  ⟨by decide, rfl⟩

theorem loginRedirect_redirects :
    loginRedirect.Redirects collectionsRequest "https://idp.example.com/login" := rfl

theorem noToken_leavesCoroutine : noToken.LeavesCoroutine collectionsRequest :=
  ⟨rfl, _, rfl, rfl⟩

theorem loginChain_conforms :
    ∀ auth ∈ [loginRedirect, noToken], auth.Conforms collectionsRequest := by
  intro auth hauth
  rcases List.mem_cons.mp hauth with rfl | hauth
  · exact .redirect _ loginRedirect_redirects
  · obtain rfl := List.mem_singleton.mp hauth
    exact .rejects noToken_leavesCoroutine.2

theorem loginChain_wellDefined_iff :
    ChainWellDefined (gateOf [loginRedirect, noToken]) collectionsRequest ↔
      Answerable [loginRedirect, noToken] collectionsRequest :=
  chainWellDefined_iff _ _ (gateOf_guarded _) loginChain_conforms

/-- The redirect is dropped, and a gate without authenticators raises. -/
theorem chains_not_wellDefined :
    ¬ChainWellDefined (gateOf [loginRedirect, noToken]) collectionsRequest ∧
      ¬ChainWellDefined (gateOf []) collectionsRequest := by
  refine ⟨fun hdefined => ?_, fun hdefined => ?_⟩
  · obtain ⟨asked, last, hcall, _, hlast⟩ := hdefined _ .refl
    have hevents := congrArg (fun events => events.1.getLast?) hcall
    simp only [List.getLast?_concat] at hevents
    obtain rfl : Event.unauthorized = last := Option.some.inj hevents
    cases hlast with
    | unauthorized _ hnever => exact hnever _ List.mem_cons_self _ loginRedirect_redirects
  · obtain ⟨asked, last, hcall, _⟩ := hdefined [] .refl
    cases (Prod.mk.inj hcall).2

end FastGeoApi
