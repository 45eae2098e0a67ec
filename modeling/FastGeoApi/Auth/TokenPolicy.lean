import FastGeoApi.Auth.Jwks
import Mathlib.Data.List.ReduceOption

/-!
# The token policy

`decode_token` accepts exactly the tokens of the configured policy. The audience is looked at twice,
by `checkAudience` after the `client_id` fallback and by `authlib` in `validate`; both accept an
audience that names the expected one, and the first accepts a dict with it as a key, too.
-/

namespace FastGeoApi

/-! ## Validation by `authlib` -/

/-- `aud` as a list: a value that is no list is compared as one value. -/
def audList : PyVal → List PyVal
  | .list auds => auds
  | aud => [aud]

/-- `x < i`. -/
def PyFloat.lt : PyFloat → Int → Bool
  | .finite q, i => q < i
  | .inf negative, _ => negative
  | .nan, _ => false

/-- `x > i`. -/
def PyFloat.gt : PyFloat → Int → Bool
  | .finite q, i => i < q
  | .inf negative, _ => !negative
  | .nan, _ => false

/-- The claims `exp`, `nbf` and `iat` are numbers where they are there, `exp` not in the past and
the others not in the future. -/
structure TimesValid (claims : Claims) (now : Int) : Prop where
  exp : ∀ v ∈ claims.get? "exp", ∃ t ∈ v.number?, t.lt now = false
  nbf : ∀ v ∈ claims.get? "nbf", ∃ t ∈ v.number?, t.gt now = false
  iat : ∀ v ∈ claims.get? "iat", ∃ t ∈ v.number?, t.gt now = false

structure ClaimsValid (options : ClaimOptions) (claims : Claims) (now : Int) : Prop where
  essentialAud : options.aud.isSome → ∃ aud ∈ claims.get? "aud", aud.truthy = true
  essentialIss : options.iss.isSome → ∃ iss ∈ claims.get? "iss", iss.truthy = true
  issValue : ∀ value ∈ options.iss, value ≠ "" → ∃ iss ∈ claims.get? "iss", iss.eqStr value = true
  audValues : ∀ values ∈ options.aud, values ≠ [] → ∀ aud ∈ claims.get? "aud", aud.truthy = true →
    ∃ value ∈ values, (audList aud).any (·.eqStr value) = true
  times : TimesValid claims now

/-- What `claims.validate()` checks. -/
def JwksWorld.ValidatesClaims (w : JwksWorld) : Prop :=
  ∀ options claims now, w.validate options claims now = .ok () ↔ ClaimsValid options claims now

/-! ## Policy -/

/-- The expected string, or a list with it. -/
def NamesAudience (expected : String) (aud : PyVal) : Prop :=
  aud = .str expected ∨ ∃ auds, aud = .list auds ∧ .str expected ∈ auds

/-- The `aud` claim, or `client_id` when there is none. -/
def effectiveAudience (claims : Claims) : Option PyVal :=
  (claims.get? "aud").or (claims.get? "client_id")

/-- `alg` is the only algorithm of the keys that have one. -/
structure SoleAlg (keys : List JsonWebKey) (alg : String) : Prop where
  mem : ∃ key ∈ keys, key.alg = some alg
  unique : ∀ key ∈ keys, ∀ other, key.alg = some other → other = alg

/-- The policy, for a token that is decoded to `claims`. -/
structure Policy (w : JwksWorld) (config : JWKSConfig) (token : String) (jwks : List JsonWebKey)
    (alg : String) (claims : Claims) : Prop where
  fetched : w.getJwks config.jwksUri = .ok jwks
  sole : SoleAlg jwks alg
  nonempty : alg ≠ ""
  verified : w.decode alg token jwks = .ok claims
  audience : ∀ expected, configured config.expectedAudience = some expected →
    ∃ aud, effectiveAudience claims = some aud ∧ NamesAudience expected aud
  issuer : ∀ expected, configured config.expectedIssuer = some expected →
    claims.get? "iss" = some (.str expected)
  times : TimesValid claims w.now

theorem configured_eq_some {setting : Option String} {value : String} :
    configured setting = some value ↔ setting = some value ∧ value ≠ "" := by
  simp [configured, Option.filter_eq_some_iff]

theorem mem_algs {keys : List JsonWebKey} {alg : String} :
    alg ∈ (keys.map (·.alg)).dedup.reduceOption ↔ ∃ key ∈ keys, key.alg = some alg := by
  rw [List.reduceOption_mem_iff, List.mem_dedup, List.mem_map]

theorem nodup_algs {keys : List JsonWebKey} : (keys.map (·.alg)).dedup.reduceOption.Nodup := by
  refine (List.nodup_dedup _).filterMap ?_
  intro alg alg' value hvalue hvalue'
  rw [Option.mem_def, id] at hvalue hvalue'
  rw [hvalue, hvalue']

theorem soleAlg_eq_ok {keys : List JsonWebKey} {alg : String} :
    soleAlg keys = .ok alg ↔ SoleAlg keys alg ∧ alg ≠ "" := by
  have hmem : ∀ other, other ∈ (keys.map (·.alg)).dedup.reduceOption ↔ _ := fun _ => mem_algs
  have hnodup : (keys.map (·.alg)).dedup.reduceOption.Nodup := nodup_algs
  rw [soleAlg]
  generalize (keys.map (·.alg)).dedup.reduceOption = algs at hmem hnodup
  match algs with
  | [] =>
    refine ⟨(nomatch ·), fun ⟨hsole, _⟩ => ?_⟩
    cases (hmem alg).mpr hsole.mem
  | [only] =>
    have honly : SoleAlg keys alg ↔ alg = only := by
      refine ⟨fun hsole => List.mem_singleton.mp ((hmem alg).mpr hsole.mem), ?_⟩
      rintro rfl
      refine ⟨(hmem alg).mp (List.mem_singleton_self _), fun key hkey other hother => ?_⟩
      exact List.mem_singleton.mp ((hmem other).mpr ⟨key, hkey, hother⟩)
    rw [honly]
    by_cases hempty : only = ""
    · simp only [hempty, if_true]
      refine ⟨(nomatch ·), fun h => absurd h.1 h.2⟩
    · simp only [hempty, if_false, Except.ok.injEq]
      refine ⟨fun h => ⟨h.symm, h ▸ hempty⟩, fun h => h.1.symm⟩
  | first :: second :: _ =>
    refine ⟨(nomatch ·), fun ⟨hsole, _⟩ => ?_⟩
    have hall : ∀ other ∈ first :: second :: _, other = alg := fun other hother => by
      obtain ⟨key, hkey, halg⟩ := (hmem other).mp hother
      exact hsole.unique key hkey other halg
    have heq : first = second := (hall first (by simp)).trans (hall second (by simp)).symm
    simp [heq] at hnodup

/-! ## The checks of the code -/

theorem get?_setDefaultAudience {claims : Claims} :
    (setDefaultAudience claims).get? "aud" = effectiveAudience claims := by
  rw [setDefaultAudience, effectiveAudience]
  cases hclient : claims.get? "client_id" with
  | none => simp
  | some clientId =>
    cases haud : claims.get? "aud" with
    | none => simp [Dict.get?_set]
    | some aud => simp [haud]

theorem get?_setDefaultAudience_of_ne {claims : Claims} {key : String} (h : key ≠ "aud") :
    (setDefaultAudience claims).get? key = claims.get? key := by
  rw [setDefaultAudience]
  split
  · rw [Dict.get?_set, if_neg h]
  · rfl

theorem timesValid_setDefaultAudience {claims : Claims} {now : Int} :
    TimesValid (setDefaultAudience claims) now ↔ TimesValid claims now := by
  have hexp : (setDefaultAudience claims).get? "exp" = claims.get? "exp" :=
    get?_setDefaultAudience_of_ne (by decide)
  have hnbf : (setDefaultAudience claims).get? "nbf" = claims.get? "nbf" :=
    get?_setDefaultAudience_of_ne (by decide)
  have hiat : (setDefaultAudience claims).get? "iat" = claims.get? "iat" :=
    get?_setDefaultAudience_of_ne (by decide)
  refine ⟨fun h => ⟨hexp ▸ h.exp, hnbf ▸ h.nbf, hiat ▸ h.iat⟩,
    fun h => ⟨hexp ▸ h.exp, hnbf ▸ h.nbf, hiat ▸ h.iat⟩⟩

theorem checkAudience_eq_ok {config : JWKSConfig} {claims : Claims} :
    checkAudience config claims = .ok () ↔
      ∀ expected, configured config.expectedAudience = some expected →
        ∃ aud, claims.get? "aud" = some aud ∧ aud.truthy = true ∧
          (audienceList aud).isIn expected = .ok true := by
  rw [checkAudience]
  cases configured config.expectedAudience with
  | none => simp
  | some expected =>
    simp only [Option.some.injEq, forall_eq']
    cases haud : claims.get? "aud" with
    | none => simp [PyVal.truthy]
    | some aud =>
      simp only [Option.getD_some, Option.some.injEq, exists_eq_left']
      by_cases htruthy : aud.truthy = true
      · rw [if_pos htruthy, except_bind_ok]
        simp only [htruthy, true_and]
        refine ⟨fun ⟨found, hfound, h⟩ => ?_, fun h => ⟨true, h, rfl⟩⟩
        cases found with
        | true => exact hfound
        | false => cases h
      · simp [htruthy]

theorem checkIssuer_eq_ok {config : JWKSConfig} {claims : Claims} :
    checkIssuer config claims = .ok () ↔
      ∀ expected, configured config.expectedIssuer = some expected →
        claims.get? "iss" = some (.str expected) := by
  rw [checkIssuer]
  cases hissuer : configured config.expectedIssuer with
  | none => simp
  | some expected =>
    have hne : expected ≠ "" := (configured_eq_some.mp hissuer).2
    simp only [Option.some.injEq, forall_eq']
    cases hiss : claims.get? "iss" with
    | none => simp [PyVal.truthy]
    | some iss =>
      simp only [Option.getD_some, Option.some.injEq, ← PyVal.eqStr_iff]
      by_cases heq : iss.eqStr expected = true
      · have htruthy : iss.truthy = true := by
          rw [PyVal.eqStr_iff.mp heq, PyVal.truthy, decide_eq_true hne]
        simp [heq, htruthy]
      · by_cases htruthy : iss.truthy = true <;> simp [heq, htruthy]

/-! ## The two audience checks -/

theorem any_audList {expected : String} {aud : PyVal} :
    (audList aud).any (·.eqStr expected) = true ↔ NamesAudience expected aud := by
  simp only [List.any_eq_true, PyVal.eqStr_iff, exists_eq_right]
  have hone : (∀ auds, aud ≠ .list auds) →
      (.str expected ∈ [aud] ↔ NamesAudience expected aud) := by
    intro hlist
    rw [List.mem_singleton, NamesAudience, eq_comm]
    refine ⟨Or.inl, fun h => h.resolve_right ?_⟩
    intro hnames
    obtain ⟨auds, hauds, _⟩ := hnames
    exact hlist auds hauds
  cases aud with
  | list auds => simp [audList, NamesAudience]
  | _ => exact hone (fun auds h => nomatch h)

theorem NamesAudience.truthy {expected : String} {aud : PyVal} (hne : expected ≠ "")
    (h : NamesAudience expected aud) : aud.truthy = true := by
  obtain rfl | ⟨auds, rfl, hmem⟩ := h
  · rw [PyVal.truthy, decide_eq_true hne]
  · cases auds with
    | nil => cases hmem
    | cons => rfl

/-- What `authlib` accepts has passed the check of the code. -/
theorem NamesAudience.isIn {expected : String} {aud : PyVal} (h : NamesAudience expected aud) :
    (audienceList aud).isIn expected = .ok true := by
  have hany : ∀ auds : List PyVal, .str expected ∈ auds → auds.any (·.eqStr expected) = true :=
    fun auds hmem => List.any_eq_true.mpr ⟨_, hmem, PyVal.eqStr_iff.mpr rfl⟩
  obtain rfl | ⟨auds, rfl, hmem⟩ := h
  · rw [audienceList, PyVal.isIn, hany _ (List.mem_singleton_self _)]
  · rw [audienceList, PyVal.isIn, hany _ hmem]
    exact fun aud => nofun

/-! ## Acceptance -/

section
variable {w : JwksWorld} {config : JWKSConfig} {token : String}

theorem decodeToken_eq_ok {claims : Claims} :
    decodeToken w config token = .ok claims ↔ decodeClaims w config token = .ok claims := by
  rw [decodeToken]
  cases decodeClaims w config token with
  | ok => rfl
  | error e => simp only; split <;> simp

theorem decodeClaims_eq_ok {result : Claims} :
    decodeClaims w config token = .ok result ↔
      ∃ jwks, w.getJwks config.jwksUri = .ok jwks ∧
      ∃ alg, soleAlg jwks = .ok alg ∧
      ∃ claims, w.decode alg token jwks = .ok claims ∧
      checkAudience config (setDefaultAudience claims) = .ok () ∧
      checkIssuer config (setDefaultAudience claims) = .ok () ∧
      w.validate config.claimOptions (setDefaultAudience claims) w.now = .ok () ∧
      setDefaultAudience claims = result := by
  simp only [decodeClaims, except_bind_ok, Unique.exists_iff, PUnit.default_eq_unit, pure,
    Except.pure, Except.ok.injEq]

/-- The checks of the code and of `authlib`, on the claims that they are made on, come to the
policy's conditions on the claims of the token. -/
theorem checks_iff (hw : w.ValidatesClaims) {claims : Claims} :
    checkAudience config (setDefaultAudience claims) = .ok () ∧
      checkIssuer config (setDefaultAudience claims) = .ok () ∧
      w.validate config.claimOptions (setDefaultAudience claims) w.now = .ok () ↔
    (∀ expected, configured config.expectedAudience = some expected →
      ∃ aud, effectiveAudience claims = some aud ∧ NamesAudience expected aud) ∧
    (∀ expected, configured config.expectedIssuer = some expected →
      claims.get? "iss" = some (.str expected)) ∧
    TimesValid claims w.now := by
  have hiss : (setDefaultAudience claims).get? "iss" = claims.get? "iss" :=
    get?_setDefaultAudience_of_ne (by decide)
  rw [hw, checkAudience_eq_ok, checkIssuer_eq_ok, get?_setDefaultAudience, hiss]
  refine ⟨fun ⟨haudience, hissuer, hvalid⟩ => ⟨fun expected hexpected => ?_, hissuer, ?_⟩,
    fun ⟨haudience, hissuer, htimes⟩ => ⟨fun expected hexpected => ?_, hissuer, ?_⟩⟩
  · obtain ⟨aud, haud, htruthy, _⟩ := haudience expected hexpected
    have hoption : config.claimOptions.aud = some [expected] := by
      rw [JWKSConfig.claimOptions, hexpected, Option.map_some]
    obtain ⟨value, hvalue, hany⟩ := hvalid.audValues _ hoption (List.cons_ne_nil _ _) aud
      (get?_setDefaultAudience.trans haud) htruthy
    rw [List.mem_singleton] at hvalue
    exact ⟨aud, haud, any_audList.mp (hvalue ▸ hany)⟩
  · exact timesValid_setDefaultAudience.mp hvalid.times
  · obtain ⟨aud, haud, hnames⟩ := haudience expected hexpected
    have hne : expected ≠ "" := (configured_eq_some.mp hexpected).2
    exact ⟨aud, haud, hnames.truthy hne, hnames.isIn⟩
  · exact
      { essentialAud := fun hsome => by
          obtain ⟨_, hvalues⟩ := Option.isSome_iff_exists.mp hsome
          obtain ⟨expected, hexpected, _⟩ := Option.map_eq_some_iff.mp hvalues
          obtain ⟨aud, haud, hnames⟩ := haudience expected hexpected
          have hne : expected ≠ "" := (configured_eq_some.mp hexpected).2
          exact ⟨aud, get?_setDefaultAudience.trans haud, hnames.truthy hne⟩
        essentialIss := fun hsome => by
          obtain ⟨expected, hexpected⟩ := Option.isSome_iff_exists.mp hsome
          have hne : expected ≠ "" := (configured_eq_some.mp hexpected).2
          refine ⟨_, hiss.trans (hissuer expected hexpected), ?_⟩
          rw [PyVal.truthy, decide_eq_true hne]
        issValue := fun expected hexpected _ =>
          ⟨_, hiss.trans (hissuer expected hexpected), PyVal.eqStr_iff.mpr rfl⟩
        audValues := fun values hvalues _ aud haud _ => by
          obtain ⟨expected, hexpected, rfl⟩ := Option.map_eq_some_iff.mp hvalues
          obtain ⟨aud', haud', hnames⟩ := haudience expected hexpected
          rw [Option.mem_def, get?_setDefaultAudience, haud', Option.some.injEq] at haud
          exact ⟨expected, List.mem_singleton_self _, any_audList.mpr (haud ▸ hnames)⟩
        times := timesValid_setDefaultAudience.mpr htimes }

theorem decodeToken_iff_policy (hw : w.ValidatesClaims) :
    (∃ claims, decodeToken w config token = .ok claims) ↔
      ∃ jwks alg claims, Policy w config token jwks alg claims := by
  simp only [decodeToken_eq_ok, decodeClaims_eq_ok]
  constructor
  · intro haccepted
    obtain ⟨_, jwks, hjwks, alg, halg, claims, hclaims, haudience, hissuer, hvalid, _⟩ := haccepted
    obtain ⟨hsole, hne⟩ := soleAlg_eq_ok.mp halg
    obtain ⟨haud, hiss, htimes⟩ := (checks_iff hw).mp ⟨haudience, hissuer, hvalid⟩
    exact ⟨jwks, alg, claims, hjwks, hsole, hne, hclaims, haud, hiss, htimes⟩
  · intro hpolicy
    obtain ⟨jwks, alg, claims, h⟩ := hpolicy
    obtain ⟨haudience, hissuer, hvalid⟩ := (checks_iff hw).mpr ⟨h.audience, h.issuer, h.times⟩
    have halg : soleAlg jwks = .ok alg := soleAlg_eq_ok.mpr ⟨h.sole, h.nonempty⟩
    exact ⟨_, jwks, h.fetched, alg, halg, claims, h.verified, haudience, hissuer, hvalid, rfl⟩

end

/-! ## A token with the client as its audience -/

instance (claims : Claims) (now : Int) : Decidable (TimesValid claims now) :=
  decidable_of_iff
    ((∀ v ∈ claims.get? "exp", ∃ t ∈ v.number?, t.lt now = false) ∧
      (∀ v ∈ claims.get? "nbf", ∃ t ∈ v.number?, t.gt now = false) ∧
      (∀ v ∈ claims.get? "iat", ∃ t ∈ v.number?, t.gt now = false))
    ⟨fun ⟨hexp, hnbf, hiat⟩ => ⟨hexp, hnbf, hiat⟩, fun h => ⟨h.exp, h.nbf, h.iat⟩⟩

instance (options : ClaimOptions) (claims : Claims) (now : Int) :
    Decidable (ClaimsValid options claims now) :=
  decidable_of_iff
    ((options.aud.isSome → ∃ aud ∈ claims.get? "aud", aud.truthy = true) ∧
      (options.iss.isSome → ∃ iss ∈ claims.get? "iss", iss.truthy = true) ∧
      (∀ value ∈ options.iss, value ≠ "" →
        ∃ iss ∈ claims.get? "iss", iss.eqStr value = true) ∧
      (∀ values ∈ options.aud, values ≠ [] → ∀ aud ∈ claims.get? "aud", aud.truthy = true →
        ∃ value ∈ values, (audList aud).any (·.eqStr value) = true) ∧
      TimesValid claims now)
    ⟨fun ⟨haud, hiss, hvalue, hvalues, htimes⟩ => ⟨haud, hiss, hvalue, hvalues, htimes⟩,
      fun h => ⟨h.essentialAud, h.essentialIss, h.issValue, h.audValues, h.times⟩⟩

def cognitoClaims : Claims :=
  ((Dict.single "iss" (.str "https://idp.example.com")).set "client_id" (.str "client-123")).set
    "exp" (.int 2000)

/-- One signing key, and one token that verifies under it. -/
def cognitoWorld : JwksWorld where
  getJwks _ := .ok [⟨some "RS256", []⟩, ⟨none, []⟩]
  decode alg token _ :=
    if alg = "RS256" ∧ token = "header.claims.signature" then .ok cognitoClaims
    else .error ⟨.joseError, "bad_signature"⟩
  validate options claims now :=
    if ClaimsValid options claims now then .ok () else .error ⟨.joseError, "invalid_claim"⟩
  now := 1000

def cognitoConfig : JWKSConfig where
  jwksUri := "https://idp.example.com/.well-known/jwks.json"
  expectedAudience := some "client-123"
  expectedIssuer := some "https://idp.example.com"

theorem cognitoWorld_validatesClaims : cognitoWorld.ValidatesClaims := by
  intro options claims now
  by_cases h : ClaimsValid options claims now <;> simp [cognitoWorld, h]

theorem cognitoToken_accepted :
    (∃ claims, decodeToken cognitoWorld cognitoConfig "header.claims.signature" = .ok claims) ∧
      ∃ jwks alg claims,
        Policy cognitoWorld cognitoConfig "header.claims.signature" jwks alg claims := by
  have haccepted :
      ∃ claims, decodeToken cognitoWorld cognitoConfig "header.claims.signature" = .ok claims :=
    ⟨setDefaultAudience cognitoClaims, rfl⟩
  exact ⟨haccepted, (decodeToken_iff_policy cognitoWorld_validatesClaims).mp haccepted⟩

end FastGeoApi
