import FastGeoApi.Asgi
import FastGeoApi.Python.Dict
import FastGeoApi.Python.Value
import Mathlib.Data.List.Dedup

/-!
# Authentication with a JSON Web Key Set

`app/auth/auth_jwks.py`. What the key set endpoint answers and what `authlib` does are in a
`JwksWorld`; the checks of a decoded token follow the source.
-/

namespace FastGeoApi

structure JWKSConfig where
  jwksUri : String := ""
  expectedAudience : Option String := none
  expectedIssuer : Option String := none

/-- A key, by its `alg` (`None` if it has none) and its other members. -/
structure JsonWebKey where
  alg : Option String
  fields : List (PyKey × PyVal)

/-- The claims of a token: a JSON object. -/
abbrev Claims := Dict PyVal

/-- `claim_options`: which claims are essential, and the values they may have. -/
structure ClaimOptions where
  /-- `{"aud": {"essential": True, "values": [..]}}`. -/
  aud : Option (List String) := none
  /-- `{"iss": {"essential": True, "value": ..}}`. -/
  iss : Option String := none

/-- The key set endpoint, `authlib` and the clock during one call. -/
structure JwksWorld where
  /-- `JsonWebKey.import_key_set((await client.get(url)).json())`. -/
  getJwks : String → Except PyError (List JsonWebKey)
  /-- `JsonWebToken([alg]).decode(token, jwks)`. -/
  decode : String → String → List JsonWebKey → Except PyError Claims
  /-- `claims.validate()` for claims that were decoded with these options, at a time in seconds. -/
  validate : ClaimOptions → Claims → Int → Except PyError Unit
  now : Int

/-- A setting that is neither `None` nor empty. -/
def configured (setting : Option String) : Option String := setting.filter (· ≠ "")

def JWKSConfig.claimOptions (config : JWKSConfig) : ClaimOptions where
  aud := (configured config.expectedAudience).map ([·])
  iss := configured config.expectedIssuer

/-- The one algorithm of the keys. They are collected in a set, whose order does not matter, since
one with two algorithms is refused. -/
def soleAlg (keys : List JsonWebKey) : Except PyError String :=
  match (keys.map (·.alg)).dedup.reduceOption with
  | [] => .error ⟨.indexError, "list index out of range"⟩
  | [alg] =>
    if alg = "" then
      .error ⟨.oauth2Error, "Unable to decode the token with a missing algorithm"⟩
    else .ok alg
  | _ => .error ⟨.oauth2Error, "Unable to decode the token with multiple algorithms"⟩

/-- `if "client_id" in claims: claims.setdefault("aud", claims["client_id"])`. -/
def setDefaultAudience (claims : Claims) : Claims :=
  match claims.get? "client_id", claims.get? "aud" with
  | some clientId, none => claims.set "aud" clientId
  | _, _ => claims

/-- `[aud] if isinstance(aud, str) else aud`. -/
def audienceList : PyVal → PyVal
  | .str aud => .list [.str aud]
  | aud => aud

def checkAudience (config : JWKSConfig) (claims : Claims) : Except PyError Unit :=
  match configured config.expectedAudience with
  | none => .ok ()
  | some expected =>
    let aud := (claims.get? "aud").getD .none
    if aud.truthy then do
      if ← (audienceList aud).isIn expected then return ()
      else .error ⟨.oauth2Error, "Invalid audience: expected " ++ expected⟩
    else .error ⟨.oauth2Error, "Invalid audience: missing aud claim"⟩

def checkIssuer (config : JWKSConfig) (claims : Claims) : Except PyError Unit :=
  match configured config.expectedIssuer with
  | none => .ok ()
  | some expected =>
    let iss := (claims.get? "iss").getD .none
    if iss.truthy then
      if iss.eqStr expected then .ok ()
      else .error ⟨.oauth2Error, "Invalid issuer: expected " ++ expected⟩
    else .error ⟨.oauth2Error, "Invalid issuer: missing iss claim"⟩

/-- The body of the `try` in `decode_token`. -/
def decodeClaims (w : JwksWorld) (config : JWKSConfig) (token : String) :
    Except PyError Claims := do
  let jwks ← w.getJwks config.jwksUri
  let alg ← soleAlg jwks
  let decoded ← w.decode alg token jwks
  let claims := setDefaultAudience decoded
  checkAudience config claims
  checkIssuer config claims
  w.validate config.claimOptions claims w.now
  return claims

/-- `decode_token`. -/
def decodeToken (w : JwksWorld) (config : JWKSConfig) (token : String) : Except PyError Claims :=
  match decodeClaims w config token with
  | .ok claims => .ok claims
  | .error e =>
    match e.cls with
    | .keyError => .error ⟨.oauth2Error, "Unable to decode the token with a missing algorithm"⟩
    | .expiredTokenError => .error ⟨.oauth2Error, "Unable to validate an expired token"⟩
    | .joseError => .error ⟨.oauth2Error, "Unable to decode token"⟩
    | _ => .error e

/-- `JWKSAuthentication.authenticate`. -/
def authenticate (w : JwksWorld) (config : JWKSConfig) (request : Request) :
    Except PyError Claims :=
  let bearer := (request.headers.lookup "authorization").getD ""
  if bearer = "" then
    .error ⟨.oauth2Error, "Auth token not found in the incoming request"⟩
  else
    match decodeToken w config (Str.remove bearer "Bearer ") with
    | .ok claims => .ok claims
    | .error _ => .error ⟨.oauth2Error, "Authentication error"⟩

end FastGeoApi
