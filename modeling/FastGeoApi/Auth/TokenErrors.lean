import FastGeoApi.Auth.TokenPolicy

/-!
# The exceptions of `decode_token`

Its except clauses turn a missing key and the errors of `authlib` into `Oauth2Error`, and let any
other exception through. The two that its own code can raise are the `IndexError` of a key set
without algorithms and the `TypeError` of an audience that nothing can be looked up in.
-/

namespace FastGeoApi

section
variable {w : JwksWorld} {config : JWKSConfig} {token : String} {jwks : List JsonWebKey}

end

end FastGeoApi
