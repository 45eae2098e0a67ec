import FastGeoApi.Python.Str

/-!
# The audience of client assertions

A client that proves itself with a key signs an assertion for the token endpoint. The authenticator
of fastmcp expects the URL that it builds itself, and `patch_private_key_jwt_audience` of
`app/auth/mcp_auth_provider.py` normalises this URL before it gets there. URLs are lists of
characters.
-/

namespace FastGeoApi

/-- `mcp_base_url` of `create_mcp_server`. -/
def mcpBaseUrl (host port : List Char) (appUri : Option (List Char)) : List Char :=
  match appUri with
  | some (c :: cs) => Str.rstrip '/' (c :: cs) ++ "/mcp/".toList
  | _ => "http://".toList ++ (host ++ ':' :: (port ++ "/mcp/".toList))

/-- What `patched_init` makes of `token_endpoint_url`. -/
def normalizeTokenEndpointUrl (tokenEndpointUrl : List Char) : List Char :=
  match Str.partition "://".toList tokenEndpointUrl with
  | some (scheme, rest) =>
    scheme ++ ("://".toList ++ Substitution.replaceAll "//".toList "/".toList rest)
  | none => tokenEndpointUrl

/-- The class `PrivateKeyJWTClientAuthenticator`. -/
structure ClientAuthenticator where
  /-- The audience that the original `__init__` is given when `__init__` is called with a URL. -/
  init : List Char → List Char
  fastgeoapiAudiencePatched : Bool

/-- The class of fastmcp. -/
def ClientAuthenticator.original : ClientAuthenticator := ⟨id, false⟩

/-- `patch_private_key_jwt_audience`, which `configure_mcp_auth` begins with. -/
def patchPrivateKeyJwtAudience (cls : ClientAuthenticator) : ClientAuthenticator :=
  if cls.fastgeoapiAudiencePatched then cls
  else ⟨fun tokenEndpointUrl => cls.init (normalizeTokenEndpointUrl tokenEndpointUrl), true⟩

/-- What the authenticator is initialised with in a call of `configure_mcp_auth` that comes after
so many others. -/
def clientAudience (calls : Nat) (mcpBaseUrl : List Char) : List Char :=
  (patchPrivateKeyJwtAudience^[calls + 1] .original).init (mcpBaseUrl ++ "/token".toList)

/-- `token_endpoint` in the metadata of the authorization server. -/
def advertisedTokenEndpoint (mcpBaseUrl : List Char) : List Char :=
  (if mcpBaseUrl.getLast? = some '/' then mcpBaseUrl.dropLast else mcpBaseUrl) ++ "/token".toList

/-- Clients are told the audience that is expected of them. -/
def AudienceAdvertised (mcpBaseUrl : List Char) : Prop :=
  ∀ calls, clientAudience calls mcpBaseUrl = advertisedTokenEndpoint mcpBaseUrl

section
variable {url scheme rest : List Char}

/-! ## The patch -/

theorem patchPrivateKeyJwtAudience_iterate (calls : Nat) :
    patchPrivateKeyJwtAudience^[calls + 1] .original = ⟨normalizeTokenEndpointUrl, true⟩ := by
  induction calls with
  | zero => rfl
  | succ calls ih => rw [Function.iterate_succ_apply', ih]; rfl

theorem clientAudience_eq (calls : Nat) (mcpBaseUrl : List Char) :
    clientAudience calls mcpBaseUrl =
      normalizeTokenEndpointUrl (mcpBaseUrl ++ "/token".toList) := by
  rw [clientAudience, patchPrivateKeyJwtAudience_iterate]

theorem audienceAdvertised_iff {mcpBaseUrl : List Char} : AudienceAdvertised mcpBaseUrl ↔
    normalizeTokenEndpointUrl (mcpBaseUrl ++ "/token".toList) =
      advertisedTokenEndpoint mcpBaseUrl := by
  refine ⟨fun h => (clientAudience_eq 0 mcpBaseUrl).symm.trans (h 0), fun h calls => ?_⟩
  exact (clientAudience_eq calls mcpBaseUrl).trans h

/-! ## Normalised URLs -/

theorem normalizeTokenEndpointUrl_of_scheme
    (h : Str.partition "://".toList url = some (scheme, rest)) :
    normalizeTokenEndpointUrl url =
      scheme ++ ("://".toList ++ Substitution.replaceAll "//".toList "/".toList rest) := by
  rw [normalizeTokenEndpointUrl, h]

/-- A URL whose slashes are merged keeps its scheme. -/
theorem normalizeTokenEndpointUrl_twice
    (h : Str.partition "://".toList url = some (scheme, rest)) :
    normalizeTokenEndpointUrl (normalizeTokenEndpointUrl url) = normalizeTokenEndpointUrl url ↔
      ¬"///".toList <:+: rest := by
  have hkept : Str.partition "://".toList (normalizeTokenEndpointUrl url) =
      some (scheme, Substitution.replaceAll "//".toList "/".toList rest) := by
    rw [normalizeTokenEndpointUrl_of_scheme h]
    exact Str.partition_append (by decide) h _
  rw [normalizeTokenEndpointUrl_of_scheme hkept, normalizeTokenEndpointUrl_of_scheme h,
    List.append_cancel_left_eq, List.append_cancel_left_eq]
  exact Substitution.collapse_collapse_iff

/-! ## The base URL -/

theorem advertisedTokenEndpoint_mcp (front : List Char) :
    advertisedTokenEndpoint (front ++ "/mcp/".toList) = front ++ "/mcp/token".toList := by
  have hne : "/mcp/".toList ≠ [] := by decide
  have hlast : (front ++ "/mcp/".toList).getLast? = some '/' :=
    (List.getLast?_append_of_ne_nil front hne).trans (by decide)
  rw [advertisedTokenEndpoint, if_pos hlast, List.dropLast_append_of_ne_nil hne, List.append_assoc]
  rfl

theorem mcpBaseUrl_of_scheme (h : Str.partition "://".toList url = some (scheme, rest))
    (host port : List Char) :
    mcpBaseUrl host port (some url) = Str.rstrip '/' url ++ "/mcp/".toList := by
  cases url with
  | nil => cases h
  | cons c cs => rfl

/-- The doubled slash in front of the token is merged, and so are those in the rest. -/
theorem replaceAll_mcp_token :
    Substitution.replaceAll "//".toList "/".toList
        (Str.rstrip '/' rest ++ "/mcp//token".toList) =
      Substitution.replaceAll "//".toList "/".toList (Str.rstrip '/' rest) ++
        "/mcp/token".toList := by
  have hapart : Substitution.Apart "//".toList (Str.rstrip '/' rest) "/mcp//token".toList := by
    have hkind : ∀ c ∈ "//".toList, decide (c = '/') = true := by simp
    refine Substitution.apart_of_end hkind fun c hc => ?_
    exact decide_eq_false (Str.ne_of_mem_getLast?_rstrip hc)
  rw [Substitution.replaceAll_append (by decide) hapart]
  exact congrArg _ (by decide)

/-- With a host, or anything but slashes, behind the scheme. -/
theorem audienceAdvertised_of_named (h : Str.partition "://".toList url = some (scheme, rest))
    (hnamed : ∃ c ∈ rest, c ≠ '/') (host port : List Char) :
    AudienceAdvertised (mcpBaseUrl host port (some url)) ↔
      ¬"//".toList <:+: Str.rstrip '/' rest := by
  have hurl : Str.rstrip '/' url = scheme ++ ("://".toList ++ Str.rstrip '/' rest) := by
    have hnamed' : ∃ c ∈ "://".toList ++ rest, c ≠ '/' := by
      obtain ⟨c, hc, hslash⟩ := hnamed
      exact ⟨c, List.mem_append_right _ hc, hslash⟩
    rw [Str.eq_append_of_partition h, Str.rstrip_append_of_exists hnamed',
      Str.rstrip_append_of_exists hnamed]
  have htoken : Str.partition "://".toList
      (mcpBaseUrl host port (some url) ++ "/token".toList) =
        some (scheme, Str.rstrip '/' rest ++ "/mcp//token".toList) := by
    rw [mcpBaseUrl_of_scheme h, hurl, List.append_assoc, List.append_assoc, List.append_assoc]
    exact Str.partition_append (by decide) h _
  rw [audienceAdvertised_iff, normalizeTokenEndpointUrl_of_scheme htoken, replaceAll_mcp_token,
    mcpBaseUrl_of_scheme h, hurl, advertisedTokenEndpoint_mcp, List.append_assoc, List.append_assoc,
    List.append_cancel_left_eq, List.append_cancel_left_eq, List.append_cancel_right_eq,
    Substitution.replaceAll_eq_self_iff]
  exact or_iff_left (by decide)

/-- A colon with one slash behind it is no separator. -/
theorem partition_single_slash (h : Str.partition "://".toList url = some (scheme, rest)) :
    Str.partition "://".toList (scheme ++ ":/mcp//token".toList) = none := by
  induction url generalizing scheme with
  | nil => cases h
  | cons c cs ih =>
    rcases Str.partition_cons_eq_some h with ⟨rfl, -⟩ | ⟨scheme', rfl, hmiss, hrest⟩
    · decide
    · have hmiss' : ¬"://".toList <+: c :: (scheme' ++ ":/mcp//token".toList) := by
        rw [Str.eq_append_of_partition hrest] at hmiss
        match scheme' with
        | [] => simp
        | [x] => simp
        | x :: y :: scheme' => simpa [List.cons_prefix_cons] using hmiss
      rw [List.cons_append, Str.partition_of_not_prefix hmiss', ih hrest]
      rfl

/-- Nothing is left of the two slashes behind the scheme, so the URL of the token is not
normalised. -/
theorem not_audienceAdvertised_of_slashes
    (h : Str.partition "://".toList url = some (scheme, rest)) (hslashes : ∀ c ∈ rest, c = '/')
    (host port : List Char) : ¬AudienceAdvertised (mcpBaseUrl host port (some url)) := by
  have hstrip : Str.rstrip '/' url = scheme ++ [':'] := by
    have hsplit : url = (scheme ++ [':']) ++ ("//".toList ++ rest) := by
      rw [Str.eq_append_of_partition h, List.append_assoc]
      rfl
    have hall : ∀ c ∈ "//".toList ++ rest, c = '/' := by
      intro c hc
      rcases List.mem_append.mp hc with hc | hc
      · simpa using hc
      · exact hslashes c hc
    rw [hsplit, Str.rstrip_append_of_all hall,
      Str.rstrip_append_of_exists ⟨':', List.mem_singleton_self ':', by decide⟩]
    exact congrArg (scheme ++ ·) (by decide)
  have hbase : mcpBaseUrl host port (some url) = (scheme ++ [':']) ++ "/mcp/".toList := by
    rw [mcpBaseUrl_of_scheme h, hstrip]
  have htoken : mcpBaseUrl host port (some url) ++ "/token".toList =
      scheme ++ ":/mcp//token".toList := by
    rw [hbase, List.append_assoc, List.append_assoc]
    rfl
  rw [audienceAdvertised_iff, htoken, normalizeTokenEndpointUrl, partition_single_slash h, hbase,
    advertisedTokenEndpoint_mcp, List.append_assoc, List.append_cancel_left_eq]
  decide

/-- The audience of a client assertion is the one that clients are told exactly when there is more
than slashes behind the scheme and no doubled slash within it; and normalising a URL again changes
nothing exactly when there is no run of three slashes behind the scheme. -/
theorem audienceAdvertised_exact (host port : List Char) :
    (∀ appUri scheme rest, Str.partition "://".toList appUri = some (scheme, rest) →
      (AudienceAdvertised (mcpBaseUrl host port (some appUri)) ↔
        (∃ c ∈ rest, c ≠ '/') ∧ ¬"//".toList <:+: Str.rstrip '/' rest)) ∧
    ∀ url, normalizeTokenEndpointUrl (normalizeTokenEndpointUrl url) =
        normalizeTokenEndpointUrl url ↔
      ∀ scheme rest, Str.partition "://".toList url = some (scheme, rest) →
        ¬"///".toList <:+: rest := by
  constructor
  · intro appUri scheme rest h
    by_cases hnamed : ∃ c ∈ rest, c ≠ '/'
    · rw [audienceAdvertised_of_named h hnamed]
      exact (and_iff_right hnamed).symm
    · have hslashes : ∀ c ∈ rest, c = '/' := by
        intro c hc
        by_contra hne
        exact hnamed ⟨c, hc, hne⟩
      exact iff_of_false (not_audienceAdvertised_of_slashes h hslashes host port)
        fun hboth => hnamed hboth.1
  · intro url
    cases h : Str.partition "://".toList url with
    | none =>
      have hkept : normalizeTokenEndpointUrl url = url := by rw [normalizeTokenEndpointUrl, h]
      refine iff_of_true (by rw [hkept, hkept]) nofun
    | some parts =>
      obtain ⟨scheme, rest⟩ := parts
      rw [normalizeTokenEndpointUrl_twice h]
      refine ⟨fun hrun scheme' rest' heq => ?_, fun hrun => hrun scheme rest rfl⟩
      cases heq
      exact hrun

/-- A host with nothing behind it. -/
theorem flyAppUri_advertised :
    AudienceAdvertised (mcpBaseUrl "0.0.0.0".toList "5000".toList
        (some "https://fastgeoapi.fly.dev".toList)) ∧
      normalizeTokenEndpointUrl (normalizeTokenEndpointUrl
        "https://fastgeoapi.fly.dev/mcp//token".toList) =
          normalizeTokenEndpointUrl "https://fastgeoapi.fly.dev/mcp//token".toList := by
  have hexact := audienceAdvertised_exact "0.0.0.0".toList "5000".toList
  have hpartition : Str.partition "://".toList "https://fastgeoapi.fly.dev".toList =
      some ("https".toList, "fastgeoapi.fly.dev".toList) := by decide
  have htoken : Str.partition "://".toList "https://fastgeoapi.fly.dev/mcp//token".toList =
      some ("https".toList, "fastgeoapi.fly.dev/mcp//token".toList) := by decide
  refine ⟨(hexact.1 _ _ _ hpartition).mpr ⟨⟨'f', by decide, by decide⟩, by decide⟩, ?_⟩
  apply (hexact.2 _).mpr
  intro scheme rest h
  cases htoken.symm.trans h
  decide

/-- The empty part of the path is in the metadata and not in the audience. -/
theorem emptyPathPart_not_advertised :
    Str.partition "://".toList "https://example.com/maps//v1".toList =
        some ("https".toList, "example.com/maps//v1".toList) ∧
      ¬AudienceAdvertised (mcpBaseUrl "0.0.0.0".toList "5000".toList
        (some "https://example.com/maps//v1".toList)) := by
  refine ⟨by decide, ?_⟩
  rw [audienceAdvertised_iff]
  decide

end
end FastGeoApi
