import FastGeoApi.OpenApi.Generation
import FastGeoApi.Resolver.Places
import FastGeoApi.Startup.Access

/-!
# The specification of the tools

`create_mcp_server` reads the generated document, resolves its external references and hands it to
fastmcp. From what generating corrects and what resolving leaves in its place: what fastmcp gets of
the document of pygeoapi.
-/

namespace FastGeoApi
open PyVal

theorem settled_queryablesSchema : Settled queryablesSchema := settled_of_notFound rfl

section
variable {v u : PyVal} {path : List Step}

/-- A dict with a key of another name is no reference. -/
theorem not_isExternal_of_step {step : Step} (hu : v.step? step = some u)
    (hstep : step ≠ .key "$ref") : ¬v.IsExternal := by
  rintro ⟨items, ref, rfl, sole, _⟩
  cases step with
  | index i => cases hu
  | key key =>
    have hother : (key == PyKey.str "$ref") = false :=
      beq_eq_false_iff_ne.mpr fun hkey => hstep (congrArg Step.key hkey)
    rw [soleRef?_eq_some.mp sole, step?, List.lookup_cons, hother] at hu
    cases hu

/-- There is no reference on the way to a settled value, whose path is not one of a reference. -/
theorem plain_of_at? (h : v.at? path = some u) (hu : Settled u)
    (hpath : ∀ step ∈ path, step ≠ .key "$ref") : v.Plain path := by
  induction path generalizing v with
  | nil =>
    cases h
    intro p w hp hw
    cases List.prefix_nil.mp hp
    cases hw
    exact hu.not_isExternal
  | cons step path ih =>
    obtain ⟨hhead, htail⟩ := List.forall_mem_cons.mp hpath
    rw [at?_cons] at h
    obtain ⟨next, hnext, hu'⟩ := Option.bind_eq_some_iff.mp h
    intro p w hp hw
    cases p with
    | nil =>
      cases hw
      exact not_isExternal_of_step hnext hhead
    | cons step' p =>
      obtain ⟨rfl, hp'⟩ := List.cons_prefix_cons.mp hp
      rw [at?_cons, hnext, Option.bind_some] at hw
      exact ih hu' htail p w hp' hw

end

/-- What fastmcp gets of a document of pygeoapi, by way of the generated one: a correct schema for
queryables, and all that is not found through an external reference as it was. -/
structure HandedOn (raw generated spec : PyVal) : Prop where
  queryables : raw.at? queryablesPath ≠ Option.none →
    spec.at? queryablesPath = some queryablesSchema
  others : ∀ path, ¬queryablesPath <+: path → generated.Plain path →
    spec.look path = raw.look path

theorem Corrected.handedOn {raw generated spec : PyVal} (h : Corrected raw generated)
    (hinPlace : InPlace generated spec) : HandedOn raw generated spec where
  queryables hraw := by
    obtain ⟨old, hold⟩ := Option.ne_none_iff_exists'.mp hraw
    have hnew : generated.at? queryablesPath = some queryablesSchema := by
      rw [h.queryables, hold, Option.map_some]
    refine hinPlace.at? _ _ ?_ hnew settled_queryablesSchema
    refine plain_of_at? hnew settled_queryablesSchema fun step hstep => ?_
    rw [queryablesPath] at hstep
    rintro rfl
    simp at hstep
  others path hpath hplain := (hinPlace.look path hplain).trans (h.others path hpath)

/-- The server is built around what the document of pygeoapi is handed on as, whatever the documents
are that it refers to. -/
theorem createMcpServer_handedOn (upstream : String → Except PyError CacheFile)
    (yamlRoundTrip : PyVal → Except PyError PyVal) (P : PyVal → Prop)
    (hyaml : Durable yamlRoundTrip P) (raw : PyVal) (hraw : upstream "yaml" = .ok (.ok raw))
    (hkept : P raw) (generated : PyVal)
    (hgenerated : generateOpenapiDocument upstream yamlRoundTrip "yaml" = .ok generated)
    (m : McpPlatform) (hfile : m.baseSpec = some (.ok generated))
    (w : World) (dir : Option String) (ttl : Int) (s : Session)
    (hresolve : ∀ spec, m.resolveExternalRefs generated = .ok spec →
      Returns w dir ttl s generated spec)
    (cfg : ServerSettings) (server : McpServer)
    (h : createMcpServer m cfg = .ok (some server)) :
    ∃ spec, m.httpApp spec server.auth = .ok server.httpApp ∧ HandedOn raw generated spec := by
  obtain ⟨_, baseSpec, spec, hbaseSpec, hspec, hhttpApp⟩ := createMcpServer_cases h
  rw [hfile] at hbaseSpec
  cases hbaseSpec
  obtain ⟨fuel, s', hrun⟩ := hresolve spec hspec
  have hcorrected : Corrected raw generated := (generated_cases hyaml hraw hkept hgenerated).1
  exact ⟨spec, hhttpApp, hcorrected.handedOn (inPlace_of_returned hrun)⟩

def linkRef : PyVal := .dict [(.str "$ref", .str linkUrl)]

/-- A server for a document with a reference. -/
def linkedMcp : McpPlatform where
  __ := lakesPlatform.toMcpPlatform
  baseSpec := some (.ok (lakesDocument queryablesSchema linkRef))
  resolveExternalRefs spec :=
    match FastGeoApi.resolveExternalRefs linkStore.world 7 spec none 86400 Session.start with
    | some (result, _) => result
    | Option.none => .error ⟨.other "RecursionError", ""⟩

theorem linkedMcp_handedOn : ∃ server, createMcpServer linkedMcp lakesSettings = .ok (some server) ∧
    ∃ spec, linkedMcp.httpApp spec server.auth = .ok server.httpApp ∧
      HandedOn (lakesDocument wrappedQueryables linkRef) (lakesDocument queryablesSchema linkRef)
        spec := by
  have hresolve : ∀ spec, linkedMcp.resolveExternalRefs (lakesDocument queryablesSchema linkRef) =
      .ok spec → Returns linkStore.world none 86400 Session.start
        (lakesDocument queryablesSchema linkRef) spec := by
    intro spec hspec
    cases hspec
    exact ⟨7, _, rfl⟩
  cases hserver : createMcpServer linkedMcp lakesSettings with
  | error e => cases hserver
  | ok server =>
    cases server with
    | none => cases hserver
    | some server =>
      exact ⟨server, rfl, createMcpServer_handedOn
        (fun _ => .ok (.ok (lakesDocument wrappedQueryables linkRef))) jsonRoundTrip JsonNative
        durable_json _ rfl rfl _ rfl linkedMcp rfl linkStore.world none 86400 Session.start hresolve
        lakesSettings server hserver⟩

end FastGeoApi
