import FastGeoApi.Config
import FastGeoApi.OpenApi.Model

/-!
# Augmenting a document with security

`app/pygeoapi/openapi.py`, with the two responses of `app/auth/models.py` and
`app/pygeoapi/models.py` that it adds.
-/

namespace FastGeoApi

def unauthorized : Dict ResponseOrReference :=
  .single "401" (.response "Unauthenticated" [])

def notFound : Dict ResponseOrReference :=
  .single "404" (.reference ("https://schemas.opengis.net/ogcapi/features/part1/1.0/openapi/" ++
    "ogcapi-features-1.yaml#/components/responses/NotFound") [])

/-- `f"pygeoapi {cfg.PYGEOAPI_SECURITY_SCHEME}"`. -/
def schemeName (cfg : Configuration) : String :=
  "pygeoapi " ++ cfg.pygeoapiSecurityScheme.getD "None"

/-- `_security_schemes["securitySchemes"]`. -/
def securitySchemesOf (cfg : Configuration) (securitySchemes : List SecurityScheme) : PyVal :=
  if securitySchemes.all (·.type ∈ ["http", "apiKey", "oauth2", "openIdConnect"]) then
    .dict <| securitySchemes.foldl (fun dumpedSchemes scheme =>
      setItem dumpedSchemes (.str (schemeName cfg)) scheme.dumped) []
  else .dict []

/-- `components` after `if components: components.update(_security_schemes)`. -/
def updateComponents (components securitySchemes : PyVal) : Except PyError PyVal :=
  if components.truthy then
    match components with
    | .dict items => .ok (.dict (setItem items (.str "securitySchemes") securitySchemes))
    | _ => .error ⟨.attributeError, "update"⟩
  else .ok components

/-- The schema that stands for the answers of `/collections/{id}/queryables`. -/
def queryablesSchema : PyVal :=
  .dict [
    (.str "type", .str "object"),
    (.str "description", .str ("A JSON Schema document describing the queryable/" ++
      "returnable properties of the collection " ++ "(OGC API - Features Part 3 / Part 5).")),
    (.str "properties", .dict [
      (.str "$schema", .dict [(.str "type", .str "string")]),
      (.str "$id", .dict [(.str "type", .str "string")]),
      (.str "type", .dict [(.str "type", .str "string")]),
      (.str "title", .dict [(.str "type", .str "string")]),
      (.str "properties", .dict [(.str "type", .str "object")])]),
    (.str "additionalProperties", .bool true)]

/-- `v.get(key, default)`. -/
def getMethod (v : PyVal) (key : String) (default : PyVal) : Except PyError PyVal :=
  match v with
  | .dict items => .ok ((PyVal.get items key).getD default)
  | _ => .error ⟨.attributeError, "get"⟩

/-- `fix_queryables_response_schema`. The schemas are only found behind `components` when both are
there, so that is where the changed ones are put back. -/
def fixQueryablesResponseSchema (doc : List (PyKey × PyVal)) :
    Except PyError (List (PyKey × PyVal)) := do
  let components := (PyVal.get doc "components").getD (.dict [])
  let schemas ← getMethod components "schemas" (.dict [])
  if ← schemas.isIn "queryables" then
    match components, schemas with
    | .dict components, .dict schemas =>
      let schemas := setItem schemas (.str "queryables") queryablesSchema
      let components := setItem components (.str "schemas") (.dict schemas)
      return setItem doc (.str "components") (.dict components)
    | _, _ => .error ⟨.typeError, "object does not support item assignment"⟩
  else return doc

/-- The assignments for one operation: the security requirement, and the responses when it has
responses already. -/
def secureOperation (name : String) (updates : List (Dict ResponseOrReference)) (op : Operation) :
    Operation :=
  { op with
    security := some [.single name []]
    responses := if op.responses.isEmpty then op.responses else updates.foldl .update op.responses }

/-- The branches for one path item. -/
def securePathItem (name : String) (value : PathItem) : PathItem :=
  { value with
    get := value.get.map (secureOperation name [unauthorized])
    post := value.post.map (secureOperation name [unauthorized])
    -- 404 is to be removed when it is fixed in pygeoapi
    options := value.options.map (secureOperation name [unauthorized, notFound])
    delete := value.delete.map (secureOperation name [unauthorized]) }

/-- `secured_paths`. -/
def securedPaths (name : String) (paths : Dict PathItem) : Dict PathItem :=
  paths.collect fun key value =>
    if Str.isIn "openapi" key then none else some (securePathItem name value)

/-- `augment_security`. -/
def augmentSecurity (p : Pydantic) (cfg : Configuration) (doc : String)
    (securitySchemes : List SecurityScheme) : Except PyError OpenAPI := do
  let openapi ← p.validateJson doc
  let content := p.dump openapi
  let components ← updateComponents ((PyVal.get content "components").getD .none)
    (securitySchemesOf cfg securitySchemes)
  let content ← fixQueryablesResponseSchema (setItem content (.str "components") components)
  let secured := securedPaths (schemeName cfg) openapi.paths
  if secured.isEmpty then p.validate content none else p.validate content (some secured)

end FastGeoApi
