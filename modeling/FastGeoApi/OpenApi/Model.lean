import FastGeoApi.Python.Dict
import FastGeoApi.Python.Value

/-!
# OpenAPI documents

The objects that `openapi_pydantic` builds from a document: the fields that the code reads or sets,
and in `fields` what the others dump to, without those that are `None`. Parsing, validation and
dumping are the work of that package, so they are a parameter.
-/

namespace FastGeoApi

/-- `Response | Reference`. -/
inductive ResponseOrReference where
  | response (description : String) (fields : List (PyKey × PyVal))
  | reference (ref : String) (fields : List (PyKey × PyVal))

/-- A requirement names security schemes, each with the scopes it needs. -/
abbrev SecurityRequirement := Dict (List String)

structure Operation where
  security : Option (List SecurityRequirement)
  responses : Dict ResponseOrReference
  fields : List (PyKey × PyVal)

inductive Method where
  | get | put | post | delete | options | head | patch | trace
  deriving DecidableEq

structure PathItem where
  get : Option Operation := none
  put : Option Operation := none
  post : Option Operation := none
  delete : Option Operation := none
  options : Option Operation := none
  head : Option Operation := none
  patch : Option Operation := none
  trace : Option Operation := none
  fields : List (PyKey × PyVal) := []

def PathItem.operation (item : PathItem) : Method → Option Operation
  | .get => item.get
  | .put => item.put
  | .post => item.post
  | .delete => item.delete
  | .options => item.options
  | .head => item.head
  | .patch => item.patch
  | .trace => item.trace

structure OpenAPI where
  paths : Dict PathItem
  fields : List (PyKey × PyVal)

structure SecurityScheme where
  type : String
  /-- `scheme.model_dump(by_alias=True, exclude_none=True)`. -/
  dumped : PyVal

/-- What `openapi_pydantic` does. -/
structure Pydantic where
  /-- `OpenAPI.model_validate_json(doc)`. -/
  validateJson : String → Except PyError OpenAPI
  /-- `openapi.model_dump(by_alias=True, exclude_none=True)`. -/
  dump : OpenAPI → List (PyKey × PyVal)
  /-- `OpenAPI(**content)`, where `content["paths"]` is a dict of `PathItem` objects if one is
  given, and as in `content` if not. -/
  validate : List (PyKey × PyVal) → Option (Dict PathItem) → Except PyError OpenAPI
  /-- `openapi.model_dump_json(by_alias=True, exclude_none=True, indent=2)`. -/
  dumpJson : OpenAPI → String

structure Pydantic.Lawful (p : Pydantic) : Prop where
  /-- A value that is an instance of its model already is taken as it is. -/
  keepsInstances : p.validate content (some paths) = .ok result → result.paths = paths
  /-- What was dumped is read back. -/
  readsBack : PyVal.get content "paths" = PyVal.get (p.dump openapi) "paths" →
    p.validate content none = .ok result → result.paths = openapi.paths

end FastGeoApi
