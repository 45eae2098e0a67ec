import FastGeoApi.OpenApi.Augment
import FastGeoApi.Starlette

/-!
# The OpenAPI middleware

`app/middleware/pygeoapi.py`: responses on the OpenAPI route go through a responder that holds the
start of the response back until a body comes. The headers and the content type that the responder
takes down are only logged.
-/

namespace FastGeoApi

/-- `routes_with_openapi`. -/
def routesWithOpenapi (cfg : Configuration) : List String := [cfg.fastgeoapiContext ++ "/openapi"]

section
variable (s : Starlette) (p : Pydantic) (cfg : Configuration)
  (securitySchemes : List SecurityScheme)

/-- `OpenAPIResponder.send_with_security`, with `initial_message` as its state: what is sent, and
the exception or the new state. -/
def sendWithSecurity (message initialMessage : Message) :
    List Message × Except PyError Message :=
  match message with
  | .start start => ([], .ok (.start start))
  | .body body moreBody =>
    match decodeUtf8 body with
    | .error e => ([], .error e)
    | .ok initialBody =>
      if Str.isIn "<!-- HTML" initialBody then
        ([initialMessage, .body body moreBody], .ok initialMessage)
      else
        match augmentSecurity p cfg initialBody securitySchemes with
        | .error e => ([], .error e)
        | .ok openapiBody =>
          let binaryBody := (p.dumpJson openapiBody).toByteArray
          match initialMessage with
          | .start start =>
            let start := { start with
              headers := s.setItem start.headers "content-length" (toString binaryBody.size)
              body := some binaryBody }
            ([.start start, .body binaryBody moreBody], .ok (.start start))
          | _ => ([], .error ⟨.keyError, "headers"⟩)
  | .other _ => ([], .ok initialMessage)
  | .empty => ([], .error ⟨.keyError, "type"⟩)

/-- The messages of the inner application, one after the other: what the client is sent, and
whether an exception comes up. -/
def respond (initialMessage : Message) : List Message → List Message × Except PyError Unit
  | [] => ([], .ok ())
  | message :: messages =>
    match sendWithSecurity s p cfg securitySchemes message initialMessage with
    | (sent, .error e) => (sent, .error e)
    | (sent, .ok initialMessage) =>
      let (rest, result) := respond initialMessage messages
      (sent ++ rest, result)

/-- `OpenapiSecurityMiddleware.__call__`, for an inner application that sends these messages. -/
def openapiSecurityMiddleware (scope : Scope) (messages : List Message) :
    List Message × Except PyError Unit :=
  match scope with
  | .http request =>
    if request.path ∈ routesWithOpenapi cfg then respond s p cfg securitySchemes .empty messages
    else (messages, .ok ())
  | _ => (messages, .ok ())

end
end FastGeoApi
