import FastGeoApi.Api.Conformance
import FastGeoApi.Api.Responses

/-!
# Conformance requests in threads

`get_response` of `app/pygeoapi/starlette_app.py` runs its handler in a thread of the executor, so
the lists of `app/pygeoapi/api/conformance.py` are in the hands of many threads at once.
-/

namespace FastGeoApi
open Interleaving

/-! ## The handler -/

/-- What `conformance(api, request)` reads. -/
structure ConformanceCall where
  /-- `api.config["resources"]`. -/
  resources : Dict PyVal
  /-- `api.pubsub_client is not None`. -/
  hasPubsub : Bool
  /-- `request.get_response_headers(**api.api_headers)`. -/
  responseHeaders : Dict String
  /-- `request.format`. -/
  format : Option String
  /-- `render_j2_template` for `conformance.html` and the locale of the request. -/
  renderTemplate : PyVal → Except PyError String
  /-- `to_json` with `api.pretty_print`. -/
  toJson : PyVal → Except PyError String

/-- `ConformanceResponse.to_dict`. -/
def conformanceDict (conformsTo : List String) : PyVal :=
  .dict [(.str "conformsTo", .list (conformsTo.map .str))]

def ConformanceCall.content (call : ConformanceCall) (conformsTo : List String) :
    Except PyError String :=
  if call.format = some "html" then call.renderTemplate (conformanceDict conformsTo)
  else call.toJson (conformanceDict conformsTo)

/-- `conformance`. -/
def conformance (p : PygeoapiApis) (call : ConformanceCall) : Lists ApiResult := do
  let response ← buildConformanceList p call.resources call.hasPubsub
  let content ← Prog.lift (call.content response)
  return ⟨some call.responseHeaders, 200, .str content⟩

/-- What the handler returns for these classes. -/
def ConformanceCall.result (call : ConformanceCall) (conformsTo : List String) :
    Except PyError ApiResult := do
  let content ← call.content conformsTo
  return ⟨some call.responseHeaders, 200, .str content⟩

theorem yields_conformance (p : PygeoapiApis) (call : ConformanceCall) :
    (conformance p call).Yields p.lists
      (p.conformanceList call.resources call.hasPubsub >>= call.result) :=
  (yields_buildConformanceList call.resources call.hasPubsub).bind fun _ _ =>
    (Prog.Yields.lift _).bind fun _ _ => .pure _

/-- The headers of pygeoapi have a content type, and leave the content length to Starlette. -/
structure ConformanceCall.Headed (call : ConformanceCall) : Prop
    extends HeaderNames call.responseHeaders where
  typed : ∃ contentType, call.responseHeaders.get? "Content-Type" = some contentType
  noLength : ∀ header ∈ call.responseHeaders.items, lowerName header.1 ≠ "content-length"

/-- The response to a request whose classes these are. -/
theorem ConformanceCall.Headed.response {s : Starlette} (hs : s.LawfulResponses)
    (dumps : List (PyKey × PyVal) → Except PyError ByteArray) {call : ConformanceCall}
    (hcall : call.Headed) (conformsTo : List String) :
    ∃ sent : ByteArray → List (String × String),
      (call.result conformsTo >>= getResponse s dumps) = (call.content conformsTo).map
        (fun text => ⟨200, sent text.toByteArray, text.toByteArray⟩) ∧
      ∀ body, (sent body).lookup "content-length" = some (toString body.size) ∧
        ∀ header ∈ call.responseHeaders.items,
          (sent body).lookup (lowerName header.1) = some header.2 := by
  obtain ⟨contentType, htype⟩ := hcall.typed
  have hinit : ∀ body, s.initHeaders body 200 [] none =
      [("content-length", toString body.size)] := by
    intro body
    rw [hs.initHeaders fun _ h => absurd h List.not_mem_nil]
    rfl
  have hlength : (sentHeaders call.responseHeaders.items).lookup "content-length" = none := by
    rw [List.lookup_eq_none_iff]
    intro sent hsent
    obtain ⟨header, hheader, rfl⟩ := List.mem_map.mp hsent
    exact bne_iff_ne.mpr (hcall.noLength header hheader).symm
  -- a page that cannot be rendered is as good as an empty one here
  obtain ⟨sent, hresponse, hlookup⟩ := getResponse_eq hs dumps hcall.toHeaderNames htype 200
    (.str ((call.content conformsTo).toOption.getD ""))
  refine ⟨sent, ?_, fun body => ⟨?_, fun header hheader => ?_⟩⟩
  · rw [ConformanceCall.result]
    cases hcontent : call.content conformsTo with
    | error e => rfl
    | ok text =>
      rw [hcontent] at hresponse
      exact hresponse
  · rw [hlookup, hinit, hlength, Option.none_or]
    exact List.lookup_cons_self
  · have hget : call.responseHeaders.get? header.1 = some header.2 :=
      lookup_of_mem call.responseHeaders.nodup hheader
    rw [hlookup, lookup_sentHeaders hcall.toHeaderNames hget]
    rfl

/-! ## Many requests -/

/-- Threads of the executor, each with its request. -/
abbrev ConformanceThreads := Threads Nat (List String) PyError ApiResult

/-- The threads before they run. -/
def ConformanceThreads.start (p : PygeoapiApis) (calls : Nat → ConformanceCall) :
    ConformanceThreads where
  shared := p.lists
  locals i := conformance p (calls i)

/-- Requests in any number of threads, whose operations on the lists alternate in any order. -/
theorem conformance_threads (s : Starlette) (hs : s.LawfulResponses)
    (dumps : List (PyKey × PyVal) → Except PyError ByteArray) (p : PygeoapiApis)
    (calls : Nat → ConformanceCall) (hcomplete : ∀ i, p.Complete (calls i).resources)
    (htyped : ∀ i, ∀ r ∈ (calls i).resources.items, WellTyped r.2) (hheaded : ∀ i, (calls i).Headed)
    (threads : ConformanceThreads)
    (hreach : ThreadsReach (ConformanceThreads.start p calls) threads) :
    p.lists <+: threads.shared ∧
    (∀ i, ∃ later result, ThreadsReach threads later ∧ later.locals i = .done result) ∧
    ∀ i result, threads.locals i = .done result →
      result = ((conformance p (calls i)).run p.lists).1 ∧
      ∃ (classes : List String) (sent : ByteArray → List (String × String)),
        classes.Pairwise (· < ·) ∧
        (∀ c, c ∈ classes ↔ p.Configured (calls i).resources (calls i).hasPubsub c) ∧
        (result >>= getResponse s dumps) = ((calls i).content classes).map
          (fun text => ⟨200, sent text.toByteArray, text.toByteArray⟩) ∧
        ∀ body, (sent body).lookup "content-length" = some (toString body.size) ∧
          ∀ header ∈ (calls i).responseHeaders.items,
            (sent body).lookup (lowerName header.1) = some header.2 := by
  have hyields := fun i => yields_conformance p (calls i)
  obtain ⟨hkept, hresults⟩ := hreach.yields List.prefix_rfl hyields
  refine ⟨hkept, fun i => ⟨_, _, .finishes threads i, moved_self⟩, fun i result hdone => ?_⟩
  have halone : ((conformance p (calls i)).run p.lists).1 =
      p.conformanceList (calls i).resources (calls i).hasPubsub >>= (calls i).result := by
    exact ((hyields i).run List.prefix_rfl).1
  obtain ⟨classes, hclasses, hsorted, hmem⟩ :=
    p.conformanceList_ok (hcomplete i) (htyped i) (calls i).hasPubsub
  obtain ⟨sent, hresponse, hsent⟩ := (hheaded i).response hs dumps classes
  obtain rfl := hresults i result hdone
  refine ⟨halone.symm, classes, sent, hsorted.pairwise, hmem, ?_, hsent⟩
  rw [hclasses, ok_bind]
  exact hresponse

def servingStarlette : Starlette where
  callNext := asgiStarlette.callNext
  keys := asgiStarlette.keys
  getItem := asgiStarlette.getItem
  setItem headers key value := setHeader headers (lowerName key) value
  initHeaders body statusCode headers mediaType :=
    asgiStarlette.initHeaders body statusCode headers none ++
      match mediaType with
      | some "text/html" => [("content-type", "text/html; charset=utf-8")]
      | some mediaType => [("content-type", mediaType)]
      | none => []

theorem servingStarlette_lawful : servingStarlette.LawfulResponses where
  keepsStatus _ := rfl
  keepsHeaders _ := rfl
  noMediaType _ := rfl
  keepsBody _ := rfl
  keys := rfl
  getItem _ := rfl
  setItem hkey := by
    have hname : lowerName _ = _ := (congrArg String.ofList hkey).trans String.ofList_toList
    exact congrArg (setHeader _ · _) hname
  initHeaders hlower := (List.append_nil _).trans (asgiStarlette_lawful.initHeaders hlower)
  setItem_name _ := rfl
  html := congrArg (· ++ _) (List.append_nil _).symm
  json := congrArg (· ++ _) (List.append_nil _).symm

/-- A request for JSON; the names of the small configuration need no escapes. -/
def smallCall : ConformanceCall where
  resources := smallResources
  hasPubsub := true
  responseHeaders := ⟨[("Content-Type", "application/json"), ("X-Powered-By", "pygeoapi")],
    by decide⟩
  format := some "json"
  renderTemplate _ := .error ⟨.keyError, "conformance.html"⟩
  toJson
    | .dict [(.str key, .list items)] =>
      let quoted := items.filterMap fun
        | .str c => some ("\"" ++ c ++ "\"")
        | _ => none
      .ok ("\x7b\"" ++ key ++ "\":[" ++ String.intercalate "," quoted ++ "]\x7d")
    | _ => .error ⟨.typeError, "Object is not JSON serializable"⟩

theorem smallCall_headed : smallCall.Headed where
  ascii header hheader c hc := by
    have hall : (smallCall.responseHeaders.items.all
        (·.1.toList.all (·.val.toNat < 128))) = true := by decide
    have hheader := List.all_eq_true.mp hall header hheader
    exact of_decide_eq_true (List.all_eq_true.mp hheader c hc)
  distinct := by decide
  typed := ⟨"application/json", rfl⟩
  noLength := by decide

/-- The second request comes when the first has begun, and is answered before it. -/
theorem smallCall_threads : ∃ threads result,
    ThreadsReach (ConformanceThreads.start smallPygeoapi fun _ => smallCall) threads ∧
      threads.locals 0 = .done result ∧
      result = ((conformance smallPygeoapi smallCall).run smallPygeoapi.lists).1 := by
  have hfirst : ThreadsReach (ConformanceThreads.start smallPygeoapi fun _ => smallCall) _ :=
    Reaches.refl.next (i := 0) trivial rfl
  have hsecond := hfirst.trans (ThreadsReach.finishes _ 1)
  have hall := hsecond.trans (ThreadsReach.finishes _ 0)
  refine ⟨_, _, hall, moved_self, ?_⟩
  exact ((conformance_threads servingStarlette servingStarlette_lawful (fun _ => .ok .empty)
    smallPygeoapi (fun _ => smallCall) (fun _ => smallResources_complete)
    (fun _ => smallResources_wellTyped) (fun _ => smallCall_headed) _ hall).2.2 0 _ moved_self).1

end FastGeoApi
