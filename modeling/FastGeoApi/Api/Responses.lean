import FastGeoApi.Middleware.Proxy

/-!
# Responses from the results of handlers

`get_response` of `app/pygeoapi/starlette_app.py`. A handler of pygeoapi returns headers, a status
and a content, which become a Starlette response.
-/

namespace FastGeoApi

inductive Content where
  | none
  | bytes (content : ByteArray)
  | str (content : String)
  | dict (content : List (PyKey × PyVal))

/-- What a handler returns. -/
structure ApiResult where
  headers : Option (Dict String)
  status : Nat
  content : Content

/-- `Response.render(content)`. -/
def Content.render : Content → Except PyError ByteArray
  | .none => .ok .empty
  | .bytes content => .ok content
  | .str content => .ok content.toByteArray
  | .dict _ => .error ⟨.attributeError, "encode"⟩

/-- `headers[key]`. -/
def headerOf (headers : Option (Dict String)) (key : String) : Except PyError String :=
  match headers with
  | none => .error ⟨.typeError, "'NoneType' object is not subscriptable"⟩
  | some headers =>
    match headers.get? key with
    | some value => .ok value
    | none => .error ⟨.keyError, key⟩

section
variable (s : Starlette)

/-- `response.headers.update(headers)`. -/
def updateHeaders (rawHeaders headers : List (String × String)) : List (String × String) :=
  headers.foldl (fun rawHeaders header => s.setItem rawHeaders header.1 header.2) rawHeaders

/-- `get_response`, once the handler has returned; `dumps` is how `JSONResponse` renders. -/
def getResponse (dumps : List (PyKey × PyVal) → Except PyError ByteArray) (result : ApiResult) :
    Except PyError Starlette.Response := do
  let contentType ← headerOf result.headers "Content-Type"
  let response ←
    if contentType = "text/html" then do
      pure (s.response (← result.content.render) result.status [] (some "text/html"))
    else
      match result.content with
      | .dict content => do
        pure (s.response (← dumps content) result.status [] (some "application/json"))
      | content => do pure (s.response (← content.render) result.status [] none)
  match result.headers with
  | some headers =>
    return { response with rawHeaders := updateHeaders s response.rawHeaders headers.items }
  | none => return response

end

/-! ## What comes of a result -/

/-- `key.lower()` of a header name. -/
def lowerName (key : String) : String := String.ofList (lower key)

/-- What Starlette does with names in any letter case, and with media types. -/
structure Starlette.LawfulResponses (s : Starlette) : Prop extends s.Lawful where
  setItem_name : (∀ c ∈ key.toList, c.val.toNat < 128) →
    s.setItem headers key value = setHeader headers (lowerName key) value
  html : s.initHeaders body statusCode [] (some "text/html") =
    s.initHeaders body statusCode [] none ++ [("content-type", "text/html; charset=utf-8")]
  json : s.initHeaders body statusCode [] (some "application/json") =
    s.initHeaders body statusCode [] none ++ [("content-type", "application/json")]

/-- The names are ASCII and differ from each other in lower case, too. -/
structure HeaderNames (headers : Dict String) : Prop where
  ascii : ∀ header ∈ headers.items, ∀ c ∈ header.1.toList, c.val.toNat < 128
  distinct : (headers.items.map fun header => lowerName header.1).Nodup

/-- The headers as they are sent. -/
def sentHeaders (headers : List (String × String)) : List (String × String) :=
  headers.map fun header => (lowerName header.1, header.2)

/-- The bytes of a content that is sent as this type. -/
def Content.encode (dumps : List (PyKey × PyVal) → Except PyError ByteArray) (contentType : String)
    (content : Content) : Except PyError ByteArray :=
  match content with
  | .dict items => if contentType = "text/html" then content.render else dumps items
  | _ => content.render

@[simp] theorem sentHeaders_cons {header : String × String} {headers : List (String × String)} :
    sentHeaders (header :: headers) = (lowerName header.1, header.2) :: sentHeaders headers := rfl

section
variable {s : Starlette} {headers rawHeaders : List (String × String)} {name : String}

/-- Each header of the dict is set, and the others stay. -/
theorem lookup_updateHeaders (hs : s.LawfulResponses)
    (hascii : ∀ header ∈ headers, ∀ c ∈ header.1.toList, c.val.toNat < 128)
    (hdistinct : (headers.map fun header => lowerName header.1).Nodup) :
    (updateHeaders s rawHeaders headers).lookup name =
      ((sentHeaders headers).lookup name).or (rawHeaders.lookup name) := by
  induction headers generalizing rawHeaders with
  | nil => rfl
  | cons header rest ih =>
    obtain ⟨key, value⟩ := header
    obtain ⟨hnew, hdistinct⟩ := List.nodup_cons.mp hdistinct
    rw [updateHeaders, List.foldl_cons, ← updateHeaders,
      ih (fun header h => hascii header (List.mem_cons_of_mem _ h)) hdistinct,
      hs.setItem_name (hascii _ List.mem_cons_self), sentHeaders_cons, List.lookup_cons]
    by_cases hname : name = lowerName key
    · subst hname
      have hrest : (sentHeaders rest).lookup (lowerName key) = none := by
        rw [List.lookup_eq_none_iff]
        intro header hheader
        obtain ⟨header', hheader', rfl⟩ := List.mem_map.mp hheader
        rw [bne_iff_ne]
        intro heq
        exact hnew (List.mem_map.mpr ⟨header', hheader', heq.symm⟩)
      rw [hrest, lookup_setHeader, beq_self_eq_true]
      rfl
    · rw [lookup_setHeader_of_ne hname, beq_eq_false_iff_ne.mpr hname]

theorem lookup_sentHeaders {headers : Dict String} (hnames : HeaderNames headers)
    {key value : String} (h : headers.get? key = some value) :
    (sentHeaders headers.items).lookup (lowerName key) = some value := by
  obtain ⟨before, after, hitems, _⟩ := List.lookup_eq_some_iff.mp h
  have hmem : (key, value) ∈ headers.items := by
    rw [hitems]
    exact List.mem_append_right _ List.mem_cons_self
  have hkeys : ((sentHeaders headers.items).map Prod.fst).Nodup := by
    rw [sentHeaders, List.map_map]
    exact hnames.distinct
  exact lookup_of_mem hkeys (List.mem_map_of_mem hmem)

/-- A content type that Starlette has set gives way to that of the handler. -/
theorem lookup_retyped {sent : List (String × String)} {contentType default : String}
    (h : sent.lookup "content-type" = some contentType) :
    (sent.lookup name).or ((rawHeaders ++ [("content-type", default)]).lookup name) =
      (sent.lookup name).or (rawHeaders.lookup name) := by
  by_cases hname : name = "content-type"
  · subst hname
    rw [h]
    rfl
  · rw [List.lookup_append, List.lookup_cons, beq_eq_false_iff_ne.mpr hname]
    rw [List.lookup_nil, Option.or_none]

/-- The status is kept, the content is encoded, and the headers are those of the handler and the
length of the body. -/
theorem getResponse_eq (hs : s.LawfulResponses)
    (dumps : List (PyKey × PyVal) → Except PyError ByteArray) {headers : Dict String}
    (hnames : HeaderNames headers) {contentType : String}
    (htype : headers.get? "Content-Type" = some contentType) (status : Nat) (content : Content) :
    ∃ sent : ByteArray → List (String × String),
      getResponse s dumps ⟨some headers, status, content⟩ =
        (content.encode dumps contentType).map (fun body => ⟨status, sent body, body⟩) ∧
      ∀ body name, (sent body).lookup name = ((sentHeaders headers.items).lookup name).or
        ((s.initHeaders body status [] none).lookup name) := by
  have hsent : (sentHeaders headers.items).lookup "content-type" = some contentType :=
    lookup_sentHeaders hnames htype
  have hlookup : ∀ {rawHeaders name}, (updateHeaders s rawHeaders headers.items).lookup name =
      ((sentHeaders headers.items).lookup name).or (rawHeaders.lookup name) :=
    lookup_updateHeaders hs hnames.ascii hnames.distinct
  simp only [getResponse, headerOf, htype, Starlette.response, bind, Except.bind, pure,
    Except.pure]
  by_cases hhtml : contentType = "text/html"
  · refine ⟨fun body => updateHeaders s (s.initHeaders body status [] (some "text/html"))
      headers.items, ?_, fun body name => ?_⟩
    · have hencode : content.encode dumps contentType = content.render := by
        cases content with
        | dict items => exact if_pos hhtml
        | _ => rfl
      rw [if_pos hhtml, hencode]
      cases content.render <;> rfl
    · rw [hlookup, hs.html, lookup_retyped hsent]
  · rw [if_neg hhtml]
    cases content with
    | dict items =>
      refine ⟨fun body => updateHeaders s (s.initHeaders body status [] (some "application/json"))
        headers.items, ?_, fun body name => ?_⟩
      · rw [Content.encode, if_neg hhtml]
        dsimp only
        cases dumps items <;> rfl
      · rw [hlookup, hs.json, lookup_retyped hsent]
    | _ =>
      exact ⟨fun body => updateHeaders s (s.initHeaders body status [] none) headers.items, rfl,
        fun body name => hlookup⟩

end
end FastGeoApi
