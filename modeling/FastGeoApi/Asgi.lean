import FastGeoApi.Python.Value

/-!
# ASGI

Scopes, and the messages of a response. Header names are in lower case, as ASGI has them.
-/

namespace FastGeoApi

structure Request where
  method : String
  path : String
  headers : List (String × String)

inductive Scope where
  | lifespan
  | http (request : Request)
  | other (type : String)

/-- A `http.response.start` message. Its `body` is not part of the protocol: only the OpenAPI
middleware sets one. -/
structure Start where
  status : Nat
  headers : List (String × String)
  body : Option ByteArray := none

inductive Message where
  /-- The empty dict. -/
  | empty
  | start (message : Start)
  /-- `http.response.body`; a message without a body has an empty one. -/
  | body (body : ByteArray) (moreBody : Bool)
  | other (type : String)

/-! ## Bytes -/

/-- `b.decode()`. -/
def decodeUtf8 (b : ByteArray) : Except PyError String :=
  match String.fromUTF8? b with
  | some s => .ok s
  | none => .error ⟨.unicodeDecodeError, "utf-8"⟩

theorem decodeUtf8_eq_ok {b : ByteArray} {s : String} :
    decodeUtf8 b = .ok s ↔ s.toByteArray = b := by
  rw [decodeUtf8, String.fromUTF8?]
  by_cases hvalid : b.IsValidUTF8
  · rw [dif_pos hvalid, Except.ok.injEq, ← String.toByteArray_inj, eq_comm]
    exact Iff.rfl
  · rw [dif_neg hvalid]
    refine ⟨nofun, fun h => absurd ?_ hvalid⟩
    exact h ▸ s.isValidUTF8

theorem decodeUtf8_toByteArray {s : String} : decodeUtf8 s.toByteArray = .ok s :=
  decodeUtf8_eq_ok.mpr rfl

/-- `b"".join(chunks)`. -/
def joinBytes : List ByteArray → ByteArray
  | [] => .empty
  | b :: bs => b ++ joinBytes bs

theorem joinBytes_singleton {b : ByteArray} : joinBytes [b] = b := ByteArray.append_empty

/-- The messages that a body is sent in: every one but the last says that there is more. -/
def bodyMessages (first : ByteArray) : List ByteArray → List Message
  | [] => [.body first false]
  | second :: rest => .body first true :: bodyMessages second rest

end FastGeoApi
