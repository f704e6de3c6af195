import AuditGateway.Framework.Keyed
import AuditGateway.Go.Strings

/-!
# The key of a request

The package `authkeys`: `Extract` looks for an API key in the headers and in the query string, and
takes the first that is there. It is the key without a scheme, without `sk-`, and up to the first hyphen.
-/

namespace AuditGateway.Gateway

open AuditGateway.Framework AuditGateway.Go

/-- `http.Header`. -/
abbrev HttpHeader := Keyed GoString (List GoString)

/-- `Header.Get`: the first value. -/
def headerGet (header : HttpHeader) (name : String) : GoString :=
  ((header.find (canonicalHeaderKey (ascii name))).bind List.head?).getD []

/-- Where a key has been found. -/
inductive KeySource
  | authorization
  | anthropic
  | geminiQuery
  | geminiHeader
  | midjourney
  | realtime
deriving DecidableEq, Repr

structure ExtractedKey where
  canonicalKey : GoString
  source : KeySource
deriving DecidableEq

/-- The part of a request that `Extract` reads. -/
structure KeyRequest where
  header : HttpHeader
  rawQuery : GoString

section

variable (U : Unicode)

def canonicalize (value : GoString) : GoString :=
  let value := trimSpace value
  let value := if (ascii "bearer ").isPrefixOf (toLower U value) then trimSpace (value.drop 7) else value
  let value := if (ascii "sk-").isPrefixOf value then value.drop 3 else value
  trimSpace (value.takeWhile (· != 45))

/-- `Canonicalize`. -/
def canonicalKey (value : GoString) : Option GoString :=
  if canonicalize U value = [] then none else some (canonicalize U value)

def authorizationBearerKey (value : GoString) : Option GoString :=
  match fields (trimSpace value) with
  | [scheme, key] => if equalFold U scheme (ascii "Bearer") then canonicalKey U key else none
  | _ => none

/-- `realtimeAPIKeyProtocolPrefix`. -/
def realtimeMark : GoString := ascii "openai-insecure-api-key."

/-- The key in an item of `Sec-WebSocket-Protocol`. -/
def realtimeKey (item : GoString) : Option GoString :=
  if realtimeMark.isPrefixOf (trimSpace item) then canonicalKey U ((trimSpace item).drop realtimeMark.length) else none

/-- The key in a value of `Sec-WebSocket-Protocol`. -/
def realtimeKeyOf (value : GoString) : Option GoString :=
  if value = [] then none else (value.splitOn 44).findSome? (realtimeKey U)

/-- The parameter `key` of a query string: its raw value and its value. -/
def keyParam (rawQuery : GoString) : Option (GoString × GoString) := queryParamNamed rawQuery (ascii "key")

/-- `Extract`. -/
def extract (req : KeyRequest) : Option ExtractedKey :=
  ((authorizationBearerKey U (headerGet req.header "Authorization")).map (⟨·, .authorization⟩)).or <|
  ((canonicalKey U (headerGet req.header "x-api-key")).map (⟨·, .anthropic⟩)).or <|
  ((canonicalKey U (((keyParam req.rawQuery).map Prod.snd).getD [])).map (⟨·, .geminiQuery⟩)).or <|
  ((canonicalKey U (headerGet req.header "x-goog-api-key")).map (⟨·, .geminiHeader⟩)).or <|
  ((canonicalKey U (headerGet req.header "mj-api-secret")).map (⟨·, .midjourney⟩)).or <|
  (realtimeKeyOf U (headerGet req.header "Sec-WebSocket-Protocol")).map (⟨·, .realtime⟩)

end

end AuditGateway.Gateway
