/-
CellNft.Rpc.Http — requests as they go out, and what is read from a reply.

* `Http.prepare` joins endpoint and path, fills in what a call leaves open, and decides whether the
  payload travels in the query or as a JSON body. A payload without a JSON text is a failure then.
* `Http.read` turns a reply into a value: a JSON document if the reply is declared as one, else its
  text. A status from 400 on is a failure whatever the body is.
-/
import CellNft.Json.Reader
import CellNft.Json.Writer
import CellNft.Value.Access

namespace CellNft.Http

/-- The content type of JSON documents. -/
def jsonType : Text := "application/json"

inductive Payload where
  /-- In the query of a `GET`. -/
  | query (v : Value)
  /-- As a JSON body. -/
  | json (v : Value)

/-- A request as it goes out. -/
structure Request where
  method : Text
  url : Text
  headers : Value
  timeout : Value
  proxy : Value
  payload : Payload

/-- What a caller asks for. -/
structure Call where
  endpoint : Value
  method : Value
  api : Value
  payload : Value := .null
  headers : Value := .null
  proxy : Value := .null
  timeout : Value := .null

/-- Slashes between endpoint and path count once; without a path the endpoint is the url. -/
def joinUrl (endpoint api : Text) : Text :=
  let base := (endpoint.points.reverse.dropWhile (· = .char '/')).reverse
  let path := api.points.dropWhile (· = .char '/')
  ⟨if path.isEmpty then base else base ++ .char '/' :: path⟩

/-- Whether a method is `GET`, in whatever case. -/
def isGet (method : Text) : Bool := method.chars.map Char.toUpper = ['G', 'E', 'T']

/-- How a payload travels with a method. -/
def carry (method : Text) (payload : Value) : Except Fault Payload :=
  if isGet method then return .query payload
  else do
    Json.check payload
    return .json payload

/-- The request of a call through a client with a default timeout. -/
def prepare (clientTimeout : Value) (c : Call) : Except Fault Request := do
  let endpoint ← c.endpoint.text
  let api ← c.api.text
  let method ← c.method.text
  let payload ← carry method c.payload
  return {
    method, payload
    url := joinUrl endpoint api
    headers := c.headers.orElse (.dict [])
    timeout := c.timeout.orElse clientTimeout
    proxy := c.proxy }

inductive Body where
  | json (document : Json.Document)
  | text (t : Text)

inductive Reply where
  /-- The other side cannot be reached. -/
  | unreachable (text : Text)
  | response (status : Int) (contentType : Text) (body : Body)

namespace Body

/-- The body that a value is written to; what has no JSON text is written as plain text. -/
def ofValue (v : Value) : Body :=
  if h : Json.Carried v then .json ⟨v, h⟩ else .text (Json.text .compact v)

/-- The value in a body; a blank body is null. -/
def document : Body → Except Fault Value
  | .json d => .ok d.value
  | .text t =>
    if t.chars.all Text.isAsciiBlank then .ok .null else Json.parse t

def plain : Body → Text
  | .json d => Json.text .compact d.value
  | .text t => t

end Body

/-- The value of a reply. -/
def read : Reply → Except Fault Value
  | .unreachable text => .error (.unreachable text)
  | .response status contentType body =>
    if 400 ≤ status then .error (.httpStatus status)
    else if contentType = jsonType then body.document
    else .ok (.str body.plain)

end CellNft.Http
