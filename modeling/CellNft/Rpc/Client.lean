/-
CellNft.Rpc.Client — calling the methods of a JSON-RPC server.

A call takes the next number, sends one request and reads its reply. A reply with an error object
that holds becomes `Fault.rpc`, whatever result stands beside it. The number is taken first, so a
call whose request cannot be made takes one too.
-/
import CellNft.KeyCase
import CellNft.Rpc.Run

namespace CellNft.Rpc

structure Client where
  endpoint : Value
  timeout : Value

/-- The document of what came back; text is read as JSON. -/
def document : Value → Except Fault Value
  | .str t => Json.parse t
  | v => .ok v

/-- The result in the document that answers a call of a method. -/
def result (method doc : Value) : Except Fault Value := do
  let error ← doc.field "error"
  if error.holds then
    let code ← error.field "code"
    let message ← error.field "message"
    throw (.naming [method, code, message] (.rpc method code message (← error.field "data")))
  doc.field "result"

/-- The document of a request but for its number, which can always be written. -/
def envelope (method params : Value) : Value :=
  .record [("jsonrpc", .str "2.0"), ("method", method), ("params", params)]

/-- The parameters as they are sent. Null means none. -/
def sentParams : Value → Value
  | .null => .list []
  | params => params

namespace Client

/-- Calls a method and answers its result. That a method has a text for its name is up to the
server. -/
def callOf (c : Client) (method params : Value) : Run Value := do
  let id ← Run.freshId
  let params := sentParams params
  Run.logNaming .debug [c.endpoint, method]
    ("RPC[" ++ c.endpoint.display ++ "] => " ++ method.display)
  let request ← Http.prepare c.timeout {
    endpoint := c.endpoint, method := .str "POST", api := .str ""
    payload := envelope method params }
  let reply ← Run.exchange { url := request.url, id, method, params, timeout := request.timeout }
  result method (← document (← Http.read reply))

/-- Calls a method by its name. -/
def call (c : Client) (method : Text) (params : Value) : Run Value := c.callOf (.str method) params

/-- Calls a method and answers its result with keys in camel case. -/
def callCamel (c : Client) (method : Text) (params : Value) : Run Value := do
  (← c.call method params).camelKeys

end Client
end CellNft.Rpc
