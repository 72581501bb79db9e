/-
CellNft.Rpc.Playback — networks that play prepared replies.

A request goes to the first entry for its method and url. The first request to an entry gets the
first reply, the second the second, and when the replies run out the last one is repeated.
-/
import CellNft.Rpc.Run

namespace CellNft.Playback

/-- What a prepared reply carries. -/
inductive Content where
  /-- A JSON-RPC document with the given fields beside version and number. -/
  | envelope (fields : Dict)
  | body (b : Http.Body)

inductive Answer where
  | unreachable (text : Text)
  | response (status : Int) (contentType : Text) (content : Content)

/-- The body for a request with the given number. -/
def Content.toBody (id : Value) : Content → Http.Body
  | .envelope fields =>
    .ofValue (.dict (Dict.ofFields [("jsonrpc", .str "2.0"), ("id", id)] ++ fields))
  | .body b => b

/-- The reply to a request with the given number. -/
def Answer.toReply (id : Value) : Answer → Http.Reply
  | .unreachable text => .unreachable text
  | .response status contentType content => .response status contentType (content.toBody id)

structure Entry where
  method : Value
  /-- Without a url, every url is meant. -/
  url : Option Text
  answers : List Answer

def Entry.matches (e : Entry) (r : RpcRequest) : Bool :=
  e.method.same r.method && e.url.all (· = r.url)

/-- The number of the entry that a request goes to. -/
def entryOf (entries : List Entry) (r : RpcRequest) : Option Nat := entries.findIdx? (·.matches r)

/-- Answer number `n` of an entry. -/
def answerAt (answers : List Answer) (n : Nat) : Option Answer :=
  match answers[n]? with
  | some a => some a
  | none => answers.getLast?

/-- The network of the entries. Requests without an entry do not get through. -/
def network (entries : List Entry) : Network := fun earlier r =>
  let reached := do
    let i ← entryOf entries r
    let e ← entries[i]?
    answerAt e.answers (earlier.countP fun q => entryOf entries q = some i)
  match reached with
  | some a => a.toReply (.int r.id)
  | none => .unreachable "no route"

end CellNft.Playback
