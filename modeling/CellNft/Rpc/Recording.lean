/-
CellNft.Rpc.Recording — prepared replies as documents.

A recording is a list of entries `{"method", "url", "replies"}`; the url may be missing. A reply has
one of these forms, with its status and its content type beside it if they are not the usual ones:

* `{"raise": text}`: the request does not get through;
* `{"body": value}` and `{"text": text}`: the body is given;
* `{"result": value}`, `{"error": value}`, both or none: the fields of a JSON-RPC document.
-/
import CellNft.Rpc.Playback

namespace CellNft.Recording

/-- A field that may be missing. -/
def field? (v : Value) (key : String) : Option Value :=
  match v with
  | .dict d => Dict.find? d (.str key)
  | _ => none

def textOf : Value → Text
  | .str t => t
  | _ => ""

def itemsOf : Value → List Value
  | .list items => items
  | _ => []

/-- What a reply carries. -/
def content (v : Value) : Playback.Content :=
  match field? v "body", field? v "text" with
  | some b, _ => .body (.ofValue b)
  | none, some t => .body (.text (textOf t))
  | none, none =>
    .envelope (["result", "error"].filterMap fun key => (field? v key).map fun w => (.str key, w))

def answer (v : Value) : Playback.Answer :=
  match field? v "raise" with
  | some t => .unreachable (textOf t)
  | none =>
    let status := match field? v "status" with
      | some (.int n) => n
      | _ => 200
    let contentType := match field? v "contentType" with
      | some (.str c) => c
      | _ => Http.jsonType
    .response status contentType (content v)

def entry (v : Value) : Playback.Entry where
  method := (field? v "method").getD .null
  url := (field? v "url").map textOf
  answers := (((field? v "replies").map itemsOf).getD []).map answer

/-- The network that plays a recording. -/
def network (v : Value) : Network := Playback.network ((itemsOf v).map entry)

end CellNft.Recording
