/-
CellNft.Rpc.Run — programs that talk to nodes.

A `Run` is a computation that may fail and that leaves a trace: the JSON-RPC requests it made, how
long it slept, what it logged and what it printed, in order. The other side is a `Network`: what it
replies may depend on the request and on all requests before.

Requests are numbered from one, over all clients of a run. A failure keeps the trace that led to it.

A `Host` is the machine that a run waits on. Not every pause can be slept: `Host.blocking` and
`Host.cooperative` are the two ways of sleeping, with the limits that each of them has.
-/
import CellNft.Logging.Level
import CellNft.Rpc.Http

namespace CellNft

/-- A JSON-RPC request on its way. -/
structure RpcRequest where
  url : Text
  id : Nat
  method : Value
  params : Value
  timeout : Value

inductive Event where
  | request (r : RpcRequest)
  | sleep (seconds : Scalar)
  | log (level : Logging.Level) (message : Text)
  | print (text : String)

/-- What replies to a request, given the requests before it. -/
abbrev Network := List RpcRequest → RpcRequest → Http.Reply

/-- What waiting depends on. -/
structure Host where
  /-- What is wrong with a pause that cannot be slept. -/
  refuses : Scalar → Option Fault
  /-- The random number, from zero up to one, that is drawn behind an attempt. -/
  draw : Nat → Binary64 := fun _ => .zero false

namespace Host

/-- The nanoseconds of a clock, on either side of zero, are below this. -/
def clockRange : Nat := 0x8000000000000000

/-- The seconds of a pause in nanoseconds, as a double. -/
def nanoseconds (seconds : Binary64) : Binary64 := seconds.mul (.ofRat 1000000000 false)

/-- What is wrong with a pause of a program that does nothing else. It must fit into the clock, and
not be negative. The system may refuse pauses that end with the clock, which depends on the time. -/
def blockingRefusal? (seconds : Scalar) : Option Fault :=
  match seconds.number? with
  | none => some .wrongType
  | some (.int n) =>
    if clockRange ≤ n.natAbs * 1000000000 then some (.pauseTooLong false)
    else if n < 0 then some .pauseNegative
    else none
  | some (.float x) =>
    match (nanoseconds x).toRat?, x.view with
    | some r, _ =>
      if r < -clockRange ∨ clockRange ≤ r then some (.pauseTooLong true)
      else if r < 0 then some .pauseNegative
      else none
    | none, .nan => some .pauseIndefinite
    | none, _ => some (.pauseTooLong true)

/-- What is wrong with a pause of a program that does other things meanwhile. It must be a number,
and its end is a double. -/
def cooperativeRefusal? (seconds : Scalar) : Option Fault :=
  match seconds.number? with
  | none => some .wrongType
  | some x => if x.lt (.int 1) || x.toBinary64?.isSome then none else some .beyondDouble

def blocking : Host := { refuses := blockingRefusal? }
def cooperative : Host := { refuses := cooperativeRefusal? }

/-- Every pause is taken down, and none is slept. -/
def patient : Host := { refuses := fun _ => none }

end Host

/-- What a run has left behind so far. -/
structure World where
  nextId : Nat := 1
  trace : List Event := []

namespace World

/-- The requests of the trace. -/
def requests (w : World) : List RpcRequest :=
  w.trace.filterMap fun
    | .request r => some r
    | _ => none

/-- The log lines of the trace. -/
def logged (w : World) : List (Logging.Level × Text) :=
  w.trace.filterMap fun
    | .log level message => some (level, message)
    | _ => none

/-- All that was printed. -/
def printed (w : World) : String :=
  String.join (w.trace.filterMap fun
    | .print text => some text
    | _ => none)

def record (w : World) (e : Event) : World := { w with trace := w.trace ++ [e] }

end World

abbrev Run := ReaderT Network (ExceptT Fault (StateM World))

namespace Run

/-- The outcome of a run on a network, and the world after it. -/
def exec {α : Type} (x : Run α) (network : Network) (w : World) : Except Fault α × World :=
  ((x network).run).run w

/-- Adds to the trace. -/
def emit (e : Event) : Run Unit := modify (·.record e)

def log (level : Logging.Level) (message : Text) : Run Unit := emit (.log level message)

/-- Logs a line that names values, each of which must be one that can be written. -/
def logNaming (level : Logging.Level) (named : List Value) (message : Text) : Run Unit :=
  if named.all Value.isWritable then log level message else throw .unwritable

/-- Sleeps, if the host lets it. -/
def sleep (host : Host) (seconds : Scalar) : Run Unit :=
  match host.refuses seconds with
  | some f => throw f
  | none => emit (.sleep seconds)

/-- Prints a line. -/
def printLine (text : String) : Run Unit := emit (.print (text ++ "\n"))

/-- The number of the next request. -/
def freshId : Run Nat := do
  let w ← get
  set { w with nextId := w.nextId + 1 }
  return w.nextId

/-- Sends a request and receives the reply. -/
def exchange (r : RpcRequest) : Run Http.Reply := do
  let network ← read
  let w ← get
  set (w.record (.request r))
  return network w.requests r

/-- Runs `x` and answers how it ended; this cannot fail. -/
def observe {α : Type} (x : Run α) : Run (Except Fault α) :=
  fun network => ExceptT.mk do return .ok (← (x network).run)

end Run
end CellNft
