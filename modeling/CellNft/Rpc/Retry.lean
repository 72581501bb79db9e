/-
CellNft.Rpc.Retry — trying again after a failure.

* `Retry.Options` say how often, how long to wait, and after which failures. A negative or zero
  number of tries never gives up.
* `Retry.nextDelay` is the back-off: the last delay times a factor plus a jitter, but at most the
  greatest delay.
* `Retry.run` runs an action until it succeeds, fails for good, or fails in a way that is not tried
  again. Before each further try it logs a warning and sleeps, which are two more ways to fail. An
  action is told which try it is.
* `Retry.Entry` are the ways to have an action tried again: with the options among its keywords, or
  with options that it was given beforehand.
-/
import CellNft.Rpc.Run
import CellNft.Value.Arithmetic

namespace CellNft.Retry

inductive Jitter where
  | fixed (amount : Value)
  /-- Drawn from between two ends. -/
  | drawn (low high : Value)

structure Options where
  tries : Value := .int (-1)
  delay : Value := .int 0
  backoff : Value := .int 1
  jitter : Jitter := .fixed (.int 0)
  /-- Null, or zero, for no limit. -/
  maxDelay : Value := .null
  retryable : List Fault.Kind := [.any]
  /-- Whether the log takes warnings. -/
  warns : Bool := true

/-- What is added to a delay, where `chance` is the random number to draw with. -/
def Jitter.amount (chance : Binary64) : Jitter → Except Fault Scalar
  | .fixed amount => amount.toScalar
  | .drawn low high => do
    let low ← low.toScalar
    low.add (← (← (← high.toScalar).sub low).mul (.float chance))

/-- The delay after the given one. -/
def nextDelay (o : Options) (chance : Binary64) (delay : Value) : Except Fault Scalar := do
  let product ← (← delay.toScalar).mul (← o.backoff.toScalar)
  let grown ← product.add (← o.jitter.amount chance)
  if o.maxDelay.holds then
    let most ← o.maxDelay.toScalar
    return if ← most.below grown then most else grown
  else return grown

/-- Whether a failure is one to try again after. -/
def Options.retries (o : Options) (f : Fault) : Bool := o.retryable.any f.kind.isA

/-- The warning before another try. -/
def warning (f : Fault) (name : String) (attempt : Nat) (delay : Value) : Text :=
  "[" ++ f.kind.name ++ ": " ++ f.message ++ "][" ++ name ++ "] retrying[" ++ toString attempt
    ++ "] in " ++ delay.display ++ " seconds..."

/-- The tries from number `attempt` on, with the given tries left and delay to come. Nothing is
answered if the fuel ends before the tries do. -/
def loop {α : Type} (host : Host) (o : Options) (name : String) (action : Nat → Run α) :
    (fuel attempt : Nat) → (tries delay : Value) → Run (Option α)
  | 0, _, _, _ => return none
  | fuel + 1, attempt, tries, delay => do
    match ← Run.observe (action attempt) with
    | .ok a => return some a
    | .error f =>
      if !o.retries f then throw f
      let left ← (← tries.toScalar).sub (.int 1)
      if !left.holds then throw f
      if !o.warns then throw .noSuchMethod
      Run.logNaming .warning [delay] (warning f name attempt delay)
      let next ← nextDelay o (host.draw attempt) delay
      Run.sleep host (← delay.toScalar)
      loop host o name action fuel (attempt + 1) (.scalar left) (.scalar next)

/-- Runs an action under the options; `name` is how the log mentions it. -/
def run {α : Type} (host : Host) (o : Options) (name : String) (action : Nat → Run α)
    (fuel : Nat) : Run (Option α) :=
  loop host o name action fuel 1 o.tries o.delay

/-! ## Options by name -/

/-- The names of the options. -/
def optionNames : List String :=
  ["tries", "delay", "jitter", "backoff", "max_delay", "exceptions", "logger"]

/-- The family a value names. -/
def kindOf : Value → Except Fault Fault.Kind
  | .str name =>
    match Fault.Kind.ofName? name with
    | some kind => .ok kind
    | none => .error .wrongType
  | _ => .error .wrongType

/-- Options with one of them replaced. No value can take warnings in place of the log. -/
def Options.set (o : Options) (name : String) (v : Value) : Except Fault Options := do
  match name, v with
  | "tries", v => return { o with tries := v }
  | "delay", v => return { o with delay := v }
  | "backoff", v => return { o with backoff := v }
  | "max_delay", v => return { o with maxDelay := v }
  | "jitter", .list [low, high] => return { o with jitter := .drawn low high }
  | "jitter", v => return { o with jitter := .fixed v }
  | "exceptions", .list names => return { o with retryable := ← names.mapM kindOf }
  | "exceptions", v => return { o with retryable := [← kindOf v] }
  | "logger", _ => return { o with warns := false }
  | _, _ => throw .wrongType

/-- The options of named settings; an unknown name is a failure. -/
def Options.ofFields : List (String × Value) → Except Fault Options
  | [] => .ok {}
  | (name, v) :: rest => do (← ofFields rest).set name v

/-! ## Keywords -/

/-- What an action is called with by name. -/
abbrev Keywords := List (Text × Value)

/-- Whether a keyword is an option. -/
def isOption (keyword : Text × Value) : Bool := optionNames.any (Text.ofString · = keyword.1)

/-- Whether a keyword has the name under which the action itself is handed over. -/
def isAction (keyword : Text × Value) : Bool := keyword.1 = "run"

/-- The options among keywords, and the keywords that are left to the action. -/
def takeOptions (keywords : Keywords) : Except Fault (Options × Keywords) := do
  let options ← Options.ofFields
    ((keywords.filter isOption).map fun keyword => (toString keyword.1, keyword.2))
  return (options, keywords.filter fun keyword => !isOption keyword)

/-- How an action comes to be tried again. -/
inductive Entry where
  /-- It is called with options among its keywords. -/
  | called (keywords : Keywords)
  /-- It was given options beforehand, and none may be among its keywords. -/
  | wrapped (given keywords : Keywords)

/-- The options that hold, and the keywords of the action. -/
def Entry.options : Entry → Except Fault (Options × Keywords)
  | called keywords => if keywords.any isAction then .error .wrongType else takeOptions keywords
  | wrapped given keywords =>
    if given.any (!isOption ·) || keywords.any (fun k => isOption k || isAction k) then
      .error .wrongType
    else takeOptions (keywords ++ given)

/-- Runs an action that takes keywords. -/
def Entry.run {α : Type} (e : Entry) (host : Host) (name : String)
    (action : Keywords → Nat → Run α) (fuel : Nat) : Run (Option α) := do
  let (options, keywords) ← e.options
  Retry.run host options name (action keywords) fuel

end CellNft.Retry
