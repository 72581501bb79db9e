/-
CellNft.Main — the command line.

`mint | transfer1 | transfer2 | query`, followed by the file of a recording that the nodes reply
from. The accounts are read from the file that the variable `COTA_ACCOUNTS` names, or else from
`accounts.yaml`. What a command prints goes to the standard output, its log lines from level INFO on
go to the error output.
-/
import CellNft.Command
import CellNft.Json.Reader
import CellNft.Logging.Sink
import CellNft.Rpc.Recording

namespace CellNft.Main

/-- The contents of a file, if it can be read. -/
def contents? (path : String) : IO (Option String) := do
  try return some (← IO.FS.readFile path)
  catch _ => return none

def usage : String := "usage: (mint | transfer1 | transfer2 | query) RECORDING"

/-- The log lines that are shown. -/
def shownLines (w : World) : String :=
  let sink : Logging.Sink := ⟨.errorOutput, Logging.Level.info.number⟩
  toString (Text.join (sink.lines w.logged))

def runCommand (c : Command) (recording : Value) : IO UInt32 := do
  let named ← IO.getEnv "COTA_ACCOUNTS"
  let path := match named with
    | some other => if other = "" then "accounts.yaml" else other
    | none => "accounts.yaml"
  let files : Files.Tree := match ← contents? path, (Files.Path.ofText path).systemNames with
    | some text, .ok parts => { files := [(parts, text)] }
    | _, _ => {}
  let e : Command.Environment :=
    { files := Command.install "." files, home := "."
      accountsFile := named.map Text.ofString }
  let (outcome, w) := (c.run e).exec (Recording.network recording) {}
  IO.print w.printed
  IO.eprint (shownLines w)
  match outcome with
  | .ok code => return UInt32.ofNat code
  | .error f =>
    IO.eprintln (f.kind.name ++ ": " ++ toString f.message)
    return 1

/-- Runs the program with the arguments of its command line. -/
def run (args : List String) : IO UInt32 := do
  match args with
  | [name, file] =>
    match Command.ofName? name, (← contents? file).bind fun text => (Json.parse text).toOption with
    | some c, some recording => runCommand c recording
    | _, _ => IO.eprintln usage; return 2
  | _ => IO.eprintln usage; return 2

end CellNft.Main

def main (args : List String) : IO UInt32 := CellNft.Main.run args
