/-
CellNft.Logging.Sink — where log lines go.

A sink takes the messages from a level on, each as a line with the name of its level. It is the
error output or a file; lines are added at the end of the file.

The name of a file is given by a pattern. A folder that the pattern names is made first, before the
pattern is read. Then the span that old files are kept for is looked at, and the file is opened. The
level comes last, and the file stays even if there is no such level.
-/
import CellNft.Files.Tree
import CellNft.Logging.Level
import CellNft.Logging.Retention

namespace CellNft.Logging

inductive Destination where
  | errorOutput
  | file (parts : List String)
  /-- A file that is not below the working folder; what it holds does not show. -/
  | outside

structure Sink where
  destination : Destination
  /-- The least number of a level that is taken. -/
  threshold : Int

namespace Sink

/-- The number that a level is given by, or its name. -/
def threshold? : Value → Except Fault Int
  | .str name =>
    match Level.ofName? name with
    | some level => .ok level.number
    | none => .error (.levelUnknown name)
  | .int n => if n < 0 then .error (.levelNegative n) else .ok n
  | .bool b => .ok (if b then 1 else 0)
  | _ => .error .wrongType

/-! ## Folders -/

/-- The path before the last slash. -/
def folderOf (name : Text) : Files.Path :=
  let folder := (name.points.reverse.dropWhile (· ≠ .char '/')).reverse
  ⟨Files.Path.rootOf ⟨folder⟩, Files.Path.split ⟨folder⟩⟩

/-- Makes the folder at the given parts, unless something is there. -/
def makeMissing (files : Files.Tree) (parts : List String) : Files.Tree × Option Fault :=
  if parts.isEmpty || (files.walk parts).isSome then (files, none) else files.makeFolders parts

/-- Makes the folder of a path. It is made part by part, so a part that the system does not know is
only reported if nothing is wrong with those before. -/
def makeFolder (files : Files.Tree) (p : Files.Path) : Files.Tree × Option Fault :=
  if !p.isRelative then (files, none)
  else
    match p.systemNames with
    | .ok parts => makeMissing files parts
    | .error f =>
      let known := p.parts.map fun part => (Files.Path.systemName part).toOption
      match makeMissing files ((known.takeWhile Option.isSome).filterMap id) with
      | (files, none) => (files, some f)
      | failed => failed

/-! ## Files -/

/-- A path from the working folder without dots: how many folders it leads up, and the parts from
there on. -/
def plainParts (parts : List String) : Nat × List String :=
  let (up, down) := parts.foldl (fun (up, down) part =>
    if part = "." then (up, down)
    else if part ≠ ".." then (up, part :: down)
    else
      match down with
      | [] => (up + 1, [])
      | _ :: down => (up, down)) (0, [])
  (up, down.reverse)

/-- Opens a file at its end. -/
def openFile (files : Files.Tree) (parts : List String) : Files.Tree × Option Fault :=
  let folder := parts.dropLast
  let (files, failure) :=
    if files.isFolder folder then (files, none) else files.makeFolders folder
  match failure with
  | some f => (files, some f)
  | none =>
    if files.isFolder parts then (files, some .directory)
    else if (parts.getLast?.map String.utf8ByteSize).any (Files.Path.mostNameBytes < ·) then
      (files, some .nameTooLong)
    else (files.append parts "", none)

/-- Opens what a path leads to. -/
def openPath (files : Files.Tree) (p : Files.Path) : Files.Tree × Except Fault Destination :=
  match p.systemNames with
  | .error f => (files, .error f)
  | .ok parts =>
    match plainParts parts with
    | (_, []) => (files, .error .directory)
    | (up, down) =>
      if up = 0 && p.isRelative then
        match openFile files down with
        | (files, none) => (files, .ok (.file down))
        | (files, some f) => (files, .error f)
      else (files, .ok .outside)

/-- The path that a pattern gives, if old files can be kept for the given number of days. -/
def pathOf (pattern : Text) (days : Value) : Except Fault Files.Path := do
  let parts ← (Pattern.read pattern).mapError .pattern
  let _ ← Retention.ofDays days
  let name ← (Pattern.expand parts).mapError .pattern
  return ⟨Files.Path.rootOf name, Files.Path.split name⟩

/-- Opens the file that a pattern gives. -/
def prepareFile (files : Files.Tree) (pattern : Text) (days : Value) :
    Files.Tree × Except Fault Destination :=
  match makeFolder files (folderOf pattern) with
  | (files, some f) => (files, .error f)
  | (files, none) =>
    match pathOf pattern days with
    | .error f => (files, .error f)
    | .ok p => openPath files p

/-- The sink for the pattern of a file name, or the error output if there is none. -/
def prepare (files : Files.Tree) (filename level : Value) (days : Value := .int 7) :
    Files.Tree × Except Fault Sink :=
  if !filename.holds then (files, (threshold? level).map fun n => ⟨.errorOutput, n⟩)
  else
    match filename with
    | .str pattern =>
      match prepareFile files pattern days with
      | (files, .ok destination) => (files, (threshold? level).map fun n => ⟨destination, n⟩)
      | (files, .error f) => (files, .error f)
    | _ => (files, .error .wrongType)

/-! ## Lines -/

/-- The lines of the messages that a sink takes. -/
def lines (s : Sink) (messages : List (Level × Text)) : List Text :=
  (messages.filter fun m => s.threshold ≤ (m.1.number : Int)).map fun m =>
    m.1.name ++ "|" ++ m.2 ++ "\n"

/-- What writing messages does: the files and the error output afterwards. A line that is no string
cannot be put into a file. -/
def write (s : Sink) (files : Files.Tree) (messages : List (Level × Text)) : Files.Tree × Text :=
  let lines := s.lines messages
  match s.destination with
  | .errorOutput => (files, .join lines)
  | .file parts => (files.append parts (String.join (lines.filterMap Text.string?)), "")
  | .outside => (files, "")

end Sink
end CellNft.Logging
