/-
CellNft.Files.Tree — the files below a working folder.

* `Tree.find` follows a path part by part: each part but the last must lead to a folder. A name or a
  path that is too long for the system is a failure, but only where the name is looked up. Nothing
  has a name that the system does not know.
* `Tree.makeFolders` makes a folder with all folders around it.
* `Tree.append` adds text at the end of a file.

Folders are there as soon as something is in them. Of the folders outside only their existence is
known.
-/
import CellNft.Fault
import CellNft.Files.Path

namespace CellNft.Files

/-- Files by their parts, and folders that may be empty. -/
structure Tree where
  files : List (List String × String) := []
  folders : List (List String) := []

/-- Where a path leads: to a place below the working folder, or out of it. -/
inductive Place where
  | inside (parts : List String)
  | outside
deriving DecidableEq

/-- What is found at a place. -/
inductive Entry where
  | file (text : String)
  | folder

namespace Tree

def text? (t : Tree) (parts : List String) : Option String := t.files.lookup parts

def isFile (t : Tree) (parts : List String) : Bool := (t.text? parts).isSome

/-- Whether a folder is at a place. -/
def isFolder (t : Tree) (parts : List String) : Bool :=
  parts.isEmpty || t.folders.any (parts.isPrefixOf ·)
    || t.files.any fun f => parts.isPrefixOf f.1 && f.1 ≠ parts

/-- Follows one part from a place. -/
def follow (t : Tree) (place : Place) (part : String) : Option Place :=
  match place with
  | .outside => if part = ".." || part = "." then some .outside else none
  | .inside parts =>
    if !t.isFolder parts then none
    else if part = "." then some place
    else if part = ".." then some (if parts.isEmpty then .outside else .inside parts.dropLast)
    else
      let next := parts ++ [part]
      if t.isFolder next || t.isFile next then some (.inside next) else none

/-- The place that parts lead to from the working folder. -/
def walk (t : Tree) (parts : List String) : Option Place := parts.foldlM t.follow (.inside [])

def entryAt (t : Tree) : Place → Entry
  | .outside => .folder
  | .inside parts =>
    match t.text? parts with
    | some text => .file text
    | none => .folder

/-- Whether a place can hold files. -/
def holdsFiles (t : Tree) : Place → Bool
  | .outside => true
  | .inside parts => t.isFolder parts

/-- The place that parts lead to from a place, which may not be there. -/
def lookup (t : Tree) (place : Place) : List String → Except Fault (Option Place)
  | [] => .ok (some place)
  | part :: rest =>
    if t.holdsFiles place && Path.mostNameBytes < part.utf8ByteSize then .error .nameTooLong
    else
      match t.follow place part with
      | some next => t.lookup next rest
      | none => .ok none

/-- What a path leads to. -/
def find (t : Tree) (p : Path) : Except Fault (Option Entry) := do
  let .ok names := p.systemNames | return none
  let size := p.root.utf8ByteSize + ("/".intercalate names).utf8ByteSize
  if Path.mostBytes < size then throw .nameTooLong
  let place ← t.lookup (if p.isRelative then .inside [] else .outside) names
  return place.map t.entryAt

/-- The tree with a file of the given text. -/
def write (t : Tree) (parts : List String) (text : String) : Tree :=
  if t.isFile parts then
    { t with files := t.files.map fun f => if f.1 = parts then (parts, text) else f }
  else { t with files := t.files ++ [(parts, text)] }

/-- Makes a folder inside a folder that is there. A folder that is made outside does not show. -/
def makeFolder (t : Tree) (parts : List String) : Except Fault Tree :=
  match t.walk parts.dropLast, parts.getLast? with
  | some (.inside around), some name =>
    if !t.isFolder around then .error .notDirectory
    else if (t.walk parts).isSome then .error .fileInTheWay
    else if Path.mostNameBytes < name.utf8ByteSize then .error .nameTooLong
    else .ok { t with folders := (around ++ [name]) :: t.folders }
  | some .outside, some _ => .ok t
  | _, _ => .error .notDirectory

/-- Makes a folder and the folders around it, given the parts from the last to the first. The tree
of the answer is what is left even of a failure. It is not a failure if a folder around it is there
already. -/
def makeFoldersUp (t : Tree) : List String → Tree × Option Fault
  | [] => (t, none)
  | name :: around =>
    let (t, failure) :=
      if around.isEmpty || (t.walk around.reverse).isSome then (t, none)
      else
        match makeFoldersUp t around with
        | (t, some .fileInTheWay) => (t, none)
        | r => r
    match failure with
    | some f => (t, some f)
    | none =>
      if name = "." && !around.isEmpty then (t, none)
      else
        match t.makeFolder (name :: around).reverse with
        | .ok t => (t, none)
        | .error f => (t, some f)

/-- Makes the folder at the given parts and the folders around it. -/
def makeFolders (t : Tree) (parts : List String) : Tree × Option Fault :=
  t.makeFoldersUp parts.reverse

/-- Adds text at the end of a file, which is made if it is not there. -/
def append (t : Tree) (parts : List String) (text : String) : Tree :=
  t.write parts ((t.text? parts).getD "" ++ text)

end Tree
end CellNft.Files
