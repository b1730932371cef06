import Spirv.CommandLine.Session

/-!
# File trees in memory

A session can run on a tree of files that is a value, which shows all that it leaves behind.

* `FileTree`: directories, files and devices, with a working directory and the standard streams.
* `FileTree.pieces`: the names in a path.
* `FileTree.find`, `FileTree.locate`: where a path leads that is to be read or written.
* `FileTree.host`, `FileTree.runWith`, `FileTree.run`: a session on a tree.
* `FileTree.ofFiles`: a tree whose working directory holds the given files.
-/

namespace Spirv.CommandLine

/-- A place in a tree: the names on the way from it up to the root, so that the root is `[]` and
the directory of a place is its tail. -/
abbrev Place := List String

/-- What stands at a place. -/
inductive Node where
  | directory
  | file (bytes : ByteArray)
  /-- The device that is always empty. -/
  | null
  /-- The device that stands for standard input. -/
  | standardInput
  /-- The device that stands for standard output. -/
  | standardOutput

/-- A tree of files. -/
structure FileTree where
  /-- What stands at each place but the root. -/
  nodes : List (Place × Node)
  /-- The directory in which paths start that do not start at the root. -/
  working : Place
  /-- The bytes of standard input. -/
  input : List UInt8 := []
  /-- What was written to the device of standard output. -/
  output : ByteArray := .empty

namespace FileTree

/-! ## Places -/

/-- What stands at a place. The root is a directory. -/
def node? (t : FileTree) : Place → Option Node
  | [] => some .directory
  | place => t.nodes.lookup place

/-- The bytes of a file in the working directory. -/
def file? (t : FileTree) (name : String) : Option ByteArray :=
  match t.node? (name :: t.working) with
  | some (.file bytes) => some bytes
  | _ => none

/-- The tree after bytes were written to a place in one piece. Only the contents of files are
kept. -/
def put (t : FileTree) (place : Place) (bytes : ByteArray) : FileTree :=
  match t.node? place with
  | some .null | some .standardInput => t
  | some .standardOutput => { t with output := t.output ++ bytes }
  | _ => { t with nodes := (place, .file bytes) :: t.nodes.filter (·.1 != place) }

/-! ## Paths -/

/-- The greatest number of bytes that a name can have. -/
def maxNameSize : Nat := 255

/-- The greatest number of bytes that a path can have. -/
def maxPathSize : Nat := 4095

/-- The pieces of a text between its slashes. There is one more of them than there are slashes. -/
def splitSlash : List Char → List (List Char)
  | [] => [[]]
  | c :: rest =>
    if c = '/' then [] :: splitSlash rest
    else
      match splitSlash rest with
      | [] => [[c]]
      | piece :: pieces => (c :: piece) :: pieces

/-- The names in a path, in order. A slash at the start, at the end or behind another slash gives
an empty name. -/
def pieces (path : String) : List String := (splitSlash path.toList).map String.ofList

/-- The place that a name leads to from another. The empty name and `.` lead to the place itself
and `..` to the one above, where the root is above itself. Nothing is behind a file. -/
def enter (t : FileTree) (place : Place) (name : String) : Except TransferFault Place :=
  match t.node? place with
  | none => .error .noSuchFile
  | some .directory =>
    if name = "" || name = "." then .ok place
    else if name = ".." then .ok place.tail
    else if maxNameSize < name.utf8ByteSize then .error .nameTooLong
    else if (t.node? (name :: place)).isSome then .ok (name :: place)
    else .error .noSuchFile
  | some _ => .error .notDirectory

/-- The place that names lead to, one after the other. They start at the root if the first of them
is empty, and in the working directory otherwise. -/
def walk (t : FileTree) (names : List String) : Except TransferFault Place :=
  names.foldlM t.enter (if names.head? = some "" then [] else t.working)

/-- The names in a path that is neither empty nor too long. -/
def checkedPieces (path : String) : Except TransferFault (List String) :=
  if path.isEmpty then .error .noSuchFile
  else if maxPathSize < path.utf8ByteSize then .error .nameTooLong
  else .ok (pieces path)

/-- The bytes that are read at the end of a path. -/
def find (t : FileTree) (path : String) : Except TransferFault (List UInt8) := do
  match t.node? (← t.walk (← checkedPieces path)) with
  | none => .error .noSuchFile
  | some .directory => .error .isDirectory
  | some (.file bytes) => .ok bytes.data.toList
  | some .standardInput => .ok t.input
  | some .null | some .standardOutput => .ok []

/-- The place of the file that is written at the end of a path. It need not exist yet, but its
directory does. A path with a slash at its end is never the path of a file. -/
def locate (t : FileTree) (path : String) : Except TransferFault Place := do
  let backwards := (← checkedPieces path).reverse
  match backwards.dropWhile String.isEmpty with
  | [] => .error .isDirectory
  | name :: above =>
    let directory ← t.walk above.reverse
    match t.enter directory name, backwards.head?.any String.isEmpty with
    | .error .notDirectory, _ => .error .notDirectory
    | _, true => .error .isDirectory
    | .error .noSuchFile, false => .ok (name :: directory)
    | .error fault, false => .error fault
    | .ok place, false =>
      match t.node? place with
      | some .directory => .error .isDirectory
      | _ => .ok place

/-! ## Sessions -/

/-- A session on a tree changes its files. -/
def host : Host (StateM FileTree) where
  readInput := do return .ok (← get).input
  readFile path := do return (← get).find path
  createFile path := do
    let t ← get
    match t.locate path with
    | .error fault => return .error fault
    | .ok place =>
      set (t.put place .empty)
      return .ok ()
  fillFile path bytes := do
    let t ← get
    match t.locate path with
    | .error fault => return .error fault
    | .ok place =>
      set (t.put place bytes)
      return .ok ()

/-- Runs the program on a tree with any frontend. What it writes to the device of standard output is
part of the text of its outcome. -/
def runWith (frontend : Frontend) (t : FileTree) (arguments : List String) : Outcome × FileTree :=
  let (outcome, after) := (CommandLine.run frontend host arguments).run t
  ({ outcome with text := outcome.text ++ after.output }, after)

/-- Runs the program on a tree. -/
def run (t : FileTree) (arguments : List String) : Outcome × FileTree :=
  t.runWith .standard arguments

/-- The directories that a system has at its root. -/
def rootDirectories : List String := ["dev", "etc", "home", "tmp", "usr", "var"]

/-- The devices that a system has. -/
def devices : List (String × Node) :=
  [("null", .null), ("stdin", .standardInput), ("stdout", .standardOutput), ("stderr", .null)]

/-- A tree whose working directory holds the given files and nothing else. -/
def ofFiles (input : List UInt8) (files : List (String × ByteArray)) : FileTree :=
  let working := ["session", "tmp"]
  { nodes :=
      (working, .directory)
        :: rootDirectories.map (fun name => ([name], .directory))
        ++ devices.map (fun device => ([device.1, "dev"], device.2))
        ++ files.map (fun file => (file.1 :: working, .file file.2))
    working
    input }

end FileTree

end Spirv.CommandLine
