import ThreeAddress.Files.Path

/-!
# File trees

A file tree says what stands at each position: nothing, a directory, or a file with its bytes. A
position is the list of names that leads to it from the root. A path is looked up step by step
from the root or from the working directory, and every step but the last has to arrive at a
directory.

Opening a file to write it creates it if nothing stands there. A slash at the end of the path asks
for a directory, which cannot be opened to be written.

There are directories and regular files only. Symbolic links are left out, and so are permissions
and other reasons of a machine to refuse: a position is reached by one list of names, and what
holds for all file trees is said about trees of this kind.
-/

namespace ThreeAddress

/-- Why a file operation fails. -/
inductive FileError where
  | notFound
  | notADirectory
  | isADirectory
  /-- the content is not text -/
  | invalidData
  /-- the machine refuses for another reason; a file tree never does -/
  | refused (reason : String)
deriving Repr, DecidableEq

/-- The text of a failure. -/
def FileError.message : FileError → String
  | notFound => "No such file or directory (os error 2)"
  | notADirectory => "Not a directory (os error 20)"
  | isADirectory => "Is a directory (os error 21)"
  | invalidData => "stream did not contain valid UTF-8"
  | refused reason => reason

/-- What a path leads to. -/
inductive FileKind where
  | directory
  | file
deriving Repr, DecidableEq

/-- What stands at a position. -/
inductive FileNode where
  | directory
  | file (bytes : ByteArray)

/-- The kind of what stands at a position. -/
def FileNode.kind : FileNode → FileKind
  | directory => .directory
  | file _ => .file

/-- The names on the way from the root. -/
abbrev Position := List String

/-- Directories and files, and the working directory. -/
structure FileTree where
  nodes : List (Position × FileNode) := []
  workingDirectory : Position := []

namespace FileTree

/-- What stands at a position. The root is always a directory. -/
def node? (t : FileTree) (position : Position) : Option FileNode :=
  if position = [] then some .directory
  else (t.nodes.find? (·.1 = position)).map Prod.snd

/-- Puts a node at a position. -/
def put (t : FileTree) (position : Position) (node : FileNode) : FileTree :=
  { t with nodes := (position, node) :: t.nodes.filter (·.1 ≠ position) }

/-- Follows steps from a position. Only a directory can be stepped out of; the last step may
arrive where nothing stands. -/
def follow (t : FileTree) (position : Position) : List String → Except FileError Position
  | [] => .ok position
  | step :: steps =>
    match t.node? position with
    | none => .error .notFound
    | some (.file _) => .error .notADirectory
    | some .directory =>
      if step = "." then t.follow position steps
      else if step = ".." then t.follow position.dropLast steps
      else t.follow (position ++ [step]) steps

/-- The position a path leads to, whether or not it ends in a slash. -/
def locate (t : FileTree) (path : String) : Except FileError Position :=
  if path = "" then .error .notFound
  else t.follow (if Path.isAbsolute path then [] else t.workingDirectory) (Path.steps path)

/-- What stands where a path leads; a path that ends in a slash has to lead to a directory. -/
def lookup (t : FileTree) (path : String) : Except FileError FileNode := do
  match t.node? (← t.locate path) with
  | none => .error .notFound
  | some .directory => .ok .directory
  | some (.file bytes) =>
    if Path.asksForDirectory path then .error .notADirectory else .ok (.file bytes)

/-- The kind of what stands where a path leads. -/
def stat (t : FileTree) (path : String) : Except FileError FileKind :=
  return (← t.lookup path).kind

/-- The text of the file where a path leads. -/
def read (t : FileTree) (path : String) : Except FileError String := do
  match ← t.lookup path with
  | .directory => .error .isADirectory
  | .file bytes =>
    match String.fromUTF8? bytes with
    | some text => .ok text
    | none => .error .invalidData

/-- The tree with a text written to the file where a path leads, which is created if need be. -/
def write (t : FileTree) (path text : String) : Except FileError FileTree := do
  let position ← t.locate path
  match t.node? position with
  | some .directory => .error .isADirectory
  | _ =>
    if Path.asksForDirectory path then .error .isADirectory
    else .ok (t.put position (.file text.toUTF8))

end FileTree

end ThreeAddress
