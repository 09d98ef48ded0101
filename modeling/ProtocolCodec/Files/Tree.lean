import ProtocolCodec.Files.Path

/-!
# File trees

Directories and files under a root, with a working directory from which relative paths start. Every
step of a path but the last has to be a directory.
-/

namespace ProtocolCodec

/-- Why a file operation fails. -/
inductive FileError where
  | notFound
  | taken
  | notDirectory
  | isDirectory
  /-- A path, or a name in it, beyond its limit. -/
  | nameTooLong
  /-- A path with a zero byte. -/
  | zeroByte
  /-- A file whose bytes are no text. -/
  | notText
  /-- Any other failure, in the words of the system. -/
  | other (description : String)
deriving DecidableEq, Repr

namespace FileError

/-- The wording of an error. -/
def message : FileError → String
  | notFound => "No such file or directory (os error 2)"
  | taken => "File exists (os error 17)"
  | notDirectory => "Not a directory (os error 20)"
  | isDirectory => "Is a directory (os error 21)"
  | nameTooLong => "File name too long (os error 36)"
  | zeroByte => "file name contained an unexpected NUL byte"
  | notText => "stream did not contain valid UTF-8"
  | other description => description

end FileError

/-- A file, or a directory with what its names stand for. -/
inductive Node where
  | file (content : ByteArray)
  | directory (entries : List (String × Node))

/-- The names that lead to a place from the root. -/
abbrev Location := List String

namespace Node

/-- The entries of a directory; a file has none. -/
def entries : Node → List (String × Node)
  | file _ => []
  | directory entries => entries

/-- What a name stands for in a directory. -/
def child? (node : Node) (name : String) : Option Node :=
  node.entries.lookup name

/-- What stands at a place below. -/
def find? (node : Node) (location : Location) : Option Node :=
  location.foldlM child? node

/-- Let a name stand for something else. -/
def setChild (node : Node) (name : String) (child : Node) : Node :=
  .directory ((name, child) :: node.entries.filter fun entry => entry.1 != name)

/-- Put something at a place below, instead of what is there. The names on the way stand for
directories. -/
def put (new : Node) : Location → Node → Node
  | [], _ => new
  | name :: rest, node =>
      node.setChild name (new.put rest ((node.child? name).getD (.directory [])))

end Node

/-- A file tree: the root, which is a directory, and where relative paths start. -/
structure FileTree where
  root : Node := .directory []
  workingDirectory : Location := []

/-- Where a walk has come to. What stands there is kept, so that a step down need not start from the
root. -/
structure Place where
  /-- The names back to the root, the last one first. -/
  back : List String
  node? : Option Node

namespace Place

/-- The names from the root. -/
def location (place : Place) : Location :=
  place.back.reverse

end Place

namespace FileTree

/-- What stands at a place. -/
def node? (tree : FileTree) (location : Location) : Option Node :=
  tree.root.find? location

/-- The place with a location. -/
def place (tree : FileTree) (location : Location) : Place :=
  ⟨location.reverse, tree.node? location⟩

/-- Put something at a place, instead of what is there. -/
def put (tree : FileTree) (location : Location) (node : Node) : FileTree :=
  { tree with root := node.put location tree.root }

/-- The longest name of a file, in bytes. -/
def nameLimit : Nat := 255

/-- Take one step from a place, which has to be a directory. -/
def step (tree : FileTree) (place : Place) (piece : String) : Except FileError Place :=
  match place.node? with
  | none => .error .notFound
  | some (.file _) => .error .notDirectory
  | some (.directory entries) =>
      if Files.isIdle piece then .ok place
      else if piece = ".." then .ok (tree.place place.back.tail.reverse)
      else if nameLimit < piece.utf8ByteSize then .error .nameTooLong
      else .ok ⟨piece :: place.back, entries.lookup piece⟩

/-- Take steps from where a path starts. -/
def walk (tree : FileTree) (path : String) (pieces : List String) : Except FileError Place :=
  pieces.foldlM tree.step (tree.place (if Files.isAbsolute path then [] else tree.workingDirectory))

/-- The longest path, in bytes. -/
def pathLimit : Nat := 4095

/-- Refuse what is no path at all; this comes before any step is taken. -/
def checkPath (path : String) : Except FileError Unit :=
  if path.toList.contains '\x00' then .error .zeroByte
  else if path = "" then .error .notFound
  else if pathLimit < path.utf8ByteSize then .error .nameTooLong
  else .ok ()

/-- The place a path leads to; there need be nothing. -/
def locate (tree : FileTree) (path : String) : Except FileError Place := do
  checkPath path
  tree.walk path (Files.pieces path)

/-- The bytes of a file. -/
def readBytes (tree : FileTree) (path : String) : Except FileError ByteArray := do
  match (← tree.locate path).node? with
  | none => .error .notFound
  | some (.directory _) => .error .isDirectory
  | some (.file content) => .ok content

/-- The text of a file. -/
def readText (tree : FileTree) (path : String) : Except FileError String := do
  match String.fromUTF8? (← tree.readBytes path) with
  | some text => .ok text
  | none => .error .notText

/-- Whether a path leads to a directory. -/
def isDirectory (tree : FileTree) (path : String) : Bool :=
  match tree.locate path with
  | .ok place =>
      match place.node? with
      | some (.directory _) => true
      | _ => false
  | .error _ => false

/-- The pieces of a path up to its last one, that one, and whether slashes follow it. -/
def splitLast (path : String) : List String × String × Bool :=
  let all := Files.pieces path
  let named := (all.reverse.dropWhile (· == "")).reverse
  (named.dropLast, named.getLast?.getD "", named.length < all.length)

/-- Write a file that may exist; its directory has to. -/
def writeBytes (tree : FileTree) (path : String) (content : ByteArray) :
    Except FileError FileTree := do
  checkPath path
  let (front, name, slashed) := splitLast path
  let directory ← tree.walk path front
  -- the directory is looked at before the name
  let _ ← tree.step directory "."
  if slashed || Files.isIdle name || name = ".." then .error .isDirectory
  else
    let place ← tree.step directory name
    match place.node? with
    | some (.directory _) => .error .isDirectory
    | _ => .ok (tree.put place.location (.file content))

/-- Write a text. -/
def writeText (tree : FileTree) (path text : String) : Except FileError FileTree :=
  tree.writeBytes path text.toUTF8

/-- Make one directory. -/
def makeDirectory (tree : FileTree) (path : String) : Except FileError FileTree := do
  checkPath path
  let (front, name, _) := splitLast path
  let directory ← tree.walk path front
  let place ← tree.step directory name
  if Files.isIdle name || name = ".." then .error .taken
  else
    match place.node? with
    | some _ => .error .taken
    | none => .ok (tree.put place.location (.directory []))

/-- Make a directory unless it is there. -/
def ensureDirectory (tree : FileTree) (path : String) : Except FileError FileTree :=
  match tree.makeDirectory path with
  | .error .taken => if tree.isDirectory path then .ok tree else .error .taken
  | outcome => outcome

/-- Make the first directory whose parent exists, going up; the ones that are still missing below it
are collected, outermost first. -/
def makeTopmost (tree : FileTree) : List String → (missing : List String) →
    Except FileError (FileTree × List String)
  | [], missing => .ok (tree, missing)
  | path :: parents, missing =>
      if path = "" || (Files.parent? path).isNone then .ok (tree, missing)
      else
        match tree.ensureDirectory path with
        | .ok tree => .ok (tree, missing)
        | .error .notFound => makeTopmost tree parents (path :: missing)
        | .error error => .error error

/-- Make directories in order. Where one fails, those before it stay. -/
def makeEach : FileTree → List String → Option FileError × FileTree
  | tree, [] => (none, tree)
  | tree, path :: paths =>
      match tree.ensureDirectory path with
      | .ok tree => tree.makeEach paths
      | .error error => (some error, tree)

/-- Make a directory and whatever is missing above it; what is made before a failure stays. -/
def makeDirectories (tree : FileTree) (path : String) : Option FileError × FileTree :=
  match tree.makeTopmost (Files.ancestors path) [] with
  | .ok (tree, missing) => tree.makeEach missing
  | .error error => (some error, tree)

end FileTree

end ProtocolCodec
