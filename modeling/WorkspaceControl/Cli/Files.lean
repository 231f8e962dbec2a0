import WorkspaceControl.Text.Parts
import WorkspaceControl.Text.Utf8

/-!
# Paths of directories

A path is a row of bytes. Most paths are texts, but not every one is: what is shown of such a path, and
sent to the service, is a text in which the bytes that are no text have been replaced, and that text is
the name of another place.

A file system is seen through one function: the canonical path of a path, which is absolute and
without detours, or why there is none. `FileTree` gives that function for a finite listing.

Two paths are the same place if their parts are: repeated slashes, slashes at the end and single
dots after the first part make no difference.
-/

namespace WorkspaceControl.Cli

/-- Why a path leads nowhere. -/
inductive PathFault where
  | noEntry
  | notDirectory
  /-- Any other reason that the system gives. -/
  | other (message : String)
  deriving DecidableEq, Repr

def PathFault.message : PathFault → String
  | noEntry => "No such file or directory (os error 2)"
  | notDirectory => "Not a directory (os error 20)"
  | other message => message

/-- The name of something in a directory. -/
abbrev Name := List UInt8

/-- The byte between the names of a path. -/
def slash : UInt8 := 0x2F

/-- The name that stays where it is. -/
def dot : Name := [0x2E]

/-- The name that goes up. -/
def twoDots : Name := [0x2E, 0x2E]

structure Path where
  bytes : List UInt8
  deriving DecidableEq, Repr

namespace Path

/-- The path that a text is. -/
def ofText (text : String) : Path := ⟨Utf8.bytes text⟩

/-- What is shown of a path: a text, with a replacement for whatever is none. -/
def display (path : Path) : String := Utf8.text path.bytes

/-- Whether a path leads from the root. -/
def isAbsolute (path : Path) : Bool := path.bytes.head? = some slash

/-- The pieces of a path between slashes. -/
def pieces (path : Path) : List Name := Parts.pieces slash path.bytes

/-- The parts of a path that tell it from others: whether it is absolute, and its names. -/
def parts (path : Path) : List Name :=
  let names := path.pieces.filter fun name => name ≠ [] ∧ name ≠ dot
  if path.isAbsolute then [slash] :: names
  else if path.pieces.head? = some dot then dot :: names
  else names

/-- The absolute path of some names from the root. -/
def absolute (names : List Name) : Path := ⟨slash :: [slash].intercalate names⟩

end Path

/-- Where a command runs: its current directory, or why it has none, and the canonical path of any path
seen from there. -/
structure Surroundings where
  directory : Except PathFault Path
  canonical : Path → Except PathFault Path

/-- The path as it is compared: canonical if it leads somewhere, and as given if not. -/
def Surroundings.normal (s : Surroundings) (path : Path) : Path :=
  match s.canonical path with
  | .ok canonical => canonical
  | .error _ => path

/-- Whether two paths are the same place. -/
def Surroundings.same (s : Surroundings) (a b : Path) : Bool :=
  (s.normal a).parts = (s.normal b).parts

/-- What stands at a path. -/
inductive Entry where
  | directory
  | file
  deriving DecidableEq, Repr

/-- A finite listing of what stands below the root, each path as its names from the root. -/
structure FileTree where
  entries : List (List Name × Entry)

namespace FileTree

/-- What stands at a path from the root, which is itself a directory. -/
def entry? (t : FileTree) (path : List Name) : Option Entry :=
  if path = [] then some .directory else t.entries.lookup path

/-- Goes one piece further. Only a directory can be gone through; an empty piece and a dot stay,
two dots go up, and the root has nothing above it. -/
def walk (t : FileTree) (path : List Name) (piece : Name) : Except PathFault (List Name) :=
  match t.entry? path with
  | none => .error .noEntry
  | some .file => .error .notDirectory
  | some .directory =>
    if piece = [] ∨ piece = dot then .ok path
    else if piece = twoDots then .ok path.dropLast
    else if (t.entry? (path ++ [piece])).isSome then .ok (path ++ [piece])
    else .error .noEntry

/-- The canonical path of a path seen from a directory. -/
def canonical (t : FileTree) (directory path : Path) : Except PathFault Path :=
  if path.bytes = [] then .error .noEntry
  else
    -- The directory is canonical already, so its names need no walk.
    let start := if path.isAbsolute then .absolute [] else directory
    let names := start.pieces.filter (· ≠ [])
    Path.absolute <$> path.pieces.foldlM t.walk names

/-- What a command sees that runs in a directory, however that directory was reached. -/
def surroundings (t : FileTree) (directory : Path) : Surroundings :=
  let here := t.canonical (.absolute []) directory
  ⟨here, t.canonical (here.toOption.getD directory)⟩

/-- The tree in which only a directory and those above it are there. -/
def ofDirectory (directory : Path) : FileTree :=
  let names := directory.pieces.filter (· ≠ [])
  ⟨(List.range names.length).map fun i => (names.take (i + 1), .directory)⟩

end FileTree

end WorkspaceControl.Cli
