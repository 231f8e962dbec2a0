import WorkspaceControl.Cli.Files
import WorkspaceControl.Records.Workspace
import WorkspaceControl.Text.Parts

/-!
# Which workspace is meant

A workspace is meant by its id, by the beginning of an id that no other workspace shares, or by the
directory where the command runs. An id in full counts even if other ids begin with it. The directory
is asked for only if there is no text, and it may be gone.
-/

namespace WorkspaceControl.Cli

inductive ResolutionFault where
  | noId (start : String)
  | ambiguous (start : String) (ids : List String)
  | noRoot (directory : String)
  /-- The directory where the command runs cannot be told. -/
  | noDirectory (fault : PathFault)
  deriving DecidableEq, Repr

def ResolutionFault.message : ResolutionFault → String
  | noId start => "No workspace found with ID starting with '" ++ start ++ "'"
  | ambiguous start ids =>
    "Ambiguous prefix '" ++ start ++ "' matches multiple workspaces: " ++ ", ".intercalate ids
  | noRoot directory =>
    "No workspace rooted at " ++ directory ++
      "; create one with `exo workspace create .` or pass --workspace"
  | noDirectory _ => "Failed to read current directory"

/-- What a fault says, from the outside inwards. -/
def ResolutionFault.reasons : ResolutionFault → List String
  | noDirectory fault => [(noDirectory fault).message, fault.message]
  | fault => [fault.message]

/-- The id that a text means among the workspaces listed. -/
def matchId (listed : List WorkspaceDescription) (start : String) :
    Except ResolutionFault String :=
  match listed.find? (·.id = start) with
  | some w => .ok w.id
  | none =>
    match listed.filter (Parts.begins start ·.id) with
    | [] => .error (.noId start)
    | [w] => .ok w.id
    | several => .error (.ambiguous start (several.map WorkspaceDescription.id))

/-- The id of the first workspace listed whose root is a directory. -/
def matchRoot (surroundings : Surroundings) (directory : Path)
    (listed : List WorkspaceDescription) : Except ResolutionFault String :=
  match listed.find? fun w => surroundings.same (.ofText w.root) directory with
  | some w => .ok w.id
  | none => .error (.noRoot (surroundings.normal directory).display)

/-- The id of the workspace that is meant: the given one, or the one at the directory. -/
def resolve (surroundings : Surroundings) (given : Option String)
    (listed : List WorkspaceDescription) : Except ResolutionFault String :=
  match given with
  | some start => matchId listed start
  | none =>
    match surroundings.directory with
    | .ok directory => matchRoot surroundings directory listed
    | .error fault => .error (.noDirectory fault)

end WorkspaceControl.Cli
