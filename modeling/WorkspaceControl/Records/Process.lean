import WorkspaceControl.Wire.Codec

/-!
# Records about processes

A process is a component of a workspace. It is created from a `ProcessSpec`, which travels as text
inside the request, and is afterwards known by a name and an id.
-/

namespace WorkspaceControl

open Wire

/-- A process that a workspace knows. -/
structure ProcessDescription where
  id : String
  name : String
  running : Bool
  deriving DecidableEq, Repr

instance : Record ProcessDescription where
  shape := .record "struct ProcessDescription"
    (.cons "id" .required .string <| .cons "name" .required .string <|
      .cons "running" .required .boolean .nil)
  pack p := (p.id, p.name, p.running, ())
  unpack := fun (id, name, running, _) => ⟨id, name, running⟩
  unpack_pack _ := rfl

/-- How a process is started. -/
structure ProcessSpec where
  directory : Option String
  program : String
  arguments : List String
  environment : Option (Dictionary String)
  deriving DecidableEq

instance : Record ProcessSpec where
  shape := .record "struct ProcessSpec"
    (.cons "directory" (.optional true true) .string <| .cons "program" .required .string <|
      .cons "arguments" .defaulted .string <|
      .cons "environment" (.optional true true) .dictionary .nil)
  pack p := (p.directory, p.program, p.arguments, p.environment, ())
  unpack := fun (directory, program, arguments, environment, _) =>
    ⟨directory, program, arguments, environment⟩
  unpack_pack _ := rfl

/-- The kind of component that processes are. -/
def processComponent : String := "process"

/-- Asks for a component; `spec` is the text of what is asked for. -/
structure ComponentRequest where
  name : String
  type : String
  spec : String
  deriving DecidableEq, Repr

instance : Record ComponentRequest where
  shape := .record "struct CreateComponent"
    (.cons "name" .required .string <| .cons "type" .required .string <|
      .cons "spec" .required .string .nil)
  pack r := (r.name, r.type, r.spec, ())
  unpack := fun (name, type, spec, _) => ⟨name, type, spec⟩
  unpack_pack _ := rfl

structure ComponentCreated where
  id : String
  deriving DecidableEq, Repr

instance : Record ComponentCreated where
  shape := .record "struct CreateComponentResponse" (.cons "id" .required .string .nil)
  pack r := (r.id, ())
  unpack := fun (id, _) => ⟨id⟩
  unpack_pack _ := rfl

structure ComponentRef where
  reference : String
  deriving DecidableEq, Repr

instance : Record ComponentRef where
  shape := .record "struct ComponentRef" (.cons "ref" .required .string .nil)
  pack r := (r.reference, ())
  unpack := fun (reference, _) => ⟨reference⟩
  unpack_pack _ := rfl

structure ProcessList where
  processes : List ProcessDescription
  deriving DecidableEq, Repr

instance : Record ProcessList where
  shape := .record "struct DescribeProcessesResponse"
    (.cons "processes" .required (Record.shape (List ProcessDescription)) .nil)
  pack r := (Record.pack r.processes, ())
  unpack := fun (processes, _) => ⟨Record.unpack processes⟩
  unpack_pack r := by simp [Record.unpack_pack]

end WorkspaceControl
