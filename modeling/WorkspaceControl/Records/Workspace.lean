import WorkspaceControl.Wire.Codec

/-!
# Records about workspaces and the service

A workspace is a directory that the service manages, known by an id and its absolute path.
-/

namespace WorkspaceControl

open Wire

/-- A workspace that the service knows. -/
structure WorkspaceDescription where
  id : String
  root : String
  deriving DecidableEq, Repr

instance : Record WorkspaceDescription where
  shape := .record "struct WorkspaceDescription"
    (.cons "id" .required .string <| .cons "root" .required .string .nil)
  pack w := (w.id, w.root, ())
  unpack := fun (id, root, _) => ⟨id, root⟩
  unpack_pack _ := rfl

/-- The version of the service, and the latest one where it is known. -/
structure VersionInfo where
  installed : String
  latest : Option String
  current : Bool
  deriving DecidableEq, Repr

instance : Record VersionInfo where
  shape := .record "struct VersionInfo"
    (.cons "installed" .required .string <| .cons "latest" (.optional true false) .string <|
      .cons "current" .required .boolean .nil)
  pack v := (v.installed, v.latest, v.current, ())
  unpack := fun (installed, latest, current, _) => ⟨installed, latest, current⟩
  unpack_pack _ := rfl

/-- Asks for a workspace at a directory. -/
structure WorkspaceRequest where
  root : String
  deriving DecidableEq, Repr

instance : Record WorkspaceRequest where
  shape := .record "struct CreateWorkspace" (.cons "root" .required .string .nil)
  pack r := (r.root, ())
  unpack := fun (root, _) => ⟨root⟩
  unpack_pack _ := rfl

structure WorkspaceCreated where
  id : String
  deriving DecidableEq, Repr

instance : Record WorkspaceCreated where
  shape := .record "struct CreateWorkspaceResponse" (.cons "id" .required .string .nil)
  pack r := (r.id, ())
  unpack := fun (id, _) => ⟨id⟩
  unpack_pack _ := rfl

structure WorkspaceList where
  workspaces : List WorkspaceDescription
  deriving DecidableEq, Repr

instance : Record WorkspaceList where
  shape := .record "struct DescribeWorkspacesResponse"
    (.cons "workspaces" .required (Record.shape (List WorkspaceDescription)) .nil)
  pack r := (Record.pack r.workspaces, ())
  unpack := fun (workspaces, _) => ⟨Record.unpack workspaces⟩
  unpack_pack r := by simp [Record.unpack_pack]

structure WorkspaceDetails where
  description : WorkspaceDescription
  deriving DecidableEq, Repr

instance : Record WorkspaceDetails where
  shape := .record "struct DescribeWorkspaceResponse"
    (.cons "description" .required (Record.shape WorkspaceDescription) .nil)
  pack r := (Record.pack r.description, ())
  unpack := fun (description, _) => ⟨Record.unpack description⟩
  unpack_pack _ := rfl

/-- Asks for a manifest to be applied: the one at the workspace's root unless a path or the contents
are given. -/
structure ManifestRequest where
  format : Option String
  manifestPath : Option String
  manifest : Option String
  deriving DecidableEq, Repr

instance : Record ManifestRequest where
  shape := .record "struct Apply"
    (.cons "format" (.optional false true) .string <|
      .cons "manifestPath" (.optional false true) .string <|
      .cons "manifest" (.optional false true) .string .nil)
  pack r := (r.format, r.manifestPath, r.manifest, ())
  unpack := fun (format, manifestPath, manifest, _) => ⟨format, manifestPath, manifest⟩
  unpack_pack _ := rfl

end WorkspaceControl
