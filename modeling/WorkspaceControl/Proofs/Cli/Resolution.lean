import WorkspaceControl.Proofs.Cli.Tasks

/-!
# What it is to be meant

Which workspace a text or a directory means is said here without saying how it is found (`Meant`), and
finding it is shown to come to just that (`resolve_eq_ok_iff`). So a command that ends because no
workspace was found ends because none is meant.
-/

namespace WorkspaceControl.Cli

open Rpc

/-- An id is meant by a text if it is the id of a workspace listed and either the text itself, or the
only one listed that begins with the text while none is the text. Without a text, the first workspace
listed is meant whose root is the directory where the command runs; if that cannot be told, none is. -/
def Meant (surroundings : Surroundings) (given : Option String)
    (listed : List WorkspaceDescription) (id : String) : Prop :=
  match given with
  | some start => (id = start ∧ ∃ w ∈ listed, w.id = start) ∨
      ((∀ w ∈ listed, w.id ≠ start) ∧ ∃ w, listed.filter (Parts.begins start ·.id) = [w] ∧ w.id = id)
  | none => ∃ here, surroundings.directory = .ok here ∧
      ∃ w, listed.find? (fun w => surroundings.same (.ofText w.root) here) = some w ∧ w.id = id

theorem matchId_eq_ok_iff {listed : List WorkspaceDescription} {start id : String} :
    matchId listed start = .ok id ↔ (id = start ∧ ∃ w ∈ listed, w.id = start) ∨
      ((∀ w ∈ listed, w.id ≠ start) ∧
        ∃ w, listed.filter (Parts.begins start ·.id) = [w] ∧ w.id = id) := by
  unfold matchId
  cases hfound : listed.find? (·.id = start) with
  | some w =>
      have hid : w.id = start := by simpa using List.find?_some hfound
      have hmem : w ∈ listed := List.mem_of_find?_eq_some hfound
      constructor
      · intro h
        cases h
        exact .inl ⟨hid, w, hmem, hid⟩
      · rintro (⟨rfl, -⟩ | ⟨hnone, -⟩)
        · exact congrArg Except.ok hid
        · exact absurd hid (hnone w hmem)
  | none =>
      have hnone : ∀ w ∈ listed, w.id ≠ start := by simpa using hfound
      cases hfilter : listed.filter (Parts.begins start ·.id) with
      | nil =>
          refine ⟨nofun, ?_⟩
          rintro (⟨-, w, hmem, hid⟩ | ⟨-, w, heq, -⟩)
          · exact absurd hid (hnone w hmem)
          · cases heq
      | cons w more =>
          cases more with
          | nil =>
              constructor
              · intro h
                cases h
                exact .inr ⟨hnone, w, rfl, rfl⟩
              · rintro (⟨-, w, hmem, hid⟩ | ⟨-, v, heq, rfl⟩)
                · exact absurd hid (hnone w hmem)
                · cases heq
                  rfl
          | cons v more =>
              refine ⟨nofun, ?_⟩
              rintro (⟨-, w, hmem, hid⟩ | ⟨-, w, heq, -⟩)
              · exact absurd hid (hnone w hmem)
              · cases heq

/-- An id is found if it is meant. -/
theorem resolve_eq_ok_iff {surroundings : Surroundings} {given : Option String}
    {listed : List WorkspaceDescription} {id : String} :
    resolve surroundings given listed = .ok id ↔ Meant surroundings given listed id := by
  cases given with
  | some start => exact matchId_eq_ok_iff
  | none =>
      simp only [resolve, Meant]
      cases surroundings.directory with
      | error fault => simp
      | ok here =>
          unfold matchRoot
          cases hfound : listed.find? (fun w => surroundings.same (.ofText w.root) here) with
          | none => simp [hfound]
          | some w => simp [hfound]

/-- What is meant is listed, and begins with the text or lies at the directory. -/
theorem Meant.listed {surroundings : Surroundings} {given : Option String}
    {listed : List WorkspaceDescription} {id : String} (h : Meant surroundings given listed id) :
    ∃ w ∈ listed, w.id = id ∧ (∀ start, given = some start → Parts.begins start id = true) ∧
      (given = none → ∃ here, surroundings.directory = .ok here ∧
        surroundings.same (.ofText w.root) here = true) := by
  cases given with
  | some start =>
      rcases h with ⟨rfl, w, hmem, hid⟩ | ⟨-, w, hfilter, hid⟩
      · refine ⟨w, hmem, hid, fun start hstart => ?_, nofun⟩
        cases hstart
        simp [Parts.begins]
      · have hmem : w ∈ listed.filter (Parts.begins start ·.id) := hfilter ▸ List.mem_singleton_self w
        obtain ⟨hmem, hbegins⟩ := List.mem_filter.mp hmem
        refine ⟨w, hmem, hid, fun start' hstart => ?_, nofun⟩
        cases hstart
        exact hid ▸ hbegins
  | none =>
      obtain ⟨here, hhere, w, hfound, hid⟩ := h
      have hsame := List.find?_some
        (p := fun v : WorkspaceDescription => surroundings.same (.ofText v.root) here) hfound
      exact ⟨w, List.mem_of_find?_eq_some hfound, hid, nofun, fun _ => ⟨here, hhere, hsame⟩⟩

/-- What it comes to for a command to find out which workspace is meant: the workspaces are not listed,
or none of those listed is meant, or one is. -/
inductive Found (surroundings : Surroundings) (given : Option String)
    (listing : Except Failure (List WorkspaceDescription)) : Except CommandFault String → Prop
  | unlisted {failure : Failure} (h : listing = .error failure) :
      Found surroundings given listing (.error (.listing failure))
  | unmeant {workspaces : List WorkspaceDescription} {fault : ResolutionFault}
      (hlisted : listing = .ok workspaces) (h : ∀ id, ¬Meant surroundings given workspaces id) :
      Found surroundings given listing (.error (.resolution fault))
  | meant {workspaces : List WorkspaceDescription} {id : String} (hlisted : listing = .ok workspaces)
      (hmeant : Meant surroundings given workspaces id) :
      Found surroundings given listing (.ok id)

theorem Context.found_resolve (c : Context) (desk : Desk) :
    Found c.surroundings c.settings.workspace (c.client.lists desk.network)
      (c.resolve.run.run desk).1 := by
  rw [run_resolve]
  cases hlisted : c.client.lists desk.network with
  | error failure => exact .unlisted rfl
  | ok workspaces =>
      show Found _ _ _ ((Cli.resolve c.surroundings c.settings.workspace workspaces).mapError _)
      cases hid : Cli.resolve c.surroundings c.settings.workspace workspaces with
      | ok id => exact .meant rfl (Cli.resolve_eq_ok_iff.mp hid)
      | error fault =>
          refine .unmeant rfl fun id hmeant => ?_
          cases hid.symm.trans (Cli.resolve_eq_ok_iff.mpr hmeant)

/-- A command finds a workspace if and only if the workspaces are listed and it is meant. -/
theorem Context.resolve_eq_ok_iff {c : Context} {desk : Desk} {id : String} :
    (c.resolve.run.run desk).1 = .ok id ↔ ∃ workspaces,
      c.client.lists desk.network = .ok workspaces ∧
        Meant c.surroundings c.settings.workspace workspaces id := by
  constructor
  · intro h
    have hfound := c.found_resolve desk
    rw [h] at hfound
    cases hfound with
    | meant hlisted hmeant => exact ⟨_, hlisted, hmeant⟩
  · rintro ⟨workspaces, hlisted, hmeant⟩
    rw [run_resolve, hlisted]
    exact congrArg (Except.mapError CommandFault.resolution) (Cli.resolve_eq_ok_iff.mpr hmeant)

/-- A workspace that is meant among those listed is found. -/
theorem Context.finds_of_meant {c : Context} {desk : Desk} {id : String}
    {workspaces : List WorkspaceDescription} (hlists : c.client.lists desk.network = .ok workspaces)
    (hmeant : Meant c.surroundings c.settings.workspace workspaces id) : c.Finds desk id :=
  finds_of_ok (resolve_eq_ok_iff.mpr ⟨workspaces, hlists, hmeant⟩)

end WorkspaceControl.Cli
