import Mathlib.Data.List.Induction
import WorkspaceControl.Cli.Files
import WorkspaceControl.Proofs.Text.Utf8

/-!
# What is relied on in a file system

A command sees a file system through canonical paths only, and two laws of these are all that is
relied on (`FileSystem.Lawful`): a canonical path is its own, and a path with the parts of a canonical
directory leads to that directory. What stands at a path may be a link, so nothing is said of how a
path is followed.

A finite listing keeps both laws if it is in order (`FileTree.InOrder.lawful`). A path is walked piece
by piece there, so the proof is about walks: a walk ends at something listed (`entry?_of_foldlM_walk`),
and the names of a directory are a walk to it, with detours that stay where they are or without
(`foldlM_walk_of_directory`).
-/

namespace WorkspaceControl.Cli

/-- A file system, seen from any of its directories. -/
structure FileSystem where
  /-- The canonical path of a path seen from a directory, or why there is none. -/
  canonical : (directory path : Path) → Except PathFault Path
  /-- Whether a canonical path is that of a directory. -/
  IsDirectory : Path → Prop

namespace FileSystem

/-- What a command sees that runs in a directory. -/
def surroundings (fs : FileSystem) (directory : Path) : Surroundings :=
  ⟨.ok directory, fs.canonical directory⟩

/-- The laws of canonical paths. -/
structure Lawful (fs : FileSystem) : Prop where
  /-- A canonical path is its own. -/
  canonical_canonical {directory path found : Path}
    (h : fs.canonical directory path = .ok found) : fs.canonical directory found = .ok found
  /-- A path with the parts of a canonical directory leads there. -/
  canonical_of_parts {directory path found : Path}
    (h : fs.canonical directory found = .ok found) (hdirectory : fs.IsDirectory found)
    (hparts : path.parts = found.parts) : fs.canonical directory path = .ok found

end FileSystem

/-! ### Pieces of paths -/

namespace Path

theorem slash_not_mem_of_mem_pieces {path : Path} {piece : Name} (h : piece ∈ path.pieces) :
    slash ∉ piece := Parts.mark_not_mem_of_mem_pieces h

theorem pieces_ne_nil (path : Path) : path.pieces ≠ [] := Parts.pieces_ne_nil slash path.bytes

theorem isAbsolute_absolute (names : List Name) : (absolute names).isAbsolute = true := by
  simp [isAbsolute, absolute]

/-- What is shown of a text as a path is the text. -/
@[simp] theorem display_ofText (text : String) : (ofText text).display = text := Utf8.text_bytes text

end Path

namespace FileTree

/-- What can stand in a listing as the name of something: no slash, and nothing that is a detour. -/
def IsName (name : Name) : Prop := name ≠ [] ∧ name ≠ dot ∧ name ≠ twoDots ∧ slash ∉ name

instance : DecidablePred IsName := fun name =>
  inferInstanceAs (Decidable (name ≠ [] ∧ name ≠ dot ∧ name ≠ twoDots ∧ slash ∉ name))

/-- A listing is in order if its paths are made of names, and each of them lies in a directory that is
listed too. -/
structure InOrder (t : FileTree) : Prop where
  isName : ∀ e ∈ t.entries, ∀ name ∈ e.1, IsName name
  parent : ∀ e ∈ t.entries, t.entry? e.1.dropLast = some .directory

/-- A tree as a file system. -/
def fileSystem (t : FileTree) : FileSystem where
  canonical := t.canonical
  IsDirectory path := ∃ names, path = .absolute names ∧ t.entry? names = some .directory

/-- The pieces of an absolute path that say where it leads are the names in it. -/
theorem pieces_absolute {names : List Name} (h : ∀ name ∈ names, IsName name) :
    (Path.absolute names).pieces = [] :: if names = [] then [[]] else names := by
  have hpieces : (Path.absolute names).pieces =
      [] :: Parts.pieces slash ([slash].intercalate names) := by
    simp [Path.pieces, Path.absolute, Parts.pieces]
  rw [hpieces]
  cases names with
  | nil => rfl
  | cons name names =>
      rw [Parts.pieces_intercalate (List.cons_ne_nil name names) fun other hother =>
        (h other hother).2.2.2, if_neg (List.cons_ne_nil name names)]

/-- Nothing in a path made of names is left out where paths are compared. -/
theorem filter_names {names : List Name} (h : ∀ name ∈ names, IsName name) :
    names.filter (fun name => name ≠ [] ∧ name ≠ dot) = names := by
  rw [List.filter_eq_self]
  intro name hmem
  simpa using ⟨(h name hmem).1, (h name hmem).2.1⟩

theorem parts_absolute {names : List Name} (h : ∀ name ∈ names, IsName name) :
    (Path.absolute names).parts = [slash] :: names := by
  unfold Path.parts
  rw [if_pos (Path.isAbsolute_absolute names), pieces_absolute h]
  split
  · simp [*]
  · simpa using filter_names h

/-- Only an absolute path has the parts of one. -/
theorem of_parts_eq {path : Path} {names : List Name} (h : path.parts = [slash] :: names) :
    path.isAbsolute = true ∧
      path.pieces.filter (fun name => name ≠ [] ∧ name ≠ dot) = names := by
  -- A slash is no piece, so it is there because the path is absolute.
  have hslash : [slash] ∉ path.pieces.filter fun name => name ≠ [] ∧ name ≠ dot := by
    intro hmem
    have hpiece := Path.slash_not_mem_of_mem_pieces (List.mem_filter.mp hmem).1
    exact hpiece (List.mem_singleton_self slash)
  unfold Path.parts at h
  dsimp only at h
  split at h
  · exact ⟨‹_›, (List.cons.inj h).2⟩
  · split at h
    · exact absurd (List.cons.inj h).1 (by decide)
    · rw [h] at hslash
      exact absurd List.mem_cons_self hslash

/-! ### Walks -/

variable {t : FileTree}

theorem mem_entries {path : List Name} {entry : Entry} (h : t.entry? path = some entry)
    (hne : path ≠ []) : (path, entry) ∈ t.entries := by
  rw [FileTree.entry?, if_neg hne, List.lookup_eq_some_iff] at h
  obtain ⟨before, after, hentries, -⟩ := h
  simp [hentries]

/-- What is listed has names. -/
theorem InOrder.isName_of_listed (h : t.InOrder) {path : List Name} {entry : Entry}
    (hentry : t.entry? path = some entry) : ∀ name ∈ path, IsName name := by
  intro name hmem
  exact h.isName _ (mem_entries hentry (List.ne_nil_of_mem hmem)) name hmem

/-- What lies in something listed lies in a directory. -/
theorem InOrder.directory_of_append (h : t.InOrder) {front more : List Name} {entry : Entry}
    (hentry : t.entry? (front ++ more) = some entry) (hmore : more ≠ []) :
    t.entry? front = some .directory := by
  induction more using List.reverseRecOn generalizing entry with
  | nil => exact absurd rfl hmore
  | append_singleton more name ih =>
      rw [← List.append_assoc] at hentry
      have hparent := h.parent _ (mem_entries hentry (by simp))
      rw [List.dropLast_concat] at hparent
      cases more with
      | nil => simpa using hparent
      | cons other more => exact ih hparent (by simp)

/-- Every front of a directory is one. -/
theorem InOrder.directory_of_directory (h : t.InOrder) {front more : List Name}
    (hdirectory : t.entry? (front ++ more) = some .directory) :
    t.entry? front = some .directory := by
  cases more with
  | nil => simpa using hdirectory
  | cons name more => exact h.directory_of_append hdirectory (by simp)

/-- A step of a walk comes to something listed. -/
theorem InOrder.entry?_of_walk (h : t.InOrder) {path next : List Name} {piece : Name}
    (hwalk : t.walk path piece = .ok next) : ∃ entry, t.entry? next = some entry := by
  unfold walk at hwalk
  split at hwalk
  · cases hwalk
  · cases hwalk
  · rename_i hdirectory
    split at hwalk
    · cases hwalk
      exact ⟨_, hdirectory⟩
    · split at hwalk
      · cases hwalk
        cases path using List.reverseRecOn with
        | nil => exact ⟨_, hdirectory⟩
        | append_singleton front name =>
            rw [List.dropLast_concat]
            exact ⟨_, h.directory_of_append hdirectory (by simp)⟩
      · split at hwalk
        · cases hwalk
          exact Option.isSome_iff_exists.mp ‹_›
        · cases hwalk

theorem foldlM_walk_concat (front start : List Name) (last : Name) :
    (front ++ [last]).foldlM t.walk start = front.foldlM t.walk start >>= (t.walk · last) := by
  simp

/-- A walk comes to something listed. -/
theorem InOrder.entry?_of_foldlM_walk (h : t.InOrder) {steps start found : List Name}
    (hsteps : steps ≠ []) (hwalk : steps.foldlM t.walk start = .ok found) :
    ∃ entry, t.entry? found = some entry := by
  obtain ⟨front, last, rfl⟩ := List.eq_nil_or_concat steps |>.resolve_left hsteps
  rw [List.concat_eq_append, foldlM_walk_concat] at hwalk
  cases hfront : front.foldlM t.walk start with
  | error fault =>
      rw [hfront] at hwalk
      cases hwalk
  | ok between =>
      rw [hfront] at hwalk
      exact h.entry?_of_walk hwalk

/-- A canonical path is made of the names of something listed. -/
theorem InOrder.exists_of_canonical (h : t.InOrder) {directory path found : Path}
    (hfound : t.canonical directory path = .ok found) :
    ∃ names entry, found = .absolute names ∧ t.entry? names = some entry := by
  unfold canonical at hfound
  split at hfound
  · cases hfound
  · cases hwalk : path.pieces.foldlM t.walk
        ((if path.isAbsolute then Path.absolute [] else directory).pieces.filter (· ≠ [])) with
    | error fault =>
        simp only [hwalk] at hfound
        cases hfound
    | ok names =>
        simp only [hwalk] at hfound
        cases hfound
        obtain ⟨entry, hentry⟩ := h.entry?_of_foldlM_walk path.pieces_ne_nil hwalk
        exact ⟨names, entry, rfl, hentry⟩

/-- A name goes on to what lies under it. -/
theorem walk_name {path : List Name} {name : Name} {entry : Entry} (hname : IsName name)
    (hdirectory : t.entry? path = some .directory)
    (hentry : t.entry? (path ++ [name]) = some entry) : t.walk path name = .ok (path ++ [name]) := by
  obtain ⟨hempty, hdot, hup, -⟩ := hname
  simp [walk, hdirectory, hempty, hdot, hup, hentry]

/-- **The names of a directory are a walk to it**, and detours that stay where they are change
nothing. -/
theorem InOrder.foldlM_walk_of_directory (h : t.InOrder) (start : List Name)
    {steps names : List Name}
    (hsteps : steps.filter (fun name => name ≠ [] ∧ name ≠ dot) = names)
    (hdirectory : t.entry? (start ++ names) = some .directory) :
    steps.foldlM t.walk start = .ok (start ++ names) := by
  induction steps generalizing start names with
  | nil =>
      subst hsteps
      simp [pure, Except.pure]
  | cons step steps ih =>
      rw [List.foldlM_cons]
      by_cases hstay : step = [] ∨ step = dot
      -- A detour stays, since all that has been walked so far is a directory.
      · have hwalk : t.walk start step = .ok start := by
          simp [walk, h.directory_of_directory hdirectory, hstay]
        rw [hwalk]
        refine ih start ?_ hdirectory
        rw [List.filter_cons_of_neg (by simpa using fun hempty => (hstay.resolve_left hempty))]
          at hsteps
        exact hsteps
      · rw [List.filter_cons_of_pos (by simpa using hstay)] at hsteps
        subst hsteps
        rw [List.append_cons] at hdirectory ⊢
        -- Anything else is a name, since the walk leads to something listed.
        have hstep := h.directory_of_directory hdirectory
        have hname : IsName step := h.isName_of_listed hstep step (by simp)
        have hstart : t.entry? start = some .directory := h.directory_of_directory hstep
        rw [walk_name hname hstart hstep]
        exact ih _ rfl hdirectory

/-- An absolute path is walked from the root. -/
theorem canonical_of_absolute {path : Path} (h : path.isAbsolute = true) (directory : Path) :
    t.canonical directory path = Path.absolute <$> path.pieces.foldlM t.walk [] := by
  have hne : path.bytes ≠ [] := by
    intro hnil
    rw [Path.isAbsolute, hnil] at h
    cases h
  have hroot : (Path.absolute []).pieces.filter (· ≠ []) = [] := by decide
  simp only [canonical, if_neg hne, if_pos h, hroot]

/-- The path of something listed is its own canonical path. -/
theorem InOrder.canonical_absolute (h : t.InOrder) {names : List Name} {entry : Entry}
    (hentry : t.entry? names = some entry) (directory : Path) :
    t.canonical directory (.absolute names) = .ok (.absolute names) := by
  have hnames := h.isName_of_listed hentry
  rw [canonical_of_absolute (Path.isAbsolute_absolute names), pieces_absolute hnames]
  suffices hwalk : ([] :: if names = [] then [[]] else names).foldlM t.walk [] = .ok names by
    rw [hwalk]
    rfl
  cases names using List.reverseRecOn with
  | nil => rfl
  | append_singleton front last =>
      -- All but the last are directories.
      have hfront : t.entry? front = some .directory := h.directory_of_append hentry (by simp)
      have hsteps : ([] :: front).filter (fun name => name ≠ [] ∧ name ≠ dot) = front := by
        rw [List.filter_cons_of_neg (by simp)]
        exact filter_names fun name hmem => hnames name (List.mem_append_left _ hmem)
      have hwalk := h.foldlM_walk_of_directory [] hsteps hfront
      rw [if_neg (by simp), ← List.cons_append, foldlM_walk_concat, hwalk]
      exact walk_name (hnames last (by simp)) hfront hentry

/-- **A listing that is in order is a lawful file system.** -/
theorem InOrder.lawful (h : t.InOrder) : t.fileSystem.Lawful where
  canonical_canonical hfound := by
    obtain ⟨names, entry, rfl, hentry⟩ := h.exists_of_canonical hfound
    exact h.canonical_absolute hentry _
  canonical_of_parts := by
    rintro directory path found - ⟨names, rfl, hentry⟩ hparts
    rw [parts_absolute (h.isName_of_listed hentry)] at hparts
    obtain ⟨habsolute, hnames⟩ := of_parts_eq hparts
    have hwalk := h.foldlM_walk_of_directory [] hnames hentry
    show t.canonical directory path = .ok (.absolute names)
    rw [canonical_of_absolute habsolute, hwalk]
    rfl

end FileTree

end WorkspaceControl.Cli
