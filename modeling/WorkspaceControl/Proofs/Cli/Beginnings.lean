import WorkspaceControl.Proofs.Cli.Resolution

/-!
# Ids by their beginnings

A text means a workspace by the beginning of its id. Which ids begin with the text is all that
counts (`candidates`), and there are four cases, of which `matchId_cases` says what each comes to: an
id in full goes before everything else, and without one it is decided by how many candidates there
are. The order of a listing decides nothing, so it shows only in the order in which a fault names
several ids (`Agree`).
-/

namespace WorkspaceControl.Cli

/-- The workspaces listed whose ids begin with a text, in the order of the listing. -/
def candidates (start : String) (listed : List WorkspaceDescription) : List WorkspaceDescription :=
  listed.filter fun w => start.toList <+: w.id.toList

theorem mem_candidates {start : String} {listed : List WorkspaceDescription}
    {w : WorkspaceDescription} :
    w ∈ candidates start listed ↔ w ∈ listed ∧ start.toList <+: w.id.toList := by
  simp [candidates]

theorem filter_begins_eq_candidates (start : String) (listed : List WorkspaceDescription) :
    listed.filter (Parts.begins start ·.id) = candidates start listed := by
  refine List.filter_congr fun w _ => ?_
  rw [Bool.eq_iff_iff, Parts.begins, List.isPrefixOf_iff_prefix, decide_eq_true_iff]

/-- An id in full is an id that begins with itself. -/
theorem mem_candidates_of_id_eq {start : String} {listed : List WorkspaceDescription}
    {w : WorkspaceDescription} (hmem : w ∈ listed) (hid : w.id = start) :
    w ∈ candidates start listed :=
  mem_candidates.mpr ⟨hmem, hid ▸ List.prefix_rfl⟩

/-- **What a text comes to.** Only the second and the fourth case are faults. -/
theorem matchId_cases (listed : List WorkspaceDescription) (start : String) :
    ((∃ w ∈ listed, w.id = start) ∧ matchId listed start = .ok start) ∨
      (candidates start listed = [] ∧ matchId listed start = .error (.noId start)) ∨
      ((∀ w ∈ listed, w.id ≠ start) ∧
        ∃ w, candidates start listed = [w] ∧ matchId listed start = .ok w.id) ∨
      ((∀ w ∈ listed, w.id ≠ start) ∧ 2 ≤ (candidates start listed).length ∧
        matchId listed start =
          .error (.ambiguous start ((candidates start listed).map WorkspaceDescription.id))) := by
  rw [matchId, filter_begins_eq_candidates]
  cases hfound : listed.find? (·.id = start) with
  | some w =>
      have hid : w.id = start := by simpa using List.find?_some hfound
      exact .inl ⟨⟨w, List.mem_of_find?_eq_some hfound, hid⟩, congrArg Except.ok hid⟩
  | none =>
      have hnone : ∀ w ∈ listed, w.id ≠ start := by simpa using hfound
      cases hcandidates : candidates start listed with
      | nil => exact .inr (.inl ⟨rfl, rfl⟩)
      | cons w more =>
          cases more with
          | nil => exact .inr (.inr (.inl ⟨hnone, w, rfl, rfl⟩))
          | cons v more => exact .inr (.inr (.inr ⟨hnone, by simp, rfl⟩))

/-! ### When nothing is meant -/

/-- No id begins with a text if the text comes to that fault. -/
theorem matchId_eq_noId_iff {listed : List WorkspaceDescription} {start : String} :
    matchId listed start = .error (.noId start) ↔
      ∀ w ∈ listed, ¬start.toList <+: w.id.toList := by
  have hnone : candidates start listed = [] ↔ ∀ w ∈ listed, ¬start.toList <+: w.id.toList := by
    simp [candidates]
  rw [← hnone]
  rcases matchId_cases listed start with ⟨⟨w, hmem, hid⟩, h⟩ | ⟨hnil, h⟩ | ⟨-, w, hone, h⟩ | ⟨-, hle, h⟩
  · have hcandidate := mem_candidates_of_id_eq hmem hid
    rw [h]
    exact ⟨nofun, fun hnil => absurd hcandidate (by simp [hnil])⟩
  · simp [h, hnil]
  · simp [h, hone]
  · rw [h]
    refine ⟨nofun, fun hnil => ?_⟩
    simp [hnil] at hle

/-- Several ids begin with a text, none of which is the text, if the text comes to that fault, and
the fault names them all. -/
theorem matchId_eq_ambiguous_iff {listed : List WorkspaceDescription} {start : String}
    {ids : List String} :
    matchId listed start = .error (.ambiguous start ids) ↔
      (∀ w ∈ listed, w.id ≠ start) ∧ 2 ≤ (candidates start listed).length ∧
        ids = (candidates start listed).map WorkspaceDescription.id := by
  rcases matchId_cases listed start with
    ⟨⟨w, hmem, hid⟩, h⟩ | ⟨hnil, h⟩ | ⟨-, w, hone, h⟩ | ⟨hnone, hle, h⟩
  · rw [h]
    exact ⟨nofun, fun hseveral => absurd hid (hseveral.1 w hmem)⟩
  · simp [h, hnil]
  · simp [h, hone]
  · rw [h]
    constructor
    · intro heq
      cases heq
      exact ⟨hnone, hle, rfl⟩
    · rintro ⟨-, -, rfl⟩
      rfl

/-- There is no other fault. -/
theorem matchId_eq_error_iff {listed : List WorkspaceDescription} {start : String}
    {fault : ResolutionFault} :
    matchId listed start = .error fault ↔
      ((∀ w ∈ listed, ¬start.toList <+: w.id.toList) ∧ fault = .noId start) ∨
        ((∀ w ∈ listed, w.id ≠ start) ∧ 2 ≤ (candidates start listed).length ∧
          fault = .ambiguous start ((candidates start listed).map WorkspaceDescription.id)) := by
  constructor
  · intro h
    rcases matchId_cases listed start with ⟨-, hcase⟩ | ⟨-, hcase⟩ | ⟨-, w, -, hcase⟩ | ⟨-, -, hcase⟩ <;>
      rw [h] at hcase <;> cases hcase
    · exact .inl ⟨matchId_eq_noId_iff.mp h, rfl⟩
    · obtain ⟨hnone, hle, -⟩ := matchId_eq_ambiguous_iff.mp h
      exact .inr ⟨hnone, hle, rfl⟩
  · rintro (⟨hnone, rfl⟩ | ⟨hnone, hle, rfl⟩)
    · exact matchId_eq_noId_iff.mpr hnone
    · exact matchId_eq_ambiguous_iff.mpr ⟨hnone, hle, rfl⟩

/-- What is said of a fault depends on whether any id begins with the text. -/
theorem message_of_matchId {listed : List WorkspaceDescription} {start : String}
    {fault : ResolutionFault} (h : matchId listed start = .error fault) :
    fault.message =
      if (candidates start listed).isEmpty then
        "No workspace found with ID starting with '" ++ start ++ "'"
      else "Ambiguous prefix '" ++ start ++ "' matches multiple workspaces: " ++
        ", ".intercalate ((candidates start listed).map WorkspaceDescription.id) := by
  rcases matchId_eq_error_iff.mp h with ⟨hnone, rfl⟩ | ⟨-, hle, rfl⟩
  · have hnil : candidates start listed = [] := by simpa [candidates] using hnone
    rw [if_pos (List.isEmpty_iff.mpr hnil)]
    rfl
  · have hsome : candidates start listed ≠ [] := List.ne_nil_of_length_pos (by omega)
    rw [if_neg fun hempty => hsome (List.isEmpty_iff.mp hempty)]
    rfl

/-! ### The order of a listing -/

/-- Two outcomes agree if they are the same, up to the order in which a fault names several ids. -/
def Agree : Except ResolutionFault String → Except ResolutionFault String → Prop
  | .error (.ambiguous start ids), .error (.ambiguous other more) => start = other ∧ ids.Perm more
  | made, other => made = other

theorem Agree.refl (made : Except ResolutionFault String) : Agree made made := by
  match made with
  | .ok _ => rfl
  | .error (.noId _) => rfl
  | .error (.noRoot _) => rfl
  | .error (.noDirectory _) => rfl
  | .error (.ambiguous _ _) => exact ⟨rfl, .refl _⟩

/-- A listing in another order has the same candidates, so a text comes to the same case. -/
theorem matchId_agree_of_perm {listed other : List WorkspaceDescription} (h : listed.Perm other)
    (start : String) : Agree (matchId listed start) (matchId other start) := by
  have hcandidates : (candidates start listed).Perm (candidates start other) := h.filter _
  have hnone : (∀ w ∈ listed, w.id ≠ start) → ∀ w ∈ other, w.id ≠ start :=
    fun hnone w hmem => hnone w (h.mem_iff.mpr hmem)
  rcases matchId_cases listed start with
    ⟨⟨w, hmem, hid⟩, hcase⟩ | ⟨hnil, hcase⟩ | ⟨hnone', w, hone, hcase⟩ | ⟨hnone', hle, hcase⟩
  · have hother : matchId other start = .ok start :=
      matchId_eq_ok_iff.mpr (.inl ⟨rfl, w, h.mem_iff.mp hmem, hid⟩)
    rw [hcase, hother]
    exact .refl _
  · rw [hnil] at hcandidates
    have hother : matchId other start = .error (.noId start) :=
      matchId_eq_noId_iff.mpr fun w hmem hstart => by
        have hcandidate := mem_candidates.mpr ⟨hmem, hstart⟩
        simp [hcandidates.nil_eq.symm] at hcandidate
    rw [hcase, hother]
    exact .refl _
  · rw [hone] at hcandidates
    have hother : matchId other start = .ok w.id := by
      refine matchId_eq_ok_iff.mpr (.inr ⟨hnone hnone', w, ?_, rfl⟩)
      rw [filter_begins_eq_candidates, List.singleton_perm.mp hcandidates]
    rw [hcase, hother]
    exact .refl _
  · have hother := matchId_eq_ambiguous_iff.mpr
      ⟨hnone hnone', hcandidates.length_eq ▸ hle, rfl⟩
    rw [hcase, hother]
    exact ⟨rfl, hcandidates.map _⟩

/-! ### Longer beginnings -/

/-- Whoever begins with more begins with less. -/
theorem candidates_of_longer {start longer : String} (h : start.toList <+: longer.toList)
    (listed : List WorkspaceDescription) :
    candidates longer listed =
      (candidates start listed).filter fun w => longer.toList <+: w.id.toList := by
  unfold candidates
  rw [List.filter_filter]
  refine List.filter_congr fun w _ => ?_
  by_cases hw : longer.toList <+: w.id.toList
  · simp [hw, h.trans hw]
  · simp [hw]

/-- The only workspace with an id of some beginning is found by every longer beginning of the id. -/
theorem matchId_of_longer {listed : List WorkspaceDescription} {start longer : String}
    {w : WorkspaceDescription} (hone : candidates start listed = [w])
    (hlonger : start.toList <+: longer.toList) (hid : longer.toList <+: w.id.toList) :
    matchId listed longer = .ok w.id := by
  have hsame : candidates longer listed = [w] := by
    rw [candidates_of_longer hlonger, hone]
    simp [hid]
  rcases matchId_cases listed longer with
    ⟨⟨v, hmem, hv⟩, hcase⟩ | ⟨hnil, -⟩ | ⟨-, v, hone', hcase⟩ | ⟨-, hle, -⟩
  · have hcandidate := mem_candidates_of_id_eq hmem hv
    rw [hsame, List.mem_singleton] at hcandidate
    rw [hcase, ← hv, hcandidate]
  · simp [hnil] at hsame
  · rw [hsame, List.singleton_inj] at hone'
    rw [hcase, hone']
  · simp [hsame] at hle

/-! ### All of it -/

/-- **A text means one workspace, or none, whatever the order of the listing.** It means the id that
it is, if that is listed, and else the only id listed that begins with it. It comes to a fault in
every other case: no id begins with it, or several do and none is the text, and then the fault names
these, and no others, in the order of the listing. A listing in another order gives the same id or
the same fault, which names the same ids. If one workspace alone has an id that begins with the text,
every longer beginning of that id means it too. -/
theorem matchId_decided_by_candidates (listed : List WorkspaceDescription) (start : String) :
    (∀ id, matchId listed start = .ok id ↔
      (id = start ∧ ∃ w ∈ listed, w.id = start) ∨
        ((∀ w ∈ listed, w.id ≠ start) ∧ ∃ w, candidates start listed = [w] ∧ w.id = id)) ∧
    (∀ fault, matchId listed start = .error fault ↔
      ((∀ w ∈ listed, ¬start.toList <+: w.id.toList) ∧ fault = .noId start) ∨
        ((∀ w ∈ listed, w.id ≠ start) ∧ 2 ≤ (candidates start listed).length ∧
          fault = .ambiguous start ((candidates start listed).map WorkspaceDescription.id))) ∧
    (∀ fault, matchId listed start = .error fault → fault.message =
      if (candidates start listed).isEmpty then
        "No workspace found with ID starting with '" ++ start ++ "'"
      else "Ambiguous prefix '" ++ start ++ "' matches multiple workspaces: " ++
        ", ".intercalate ((candidates start listed).map WorkspaceDescription.id)) ∧
    (∀ other, listed.Perm other → Agree (matchId listed start) (matchId other start)) ∧
    ∀ w longer, candidates start listed = [w] → start.toList <+: longer.toList →
      longer.toList <+: w.id.toList → matchId listed longer = .ok w.id := by
  refine ⟨fun id => ?_, fun fault => matchId_eq_error_iff, fun fault => message_of_matchId,
    fun other h => matchId_agree_of_perm h start,
    fun w longer hone hlonger hid => matchId_of_longer hone hlonger hid⟩
  rw [← filter_begins_eq_candidates]
  exact matchId_eq_ok_iff

end WorkspaceControl.Cli
