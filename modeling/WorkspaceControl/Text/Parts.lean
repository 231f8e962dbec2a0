/-!
# Parts of texts

Texts are taken apart at a mark: once at the first, with `divide`, or at every one, with `pieces`.
Joining the parts with the mark again gives the text back. Bytes have pieces just as characters do.
-/

namespace WorkspaceControl.Parts

variable {α : Type} [DecidableEq α]

/-- Whether a text begins with another. -/
def begins (start text : String) : Bool := start.toList.isPrefixOf text.toList

/-- What stands before the first mark and what stands behind it, if there is one. -/
def divide (mark : Char) : List Char → List Char × Option (List Char)
  | [] => ([], none)
  | c :: rest =>
    if c = mark then ([], some rest)
    else
      let (before, behind) := divide mark rest
      (c :: before, behind)

/-- What stands between all marks; at least one piece, which may be empty. -/
def pieces (mark : α) : List α → List (List α)
  | [] => [[]]
  | c :: rest =>
    if c = mark then [] :: pieces mark rest
    else
      match pieces mark rest with
      | piece :: more => (c :: piece) :: more
      | [] => [[c]]

theorem pieces_ne_nil (mark : α) (text : List α) : pieces mark text ≠ [] := by
  cases text with
  | nil => simp [pieces]
  | cons c rest =>
    unfold pieces
    split
    · simp
    · split <;> simp

/-- No piece holds the mark that the pieces stand between. -/
theorem mark_not_mem_of_mem_pieces {mark : α} {text piece : List α}
    (h : piece ∈ pieces mark text) : mark ∉ piece := by
  induction text generalizing piece with
  | nil => simp_all [pieces]
  | cons c rest ih =>
    unfold pieces at h
    split at h
    · rcases List.mem_cons.mp h with rfl | h
      · simp
      · exact ih h
    · rename_i hc
      cases hpieces : pieces mark rest with
      | nil => exact absurd hpieces (pieces_ne_nil mark rest)
      | cons first more =>
        rw [hpieces] at h ih
        rcases List.mem_cons.mp h with rfl | h
        · simpa [Ne.symm hc] using ih List.mem_cons_self
        · exact ih (List.mem_cons_of_mem first h)

/-- The first part holds no mark, so a mark behind it is where it ends. -/
theorem divide_append (mark : Char) (before behind : List Char) (h : mark ∉ before) :
    divide mark (before ++ mark :: behind) = (before, some behind) := by
  induction before with
  | nil => simp [divide]
  | cons c rest ih =>
    have hc : c ≠ mark := fun e => h (e ▸ List.mem_cons_self)
    have hr : mark ∉ rest := fun m => h (List.mem_cons_of_mem c m)
    simp [divide, hc, ih hr]

/-- A text without the mark is not divided. -/
theorem divide_of_not_mem (mark : Char) (text : List Char) (h : mark ∉ text) :
    divide mark text = (text, none) := by
  induction text with
  | nil => rfl
  | cons c rest ih =>
    have hc : c ≠ mark := fun e => h (e ▸ List.mem_cons_self)
    have hr : mark ∉ rest := fun m => h (List.mem_cons_of_mem c m)
    simp [divide, hc, ih hr]

/-- A text without the mark is one piece. -/
theorem pieces_of_not_mem (mark : α) (text : List α) (h : mark ∉ text) :
    pieces mark text = [text] := by
  induction text with
  | nil => rfl
  | cons c rest ih =>
    have hc : c ≠ mark := fun e => h (e ▸ List.mem_cons_self)
    have hr : mark ∉ rest := fun m => h (List.mem_cons_of_mem c m)
    simp [pieces, hc, ih hr]

/-- What stands before the first mark is the first piece. -/
theorem pieces_append (mark : α) (before behind : List α) (h : mark ∉ before) :
    pieces mark (before ++ mark :: behind) = before :: pieces mark behind := by
  induction before with
  | nil => simp [pieces]
  | cons c rest ih =>
    have hc : c ≠ mark := fun e => h (e ▸ List.mem_cons_self)
    have hr : mark ∉ rest := fun m => h (List.mem_cons_of_mem c m)
    simp [pieces, hc, ih hr]

/-- Splitting at a mark undoes joining with it, if the mark stands in no piece. -/
theorem pieces_intercalate {mark : α} {texts : List (List α)} (hne : texts ≠ [])
    (h : ∀ text ∈ texts, mark ∉ text) : pieces mark ([mark].intercalate texts) = texts := by
  induction texts with
  | nil => exact absurd rfl hne
  | cons text texts ih =>
      have htext : mark ∉ text := h text List.mem_cons_self
      cases texts with
      | nil =>
          rw [List.intercalate_singleton]
          exact pieces_of_not_mem mark text htext
      | cons next texts =>
          rw [List.intercalate_cons_cons, List.append_assoc, List.singleton_append,
            pieces_append mark text _ htext,
            ih (by simp) fun other hother => h other (List.mem_cons_of_mem _ hother)]

end WorkspaceControl.Parts
