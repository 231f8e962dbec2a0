import Mathlib.Data.List.Induction
import WorkspaceControl.Dictionary

/-!
# Entries brought into key order

Bringing entries into key order loses nothing but entries whose key comes again: entries of different
keys stay what they are (`perm_ordered`), and what stands under a key is what was put there last
(`lookup_ordered`). Entries in key order have one arrangement only (`KeysIncrease.eq_of_perm`), so a
dictionary can be put together again from its entries in whatever order these come
(`ofList_of_perm`).
-/

namespace WorkspaceControl

variable {α : Type}

/-! ### Insertion -/

theorem mem_insertOrdered {key : String} {value : α} {entries : List (String × α)}
    {e : String × α} (h : e ∈ insertOrdered key value entries) : e = (key, value) ∨ e ∈ entries := by
  induction entries with
  | nil => exact .inl (List.mem_singleton.mp h)
  | cons p rest ih =>
      simp only [insertOrdered] at h
      split at h
      · exact List.mem_cons.mp h
      · split at h
        · exact (List.mem_cons.mp h).imp id (List.mem_cons_of_mem p)
        · rcases List.mem_cons.mp h with rfl | h
          · exact .inr List.mem_cons_self
          · exact (ih h).imp id (List.mem_cons_of_mem p)

/-- A new key is put between the entries and moves none of them past another. -/
theorem perm_insertOrdered {key : String} (value : α) {entries : List (String × α)}
    (h : key ∉ entries.map Prod.fst) :
    (insertOrdered key value entries).Perm ((key, value) :: entries) := by
  induction entries with
  | nil => exact .refl _
  | cons p rest ih =>
      have hne : key ≠ p.1 := fun heq => h (heq ▸ List.mem_cons_self)
      have hrest : key ∉ rest.map Prod.fst := fun hmem => h (List.mem_cons_of_mem p.1 hmem)
      simp only [insertOrdered]
      split
      · exact .refl _
      · exact ((ih hrest).cons p).trans (.swap _ _ rest)

/-! ### Order -/

theorem ordered_concat (entries : List (String × α)) (e : String × α) :
    ordered (entries ++ [e]) = insertOrdered e.1 e.2 (ordered entries) := by
  simp [ordered]

theorem keysIncrease_ordered (entries : List (String × α)) : KeysIncrease (ordered entries) := by
  induction entries using List.reverseRecOn with
  | nil => exact .nil
  | append_singleton entries e ih =>
      rw [ordered_concat]
      exact ih.insertOrdered e.1 e.2

/-- No entry comes into being. -/
theorem mem_of_mem_ordered {entries : List (String × α)} {e : String × α}
    (h : e ∈ ordered entries) : e ∈ entries := by
  induction entries using List.reverseRecOn with
  | nil => exact h
  | append_singleton entries d ih =>
      rw [ordered_concat] at h
      rcases mem_insertOrdered h with rfl | h
      · exact List.mem_append_right _ List.mem_cons_self
      · exact List.mem_append_left _ (ih h)

/-- Entries of different keys are all kept. -/
theorem perm_ordered {entries : List (String × α)} (h : (entries.map Prod.fst).Nodup) :
    (ordered entries).Perm entries := by
  induction entries using List.reverseRecOn with
  | nil => exact .refl _
  | append_singleton entries e ih =>
      simp only [List.map_append, List.map_cons, List.map_nil, List.nodup_append] at h
      have hkept := ih h.1
      have hnew : e.1 ∉ (ordered entries).map Prod.fst := by
        intro hmem
        exact h.2.2 e.1 ((hkept.map Prod.fst).mem_iff.mp hmem) e.1 List.mem_cons_self rfl
      rw [ordered_concat]
      exact (perm_insertOrdered e.2 hnew).trans
        ((hkept.cons e).trans (List.perm_append_singleton e entries).symm)

/-- What stands under a key is what was put there last. -/
theorem lookup_ordered (entries : List (String × α)) (key : String) :
    (ordered entries).lookup key = entries.reverse.lookup key := by
  induction entries using List.reverseRecOn with
  | nil => rfl
  | append_singleton entries e ih =>
      rw [ordered_concat, lookup_insertOrdered, List.reverse_append, List.reverse_singleton,
        List.singleton_append, lookup_entry_cons, ih]

theorem KeysIncrease.nodup {entries : List (String × α)} (h : KeysIncrease entries) :
    (entries.map Prod.fst).Nodup := by
  refine List.pairwise_map.mpr (h.imp ?_)
  intro a b hlt heq
  rw [heq] at hlt
  exact String.lt_irrefl _ hlt

/-- Entries in key order have no other arrangement in key order. -/
theorem KeysIncrease.eq_of_perm {a b : List (String × α)} (ha : KeysIncrease a)
    (hb : KeysIncrease b) (h : a.Perm b) : a = b :=
  h.eq_of_pairwise (fun _ _ _ _ hlt hgt => absurd hgt (String.lt_asymm hlt)) ha hb

/-- Entries in key order are left as they are. -/
theorem KeysIncrease.ordered_eq {entries : List (String × α)} (h : KeysIncrease entries) :
    ordered entries = entries :=
  (keysIncrease_ordered entries).eq_of_perm h (perm_ordered h.nodup)

/-- Entries of different keys come to the same order from any other. -/
theorem ordered_eq_of_perm {a b : List (String × α)} (ha : (a.map Prod.fst).Nodup) (h : a.Perm b) :
    ordered a = ordered b := by
  have hb : (b.map Prod.fst).Nodup := (h.map Prod.fst).nodup_iff.mp ha
  have hperm : (ordered a).Perm (ordered b) := (perm_ordered ha).trans (h.trans (perm_ordered hb).symm)
  exact (keysIncrease_ordered a).eq_of_perm (keysIncrease_ordered b) hperm

/-- Where no key comes twice, it does not matter from which end one looks for it. -/
theorem lookup_reverse {entries : List (String × α)} (h : (entries.map Prod.fst).Nodup)
    (key : String) : entries.reverse.lookup key = entries.lookup key := by
  induction entries with
  | nil => rfl
  | cons e rest ih =>
      obtain ⟨k, v⟩ := e
      obtain ⟨hnew, hrest⟩ := List.nodup_cons.mp h
      simp only [List.reverse_cons, List.lookup_append, ih hrest, lookup_entry_cons]
      by_cases hkey : key = k
      · have hnone : rest.lookup key = none := by
          rw [List.lookup_eq_none_iff]
          intro p hp
          have hmem : p.1 ∈ rest.map Prod.fst := List.mem_map_of_mem hp
          have hne : key ≠ p.1 := fun heq => hnew (hkey.symm.trans heq ▸ hmem)
          simpa using hne
        rw [hnone]
        simp [hkey]
      · simp [hkey]

/-- Where no key comes twice, an entry is found under its key. -/
theorem lookup_of_mem {entries : List (String × α)} (h : (entries.map Prod.fst).Nodup)
    {key : String} {value : α} (hmem : (key, value) ∈ entries) :
    entries.lookup key = some value := by
  induction entries with
  | nil => cases hmem
  | cons e rest ih =>
      obtain ⟨k, v⟩ := e
      obtain ⟨hnew, hrest⟩ := List.nodup_cons.mp h
      rw [lookup_entry_cons]
      rcases List.mem_cons.mp hmem with heq | hlater
      · cases heq
        rw [if_pos rfl]
      · have hkey : key ∈ rest.map Prod.fst := List.mem_map_of_mem hlater
        rw [if_neg (ne_of_mem_of_not_mem hkey hnew), ih hrest hlater]

/-! ### Dictionaries -/

namespace Dictionary

theorem entries_injective {a b : Dictionary α} (h : a.entries = b.entries) : a = b := by
  cases a
  cases b
  cases h
  rfl

theorem entries_ofList (entries : List (String × α)) : (ofList entries).entries = ordered entries := by
  induction entries using List.reverseRecOn with
  | nil => rfl
  | append_singleton entries e ih =>
      rw [ofList_append_singleton, ordered_concat, ← ih]
      rfl

/-- A dictionary is put together again from its entries, whatever their order. -/
theorem ofList_of_perm {d : Dictionary α} {entries : List (String × α)}
    (h : d.entries.Perm entries) : ofList entries = d := by
  have hnodup : (entries.map Prod.fst).Nodup := ((h.map Prod.fst).nodup_iff).mp d.keysIncrease.nodup
  refine entries_injective ((entries_ofList entries).trans ?_)
  exact (keysIncrease_ordered entries).eq_of_perm d.keysIncrease ((perm_ordered hnodup).trans h.symm)

end Dictionary

end WorkspaceControl
