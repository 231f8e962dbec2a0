/-!
# Dictionaries in key order

A dictionary is a list of entries with strictly increasing keys, in the order of code points. So
it has one representation, whatever the order in which its entries were put in, and two
dictionaries are equal exactly if they hold the same values under the same keys.
-/

namespace WorkspaceControl

/-- Puts a value under a key into a list in key order. An entry of the same key is replaced. -/
def insertOrdered {α : Type} (key : String) (value : α) : List (String × α) → List (String × α)
  | [] => [(key, value)]
  | (k, v) :: rest =>
    if key < k then (key, value) :: (k, v) :: rest
    else if key = k then (key, value) :: rest
    else (k, v) :: insertOrdered key value rest

/-- Brings entries into key order; of several entries with one key the last counts. -/
def ordered {α : Type} (entries : List (String × α)) : List (String × α) :=
  entries.foldl (fun sorted (k, v) => insertOrdered k v sorted) []

/-- Entries whose keys strictly increase. -/
def KeysIncrease {α : Type} (entries : List (String × α)) : Prop :=
  entries.Pairwise (fun a b => a.1 < b.1)

/-- Insertion adds no key but the given one. -/
theorem fst_mem_insertOrdered {α : Type} {key : String} {value : α}
    {entries : List (String × α)} {e : String × α} (h : e ∈ insertOrdered key value entries) :
    e.1 = key ∨ e ∈ entries := by
  induction entries with
  | nil => simp_all [insertOrdered]
  | cons p rest ih =>
    obtain ⟨k, v⟩ := p
    simp only [insertOrdered] at h
    split at h
    · simp at h ⊢; rcases h with rfl | h <;> simp_all
    · split at h
      · simp at h ⊢; rcases h with rfl | h <;> simp_all
      · simp at h ⊢; rcases h with rfl | h
        · exact Or.inr (Or.inl rfl)
        · rcases ih h with h | h <;> simp_all

theorem KeysIncrease.insertOrdered {α : Type} (key : String) (value : α)
    {entries : List (String × α)} (h : KeysIncrease entries) :
    KeysIncrease (insertOrdered key value entries) := by
  induction entries with
  | nil => simp [WorkspaceControl.insertOrdered, KeysIncrease]
  | cons p rest ih =>
    obtain ⟨k, v⟩ := p
    have hk := List.pairwise_cons.1 h
    simp only [WorkspaceControl.insertOrdered]
    split
    · rename_i hlt
      refine List.pairwise_cons.2 ⟨fun e he => ?_, h⟩
      rcases List.mem_cons.1 he with rfl | he
      · exact hlt
      · exact String.lt_trans hlt (hk.1 e he)
    · split
      · rename_i heq
        exact List.pairwise_cons.2 ⟨fun e he => heq ▸ hk.1 e he, hk.2⟩
      · rename_i hlt hne
        refine List.pairwise_cons.2 ⟨fun e he => ?_, ih hk.2⟩
        rcases fst_mem_insertOrdered he with h' | h'
        · show k < e.1
          rw [h']
          have := String.not_lt.1 hlt
          grind
        · exact hk.1 e h'

theorem lookup_entry_cons {α : Type} (key other : String) (value : α)
    (entries : List (String × α)) :
    ((key, value) :: entries).lookup other =
      if other = key then some value else entries.lookup other := by
  by_cases h : other = key
  · simp [h]
  · simp [List.lookup_cons, h, beq_eq_false_iff_ne.2 h]

/-- Under the key that was inserted stands its value, under any other what stood there before. -/
theorem lookup_insertOrdered {α : Type} (key other : String) (value : α)
    (entries : List (String × α)) :
    (insertOrdered key value entries).lookup other =
      if other = key then some value else entries.lookup other := by
  induction entries with
  | nil => rw [insertOrdered, lookup_entry_cons]
  | cons p rest ih =>
    obtain ⟨k, v⟩ := p
    unfold insertOrdered
    split
    · rw [lookup_entry_cons]
    · split
      · rename_i heq
        subst heq
        simp only [lookup_entry_cons]
        split <;> rfl
      · rename_i hne
        simp only [lookup_entry_cons, ih]
        by_cases hk : other = k
        · subst hk
          rw [if_pos rfl, if_pos rfl, if_neg (Ne.symm hne)]
        · rw [if_neg hk, if_neg hk]

/-- A finite map from texts, as entries in key order. -/
structure Dictionary (α : Type) where
  entries : List (String × α)
  keysIncrease : KeysIncrease entries
  deriving DecidableEq

namespace Dictionary

variable {α : Type}

def empty : Dictionary α := ⟨[], List.Pairwise.nil⟩

/-- Puts a value under a key, in place of an earlier one. -/
def insert (d : Dictionary α) (key : String) (value : α) : Dictionary α :=
  ⟨insertOrdered key value d.entries, d.keysIncrease.insertOrdered key value⟩

/-- The dictionary of a list of entries; of several entries with one key the last counts. -/
def ofList (entries : List (String × α)) : Dictionary α :=
  entries.foldl (fun d (k, v) => d.insert k v) empty

def get? (d : Dictionary α) (key : String) : Option α := d.entries.lookup key

@[simp] theorem get?_empty (key : String) : (empty : Dictionary α).get? key = none := rfl

@[simp] theorem get?_insert (d : Dictionary α) (key other : String) (value : α) :
    (d.insert key value).get? other = if other = key then some value else d.get? other :=
  lookup_insertOrdered key other value d.entries

/-- An entry put in at the end counts before all others of its key. -/
theorem ofList_append_singleton (entries : List (String × α)) (key : String) (value : α) :
    ofList (entries ++ [(key, value)]) = (ofList entries).insert key value := by
  simp [ofList]

end Dictionary

end WorkspaceControl
