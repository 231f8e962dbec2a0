import WorkspaceControl.Proofs.Wire.Slots

/-!
# Members set aside

Some values are read by taking one member, which has a field of its own, and setting every other
member aside for later. What is set aside is the members of other keys in their order
(`gathers_aside`), so of a reordering of a value it is a reordering of the rest of that value
(`reordered_aside`).
-/

namespace WorkspaceControl.Wire

open Json

variable {β σ : Type}

/-- Members of no field are set aside one after another. -/
theorem gathers_others {takes : σ → String → Json → σ → Prop} (state : List (String × Json) → σ)
    {members : List (String × Json)}
    (hother : ∀ key value, (key, value) ∈ members → ∀ aside,
      takes (state aside) key value (state (aside ++ [(key, value)])))
    (aside : List (String × Json)) : Gathers takes (state aside) members (state (aside ++ members)) := by
  induction members generalizing aside with
  | nil =>
      rw [List.append_nil]
      exact .nil (state aside)
  | cons member members ih =>
      obtain ⟨key, value⟩ := member
      have hmore := ih (fun k v hv => hother k v (List.mem_cons_of_mem _ hv)) (aside ++ [(key, value)])
      rw [List.append_assoc, List.singleton_append] at hmore
      exact .cons (hother key value List.mem_cons_self aside) hmore

theorem filter_key_ne {field : String} {members : List (String × Json)}
    (h : field ∉ members.map Prod.fst) : members.filter (·.1 ≠ field) = members := by
  refine List.filter_eq_self.mpr fun member hmember => decide_eq_true ?_
  exact ne_of_mem_of_not_mem (List.mem_map_of_mem hmember) h

/-- What is set aside has the members of all other keys. -/
theorem lookup_filter_key_ne {key field : String} (hne : key ≠ field)
    (members : List (String × Json)) :
    (members.filter (·.1 ≠ field)).lookup key = members.lookup key := by
  induction members with
  | nil => rfl
  | cons member members ih =>
      obtain ⟨k, value⟩ := member
      by_cases hkey : k = field
      · subst hkey
        rw [List.filter_cons_of_neg (by simp), ih, lookup_entry_cons, if_neg hne]
      · rw [List.filter_cons_of_pos (by simpa using hkey), lookup_entry_cons, lookup_entry_cons, ih]

/-- One field is taken and every other member set aside. -/
theorem gathers_aside {field : String} {b : β} {takes : σ → String → Json → σ → Prop}
    (state : Option β → List (String × Json) → σ) {members : List (String × Json)}
    (hnodup : (members.map Prod.fst).Nodup) (hmem : field ∈ members.map Prod.fst)
    (hfield : ∀ value, (field, value) ∈ members → ∀ aside,
      takes (state none aside) field value (state (some b) aside))
    (hother : ∀ key value, (key, value) ∈ members → key ≠ field → ∀ slot aside,
      takes (state slot aside) key value (state slot (aside ++ [(key, value)])))
    (aside : List (String × Json)) :
    Gathers takes (state none aside) members
      (state (some b) (aside ++ members.filter (·.1 ≠ field))) := by
  induction members generalizing aside with
  | nil => cases hmem
  | cons member members ih =>
      obtain ⟨key, value⟩ := member
      obtain ⟨hnew, hothers⟩ := List.nodup_cons.mp hnodup
      by_cases hkey : key = field
      · subst hkey
        have hrest : Gathers takes (state (some b) aside) members (state (some b) (aside ++ members)) :=
          gathers_others (state (some b)) (fun k v hv => hother k v (List.mem_cons_of_mem _ hv)
            (ne_of_mem_of_not_mem (List.mem_map_of_mem (f := Prod.fst) hv) hnew) (some b)) aside
        rw [List.filter_cons_of_neg (by simp), filter_key_ne hnew]
        exact .cons (hfield value List.mem_cons_self aside) hrest
      · have hlater : field ∈ members.map Prod.fst :=
          (List.mem_cons.mp hmem).resolve_left (Ne.symm hkey)
        have hrest := ih hothers hlater (fun v hv => hfield v (List.mem_cons_of_mem _ hv))
          (fun k v hv => hother k v (List.mem_cons_of_mem _ hv)) (aside ++ [(key, value)])
        rw [List.append_assoc, List.singleton_append] at hrest
        rw [List.filter_cons_of_pos (by simpa using hkey)]
        exact .cons (hother key value List.mem_cons_self hkey none aside) hrest

/-! ### What is set aside of a reordering -/

section

variable {field : String} {value : Json} {members members' : List (String × Json)}

/-- Without the member of one key, what is left is a reordering of what was written without it. -/
theorem reordered_aside (h : Reordered (.object ((field, value) :: members)) (.object members'))
    (hnew : field ∉ members.map Prod.fst) :
    Reordered (.object members) (.object (members'.filter (·.1 ≠ field))) := by
  cases h with
  | object hbetween hperm =>
      cases hbetween with
      | @cons _ first _ between hfirst hrest =>
          obtain ⟨_, hsame⟩ := hfirst
          have hfiltered := hperm.filter (·.1 ≠ field)
          rw [forall₂_underKey_keys hrest] at hnew
          rw [List.filter_cons_of_neg (by simp), filter_key_ne hnew] at hfiltered
          exact .object hrest hfiltered

/-- What stands under the key of the one member is a reordering of what was written there. -/
theorem reordered_of_mem (h : Reordered (.object ((field, value) :: members)) (.object members'))
    (hnew : field ∉ members.map Prod.fst) {other : Json} (hother : (field, other) ∈ members') :
    Reordered value other := by
  cases h with
  | object hbetween hperm =>
      obtain ⟨source, hsource, hkey, hsame⟩ := exists_mem_of_reordered hbetween hperm hother
      rcases List.mem_cons.mp hsource with rfl | hmember
      · exact hsame
      · have hkey : source.1 = field := hkey
        exact absurd (hkey ▸ List.mem_map_of_mem hmember) hnew

/-- The field of a reordering is taken, and a reordering of what was written beside it set aside. -/
theorem gathers_aside_of_reordered {b : β} (takes : σ → String → Json → σ → Prop)
    (state : Option β → List (String × Json) → σ)
    (h : Reordered (.object ((field, value) :: members)) (.object members'))
    (hkeys : (field :: members.map Prod.fst).Nodup)
    (hfield : ∀ other, Reordered value other → ∀ aside,
      takes (state none aside) field other (state (some b) aside))
    (hother : ∀ key value, (key, value) ∈ members' → key ≠ field → ∀ slot aside,
      takes (state slot aside) key value (state slot (aside ++ [(key, value)]))) :
    ∃ aside, Gathers takes (state none []) members' (state (some b) aside) ∧
      Reordered (.object members) (.object aside) := by
  have hnew : field ∉ members.map Prod.fst := (List.nodup_cons.mp hkeys).1
  have hnodup := h.keys_perm.nodup_iff.mp hkeys
  have hmem : field ∈ members'.map Prod.fst := h.keys_perm.mem_iff.mp List.mem_cons_self
  exact ⟨_, gathers_aside state hnodup hmem
    (fun other hvalue => hfield other (reordered_of_mem h hnew hvalue)) hother [],
    reordered_aside h hnew⟩

end

end WorkspaceControl.Wire
