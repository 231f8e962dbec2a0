import Mathlib.Data.List.Perm.Basic
import WorkspaceControl.Proofs.Wire.Encoding

/-!
# Records gathered field by field

Both ways of reading a record put the members of an object one after another into the slots of its
fields. Which slots are taken depends on the keys that have been met and not on their order
(`Fields.filled`), so one argument serves both: if every member goes into its slot, a reordering of
what the record is written as fills all slots that have to be filled (`Fields.gathers_filled`), and
the record is finished (`Fields.finish_filled`).
-/

namespace WorkspaceControl.Wire

open Json

/-- The slots after the fields of some names have been met. -/
def Fields.filled : (fields : Fields) → fields.Data → (met : List String) → fields.Slots
  | .nil, _, _ => ()
  | .cons name _ _ rest, (value, more), met =>
    (if name ∈ met then some value else none, rest.filled more met)

theorem Fields.unfilled_eq : (fields : Fields) → (data : fields.Data) →
    fields.unfilled = fields.filled data []
  | .nil, _ => rfl
  | .cons name presence shape rest, (value, more) => by
      rw [filled, unfilled, rest.unfilled_eq more, if_neg List.not_mem_nil]

/-- A key that is no name takes no slot. -/
theorem Fields.filled_of_not_mem {key : String} (met : List String) : (fields : Fields) →
    (data : fields.Data) → key ∉ fields.names → fields.filled data (key :: met) = fields.filled data met
  | .nil, _, _ => rfl
  | .cons name presence shape rest, (value, more), h => by
      obtain ⟨hname, hrest⟩ := not_or.mp (mt List.mem_cons.mpr h)
      have hmet : name ∈ key :: met ↔ name ∈ met := by simp [Ne.symm hname]
      rw [filled, filled, rest.filled_of_not_mem met more hrest]
      simp only [hmet]
      rfl

section

variable {name key : String} {presence : Presence} {shape : Shape} {rest : Fields}
  {met : List String} (value : presence.Data shape.Data) (more : rest.Data)

/-- The slot of a name that has not been met is empty. -/
theorem Fields.filled_of_new (h : name ∉ met) :
    (Fields.cons name presence shape rest).filled (value, more) met =
      (none, rest.filled more met) := by
  rw [filled, if_neg h]

/-- Meeting the name of the first field takes its slot and no other. -/
theorem Fields.filled_self (h : name ∉ rest.names) :
    (Fields.cons name presence shape rest).filled (value, more) (name :: met) =
      (some value, rest.filled more met) := by
  rw [filled, if_pos List.mem_cons_self, rest.filled_of_not_mem met more h]

/-- Meeting another name leaves the slot of the first field. -/
theorem Fields.filled_of_ne (h : key ≠ name) :
    (Fields.cons name presence shape rest).filled (value, more) (key :: met) =
      (if name ∈ met then some value else none, rest.filled more (key :: met)) := by
  have hmet : name ∈ key :: met ↔ name ∈ met := by simp [h.symm]
  rw [filled]
  simp only [hmet]
  rfl

end

/-- What is not written is what an absent field reads as. -/
theorem Presence.absent?_of_encode_eq_none {α : Type} (value : α → Json) {presence : Presence}
    {data : presence.Data α} (h : presence.encode value data = none) :
    presence.absent? = some data := by
  cases presence with
  | required => cases h
  | optional lenient quiet =>
      cases data with
      | none => rfl
      | some a => cases h
  | defaulted => cases h

/-- A record is finished once every member that is written has been met. -/
theorem Fields.finish_filled {met : List String} : (fields : Fields) → (data : fields.Data) →
    (∀ key ∈ (fields.encode data).map Prod.fst, key ∈ met) →
    fields.finish (fields.filled data met) = .ok data
  | .nil, _, _ => rfl
  | .cons name presence shape rest, (value, more), h => by
      rw [encode_cons, List.map_append] at h
      have hrest : rest.finish (rest.filled more met) = .ok more :=
        rest.finish_filled more fun key hkey => h key (List.mem_append_right _ hkey)
      have hslot : (if name ∈ met then some value else none).or presence.absent? = some value := by
        by_cases hmet : name ∈ met
        · rw [if_pos hmet, Option.some_or]
        · rw [if_neg hmet, Option.none_or]
          refine Presence.absent?_of_encode_eq_none shape.encode ?_
          cases hvalue : presence.encode shape.encode value with
          | none => rfl
          | some json => exact absurd (h name (by simp [hvalue])) hmet
      rw [filled, finish]
      simp only [hslot, hrest]
      rfl

/-- Members in any order are gathered, if each of them goes into its slot. -/
theorem Fields.gathers_filled {fields : Fields} {data : fields.Data}
    {takes : fields.Slots → String → Json → fields.Slots → Prop}
    {members : List (String × Json)} (hnodup : (members.map Prod.fst).Nodup)
    (htakes : ∀ member ∈ members, ∀ met, member.1 ∉ met →
      takes (fields.filled data met) member.1 member.2 (fields.filled data (member.1 :: met)))
    (met : List String) (hnew : ∀ member ∈ members, member.1 ∉ met) :
    ∃ met', Gathers takes (fields.filled data met) members (fields.filled data met') ∧
      (∀ key ∈ met, key ∈ met') ∧ ∀ key ∈ members.map Prod.fst, key ∈ met' := by
  induction members generalizing met with
  | nil => exact ⟨met, .nil _, fun _ h => h, nofun⟩
  | cons member members ih =>
      obtain ⟨hfirst, hothers⟩ := List.nodup_cons.mp hnodup
      have hlater : ∀ m ∈ members, m.1 ∉ member.1 :: met := by
        intro m hm hmem
        rcases List.mem_cons.mp hmem with heq | hmet
        · exact hfirst (heq ▸ List.mem_map_of_mem hm)
        · exact hnew m (List.mem_cons_of_mem _ hm) hmet
      obtain ⟨met', hgathers, hold, hmembers⟩ :=
        ih hothers (fun m hm => htakes m (List.mem_cons_of_mem _ hm)) (member.1 :: met) hlater
      have htake := htakes member List.mem_cons_self met (hnew member List.mem_cons_self)
      refine ⟨met', .cons htake hgathers, fun key hkey => hold key (List.mem_cons_of_mem _ hkey), ?_⟩
      intro key hkey
      rcases List.mem_cons.mp hkey with rfl | hkey
      · exact hold _ List.mem_cons_self
      · exact hmembers key hkey

/-- A record is gathered from the members of any reordering of what it is written as. -/
theorem Fields.gathers_reordered {fields : Fields} (hsound : fields.sound = true)
    {data : fields.Data} (takes : fields.Slots → String → Json → fields.Slots → Prop)
    {between members : List (String × Json)}
    (hbetween : List.Forall₂ (UnderKey Reordered) (fields.encode data) between)
    (hperm : between.Perm members)
    (htakes : ∀ key value other, (key, value) ∈ fields.encode data → Reordered value other →
      ∀ met, key ∉ met → takes (fields.filled data met) key other (fields.filled data (key :: met))) :
    ∃ slots, Gathers takes fields.unfilled members slots ∧ fields.finish slots = .ok data := by
  have hkeys : ((fields.encode data).map Prod.fst).Perm (members.map Prod.fst) :=
    (Reordered.object hbetween hperm).keys_perm
  have hnodup : (members.map Prod.fst).Nodup := hkeys.nodup_iff.mp (nodup_keys hsound data)
  have hmember : ∀ member ∈ members, ∀ met, member.1 ∉ met →
      takes (fields.filled data met) member.1 member.2 (fields.filled data (member.1 :: met)) := by
    intro member hmember
    obtain ⟨⟨key, value⟩, hsource, rfl, hsame⟩ := exists_mem_of_reordered hbetween hperm hmember
    exact htakes _ value member.2 hsource hsame
  obtain ⟨met, hgathers, -, hmet⟩ := gathers_filled hnodup hmember [] fun _ _ => List.not_mem_nil
  rw [fields.unfilled_eq data]
  exact ⟨_, hgathers, fields.finish_filled data fun key hkey => hmet key (hkeys.mem_iff.mp hkey)⟩

/-! ### Dictionaries -/

/-- Texts stand under the same keys in a reordering. -/
theorem eq_of_underKey_texts {entries : List (String × String)} {members : List (String × Json)}
    (h : List.Forall₂ (UnderKey Reordered) (entries.map fun e => (e.1, .string e.2)) members) :
    members = entries.map fun e => (e.1, .string e.2) := by
  have hmembers := List.forall₂_map_left_iff.mp h
  clear h
  induction hmembers with
  | nil => rfl
  | cons hfirst _ ih =>
      obtain ⟨key, hsame⟩ := hfirst
      cases hsame
      rw [ih, List.map_cons]

/-- Members with texts are gathered into the dictionary of them. -/
theorem gathers_texts {takes : Dictionary String → String → Json → Dictionary String → Prop}
    (htakes : ∀ d key text, takes d key (.string text) (d.insert key text))
    (entries : List (String × String)) (d : Dictionary String) :
    Gathers takes d (entries.map fun e => (e.1, .string e.2))
      (entries.foldl (fun d e => d.insert e.1 e.2) d) := by
  induction entries generalizing d with
  | nil => exact .nil d
  | cons e entries ih => exact .cons (htakes d e.1 e.2) (ih (d.insert e.1 e.2))

/-- A dictionary is gathered from the members of any reordering of what it is written as. -/
theorem gathers_dictionary (takes : Dictionary String → String → Json → Dictionary String → Prop)
    (htakes : ∀ d key text, takes d key (.string text) (d.insert key text))
    {d : Dictionary String} {other : Json} (h : Reordered (ofDictionary d) other) :
    ∃ members, other = .object members ∧ Gathers takes Dictionary.empty members d := by
  cases h with
  | @object _ between members hbetween hperm =>
      obtain ⟨entries, rfl, hentries⟩ : ∃ entries : List (String × String),
          members = entries.map (fun e => (e.1, .string e.2)) ∧ entries.Perm d.entries := by
        have hmembers : members.Perm (d.entries.map fun e => (e.1, .string e.2)) :=
          eq_of_underKey_texts hbetween ▸ hperm.symm
        exact (congrFun₂ (List.eq_map_comp_perm _) members d.entries).mpr hmembers
      have hgathers := gathers_texts htakes entries Dictionary.empty
      rw [← Dictionary.ofList_of_perm hentries.symm]
      exact ⟨_, rfl, hgathers⟩

end WorkspaceControl.Wire
