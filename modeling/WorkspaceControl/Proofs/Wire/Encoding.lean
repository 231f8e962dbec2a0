import WorkspaceControl.Proofs.Json.Order
import WorkspaceControl.Wire.Codec

/-!
# What shapes are written as

A shape is `sound` if no record has two fields of one name and no choice has a name twice. The value
that a sound shape is written as holds nothing that would not come back: no object has a key twice, no
number is a double, and there are no more brackets than the shape has levels (`Shape.plain_encode`).
No shape is written as `null`, which leaves `null` to the fields that are unset.
-/

namespace WorkspaceControl.Json

/-- What is true of the values that records are written as: all numbers are integers, no object has a
key twice, and at most so many brackets are open at once. -/
structure Plain (levels : Nat) (value : Json) : Prop where
  integral : value.Integral
  within : Within levels value
  distinct : value.Distinct

/-- Where more brackets may be open, fewer may be. -/
theorem Within.mono {n m : Nat} {value : Json} (h : Within n value) (hle : n ≤ m) :
    Within m value := by
  induction h generalizing m with
  | null n => exact .null m
  | boolean n b => exact .boolean m b
  | number n x => exact .number m x
  | string n s => exact .string m s
  | @array n items _ ih =>
      obtain ⟨m, rfl⟩ : ∃ k, m = k + 1 := ⟨m - 1, by omega⟩
      exact .array fun item hitem => ih item hitem (by omega)
  | @object n members _ ih =>
      obtain ⟨m, rfl⟩ : ∃ k, m = k + 1 := ⟨m - 1, by omega⟩
      exact .object fun member hmember => ih member hmember (by omega)

namespace Plain

theorem mono {n m : Nat} {value : Json} (h : Plain n value) (hle : n ≤ m) : Plain m value :=
  ⟨h.integral, h.within.mono hle, h.distinct⟩

theorem null (n : Nat) : Plain n .null := ⟨.null, .null n, .null⟩

theorem string (n : Nat) (s : String) : Plain n (.string s) := ⟨.string s, .string n s, .string s⟩

theorem array {n : Nat} {items : List Json} (h : ∀ item ∈ items, Plain n item) :
    Plain (n + 1) (.array items) :=
  ⟨.array fun item hitem => (h item hitem).integral,
    .array fun item hitem => (h item hitem).within,
    .array fun item hitem => (h item hitem).distinct⟩

theorem object {n : Nat} {members : List (String × Json)}
    (hkeys : (members.map Prod.fst).Nodup) (h : ∀ member ∈ members, Plain n member.2) :
    Plain (n + 1) (.object members) :=
  ⟨.object fun member hmember => (h member hmember).integral,
    .object fun member hmember => (h member hmember).within,
    .object hkeys fun member hmember => (h member hmember).distinct⟩

end Plain

end WorkspaceControl.Json

namespace WorkspaceControl.Wire

open Json

def Fields.names : Fields → List String
  | .nil => []
  | .cons name _ _ rest => name :: rest.names

mutual

/-- No name of a record or of a choice comes twice. -/
def Shape.sound : Shape → Bool
  | .string | .boolean | .word | .dictionary => true
  | .choice variants => decide variants.Nodup
  | .list item => item.sound
  | .record _ fields => fields.sound
termination_by structural shape => shape

def Fields.sound : Fields → Bool
  | .nil => true
  | .cons name _ shape rest => decide (name ∉ rest.names) && shape.sound && rest.sound
termination_by structural fields => fields

end

/-- How many brackets a field adds to what it is about. -/
def Presence.depth : Presence → Nat
  | .required | .optional _ _ => 0
  | .defaulted => 1

mutual

/-- How many brackets are open at once at most. -/
def Shape.depth : Shape → Nat
  | .string | .boolean | .word | .choice _ => 0
  | .dictionary => 1
  | .list item => item.depth + 1
  | .record _ fields => fields.depth + 1
termination_by structural shape => shape

def Fields.depth : Fields → Nat
  | .nil => 0
  | .cons _ presence shape rest => max (shape.depth + presence.depth) rest.depth
termination_by structural fields => fields

end

theorem Shape.encode_ne_null (shape : Shape) (data : shape.Data) : shape.encode data ≠ .null := by
  cases shape <;> simp [Shape.encode, ofWord, ofDictionary]

/-- A field is written under its name or not at all. -/
theorem Fields.encode_cons {name : String} {presence : Presence} {shape : Shape} {rest : Fields}
    (value : presence.Data shape.Data) (more : rest.Data) :
    (Fields.cons name presence shape rest).encode (value, more) =
      ((presence.encode shape.encode value).map (name, ·)).toList ++ rest.encode more := by
  rw [Fields.encode]
  cases presence.encode shape.encode value <;> rfl

/-- The keys are names of fields, in their order. -/
theorem Fields.keys_encode_sublist : (fields : Fields) → (data : fields.Data) →
    ((fields.encode data).map Prod.fst).Sublist fields.names
  | .nil, _ => .slnil
  | .cons name presence shape rest, (value, more) => by
      have hrest := rest.keys_encode_sublist more
      rw [encode_cons, names, List.map_append]
      cases presence.encode shape.encode value with
      | none => exact hrest.cons name
      | some json => exact hrest.cons_cons name

theorem Fields.nodup_names : (fields : Fields) → fields.sound = true → fields.names.Nodup
  | .nil, _ => .nil
  | .cons name presence shape rest, h => by
      simp only [sound, Bool.and_eq_true, decide_eq_true_eq] at h
      exact List.nodup_cons.mpr ⟨h.1.1, rest.nodup_names h.2⟩

theorem Fields.nodup_keys {fields : Fields} (h : fields.sound = true) (data : fields.Data) :
    ((fields.encode data).map Prod.fst).Nodup :=
  (fields.nodup_names h).sublist (fields.keys_encode_sublist data)

/-- A field is plain if what it is about is. -/
theorem Presence.plain_encode {α : Type} {n : Nat} {value : α → Json}
    (h : ∀ a, Plain n (value a)) (presence : Presence) (data : presence.Data α) {json : Json}
    (hjson : presence.encode value data = some json) : Plain (n + presence.depth) json := by
  cases presence with
  | required =>
      cases hjson
      exact h data
  | optional lenient quiet =>
      cases data with
      | none =>
          cases quiet with
          | true => cases hjson
          | false =>
              cases hjson
              exact .null n
      | some a =>
          cases hjson
          exact h a
  | defaulted =>
      cases hjson
      refine .array fun item hitem => ?_
      obtain ⟨a, -, rfl⟩ := List.mem_map.mp hitem
      exact h a

theorem plain_ofDictionary (d : Dictionary String) : Plain 1 (ofDictionary d) := by
  refine .object ?_ fun member hmember => ?_
  · rw [List.map_map]
    exact d.keysIncrease.nodup
  · obtain ⟨entry, -, rfl⟩ := List.mem_map.mp hmember
    exact .string 0 entry.2

mutual

/-- **A sound shape is written as a plain value** of no more brackets than it has levels. -/
theorem Shape.plain_encode : (shape : Shape) → shape.sound = true → (data : shape.Data) →
    Plain shape.depth (shape.encode data)
  | .string, _, s => .string 0 s
  | .boolean, _, b => ⟨.boolean b, .boolean 0 b, .boolean b⟩
  | .word, _, n => ⟨.integer _ _, .number 0 _, .number _⟩
  | .choice variants, _, i => .string 0 _
  | .list item, h, items => by
      refine .array fun json hjson => ?_
      obtain ⟨a, -, rfl⟩ := List.mem_map.mp hjson
      exact item.plain_encode h a
  | .dictionary, _, d => plain_ofDictionary d
  | .record _ fields, h, data => .object (Fields.nodup_keys h data) (fields.plain_encode h data)
termination_by structural shape => shape

theorem Fields.plain_encode : (fields : Fields) → fields.sound = true → (data : fields.Data) →
    ∀ member ∈ fields.encode data, Plain fields.depth member.2
  | .nil, _, _ => nofun
  | .cons name presence shape rest, h, (value, more) => by
      simp only [Fields.sound, Bool.and_eq_true] at h
      intro member hmember
      rw [Fields.encode_cons] at hmember
      rcases List.mem_append.mp hmember with hfirst | hrest
      · rw [Option.mem_toList, Option.map_eq_some_iff] at hfirst
        obtain ⟨json, hjson, rfl⟩ := hfirst
        have hplain := presence.plain_encode (shape.plain_encode h.1.2) value hjson
        exact hplain.mono (Nat.le_max_left _ _)
      · exact (rest.plain_encode h.2 more member hrest).mono (Nat.le_max_right _ _)
termination_by structural fields => fields

end

end WorkspaceControl.Wire
