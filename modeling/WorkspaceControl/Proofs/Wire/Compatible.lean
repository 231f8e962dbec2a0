import Mathlib.Logic.Relation
import WorkspaceControl.Proofs.Wire.Members

/-!
# Values that a shape does not tell apart

A newer service may send members that no field is named after, and may leave a field unwritten that
an older one writes as `null`. `Extends` relates a value to one with one such member more, in any
object that is decoded as a record and at any depth of the value. **Neither value is decoded to
anything that the other is not, and a fault of one is the fault of the other**
(`Extends.ofJson_eq`); hence values are decoded alike that come from each other by any number of such
members, added and taken away (`ofJson_eq_of_eqvGen`).

A member that says `null` fills the slot of its field with what an absent field holds. So its effect
is `Fields.presume`, which the members after it do not interfere with.
-/

namespace WorkspaceControl.Wire

open Json

/-- What the first field of a name is about, and whether it may be left out. -/
def Fields.field? (name : String) : Fields → Option (Presence × Shape)
  | .nil => none
  | .cons field presence shape rest =>
    if field = name then some (presence, shape) else rest.field? name

/-- The field at a position of an array form. -/
def Fields.at? : Fields → Nat → Option (Presence × Shape)
  | .nil, _ => none
  | .cons _ presence shape _, 0 => some (presence, shape)
  | .cons _ _ _ rest, index + 1 => rest.at? index

/-- The shape of a field that is there and not unset. -/
def Presence.around (shape : Shape) : Presence → Shape
  | .required | .optional _ _ => shape
  | .defaulted => .list shape

/-- The second value has one member more than the first, somewhere in it, and one that says nothing:
either no field has its name, or the field may be unset and the member is `null`. -/
inductive Extends : Shape → Json → Json → Prop
  | undeclared {title : String} {fields : Fields} (before after : List (String × Json))
      {name : String} (hname : name ∉ fields.names) (value : Json) :
      Extends (.record title fields) (.object (before ++ after))
        (.object (before ++ (name, value) :: after))
  | unset {title : String} {fields : Fields} (before after : List (String × Json)) {name : String}
      {lenient quiet : Bool} {shape : Shape}
      (hfield : fields.field? name = some (.optional lenient quiet, shape))
      (hnew : name ∉ (before ++ after).map Prod.fst) :
      Extends (.record title fields) (.object (before ++ after))
        (.object (before ++ (name, .null) :: after))
  /-- Inside of what stands under the name of a field. -/
  | member {title : String} {fields : Fields} (before after : List (String × Json)) {name : String}
      {presence : Presence} {shape : Shape} {value value' : Json}
      (hfield : fields.field? name = some (presence, shape))
      (h : Extends (presence.around shape) value value') :
      Extends (.record title fields) (.object (before ++ (name, value) :: after))
        (.object (before ++ (name, value') :: after))
  /-- Inside of what stands at the position of a field, in the array form of a record. -/
  | position {title : String} {fields : Fields} (before after : List Json) {presence : Presence}
      {shape : Shape} {value value' : Json}
      (hfield : fields.at? before.length = some (presence, shape))
      (h : Extends (presence.around shape) value value') :
      Extends (.record title fields) (.array (before ++ value :: after))
        (.array (before ++ value' :: after))
  | item {shape : Shape} (before after : List Json) {value value' : Json}
      (h : Extends shape value value') :
      Extends (.list shape) (.array (before ++ value :: after)) (.array (before ++ value' :: after))

/-- Only arrays and objects have members anywhere in them. -/
theorem Extends.ne_null {shape : Shape} {value value' : Json} (h : Extends shape value value') :
    value ≠ .null ∧ value' ≠ .null := by
  cases h <;> exact ⟨nofun, nofun⟩

/-! ### What each form is decoded by -/

section

variable {origin : Origin} {name key : String} {presence : Presence} {shape : Shape} {rest : Fields}

theorem Shape.ofJson_list (shape : Shape) (value : Json) :
    (Shape.list shape).ofJson origin value = toList (shape.ofJson origin) value := rfl

/-- The array form of a record is decoded position by position. -/
theorem Shape.ofJson_array (title : String) (fields : Fields) (items : List Json) :
    (Shape.record title fields).ofJson origin (.array items) =
      fields.ofItems origin (.recordItems title fields.count) 0 items >>= fun made =>
        if made.2 = 0 then .ok made.1 else .error (overlong origin fields.count items.length) := rfl

/-- An object is decoded by filling the slots of the fields member by member. -/
theorem Shape.ofJson_object (title : String) (fields : Fields) (members : List (String × Json)) :
    (Shape.record title fields).ofJson origin (.object members) =
      members.foldlM (fields.fillMember origin) fields.unfilled >>= fields.finish := rfl

theorem Fields.ofItems_cons {due : Expected} (index : Nat) (item : Json) (items : List Json) :
    (Fields.cons name presence shape rest).ofItems origin due index (item :: items) =
      presence.ofJson (shape.ofJson origin) item >>= fun value =>
        rest.ofItems origin due (index + 1) items >>= fun made =>
          .ok ((value, made.1), made.2) := rfl

theorem Fields.fill_cons_self (more : rest.Slots) (json : Json) :
    (Fields.cons name presence shape rest).fill origin (none, more) name json =
      presence.ofJson (shape.ofJson origin) json >>= fun value => .ok (some value, more) :=
  if_pos rfl

theorem Fields.fill_cons_repeated (value : presence.Data shape.Data) (more : rest.Slots)
    (json : Json) :
    (Fields.cons name presence shape rest).fill origin (some value, more) name json =
      .error (.duplicateField name) :=
  if_pos rfl

theorem Fields.fill_cons_of_ne (slot : Option (presence.Data shape.Data)) (more : rest.Slots)
    (json : Json) (hne : key ≠ name) :
    (Fields.cons name presence shape rest).fill origin (slot, more) key json =
      rest.fill origin more key json >>= fun more => .ok (slot, more) :=
  if_neg hne

end

/-! ### A part of a value in its place -/

/-- An item of a list counts by what it is decoded to. -/
theorem toList_congr {α : Type} {decode : Json → Except Mismatch α} {value value' : Json}
    (h : decode value = decode value') (before after : List Json) :
    toList decode (.array (before ++ value :: after)) =
      toList decode (.array (before ++ value' :: after)) := by
  simp only [toList, List.mapM_append, List.mapM_cons, h]

section

variable {origin : Origin} {presence : Presence} {shape : Shape} {value value' : Json}

/-- A field that is there and not unset is decoded as the shape around what it is about. -/
theorem Presence.ofJson_congr (hne : value ≠ .null ∧ value' ≠ .null)
    (h : (presence.around shape).ofJson origin value =
      (presence.around shape).ofJson origin value') :
    presence.ofJson (shape.ofJson origin) value = presence.ofJson (shape.ofJson origin) value' := by
  cases presence with
  | required => exact h
  | optional lenient quiet =>
      have h : shape.ofJson origin value = shape.ofJson origin value' := h
      rw [Presence.ofJson, toOptional_of_ne_null hne.1, toOptional_of_ne_null hne.2, h]
  | defaulted => exact h

/-- The value of a member counts by what the field of its name makes of it. -/
theorem Fields.fill_congr {name : String}
    (h : presence.ofJson (shape.ofJson origin) value =
      presence.ofJson (shape.ofJson origin) value') :
    (fields : Fields) → (slots : fields.Slots) → fields.field? name = some (presence, shape) →
    fields.fill origin slots name value = fields.fill origin slots name value'
  | .cons field _ _ rest, (slot, more), hfield => by
      rw [field?] at hfield
      by_cases hname : field = name
      · subst hname
        rw [if_pos rfl] at hfield
        cases hfield
        cases slot with
        | some met => rw [fill_cons_repeated, fill_cons_repeated]
        | none => rw [fill_cons_self, fill_cons_self, h]
      · rw [if_neg hname] at hfield
        rw [fill_cons_of_ne _ _ _ (Ne.symm hname), fill_cons_of_ne _ _ _ (Ne.symm hname),
          rest.fill_congr h more hfield]

/-- An item of an array form counts by what the field at its position makes of it. -/
theorem Fields.ofItems_congr {due : Expected} (after : List Json)
    (h : presence.ofJson (shape.ofJson origin) value =
      presence.ofJson (shape.ofJson origin) value') :
    (fields : Fields) → (index : Nat) → (before : List Json) →
    fields.at? before.length = some (presence, shape) →
    fields.ofItems origin due index (before ++ value :: after) =
      fields.ofItems origin due index (before ++ value' :: after)
  | .cons _ _ _ _, _, [], hfield => by
      cases hfield
      rw [List.nil_append, List.nil_append, ofItems_cons, ofItems_cons, h]
  | .cons _ _ _ rest, index, _ :: before, hfield => by
      rw [List.cons_append, List.cons_append, ofItems_cons, ofItems_cons,
        rest.ofItems_congr after h (index + 1) before hfield]

end

/-! ### A field that is unset -/

/-- The slots after a field of some name has been taken for absent, unless it has been met. -/
def Fields.presume (name : String) : (fields : Fields) → fields.Slots → fields.Slots
  | .nil, _ => ()
  | .cons field presence _ rest, (slot, more) =>
    if field = name then (slot.or presence.absent?, more) else (slot, rest.presume name more)

/-- The first field of some name has not been met. -/
def Fields.Lacks (name : String) : (fields : Fields) → fields.Slots → Prop
  | .nil, _ => True
  | .cons field _ _ rest, (slot, more) =>
    if field = name then slot = none else rest.Lacks name more

section

variable {field name : String} {presence : Presence} {shape : Shape} {rest : Fields}
  (slot : Option (presence.Data shape.Data)) (more : rest.Slots)

theorem Fields.presume_cons_self :
    (Fields.cons name presence shape rest).presume name (slot, more) =
      (slot.or presence.absent?, more) :=
  if_pos rfl

theorem Fields.presume_cons_of_ne (h : field ≠ name) :
    (Fields.cons field presence shape rest).presume name (slot, more) =
      (slot, rest.presume name more) :=
  if_neg h

theorem Fields.lacks_cons_self :
    (Fields.cons name presence shape rest).Lacks name (slot, more) ↔ slot = none := by
  rw [Lacks, if_pos rfl]

theorem Fields.lacks_cons_of_ne (h : field ≠ name) :
    (Fields.cons field presence shape rest).Lacks name (slot, more) ↔ rest.Lacks name more := by
  rw [Lacks, if_neg h]

end

section

variable {origin : Origin} {name key : String}

theorem Fields.lacks_unfilled : (fields : Fields) → fields.Lacks name fields.unfilled
  | .nil => trivial
  | .cons field presence shape rest => by
      by_cases hname : field = name
      · subst hname
        exact (lacks_cons_self none rest.unfilled).mpr rfl
      · exact (lacks_cons_of_ne none rest.unfilled hname).mpr rest.lacks_unfilled

/-- Members of other names do not fill the slot. -/
theorem Fields.lacks_fill (hkey : key ≠ name) {json : Json} : (fields : Fields) →
    (slots slots' : fields.Slots) → fields.Lacks name slots →
    fields.fill origin slots key json = .ok slots' → fields.Lacks name slots'
  | .nil, _, _, _, _ => trivial
  | .cons field presence shape rest, (slot, more), slots', hlacks, hfill => by
      by_cases hfield : key = field
      · subst hfield
        cases slot with
        | some met =>
            rw [fill_cons_repeated] at hfill
            cases hfill
        | none =>
            rw [fill_cons_self] at hfill
            obtain ⟨value, -, hslots⟩ := bind_eq_ok.mp hfill
            cases hslots
            rw [lacks_cons_of_ne _ _ hkey] at hlacks
            exact (lacks_cons_of_ne _ _ hkey).mpr hlacks
      · rw [fill_cons_of_ne _ _ _ hfield] at hfill
        obtain ⟨filled, hmore, hslots⟩ := bind_eq_ok.mp hfill
        cases hslots
        by_cases hname : field = name
        · subst hname
          exact (lacks_cons_self _ _).mpr ((lacks_cons_self _ _).mp hlacks)
        · rw [lacks_cons_of_ne _ _ hname] at hlacks
          exact (lacks_cons_of_ne _ _ hname).mpr (rest.lacks_fill hkey more filled hlacks hmore)

theorem Fields.lacks_foldlM {fields : Fields} {members : List (String × Json)}
    {slots slots' : fields.Slots} (hnew : name ∉ members.map Prod.fst)
    (hlacks : fields.Lacks name slots)
    (hfold : members.foldlM (fields.fillMember origin) slots = .ok slots') :
    fields.Lacks name slots' := by
  induction members generalizing slots with
  | nil =>
      cases hfold
      exact hlacks
  | cons member members ih =>
      obtain ⟨hne, hrest⟩ := not_or.mp (mt List.mem_cons.mpr hnew)
      rw [List.foldlM_cons] at hfold
      obtain ⟨between, hfill, hfold⟩ := bind_eq_ok.mp hfold
      exact ih hrest (fields.lacks_fill (Ne.symm hne) slots between hlacks hfill) hfold

/-- A member that says `null` does no more than take its field for absent. -/
theorem Fields.fill_null {lenient quiet : Bool} {shape : Shape} : (fields : Fields) →
    (slots : fields.Slots) → fields.field? name = some (.optional lenient quiet, shape) →
    fields.Lacks name slots → fields.fill origin slots name .null = .ok (fields.presume name slots)
  | .cons field presence _ rest, (slot, more), hfield, hlacks => by
      rw [field?] at hfield
      by_cases hname : field = name
      · subst hname
        rw [if_pos rfl] at hfield
        cases hfield
        cases (lacks_cons_self _ _).mp hlacks
        rw [fill_cons_self, presume_cons_self]
        rfl
      · rw [if_neg hname] at hfield
        rw [lacks_cons_of_ne _ _ hname] at hlacks
        rw [fill_cons_of_ne _ _ _ (Ne.symm hname), presume_cons_of_ne _ _ hname,
          rest.fill_null more hfield hlacks]
        rfl

/-- Taking a field for absent can wait until after a member of another name. -/
theorem Fields.fill_presume (hkey : key ≠ name) (json : Json) : (fields : Fields) →
    (slots : fields.Slots) →
    fields.fill origin (fields.presume name slots) key json =
      fields.fill origin slots key json >>= fun slots => .ok (fields.presume name slots)
  | .nil, _ => rfl
  | .cons field presence shape rest, (slot, more) => by
      by_cases hname : field = name
      · subst hname
        rw [presume_cons_self, fill_cons_of_ne _ _ _ hkey, fill_cons_of_ne _ _ _ hkey]
        cases rest.fill origin more key json with
        | error e => rfl
        | ok filled => exact congrArg Except.ok (presume_cons_self _ _).symm
      · rw [presume_cons_of_ne _ _ hname]
        by_cases hfield : key = field
        · subst hfield
          cases slot with
          | some met =>
              rw [fill_cons_repeated, fill_cons_repeated]
              rfl
          | none =>
              rw [fill_cons_self, fill_cons_self]
              cases presence.ofJson (shape.ofJson origin) json with
              | error e => rfl
              | ok value => exact congrArg Except.ok (presume_cons_of_ne _ _ hname).symm
        · rw [fill_cons_of_ne _ _ _ hfield, fill_cons_of_ne _ _ _ hfield,
            rest.fill_presume hkey json more]
          cases rest.fill origin more key json with
          | error e => rfl
          | ok filled => exact congrArg Except.ok (presume_cons_of_ne _ _ hname).symm

theorem Fields.foldlM_presume {fields : Fields} {members : List (String × Json)}
    (slots : fields.Slots) (hnew : name ∉ members.map Prod.fst) :
    members.foldlM (fields.fillMember origin) (fields.presume name slots) =
      members.foldlM (fields.fillMember origin) slots >>= fun slots =>
        .ok (fields.presume name slots) := by
  induction members generalizing slots with
  | nil => rfl
  | cons member members ih =>
      obtain ⟨hne, hrest⟩ := not_or.mp (mt List.mem_cons.mpr hnew)
      have hstep : fields.fillMember origin (fields.presume name slots) member =
          fields.fillMember origin slots member >>= fun slots => .ok (fields.presume name slots) :=
        fields.fill_presume (Ne.symm hne) member.2 slots
      rw [List.foldlM_cons, List.foldlM_cons, hstep, bind_assoc, bind_assoc]
      exact congrArg _ (funext fun filled => ih filled hrest)

/-- What is taken for absent is what an absent field holds. -/
theorem Fields.finish_presume : (fields : Fields) → (slots : fields.Slots) →
    fields.finish (fields.presume name slots) = fields.finish slots
  | .nil, _ => rfl
  | .cons field presence shape rest, (slot, more) => by
      by_cases hname : field = name
      · subst hname
        rw [presume_cons_self, finish, finish, Option.or_assoc, Option.or_self]
      · rw [presume_cons_of_ne _ _ hname, finish, finish, rest.finish_presume more]

/-- A member that says `null` of a field that may be unset is as good as none. -/
theorem Shape.ofJson_null_member {title : String} {fields : Fields}
    {before after : List (String × Json)} {lenient quiet : Bool} {shape : Shape}
    (hfield : fields.field? name = some (.optional lenient quiet, shape))
    (hnew : name ∉ (before ++ after).map Prod.fst) :
    (Shape.record title fields).ofJson origin (.object (before ++ (name, .null) :: after)) =
      (Shape.record title fields).ofJson origin (.object (before ++ after)) := by
  rw [List.map_append, List.mem_append, not_or] at hnew
  obtain ⟨hbefore, hafter⟩ := hnew
  rw [ofJson_object, ofJson_object, List.foldlM_append, List.foldlM_append]
  cases hfold : before.foldlM (fields.fillMember origin) fields.unfilled with
  | error e => rfl
  | ok slots =>
      have hnull : fields.fillMember origin slots (name, .null) = .ok (fields.presume name slots) :=
        fields.fill_null slots hfield (Fields.lacks_foldlM hbefore fields.lacks_unfilled hfold)
      calc ((name, Json.null) :: after).foldlM (fields.fillMember origin) slots >>= fields.finish
          = after.foldlM (fields.fillMember origin) (fields.presume name slots) >>=
              fields.finish := by rw [List.foldlM_cons, hnull]; rfl
        _ = after.foldlM (fields.fillMember origin) slots >>= fun slots =>
              fields.finish (fields.presume name slots) := by
            rw [Fields.foldlM_presume slots hafter, bind_assoc]; rfl
        _ = after.foldlM (fields.fillMember origin) slots >>= fields.finish :=
            congrArg _ (funext fields.finish_presume)

end

/-! ### Members that say nothing -/

section

variable {shape : Shape} {value value' : Json}

/-- **A value with a member more that says nothing is decoded as the value is**, and refused as it
is. -/
theorem Extends.ofJson_eq (origin : Origin) (h : Extends shape value value') :
    shape.ofJson origin value = shape.ofJson origin value' := by
  induction h with
  | @undeclared title fields before after name hname json =>
      have hignored (slots : fields.Slots) :
          fields.fillMember origin slots (name, json) = .ok slots :=
        fields.fill_of_not_mem json slots hname
      rw [Shape.ofJson_object, Shape.ofJson_object, List.foldlM_append, List.foldlM_append]
      simp only [List.foldlM_cons, hignored]
      rfl
  | unset before after hfield hnew => exact (Shape.ofJson_null_member hfield hnew).symm
  | @member title fields before after name presence shape value value' hfield hinside ih =>
      have hfill (slots : fields.Slots) :
          fields.fillMember origin slots (name, value) = fields.fillMember origin slots (name, value') :=
        fields.fill_congr (Presence.ofJson_congr hinside.ne_null ih) slots hfield
      rw [Shape.ofJson_object, Shape.ofJson_object, List.foldlM_append, List.foldlM_append]
      simp only [List.foldlM_cons, hfill]
      rfl
  | @position title fields before after presence shape value value' hfield hinside ih =>
      rw [Shape.ofJson_array, Shape.ofJson_array, List.length_append, List.length_append,
        fields.ofItems_congr after (Presence.ofJson_congr hinside.ne_null ih) 0 before hfield]
      rfl
  | @item shape before after value value' _ ih =>
      rw [Shape.ofJson_list, Shape.ofJson_list]
      exact toList_congr ih before after

/-- Values that come from each other by members that say nothing, any number of them added and taken
away, are decoded alike. -/
theorem ofJson_eq_of_eqvGen (origin : Origin) (h : Relation.EqvGen (Extends shape) value value') :
    shape.ofJson origin value = shape.ofJson origin value' := by
  induction h with
  | rel _ _ hstep => exact hstep.ofJson_eq origin
  | refl => rfl
  | symm _ _ _ ih => exact ih.symm
  | trans _ _ _ _ _ ih₁ ih₂ => exact ih₁.trans ih₂

end

end WorkspaceControl.Wire
