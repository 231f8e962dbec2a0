import WorkspaceControl.Proofs.Json.Depth
import WorkspaceControl.Proofs.Wire.FromTree

/-!
# Records by their members

A record that travels as an object is decoded member by member, and each member goes to the field of
its name. The fields know nothing of each other, so one pass over the members is as many passes as
there are fields (`Fields.foldlM_fillMember_cons_eq_ok_iff`), each of which looks for one name only.

Hence **an object without repeated keys is decoded to a record if and only if every field holds what
the member of its name stands for**, or what an absent field holds if there is no such member
(`Shape.ofJson_object_eq_ok_iff`). Members of other names and the order of members do not count.
-/

namespace WorkspaceControl

/-! ### Lists -/

/-- Relations that agree on the items of a list relate it to the same lists. -/
theorem forall₂_congr_of_mem {α β : Type} {r s : α → β → Prop} {as : List α} {bs : List β}
    (h : ∀ a ∈ as, ∀ b, r a b ↔ s a b) : List.Forall₂ r as bs ↔ List.Forall₂ s as bs := by
  constructor
  · intro hr
    exact ((List.forall₂_and_left as bs).mpr ⟨h, hr⟩).imp fun _ b ⟨hsame, hab⟩ => (hsame b).mp hab
  · intro hs
    exact ((List.forall₂_and_left as bs).mpr ⟨h, hs⟩).imp fun _ b ⟨hsame, hab⟩ => (hsame b).mpr hab

/-- Each item of a list has a partner if and only if there is a list of partners. -/
theorem exists_forall₂_iff {α β : Type} {related : α → β → Prop} {as : List α} :
    (∃ bs, List.Forall₂ related as bs) ↔ ∀ a ∈ as, ∃ b, related a b := by
  induction as with
  | nil => exact ⟨fun _ => List.forall_mem_nil _, fun _ => ⟨[], .nil⟩⟩
  | cons a as ih =>
      rw [List.forall_mem_cons, ← ih]
      constructor
      · rintro ⟨bs, h⟩
        cases h with
        | cons hfirst hrest => exact ⟨⟨_, hfirst⟩, _, hrest⟩
      · rintro ⟨⟨b, hfirst⟩, bs, hrest⟩
        exact ⟨b :: bs, .cons hfirst hrest⟩

namespace Json

/-! ### Members of a value -/

/-- Where no key comes twice, the last member with a key is the only one. -/
theorem member?_object {members : List (String × Json)}
    (hkeys : (members.map Prod.fst).Nodup) (key : String) :
    (Json.object members).member? key = members.lookup key :=
  lookup_reverse hkeys key

/-- What is found in a value without repeated keys has none either. -/
theorem Distinct.member? {value found : Json} {key : String} (h : value.Distinct)
    (hfound : value.member? key = some found) : found.Distinct := by
  cases h with
  | @object members _ hmembers =>
      obtain ⟨before, after, hsplit, -⟩ := List.lookup_eq_some_iff.mp hfound
      have hmember : (key, found) ∈ members.reverse := by
        rw [hsplit]
        exact List.mem_append_right _ List.mem_cons_self
      exact hmembers _ (List.mem_reverse.mp hmember)
  | _ => cases hfound

theorem member?_canonical (members : List (String × Json)) (key : String) :
    (Json.object members).canonical.member? key =
      ((Json.object members).member? key).map canonical := by
  rw [canonical_object]
  exact lookup_canonical members key

/-- A value in which there is nothing to reorder is found in the canonical form just where it is
found in the value. -/
theorem member?_canonical_eq_some_iff {members : List (String × Json)} {key : String} {held : Json}
    (hdistinct : (Json.object members).Distinct) (hsingle : held.Single) :
    (Json.object members).canonical.member? key = some held ↔
      (Json.object members).member? key = some held := by
  rw [member?_canonical, Option.map_eq_some_iff]
  constructor
  · intro h
    obtain ⟨found, hfound, hsame⟩ := h
    have hreordered : Reordered found held := by
      rw [← hsame]
      exact (Reordered.refl found).canonical (hdistinct.member? hfound)
    rw [hfound, hsingle.eq_of_reordered hreordered]
  · intro h
    exact ⟨held, h, hsingle.canonical_eq⟩

end Json

namespace Wire

open Json

/-! ### Sequences of steps -/

theorem map_eq_ok {ε α β : Type} {f : α → β} {made : Except ε α} {b : β} :
    f <$> made = .ok b ↔ ∃ a, made = .ok a ∧ f a = b := by
  cases made with
  | error e => exact ⟨nofun, nofun⟩
  | ok a => simp [Functor.map, Except.map]

theorem mapM_eq_ok_iff {α β : Type} {f : β → Except Mismatch α} {bs : List β} {as : List α} :
    bs.mapM f = .ok as ↔ List.Forall₂ (fun b a => f b = .ok a) bs as := by
  refine ⟨fun h => ?_, mapM_of_forall₂⟩
  induction bs generalizing as with
  | nil =>
      cases h
      exact .nil
  | cons b bs ih =>
      rw [List.mapM_cons] at h
      obtain ⟨a, ha, h⟩ := bind_eq_ok.mp h
      obtain ⟨more, hmore, h⟩ := bind_eq_ok.mp h
      cases h
      exact .cons ha (ih hmore)

/-- Steps that act on two things apart succeed if they do on each of them. -/
theorem foldlM_pair_eq_ok_iff {ε α σ τ : Type} {f : σ → α → Except ε σ} {g : τ → α → Except ε τ}
    {items : List α} {s s' : σ} {t t' : τ} :
    items.foldlM (fun both item => do return (← f both.1 item, ← g both.2 item)) (s, t) =
        .ok (s', t') ↔
      items.foldlM f s = .ok s' ∧ items.foldlM g t = .ok t' := by
  induction items generalizing s t with
  | nil => exact (Except.ok.injEq ..).to_iff.trans <| (Prod.mk.injEq ..).to_iff.trans <|
      and_congr (Except.ok.injEq ..).to_iff.symm (Except.ok.injEq ..).to_iff.symm
  | cons item items ih =>
      simp only [List.foldlM_cons, bind_eq_ok]
      constructor
      · rintro ⟨both, ⟨s₁, hs, t₁, ht, hboth⟩, hrest⟩
        cases hboth
        obtain ⟨hs', ht'⟩ := ih.mp hrest
        exact ⟨⟨s₁, hs, hs'⟩, t₁, ht, ht'⟩
      · rintro ⟨⟨s₁, hs, hs'⟩, t₁, ht, ht'⟩
        exact ⟨(s₁, t₁), ⟨s₁, hs, t₁, ht, rfl⟩, ih.mpr ⟨hs', ht'⟩⟩

/-! ### One field -/

theorem toText_eq_ok_iff {value : Json} {text : String} :
    toText value = .ok text ↔ value = .string text := by
  cases value with
  | string s => simp [toText]
  | _ => exact ⟨nofun, nofun⟩

theorem toList_eq_ok_iff {decode : Json → Except Mismatch α} {value : Json} {as : List α} :
    toList decode value = .ok as ↔ ∃ items, value = .array items ∧ items.mapM decode = .ok as := by
  cases value with
  | array items => simp [toList]
  | _ => simp [toList]

/-- Lists of texts are decoded from the arrays that they are written as. -/
theorem toList_toText_eq_ok_iff {value : Json} {texts : List String} :
    toList toText value = .ok texts ↔ value = .array (texts.map .string) := by
  rw [toList_eq_ok_iff]
  simp only [mapM_eq_ok_iff, toText_eq_ok_iff]
  constructor
  · intro h
    obtain ⟨items, rfl, hitems⟩ := h
    rw [← List.forall₂_map_right_iff (f := Json.string), List.forall₂_eq_eq_eq] at hitems
    rw [hitems]
  · intro h
    refine ⟨_, h, ?_⟩
    rw [← List.forall₂_map_right_iff (f := Json.string), List.forall₂_eq_eq_eq]

theorem toWord_eq_ok_iff {value : Json} {n : UInt32} :
    toWord value = .ok n ↔ value = ofWord n := by
  constructor
  · intro h
    unfold toWord at h
    split at h
    · rename_i i hbounded
      split at h
      · rename_i hrange
        cases h
        have hword : ((UInt32.ofNat i.toNat).toNat : Int) = i := by
          rw [UInt32.toNat_ofNat_of_lt' (show i.toNat < 4294967296 by omega),
            Int.toNat_of_nonneg hrange.1]
        simp only [ofWord, Number.ofNat, hword]
      · cases h
    · cases h
  · intro h
    subst h
    exact toWord_ofWord n

theorem toChoice_member_eq_ok_iff {origin : Origin} {variants : List String} {name : String}
    {held : Json} {i : Fin variants.length} :
    toChoice origin variants (.object [(name, held)]) = .ok i ↔
      toVariant variants name = .ok i ∧
        (held = .null ∨ (origin = .setAside ∧ held = .object [])) := by
  simp only [toChoice]
  cases toVariant variants name with
  | error e => simp [bind, Except.bind]
  | ok j =>
      simp only [bind, Except.bind]
      cases held with
      | object members =>
          cases members with
          | nil => cases origin <;> simp [toUnit, pure, Except.pure]
          | cons => simp [toUnit]
      | _ => simp [toUnit, pure, Except.pure]

/-- A choice is named by itself or beside something that counts as nothing. -/
theorem toChoice_eq_ok_iff {origin : Origin} {variants : List String} (h : variants.Nodup)
    {value : Json} {i : Fin variants.length} :
    toChoice origin variants value = .ok i ↔
      value = .string (variants.get i) ∨ value = .object [(variants.get i, .null)] ∨
        (origin = .setAside ∧ value = .object [(variants.get i, .object [])]) := by
  cases value with
  | string name =>
      refine (toVariant_eq_ok_iff h).trans ?_
      simp
  | object members =>
      match members with
      | [] => simp [toChoice]
      | [(name, held)] =>
          rw [toChoice_member_eq_ok_iff, toVariant_eq_ok_iff h]
          simp only [reduceCtorEq, object.injEq, List.cons.injEq, Prod.mk.injEq, and_true,
            false_or]
          tauto
      | _ :: _ :: _ => simp [toChoice]
  | _ => simp [toChoice]

/-- What a value that may be `null` is decoded to, if `null` stands for nothing else. -/
theorem toOptional_eq_ok_iff {α : Type} {decode : Json → Except Mismatch α} {json : Json}
    {value : Option α} (hnull : ∀ a, decode .null ≠ .ok a) :
    toOptional decode json = .ok value ↔
      (json = .null ∧ value = none) ∨ ∃ a, decode json = .ok a ∧ value = some a := by
  cases json with
  | null =>
      simp only [toOptional, hnull, false_and, exists_false, or_false, true_and]
      exact (Except.ok.injEq ..).to_iff.trans eq_comm
  | _ =>
      refine map_eq_ok.trans ?_
      simp [eq_comm]

/-- The slot of a field after one more member. -/
def fillSlot {α : Type} (name : String) (decode : Json → Except Mismatch α) (slot : Option α)
    (member : String × Json) : Except Mismatch (Option α) :=
  if member.1 = name then
    match slot with
    | some _ => .error (.duplicateField name)
    | none => some <$> decode member.2
  else .ok slot

section

variable {α : Type} {name : String} {decode : Json → Except Mismatch α}
  {members : List (String × Json)}

/-- Members of other names leave the slot as it is. -/
theorem foldlM_fillSlot_of_not_mem (slot : Option α) (h : name ∉ members.map Prod.fst) :
    members.foldlM (fillSlot name decode) slot = .ok slot := by
  induction members with
  | nil => rfl
  | cons member members ih =>
      obtain ⟨hne, hrest⟩ := not_or.mp (mt List.mem_cons.mpr h)
      have hstep : fillSlot name decode slot member = .ok slot := if_neg (Ne.symm hne)
      rw [List.foldlM_cons, hstep]
      exact ih hrest

/-- The slot is filled by the member of the name, and stays empty without one. -/
theorem foldlM_fillSlot_eq_ok_iff (hkeys : (members.map Prod.fst).Nodup) {slot : Option α} :
    members.foldlM (fillSlot name decode) none = .ok slot ↔
      match members.lookup name with
      | some json => ∃ value, decode json = .ok value ∧ slot = some value
      | none => slot = none := by
  induction members with
  | nil =>
      simp only [List.foldlM_nil, List.lookup_nil]
      exact (Except.ok.injEq ..).to_iff.trans eq_comm
  | cons member members ih =>
      obtain ⟨key, json⟩ := member
      obtain ⟨hnew, hrest⟩ := List.nodup_cons.mp hkeys
      rw [List.foldlM_cons, lookup_entry_cons, fillSlot]
      by_cases hkey : key = name
      · subst hkey
        simp only [if_pos, bind_eq_ok, map_eq_ok, foldlM_fillSlot_of_not_mem _ hnew]
        constructor
        · rintro ⟨-, ⟨value, hvalue, rfl⟩, hslot⟩
          cases hslot
          exact ⟨value, hvalue, rfl⟩
        · rintro ⟨value, hvalue, rfl⟩
          exact ⟨some value, ⟨value, hvalue, rfl⟩, rfl⟩
      · rw [if_neg hkey, if_neg (Ne.symm hkey)]
        exact ih hrest

end

/-- What a field holds after an object, given what stood under its name. -/
def Presence.Holds {α : Type} (presence : Presence) (decode : Json → Except Mismatch α)
    (found : Option Json) (value : presence.Data α) : Prop :=
  match found with
  | some json => presence.ofJson decode json = .ok value
  | none => presence.absent? = some value

/-- A text is read from a member if it is there and a text. -/
theorem holds_toText_iff {found : Option Json} {text : String} :
    Presence.required.Holds toText found text ↔ found = some (.string text) := by
  cases found with
  | none => exact ⟨nofun, nofun⟩
  | some json => exact toText_eq_ok_iff.trans (Option.some.injEq ..).to_iff.symm

/-- What a member says that may be left out: nothing if it is absent or `null`, and else the value
that it is written for. -/
def Optionally {α : Type} (write : α → Json) (found : Option Json) : Option α → Prop
  | none => found = none ∨ found = some .null
  | some a => found = some (write a)

/-- An optional value is read from what says it. -/
theorem holds_optional_iff {α : Type} {lenient quiet : Bool} {decode : Json → Except Mismatch α}
    {write : α → Json} (hdecode : ∀ {json a}, decode json = .ok a ↔ json = write a)
    (hnull : ∀ a, write a ≠ .null) {found : Option Json} {value : Option α} :
    (Presence.optional lenient quiet).Holds decode found value ↔ Optionally write found value := by
  cases found with
  | none =>
      cases value with
      | none => simp [Presence.Holds, Presence.absent?, Optionally]
      | some a =>
          constructor
          · intro h
            cases h
          · intro h
            cases h
  | some json =>
      refine (toOptional_eq_ok_iff fun a h => hnull a (hdecode.mp h).symm).trans ?_
      simp only [hdecode]
      cases value with
      | none => simp [Optionally]
      | some a => simp [Optionally]

/-- There is a value that a member says if the member is absent, `null` or written for one. -/
theorem exists_optionally_iff {α : Type} {write : α → Json} {found : Option Json} :
    (∃ value, Optionally write found value) ↔
      ∀ json, found = some json → json = .null ∨ ∃ a, json = write a := by
  constructor
  · intro h json hjson
    obtain ⟨value, hvalue⟩ := h
    subst hjson
    cases value with
    | none => exact .inl (by simpa [Optionally] using hvalue)
    | some a => exact .inr ⟨a, by simpa [Optionally] using hvalue⟩
  · intro h
    cases found with
    | none => exact ⟨none, .inl rfl⟩
    | some json =>
        rcases h json rfl with rfl | ⟨a, rfl⟩
        · exact ⟨none, .inr rfl⟩
        · exact ⟨some a, rfl⟩

/-- A member of the canonical form says what the member of the object says. -/
theorem optionally_canonical_iff {α : Type} {write : α → Json} {members : List (String × Json)}
    (hdistinct : (Json.object members).Distinct) (hwrite : ∀ a, (write a).Single) {key : String}
    {value : Option α} :
    Optionally write ((Json.object members).canonical.member? key) value ↔
      Optionally write ((Json.object members).member? key) value := by
  cases value with
  | none =>
      refine or_congr ?_ (member?_canonical_eq_some_iff hdistinct .null)
      rw [member?_canonical, Option.map_eq_none_iff]
  | some a => exact member?_canonical_eq_some_iff hdistinct (hwrite a)

/-- A list is read from a member if it is there, an array, and all its items are read. -/
theorem holds_toList_iff {α : Type} {item : Json → Except Mismatch α} {items : List Json}
    {as : List α} :
    Presence.required.Holds (toList item) (some (.array items)) as ↔
      List.Forall₂ (fun json a => item json = .ok a) items as :=
  mapM_eq_ok_iff

/-! ### All fields -/

/-- A member that no field is named after is ignored. -/
theorem Fields.fill_of_not_mem {origin : Origin} {key : String} (json : Json) :
    (fields : Fields) → (slots : fields.Slots) → key ∉ fields.names →
    fields.fill origin slots key json = .ok slots
  | .nil, _, _ => rfl
  | .cons name presence shape rest, (slot, more), h => by
      obtain ⟨hname, hrest⟩ := not_or.mp (mt List.mem_cons.mpr h)
      exact fill_of_ne slot hname (rest.fill_of_not_mem json more hrest)

/-- The slots after one more member. -/
def Fields.fillMember (origin : Origin) (fields : Fields) (slots : fields.Slots)
    (member : String × Json) : Except Mismatch fields.Slots :=
  fields.fill origin slots member.1 member.2

section

variable {origin : Origin} {name : String} {presence : Presence} {shape : Shape} {rest : Fields}

/-- The first field takes a member or leaves it, whatever the others do with it. -/
theorem Fields.fillMember_cons (hname : name ∉ rest.names) :
    (Fields.cons name presence shape rest).fillMember origin = fun slots member => do
      return (← fillSlot name (presence.ofJson (shape.ofJson origin)) slots.1 member,
        ← rest.fillMember origin slots.2 member) := by
  funext ⟨slot, more⟩ ⟨key, json⟩
  by_cases hkey : key = name
  · subst hkey
    have hmore : rest.fillMember origin more (key, json) = .ok more :=
      rest.fill_of_not_mem json more hname
    cases slot with
    | some value =>
        simp only [fillSlot, fillMember, fill, if_true]
        rfl
    | none =>
        simp only [fillSlot, if_true, hmore]
        simp only [fillMember, fill]
        cases presence.ofJson (shape.ofJson origin) json <;> rfl
  · have hslot :
        fillSlot name (presence.ofJson (shape.ofJson origin)) slot (key, json) = .ok slot :=
      if_neg hkey
    simp only [hslot]
    exact if_neg hkey

/-- One pass over the members fills the slot of the first field and, apart from it, those of the
others. -/
theorem Fields.foldlM_fillMember_cons_eq_ok_iff (hname : name ∉ rest.names)
    {members : List (String × Json)} {slot slot' : Option (presence.Data shape.Data)}
    {more more' : rest.Slots} :
    members.foldlM ((Fields.cons name presence shape rest).fillMember origin) (slot, more) =
        .ok (slot', more') ↔
      members.foldlM (fillSlot name (presence.ofJson (shape.ofJson origin))) slot = .ok slot' ∧
        members.foldlM (rest.fillMember origin) more = .ok more' := by
  rw [fillMember_cons hname]
  exact foldlM_pair_eq_ok_iff

end

/-- What all fields hold after an object, given its members. -/
def Fields.Hold (origin : Origin) (members : List (String × Json)) :
    (fields : Fields) → fields.Data → Prop
  | .nil, _ => True
  | .cons name presence shape rest, (value, more) =>
    presence.Holds (shape.ofJson origin) (members.lookup name) value ∧
      rest.Hold origin members more

theorem Fields.hold_text_cons {origin : Origin} {name : String} {rest : Fields}
    {members : List (String × Json)} {text : String} {more : rest.Data} :
    (Fields.cons name .required .string rest).Hold origin members (text, more) ↔
      members.lookup name = some (.string text) ∧ rest.Hold origin members more :=
  and_congr_left' holds_toText_iff

section

variable {origin : Origin} {name : String} {lenient quiet : Bool} {rest : Fields}
  {members : List (String × Json)} {more : rest.Data}

theorem Fields.hold_optional_text_cons {text : Option String} :
    (Fields.cons name (.optional lenient quiet) .string rest).Hold origin members (text, more) ↔
      Optionally .string (members.lookup name) text ∧ rest.Hold origin members more :=
  and_congr_left' (holds_optional_iff toText_eq_ok_iff (by simp))

theorem Fields.hold_optional_word_cons {n : Option UInt32} :
    (Fields.cons name (.optional lenient quiet) .word rest).Hold origin members (n, more) ↔
      Optionally ofWord (members.lookup name) n ∧ rest.Hold origin members more :=
  and_congr_left' (holds_optional_iff toWord_eq_ok_iff (by simp [ofWord]))

end

theorem Fields.finish_cons_eq_ok_iff {name : String} {presence : Presence} {shape : Shape}
    {rest : Fields} {slot : Option (presence.Data shape.Data)} {more : rest.Slots}
    {value : presence.Data shape.Data} {data : rest.Data} :
    (Fields.cons name presence shape rest).finish (slot, more) = .ok (value, data) ↔
      slot.or presence.absent? = some value ∧ rest.finish more = .ok data := by
  rw [finish]
  cases slot.or presence.absent? with
  | none => simp
  | some held =>
      show (rest.finish more >>= fun more => .ok (held, more)) = .ok (value, data) ↔ _
      rw [bind_eq_ok]
      constructor
      · intro h
        obtain ⟨finished, hrest, h⟩ := h
        cases h
        exact ⟨rfl, hrest⟩
      · intro h
        obtain ⟨h, hrest⟩ := h
        cases h
        exact ⟨data, hrest, rfl⟩

/-- The members of an object make up the record of what its fields hold. -/
theorem Fields.finish_foldlM_iff_hold {origin : Origin} {members : List (String × Json)}
    (hkeys : (members.map Prod.fst).Nodup) : (fields : Fields) → fields.names.Nodup →
    (data : fields.Data) →
    ((∃ slots, members.foldlM (fields.fillMember origin) fields.unfilled = .ok slots ∧
        fields.finish slots = .ok data) ↔
      fields.Hold origin members data)
  | .nil, _, () => by
      have hfold (slots : Fields.nil.Slots) :
          members.foldlM (Fields.nil.fillMember origin) slots = .ok slots := by
        induction members with
        | nil => rfl
        | cons member members ih => exact ih (List.nodup_cons.mp hkeys).2
      exact ⟨fun _ => trivial, fun _ => ⟨(), hfold (), rfl⟩⟩
  | .cons name presence shape rest, hnames, (value, data) => by
      obtain ⟨hname, hrest⟩ := List.nodup_cons.mp hnames
      have hslot : (∃ slot, members.foldlM
          (fillSlot name (presence.ofJson (shape.ofJson origin))) none = .ok slot ∧
            slot.or presence.absent? = some value) ↔
          presence.Holds (shape.ofJson origin) (members.lookup name) value := by
        simp only [foldlM_fillSlot_eq_ok_iff hkeys]
        cases members.lookup name with
        | none => simp [Presence.Holds]
        | some json => simp [Presence.Holds]
      rw [Hold, ← hslot, ← rest.finish_foldlM_iff_hold hkeys hrest data]
      constructor
      · rintro ⟨⟨slot, more⟩, hfold, hfinish⟩
        obtain ⟨hfirst, hmore⟩ := (foldlM_fillMember_cons_eq_ok_iff hname).mp hfold
        obtain ⟨hvalue, hdata⟩ := finish_cons_eq_ok_iff.mp hfinish
        exact ⟨⟨slot, hfirst, hvalue⟩, more, hmore, hdata⟩
      · rintro ⟨⟨slot, hfirst, hvalue⟩, more, hmore, hdata⟩
        exact ⟨(slot, more), (foldlM_fillMember_cons_eq_ok_iff hname).mpr ⟨hfirst, hmore⟩,
          finish_cons_eq_ok_iff.mpr ⟨hvalue, hdata⟩⟩

/-- **An object without repeated keys is decoded to the record of what its fields hold.** -/
theorem Shape.ofJson_object_eq_ok_iff {origin : Origin} {title : String} {fields : Fields}
    (hnames : fields.names.Nodup) {members : List (String × Json)}
    (hkeys : (members.map Prod.fst).Nodup) {data : fields.Data} :
    (Shape.record title fields).ofJson origin (.object members) = .ok data ↔
      fields.Hold origin members data := by
  rw [← fields.finish_foldlM_iff_hold hkeys hnames data, ← bind_eq_ok]
  exact Iff.rfl

theorem unplaced_eq_ok_iff {α : Type} {made : Except Mismatch α} {a : α} :
    unplaced made = .ok a ↔ made = .ok a := by
  cases made with
  | error cause => simp [unplaced]
  | ok b => simp [unplaced]

/-- A type with a shape is decoded as its shape is. -/
theorem ofJson_eq_ok_iff {α : Type} [Record α] {value : Json} {a : α} :
    (Codec.ofJson value : Except DecodeError α) = .ok a ↔
      ∃ data, (Record.shape α).ofJson .whole value = .ok data ∧ Record.unpack data = a := by
  show Record.unpack <$> unplaced ((Record.shape α).ofJson .whole value) = .ok a ↔ _
  simp only [map_eq_ok, unplaced_eq_ok_iff]

end Wire

end WorkspaceControl
