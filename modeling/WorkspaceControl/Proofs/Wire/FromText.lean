import WorkspaceControl.Proofs.Wire.FromTree

/-!
# Records come back from text

A sound shape is read from the text of the value that it is written as to the same data
(`Shape.reads_encode`), in whatever order the members of objects were written and whatever follows.
-/

namespace WorkspaceControl.Wire

open Json Brackets

/-! ### Parts of values -/

theorem reads_readScalar {α : Type} {due : Expected} {check : Json → Except Mismatch α}
    {value : Json} {a : α}
    (hhead : ∀ rest, Number.Ends rest → readHead (value.write rest) = .ok (.scalar value, rest))
    (hcheck : check value = .ok a) : Reads (readScalar due check) value a := by
  intro rest hrest
  simp only [readScalar, hhead rest hrest, bind, Except.bind, settle, hcheck]

theorem reads_readText (s : String) : Reads readText (.string s) s :=
  reads_readScalar (fun rest _ => readHead_string s rest) rfl

theorem reads_readChoice {variants : List String} (h : variants.Nodup)
    (i : Fin variants.length) : Reads (readChoice variants) (.string (variants.get i)) i := by
  intro rest hrest
  have hread : Reads (readVariant variants) (.string (variants.get i)) i :=
    reads_readScalar (fun rest _ => readHead_string _ rest) (toVariant_get h i)
  have hblanks := skipBlanks_write (.string (variants.get i)) rest
  rw [readChoice, hblanks]
  exact hread rest hrest

/-- A list is read whose items are. -/
theorem reads_readListOf {α : Type} {value : α → Json} {reader : Reader α}
    (hint : ∀ a, (value a).Integral)
    (hreads : ∀ a other, Reordered (value a) other → Reads reader other a)
    {as : List α} {other : Json} (hother : Reordered (.array (as.map value)) other) :
    Reads (readListOf reader) other as := by
  intro rest _
  cases hother with
  | @array _ items hitems =>
      have hintegral : ∀ item ∈ items, item.Integral := by
        intro item hitem
        obtain ⟨source, hsource, hsame⟩ := exists_item_of_reordered hitems hitem
        obtain ⟨a, -, rfl⟩ := List.mem_map.mp hsource
        exact (hint a).reordered hsame
      have hforall : List.Forall₂ (Reads reader) items as :=
        (List.forall₂_map_left_iff.mp hitems).flip.imp fun other a hsame => hreads a other hsame
      obtain ⟨body, hwrite, hread⟩ := readList_write hforall hintegral rest
      have hblank : isBlank '[' = false := by decide
      rw [hwrite, readListOf, skipBlanks_cons hblank]
      exact hread

theorem reads_readDictionary {d : Dictionary String} {other : Json}
    (h : Reordered (ofDictionary d) other) : Reads readDictionary other d := by
  have hintegral := (plain_ofDictionary d).integral.reordered h
  obtain ⟨members, rfl, hgathers⟩ := gathers_dictionary
    (Takes fun d key text => do
      let p ← colon text >>= readText
      return (d.insert key p.1, p.2)) (fun d key text rest hrest => by
        simp only [colon_cons, bind, Except.bind, reads_readText text rest hrest]
        rfl) h
  intro rest _
  cases hintegral with
  | object hmembers =>
      obtain ⟨body, hwrite, hread⟩ := readObject_write hgathers hmembers rest
      have hblank : isBlank '\x7b' = false := by decide
      rw [hwrite, readDictionary, skipBlanks_cons hblank]
      exact hread

/-- Whoever reads a value reads it as an optional one. -/
theorem reads_readOptional {α : Type} {reader : Reader α} {value : Json} {a : α}
    (h : Reads reader value a) (hint : value.Integral) (hne : value ≠ .null) :
    Reads (readOptional reader) value (some a) := by
  intro rest hrest
  obtain ⟨c, more, hwrite, -, -, hc⟩ := write_eq_cons hint rest
  have hread := h rest hrest
  rw [readOptional, skipBlanks_write hint rest]
  split
  · rename_i heq
    rw [hwrite] at heq
    exact absurd (List.cons.inj heq).1 (hc hne)
  · simp only [bind, Except.bind, hread]
    rfl

/-- What a field holds is read if the values it is about are. -/
theorem Presence.reads_encode {α : Type} {value : α → Json} {reader : Reader α}
    (hnull : ∀ a, value a ≠ .null) (hint : ∀ a, (value a).Integral)
    (hreads : ∀ a other, Reordered (value a) other → Reads reader other a)
    (presence : Presence) (data : presence.Data α) {json other : Json}
    (hjson : presence.encode value data = some json) (hother : Reordered json other) :
    Reads (presence.read reader) other data := by
  cases presence with
  | required =>
      cases hjson
      exact hreads data other hother
  | optional lenient quiet =>
      cases data with
      | none =>
          cases quiet with
          | true => cases hjson
          | false =>
              cases hjson
              cases hother
              exact fun rest _ => rfl
      | some a =>
          cases hjson
          exact reads_readOptional (hreads a other hother) ((hint a).reordered hother)
            (hother.ne_null (hnull a))
  | defaulted =>
      cases hjson
      exact reads_readListOf hint hreads hother

/-! ### Records -/

/-- A member is read into the empty slot of its name. -/
theorem Fields.takes_self {name : String} {presence : Presence} {shape : Shape}
    {rest : Fields} (more : rest.Slots) {json : Json} {value : presence.Data shape.Data}
    (h : Reads (presence.read shape.read) json value) :
    Takes (Fields.cons name presence shape rest).readMember (none, more) name json
      (some value, more) := by
  intro left hleft
  have hslot : readSlot name (presence.read shape.read) none (':' :: json.write left) =
      .ok (some value, left) := by
    simp only [readSlot, colon_cons, bind, Except.bind, h left hleft]
    rfl
  refine (if_pos rfl).trans ?_
  rw [hslot]
  rfl

/-- A member of another name is read where the other fields read it. -/
theorem Fields.takes_of_ne {name key : String} {presence : Presence}
    {shape : Shape} {rest : Fields} (slot : Option (presence.Data shape.Data))
    {more more' : rest.Slots} {json : Json} (hne : key ≠ name)
    (h : Takes rest.readMember more key json more') :
    Takes (Fields.cons name presence shape rest).readMember (slot, more) key json
      (slot, more') := by
  intro left hleft
  have hmore : rest.readMember more key (':' :: json.write left) = .ok (more', left) := h left hleft
  refine (if_neg hne).trans ?_
  rw [hmore]
  rfl

mutual

/-- **A sound shape is read from text to the data it was written for.** -/
theorem Shape.reads_encode : (shape : Shape) → shape.sound = true → (data : shape.Data) →
    ∀ other, Reordered (shape.encode data) other → Reads shape.read other data
  | .string, _, s, other, hother => by
      cases hother
      exact reads_readText s
  | .boolean, _, b, other, hother => by
      cases hother
      exact reads_readScalar (fun rest _ => readHead_boolean b rest) rfl
  | .word, _, n, other, hother => by
      cases hother
      exact reads_readScalar (fun rest hrest => readHead_integer _ _ hrest) (toWord_ofWord n)
  | .choice variants, h, i, other, hother => by
      cases hother
      exact reads_readChoice (of_decide_eq_true h) i
  | .list item, h, items, other, hother =>
      reads_readListOf (fun a => (item.plain_encode h a).integral) (item.reads_encode h) hother
  | .dictionary, _, d, other, hother => reads_readDictionary hother
  | .record title fields, h, data, other, hother => by
      have hintegral := (Shape.plain_encode (.record title fields) h data).integral.reordered hother
      intro rest _
      cases hother with
      | @object _ between members hbetween hperm =>
          obtain ⟨slots, hgathers, hfinish⟩ := Fields.gathers_reordered h
            (Takes fields.readMember) hbetween hperm (fields.takes_encode h data)
          cases hintegral with
          | object hmembers =>
              obtain ⟨body, hwrite, hread⟩ := readObject_write hgathers hmembers rest
              rw [hwrite]
              change (readObject fields.readMember fields.unfilled body >>= fun p =>
                settle (fields.finish p.1) p.2) = _
              rw [hread]
              change settle (fields.finish slots) rest = _
              rw [hfinish]
              rfl
termination_by structural shape => shape

/-- A member is read into the slot of its field. -/
theorem Fields.takes_encode : (fields : Fields) → fields.sound = true →
    (data : fields.Data) → ∀ key value other, (key, value) ∈ fields.encode data →
    Reordered value other → ∀ met, key ∉ met →
    Takes fields.readMember (fields.filled data met) key other (fields.filled data (key :: met))
  | .nil, _, _, _, _, _, hmember, _, _, _ => nomatch hmember
  | .cons name presence shape rest, h, (first, more), key, value, other, hmember, hother, met,
      hnew => by
      simp only [Fields.sound, Bool.and_eq_true, decide_eq_true_eq] at h
      obtain ⟨⟨hname, hshape⟩, hrest⟩ := h
      rw [Fields.encode_cons] at hmember
      rcases List.mem_append.mp hmember with hfirst | hmore
      · rw [Option.mem_toList, Option.map_eq_some_iff] at hfirst
        obtain ⟨json, hjson, heq⟩ := hfirst
        cases heq
        have hvalue := presence.reads_encode shape.encode_ne_null
          (fun a => (shape.plain_encode hshape a).integral) (shape.reads_encode hshape)
          first hjson hother
        rw [Fields.filled_of_new first more hnew, Fields.filled_self first more hname]
        exact Fields.takes_self (rest.filled more met) hvalue
      · have hkey : key ∈ rest.names :=
          (rest.keys_encode_sublist more).subset (List.mem_map_of_mem hmore)
        have hne : key ≠ name := fun heq => hname (heq ▸ hkey)
        have htakes := rest.takes_encode hrest more key value other hmore hother met hnew
        rw [Fields.filled_of_ne first more hne]
        exact Fields.takes_of_ne _ hne htakes
termination_by structural fields => fields

end

end WorkspaceControl.Wire
