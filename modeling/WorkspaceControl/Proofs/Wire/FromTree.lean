import Mathlib.Data.List.Nodup
import WorkspaceControl.Proofs.Wire.Slots

/-!
# Records come back from values

A sound shape is decoded from the value that it is written as to the same data
(`Shape.ofJson_encode`), whatever the order of members in objects: neither the order of a record's
fields nor that of a dictionary's entries matters. It does not matter either whether the value is that
of a whole text or was set aside.
-/

namespace WorkspaceControl.Wire

open Json

/-! ### Parts of values -/

theorem toWord_ofWord (n : UInt32) : toWord (ofWord n) = .ok n := by
  have hn := n.toNat_lt
  rw [ofWord, Number.ofNat, toWord, if_pos (by omega)]
  simp

/-- The name of a choice leads to its position. -/
theorem toVariant_get {variants : List String} (h : variants.Nodup) (i : Fin variants.length) :
    toVariant variants (variants.get i) = .ok i := by
  have hi : variants.finIdxOf? (variants.get i) = some i := by
    rw [List.finIdxOf?_eq_some_iff]
    refine ⟨rfl, fun j hj heq => ?_⟩
    exact absurd (h.get_inj_iff.mp heq) (Fin.ne_of_lt hj)
  rw [toVariant, hi]

/-- Each name of a choice leads to its own position and to no other. -/
theorem toVariant_eq_ok_iff {variants : List String} (h : variants.Nodup) {name : String}
    {i : Fin variants.length} : toVariant variants name = .ok i ↔ name = variants.get i := by
  constructor
  · intro hname
    unfold toVariant at hname
    split at hname
    · rename_i found hfound
      cases hname
      exact (List.finIdxOf?_eq_some_iff.mp hfound).1.symm
    · cases hname
  · intro hname
    subst hname
    exact toVariant_get h i

theorem mapM_of_forall₂ {α β : Type} {f : β → Except Mismatch α} {bs : List β} {as : List α}
    (h : List.Forall₂ (fun b a => f b = .ok a) bs as) : bs.mapM f = .ok as := by
  induction h with
  | nil => rfl
  | cons hfirst _ ih =>
      simp only [List.mapM_cons, hfirst, ih]
      rfl

theorem foldlM_of_gathers {σ : Type} {f : σ → String × Json → Except Mismatch σ}
    {members : List (String × Json)} {s s' : σ}
    (h : Gathers (fun s key value s' => f s (key, value) = .ok s') s members s') :
    members.foldlM f s = .ok s' := by
  induction h with
  | nil => rfl
  | cons hfirst _ ih =>
      simp only [List.foldlM_cons, hfirst]
      exact ih

/-- A list comes back whose items do. -/
theorem toList_encode {α : Type} {value : α → Json} {decode : Json → Except Mismatch α}
    (h : ∀ a other, Reordered (value a) other → decode other = .ok a) {as : List α} {other : Json}
    (hother : Reordered (.array (as.map value)) other) : toList decode other = .ok as := by
  cases hother with
  | array hitems =>
      have hitems := List.forall₂_map_left_iff.mp hitems
      exact mapM_of_forall₂ (hitems.flip.imp fun other a hsame => h a other hsame)

theorem toDictionary_encode {d : Dictionary String} {other : Json}
    (h : Reordered (ofDictionary d) other) : toDictionary other = .ok d := by
  obtain ⟨members, rfl, hmembers⟩ := gathers_dictionary
    (fun d key value d' => (do return d.insert key (← toText value)) = Except.ok d')
    (fun _ _ _ => rfl) h
  exact foldlM_of_gathers hmembers

theorem toOptional_of_ne_null {α : Type} {decode : Json → Except Mismatch α} {value : Json}
    (h : value ≠ .null) : toOptional decode value = some <$> decode value := by
  cases value with
  | null => exact absurd rfl h
  | _ => rfl

/-- What a field holds comes back if the values it is about do. -/
theorem Presence.ofJson_encode {α : Type} {value : α → Json} {decode : Json → Except Mismatch α}
    (hnull : ∀ a, value a ≠ .null)
    (hdecode : ∀ a other, Reordered (value a) other → decode other = .ok a)
    (presence : Presence) (data : presence.Data α) {json other : Json}
    (hjson : presence.encode value data = some json) (hother : Reordered json other) :
    presence.ofJson decode other = .ok data := by
  cases presence with
  | required =>
      cases hjson
      exact hdecode data other hother
  | optional lenient quiet =>
      cases data with
      | none =>
          cases quiet with
          | true => cases hjson
          | false =>
              cases hjson
              cases hother
              rfl
      | some a =>
          cases hjson
          rw [ofJson, toOptional_of_ne_null (hother.ne_null (hnull a)), hdecode a other hother]
          rfl
  | defaulted =>
      cases hjson
      exact toList_encode hdecode hother

/-! ### Records -/

/-- A member is put into the empty slot of its name. -/
theorem Fields.fill_self {origin : Origin} {name : String} {presence : Presence} {shape : Shape}
    {rest : Fields} (more : rest.Slots) {json : Json} {value : presence.Data shape.Data}
    (h : presence.ofJson (shape.ofJson origin) json = .ok value) :
    (Fields.cons name presence shape rest).fill origin (none, more) name json =
      .ok (some value, more) := by
  rw [fill]
  simp only [h]
  rfl

/-- A member of another name is put where the other fields put it. -/
theorem Fields.fill_of_ne {origin : Origin} {name key : String} {presence : Presence}
    {shape : Shape} {rest : Fields} (slot : Option (presence.Data shape.Data))
    {more more' : rest.Slots} {json : Json} (hne : key ≠ name)
    (h : rest.fill origin more key json = .ok more') :
    (Fields.cons name presence shape rest).fill origin (slot, more) key json =
      .ok (slot, more') := by
  have hmore : (do return (slot, ← rest.fill origin more key json)) = Except.ok (slot, more') := by
    rw [h]
    rfl
  exact (if_neg hne).trans hmore

mutual

/-- **A sound shape is decoded to the data it was written for.** -/
theorem Shape.ofJson_encode (origin : Origin) : (shape : Shape) → shape.sound = true →
    (data : shape.Data) → ∀ other, Reordered (shape.encode data) other →
    shape.ofJson origin other = .ok data
  | .string, _, s, other, hother => by
      cases hother
      rfl
  | .boolean, _, b, other, hother => by
      cases hother
      rfl
  | .word, _, n, other, hother => by
      cases hother
      exact toWord_ofWord n
  | .choice variants, h, i, other, hother => by
      cases hother
      exact toVariant_get (of_decide_eq_true h) i
  | .list item, h, items, other, hother =>
      toList_encode (item.ofJson_encode origin h) hother
  | .dictionary, _, d, other, hother => toDictionary_encode hother
  | .record _ fields, h, data, other, hother => by
      cases hother with
      | @object _ between members hbetween hperm =>
          obtain ⟨slots, hgathers, hfinish⟩ := Fields.gathers_reordered h
            (fun slots key value slots' => fields.fill origin slots key value = .ok slots')
            hbetween hperm (fields.fill_encode origin h data)
          have hslots : members.foldlM (fun slots (key, value) => fields.fill origin slots key value)
              fields.unfilled = .ok slots := foldlM_of_gathers hgathers
          change members.foldlM (fun slots (key, value) => fields.fill origin slots key value)
              fields.unfilled >>= fields.finish = .ok data
          rw [hslots]
          exact hfinish
termination_by structural shape => shape

/-- A member is put into the slot of its field. -/
theorem Fields.fill_encode (origin : Origin) : (fields : Fields) → fields.sound = true →
    (data : fields.Data) → ∀ key value other, (key, value) ∈ fields.encode data →
    Reordered value other → ∀ met, key ∉ met →
    fields.fill origin (fields.filled data met) key other = .ok (fields.filled data (key :: met))
  | .nil, _, _, _, _, _, hmember, _, _, _ => nomatch hmember
  | .cons name presence shape rest, h, (first, more), key, value, other, hmember, hother, met,
      hnew => by
      simp only [Fields.sound, Bool.and_eq_true, decide_eq_true_eq] at h
      obtain ⟨⟨hname, hshape⟩, hrest⟩ := h
      rw [Fields.encode_cons] at hmember
      rcases List.mem_append.mp hmember with hfirst | hmore
      · rw [Option.mem_toList, Option.map_eq_some_iff] at hfirst
        obtain ⟨json, hjson, heq⟩ := hfirst
        cases heq
        have hvalue := presence.ofJson_encode shape.encode_ne_null (shape.ofJson_encode origin hshape)
          first hjson hother
        rw [Fields.filled_of_new first more hnew, Fields.filled_self first more hname]
        exact Fields.fill_self (rest.filled more met) hvalue
      · have hkey : key ∈ rest.names :=
          (rest.keys_encode_sublist more).subset (List.mem_map_of_mem hmore)
        have hne : key ≠ name := fun heq => hname (heq ▸ hkey)
        have hfill := rest.fill_encode origin hrest more key value other hmore hother met hnew
        rw [Fields.filled_of_ne first more hne]
        exact Fields.fill_of_ne _ hne hfill
termination_by structural fields => fields

end

end WorkspaceControl.Wire
