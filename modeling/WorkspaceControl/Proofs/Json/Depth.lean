import WorkspaceControl.Proofs.Json.Written

/-!
# What is read is not too deep

The reader of values opens no more brackets than it has levels, so a value that a text was read to can
be written and read again, as far as depth goes (`within_ofText`). What holds of all items or members
that a reader makes holds of all that lists and objects are made of (`forall_readItems`,
`invariant_readMembers`).
-/

namespace WorkspaceControl.Json

open Brackets

variable {ε α β σ : Type}

/-- A sequence of steps succeeds if every step does. -/
theorem bind_eq_ok {made : Except ε α} {next : α → Except ε β} {b : β} :
    made >>= next = .ok b ↔ ∃ a, made = .ok a ∧ next a = .ok b := by
  cases made with
  | error e => exact ⟨nofun, nofun⟩
  | ok a => exact ⟨fun h => ⟨a, rfl, h⟩, fun ⟨_, ha, h⟩ => by cases ha; exact h⟩

/-- What holds of every item that a reader makes holds of all items of a list. -/
theorem forall_readItems {item : Reader α} {P : α → Prop}
    (hitem : ∀ text a rest, item text = .ok (a, rest) → P a) {fuel : Nat} {first : Bool}
    {text rest : List Char} {as : List α} (h : readItems item fuel first text = .ok (as, rest)) :
    ∀ a ∈ as, P a := by
  induction fuel generalizing first text as with
  | zero => cases h
  | succ fuel ih =>
      rw [readItems, bind_eq_ok] at h
      obtain ⟨next, -, h⟩ := h
      cases next with
      | closed left =>
          cases h
          exact List.forall_mem_nil _
      | item text =>
          obtain ⟨⟨a, left⟩, ha, h⟩ := bind_eq_ok.mp h
          obtain ⟨⟨more, left⟩, hmore, h⟩ := bind_eq_ok.mp h
          cases h
          exact List.forall_mem_cons.mpr ⟨hitem text a _ ha, ih hmore⟩

/-- What every member keeps is kept by all members of an object. -/
theorem invariant_readMembers {member : σ → String → Reader σ} {P : σ → Prop}
    (hmember : ∀ s key text s' rest, P s → member s key text = .ok (s', rest) → P s')
    {fuel : Nat} {first : Bool} {text rest : List Char} {s s' : σ} (hs : P s)
    (h : readMembers member fuel first s text = .ok (s', rest)) : P s' := by
  induction fuel generalizing first text s with
  | zero => cases h
  | succ fuel ih =>
      rw [readMembers, bind_eq_ok] at h
      obtain ⟨⟨key, left⟩, -, h⟩ := h
      cases key with
      | none =>
          cases h
          exact hs
      | some key =>
          obtain ⟨⟨s₁, left⟩, hfirst, h⟩ := bind_eq_ok.mp h
          exact ih (hmember s key _ s₁ left hs hfirst) h

/-- The scalars that a reader finds at the front of a value open no bracket. -/
theorem within_readHead {text rest : List Char} {value : Json}
    (h : readHead text = .ok (.scalar value, rest)) (levels : Nat) : Within levels value := by
  unfold readHead at h
  split at h
  case h_1 => cases h
  case h_2 =>
      obtain ⟨left, -, h⟩ := bind_eq_ok.mp h
      cases h
      exact .null levels
  case h_3 =>
      obtain ⟨left, -, h⟩ := bind_eq_ok.mp h
      cases h
      exact .boolean levels true
  case h_4 =>
      obtain ⟨left, -, h⟩ := bind_eq_ok.mp h
      cases h
      exact .boolean levels false
  case h_5 =>
      obtain ⟨⟨s, left⟩, -, h⟩ := bind_eq_ok.mp h
      cases h
      exact .string levels s
  case h_6 =>
      obtain ⟨⟨n, left⟩, -, h⟩ := bind_eq_ok.mp h
      cases h
      exact .number levels n
  case h_7 => cases h
  case h_8 => cases h
  case h_9 =>
      split at h
      · obtain ⟨⟨n, left⟩, -, h⟩ := bind_eq_ok.mp h
        cases h
        exact .number levels n
      · cases h

/-- **A value is read with no more brackets than the reader has levels.** -/
theorem within_readValue {levels : Nat} {text rest : List Char} {value : Json}
    (h : readValue levels text = .ok (value, rest)) : Within levels value := by
  induction levels generalizing text rest value with
  | zero =>
      obtain ⟨⟨head, left⟩, hhead, h⟩ := bind_eq_ok.mp h
      cases head with
      | scalar v =>
          cases h
          exact within_readHead hhead 0
      | list => cases h
      | object => cases h
  | succ levels ih =>
      obtain ⟨⟨head, left⟩, hhead, h⟩ := bind_eq_ok.mp h
      cases head with
      | scalar v =>
          cases h
          exact within_readHead hhead (levels + 1)
      | list =>
          obtain ⟨⟨items, left⟩, hitems, h⟩ := bind_eq_ok.mp h
          cases h
          exact .array (forall_readItems (fun _ _ _ => ih) hitems)
      | object =>
          obtain ⟨⟨members, left⟩, hmembers, h⟩ := bind_eq_ok.mp h
          cases h
          have hgathered : ∀ m ∈ members, Within levels m.2 := by
            refine invariant_readMembers (P := fun gathered => ∀ m ∈ gathered, Within levels m.2)
              (fun gathered key text gathered' rest hgathered hstep => ?_) nofun hmembers
            obtain ⟨⟨v, left⟩, hv, hstep⟩ := bind_eq_ok.mp hstep
            obtain ⟨_, -, hv⟩ := bind_eq_ok.mp hv
            cases hstep
            exact List.forall_mem_cons.mpr ⟨ih hv, hgathered⟩
          exact .object fun m hm => hgathered m (List.mem_reverse.mp hm)

/-- The value of a text is not too deep to be written and read again. -/
theorem within_ofText {text : String} {value : Json} (h : ofText text = .ok value) :
    Within deepest value := by
  unfold ofText at h
  cases hread : readWhole (readValue deepest) text.toList with
  | error fault =>
      rw [hread] at h
      cases h
  | ok read =>
      rw [hread] at h
      cases h
      obtain ⟨⟨_, left⟩, hvalue, hread⟩ := bind_eq_ok.mp hread
      obtain ⟨_, -, hread⟩ := bind_eq_ok.mp hread
      cases hread
      exact within_readValue hvalue

end WorkspaceControl.Json
