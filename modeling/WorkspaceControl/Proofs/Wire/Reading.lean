import WorkspaceControl.Proofs.Wire.Members

/-!
# Reading and decoding

Straight from text, a value is decoded while it is read. A reader that leaves out nothing of the text
makes the same of it as a decoder makes of the value at its front (`Decodes`): both succeed or both
fail, and with the same result. Lists are read like this if their items are (`decodes_readListOf`),
and the members of an object if each of them is read where a decoder would take its value
(`readObject_eq_ok_iff`).

Nothing is said about faults. A reader meets them in the order of the text, and a decoder only once the
whole value has been read.
-/

namespace WorkspaceControl

namespace Json

open Brackets

variable {levels : Nat} {text rest : List Char}

/-! ### What stands at the front of a value -/

/-- A front that is not a scalar is the bracket that stands there. -/
theorem readHead_cases {head : Head} (h : readHead text = .ok (head, rest)) :
    (∃ value, head = .scalar value) ∨ (head = .list ∧ skipBlanks text = '[' :: rest) ∨
      (head = .object ∧ skipBlanks text = '\x7b' :: rest) := by
  unfold readHead at h
  split at h
  case h_1 => cases h
  case h_7 heq =>
      cases h
      exact .inr (.inl ⟨rfl, heq⟩)
  case h_8 heq =>
      cases h
      exact .inr (.inr ⟨rfl, heq⟩)
  case h_9 =>
      split at h
      · obtain ⟨_, -, h⟩ := bind_eq_ok.mp h
        cases h
        exact .inl ⟨_, rfl⟩
      · cases h
  -- The words, strings and negative numbers are read on before they are handed back.
  all_goals
    obtain ⟨_, -, h⟩ := bind_eq_ok.mp h
    cases h
    exact .inl ⟨_, rfl⟩

theorem readHead_eq_list_iff :
    readHead text = .ok (.list, rest) ↔ skipBlanks text = '[' :: rest := by
  constructor
  · intro h
    rcases readHead_cases h with hscalar | hlist | hobject
    · cases hscalar.choose_spec
    · exact hlist.2
    · cases hobject.1
  · intro h
    rw [readHead, h]
    rfl

theorem readHead_eq_object_iff :
    readHead text = .ok (.object, rest) ↔ skipBlanks text = '\x7b' :: rest := by
  constructor
  · intro h
    rcases readHead_cases h with hscalar | hlist | hobject
    · cases hscalar.choose_spec
    · cases hlist.1
    · exact hobject.2
  · intro h
    rw [readHead, h]
    rfl

/-- What is read is the scalar at the front of the text, if it is not a list or an object. -/
theorem readValue_cases {value : Json} (h : readValue levels text = .ok (value, rest)) :
    readHead text = .ok (.scalar value, rest) ∨ (∃ items, value = .array items) ∨
      ∃ members, value = .object members := by
  cases levels with
  | zero =>
      obtain ⟨⟨head, left⟩, hhead, h⟩ := bind_eq_ok.mp h
      cases head with
      | scalar v =>
          cases h
          exact .inl hhead
      | list => cases h
      | object => cases h
  | succ levels =>
      obtain ⟨⟨head, left⟩, hhead, h⟩ := bind_eq_ok.mp h
      cases head with
      | scalar v =>
          cases h
          exact .inl hhead
      | list =>
          obtain ⟨_, -, h⟩ := bind_eq_ok.mp h
          cases h
          exact .inr (.inl ⟨_, rfl⟩)
      | object =>
          obtain ⟨_, -, h⟩ := bind_eq_ok.mp h
          cases h
          exact .inr (.inr ⟨_, rfl⟩)

/-- An array is read where an opening bracket stands, item by item. -/
theorem readValue_eq_array_iff {items : List Json} :
    readValue (levels + 1) text = .ok (.array items, rest) ↔
      ∃ body, skipBlanks text = '[' :: body ∧
        readList (readValue levels) body = .ok (items, rest) := by
  simp only [← readHead_eq_list_iff]
  constructor
  · intro h
    obtain ⟨⟨head, body⟩, hhead, h⟩ := bind_eq_ok.mp h
    cases head with
    | scalar v =>
        cases h
        cases within_readHead hhead 0
    | list =>
        obtain ⟨⟨items, left⟩, hitems, h⟩ := bind_eq_ok.mp h
        cases h
        exact ⟨body, hhead, hitems⟩
    | object =>
        obtain ⟨_, -, h⟩ := bind_eq_ok.mp h
        cases h
  · intro h
    obtain ⟨body, hhead, hitems⟩ := h
    exact bind_eq_ok.mpr ⟨_, hhead, bind_eq_ok.mpr ⟨_, hitems, rfl⟩⟩

/-- An object is read where an opening brace stands, its members gathered one by one. -/
theorem readValue_eq_object_iff {members : List (String × Json)} :
    readValue (levels + 1) text = .ok (.object members, rest) ↔
      ∃ body, skipBlanks text = '\x7b' :: body ∧
        readObject (gatherMember levels) [] body = .ok (members.reverse, rest) := by
  simp only [← readHead_eq_object_iff]
  constructor
  · intro h
    obtain ⟨⟨head, body⟩, hhead, h⟩ := bind_eq_ok.mp h
    cases head with
    | scalar v =>
        cases h
        cases within_readHead hhead 0
    | list =>
        obtain ⟨_, -, h⟩ := bind_eq_ok.mp h
        cases h
    | object =>
        obtain ⟨⟨gathered, left⟩, hmembers, h⟩ := bind_eq_ok.mp h
        cases h
        rw [List.reverse_reverse]
        exact ⟨body, hhead, hmembers⟩
  · intro h
    obtain ⟨body, hhead, hmembers⟩ := h
    have hsame : (.ok (.object members.reverse.reverse, rest) : Except Fault (Json × List Char)) =
        .ok (.object members, rest) := by rw [List.reverse_reverse]
    exact bind_eq_ok.mpr ⟨_, hhead, bind_eq_ok.mpr ⟨_, hmembers, hsame⟩⟩

end Json

namespace Wire

open Json Brackets

variable {α σ : Type} {levels : Nat} {text rest : List Char}

/-- A reader succeeds where a decoder does with the value at the front of the text, read with so many
levels, and makes the same of it. -/
def Decodes (levels : Nat) (decode : Json → Except Mismatch α) (reader : Reader α) : Prop :=
  ∀ text a rest, reader text = .ok (a, rest) ↔
    ∃ value, readValue levels text = .ok (value, rest) ∧ decode value = .ok a

/-- What stands behind a colon is read as it is decoded. -/
theorem Decodes.colon_bind_eq_ok_iff {decode : Json → Except Mismatch α} {reader : Reader α}
    (h : Decodes levels decode reader) {a : α} :
    colon text >>= reader = .ok (a, rest) ↔
      ∃ value, colon text >>= readValue levels = .ok (value, rest) ∧ decode value = .ok a := by
  simp only [bind_eq_ok]
  constructor
  · intro hread
    obtain ⟨body, hcolon, hbody⟩ := hread
    obtain ⟨value, hvalue, hdecode⟩ := (h body a rest).mp hbody
    exact ⟨value, ⟨body, hcolon, hvalue⟩, hdecode⟩
  · intro hread
    obtain ⟨value, ⟨body, hcolon, hvalue⟩, hdecode⟩ := hread
    exact ⟨body, hcolon, (h body a rest).mpr ⟨value, hvalue, hdecode⟩⟩

/-! ### Scalars -/

theorem refuse_ne_ok {due : Expected} {read : α × List Char} : refuse due text ≠ .ok read := by
  intro h
  obtain ⟨⟨head, left⟩, -, h⟩ := bind_eq_ok.mp h
  cases head with
  | scalar value => cases h
  | list => cases h
  | object => cases h

theorem settle_eq_ok_iff {made : Except Mismatch α} {left : List Char} {a : α} :
    settle made left = .ok (a, rest) ↔ made = .ok a ∧ left = rest := by
  cases made with
  | error cause => simp [settle]
  | ok b => simp [settle]

/-- A check that takes scalars only can be made as soon as the front of a value has been read. -/
theorem decodes_readScalar {due : Expected} {check : Json → Except Mismatch α}
    (hlist : ∀ items a, check (.array items) ≠ .ok a)
    (hobject : ∀ members a, check (.object members) ≠ .ok a) (levels : Nat) :
    Decodes levels check (readScalar due check) := by
  intro text a rest
  constructor
  · intro h
    obtain ⟨⟨head, left⟩, hhead, h⟩ := bind_eq_ok.mp h
    cases head with
    | scalar value =>
        obtain ⟨hcheck, rfl⟩ := settle_eq_ok_iff.mp h
        exact ⟨value, readValue_of_scalar hhead levels, hcheck⟩
    | list => exact absurd h refuse_ne_ok
    | object => exact absurd h refuse_ne_ok
  · intro h
    obtain ⟨value, hvalue, hcheck⟩ := h
    rcases readValue_cases hvalue with hhead | ⟨items, rfl⟩ | ⟨members, rfl⟩
    · exact bind_eq_ok.mpr ⟨_, hhead, settle_eq_ok_iff.mpr ⟨hcheck, rfl⟩⟩
    · exact absurd hcheck (hlist items a)
    · exact absurd hcheck (hobject members a)

theorem decodes_readText (levels : Nat) : Decodes levels toText readText :=
  decodes_readScalar (by simp [toText]) (by simp [toText]) levels

/-! ### Lists -/

theorem readListOf_eq_ok_iff {item : Reader α} {as : List α} :
    readListOf item text = .ok (as, rest) ↔
      ∃ body, skipBlanks text = '[' :: body ∧ readList item body = .ok (as, rest) := by
  unfold readListOf
  split
  · rename_i body heq
    simp [heq]
  · rename_i hne
    constructor
    · intro h
      exact absurd h refuse_ne_ok
    · intro h
      obtain ⟨body, heq, -⟩ := h
      exact absurd heq (hne body)

/-- Items are read one by one to what their values are decoded to one by one. -/
theorem readItems_eq_ok_iff {decode : Json → Except Mismatch α} {item : Reader α}
    (hitem : Decodes levels decode item) {fuel : Nat} {first : Bool} {as : List α} :
    readItems item fuel first text = .ok (as, rest) ↔
      ∃ items, readItems (readValue levels) fuel first text = .ok (items, rest) ∧
        items.mapM decode = .ok as := by
  induction fuel generalizing first text as with
  | zero => simp [readItems]
  | succ fuel ih =>
      simp only [readItems, bind_eq_ok]
      constructor
      · intro h
        obtain ⟨next, hnext, h⟩ := h
        cases next with
        | closed left =>
            cases h
            exact ⟨[], ⟨_, hnext, rfl⟩, rfl⟩
        | item text =>
            obtain ⟨⟨a, left⟩, ha, h⟩ := bind_eq_ok.mp h
            obtain ⟨⟨more, left⟩, hmore, h⟩ := bind_eq_ok.mp h
            cases h
            obtain ⟨value, hvalue, hdecode⟩ := (hitem text a _).mp ha
            obtain ⟨items, hitems, hdecodes⟩ := ih.mp hmore
            refine ⟨value :: items, ⟨_, hnext, ?_⟩, ?_⟩
            · exact bind_eq_ok.mpr ⟨_, hvalue, bind_eq_ok.mpr ⟨_, hitems, rfl⟩⟩
            · rw [List.mapM_cons, hdecode, hdecodes]
              rfl
      · intro h
        obtain ⟨items, ⟨next, hnext, h⟩, hdecodes⟩ := h
        cases next with
        | closed left =>
            cases h
            cases hdecodes
            exact ⟨_, hnext, rfl⟩
        | item text =>
            obtain ⟨⟨value, left⟩, hvalue, h⟩ := bind_eq_ok.mp h
            obtain ⟨⟨items, left⟩, hitems, h⟩ := bind_eq_ok.mp h
            cases h
            rw [List.mapM_cons] at hdecodes
            obtain ⟨a, hdecode, hdecodes⟩ := bind_eq_ok.mp hdecodes
            obtain ⟨more, hmore, hdecodes⟩ := bind_eq_ok.mp hdecodes
            cases hdecodes
            exact ⟨_, hnext, bind_eq_ok.mpr ⟨_, (hitem text a _).mpr ⟨value, hvalue, hdecode⟩,
              bind_eq_ok.mpr ⟨_, ih.mpr ⟨items, hitems, hmore⟩, rfl⟩⟩⟩

/-- A list is read as it is decoded if its items are. -/
theorem decodes_readListOf {decode : Json → Except Mismatch α} {item : Reader α}
    (hitem : Decodes levels decode item) :
    Decodes (levels + 1) (toList decode) (readListOf item) := by
  intro text as rest
  simp only [readListOf_eq_ok_iff, readList, readItems_eq_ok_iff hitem, toList_eq_ok_iff]
  constructor
  · intro h
    obtain ⟨body, hopen, items, hitems, hdecodes⟩ := h
    exact ⟨_, readValue_eq_array_iff.mpr ⟨body, hopen, hitems⟩, items, rfl, hdecodes⟩
  · intro h
    obtain ⟨_, hvalue, items, rfl, hdecodes⟩ := h
    obtain ⟨body, hopen, hitems⟩ := readValue_eq_array_iff.mp hvalue
    exact ⟨body, hopen, items, hitems, hdecodes⟩

/-! ### Members -/

/-- Members that are gathered come before what has been gathered already. -/
theorem suffix_of_readMembers {fuel : Nat} {first : Bool} {gathered all : List (String × Json)}
    (h : readMembers (gatherMember levels) fuel first gathered text = .ok (all, rest)) :
    gathered <:+ all := by
  refine invariant_readMembers (P := fun later => gathered <:+ later)
    (fun later key text next left hlater hstep => ?_) (List.suffix_refl gathered) h
  obtain ⟨_, -, hstep⟩ := bind_eq_ok.mp hstep
  cases hstep
  exact hlater.trans (List.suffix_cons _ _)

/-- Members are read one by one to what is made of them one by one. -/
theorem readMembers_eq_ok_iff {member : σ → String → Reader σ}
    {fill : σ → String × Json → Except Mismatch σ}
    (hmember : ∀ s key text s' rest, member s key text = .ok (s', rest) ↔
      ∃ value, colon text >>= readValue levels = .ok (value, rest) ∧ fill s (key, value) = .ok s')
    {fuel : Nat} {first : Bool} {s s' : σ} (gathered : List (String × Json)) :
    readMembers member fuel first s text = .ok (s', rest) ↔
      ∃ members : List (String × Json),
        readMembers (gatherMember levels) fuel first gathered text =
          .ok (members.reverse ++ gathered, rest) ∧
        members.foldlM fill s = .ok s' := by
  induction fuel generalizing first s text gathered with
  | zero => simp [readMembers]
  | succ fuel ih =>
      simp only [readMembers, bind_eq_ok]
      constructor
      · intro h
        obtain ⟨⟨key, left⟩, hkey, h⟩ := h
        cases key with
        | none =>
            cases h
            exact ⟨[], ⟨_, hkey, rfl⟩, rfl⟩
        | some key =>
            obtain ⟨⟨s₁, left⟩, hfirst, hrest⟩ := bind_eq_ok.mp h
            obtain ⟨value, hvalue, hfill⟩ := (hmember s key _ s₁ left).mp hfirst
            obtain ⟨members, hmembers, hfold⟩ := (ih ((key, value) :: gathered)).mp hrest
            refine ⟨(key, value) :: members, ⟨_, hkey, ?_⟩, ?_⟩
            · rw [List.reverse_cons, List.append_assoc, List.singleton_append]
              exact bind_eq_ok.mpr ⟨_, bind_eq_ok.mpr ⟨_, hvalue, rfl⟩, hmembers⟩
            · rw [List.foldlM_cons, hfill]
              exact hfold
      · intro h
        obtain ⟨members, ⟨⟨key, left⟩, hkey, h⟩, hfold⟩ := h
        cases key with
        | none =>
            obtain ⟨hnone, rfl⟩ := Prod.mk.inj (Except.ok.inj h)
            have hempty : members = [] := by simpa using hnone
            subst hempty
            cases hfold
            exact ⟨_, hkey, rfl⟩
        | some key =>
            obtain ⟨⟨later, left⟩, hfirst, hrest⟩ := bind_eq_ok.mp h
            obtain ⟨⟨value, left⟩, hvalue, hfirst⟩ := bind_eq_ok.mp hfirst
            cases hfirst
            -- The last of the members in this order is the one just gathered.
            obtain ⟨more, hmore⟩ := suffix_of_readMembers hrest
            obtain rfl : members = (key, value) :: more.reverse := by
              have hsame : more ++ [(key, value)] = members.reverse :=
                List.append_cancel_right (by simpa using hmore)
              rw [← List.reverse_reverse members, ← hsame]
              simp
            rw [List.foldlM_cons] at hfold
            obtain ⟨s₁, hfill, hfold⟩ := bind_eq_ok.mp hfold
            refine ⟨_, hkey, bind_eq_ok.mpr
              ⟨_, (hmember s key _ s₁ left).mpr ⟨value, hvalue, hfill⟩, ?_⟩⟩
            refine (ih ((key, value) :: gathered)).mpr ⟨more.reverse, ?_, hfold⟩
            simpa using hrest

/-- An object is read to what is made of its members one by one. -/
theorem readObject_eq_ok_iff {member : σ → String → Reader σ}
    {fill : σ → String × Json → Except Mismatch σ}
    (hmember : ∀ s key text s' rest, member s key text = .ok (s', rest) ↔
      ∃ value, colon text >>= readValue levels = .ok (value, rest) ∧ fill s (key, value) = .ok s')
    {s s' : σ} :
    readObject member s text = .ok (s', rest) ↔
      ∃ members : List (String × Json),
        readObject (gatherMember levels) [] text = .ok (members.reverse, rest) ∧
        members.foldlM fill s = .ok s' := by
  rw [readObject, readMembers_eq_ok_iff hmember []]
  simp only [List.append_nil]
  rfl

/-! ### Whole texts -/

theorem placed_eq_ok_iff {made : Except Fault α} {a : α} :
    placed text made = .ok a ↔ made = .ok a := by
  cases made with
  | error fault => simp [placed]
  | ok b => simp [placed]

/-- A whole text is read to what the value of the text is decoded to. -/
theorem Decodes.placed_readWhole_eq_ok_iff {decode : Json → Except Mismatch α} {reader : Reader α}
    (h : Decodes deepest decode reader) {text : String} {a : α} :
    placed text.toList (readWhole reader text.toList) = .ok a ↔
      ∃ value, ofText text = .ok value ∧ decode value = .ok a := by
  simp only [ofText, placed_eq_ok_iff, readWhole, bind_eq_ok]
  constructor
  · intro hread
    obtain ⟨⟨a, rest⟩, hread, ended, hended, hdone⟩ := hread
    cases hdone
    obtain ⟨value, hvalue, hdecode⟩ := (h _ a rest).mp hread
    exact ⟨value, ⟨_, hvalue, ended, hended, rfl⟩, hdecode⟩
  · intro hread
    obtain ⟨_, ⟨⟨value, rest⟩, hvalue, ended, hended, hdone⟩, hdecode⟩ := hread
    cases hdone
    exact ⟨_, (h _ a rest).mpr ⟨value, hvalue, hdecode⟩, ended, hended, rfl⟩

end Wire

end WorkspaceControl
