import Mathlib.Data.List.Forall2
import WorkspaceControl.Json.Printer
import WorkspaceControl.Json.Reader
import WorkspaceControl.Proofs.Json.Numerals

/-!
# Values that are written read back

What a reader makes of a value does not depend on what is written behind it, as long as that does not
go on with a number (`Reads`). Lists and objects are read by readers of what is in them, so whoever
knows what a reader makes of the items and the members knows what it makes of the whole
(`readList_write`, `readObject_write`). Records use these lemmas with readers of their own; here they
give that a value is read as itself (`reads_readValue`).

Two things have to be asked of a value: that its brackets are not too deep, and that its numbers are
integers. A double is written with the fewest digits and read with two roundings, which need not
bring it back.
-/

namespace WorkspaceControl.Json

open Brackets

/-- Every number in the value is an integer. -/
inductive Integral : Json → Prop
  | null : Integral .null
  | boolean (b : Bool) : Integral (.boolean b)
  | integer (n : Int) (h : -0x8000000000000000 ≤ n ∧ n < 0x10000000000000000) :
      Integral (.number (.integer n h))
  | string (s : String) : Integral (.string s)
  | array {items : List Json} (h : ∀ item ∈ items, Integral item) : Integral (.array items)
  | object {members : List (String × Json)} (h : ∀ member ∈ members, Integral member.2) :
      Integral (.object members)

/-- At most so many brackets are open at once in the value. -/
inductive Within : Nat → Json → Prop
  | null (n : Nat) : Within n .null
  | boolean (n : Nat) (b : Bool) : Within n (.boolean b)
  | number (n : Nat) (x : Number) : Within n (.number x)
  | string (n : Nat) (s : String) : Within n (.string s)
  | array {n : Nat} {items : List Json} (h : ∀ item ∈ items, Within n item) :
      Within (n + 1) (.array items)
  | object {n : Nat} {members : List (String × Json)} (h : ∀ member ∈ members, Within n member.2) :
      Within (n + 1) (.object members)

/-- Wherever a value is written, a reader makes the same of it and leaves what follows. -/
def Reads {α : Type} (reader : Reader α) (value : Json) (a : α) : Prop :=
  ∀ rest, Number.Ends rest → reader (value.write rest) = .ok (a, rest)

/-! ### Where a value begins -/

/-- Nothing is skipped in front of a character that is no blank. -/
theorem skipBlanks_cons {c : Char} (h : isBlank c = false) (rest : List Char) :
    skipBlanks (c :: rest) = c :: rest := by
  simp [skipBlanks, h]

/-- The digits of a number are one digit and more. -/
theorem digits_eq_cons (n : Nat) : ∃ c ds, Decimal.digits n = c :: ds ∧ c.isDigit = true := by
  cases hds : Decimal.digits n with
  | nil => exact absurd hds (Decimal.digits_ne_nil n)
  | cons c ds => exact ⟨c, ds, rfl, Decimal.isDigit_of_mem_digits n c (hds ▸ List.mem_cons_self)⟩

/-- No digit is a blank, a bracket, a quote, a sign or the beginning of a word. -/
theorem ne_of_isDigit {c d : Char} (hc : c.isDigit = true) (hd : d.isDigit = false) : c ≠ d := by
  rintro rfl
  rw [hc] at hd
  cases hd

theorem isBlank_of_isDigit {c : Char} (h : c.isDigit = true) : isBlank c = false := by
  simp only [isBlank, decide_eq_false_iff_not]
  rintro (rfl | rfl | rfl | rfl) <;> exact absurd h (by decide)

/-- A value begins with a character that says what it is: no blank, and not the end of a list. -/
theorem write_eq_cons {value : Json} (h : value.Integral) (rest : List Char) :
    ∃ c more, value.write rest = c :: more ∧ isBlank c = false ∧ c ≠ ']' ∧
      (value ≠ .null → c ≠ 'n') := by
  cases h with
  | null => exact ⟨'n', _, by rw [write], by decide, by decide, fun hne => absurd rfl hne⟩
  | boolean b =>
      cases b with
      | true => exact ⟨'t', _, by rw [write], by decide, by decide, fun _ => by decide⟩
      | false => exact ⟨'f', _, by rw [write], by decide, by decide, fun _ => by decide⟩
  | integer n h =>
      by_cases hneg : n < 0
      · refine ⟨'-', Decimal.digits n.natAbs ++ rest, ?_, by decide, by decide, fun _ => by decide⟩
        simp [write, Number.write, Decimal.writeInt, hneg]
      · obtain ⟨c, ds, hds, hc⟩ := digits_eq_cons n.natAbs
        refine ⟨c, ds ++ rest, ?_, isBlank_of_isDigit hc, ne_of_isDigit hc (by decide),
          fun _ => ne_of_isDigit hc (by decide)⟩
        simp [write, Number.write, Decimal.writeInt, hneg, hds]
  | string s => exact ⟨'"', _, by rw [write]; rfl, by decide, by decide, fun _ => by decide⟩
  | @array items h =>
      cases items with
      | nil => exact ⟨'[', _, by rw [write], by decide, by decide, fun _ => by decide⟩
      | cons item items => exact ⟨'[', _, by rw [write], by decide, by decide, fun _ => by decide⟩
  | @object members h =>
      cases members with
      | nil => exact ⟨'\x7b', _, by rw [write], by decide, by decide, fun _ => by decide⟩
      | cons member members =>
          exact ⟨'\x7b', _, by rw [write], by decide, by decide, fun _ => by decide⟩

/-- Nothing is skipped in front of a value that is written. -/
theorem skipBlanks_write {value : Json} (h : value.Integral) (rest : List Char) :
    skipBlanks (value.write rest) = value.write rest := by
  obtain ⟨c, more, hwrite, hblank, -⟩ := write_eq_cons h rest
  rw [hwrite, skipBlanks_cons hblank]

/-! ### Scalars -/

theorem readHead_null (rest : List Char) :
    readHead (Json.null.write rest) = .ok (.scalar .null, rest) := rfl

theorem readHead_boolean (b : Bool) (rest : List Char) :
    readHead ((Json.boolean b).write rest) = .ok (.scalar (.boolean b), rest) := by
  cases b <;> rfl

theorem readHead_string (s : String) (rest : List Char) :
    readHead ((Json.string s).write rest) = .ok (.scalar (.string s), rest) := by
  have hblank : isBlank '"' = false := by decide
  rw [write, Quoted.write, readHead, skipBlanks_cons hblank]
  simp only [Quoted.read_writeChars]
  rfl

theorem readHead_digit {c : Char} (hc : c.isDigit = true) (rest : List Char) :
    readHead (c :: rest) = (do
      let (n, rest) ← Number.read false (c :: rest)
      return (.scalar (.number n), rest)) := by
  have hne {d : Char} (hd : d.isDigit = false) : c ≠ d := ne_of_isDigit hc hd
  unfold readHead
  rw [skipBlanks_cons (isBlank_of_isDigit hc)]
  split
  case h_9 heq =>
      obtain ⟨rfl, rfl⟩ := List.cons.inj heq
      rw [if_pos hc]
  case h_1 heq => cases heq
  all_goals
    rename_i heq
    exact absurd (List.cons.inj heq).1 (hne (by decide))

/-- An integer is read as itself. -/
theorem readHead_integer (n : Int) (h : -0x8000000000000000 ≤ n ∧ n < 0x10000000000000000)
    {rest : List Char} (hrest : Number.Ends rest) :
    readHead ((Json.number (.integer n h)).write rest) =
      .ok (.scalar (.number (.integer n h)), rest) := by
  have hread (negative : Bool) : Number.read negative (Decimal.digits n.natAbs ++ rest) =
      .ok (Number.ofDigits negative n.natAbs, rest) :=
    Number.read_digits negative (by omega) hrest
  have hvalue := Number.ofDigits_natAbs h
  rw [write, Number.write, Decimal.writeInt]
  by_cases hneg : n < 0
  · simp only [hneg, decide_true] at hvalue
    have hblank : isBlank '-' = false := by decide
    rw [if_pos hneg, List.cons_append, readHead, skipBlanks_cons hblank]
    simp only [hread, hvalue]
    rfl
  · simp only [hneg, decide_false] at hvalue
    obtain ⟨c, ds, hds, hc⟩ := digits_eq_cons n.natAbs
    rw [if_neg hneg]
    rw [hds] at hread ⊢
    rw [List.cons_append] at hread ⊢
    simp only [readHead_digit hc, hread, hvalue]
    rfl

/-! ### How much is written -/

theorem length_rest_lt_writeChars (cs rest : List Char) :
    rest.length < (Quoted.writeChars cs rest).length := by
  induction cs with
  | nil => simp [Quoted.writeChars]
  | cons c cs ih =>
      simp only [Quoted.writeChars, List.length_append]
      omega

theorem length_lt_writeItems {values : List Json}
    (h : ∀ value ∈ values, ∀ rest, rest.length < (value.write rest).length) (rest : List Char) :
    values.length + rest.length < (writeItems values rest).length := by
  induction values with
  | nil => simp [writeItems]
  | cons value values ih =>
      have hmore := ih fun v hv => h v (List.mem_cons_of_mem _ hv)
      have hvalue := h value List.mem_cons_self (writeItems values rest)
      simp only [writeItems, List.length_cons]
      omega

theorem length_lt_writeMembers {members : List (String × Json)}
    (h : ∀ member ∈ members, ∀ rest, rest.length < (member.2.write rest).length)
    (rest : List Char) :
    members.length + rest.length < (writeMembers members rest).length := by
  induction members with
  | nil => simp [writeMembers]
  | cons member members ih =>
      have hmore := ih fun m hm => h m (List.mem_cons_of_mem _ hm)
      have hvalue := h member List.mem_cons_self (writeMembers members rest)
      have hkey := length_rest_lt_writeChars member.1.toList
        (':' :: member.2.write (writeMembers members rest))
      simp only [writeMembers, Quoted.write, List.length_cons] at hkey ⊢
      omega

/-- Every value takes at least one character. -/
theorem length_lt_write {value : Json} (h : value.Integral) (rest : List Char) :
    rest.length < (value.write rest).length := by
  induction h generalizing rest with
  | null =>
      simp only [write, List.length_cons]
      omega
  | boolean b =>
      cases b <;>
        simp only [write, List.length_cons] <;>
        omega
  | integer n h =>
      have hdigits := List.length_pos_iff.mpr (Decimal.digits_ne_nil n.natAbs)
      simp only [write, Number.write, Decimal.writeInt, List.length_append]
      split
      · simp only [List.length_cons]
        omega
      · omega
  | string s =>
      have hchars := length_rest_lt_writeChars s.toList rest
      simp only [write, Quoted.write, List.length_cons]
      omega
  | @array items _ ih =>
      cases items with
      | nil =>
          simp only [write, List.length_cons]
          omega
      | cons item items =>
          have hitems := length_lt_writeItems (fun v hv => ih v (List.mem_cons_of_mem _ hv)) rest
          have hitem := ih item List.mem_cons_self (writeItems items rest)
          simp only [write, List.length_cons]
          omega
  | @object members _ ih =>
      cases members with
      | nil =>
          simp only [write, List.length_cons]
          omega
      | cons member members =>
          have hmembers :=
            length_lt_writeMembers (fun m hm => ih m (List.mem_cons_of_mem _ hm)) rest
          have hvalue := ih member List.mem_cons_self (writeMembers members rest)
          have hkey := length_rest_lt_writeChars member.1.toList
            (':' :: member.2.write (writeMembers members rest))
          simp only [write, Quoted.write, List.length_cons] at hkey ⊢
          omega

/-! ### Lists -/

variable {α σ : Type}

theorem nextItem_write {value : Json} (h : value.Integral) (rest : List Char) :
    nextItem true (value.write rest) = .ok (.item (value.write rest)) := by
  obtain ⟨c, more, hwrite, hblank, hend, -⟩ := write_eq_cons h rest
  rw [hwrite, nextItem, skipBlanks_cons hblank]
  simp

theorem nextItem_comma_write {value : Json} (h : value.Integral) (rest : List Char) :
    nextItem false (',' :: value.write rest) = .ok (.item (value.write rest)) := by
  obtain ⟨c, more, hwrite, hblank, hend, -⟩ := write_eq_cons h rest
  have hcomma : isBlank ',' = false := by decide
  rw [hwrite, nextItem, skipBlanks_cons hcomma]
  simp [skipBlanks_cons hblank, hend]

theorem ends_writeItems (items : List Json) (rest : List Char) :
    Number.Ends (writeItems items rest) := by
  cases items with
  | nil => exact Number.ends_cons (by decide)
  | cons item items => exact Number.ends_cons (by decide)

/-- The items after the first are read one by one up to the bracket. -/
theorem readItems_write {item : Reader α} {values : List Json} {as : List α}
    (hreads : List.Forall₂ (Reads item) values as) (hvalues : ∀ value ∈ values, value.Integral)
    {fuel : Nat} (hfuel : values.length < fuel) (rest : List Char) :
    readItems item fuel false (writeItems values rest) = .ok (as, rest) := by
  induction hreads generalizing fuel with
  | nil =>
      obtain ⟨fuel, rfl⟩ : ∃ m, fuel = m + 1 := ⟨fuel - 1, by omega⟩
      rfl
  | @cons value a values as hvalue _ ih =>
      obtain ⟨fuel, rfl⟩ : ∃ m, fuel = m + 1 := ⟨fuel - 1, by omega⟩
      have hmore := ih (fun v hv => hvalues v (List.mem_cons_of_mem _ hv))
        (by simpa using hfuel : values.length < fuel)
      have hitem := hvalue (writeItems values rest) (ends_writeItems values rest)
      rw [writeItems, readItems, nextItem_comma_write (hvalues value List.mem_cons_self)]
      simp only [bind, Except.bind, pure, Except.pure, hitem, hmore]

/-- A list is read that a reader of its items is known for. -/
theorem readList_write {item : Reader α} {values : List Json} {as : List α}
    (hreads : List.Forall₂ (Reads item) values as) (hvalues : ∀ value ∈ values, value.Integral)
    (rest : List Char) :
    ∃ body, (Json.array values).write rest = '[' :: body ∧ readList item body = .ok (as, rest) := by
  cases hreads with
  | nil => exact ⟨']' :: rest, by rw [write], rfl⟩
  | @cons value a values as hvalue hmore =>
      refine ⟨value.write (writeItems values rest), by rw [write], ?_⟩
      have hfirst := hvalues value List.mem_cons_self
      have hothers : ∀ v ∈ values, v.Integral := fun v hv => hvalues v (List.mem_cons_of_mem _ hv)
      have hfuel : values.length < (value.write (writeItems values rest)).length := by
        have h := length_lt_write hfirst (writeItems values rest)
        have hitems := length_lt_writeItems (fun v hv => length_lt_write (hothers v hv)) rest
        omega
      have hitem := hvalue (writeItems values rest) (ends_writeItems values rest)
      rw [readList, readItems, nextItem_write hfirst]
      simp only [bind, Except.bind, pure, Except.pure, hitem,
        readItems_write hmore hothers hfuel rest]

/-! ### Objects -/

/-- A reader of members takes one with a key and a value, wherever it is written. -/
def Takes (member : σ → String → Reader σ) (before : σ) (key : String) (value : Json)
    (after : σ) : Prop :=
  Reads (fun text => member before key (':' :: text)) value after

/-- Members are gathered one by one, each from where the one before has come to. -/
inductive Gathers (takes : σ → String → Json → σ → Prop) : σ → List (String × Json) → σ → Prop
  | nil (s : σ) : Gathers takes s [] s
  | cons {s s' s'' : σ} {key : String} {value : Json} {members : List (String × Json)}
      (first : takes s key value s') (more : Gathers takes s' members s'') :
      Gathers takes s ((key, value) :: members) s''

theorem nextKey_write (key : String) (rest : List Char) :
    nextKey true (Quoted.write key rest) = .ok (some key, rest) := by
  have hblank : isBlank '"' = false := by decide
  rw [Quoted.write, nextKey, skipBlanks_cons hblank]
  simp [Quoted.read_writeChars, bind, Except.bind, pure, Except.pure]

theorem nextKey_comma_write (key : String) (rest : List Char) :
    nextKey false (',' :: Quoted.write key rest) = .ok (some key, rest) := by
  have hblank : isBlank '"' = false := by decide
  have hcomma : isBlank ',' = false := by decide
  rw [Quoted.write, nextKey, skipBlanks_cons hcomma]
  simp [skipBlanks_cons hblank, Quoted.read_writeChars, bind, Except.bind, pure, Except.pure]

theorem colon_cons (rest : List Char) : colon (':' :: rest) = .ok rest := rfl

theorem ends_writeMembers (members : List (String × Json)) (rest : List Char) :
    Number.Ends (writeMembers members rest) := by
  cases members with
  | nil => exact Number.ends_cons (by decide)
  | cons member members => exact Number.ends_cons (by decide)

theorem readMembers_write {member : σ → String → Reader σ} {members : List (String × Json)}
    {s s' : σ} (h : Gathers (Takes member) s members s') {fuel : Nat}
    (hfuel : members.length < fuel) (rest : List Char) :
    readMembers member fuel false s (writeMembers members rest) = .ok (s', rest) := by
  induction h generalizing fuel with
  | nil s =>
      obtain ⟨fuel, rfl⟩ : ∃ m, fuel = m + 1 := ⟨fuel - 1, by omega⟩
      rfl
  | @cons s s' s'' key value members hfirst _ ih =>
      obtain ⟨fuel, rfl⟩ : ∃ m, fuel = m + 1 := ⟨fuel - 1, by omega⟩
      have hmore := ih (by simpa using hfuel : members.length < fuel)
      have hmember := hfirst (writeMembers members rest) (ends_writeMembers members rest)
      rw [writeMembers, readMembers, nextKey_comma_write]
      simp only [bind, Except.bind, hmember, hmore]

/-- An object is read whose members are gathered one by one. -/
theorem readObject_write {member : σ → String → Reader σ} {members : List (String × Json)}
    {s s' : σ} (h : Gathers (Takes member) s members s')
    (hvalues : ∀ m ∈ members, m.2.Integral) (rest : List Char) :
    ∃ body, (Json.object members).write rest = '\x7b' :: body ∧
      readObject member s body = .ok (s', rest) := by
  cases h with
  | nil => exact ⟨'\x7d' :: rest, by rw [write], rfl⟩
  | @cons s s' s'' key value members hfirst hmore =>
      refine ⟨Quoted.write key (':' :: value.write (writeMembers members rest)), by rw [write], ?_⟩
      have hothers : ∀ m ∈ members, m.2.Integral := fun m hm => hvalues m (List.mem_cons_of_mem _ hm)
      have hfuel : members.length <
          (Quoted.write key (':' :: value.write (writeMembers members rest))).length := by
        have hvalue : (writeMembers members rest).length <
            (value.write (writeMembers members rest)).length :=
          length_lt_write (hvalues (key, value) List.mem_cons_self) _
        have hmembers := length_lt_writeMembers (fun m hm => length_lt_write (hothers m hm)) rest
        have hkey := length_rest_lt_writeChars key.toList
          (':' :: value.write (writeMembers members rest))
        simp only [Quoted.write, List.length_cons] at hkey ⊢
        omega
      have hmember := hfirst (writeMembers members rest) (ends_writeMembers members rest)
      rw [readObject, readMembers, nextKey_write]
      simp only [bind, Except.bind, hmember, readMembers_write hmore hfuel rest]

/-! ### Whole values -/

/-- How a value gathers its members, the latest first. -/
def gatherMember (levels : Nat) (gathered : List (String × Json)) (key : String) :
    Reader (List (String × Json)) := fun text => do
  let (value, rest) ← colon text >>= readValue levels
  return ((key, value) :: gathered, rest)

/-- Members are gathered as they are, if their values are read as themselves. -/
theorem gathers_members {levels : Nat} {members : List (String × Json)}
    (h : ∀ member ∈ members, Reads (readValue levels) member.2 member.2)
    (gathered : List (String × Json)) :
    Gathers (Takes (gatherMember levels)) gathered members (members.reverse ++ gathered) := by
  induction members generalizing gathered with
  | nil => exact .nil gathered
  | cons member members ih =>
      have hmore := ih (fun m hm => h m (List.mem_cons_of_mem _ hm)) (member :: gathered)
      rw [List.reverse_cons, List.append_assoc]
      refine .cons (fun rest hrest => ?_) hmore
      have hvalue := h member List.mem_cons_self rest hrest
      simp only [gatherMember, colon_cons, bind, Except.bind, hvalue]
      rfl

theorem readValue_of_scalar {text rest : List Char} {value : Json}
    (h : readHead text = .ok (.scalar value, rest)) (levels : Nat) :
    readValue levels text = .ok (value, rest) := by
  cases levels <;>
    simp only [readValue, bind, Except.bind, h] <;>
    rfl

/-- A value whose brackets are not too deep is read as itself. -/
theorem reads_readValue {levels : Nat} {value : Json} (hwithin : Within levels value)
    (hint : value.Integral) : Reads (readValue levels) value value := by
  induction hwithin with
  | null n => exact fun rest _ => readValue_of_scalar (readHead_null rest) n
  | boolean n b => exact fun rest _ => readValue_of_scalar (readHead_boolean b rest) n
  | number n x =>
      cases hint with
      | integer i h => exact fun rest hrest => readValue_of_scalar (readHead_integer i h hrest) n
  | string n s => exact fun rest _ => readValue_of_scalar (readHead_string s rest) n
  | @array n items _ ih =>
      intro rest _
      cases hint with
      | array hint =>
          have hitems : List.Forall₂ (Reads (readValue n)) items items :=
            List.forall₂_same.mpr fun item hitem => ih item hitem (hint item hitem)
          obtain ⟨body, hwrite, hread⟩ := readList_write hitems hint rest
          have hhead : readHead ('[' :: body) = .ok (.list, body) := rfl
          rw [hwrite, readValue]
          simp only [bind, Except.bind, hhead, hread]
          rfl
  | @object n members _ ih =>
      intro rest _
      cases hint with
      | object hint =>
          have hmembers :=
            gathers_members (fun member hmember => ih member hmember (hint member hmember)) []
          obtain ⟨body, hwrite, hread⟩ := readObject_write hmembers hint rest
          have hhead : readHead ('\x7b' :: body) = .ok (.object, body) := rfl
          rw [hwrite, readValue]
          simp only [bind, Except.bind, hhead]
          change (readObject (gatherMember n) [] body >>= fun p =>
            pure (Json.object p.1.reverse, p.2)) = _
          rw [hread]
          simp only [bind, Except.bind, List.append_nil, List.reverse_reverse]
          rfl

/-- A whole text that a value was written to is read by whoever reads the value. -/
theorem readWhole_write {α : Type} {reader : Reader α} {value : Json} {a : α}
    (h : Reads reader value a) : readWhole reader (value.write []) = .ok a := by
  have hread := h [] Number.ends_nil
  simp only [readWhole, bind, Except.bind, hread]
  rfl

/-- **A value that is written is read as itself.** -/
theorem ofText_render {value : Json} (hwithin : Within deepest value) (hint : value.Integral) :
    ofText value.render = .ok value := by
  rw [ofText, render, String.toList_ofList, readWhole_write (reads_readValue hwithin hint)]
  rfl

/-- A text stands for the canonical form of the value that was written to it. -/
theorem parse_render {value : Json} (hwithin : Within deepest value) (hint : value.Integral) :
    parse value.render = .ok value.canonical := by
  rw [parse, ofText_render hwithin hint]
  rfl

end WorkspaceControl.Json
