import WorkspaceControl.Json.Numeral.Reader

/-!
# Integers that are written read back

The digits of a number below 2⁶⁴ all go into the significand, so what is read is the number that was
written, unless what follows goes on with it. Nothing of the kind follows a number in a value that is
written: `Ends` says what may.
-/

namespace WorkspaceControl.Number

open Decimal (digits digitChar digitValue)

/-- What follows does not go on with a number: not with a digit, a point or an exponent. -/
def Ends (rest : List Char) : Prop :=
  ∀ c ∈ rest.head?, c.isDigit = false ∧ c ≠ '.' ∧ c ≠ 'e' ∧ c ≠ 'E'

theorem ends_nil : Ends [] := by
  intro c hc
  cases hc

theorem ends_cons {c : Char} {rest : List Char}
    (h : c.isDigit = false ∧ c ≠ '.' ∧ c ≠ 'e' ∧ c ≠ 'E') : Ends (c :: rest) := by
  intro d hd
  obtain rfl : c = d := by simpa using hd
  exact h

theorem Ends.startsWithDigit {rest : List Char} (h : Ends rest) : startsWithDigit rest = false := by
  cases rest with
  | nil => rfl
  | cons c rest => exact (h c rfl).1

theorem Ends.takeWhile_isDigit {rest : List Char} (h : Ends rest) :
    rest.takeWhile Char.isDigit = [] := by
  cases rest with
  | nil => rfl
  | cons c rest => simp [(h c rfl).1]

theorem Ends.dropWhile_isDigit {rest : List Char} (h : Ends rest) :
    rest.dropWhile Char.isDigit = rest := by
  cases rest with
  | nil => rfl
  | cons c rest => simp [(h c rfl).1]

/-! ### Digits -/

/-- Digits only make a number greater. -/
theorem le_foldl_digits (ds : List Char) (n : Nat) :
    n ≤ ds.foldl (fun n c => 10 * n + digitValue c) n := by
  induction ds generalizing n with
  | nil => exact Nat.le_refl n
  | cons c ds ih =>
      have hstep : n ≤ 10 * n + digitValue c := by omega
      exact Nat.le_trans hstep (ih _)

/-- Digits whose number fits are all taken. -/
theorem takeFitting_append {ds rest : List Char} {n : Nat} (hds : ∀ c ∈ ds, c.isDigit = true)
    (hfits : ds.foldl (fun n c => 10 * n + digitValue c) n < 0x10000000000000000)
    (hrest : Ends rest) :
    takeFitting n (ds ++ rest) =
      (ds.foldl (fun n c => 10 * n + digitValue c) n, ds.length, rest) := by
  induction ds generalizing n with
  | nil =>
      cases rest with
      | nil => rfl
      | cons c rest => simp [takeFitting, (hrest c rfl).1]
  | cons c ds ih =>
      have hc : c.isDigit = true := hds c List.mem_cons_self
      have hstep : 10 * n + digitValue c < 0x10000000000000000 :=
        Nat.lt_of_le_of_lt (le_foldl_digits ds _) hfits
      have hmore := ih (fun d hd => hds d (List.mem_cons_of_mem c hd)) hfits
      rw [List.cons_append, takeFitting, if_pos ⟨hc, hstep⟩, hmore]
      rfl

theorem digits_zero : digits 0 = ['0'] := by
  rw [digits]
  rfl

/-- No number but zero begins with a zero. -/
theorem head?_digits_ne {n : Nat} (h : n ≠ 0) : (digits n).head? ≠ some '0' := by
  fun_induction digits n with
  | case1 n hlt =>
      have all : ∀ m, m < 10 → m ≠ 0 → digitChar m ≠ '0' := by decide
      simpa using all n hlt h
  | case2 n hge ih =>
      rw [List.head?_append]
      cases hhead : (digits (n / 10)).head? with
      | none => exact absurd (List.head?_eq_none_iff.mp hhead) (Decimal.digits_ne_nil _)
      | some c => simpa [hhead] using ih (by omega)

/-! ### Whole numbers -/

/-- What is read where the integer part ends the number. -/
theorem readTail_of_ends (negative : Bool) (n : Nat) {rest : List Char} (hrest : Ends rest) :
    readTail negative n 0 rest = .ok (ofDigits negative n, rest) := by
  unfold readTail
  split
  · exact absurd rfl (hrest '.' rfl).2.1
  · exact absurd rfl (hrest 'e' rfl).2.2.1
  · exact absurd rfl (hrest 'E' rfl).2.2.2
  · rfl

/-- The digits of a number below 2⁶⁴ are read as that number. -/
theorem read_digits (negative : Bool) {n : Nat} (hn : n < 0x10000000000000000) {rest : List Char}
    (hrest : Ends rest) :
    read negative (digits n ++ rest) = .ok (ofDigits negative n, rest) := by
  by_cases hzero : n = 0
  · subst hzero
    rw [digits_zero]
    simp only [List.cons_append, List.nil_append, read, hrest.startsWithDigit]
    exact readTail_of_ends negative 0 hrest
  · have hdigits := Decimal.isDigit_of_mem_digits n
    have hvalue : (digits n).foldl (fun n c => 10 * n + digitValue c) 0 = n :=
      Decimal.value_digits n
    have htake := takeFitting_append hdigits (hvalue.symm ▸ hn) hrest
    have hhead := head?_digits_ne hzero
    rw [hvalue] at htake
    cases hds : digits n with
    | nil => exact absurd hds (Decimal.digits_ne_nil n)
    | cons c ds =>
        rw [hds] at htake hhead hdigits
        have hc : c.isDigit = true := hdigits c List.mem_cons_self
        have hne : c ≠ '0' := by simpa using hhead
        rw [List.cons_append] at htake ⊢
        unfold read
        split
        · simp_all
        · simp_all
        · rename_i heq
          obtain ⟨rfl, -⟩ := List.cons.inj heq
          rw [if_pos hc, htake]
          simp only [hrest.takeWhile_isDigit, hrest.dropWhile_isDigit, List.length_nil]
          exact readTail_of_ends negative n hrest

/-- A row of digits is the integer that it stands for with its sign, if that is one. -/
theorem ofDigits_of_value {negative : Bool} {magnitude : Nat} {n : Int}
    (hvalue : (if negative then -(magnitude : Int) else magnitude) = n)
    (h : -0x8000000000000000 ≤ n ∧ n < 0x10000000000000000) (hzero : negative → magnitude ≠ 0) :
    ofDigits negative magnitude = .integer n h := by
  subst hvalue
  exact dif_pos ⟨h, hzero⟩

/-- The number of digits with a sign is the integer they say. -/
theorem ofDigits_natAbs {n : Int} (h : -0x8000000000000000 ≤ n ∧ n < 0x10000000000000000) :
    ofDigits (decide (n < 0)) n.natAbs = .integer n h := by
  refine ofDigits_of_value ?_ h fun hneg => ?_
  · split
    · rename_i hneg
      have hneg := of_decide_eq_true hneg
      omega
    · rename_i hneg
      have hneg := of_decide_eq_false (Bool.eq_false_iff.mpr hneg)
      omega
  · have hneg := of_decide_eq_true hneg
    omega

end WorkspaceControl.Number
