/-!
# Decimal digits of natural numbers

`digits` writes a natural number without sign or leading zeros; `value` reads digits back.
-/

namespace WorkspaceControl.Decimal

def digitChar (n : Nat) : Char := Char.ofNat ('0'.toNat + n)

def digitValue (c : Char) : Nat := c.toNat - '0'.toNat

/-- A number in decimal, most significant digit first; zero is the one digit `0`. -/
def digits (n : Nat) : List Char :=
  if n < 10 then [digitChar n] else digits (n / 10) ++ [digitChar (n % 10)]

/-- The number that a row of digits stands for. -/
def value (ds : List Char) : Nat :=
  ds.foldl (fun n c => 10 * n + digitValue c) 0

theorem digitValue_digitChar {n : Nat} (h : n < 10) : digitValue (digitChar n) = n := by
  have all : ∀ m, m < 10 → digitValue (digitChar m) = m := by decide
  exact all n h

theorem isDigit_digitChar {n : Nat} (h : n < 10) : (digitChar n).isDigit = true := by
  have all : ∀ m, m < 10 → (digitChar m).isDigit = true := by decide
  exact all n h

theorem digits_ne_nil (n : Nat) : digits n ≠ [] := by
  unfold digits
  split <;> simp

/-- Every character that is written is a digit. -/
theorem isDigit_of_mem_digits (n : Nat) : ∀ c ∈ digits n, c.isDigit = true := by
  fun_induction digits n with
  | case1 n h => simpa using isDigit_digitChar h
  | case2 n h ih =>
    intro c hc
    rcases List.mem_append.1 hc with hc | hc
    · exact ih c hc
    · rw [List.mem_singleton.1 hc]
      exact isDigit_digitChar (Nat.mod_lt _ (by decide))

theorem value_append_singleton (ds : List Char) (c : Char) :
    value (ds ++ [c]) = 10 * value ds + digitValue c := by
  simp [value]

/-- What is written reads back. -/
@[simp] theorem value_digits (n : Nat) : value (digits n) = n := by
  fun_induction digits n with
  | case1 n h => simpa [value] using digitValue_digitChar h
  | case2 n h ih =>
    rw [value_append_singleton, ih, digitValue_digitChar (Nat.mod_lt _ (by decide))]
    omega

/-- Reads a row of one or more digits, nothing else, with an optional `+` in front. -/
def read? (text : List Char) : Option Nat :=
  let ds := match text with
    | '+' :: rest => rest
    | _ => text
  if ds ≠ [] ∧ ds.all Char.isDigit then some (value ds) else none

/-- A number that is written is read as itself. -/
@[simp] theorem read?_digits (n : Nat) : read? (digits n) = some n := by
  have hd := isDigit_of_mem_digits n
  have hn := digits_ne_nil n
  have hv := value_digits n
  revert hd hn hv
  generalize digits n = ds
  intro hd hn hv
  cases ds with
  | nil => exact absurd rfl hn
  | cons c rest =>
    have hc : c ≠ '+' := by
      intro e
      have := hd c List.mem_cons_self
      rw [e] at this
      exact absurd this (by decide)
    simp only [read?]
    split
    · rename_i h
      exact absurd (List.cons.inj h).1 hc
    · rw [hv, if_pos ⟨hn, List.all_eq_true.2 hd⟩]

end WorkspaceControl.Decimal
