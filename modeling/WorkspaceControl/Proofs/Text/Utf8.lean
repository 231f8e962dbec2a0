import WorkspaceControl.Text.Utf8

/-!
# Texts read back from their bytes

The bytes of a text are read as the text (`text_bytes`), so different texts have different bytes. The
proof goes through one character: its first byte says how many are due and in which range the next one
lies, and every byte due adds its six bits (`chars_due`).
-/

namespace WorkspaceControl.Utf8

/-! ### First bytes -/

theorem lead_one : ∀ n < 128, lead (.ofNat n) = .char (Char.ofNat n) := by decide

theorem lead_two : ∀ n < 32, 2 ≤ n → lead (.ofNat (n + 192)) = .pending ⟨n, 1, 0x80, 0xBF⟩ := by
  decide

theorem lead_three : ∀ n < 16, lead (.ofNat (n + 224)) =
    .pending ⟨n, 2, if n = 0 then 0xA0 else 0x80, if n = 13 then 0x9F else 0xBF⟩ := by decide

theorem lead_four : ∀ n < 5, lead (.ofNat (n + 240)) =
    .pending ⟨n, 3, if n = 0 then 0x90 else 0x80, if n = 4 then 0x8F else 0xBF⟩ := by decide

theorem chars_pending {b : UInt8} {p : Pending} (h : lead b = .pending p) (rest : List UInt8) :
    chars none (b :: rest) = chars (some p) rest := by
  rw [chars, h]

/-! ### Bytes that are due -/

section

variable {bits n : Nat} {least most : UInt8}

/-- A byte in the range that is due is told from its bits. -/
theorem due_of_range (hn : n < 64) (hleast : least.toNat ≤ n + 128)
    (hmost : n + 128 ≤ most.toNat) :
    (least ≤ UInt8.ofNat (n + 128) ∧ UInt8.ofNat (n + 128) ≤ most) ∧
      (UInt8.ofNat (n + 128)).toNat - 0x80 = n := by
  have hsize : n + 128 < 256 := by omega
  have hbyte : (UInt8.ofNat (n + 128)).toNat = n + 128 := UInt8.toNat_ofNat_of_lt' hsize
  rw [UInt8.le_iff_toNat_le, UInt8.le_iff_toNat_le, hbyte]
  exact ⟨⟨hleast, hmost⟩, Nat.add_sub_cancel n 128⟩

/-- The last byte due finishes the character. -/
theorem chars_last (hn : n < 64) (hleast : least.toNat ≤ n + 128) (hmost : n + 128 ≤ most.toNat)
    (rest : List UInt8) :
    chars (some ⟨bits, 1, least, most⟩) (.ofNat (n + 128) :: rest) =
      Char.ofNat (bits * 64 + n) :: chars none rest := by
  obtain ⟨hrange, hbits⟩ := due_of_range hn hleast hmost
  rw [chars, if_pos hrange, hbits]
  rfl

/-- A byte that others follow adds its bits, and those may be any. -/
theorem chars_more {due : Nat} (hn : n < 64) (hleast : least.toNat ≤ n + 128)
    (hmost : n + 128 ≤ most.toNat) (rest : List UInt8) :
    chars (some ⟨bits, due + 2, least, most⟩) (.ofNat (n + 128) :: rest) =
      chars (some ⟨bits * 64 + n, due + 1, 0x80, 0xBF⟩) rest := by
  obtain ⟨hrange, hbits⟩ := due_of_range hn hleast hmost
  have hdue : ¬due + 2 ≤ 1 := by omega
  rw [chars, if_pos hrange, hbits]
  exact if_neg hdue

end

/-! ### Texts -/

/-- The bytes of a character are read as it. Its number is put together from six bits at a time. -/
theorem chars_encode (c : Char) (rest : List UInt8) :
    chars none (String.utf8EncodeChar c ++ rest) = c :: chars none rest := by
  have hchar : Char.ofNat c.val.toNat = c := Char.ofNat_toNat c
  have hvalid : c.val.toNat < 0xD800 ∨ 0xDFFF < c.val.toNat ∧ c.val.toNat < 0x110000 := c.valid
  have hsix (n : Nat) : n % 64 < 64 := Nat.mod_lt n (by decide)
  have hlow (n : Nat) : (0x80 : UInt8).toNat ≤ n + 128 := Nat.le_add_left 128 n
  have hhigh (n : Nat) : n % 64 + 128 ≤ (0xBF : UInt8).toNat :=
    Nat.add_le_add_right (Nat.le_of_lt_succ (hsix n)) 128
  unfold String.utf8EncodeChar
  generalize c.val.toNat = v at hchar hvalid
  dsimp only
  split
  · rw [List.singleton_append, chars, lead_one v (by omega), hchar]
  · split
    · have hbits : v / 64 % 32 * 64 + v % 64 = v := by omega
      simp only [List.cons_append, List.nil_append]
      rw [chars_pending (lead_two (v / 64 % 32) (by omega) (by omega)),
        chars_last (hsix v) (hlow _) (hhigh v), hbits, hchar]
    · split
      · have hbits : (v / 4096 % 16 * 64 + v / 64 % 64) * 64 + v % 64 = v := by omega
        -- Nothing shorter is written so long, and no surrogate is a character.
        have hleast : (if v / 4096 % 16 = 0 then 0xA0 else 0x80 : UInt8).toNat ≤
            v / 64 % 64 + 128 := by split <;> simp <;> omega
        have hmost : v / 64 % 64 + 128 ≤
            (if v / 4096 % 16 = 13 then 0x9F else 0xBF : UInt8).toNat := by split <;> simp <;> omega
        simp only [List.cons_append, List.nil_append]
        rw [chars_pending (lead_three (v / 4096 % 16) (by omega)),
          chars_more (hsix _) hleast hmost, chars_last (hsix v) (hlow _) (hhigh v), hbits, hchar]
      · have hbits : ((v / 262144 % 8 * 64 + v / 4096 % 64) * 64 + v / 64 % 64) * 64 + v % 64 = v := by
          omega
        -- Four bytes write nothing shorter either, and nothing behind the last character.
        have hleast : (if v / 262144 % 8 = 0 then 0x90 else 0x80 : UInt8).toNat ≤
            v / 4096 % 64 + 128 := by split <;> simp <;> omega
        have hmost : v / 4096 % 64 + 128 ≤
            (if v / 262144 % 8 = 4 then 0x8F else 0xBF : UInt8).toNat := by split <;> simp <;> omega
        simp only [List.cons_append, List.nil_append]
        rw [chars_pending (lead_four (v / 262144 % 8) (by omega)),
          chars_more (hsix _) hleast hmost, chars_more (hsix _) (hlow _) (hhigh _),
          chars_last (hsix v) (hlow _) (hhigh v), hbits, hchar]

/-- **A text is read back from its bytes.** -/
theorem text_bytes (s : String) : text (bytes s) = s := by
  have hchars : ∀ list : List Char, chars none (list.flatMap String.utf8EncodeChar) = list := by
    intro list
    induction list with
    | nil => rfl
    | cons c list ih => rw [List.flatMap_cons, chars_encode, ih]
  rw [text, bytes, hchars, String.ofList_toList]

end WorkspaceControl.Utf8
