import WorkspaceControl.Rpc.Network
import WorkspaceControl.Text.Percent

/-!
# Query components read back

A component reads back from its encoded form, also after the quotes in it have been escaped, which an
address undergoes before it is sent (`decode_escapeQuotes_encode`). Nothing that an encoded component
is made of marks the end of anything in an address. `Component` is the grammar of what is written, and
`Legible` collects what a reader of queries needs of a way to write components.
-/

namespace WorkspaceControl.Percent

open Rpc (Request.escapeQuotes)

/-- The bytes of a text are read as that text. -/
theorem fromUTF8?_bytes (s : String) :
    String.fromUTF8? ⟨(s.toList.flatMap String.utf8EncodeChar).toArray⟩ = some s := by
  have hbytes : (⟨(s.toList.flatMap String.utf8EncodeChar).toArray⟩ : ByteArray) = s.toByteArray := by
    rw [← String.utf8Encode_toList, List.utf8Encode]
    exact ByteArray.ext List.data_toByteArray.symm
  rw [hbytes, String.fromUTF8?, dif_pos s.isValidUTF8]
  rfl

/-- The characters that encoded components are made of. -/
def IsWritten (c : Char) : Prop := unreserved c = true ∨ c = '%'

instance : DecidablePred IsWritten := fun c =>
  inferInstanceAs (Decidable (unreserved c = true ∨ c = '%'))

/-- An escape is made of a percent sign and two digits. -/
theorem mem_escape {b : UInt8} {c : Char} (h : c ∈ escape b) :
    c = '%' ∨ ∃ n < 16, c = Hex.digit 'A' n := by
  have hhigh : b.toNat / 16 < 16 := by
    have := b.toNat_lt
    omega
  simp only [escape, Hex.pair, List.mem_cons, List.not_mem_nil, or_false] at h
  rcases h with rfl | rfl | rfl
  · exact .inl rfl
  · exact .inr ⟨_, hhigh, rfl⟩
  · exact .inr ⟨_, Nat.mod_lt _ (by decide), rfl⟩

theorem isWritten_of_mem_escape {b : UInt8} {c : Char} (h : c ∈ escape b) : IsWritten c := by
  have hdigit : ∀ n < 16, unreserved (Hex.digit 'A' n) = true := by decide
  rcases mem_escape h with rfl | ⟨n, hn, rfl⟩
  · exact .inr rfl
  · exact .inl (hdigit n hn)

theorem isWritten_of_mem_encode {s : String} {d : Char} (h : d ∈ encode s) : IsWritten d := by
  obtain ⟨c, -, hc⟩ := List.mem_flatMap.mp h
  unfold encodeChar at hc
  split at hc
  · rename_i hplain
    rw [List.mem_singleton.mp hc]
    exact .inl hplain
  · obtain ⟨b, -, hb⟩ := List.mem_flatMap.mp hc
    exact isWritten_of_mem_escape hb

/-! ### Escaped quotes -/

theorem escapeQuotes_of_not_mem {cs : List Char} (h : '\'' ∉ cs) : Request.escapeQuotes cs = cs := by
  induction cs with
  | nil => rfl
  | cons c cs ih =>
      obtain ⟨hc, hcs⟩ := not_or.mp (mt List.mem_cons.mpr h)
      have hrest : Request.escapeQuotes cs = cs := ih hcs
      rw [Request.escapeQuotes] at hrest ⊢
      rw [List.flatMap_cons, hrest, if_neg (Ne.symm hc)]
      rfl

theorem escapeQuotes_append (a b : List Char) :
    Request.escapeQuotes (a ++ b) = Request.escapeQuotes a ++ Request.escapeQuotes b :=
  List.flatMap_append

/-- The only character that is encoded with a quote is the quote. -/
theorem quote_not_mem_encodeChar {c : Char} (h : c ≠ '\'') : '\'' ∉ encodeChar c := by
  have hdigit : ∀ n < 16, '\'' ≠ Hex.digit 'A' n := by decide
  unfold encodeChar
  split
  · exact fun hmem => h (List.mem_singleton.mp hmem).symm
  · intro hmem
    obtain ⟨b, -, hb⟩ := List.mem_flatMap.mp hmem
    rcases mem_escape hb with heq | ⟨n, hn, heq⟩
    · exact absurd heq (by decide)
    · exact hdigit n hn heq

/-- Whether its quote is escaped or not, an encoded character stands for its bytes. -/
theorem bytes_escapeQuotes_encodeChar (c : Char) (rest : List Char) :
    bytes (Request.escapeQuotes (encodeChar c) ++ rest) = String.utf8EncodeChar c ++ bytes rest := by
  by_cases hc : c = '\''
  · subst hc
    have hquote : Request.escapeQuotes (encodeChar '\'') = escape 0x27 := by decide
    rw [hquote, bytes_escape]
    rfl
  · rw [escapeQuotes_of_not_mem (quote_not_mem_encodeChar hc), bytes_encodeChar]

theorem bytes_escapeQuotes_flatMap (cs : List Char) :
    bytes (Request.escapeQuotes (cs.flatMap encodeChar)) = cs.flatMap String.utf8EncodeChar := by
  induction cs with
  | nil => rfl
  | cons c cs ih =>
      rw [List.flatMap_cons, escapeQuotes_append, bytes_escapeQuotes_encodeChar, ih,
        List.flatMap_cons]

/-- **A component reads back** from its encoded form with the quotes escaped. -/
theorem decode_escapeQuotes_encode (s : String) :
    decode (Request.escapeQuotes (encode s)) = some s := by
  rw [decode, encode, bytes_escapeQuotes_flatMap, fromUTF8?_bytes]

/-- Nothing but unreserved characters and percent signs stands in an encoded component, so no mark that
ends a part of an address does. -/
theorem not_mem_escapeQuotes_encode {mark : Char} (h : ¬IsWritten mark) (s : String) :
    mark ∉ Request.escapeQuotes (encode s) := by
  intro hmem
  obtain ⟨d, hd, hmark⟩ := List.mem_flatMap.mp hmem
  split at hmark
  · have hquote : ['%', '2', '7'].all (fun c => decide (IsWritten c)) = true := by decide
    exact h (of_decide_eq_true (List.all_eq_true.mp hquote mark hmark))
  · rw [List.mem_singleton.mp hmark] at h
    exact h (isWritten_of_mem_encode hd)

/-! ### The grammar of components -/

/-- The digits that escapes are written in. -/
def IsEscapeDigit (c : Char) : Prop := ('0' ≤ c ∧ c ≤ '9') ∨ ('A' ≤ c ∧ c ≤ 'F')

instance : DecidablePred IsEscapeDigit := fun _ => inferInstanceAs (Decidable (_ ∨ _))

/-- What a component may look like: letters, digits and some marks, and escapes of two digits. -/
inductive Component : List Char → Prop
  | nil : Component []
  | plain {c : Char} {rest : List Char} :
      c.isAlphanum = true ∨ c ∈ ['-', '_', '.', '!', '~', '*', '\'', '(', ')'] →
      Component rest → Component (c :: rest)
  | escaped {high low : Char} {rest : List Char} : IsEscapeDigit high → IsEscapeDigit low →
      Component rest → Component ('%' :: high :: low :: rest)

theorem Component.append {front back : List Char} (hfront : Component front)
    (hback : Component back) : Component (front ++ back) := by
  induction hfront with
  | nil => exact hback
  | plain hc _ ih => exact .plain hc ih
  | escaped hhigh hlow _ ih => exact .escaped hhigh hlow ih

theorem Component.flatMap {α : Type} {write : α → List Char} (h : ∀ a, Component (write a))
    (items : List α) : Component (items.flatMap write) := by
  induction items with
  | nil => exact .nil
  | cons a items ih => exact (h a).append ih

theorem component_escape (b : UInt8) : Component (escape b) := by
  have hdigit : ∀ n < 16, IsEscapeDigit (Hex.digit 'A' n) := by decide
  have hhigh : b.toNat / 16 < 16 := by
    have := b.toNat_lt
    omega
  exact .escaped (hdigit _ hhigh) (hdigit _ (Nat.mod_lt _ (by decide))) .nil

theorem component_encodeChar (c : Char) : Component (encodeChar c) := by
  unfold encodeChar
  split
  · rename_i hplain
    refine .plain ?_ .nil
    simpa [unreserved] using hplain
  · exact .flatMap component_escape _

/-- Whatever is encoded, it is written as a component. -/
theorem component_encode (s : String) : Component (encode s) :=
  .flatMap component_encodeChar s.toList

theorem bytes_flatMap_encodeChar (cs : List Char) :
    bytes (cs.flatMap encodeChar) = cs.flatMap String.utf8EncodeChar := by
  induction cs with
  | nil => rfl
  | cons c cs ih => rw [List.flatMap_cons, bytes_encodeChar, ih, List.flatMap_cons]

/-- A component reads back from its encoded form. -/
theorem decode_encode (s : String) : decode (encode s) = some s := by
  rw [decode, encode, bytes_flatMap_encodeChar, fromUTF8?_bytes]

/-- A way to write components in which they read back and hold no mark of a query. -/
structure Legible (write : String → List Char) : Prop where
  decode : ∀ s, Percent.decode (write s) = some s
  noAmpersand : ∀ s, '&' ∉ write s
  noEquals : ∀ s, '=' ∉ write s

theorem legible_encode : Legible encode where
  decode := decode_encode
  noAmpersand _ hmem := absurd (isWritten_of_mem_encode hmem) (by decide)
  noEquals _ hmem := absurd (isWritten_of_mem_encode hmem) (by decide)

theorem legible_escapeQuotes : Legible fun s => Request.escapeQuotes (encode s) where
  decode := decode_escapeQuotes_encode
  noAmpersand := not_mem_escapeQuotes_encode (by decide)
  noEquals := not_mem_escapeQuotes_encode (by decide)

end WorkspaceControl.Percent
