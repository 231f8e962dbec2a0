import Mathlib.Data.List.Forall2
import WorkspaceControl.Proofs.Text.Percent
import WorkspaceControl.Rpc.Url

/-!
# Queries read back from addresses

An address carries its query faithfully: **the pairs read back from what stands behind the path**,
all of them and in their order, whatever the strings in them, and also after the quotes in the query
have been escaped, which an address undergoes before it is sent. What is written is a grammar of its
own (`Percent.Component` between the marks), and a reader that splits at the marks finds the pairs
again (`query?`).

That the quotes may be escaped or not makes two ways to write a component. Both are `Legible`, which
is all that the reader needs: a component reads back, and no mark stands in it.
-/

namespace WorkspaceControl.Rpc

/-! ### The reader -/

/-- The pair in a group that is divided at its first equals sign. -/
def pair? (group : List Char) : Option QueryPair :=
  match Parts.divide '=' group with
  | (key, some value) => do return (← Percent.decode key, ← Percent.decode value)
  | (_, none) => none

/-- The pairs in a query with its question mark, or in no query. -/
def query? : List Char → Option (List QueryPair)
  | [] => some []
  | '?' :: groups => (Parts.pieces '&' groups).mapM pair?
  | _ => none

/-! ### Queries whose components are written in some way -/

/-- A group with the components of a pair. -/
def groupWith (write : String → List Char) (pair : QueryPair) : List Char :=
  write pair.1 ++ '=' :: write pair.2

/-- A query with its question mark, or nothing. -/
def queryWith (write : String → List Char) : List QueryPair → List Char
  | [] => []
  | pairs => '?' :: ['&'].intercalate (pairs.map (groupWith write))

theorem queryWith_of_ne_nil (write : String → List Char) {pairs : List QueryPair}
    (h : pairs ≠ []) :
    queryWith write pairs = '?' :: ['&'].intercalate (pairs.map (groupWith write)) := by
  cases pairs with
  | nil => exact absurd rfl h
  | cons pair pairs => rfl

/-- Groups with a mark in front of each but the first are groups joined by the mark. -/
theorem intercalate_ampersand_cons (group : List Char) (groups : List (List Char)) :
    ['&'].intercalate (group :: groups) = group ++ groups.flatMap fun g => '&' :: g := by
  induction groups generalizing group with
  | nil => simp
  | cons next groups ih => simp [List.intercalate_cons_cons, ih]

/-- The query of an address is written in encoded components. -/
theorem writeQuery_eq_queryWith (pairs : List QueryPair) :
    writeQuery pairs = queryWith Percent.encode pairs := by
  cases pairs with
  | nil => rfl
  | cons pair pairs =>
      rw [queryWith_of_ne_nil _ (by simp), List.map_cons, intercalate_ampersand_cons,
        List.flatMap_map]
      rfl

theorem escapeQuotes_intercalate (groups : List (List Char)) :
    Request.escapeQuotes (['&'].intercalate groups) =
      ['&'].intercalate (groups.map Request.escapeQuotes) := by
  induction groups with
  | nil => rfl
  | cons group groups ih =>
      cases groups with
      | nil => simp
      | cons next groups =>
          rw [List.intercalate_cons_cons, Percent.escapeQuotes_append, Percent.escapeQuotes_append,
            ih]
          simp only [List.map_cons, List.intercalate_cons_cons]
          rfl

/-- Escaping the quotes of a query escapes those of its components. -/
theorem escapeQuotes_queryWith (write : String → List Char) (pairs : List QueryPair) :
    Request.escapeQuotes (queryWith write pairs) =
      queryWith (fun s => Request.escapeQuotes (write s)) pairs := by
  have hgroup (pair : QueryPair) : Request.escapeQuotes (groupWith write pair) =
      groupWith (fun s => Request.escapeQuotes (write s)) pair := by
    rw [groupWith, Percent.escapeQuotes_append]
    rfl
  by_cases hne : pairs = []
  · rw [hne]
    rfl
  · have hmark (text : List Char) :
        Request.escapeQuotes ('?' :: text) = '?' :: Request.escapeQuotes text := rfl
    rw [queryWith_of_ne_nil _ hne, queryWith_of_ne_nil _ hne, hmark, escapeQuotes_intercalate,
      List.map_map]
    simp only [Function.comp_def, hgroup]

/-! ### Reading what is written -/

section Legible

variable {write : String → List Char} (h : Percent.Legible write)

include h

theorem pair?_groupWith (pair : QueryPair) : pair? (groupWith write pair) = some pair := by
  rw [pair?, groupWith, Parts.divide_append '=' _ _ (h.noEquals pair.1)]
  simp [h.decode]

theorem mapM_pair?_groups (pairs : List QueryPair) :
    (pairs.map (groupWith write)).mapM pair? = some pairs := by
  induction pairs with
  | nil => rfl
  | cons pair pairs ih => simp [pair?_groupWith h, ih]

theorem ampersand_not_mem_groupWith (pair : QueryPair) : '&' ∉ groupWith write pair := by
  simp [groupWith, h.noAmpersand]

/-- **The pairs read back** from a query in which no component holds a mark. -/
theorem query?_queryWith (pairs : List QueryPair) :
    query? (queryWith write pairs) = some pairs := by
  by_cases hne : pairs = []
  · rw [hne]
    rfl
  · have hmarks : ∀ group ∈ pairs.map (groupWith write), '&' ∉ group := by
      intro group hgroup
      obtain ⟨pair, -, rfl⟩ := List.mem_map.mp hgroup
      exact ampersand_not_mem_groupWith h pair
    rw [queryWith_of_ne_nil write hne, query?,
      Parts.pieces_intercalate (by simpa using hne) hmarks]
    exact mapM_pair?_groups h pairs

end Legible

/-- **An address carries its query faithfully.** Behind the base address and the path stands a text
that is empty for no pairs, and else a question mark and one group for each pair in order, joined by
ampersands: two components with an equals sign between them, which read back as the key and the
value. The reader that splits at the marks finds the pairs again, also once the quotes have been
escaped, so different queries make different addresses. -/
theorem buildUrl_carries_query (base path : String) (query : List QueryPair) :
    ∃ written : List Char,
      buildUrl base path query = base ++ path ++ String.ofList written ∧
      (written = [] ↔ query = []) ∧
      (query ≠ [] → ∃ groups : List (List Char × List Char),
        written = '?' :: ['&'].intercalate (groups.map fun group => group.1 ++ '=' :: group.2) ∧
        List.Forall₂ (fun group pair =>
          Percent.Component group.1 ∧ Percent.decode group.1 = some (Prod.fst pair) ∧
          Percent.Component group.2 ∧ Percent.decode group.2 = some (Prod.snd pair)) groups query) ∧
      query? written = some query ∧
      query? (Request.escapeQuotes written) = some query ∧
      ∀ other, buildUrl base path other = buildUrl base path query → other = query := by
  have hread (pairs : List QueryPair) : query? (writeQuery pairs) = some pairs := by
    rw [writeQuery_eq_queryWith]
    exact query?_queryWith Percent.legible_encode pairs
  refine ⟨writeQuery query, rfl, ?_, fun hne => ?_, hread query, ?_, fun other heq => ?_⟩
  · cases query <;> simp [writeQuery]
  · refine ⟨query.map fun pair => (Percent.encode pair.1, Percent.encode pair.2), ?_, ?_⟩
    · rw [writeQuery_eq_queryWith, queryWith_of_ne_nil _ hne, List.map_map]
      rfl
    · rw [List.forall₂_map_left_iff]
      exact List.forall₂_same.mpr fun pair _ =>
        ⟨Percent.component_encode _, Percent.decode_encode _, Percent.component_encode _,
          Percent.decode_encode _⟩
  · rw [writeQuery_eq_queryWith, escapeQuotes_queryWith]
    exact query?_queryWith Percent.legible_escapeQuotes query
  · have hwritten : writeQuery other = writeQuery query := by
      have htexts := congrArg String.toList heq
      simpa [buildUrl] using htexts
    have hpairs := hread other
    rw [hwritten, hread query] at hpairs
    exact (Option.some.inj hpairs).symm

example : buildUrl "http://h" "/p" [("a b", "x&y=z/é"), ("", "'")] =
    "http://h/p?a%20b=x%26y%3Dz%2F%C3%A9&='" := by decide

end WorkspaceControl.Rpc
