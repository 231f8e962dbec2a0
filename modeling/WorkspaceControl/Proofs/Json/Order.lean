import Mathlib.Data.List.Forall2
import WorkspaceControl.Proofs.Dictionary
import WorkspaceControl.Proofs.Json.Written

/-!
# The order of members

Objects whose members stand in different orders are the same to a reader that goes by keys, and
neither the order in which a record's fields are written nor that of a dictionary is promised to
anyone. `Reordered` relates values that differ in the order of members only, at any depth.

The canonical form of a value is a reordering of it if no object has a key twice
(`Reordered.canonical`), and what is true of all parts of a value stays true of those that the
canonical form keeps. Where no object has more than one member there is nothing to reorder
(`Single.eq_of_reordered`).
-/

namespace WorkspaceControl.Json

/-- No object in the value has a key twice. -/
inductive Distinct : Json → Prop
  | null : Distinct .null
  | boolean (b : Bool) : Distinct (.boolean b)
  | number (n : Number) : Distinct (.number n)
  | string (s : String) : Distinct (.string s)
  | array {items : List Json} (h : ∀ item ∈ items, Distinct item) : Distinct (.array items)
  | object {members : List (String × Json)} (hkeys : (members.map Prod.fst).Nodup)
      (h : ∀ member ∈ members, Distinct member.2) : Distinct (.object members)

/-- Members of one key with related values. -/
inductive UnderKey (related : Json → Json → Prop) : String × Json → String × Json → Prop
  | intro (key : String) {a b : Json} (h : related a b) : UnderKey related (key, a) (key, b)

/-- The second value is the first one but for the order of members. -/
inductive Reordered : Json → Json → Prop
  | null : Reordered .null .null
  | boolean (b : Bool) : Reordered (.boolean b) (.boolean b)
  | number (n : Number) : Reordered (.number n) (.number n)
  | string (s : String) : Reordered (.string s) (.string s)
  | array {items items' : List Json} (h : List.Forall₂ Reordered items items') :
      Reordered (.array items) (.array items')
  | object {members between members' : List (String × Json)}
      (h : List.Forall₂ (UnderKey Reordered) members between)
      (hperm : between.Perm members') : Reordered (.object members) (.object members')

theorem canonicalItems_eq_map (items : List Json) : canonicalItems items = items.map canonical := by
  induction items with
  | nil => rfl
  | cons item items ih => rw [canonicalItems, ih, List.map_cons]

theorem canonicalMembers_eq_map (members : List (String × Json)) :
    canonicalMembers members = members.map fun m => (m.1, m.2.canonical) := by
  induction members with
  | nil => rfl
  | cons member members ih => rw [canonicalMembers, ih, List.map_cons]

/-- What holds of scalars, of lists of what it holds of and of objects of what it holds of holds of
every value. -/
theorem induct {P : Json → Prop} (null : P .null) (boolean : ∀ b, P (.boolean b))
    (number : ∀ n, P (.number n)) (string : ∀ s, P (.string s))
    (array : ∀ items, (∀ item ∈ items, P item) → P (.array items))
    (object : ∀ members, (∀ member ∈ members, P member.2) → P (.object members)) :
    ∀ value, P value
  | .null => null
  | .boolean b => boolean b
  | .number n => number n
  | .string s => string s
  | .array items => array items fun item _ => induct null boolean number string array object item
  | .object members =>
    object members fun member _ => induct null boolean number string array object member.2
termination_by value => sizeOf value
decreasing_by
  · have hlt := List.sizeOf_lt_of_mem ‹item ∈ items›
    simp only [Json.array.sizeOf_spec]
    omega
  · have hlt := List.sizeOf_lt_of_mem ‹member ∈ members›
    cases member
    simp only [Json.object.sizeOf_spec, Prod.mk.sizeOf_spec] at hlt ⊢
    omega

/-! ### The canonical form -/

theorem canonical_array (items : List Json) :
    (Json.array items).canonical = .array (items.map canonical) := by
  rw [canonical, canonicalItems_eq_map]

theorem canonical_object (members : List (String × Json)) :
    (Json.object members).canonical =
      .object (ordered (members.map fun m => (m.1, m.2.canonical))) := by
  rw [canonical, canonicalMembers_eq_map]

theorem map_fst_canonical (members : List (String × Json)) :
    (members.map fun m => (m.1, m.2.canonical)).map Prod.fst = members.map Prod.fst := by
  rw [List.map_map]
  rfl

/-- A member of the canonical form is the canonical form of a member. -/
theorem mem_canonical {members : List (String × Json)} {member : String × Json}
    (h : member ∈ ordered (members.map fun m => (m.1, m.2.canonical))) :
    ∃ m ∈ members, member = (m.1, m.2.canonical) := by
  obtain ⟨m, hm, heq⟩ := List.mem_map.mp (mem_of_mem_ordered h)
  exact ⟨m, hm, heq.symm⟩

theorem Integral.canonical {value : Json} (h : value.Integral) : value.canonical.Integral := by
  induction h with
  | null => exact .null
  | boolean b => exact .boolean b
  | integer n h => exact .integer n h
  | string s => exact .string s
  | @array items _ ih =>
      rw [canonical_array]
      refine .array fun item hitem => ?_
      obtain ⟨source, hsource, rfl⟩ := List.mem_map.mp hitem
      exact ih source hsource
  | @object members _ ih =>
      rw [canonical_object]
      refine .object fun member hmember => ?_
      obtain ⟨source, hsource, rfl⟩ := mem_canonical hmember
      exact ih source hsource

theorem Within.canonical {levels : Nat} {value : Json} (h : Within levels value) :
    Within levels value.canonical := by
  induction h with
  | null n => exact .null n
  | boolean n b => exact .boolean n b
  | number n x => exact .number n x
  | string n s => exact .string n s
  | @array n items _ ih =>
      rw [canonical_array]
      refine .array fun item hitem => ?_
      obtain ⟨source, hsource, rfl⟩ := List.mem_map.mp hitem
      exact ih source hsource
  | @object n members _ ih =>
      rw [canonical_object]
      refine .object fun member hmember => ?_
      obtain ⟨source, hsource, rfl⟩ := mem_canonical hmember
      exact ih source hsource

/-- The canonical form has no key twice. -/
theorem distinct_canonical (value : Json) : value.canonical.Distinct := by
  induction value using induct with
  | null => exact .null
  | boolean b => exact .boolean b
  | number n => exact .number n
  | string s => exact .string s
  | array items ih =>
      rw [canonical_array]
      refine .array fun item hitem => ?_
      obtain ⟨source, hsource, rfl⟩ := List.mem_map.mp hitem
      exact ih source hsource
  | object members ih =>
      rw [canonical_object]
      refine .object (keysIncrease_ordered _).nodup fun member hmember => ?_
      obtain ⟨source, hsource, rfl⟩ := mem_canonical hmember
      exact ih source hsource

/-- The value of a text has no key twice, even if the text has. -/
theorem distinct_of_parse {text : String} {value : Json} (h : parse text = .ok value) :
    value.Distinct := by
  unfold parse at h
  cases htree : ofText text with
  | error e =>
      rw [htree] at h
      cases h
  | ok tree =>
      rw [htree] at h
      cases h
      exact distinct_canonical tree

/-- The canonical form stands for itself. -/
@[simp] theorem canonical_canonical (value : Json) : value.canonical.canonical = value.canonical := by
  induction value using induct with
  | null => rfl
  | boolean b => rfl
  | number n => rfl
  | string s => rfl
  | array items ih =>
      rw [canonical_array, canonical_array, List.map_map]
      exact congrArg Json.array (List.map_congr_left ih)
  | object members ih =>
      have hmembers : (ordered (members.map fun m => (m.1, m.2.canonical))).map
          (fun m => (m.1, m.2.canonical)) =
            ordered (members.map fun m => (m.1, m.2.canonical)) := by
        refine (List.map_congr_left fun member hmember => ?_).trans (List.map_id _)
        obtain ⟨source, hsource, rfl⟩ := mem_canonical hmember
        exact Prod.ext rfl (ih source hsource)
      rw [canonical_object, canonical_object, hmembers, (keysIncrease_ordered _).ordered_eq]

/-- What the canonical form has under a key is the canonical form of what was put there last. -/
theorem lookup_canonical (members : List (String × Json)) (key : String) :
    (ordered (members.map fun m => (m.1, m.2.canonical))).reverse.lookup key =
      (members.reverse.lookup key).map canonical := by
  rw [lookup_reverse (keysIncrease_ordered _).nodup, lookup_ordered, ← List.map_reverse]
  induction members.reverse with
  | nil => rfl
  | cons member members ih =>
      obtain ⟨k, v⟩ := member
      rw [List.map_cons, lookup_entry_cons, lookup_entry_cons, ih]
      split <;> rfl

/-! ### Reordering -/

/-- A value is a reordering of itself. -/
theorem Reordered.refl (value : Json) : Reordered value value := by
  induction value using induct with
  | null => exact .null
  | boolean b => exact .boolean b
  | number n => exact .number n
  | string s => exact .string s
  | array items ih => exact .array (List.forall₂_same.mpr ih)
  | object members ih =>
      exact .object (List.forall₂_same.mpr fun m hm => .intro m.1 (ih m hm)) (.refl members)

/-- Nothing else is a reordering of `null`. -/
theorem Reordered.ne_null {value other : Json} (h : Reordered value other) (hne : value ≠ .null) :
    other ≠ .null := by
  rintro rfl
  cases h
  exact hne rfl

theorem forall₂_underKey_keys {related : Json → Json → Prop} {a b : List (String × Json)}
    (h : List.Forall₂ (UnderKey related) a b) : a.map Prod.fst = b.map Prod.fst := by
  induction h with
  | nil => rfl
  | cons hmember _ ih =>
      cases hmember
      rw [List.map_cons, List.map_cons, ih]

/-- A reordering of an object is an object. -/
theorem Reordered.eq_object {members : List (String × Json)} {other : Json}
    (h : Reordered (.object members) other) : ∃ members', other = .object members' := by
  cases h
  exact ⟨_, rfl⟩

/-- A reordering has the same keys. -/
theorem Reordered.keys_perm {members members' : List (String × Json)}
    (h : Reordered (.object members) (.object members')) :
    (members.map Prod.fst).Perm (members'.map Prod.fst) := by
  cases h with
  | object hmembers hperm =>
      rw [forall₂_underKey_keys hmembers]
      exact hperm.map Prod.fst

/-- **The canonical form of a reordering is a reordering.** -/
theorem Reordered.canonical {value other : Json} (hdistinct : value.Distinct)
    (h : Reordered value other) : Reordered value other.canonical := by
  induction hdistinct generalizing other with
  | null => cases h; exact .null
  | boolean b => cases h; exact .boolean b
  | number n => cases h; exact .number n
  | string s => cases h; exact .string s
  | @array items _ ih =>
      cases h with
      | array hitems =>
          rw [canonical_array]
          have hboth := (List.forall₂_and_left items _).mpr ⟨@ih, hitems⟩
          exact .array (List.forall₂_map_right_iff.mpr (hboth.imp fun _ _ h => h.1 h.2))
  | @object members hkeys _ ih =>
      cases h with
      | @object _ between members' hmembers hperm =>
          have hboth := (List.forall₂_and_left members _).mpr ⟨@ih, hmembers⟩
          have hvalues : List.Forall₂ (UnderKey Reordered) members
              (between.map fun m => (m.1, m.2.canonical)) := by
            refine List.forall₂_map_right_iff.mpr (hboth.imp ?_)
            rintro _ _ ⟨hcanonical, ⟨key, hvalue⟩⟩
            exact .intro key (hcanonical hvalue)
          have hnodup : ((members'.map fun m => (m.1, m.2.canonical)).map Prod.fst).Nodup := by
            rw [map_fst_canonical, ← (hperm.map Prod.fst).nodup_iff,
              ← forall₂_underKey_keys hmembers]
            exact hkeys
          rw [canonical_object]
          exact .object hvalues ((hperm.map _).trans (perm_ordered hnodup).symm)

theorem map_eq_map_of_forall₂ {α β γ : Type} {f : α → γ} {g : β → γ} {as : List α} {bs : List β}
    (h : List.Forall₂ (fun a b => f a = g b) as bs) : as.map f = bs.map g := by
  induction h with
  | nil => rfl
  | cons hfirst _ ih => rw [List.map_cons, List.map_cons, hfirst, ih]

/-- **A reordering stands for the same value.** -/
theorem Reordered.canonical_eq {value other : Json} (hdistinct : value.Distinct)
    (h : Reordered value other) : value.canonical = other.canonical := by
  induction hdistinct generalizing other with
  | null => cases h; rfl
  | boolean b => cases h; rfl
  | number n => cases h; rfl
  | string s => cases h; rfl
  | @array items _ ih =>
      cases h with
      | array hitems =>
          have hboth := (List.forall₂_and_left items _).mpr ⟨@ih, hitems⟩
          rw [canonical_array, canonical_array,
            map_eq_map_of_forall₂ (hboth.imp fun _ _ h => h.1 h.2)]
  | @object members hkeys _ ih =>
      cases h with
      | @object _ between members' hmembers hperm =>
          have hboth := (List.forall₂_and_left members _).mpr ⟨@ih, hmembers⟩
          have hvalues : members.map (fun m => (m.1, m.2.canonical)) =
              between.map fun m => (m.1, m.2.canonical) := by
            refine map_eq_map_of_forall₂ (hboth.imp ?_)
            rintro _ _ ⟨hcanonical, ⟨key, hvalue⟩⟩
            rw [hcanonical hvalue]
          have hnodup : ((between.map fun m => (m.1, m.2.canonical)).map Prod.fst).Nodup := by
            rw [map_fst_canonical, ← forall₂_underKey_keys hmembers]
            exact hkeys
          rw [canonical_object, canonical_object, hvalues, ordered_eq_of_perm hnodup (hperm.map _)]

/-! ### Nothing to reorder -/

/-- No object in the value has more than one member. -/
inductive Single : Json → Prop
  | null : Single .null
  | boolean (b : Bool) : Single (.boolean b)
  | number (n : Number) : Single (.number n)
  | string (s : String) : Single (.string s)
  | array {items : List Json} (h : ∀ item ∈ items, Single item) : Single (.array items)
  | empty : Single (.object [])
  | member (key : String) {value : Json} (h : Single value) : Single (.object [(key, value)])

/-- Such a value is a reordering of itself only. -/
theorem Single.eq_of_reordered {value other : Json} (h : other.Single)
    (hother : Reordered value other) : value = other := by
  induction h generalizing value with
  | null => cases hother; rfl
  | boolean b => cases hother; rfl
  | number n => cases hother; rfl
  | string s => cases hother; rfl
  | @array items _ ih =>
      cases hother with
      | @array sources _ hitems =>
          have hsame : List.Forall₂ (fun item source => source = item) items sources :=
            ((List.forall₂_and_left items sources).mpr ⟨ih, hitems.flip⟩).imp
              fun item source ⟨hsingle, hreordered⟩ => hsingle hreordered
          have hflip : List.Forall₂ (· = ·) sources items := hsame.flip
          rw [List.forall₂_eq_eq_eq] at hflip
          rw [hflip]
  | empty =>
      cases hother with
      | object hmembers hperm =>
          cases hperm.eq_nil
          cases hmembers
          rfl
  | @member key _ _ ih =>
      cases hother with
      | object hmembers hperm =>
          cases hperm.eq_singleton
          cases hmembers with
          | cons hfirst hrest =>
              cases hrest
              obtain ⟨_, hvalue⟩ := hfirst
              rw [ih hvalue]

theorem Single.canonical_eq {value : Json} (h : value.Single) : value.canonical = value := by
  induction h with
  | null => rfl
  | boolean b => rfl
  | number n => rfl
  | string s => rfl
  | @array items _ ih => rw [canonical_array, List.map_congr_left ih, List.map_id']
  | empty => rfl
  | member key _ ih =>
      rw [canonical_object]
      simp [ih, ordered, insertOrdered]

/-! ### What a reordering keeps -/

/-- Every member of a reordering comes from a member of the same key. -/
theorem exists_mem_of_reordered {members between members' : List (String × Json)}
    (h : List.Forall₂ (UnderKey Reordered) members between) (hperm : between.Perm members')
    {member : String × Json} (hmember : member ∈ members') :
    ∃ source ∈ members, source.1 = member.1 ∧ Reordered source.2 member.2 := by
  have hbetween := hperm.mem_iff.mpr hmember
  clear hperm hmember
  induction h with
  | nil => cases hbetween
  | @cons source other members between hfirst _ ih =>
      rcases List.mem_cons.mp hbetween with rfl | hrest
      · obtain ⟨key, hvalue⟩ := hfirst
        exact ⟨_, List.mem_cons_self, rfl, hvalue⟩
      · obtain ⟨source, hsource, hsame⟩ := ih hrest
        exact ⟨source, List.mem_cons_of_mem _ hsource, hsame⟩

theorem exists_item_of_reordered {items items' : List Json}
    (h : List.Forall₂ Reordered items items') {item : Json} (hitem : item ∈ items') :
    ∃ source ∈ items, Reordered source item := by
  induction h with
  | nil => cases hitem
  | @cons source other items items' hfirst _ ih =>
      rcases List.mem_cons.mp hitem with rfl | hrest
      · exact ⟨source, List.mem_cons_self, hfirst⟩
      · obtain ⟨source, hsource, hsame⟩ := ih hrest
        exact ⟨source, List.mem_cons_of_mem _ hsource, hsame⟩

theorem Integral.reordered {value other : Json} (h : value.Integral)
    (hother : Reordered value other) : other.Integral := by
  induction h generalizing other with
  | null => cases hother; exact .null
  | boolean b => cases hother; exact .boolean b
  | integer n h => cases hother; exact .integer n h
  | string s => cases hother; exact .string s
  | @array items _ ih =>
      cases hother with
      | array hitems =>
          refine .array fun item hitem => ?_
          obtain ⟨source, hsource, hsame⟩ := exists_item_of_reordered hitems hitem
          exact ih source hsource hsame
  | @object members _ ih =>
      cases hother with
      | object hmembers hperm =>
          refine .object fun member hmember => ?_
          obtain ⟨source, hsource, -, hsame⟩ := exists_mem_of_reordered hmembers hperm hmember
          exact ih source hsource hsame

theorem Within.reordered {levels : Nat} {value other : Json} (h : Within levels value)
    (hother : Reordered value other) : Within levels other := by
  induction h generalizing other with
  | null n => cases hother; exact .null n
  | boolean n b => cases hother; exact .boolean n b
  | number n x => cases hother; exact .number n x
  | string n s => cases hother; exact .string n s
  | @array n items _ ih =>
      cases hother with
      | array hitems =>
          refine .array fun item hitem => ?_
          obtain ⟨source, hsource, hsame⟩ := exists_item_of_reordered hitems hitem
          exact ih source hsource hsame
  | @object n members _ ih =>
      cases hother with
      | object hmembers hperm =>
          refine .object fun member hmember => ?_
          obtain ⟨source, hsource, -, hsame⟩ := exists_mem_of_reordered hmembers hperm hmember
          exact ih source hsource hsame

end WorkspaceControl.Json
