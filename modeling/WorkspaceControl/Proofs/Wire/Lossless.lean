import WorkspaceControl.Proofs.Wire.FromText
import WorkspaceControl.Wire.Codec

/-!
# Types that travel without loss

A type is `Lossless` if its values come back from the texts that are written for them, straight from
the text and by way of the value that the text stands for. A record is if its shape is sound and not
too deep (`Record.lossless`), both of which are decided by looking at the shape.

The order of members is not part of what is asked: a text may have them in any order, as a writer does
that keeps the entries of a dictionary in no order.
-/

namespace WorkspaceControl.Wire

open Json

/-- Values come back from what they are written as, and what was read once stays as it is. -/
structure Lossless (α : Type) [Codec α] : Prop where
  /-- Straight from the text. -/
  read_render (a : α) : Codec.read (Codec.render a) = .ok a
  /-- By way of the value of the text. -/
  parse_render (a : α) : Codec.parse (Codec.render a) = .ok a
  /-- Straight from a text that has the members in another order. -/
  read_reordered (a : α) {other : Json} (h : Reordered (Codec.encode a) other) :
    Codec.read other.render = .ok a
  /-- By way of the value of a text that has the members in another order. -/
  parse_reordered (a : α) {other : Json} (h : Reordered (Codec.encode a) other) :
    Codec.parse other.render = .ok a
  /-- The canonical form is one of these orders. -/
  parse_canonical (a : α) : Codec.parse (Codec.encode a).canonical.render = .ok a
  /-- Reading and writing again changes an accepted text once at most. -/
  read_settled {text written : String} (h : Codec.render (α := α) <$> Codec.read text = .ok written) :
    Codec.render (α := α) <$> Codec.read written = .ok written
  parse_settled {text written : String}
    (h : Codec.render (α := α) <$> Codec.parse text = .ok written) :
    Codec.render (α := α) <$> Codec.parse written = .ok written

variable {α : Type}

theorem eq_render_of_map_eq_ok [Codec α] {made : Except DecodeError α} {written : String}
    (h : Codec.render <$> made = .ok written) : ∃ a : α, written = Codec.render a := by
  cases made with
  | error e => cases h
  | ok a =>
      cases h
      exact ⟨a, rfl⟩

/-- The value that a written text stands for is decoded, in whatever order the text has its
members. -/
theorem parse_render_of_plain [Codec α] {value other : Json} {a : α}
    (hplain : Plain deepest value) (hother : Reordered value other)
    (hdecode : ∀ tree, Reordered value tree → Codec.ofJson tree = .ok a) :
    Codec.parse other.render = .ok a := by
  have hvalue := Json.parse_render (hplain.within.reordered hother) (hplain.integral.reordered hother)
  rw [Codec.parse, hvalue]
  exact hdecode _ (hother.canonical hplain.distinct)

/-- It is enough that values are written as plain ones, and come back from texts and from values with
the members in any order. -/
theorem Lossless.of_plain [Codec α] (hplain : ∀ a : α, Plain deepest (Codec.encode a))
    (hread : ∀ a : α, ∀ other, Reordered (Codec.encode a) other → Codec.read other.render = .ok a)
    (hdecode : ∀ a : α, ∀ tree, Reordered (Codec.encode a) tree → Codec.ofJson tree = .ok a) :
    Lossless α := by
  have hparse (a : α) (other : Json) (h : Reordered (Codec.encode a) other) :
      Codec.parse other.render = .ok a := parse_render_of_plain (hplain a) h (hdecode a)
  have hrendered (a : α) : Codec.read (Codec.render a) = .ok a ∧ Codec.parse (Codec.render a) = .ok a :=
    ⟨hread a _ (.refl _), hparse a _ (.refl _)⟩
  exact {
    read_render := fun a => (hrendered a).1
    parse_render := fun a => (hrendered a).2
    read_reordered := fun a _ h => hread a _ h
    parse_reordered := fun a _ h => hparse a _ h
    parse_canonical := fun a => hparse a _ ((Reordered.refl _).canonical (hplain a).distinct)
    read_settled := fun h => by
      obtain ⟨a, rfl⟩ := eq_render_of_map_eq_ok h
      rw [(hrendered a).1]
      rfl
    parse_settled := fun h => by
      obtain ⟨a, rfl⟩ := eq_render_of_map_eq_ok h
      rw [(hrendered a).2]
      rfl }

/-- A whole text is read by whoever reads the value that was written to it. -/
theorem placed_readWhole_render {reader : Reader α} {value : Json} {a : α}
    (h : Reads reader value a) :
    placed value.render.toList (readWhole reader value.render.toList) = .ok a := by
  rw [render, String.toList_ofList, readWhole_write h]
  rfl

/-- **A record of a sound shape travels without loss.** -/
theorem Record.lossless [Record α] (hsound : (Record.shape α).sound = true)
    (hdepth : (Record.shape α).depth ≤ deepest) : Lossless α := by
  refine .of_plain (fun a => ?_) (fun a other hother => ?_) fun a tree htree => ?_
  · exact ((Record.shape α).plain_encode hsound (Record.pack a)).mono hdepth
  · have hread := (Record.shape α).reads_encode hsound (Record.pack a) other hother
    change (do
      let data ← placed other.render.toList (readWhole (Record.shape α).read other.render.toList)
      return Record.unpack data) = Except.ok a
    rw [placed_readWhole_render hread]
    exact congrArg Except.ok (Record.unpack_pack a)
  · have hdecode := (Record.shape α).ofJson_encode .whole hsound (Record.pack a) tree htree
    change (do
      let data ← unplaced ((Record.shape α).ofJson .whole tree)
      return Record.unpack data) = Except.ok a
    rw [hdecode]
    exact congrArg Except.ok (Record.unpack_pack a)

end WorkspaceControl.Wire
