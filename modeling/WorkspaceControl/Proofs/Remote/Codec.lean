import WorkspaceControl.Proofs.Wire.Lossless
import WorkspaceControl.Proofs.Wire.SetAside
import WorkspaceControl.Remote.Codec

/-!
# Remote values come back

The stage is found wherever it stands among the members, and what is set aside meanwhile is the
message or the data that the stage has beside it. So a remote value travels without loss if what it
holds does.
-/

namespace WorkspaceControl.Remote

open Wire Json Brackets

variable {α : Type} [Record α]

/-- The members that stand beside the stage. -/
def contents : Remote α → List (String × Json)
  | idle | pending => []
  | error message => [("message", .string message)]
  | success a | refetching a => [("data", Codec.encode a)]

theorem encode_eq (r : Remote α) :
    encodeWith Codec.encode r = .object ((stageField, .string r.stage.name) :: contents r) := by
  cases r <;> rfl

theorem stageField_not_mem (r : Remote α) : stageField ∉ (contents r).map Prod.fst := by
  have hmessage : stageField ≠ "message" := by decide
  have hdata : stageField ≠ "data" := by decide
  cases r <;> simp [contents, hmessage, hdata]

theorem nodup_keys (r : Remote α) : (stageField :: (contents r).map Prod.fst).Nodup := by
  refine List.nodup_cons.mpr ⟨stageField_not_mem r, ?_⟩
  cases r <;> simp [contents]

theorem plain_contents (h : (Record.shape α).sound = true) {r : Remote α} {member : String × Json}
    (hmember : member ∈ contents r) : Plain (Record.shape α).depth member.2 := by
  cases r with
  | idle => cases hmember
  | pending => cases hmember
  | error message =>
      cases List.mem_singleton.mp hmember
      exact .string _ message
  | success a =>
      cases List.mem_singleton.mp hmember
      exact (Record.shape α).plain_encode h (Record.pack a)
  | refetching a =>
      cases List.mem_singleton.mp hmember
      exact (Record.shape α).plain_encode h (Record.pack a)

theorem plain_encode (h : (Record.shape α).sound = true) (r : Remote α) :
    Plain ((Record.shape α).depth + 1) (encodeWith Codec.encode r) := by
  rw [encode_eq]
  refine .object (nodup_keys r) fun member hmember => ?_
  rcases List.mem_cons.mp hmember with rfl | hcontents
  · exact .string _ r.stage.name
  · exact plain_contents h hcontents

/-! ### What is set aside -/

theorem toStage_name (stage : Stage) : toStage (.string stage.name) = .ok stage := by
  cases stage <;> rfl

/-- The only field of a stage is decoded from a reordering of it. -/
theorem toField_of_reordered (shape : Shape) (h : shape.sound = true) (stage name : String)
    (data : shape.Data) {content : Json}
    (hcontent : Reordered (.object [(name, shape.encode data)]) content) :
    toField stage name shape content = .ok data := by
  have hsound : (Shape.record ("struct variant RemoteData::" ++ stage)
      (.cons name .required shape .nil)).sound = true := by
    simp [Shape.sound, Fields.sound, Fields.names, h]
  have hdecode := Shape.ofJson_encode .setAside _ hsound (data, ()) content hcontent
  rw [toField, hdecode]
  rfl

/-- A remote value is decoded from its stage and what was set aside. -/
theorem ofTagged_of_reordered (h : (Record.shape α).sound = true) (r : Remote α)
    {aside : List (String × Json)}
    (haside : Reordered (.object (contents r)) (.object aside)) :
    ofTagged (r.stage, .object aside) = .ok r := by
  cases r with
  | idle => rfl
  | pending => rfl
  | error message =>
      have hmessage : toField "Error" "message" .string (.object aside) = .ok message :=
        toField_of_reordered .string rfl "Error" "message" message haside
      rw [stage, ofTagged, hmessage]
      rfl
  | success a =>
      have hdata : toField "Success" "data" (Record.shape α) (.object aside) = .ok (Record.pack a) :=
        toField_of_reordered _ h "Success" "data" (Record.pack a) haside
      rw [stage, ofTagged, hdata]
      exact congrArg (Except.ok ∘ Remote.success) (Record.unpack_pack a)
  | refetching a =>
      have hdata : toField "Refetching" "data" (Record.shape α) (.object aside) =
          .ok (Record.pack a) := toField_of_reordered _ h "Refetching" "data" (Record.pack a) haside
      rw [stage, ofTagged, hdata]
      exact congrArg (Except.ok ∘ Remote.refetching) (Record.unpack_pack a)

/-! ### Both ways of reading -/

/-- The stage of a value is found in a reordering of it, and the rest set aside. -/
theorem tagged_of_reordered {r : Remote α} {other : Json}
    (h : Reordered (encodeWith Codec.encode r) other) :
    ∃ aside, tagged other = .ok (r.stage, .object aside) ∧
      Reordered (.object (contents r)) (.object aside) := by
  have hnew := stageField_not_mem r
  rw [encode_eq] at h
  obtain ⟨members, rfl⟩ := h.eq_object
  have hmem : stageField ∈ members.map Prod.fst := h.keys_perm.mem_iff.mp List.mem_cons_self
  obtain ⟨⟨_, value⟩, hmember, rfl⟩ := List.mem_map.mp hmem
  have hvalue := reordered_of_mem h hnew hmember
  cases hvalue
  have hlookup := lookup_of_mem (h.keys_perm.nodup_iff.mp (nodup_keys r)) hmember
  refine ⟨_, ?_, reordered_aside h hnew⟩
  rw [tagged, hlookup]
  simp only [toStage_name]
  rfl

/-- Reads a member: the stage, or a value that is set aside. -/
def readMember (met : Option Stage × List (String × Json)) (key : String) :
    Reader (Option Stage × List (String × Json)) := fun text =>
  if key = stageField then do
    let (stage, rest) ← readSlot stageField (readScalar .variant toStage) met.1 text
    return ((stage, met.2), rest)
  else do
    let (value, rest) ← colon text >>= Json.readValue (Json.deepest - 1)
    return ((met.1, met.2 ++ [(key, value)]), rest)

theorem takes_stage (stage : Stage) (aside : List (String × Json)) :
    Takes readMember (none, aside) stageField (.string stage.name) (some stage, aside) := by
  intro rest hrest
  have hread : Reads (readScalar .variant toStage) (.string stage.name) stage :=
    reads_readScalar (fun rest _ => readHead_string _ rest) (toStage_name stage)
  refine (if_pos rfl).trans ?_
  simp only [readSlot, colon_cons, bind, Except.bind, hread rest hrest]
  rfl

/-- A member of another key is read and set aside. -/
theorem takes_other {key : String} {value : Json} (hkey : key ≠ stageField)
    (hwithin : Within (deepest - 1) value) (hint : value.Integral) (stage : Option Stage)
    (aside : List (String × Json)) :
    Takes readMember (stage, aside) key value (stage, aside ++ [(key, value)]) := by
  intro rest hrest
  have hread := reads_readValue hwithin hint rest hrest
  refine (if_neg hkey).trans ?_
  simp only [colon_cons, bind, Except.bind, hread]
  rfl

/-- The stage is read from the text of a reordering, and the rest set aside. -/
theorem readTagged_of_reordered (hsound : (Record.shape α).sound = true)
    (hdepth : (Record.shape α).depth + 1 ≤ deepest) {r : Remote α} {other : Json}
    (h : Reordered (encodeWith Codec.encode r) other) :
    ∃ aside, Reads readTagged other (r.stage, .object aside) ∧
      Reordered (.object (contents r)) (.object aside) := by
  have hint := (plain_encode hsound r).integral.reordered h
  have hwithin := (plain_encode hsound r).within.reordered h
  rw [encode_eq] at h
  obtain ⟨members, rfl⟩ := h.eq_object
  cases hint with
  | object hint =>
      cases hwithin with
      | object hwithin =>
          obtain ⟨aside, hgathers, haside⟩ := gathers_aside_of_reordered (Takes readMember)
            Prod.mk h (nodup_keys r)
            (fun other hvalue aside => by cases hvalue; exact takes_stage r.stage aside)
            fun _ _ hmember hkey => takes_other hkey ((hwithin _ hmember).mono (by omega))
              (hint _ hmember)
          refine ⟨aside, fun rest _ => ?_, haside⟩
          obtain ⟨body, hwrite, hread⟩ := readObject_write hgathers hint rest
          rw [hwrite]
          exact congrArg (· >>= _) hread

/-- **A remote value travels without loss.** -/
theorem lossless (hsound : (Record.shape α).sound = true)
    (hdepth : (Record.shape α).depth + 1 ≤ deepest) : Lossless (Remote α) := by
  refine .of_plain (fun r => (plain_encode hsound r).mono hdepth) (fun r other hother => ?_)
    fun r tree htree => ?_
  · obtain ⟨aside, hread, haside⟩ := readTagged_of_reordered hsound hdepth hother
    have htagged : readTagged other.render.toList = .ok ((r.stage, .object aside), []) := by
      rw [render, String.toList_ofList]
      exact hread [] Number.ends_nil
    change (do
      let p ← placed other.render.toList (readTagged other.render.toList)
      let r ← unplaced (ofTagged p.1)
      placed other.render.toList (ended p.2)
      return r) = Except.ok r
    rw [htagged]
    simp only [placed, bind, Except.bind, ofTagged_of_reordered hsound r haside]
    rfl
  · obtain ⟨aside, htagged, haside⟩ := tagged_of_reordered htree
    change unplaced (tagged tree >>= ofTagged) = .ok r
    rw [htagged]
    exact congrArg unplaced (ofTagged_of_reordered hsound r haside)

end WorkspaceControl.Remote
