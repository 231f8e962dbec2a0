import WorkspaceControl.Proofs.Wire.Lossless
import WorkspaceControl.Proofs.Wire.SetAside
import WorkspaceControl.Records.EventsRequest

/-!
# Requests for events come back

The fields of a page request stand beside the list of logs. What is set aside when the logs are taken
is those fields and nothing else, so it decodes as the page request; and nothing set aside, which is
what a request without a page leaves, is no page request.
-/

namespace WorkspaceControl.EventsRequest

open Wire Json Brackets

/-- The members that stand beside the logs. -/
def pageMembers : Option Pagination → List (String × Json)
  | some p => Pagination.fields.encode p.pack
  | none => []

theorem encode_eq (r : EventsRequest) :
    encode r = .object ((logsField, .array (r.logs.map .string)) :: pageMembers r.pagination) := by
  obtain ⟨logs, pagination⟩ := r
  cases pagination <;> rfl

theorem sound_fields : Pagination.fields.sound = true := by decide

theorem keys_pageMembers (pagination : Option Pagination) :
    ((pageMembers pagination).map Prod.fst).Sublist Pagination.fields.names := by
  cases pagination with
  | none => exact List.nil_sublist _
  | some p => exact Pagination.fields.keys_encode_sublist p.pack

/-- No field of a page request has the name of the logs. -/
theorem logsField_not_mem (pagination : Option Pagination) :
    logsField ∉ (pageMembers pagination).map Prod.fst := by
  intro hmem
  have hname : logsField ∈ Pagination.fields.names := (keys_pageMembers pagination).subset hmem
  exact absurd hname (by decide)

theorem nodup_keys (pagination : Option Pagination) :
    (logsField :: (pageMembers pagination).map Prod.fst).Nodup :=
  List.nodup_cons.mpr ⟨logsField_not_mem pagination,
    (Pagination.fields.nodup_names sound_fields).sublist (keys_pageMembers pagination)⟩

theorem plain_pageMembers {pagination : Option Pagination} {member : String × Json}
    (h : member ∈ pageMembers pagination) : Plain 1 member.2 := by
  cases pagination with
  | none => cases h
  | some p => exact (Pagination.fields.plain_encode sound_fields p.pack member h).mono (by decide)

theorem plain_encode (r : EventsRequest) : Plain 2 (encode r) := by
  rw [encode_eq]
  refine .object (nodup_keys r.pagination) fun member hmember => ?_
  rcases List.mem_cons.mp hmember with rfl | hpage
  · exact (Shape.list .string).plain_encode rfl r.logs
  · exact plain_pageMembers hpage

/-- What is set aside is the page request that was written. -/
theorem page?_of_reordered {pagination : Option Pagination} {aside : List (String × Json)}
    (h : Reordered (.object (pageMembers pagination)) (.object aside)) :
    page? aside = pagination := by
  cases pagination with
  | none =>
      cases h with
      | object hmembers hperm =>
          cases hmembers
          rw [List.nil_perm.mp hperm]
          rfl
  | some p =>
      have hdecode : (Record.shape Pagination).ofJson .setAside (.object aside) = .ok p.pack :=
        (Record.shape Pagination).ofJson_encode .setAside sound_fields p.pack _ h
      rw [page?, hdecode]
      rfl

/-- A request is gathered from the members of any reordering of what it is written as. -/
theorem gathers_reordered {r : EventsRequest} {members : List (String × Json)}
    (h : Reordered (encode r) (.object members))
    (takes : Gathered → String → Json → Gathered → Prop)
    (hfield : ∀ other, Reordered (.array (r.logs.map .string)) other → ∀ aside,
      takes ⟨none, aside⟩ logsField other ⟨some r.logs, aside⟩)
    (hother : ∀ key value, (key, value) ∈ members → key ≠ logsField → ∀ logs aside,
      takes ⟨logs, aside⟩ key value ⟨logs, aside ++ [(key, value)]⟩) :
    ∃ gathered, Gathers takes .nothing members gathered ∧ gathered.finish = .ok r := by
  rw [encode_eq] at h
  obtain ⟨aside, hgathers, haside⟩ :=
    gathers_aside_of_reordered takes Gathered.mk h (nodup_keys r.pagination) hfield hother
  refine ⟨_, hgathers, ?_⟩
  rw [Gathered.finish, page?_of_reordered haside]

/-! ### Both ways of reading -/

theorem fill_logs {logs : List String} {other : Json}
    (h : Reordered (.array (logs.map .string)) other) (aside : List (String × Json)) :
    fill ⟨none, aside⟩ logsField other = .ok ⟨some logs, aside⟩ := by
  have hlogs : toList toText other = .ok logs :=
    toList_encode (fun s other (hs : Reordered (.string s) other) => by cases hs; rfl) h
  rw [fill, if_pos rfl]
  simp only [hlogs]
  rfl

/-- A request is decoded from a reordering of what it is written as. -/
theorem ofJson_reordered {r : EventsRequest} {other : Json} (h : Reordered (encode r) other) :
    ofJson other = .ok r := by
  obtain ⟨members, rfl⟩ := (encode_eq r ▸ h).eq_object
  obtain ⟨gathered, hgathers, hfinish⟩ := gathers_reordered h
    (fun g key value g' => fill g key value = .ok g') (fun _ hother aside => fill_logs hother aside)
    fun _ _ _ hkey _ _ => if_neg hkey
  have hgathered : members.foldlM (fun g m => fill g m.1 m.2) .nothing = .ok gathered :=
    foldlM_of_gathers hgathers
  change members.foldlM (fun g m => fill g m.1 m.2) .nothing >>= Gathered.finish = .ok r
  rw [hgathered]
  exact hfinish

theorem takes_logs {logs : List String} {other : Json}
    (h : Reordered (.array (logs.map .string)) other) (aside : List (String × Json)) :
    Takes readMember ⟨none, aside⟩ logsField other ⟨some logs, aside⟩ := by
  intro rest hrest
  have hread := (Shape.list .string).reads_encode rfl logs other h rest hrest
  refine (if_pos rfl).trans ?_
  simp only [readSlot, colon_cons, bind, Except.bind, hread]
  rfl

/-- A member of another key is read and set aside. -/
theorem takes_other {key : String} {value : Json} (hkey : key ≠ logsField)
    (hwithin : Within (deepest - 1) value) (hint : value.Integral) (logs : Option (List String))
    (aside : List (String × Json)) :
    Takes readMember ⟨logs, aside⟩ key value ⟨logs, aside ++ [(key, value)]⟩ := by
  intro rest hrest
  have hread := reads_readValue hwithin hint rest hrest
  refine (if_neg hkey).trans ?_
  simp only [colon_cons, bind, Except.bind, hread]
  rfl

/-- A request is read from the text of a reordering of what it is written as. -/
theorem reads_reordered {r : EventsRequest} {other : Json} (h : Reordered (encode r) other) :
    Reads read other r := by
  have hint := (plain_encode r).integral.reordered h
  have hwithin := (plain_encode r).within.reordered h
  obtain ⟨members, rfl⟩ := (encode_eq r ▸ h).eq_object
  cases hint with
  | object hint =>
      cases hwithin with
      | object hwithin =>
          intro rest _
          obtain ⟨gathered, hgathers, hfinish⟩ := gathers_reordered h (Takes readMember)
            (fun _ hother aside => takes_logs hother aside)
            fun _ _ hmember hkey => takes_other hkey ((hwithin _ hmember).mono (by decide))
              (hint _ hmember)
          obtain ⟨body, hwrite, hread⟩ := readObject_write hgathers hint rest
          have hblank : isBlank '\x7b' = false := by decide
          rw [hwrite, read, skipBlanks_cons hblank]
          simp only [bind, Except.bind, hread, settle, hfinish]

/-- **A request for events travels without loss.** -/
theorem lossless : Lossless EventsRequest := by
  refine .of_plain (fun r => (plain_encode r).mono (by decide)) (fun r other hother => ?_)
    fun r tree htree => ?_
  · exact placed_readWhole_render (reads_reordered hother)
  · change unplaced (ofJson tree) = .ok r
    rw [ofJson_reordered htree]
    rfl

end WorkspaceControl.EventsRequest
