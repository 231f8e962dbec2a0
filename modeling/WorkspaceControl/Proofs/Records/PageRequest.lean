import WorkspaceControl.Proofs.Records.EventsRequest
import WorkspaceControl.Proofs.Wire.Reading

/-!
# What makes a request for events

An object is **a request for events if and only if its logs are a list of texts**, whatever else it
has (`EventsRequest.Decoding.accepts_exactly`). Five members count and no others. Four of them make a
page request together or, if one of them does not fit, none at all: then the request asks for no page,
and nothing that could have been decoded is kept.

It does not matter which way the object is decoded, straight from a text or from a value
(`EventsRequest.Decoding`). Reading from text sets aside what decoding sets aside, so the reader makes
of a text what the decoder makes of the value it writes (`EventsRequest.decodes_read`).
-/

namespace WorkspaceControl

open Wire Json Brackets

/-! ### Page requests -/

/-- A value names a kind of page: it is decoded to it, or is the name of the kind beside an empty
object, which counts as nothing among members set aside. -/
def PageKind.NamedBy (value : Json) (kind : PageKind) : Prop :=
  Codec.ofJson value = (.ok kind : Except DecodeError PageKind) ∨
    value = .object [("after-cursor", .object [])]

/-- There is one kind of page, and these are the values that name it. -/
theorem PageKind.namedBy_iff {value : Json} {kind : PageKind} :
    kind.NamedBy value ↔ value = .string "after-cursor" ∨
      value = .object [("after-cursor", .null)] ∨ value = .object [("after-cursor", .object [])] := by
  have hchoice {i : Fin 1} : toChoice .whole ["after-cursor"] value = .ok i ↔
      value = .string "after-cursor" ∨ value = .object [("after-cursor", .null)] := by
    obtain rfl := Fin.fin_one_eq_zero i
    refine (toChoice_eq_ok_iff (by decide)).trans ?_
    simp
  have hdecoded : Codec.ofJson value = (.ok kind : Except DecodeError PageKind) ↔
      value = .string "after-cursor" ∨ value = .object [("after-cursor", .null)] := by
    rw [Wire.ofJson_eq_ok_iff]
    constructor
    · intro h
      obtain ⟨i, hi, -⟩ := h
      exact hchoice.mp hi
    · intro h
      exact ⟨(0 : Fin 1), hchoice.mpr h, rfl⟩
  rw [NamedBy, hdecoded, or_assoc]

namespace Pagination

/-- A page request stands in a value. -/
@[mk_iff]
structure StandsIn (value : Json) (p : Pagination) : Prop where
  kind : ∃ json, value.member? "type" = some json ∧ p.kind.NamedBy json
  cursor : Optionally .string (value.member? "cursor") p.cursor
  prev : Optionally ofWord (value.member? "prev") p.prev
  next : Optionally ofWord (value.member? "next") p.next

/-- A number of events that a value may hint at. -/
def Hints (value : Json) : Prop :=
  ∃ n h, value = .number (.integer n h) ∧ 0 ≤ n ∧ n < 0x100000000

/-- A value asks for a page: it names a kind of page, and its cursor and its hints are each absent,
`null`, or a text and numbers of events. -/
structure AskedBy (value : Json) : Prop where
  kind : ∃ json, value.member? "type" = some json ∧ ∃ kind : PageKind, kind.NamedBy json
  cursor : ∀ json, value.member? "cursor" = some json → json = .null ∨ ∃ s, json = .string s
  prev : ∀ json, value.member? "prev" = some json → json = .null ∨ Hints json
  next : ∀ json, value.member? "next" = some json → json = .null ∨ Hints json

theorem hints_iff {value : Json} : Hints value ↔ ∃ n, value = ofWord n := by
  constructor
  · intro h
    obtain ⟨n, hbounded, rfl, hrange⟩ := h
    exact ⟨_, toWord_eq_ok_iff.mp (if_pos hrange)⟩
  · intro h
    obtain ⟨n, rfl⟩ := h
    have hn := n.toNat_lt
    exact ⟨n.toNat, _, rfl, by omega, by omega⟩

/-- A page request stands in every value that asks for a page. -/
theorem exists_standsIn_iff {value : Json} : (∃ p, StandsIn value p) ↔ AskedBy value := by
  constructor
  · intro h
    obtain ⟨p, ⟨json, htype, hkind⟩, hcursor, hprev, hnext⟩ := h
    refine ⟨⟨json, htype, p.kind, hkind⟩, exists_optionally_iff.mp ⟨_, hcursor⟩, ?_, ?_⟩
    · simpa only [hints_iff] using exists_optionally_iff.mp ⟨_, hprev⟩
    · simpa only [hints_iff] using exists_optionally_iff.mp ⟨_, hnext⟩
  · intro h
    obtain ⟨⟨json, htype, kind, hkind⟩, hcursor, hprev, hnext⟩ := h
    simp only [hints_iff] at hprev hnext
    obtain ⟨cursor, hcursor⟩ := exists_optionally_iff.mpr hcursor
    obtain ⟨prev, hprev⟩ := exists_optionally_iff.mpr hprev
    obtain ⟨next, hnext⟩ := exists_optionally_iff.mpr hnext
    exact ⟨⟨kind, cursor, prev, next⟩, ⟨json, htype, hkind⟩, hcursor, hprev, hnext⟩

/-- Whether a page request stands in a value depends on the members of its names only. -/
theorem StandsIn.of_member?_eq {value value' : Json} {p : Pagination} (h : p.StandsIn value)
    (hsame : ∀ name ∈ fields.names, value'.member? name = value.member? name) :
    p.StandsIn value' where
  kind := by
    rw [hsame "type" (by decide)]
    exact h.kind
  cursor := by
    rw [hsame "cursor" (by decide)]
    exact h.cursor
  prev := by
    rw [hsame "prev" (by decide)]
    exact h.prev
  next := by
    rw [hsame "next" (by decide)]
    exact h.next

/-- The members that a page request is written as. -/
def written (p : Pagination) : List (String × Json) :=
  ("type", .string "after-cursor") :: ("cursor", (p.cursor.map Json.string).getD .null) ::
    ((p.prev.map fun n => ("prev", ofWord n)).toList ++
      (p.next.map fun n => ("next", ofWord n)).toList)

theorem encode_pack (p : Pagination) : fields.encode p.pack = p.written := by
  obtain ⟨kind, cursor, prev, next⟩ := p
  cases cursor <;> cases prev <;> cases next <;> rfl

variable {members : List (String × Json)}

/-- A page request stands in the canonical form of an object if it stands in the object. -/
theorem standsIn_canonical_iff (hdistinct : (Json.object members).Distinct) {p : Pagination} :
    p.StandsIn (Json.object members).canonical ↔ p.StandsIn (.object members) := by
  have hkind {value : Json} : (∃ json, value.member? "type" = some json ∧ p.kind.NamedBy json) ↔
      value.member? "type" = some (.string "after-cursor") ∨
        value.member? "type" = some (.object [("after-cursor", .null)]) ∨
        value.member? "type" = some (.object [("after-cursor", .object [])]) := by
    simp only [PageKind.namedBy_iff, and_or_left, exists_or, exists_eq_right]
  have hword : ∀ n, (ofWord n).Single := fun n => .number _
  rw [standsIn_iff, standsIn_iff, hkind, hkind,
    member?_canonical_eq_some_iff hdistinct (.string _),
    member?_canonical_eq_some_iff hdistinct (.member _ .null),
    member?_canonical_eq_some_iff hdistinct (.member _ .empty),
    optionally_canonical_iff hdistinct .string, optionally_canonical_iff hdistinct hword,
    optionally_canonical_iff hdistinct hword]

/-- Members set aside are decoded to the page request that stands in them. -/
theorem ofJson_setAside_eq_ok_iff (hkeys : (members.map Prod.fst).Nodup) {p : Pagination} :
    (Record.shape Pagination).ofJson .setAside (.object members) = .ok p.pack ↔
      StandsIn (.object members) p := by
  obtain ⟨kind, cursor, prev, next⟩ := p
  have hkind : Presence.required.Holds (toChoice .setAside ["after-cursor"])
      (members.lookup "type") (0 : Fin 1) ↔
        ∃ json, members.lookup "type" = some json ∧ kind.NamedBy json := by
    cases members.lookup "type" with
    | none => simp [Presence.Holds, Presence.absent?]
    | some json =>
        refine (toChoice_eq_ok_iff (by decide)).trans ?_
        simp [PageKind.namedBy_iff]
  have hfields : fields.Hold .setAside members (pack ⟨kind, cursor, prev, next⟩) ↔
      (∃ json, members.lookup "type" = some json ∧ kind.NamedBy json) ∧
        Optionally .string (members.lookup "cursor") cursor ∧
        Optionally ofWord (members.lookup "prev") prev ∧
        Optionally ofWord (members.lookup "next") next :=
    and_congr hkind <|
      Fields.hold_optional_text_cons.trans <| and_congr_right' <|
      Fields.hold_optional_word_cons.trans <| and_congr_right' <|
      Fields.hold_optional_word_cons.trans <| and_iff_left trivial
  refine (Shape.ofJson_object_eq_ok_iff (by decide) hkeys).trans (hfields.trans ?_)
  simp only [← member?_object hkeys]
  exact (standsIn_iff (.object members) ⟨kind, cursor, prev, next⟩).symm

end Pagination

namespace EventsRequest

variable {members : List (String × Json)}

/-- A page request is unpacked from its own values only. -/
theorem page?_eq_some_iff {p : Pagination} :
    page? members = some p ↔
      (Record.shape Pagination).ofJson .setAside (.object members) = .ok p.pack := by
  unfold page?
  cases (Record.shape Pagination).ofJson .setAside (.object members) with
  | error e => simp
  | ok data =>
      obtain ⟨i, cursor, prev, next, done⟩ := data
      -- There is one kind of page, so what was decoded is what would be packed.
      obtain rfl : i = (0 : Fin 1) := Fin.fin_one_eq_zero i
      obtain ⟨kind, cursor', prev', next'⟩ := p
      constructor
      · intro h
        cases h
        rfl
      · intro h
        cases h
        rfl

/-! ### Requests -/

/-- A request stands in a value: its logs are there, and it asks for a page if and only if that page
request stands in the value. -/
@[mk_iff]
structure StandsIn (value : Json) (r : EventsRequest) : Prop where
  logs : value.member? "logs" = some (.array (r.logs.map .string))
  pagination : ∀ p, r.pagination = some p ↔ p.StandsIn value

theorem fill_logsField (aside : List (String × Json)) (json : Json) :
    fill ⟨none, aside⟩ logsField json =
      toList toText json >>= fun logs => .ok ⟨some logs, aside⟩ :=
  if_pos rfl

theorem fill_of_ne {key : String} (hkey : key ≠ logsField) (g : Gathered) (json : Json) :
    fill g key json = .ok { g with setAside := g.setAside ++ [(key, json)] } :=
  if_neg hkey

theorem foldlM_fill_of_not_mem (hkeys : logsField ∉ members.map Prod.fst) (g : Gathered) :
    members.foldlM (fun g m => fill g m.1 m.2) g =
      .ok { g with setAside := g.setAside ++ members } := by
  induction members generalizing g with
  | nil =>
      rw [List.append_nil]
      rfl
  | cons member members ih =>
      obtain ⟨hne, hrest⟩ := not_or.mp (mt List.mem_cons.mpr hkeys)
      rw [List.foldlM_cons, fill_of_ne (Ne.symm hne)]
      refine (ih hrest _).trans ?_
      rw [List.append_assoc, List.singleton_append]

/-- The logs are taken and every other member is set aside. -/
theorem foldlM_fill (hkeys : (members.map Prod.fst).Nodup) (aside : List (String × Json)) :
    members.foldlM (fun g m => fill g m.1 m.2) ⟨none, aside⟩ =
      match members.lookup logsField with
      | some json => (toList toText json).map fun logs =>
          ⟨some logs, aside ++ members.filter (·.1 ≠ logsField)⟩
      | none => .ok ⟨none, aside ++ members⟩ := by
  induction members generalizing aside with
  | nil =>
      rw [List.lookup_nil, List.append_nil]
      rfl
  | cons member members ih =>
      obtain ⟨key, json⟩ := member
      obtain ⟨hnew, hrest⟩ := List.nodup_cons.mp hkeys
      rw [List.foldlM_cons, lookup_entry_cons]
      by_cases hkey : key = logsField
      · subst hkey
        -- The key comes once, so all members after it are set aside.
        rw [if_pos rfl, List.filter_cons_of_neg (by simp), filter_key_ne hnew]
        simp only [fill_logsField]
        cases toList toText json with
        | error e => rfl
        | ok logs => exact foldlM_fill_of_not_mem hnew _
      · rw [if_neg (Ne.symm hkey), List.filter_cons_of_pos (by simpa using hkey)]
        simp only [fill_of_ne hkey]
        refine (ih hrest _).trans ?_
        simp only [List.append_assoc, List.singleton_append]

/-- What is set aside has all that a page request stands in. -/
theorem page?_aside_eq_some_iff (hkeys : (members.map Prod.fst).Nodup) {p : Pagination} :
    page? (members.filter (·.1 ≠ logsField)) = some p ↔ p.StandsIn (.object members) := by
  have haside : ((members.filter (·.1 ≠ logsField)).map Prod.fst).Nodup :=
    hkeys.sublist (List.filter_sublist.map Prod.fst)
  have hsame : ∀ name ∈ Pagination.fields.names,
      (Json.object (members.filter (·.1 ≠ logsField))).member? name =
        (Json.object members).member? name := by
    intro name hname
    have hne : name ≠ logsField := ne_of_mem_of_not_mem hname (by decide)
    rw [member?_object haside, member?_object hkeys, lookup_filter_key_ne hne]
  rw [page?_eq_some_iff, Pagination.ofJson_setAside_eq_ok_iff haside]
  exact ⟨fun h => h.of_member?_eq fun name hname => (hsame name hname).symm,
    fun h => h.of_member?_eq hsame⟩

/-- **An object is decoded to the request that stands in it.** -/
theorem ofJson_object_eq_ok_iff (hkeys : (members.map Prod.fst).Nodup) {r : EventsRequest} :
    ofJson (.object members) = .ok r ↔ StandsIn (.object members) r := by
  have hdecode : ofJson (.object members) = .ok r ↔
      members.lookup logsField = some (.array (r.logs.map .string)) ∧
        page? (members.filter (·.1 ≠ logsField)) = r.pagination := by
    show members.foldlM (fun g m => fill g m.1 m.2) ⟨none, []⟩ >>= Gathered.finish = .ok r ↔ _
    rw [foldlM_fill hkeys]
    cases members.lookup logsField with
    | none => simp [bind, Except.bind, Gathered.finish]
    | some json =>
        rw [Option.some.injEq, ← toList_toText_eq_ok_iff]
        obtain ⟨logs, pagination⟩ := r
        cases hlogs : toList toText json with
        | error e => simp [bind, Except.bind, Except.map, hlogs]
        | ok found => simp [bind, Except.bind, Except.map, Gathered.finish, hlogs]
  rw [hdecode, ← member?_object hkeys]
  constructor
  · intro h
    obtain ⟨hlogs, hpagination⟩ := h
    exact ⟨hlogs, fun p => hpagination ▸ page?_aside_eq_some_iff hkeys⟩
  · intro h
    exact ⟨h.logs, Option.ext fun p => (page?_aside_eq_some_iff hkeys).trans (h.pagination p).symm⟩

/-! ### Straight from text -/

/-- The list of logs is read as it is decoded. -/
theorem readMember_logsField_eq_ok_iff {g g' : Gathered} {text rest : List Char} :
    readMember g logsField text = .ok (g', rest) ↔
      ∃ value, colon text >>= readValue (deepest - 1) = .ok (value, rest) ∧
        fill g logsField value = .ok g' := by
  obtain ⟨logs, aside⟩ := g
  have hread : readMember ⟨logs, aside⟩ logsField text =
      readSlot logsField (readListOf readText) logs text >>= fun p =>
        .ok (⟨p.1, aside⟩, p.2) := if_pos rfl
  rw [hread]
  cases logs with
  | some logs => simp [readSlot, fill, bind, Except.bind]
  | none =>
      have hlist : Decodes (deepest - 1) (toList toText) (readListOf readText) :=
        decodes_readListOf (decodes_readText 125)
      simp only [fill_logsField]
      constructor
      · intro h
        obtain ⟨⟨slot, left⟩, hslot, h⟩ := bind_eq_ok.mp h
        cases h
        obtain ⟨⟨logs, left⟩, hlogs, hslot⟩ := bind_eq_ok.mp hslot
        cases hslot
        obtain ⟨value, hvalue, hdecode⟩ := hlist.colon_bind_eq_ok_iff.mp hlogs
        exact ⟨value, hvalue, bind_eq_ok.mpr ⟨logs, hdecode, rfl⟩⟩
      · intro h
        obtain ⟨value, hvalue, hfill⟩ := h
        obtain ⟨logs, hdecode, hfill⟩ := bind_eq_ok.mp hfill
        cases hfill
        have hlogs := hlist.colon_bind_eq_ok_iff.mpr ⟨value, hvalue, hdecode⟩
        exact bind_eq_ok.mpr ⟨_, bind_eq_ok.mpr ⟨_, hlogs, rfl⟩, rfl⟩

/-- Every other member is read as a value, and that is set aside. -/
theorem readMember_of_ne_eq_ok_iff {key : String} (hkey : key ≠ logsField) {g g' : Gathered}
    {text rest : List Char} :
    readMember g key text = .ok (g', rest) ↔
      ∃ value, colon text >>= readValue (deepest - 1) = .ok (value, rest) ∧
        fill g key value = .ok g' := by
  have hread : readMember g key text =
      (colon text >>= readValue (deepest - 1)) >>= fun p =>
        .ok ({ g with setAside := g.setAside ++ [(key, p.1)] }, p.2) := if_neg hkey
  rw [hread]
  simp only [fill_of_ne hkey]
  constructor
  · intro h
    obtain ⟨⟨value, left⟩, hvalue, h⟩ := bind_eq_ok.mp h
    cases h
    exact ⟨value, hvalue, rfl⟩
  · intro h
    obtain ⟨value, hvalue, hfill⟩ := h
    cases hfill
    exact bind_eq_ok.mpr ⟨_, hvalue, rfl⟩

/-- **A request is read from the text of just those values that it is decoded from.** -/
theorem decodes_read : Decodes deepest ofJson read := by
  intro text r rest
  have hmembers {body : List Char} {gathered : Gathered} :
      readObject readMember .nothing body = .ok (gathered, rest) ↔
        ∃ members : List (String × Json),
          readObject (gatherMember (deepest - 1)) [] body = .ok (members.reverse, rest) ∧
          members.foldlM (fun g m => fill g m.1 m.2) .nothing = .ok gathered :=
    readObject_eq_ok_iff fun g key text g' rest => by
      by_cases hkey : key = logsField
      · subst hkey
        exact readMember_logsField_eq_ok_iff
      · exact readMember_of_ne_eq_ok_iff hkey
  constructor
  · intro h
    unfold read at h
    split at h
    · rename_i body hopen
      obtain ⟨⟨gathered, left⟩, hread, h⟩ := bind_eq_ok.mp h
      obtain ⟨hfinish, rfl⟩ := settle_eq_ok_iff.mp h
      obtain ⟨members, hvalue, hfold⟩ := hmembers.mp hread
      exact ⟨.object members, readValue_eq_object_iff.mpr ⟨body, hopen, hvalue⟩,
        bind_eq_ok.mpr ⟨gathered, hfold, hfinish⟩⟩
    · exact absurd h refuse_ne_ok
  · intro h
    obtain ⟨value, hvalue, hdecode⟩ := h
    cases value with
    | object members =>
        obtain ⟨body, hopen, hvalue⟩ := readValue_eq_object_iff.mp hvalue
        obtain ⟨gathered, hfold, hfinish⟩ := bind_eq_ok.mp hdecode
        have hread := hmembers.mpr ⟨members, hvalue, hfold⟩
        rw [read, hopen]
        exact bind_eq_ok.mpr ⟨_, hread, settle_eq_ok_iff.mpr ⟨hfinish, rfl⟩⟩
    | _ => cases hdecode

section

variable {text : String} {r : EventsRequest}

/-- A text is read to a request if and only if a request is decoded from what it says. -/
theorem read_eq_ok_iff :
    Codec.read text = .ok r ↔ ∃ value, ofText text = .ok value ∧ ofJson value = .ok r :=
  decodes_read.placed_readWhole_eq_ok_iff

/-- By way of a value, a request is decoded from the canonical form of what a text says. -/
theorem parse_eq_ok_iff :
    Codec.parse text = .ok r ↔ ∃ value, ofText text = .ok value ∧ ofJson value.canonical = .ok r := by
  simp only [Codec.parse, bind_eq_ok, Json.parse, map_eq_ok]
  constructor
  · intro h
    obtain ⟨_, ⟨value, hvalue, rfl⟩, hdecode⟩ := h
    exact ⟨value, hvalue, unplaced_eq_ok_iff.mp hdecode⟩
  · intro h
    obtain ⟨value, hvalue, hdecode⟩ := h
    exact ⟨_, ⟨value, hvalue, rfl⟩, unplaced_eq_ok_iff.mpr hdecode⟩

end

/-! ### All ways of decoding -/

/-- What stands in the canonical form of an object is what stands in the object. -/
theorem standsIn_canonical_iff (hdistinct : (Json.object members).Distinct) {r : EventsRequest} :
    r.StandsIn (Json.object members).canonical ↔ r.StandsIn (.object members) := by
  have hlogs : (Json.array (r.logs.map .string)).Single := by
    refine .array fun item hitem => ?_
    obtain ⟨log, -, rfl⟩ := List.mem_map.mp hitem
    exact .string log
  simp only [standsIn_iff, member?_canonical_eq_some_iff hdistinct hlogs,
    Pagination.standsIn_canonical_iff hdistinct]

/-- The ways in which a request is decoded from what a value says: from the value itself, straight
from a text that it is written in, and by way of the value that such a text stands for. The last one
drops all but one of the members of a key, so there no key may come twice, however deep. -/
inductive Decoding (value : Json) : Except DecodeError EventsRequest → Prop
  | value : Decoding value (Codec.ofJson value)
  | text {text : String} (h : ofText text = .ok value) : Decoding value (Codec.read text)
  | parsed {text : String} (h : ofText text = .ok value) (hdistinct : value.Distinct) :
      Decoding value (Codec.parse text)

/-- Every way of decoding leads to the request that stands in the object. -/
theorem Decoding.eq_ok_iff (hkeys : (members.map Prod.fst).Nodup)
    {made : Except DecodeError EventsRequest} (h : Decoding (.object members) made)
    {r : EventsRequest} : made = .ok r ↔ r.StandsIn (.object members) := by
  cases h with
  | value => exact unplaced_eq_ok_iff.trans (ofJson_object_eq_ok_iff hkeys)
  | text htext =>
      rw [read_eq_ok_iff, htext, ← ofJson_object_eq_ok_iff hkeys]
      simp
  | parsed htext hdistinct =>
      have hcanonical : (ofJson (Json.object members).canonical = .ok r) ↔
          r.StandsIn (Json.object members).canonical := by
        rw [canonical_object]
        exact ofJson_object_eq_ok_iff (keysIncrease_ordered _).nodup
      rw [parse_eq_ok_iff, htext, ← standsIn_canonical_iff hdistinct, ← hcanonical]
      simp

/-- The members that count. -/
def names : List String := logsField :: Pagination.fields.names

/-- Members of other names do not count. -/
theorem StandsIn.of_member?_eq {value value' : Json} {r : EventsRequest} (h : r.StandsIn value)
    (hsame : ∀ name ∈ names, value'.member? name = value.member? name) : r.StandsIn value' where
  logs := by
    rw [hsame "logs" (by decide)]
    exact h.logs
  pagination p := by
    have hpage : ∀ name ∈ Pagination.fields.names, value'.member? name = value.member? name :=
      fun name hname => hsame name (List.mem_cons_of_mem _ hname)
    rw [h.pagination p]
    exact ⟨fun hp => hp.of_member?_eq hpage,
      fun hp => hp.of_member?_eq fun name hname => (hpage name hname).symm⟩

/-- A request stands in every value whose logs are a list of texts. -/
theorem exists_standsIn_iff (hkeys : (members.map Prod.fst).Nodup) :
    (∃ r, StandsIn (.object members) r) ↔
      ∃ logs : List String,
        (Json.object members).member? "logs" = some (.array (logs.map .string)) := by
  constructor
  · intro h
    obtain ⟨r, hr⟩ := h
    exact ⟨r.logs, hr.logs⟩
  · intro h
    obtain ⟨logs, hlogs⟩ := h
    exact ⟨⟨logs, page? (members.filter (·.1 ≠ logsField))⟩, hlogs,
      fun p => page?_aside_eq_some_iff hkeys⟩

/-- **An object is accepted as a request if and only if its logs are a list of texts**, by every way
of decoding and whatever the other members are. These are the logs of the request; and it asks for a
page if and only if the object does, with just the values that stand there. A request without a page
is written with its logs only, and one with a page always with the kind and the cursor. Members of
other names make no difference, as long as a text with them can be read at all. -/
theorem Decoding.accepts_exactly (hkeys : (members.map Prod.fst).Nodup)
    {made : Except DecodeError EventsRequest} (h : Decoding (.object members) made) :
    ((∃ r, made = .ok r) ↔
      ∃ logs : List String,
        (Json.object members).member? "logs" = some (.array (logs.map .string))) ∧
    (∀ r, made = .ok r →
      (Json.object members).member? "logs" = some (.array (r.logs.map .string)) ∧
      (∀ p, r.pagination = some p ↔ p.StandsIn (.object members)) ∧
      (r.pagination.isSome ↔ Pagination.AskedBy (.object members)) ∧
      (r.pagination = none → Codec.encode r = .object [("logs", .array (r.logs.map .string))]) ∧
      ∀ p, r.pagination = some p →
        Codec.encode r = .object (("logs", .array (r.logs.map .string)) :: p.written)) ∧
    (∀ others made', (others.map Prod.fst).Nodup → Decoding (.object others) made' →
      (∀ name ∈ names, (Json.object others).member? name = (Json.object members).member? name) →
      ∀ r, made' = .ok r ↔ made = .ok r) ∧
    ∀ text, (∀ value, ofText text ≠ .ok value) →
      ∀ r : EventsRequest, Codec.read text ≠ .ok r ∧ Codec.parse text ≠ .ok r := by
  refine ⟨?_, fun r hr => ?_, fun others made' hkeys' h' hsame r => ?_, fun text htext r => ?_⟩
  · simp only [h.eq_ok_iff hkeys]
    exact exists_standsIn_iff hkeys
  · have hstands := (h.eq_ok_iff hkeys).mp hr
    have hencode : Codec.encode r =
        .object (("logs", .array (r.logs.map .string)) :: pageMembers r.pagination) := encode_eq r
    refine ⟨hstands.logs, hstands.pagination, ?_, fun hnone => ?_, fun p hp => ?_⟩
    · rw [Option.isSome_iff_exists, ← Pagination.exists_standsIn_iff]
      exact exists_congr hstands.pagination
    · rw [hencode, hnone]
      rfl
    · rw [hencode, hp]
      exact congrArg (fun page => Json.object (_ :: page)) p.encode_pack
  · rw [h.eq_ok_iff hkeys, h'.eq_ok_iff hkeys']
    exact ⟨fun hr => hr.of_member?_eq fun name hname => (hsame name hname).symm,
      fun hr => hr.of_member?_eq hsame⟩
  · constructor
    · intro hread
      obtain ⟨value, hvalue, -⟩ := read_eq_ok_iff.mp hread
      exact htext value hvalue
    · intro hparse
      obtain ⟨value, hvalue, -⟩ := parse_eq_ok_iff.mp hparse
      exact htext value hvalue

/-! A text that asks for a page of one log, and has a member more. -/

def askingText : String :=
  "\x7b\"more\":[],\"type\":\"after-cursor\",\"next\":null,\"cursor\":\"c\",\"logs\":[\"a\"]\x7d"

def askingMembers : List (String × Json) :=
  [("more", .array []), ("type", .string "after-cursor"), ("next", .null), ("cursor", .string "c"),
    ("logs", .array [.string "a"])]

theorem decoding_askingText : Decoding (.object askingMembers) (Codec.read askingText) :=
  .text (by rfl)

/-- The text is read to a request for that page. -/
theorem Decoding.accepts_exactly_of_askingText :
    (askingMembers.map Prod.fst).Nodup ∧
    Decoding (.object askingMembers) (Codec.read askingText) ∧
    ∃ r : EventsRequest, Codec.read askingText = .ok r ∧ r.logs = ["a"] ∧
      r.pagination = some (.after (some "c")) := by
  have hkeys : (askingMembers.map Prod.fst).Nodup := by decide
  obtain ⟨haccepts, hmade, -⟩ := Decoding.accepts_exactly hkeys decoding_askingText
  obtain ⟨r, hr⟩ := haccepts.mpr ⟨["a"], rfl⟩
  obtain ⟨hlogs, hpage, -⟩ := hmade r hr
  have hsame : ["a"].map Json.string = r.logs.map Json.string :=
    Json.array.inj (Option.some.inj hlogs)
  have hfound : r.logs = ["a"] :=
    (List.map_injective_iff.mpr (fun _ _ h => Json.string.inj h) hsame).symm
  have hstands : Pagination.StandsIn (.object askingMembers) (.after (some "c")) :=
    ⟨⟨_, rfl, .inl rfl⟩, rfl, .inl rfl, .inr rfl⟩
  exact ⟨hkeys, decoding_askingText, r, hr, hfound, (hpage _).mpr hstands⟩

/-! A text whose kind of page is not decoded by itself, and one with a number that is too large. -/

def kindlessText : String :=
  "\x7b\"logs\":[],\"type\":\x7b\"after-cursor\":\x7b\x7d\x7d\x7d"

def kindless : Json := .object [("after-cursor", .object [])]

def excessiveText : String := "\x7b\"logs\":[],\"more\":1e400\x7d"

/-- The name of a kind beside an empty object is not decoded to a kind of page, neither from text nor
from a value, and still a request with that member asks for a page. A request is refused for a number
that is too large in a member of another name, though its logs are a list of texts. -/
theorem asks_without_kind :
    (ofText kindlessText = .ok (.object [("logs", .array []), ("type", kindless)]) ∧
      (Codec.ofJson kindless : Except DecodeError PageKind).toOption = none ∧
      (Codec.read "\x7b\"after-cursor\":\x7b\x7d\x7d" : Except DecodeError PageKind).toOption = none ∧
      (Codec.read kindlessText).toOption = some (EventsRequest.mk [] (some (.after none))) ∧
      (Codec.parse kindlessText).toOption = some (EventsRequest.mk [] (some (.after none)))) ∧
    (Codec.read excessiveText : Except DecodeError EventsRequest).toOption = none ∧
      (Codec.parse excessiveText : Except DecodeError EventsRequest).toOption = none := by
  refine ⟨⟨rfl, ?_, ?_, ?_, ?_⟩, ?_, ?_⟩
  all_goals decide +kernel

end EventsRequest

end WorkspaceControl
