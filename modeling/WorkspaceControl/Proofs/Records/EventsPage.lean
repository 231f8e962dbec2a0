import WorkspaceControl.Proofs.Wire.Members
import WorkspaceControl.Records.Log

/-!
# What makes a page of events

A page travels as an object of its events and its cursor. An object is **a page if and only if its
cursor is a text and every event has its four texts** (`EventsPage.exists_ofJson_iff`): nothing else
about the events counts, not even what the text of a time says, and one event that is incomplete
leaves no page of the others. The page is then made of these texts (`EventsPage.ofJson_eq_ok_iff`).
-/

namespace WorkspaceControl

open Wire Json

namespace LogEvent

/-- The members that an event is made of. -/
def texts : List String := ["id", "log", "timestamp", "message"]

/-- A value has the texts of an event. -/
structure StandsIn (value : Json) (event : LogEvent) : Prop where
  id : value.member? "id" = some (.string event.id)
  log : value.member? "log" = some (.string event.log)
  timestamp : value.member? "timestamp" = some (.string event.timestamp)
  message : value.member? "message" = some (.string event.message)

/-- An object is decoded to the event that stands in it. -/
theorem ofJson_object_eq_ok_iff {members : List (String × Json)}
    (hkeys : (members.map Prod.fst).Nodup) {data : (Record.shape LogEvent).Data} :
    (Record.shape LogEvent).ofJson .whole (.object members) = .ok data ↔
      StandsIn (.object members) (Record.unpack data) := by
  obtain ⟨id, log, timestamp, message, done⟩ := data
  have htexts : (Record.shape LogEvent).ofJson .whole (.object members) =
      .ok (id, log, timestamp, message, done) ↔
      members.lookup "id" = some (.string id) ∧ members.lookup "log" = some (.string log) ∧
        members.lookup "timestamp" = some (.string timestamp) ∧
        members.lookup "message" = some (.string message) :=
    (Shape.ofJson_object_eq_ok_iff (by decide) hkeys).trans <|
      Fields.hold_text_cons.trans <| and_congr_right' <|
      Fields.hold_text_cons.trans <| and_congr_right' <|
      Fields.hold_text_cons.trans <| and_congr_right' <|
      Fields.hold_text_cons.trans <| and_iff_left trivial
  simp only [← member?_object hkeys] at htexts
  exact htexts.trans ⟨fun ⟨hid, hlog, htimestamp, hmessage⟩ => ⟨hid, hlog, htimestamp, hmessage⟩,
    fun ⟨hid, hlog, htimestamp, hmessage⟩ => ⟨hid, hlog, htimestamp, hmessage⟩⟩

/-- An event stands in every value that has a text for each of its members, whatever the texts
are. -/
theorem exists_standsIn_iff {value : Json} :
    (∃ event, StandsIn value event) ↔
      ∀ name ∈ texts, ∃ text, value.member? name = some (.string text) := by
  simp only [texts, List.forall_mem_cons, List.not_mem_nil, false_implies, implies_true, and_true]
  constructor
  · rintro ⟨event, hid, hlog, htimestamp, hmessage⟩
    exact ⟨⟨_, hid⟩, ⟨_, hlog⟩, ⟨_, htimestamp⟩, ⟨_, hmessage⟩⟩
  · rintro ⟨⟨id, hid⟩, ⟨log, hlog⟩, ⟨timestamp, htimestamp⟩, ⟨message, hmessage⟩⟩
    exact ⟨⟨id, log, timestamp, message⟩, hid, hlog, htimestamp, hmessage⟩

end LogEvent

namespace EventsPage

variable {value : Json} {items : List Json}

/-- The events of a page stand in the items of its list, one in each. -/
theorem forall₂_ofJson_iff (hdistinct : ∀ item ∈ items, item.Distinct)
    (hitems : ∀ item ∈ items, ∃ members, item = .object members)
    {events : List (Record.shape LogEvent).Data} :
    List.Forall₂ (fun item data => (Record.shape LogEvent).ofJson .whole item = .ok data) items
        events ↔
      List.Forall₂ LogEvent.StandsIn items (events.map Record.unpack) := by
  rw [List.forall₂_map_right_iff]
  refine forall₂_congr_of_mem fun item hitem data => ?_
  obtain ⟨members, rfl⟩ := hitems item hitem
  cases hdistinct _ hitem with
  | object hkeys => exact LogEvent.ofJson_object_eq_ok_iff hkeys

/-- **An object is decoded to the page whose events stand in its list, one in each item.** -/
theorem ofJson_eq_ok_iff (hdistinct : value.Distinct)
    (hevents : value.member? "events" = some (.array items))
    (hitems : ∀ item ∈ items, ∃ members, item = .object members) {page : EventsPage} :
    (Codec.ofJson value : Except DecodeError EventsPage) = .ok page ↔
      value.member? "cursor" = some (.string page.cursor) ∧
        List.Forall₂ LogEvent.StandsIn items page.events := by
  have hlist : ∀ item ∈ items, item.Distinct := by
    cases hdistinct.member? hevents with
    | array h => exact h
  cases hdistinct with
  | @object members hkeys hmembers =>
      rw [member?_object hkeys] at hevents ⊢
      have hdata (events : List (Record.shape LogEvent).Data) (cursor : String) (done : Unit) :
          (Record.shape EventsPage).ofJson .whole (.object members) = .ok (events, cursor, done) ↔
            List.Forall₂ LogEvent.StandsIn items (events.map Record.unpack) ∧
              members.lookup "cursor" = some (.string cursor) := by
        refine (Shape.ofJson_object_eq_ok_iff (by decide) hkeys).trans (and_congr ?_ ?_)
        · rw [hevents]
          exact holds_toList_iff.trans (forall₂_ofJson_iff hlist hitems)
        · exact Fields.hold_text_cons.trans (and_iff_left trivial)
      rw [Wire.ofJson_eq_ok_iff]
      constructor
      · rintro ⟨⟨events, cursor, done⟩, hmade, rfl⟩
        exact ((hdata events cursor done).mp hmade).symm
      · rintro ⟨hcursor, hpage⟩
        refine ⟨(page.events.map Record.pack, page.cursor, ()), (hdata _ _ _).mpr ⟨?_, hcursor⟩, ?_⟩
        · simpa [Function.comp_def, Record.unpack_pack] using hpage
        · exact Record.unpack_pack page
  | _ => cases hevents

/-- An object is decoded to a page if and only if its cursor is a text and every item of its list
has the texts of an event. -/
theorem exists_ofJson_iff (hdistinct : value.Distinct)
    (hevents : value.member? "events" = some (.array items))
    (hitems : ∀ item ∈ items, ∃ members, item = .object members) :
    (∃ page : EventsPage, Codec.ofJson value = .ok page) ↔
      (∃ cursor, value.member? "cursor" = some (.string cursor)) ∧
        ∀ item ∈ items, ∀ name ∈ LogEvent.texts,
          ∃ text, item.member? name = some (.string text) := by
  have hall : (∃ events, List.Forall₂ LogEvent.StandsIn items events) ↔ ∀ item ∈ items,
      ∀ name ∈ LogEvent.texts, ∃ text, item.member? name = some (.string text) :=
    exists_forall₂_iff.trans <| forall₂_congr fun _ _ => LogEvent.exists_standsIn_iff
  simp only [ofJson_eq_ok_iff hdistinct hevents hitems, ← hall]
  constructor
  · rintro ⟨page, hcursor, hpage⟩
    exact ⟨⟨_, hcursor⟩, _, hpage⟩
  · rintro ⟨⟨cursor, hcursor⟩, events, hpage⟩
    exact ⟨⟨events, cursor⟩, hcursor, hpage⟩

end EventsPage

end WorkspaceControl
