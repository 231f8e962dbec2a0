import WorkspaceControl.Proofs.Logs.Sequential
import WorkspaceControl.Proofs.Records.EventsPage
import WorkspaceControl.Proofs.Rpc.Classification
import WorkspaceControl.Proofs.Wire.Lossless

/-!
# A page is taken whole or not at all

What the answer to the latest fetch does to a store is decided by what came back, and in one of two
ways only. **Either it brings a page (`BringsPage`), and then all events of the page are put behind
those held; or it does not, and then no event of the answer is**: the store shows the failure that
the caller is told, and stands where it stood (`Session.page_taken_whole`).

There is nothing in between, because the page is decoded before the store hears of it. An answer
that has an object for each event brings a page if and only if its cursor is a text and each of
these objects has its four texts (`ListsObjects.exists_bringsPage_iff`), so one event that is
incomplete keeps out all others of its answer.
-/

namespace WorkspaceControl.Logs

open Wire

/-- What came back brings a page: the response succeeded, and its text is JSON and decodes as the
page. -/
def BringsPage (heard : Rpc.Heard) (page : EventsPage) : Prop :=
  ∃ status text value, heard = .ok (status, text) ∧ Rpc.succeeded status = true ∧
    Json.parse text = .ok value ∧ Codec.ofJson value = .ok page

/-- A fetch of events brings a page if and only if what came back does. -/
theorem hear_eq_ok_iff (id : String) (request : EventsRequest) (heard : Rpc.Heard)
    (page : EventsPage) :
    (Rpc.Call.workspace id (.getEvents request)).hear heard = .ok page ↔ BringsPage heard page := by
  cases heard with
  | error reason =>
      constructor
      · nofun
      · rintro ⟨_, _, _, hheard, -⟩
        cases hheard
  | ok response =>
      obtain ⟨status, text⟩ := response
      refine (((Rpc.Call.workspace id (.getEvents request)).classified_settle status text).ok_iff
        page).trans ⟨?_, ?_⟩
      · rintro ⟨hstatus, value, hparse, hpage⟩
        exact ⟨status, text, value, rfl, hstatus, hparse, hpage⟩
      · rintro ⟨_, _, value, hheard, hstatus, hparse, hpage⟩
        cases hheard
        exact ⟨hstatus, value, hparse, hpage⟩

/-- A response that succeeded brings what its text decodes as. -/
theorem bringsPage_iff_ofJson {status : Nat} {text : String} {value : Json}
    (hstatus : Rpc.succeeded status = true) (hparse : Json.parse text = .ok value)
    (page : EventsPage) :
    BringsPage (.ok (status, text)) page ↔ Codec.ofJson value = .ok page := by
  constructor
  · rintro ⟨_, _, value', hheard, -, hparse', hpage⟩
    cases hheard
    cases hparse.symm.trans hparse'
    exact hpage
  · intro hpage
    exact ⟨status, text, value, rfl, hstatus, hparse, hpage⟩

/-- A page that the service sends is brought by the response. -/
theorem bringsPage_render {status : Nat} (hstatus : Rpc.succeeded status = true)
    (page : EventsPage) : BringsPage (.ok (status, Codec.render page)) page := by
  have hlossless : Lossless EventsPage := Record.lossless (by decide) (by decide)
  obtain ⟨value, hparse, hpage⟩ := Json.bind_eq_ok.mp (hlossless.parse_render page)
  exact ⟨status, Codec.render page, value, rfl, hstatus, hparse, hpage⟩

/-- A response that succeeded with an object that lists objects. -/
structure ListsObjects (status : Nat) (text : String) (value : Json) (items : List Json) :
    Prop where
  succeeded : Rpc.succeeded status = true
  parse : Json.parse text = .ok value
  events : value.member? "events" = some (.array items)
  objects : ∀ item ∈ items, ∃ members, item = .object members

section

variable {status : Nat} {text : String} {value : Json} {items : List Json}

/-- Such a response brings the page whose events stand in the objects, one in each. -/
theorem ListsObjects.bringsPage_iff (h : ListsObjects status text value items) (page : EventsPage) :
    BringsPage (.ok (status, text)) page ↔
      value.member? "cursor" = some (.string page.cursor) ∧
        List.Forall₂ LogEvent.StandsIn items page.events :=
  (bringsPage_iff_ofJson h.succeeded h.parse page).trans
    (EventsPage.ofJson_eq_ok_iff (Json.distinct_of_parse h.parse) h.events h.objects)

/-- Such a response brings a page if and only if its cursor is a text and every object has the texts
of an event. -/
theorem ListsObjects.exists_bringsPage_iff (h : ListsObjects status text value items) :
    (∃ page, BringsPage (.ok (status, text)) page) ↔
      (∃ cursor, value.member? "cursor" = some (.string cursor)) ∧
        ∀ item ∈ items, ∀ name ∈ LogEvent.texts, ∃ text, item.member? name = some (.string text) :=
  (exists_congr (bringsPage_iff_ofJson h.succeeded h.parse)).trans
    (EventsPage.exists_ofJson_iff (Json.distinct_of_parse h.parse) h.events h.objects)

end

namespace Session

/-- A page ended the latest fetch of a session: it is held behind what was held, and the next fetch
goes on behind it. -/
structure Takes (s : Session) (capacity : Nat) (page : EventsPage) (ended : Outcome × Session) :
    Prop where
  result : ended.1.result = some (.ok ())
  events : ended.2.store.events = .success (Store.lastOf capacity (s.store.held ++ page.events))
  cursor : ended.2.store.cursor = some page.cursor
  watched : ended.2.store.watched = s.store.watched

/-- A failure ended the latest fetch of a session: it is shown and told, nothing is held, and the
next fetch goes on where this one did. -/
structure Shows (s : Session) (failure : Rpc.Failure) (ended : Outcome × Session) : Prop where
  result : ended.1.result = some (.error failure)
  events : ended.2.store.events = .error failure.message
  held : ended.2.store.held = []
  cursor : ended.2.store.cursor = s.store.cursor
  watched : ended.2.store.watched = s.store.watched

variable {s : Session}

theorem takes_of_ok (h : s.store.latest ∈ s.waiting) {reply : Reply} {page : EventsPage}
    (hreply : reply = .ok page) :
    s.Takes s.store.capacity page (s.step (.reply s.store.latest reply)) := by
  rw [hreply, step_reply_latest h, Store.complete_latest_ok]
  exact ⟨rfl, rfl, rfl, rfl⟩

theorem shows_of_error (h : s.store.latest ∈ s.waiting) {reply : Reply} {failure : Rpc.Failure}
    (hreply : reply = .error failure) :
    s.Shows failure (s.step (.reply s.store.latest reply)) := by
  rw [hreply, step_reply_latest h, Store.complete_latest_error]
  exact ⟨rfl, rfl, rfl, rfl, rfl⟩

/-- **A page is taken whole or not at all.** Whatever comes back for the latest fetch of a session,
either it brings a page, and then the page is taken; or it brings none, and then the failure is
shown that the caller is told, with no event of the answer. Of the answers that list objects as
events, those bring a page whose cursor is a text and whose objects all have the four texts of an
event: what the text of a time says does not count, and one object without a text keeps out the
whole page. What a client performs is what came back over its network. -/
theorem page_taken_whole {capacity : Nat} {events : List Event}
    (h : ((new capacity).after events).store.latest ∈ ((new capacity).after events).waiting)
    (id : String) (request : EventsRequest) (heard : Rpc.Heard) :
    let s := (new capacity).after events
    let call := Rpc.Call.workspace id (.getEvents request)
    let ended := s.step (.reply s.store.latest (call.hear heard))
    (∀ page, BringsPage heard page → s.Takes capacity page ended) ∧
    ((∀ page, ¬BringsPage heard page) →
      ∃ failure, call.hear heard = .error failure ∧ s.Shows failure ended) ∧
    (∀ status text value items, ListsObjects status text value items →
      (∀ page, BringsPage (.ok (status, text)) page ↔
        value.member? "cursor" = some (.string page.cursor) ∧
          List.Forall₂ LogEvent.StandsIn items page.events) ∧
      ((∃ page, BringsPage (.ok (status, text)) page) ↔
        (∃ cursor, value.member? "cursor" = some (.string cursor)) ∧
          ∀ item ∈ items, ∀ name ∈ LogEvent.texts,
            ∃ text, item.member? name = some (.string text))) ∧
    ∀ (client : Rpc.Client) (network : Rpc.Network),
      ((client.perform call).run network).1 = call.hear ((client.exchange call).run network).1 := by
  intro s call ended
  have hcapacity : s.store.capacity = capacity := capacity_after (new capacity) events
  refine ⟨fun page hbrings => ?_, fun hnone => ?_, fun status text value items hlists => ?_,
    fun client network => ?_⟩
  · have hpage : call.hear heard = .ok page := (hear_eq_ok_iff id request heard page).mpr hbrings
    rw [← hcapacity]
    exact takes_of_ok h hpage
  · obtain ⟨failure, hfailure⟩ : ∃ failure, call.hear heard = .error failure := by
      cases hheard : call.hear heard with
      | ok page => exact absurd ((hear_eq_ok_iff id request heard page).mp hheard) (hnone page)
      | error failure => exact ⟨failure, rfl⟩
    exact ⟨failure, hfailure, shows_of_error h hfailure⟩
  · exact ⟨hlists.bringsPage_iff, hlists.exists_bringsPage_iff⟩
  · rw [Rpc.Client.perform_run, Rpc.Client.exchange_run]

/-! An answer with two events to a store that holds one event at most. -/

def sampleEvent (id : String) : LogEvent := ⟨id, "web", "no time at all", "started"⟩

def samplePage : EventsPage := ⟨[sampleEvent "1", sampleEvent "2"], "2"⟩

/-- A page is taken whole, and what does not fit leaves at its front. -/
theorem page_taken_of_samplePage :
    let s := (new 1).after [.start (.refresh false)]
    let heard := (Rpc.Call.workspace "w" (.getEvents ⟨[], some (.after none)⟩)).hear
      (.ok (200, Codec.render samplePage))
    s.store.latest ∈ s.waiting ∧
      (s.step (.reply s.store.latest heard)).2.store.events = .success [sampleEvent "2"] := by
  have h : ((new 1).after [.start (.refresh false)]).store.latest ∈
      ((new 1).after [.start (.refresh false)]).waiting := by decide
  have hbrings : BringsPage (.ok (200, Codec.render samplePage)) samplePage :=
    bringsPage_render (by decide) samplePage
  exact ⟨h, ((page_taken_whole h "w" ⟨[], some (.after none)⟩
    (.ok (200, Codec.render samplePage))).1 samplePage hbrings).events⟩

end Session

end WorkspaceControl.Logs
