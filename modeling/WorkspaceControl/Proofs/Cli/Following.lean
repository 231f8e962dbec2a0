import WorkspaceControl.Proofs.Cli.Startup

/-!
# Following logs

Three things have to fit for a follower to print each event once: the store lets old events go, and
the one printed last may be among them; a fetch that fails leaves the store with no events and the
same cursor; and the printer finds its place by looking for the event printed last. They fit because
**what is held ends where printing has come to** (`CaughtUp`), which every fetch keeps. So what is
printed for a page is what the store keeps of it (`follow_printed`), and all that is printed is the
page that the last fetch before following brought, followed by the pages that the polls bring.
-/

namespace WorkspaceControl.Cli

open Rpc Logs

/-! ### What is new -/

/-- Keeping the last of two lists keeps the last of the second, and of the first what there is room
for. -/
theorem lastOf_append {α : Type} (count : Nat) (front back : List α) :
    Store.lastOf count (front ++ back) =
      Store.lastOf (count - back.length) front ++ Store.lastOf count back := by
  simp only [Store.lastOf, List.length_append, List.drop_append]
  have hback : front.length + back.length - count - front.length = back.length - count := by omega
  rw [hback]
  by_cases hroom : back.length ≤ count
  · rw [show front.length + back.length - count = front.length - (count - back.length) by omega]
  · rw [List.drop_eq_nil_of_le (by omega : front.length ≤ front.length + back.length - count),
      List.drop_eq_nil_of_le (by omega : front.length ≤ front.length - (count - back.length))]

theorem getLast?_lastOf {α : Type} {count : Nat} {items : List α} {a : α}
    (h : (Store.lastOf count items).getLast? = some a) : items.getLast? = some a := by
  rw [Store.lastOf, List.getLast?_drop] at h
  split at h
  · cases h
  · exact h

/-- Behind events that end with the one printed last, everything is new that has other ids. -/
theorem unseen_append {last : Option String} {printed fresh : List LogEvent}
    (hprinted : ∀ e, printed.getLast? = some e → last = some e.id)
    (hfresh : ∀ e ∈ fresh, last ≠ some e.id) : unseen last (printed ++ fresh) = fresh := by
  cases last with
  | none =>
      have hnone : printed = [] := by
        cases hlast : printed.getLast? with
        | none => exact List.getLast?_eq_none_iff.mp hlast
        | some e => cases hprinted e hlast
      simp [unseen, hnone]
  | some id =>
      have hnew : ∀ e ∈ fresh.reverse, decide (e.id ≠ id) = true := by
        intro e he
        have hid := hfresh e (List.mem_reverse.mp he)
        exact decide_eq_true fun heq => hid (congrArg some heq.symm)
      have hold : printed.reverse.takeWhile (fun e => decide (e.id ≠ id)) = [] := by
        cases hlast : printed.getLast? with
        | none => simp [List.getLast?_eq_none_iff.mp hlast]
        | some e =>
            have hid : id = e.id := by simpa using hprinted e hlast
            obtain ⟨front, rfl⟩ := List.getLast?_eq_some_iff.mp hlast
            simp [hid]
      simp only [unseen, List.reverse_append]
      rw [List.takeWhile_append_of_pos hnew, hold, List.append_nil, List.reverse_reverse]

/-- What is held ends where printing has come to. Nothing may be held, as after a failure. -/
def CaughtUp (held : List LogEvent) (last : Option String) : Prop :=
  ∀ e, held.getLast? = some e → last = some e.id

/-- None of some events is the one printed last. -/
def Fresh (last : Option String) (events : List LogEvent) : Prop := ∀ e ∈ events, last ≠ some e.id

/-- New in the store after a page is what the store keeps of that page. -/
theorem unseen_lastOf {held page : List LogEvent} {last : Option String} (count : Nat)
    (hheld : CaughtUp held last) (hpage : Fresh last page) :
    unseen last (Store.lastOf count (held ++ page)) = Store.lastOf count page := by
  rw [lastOf_append]
  apply unseen_append
  · exact fun e he => hheld e (getLast?_lastOf he)
  · exact fun e he => hpage e (List.mem_of_mem_drop he)

theorem caughtUp_newest (last : Option String) (events : List LogEvent) :
    CaughtUp events (newest last events) := by
  intro e he
  simp [newest, he]

/-- Printing comes to an event of the page or stays where it was, so what has other ids than the
page is still to come. -/
theorem fresh_newest {held page rest : List LogEvent} {last : Option String} (count : Nat)
    (hheld : CaughtUp held last) (hfresh : Fresh last (page ++ rest))
    (hids : ((page ++ rest).map LogEvent.id).Nodup) :
    Fresh (newest last (Store.lastOf count (held ++ page))) rest := by
  intro e he
  have hlast : last ≠ some e.id := hfresh e (List.mem_append_right page he)
  unfold newest
  cases hkept : (Store.lastOf count (held ++ page)).getLast? with
  | none => exact hlast
  | some d =>
      have hd := getLast?_lastOf hkept
      rw [List.getLast?_append] at hd
      cases hpage : page.getLast? with
      | none =>
          rw [hpage, Option.none_or] at hd
          exact hheld d hd ▸ hlast
      | some p =>
          rw [hpage, Option.some_or, Option.some.injEq] at hd
          rw [List.map_append, List.nodup_append] at hids
          intro heq
          refine hids.2.2 d.id ?_ e.id (List.mem_map_of_mem he) (Option.some.inj heq)
          exact List.mem_map_of_mem (hd ▸ List.mem_of_getLast? hpage)

/-! ### What polls bring -/

/-- The pages that polls bring, up to the first that is refused as faulty. The other polls that fail
bring nothing. -/
def polled (polls : List Answer) : List EventsPage :=
  (polls.takeWhile fun poll => !poll.refused).filterMap fun poll => poll.page.toOption

/-- The events of pages. -/
def eventsOf (pages : List EventsPage) : List LogEvent := pages.flatMap EventsPage.events

/-- The latest events of every page, of each as many as a store holds at most. -/
def shown (capacity : Nat) (pages : List EventsPage) : List LogEvent :=
  pages.flatMap fun page => Store.lastOf capacity page.events

theorem polled_cons (poll : Answer) (polls : List Answer) :
    polled (poll :: polls) =
      if poll.refused then [] else poll.page.toOption.toList ++ polled polls := by
  unfold polled
  cases hrefused : poll.refused with
  | true => simp [hrefused]
  | false => cases hpage : poll.page.toOption <;> simp [hrefused, hpage]

/-- A poll that brings a page comes before what the others bring. -/
theorem polled_of_page {polls : List Answer} {page : EventsPage}
    (h : (nextAnswer polls).page = .ok page) : polled polls = page :: polled polls.tail := by
  cases polls with
  | nil =>
      -- The script is used up, and what answers then is no success.
      have hstatus : succeeded 410 = false := rfl
      obtain ⟨failure, hfailure⟩ := Answer.page_of_not_succeeded hstatus
        (Utf8.bytes "\x7b\"message\":\"script exhausted\"\x7d")
      cases hfailure.symm.trans h
  | cons poll polls =>
      have hpage : poll.page = .ok page := h
      have hrefused : poll.refused = false := by rw [Answer.refused, hpage]
      rw [polled_cons, hrefused, hpage]
      rfl

/-- A poll that fails brings nothing, and none comes after it if it was refused as faulty. -/
theorem polled_of_failure {polls : List Answer} {failure : Failure}
    (h : (nextAnswer polls).page = .error failure) :
    polled polls = if failure.isClientError then [] else polled polls.tail := by
  cases polls with
  | nil => exact (ite_self []).symm
  | cons poll polls =>
      have hpage : poll.page = .error failure := h
      have hrefused : poll.refused = failure.isClientError := by rw [Answer.refused, hpage]
      rw [polled_cons, hrefused, hpage]
      rfl

/-- A poll that fails is as good as none, wherever it stands, unless it was refused as faulty: not a
failure on the way, not a page that does not decode, not a failure of the service, and not a refusal
without a message. -/
theorem polled_without {before after : List Answer} {poll : Answer}
    (hpage : ∃ failure, poll.page = .error failure) (hrefused : poll.refused = false) :
    polled (before ++ poll :: after) = polled (before ++ after) := by
  obtain ⟨failure, hpage⟩ := hpage
  induction before with
  | nil =>
      rw [List.nil_append, polled_cons, hrefused, hpage]
      rfl
  | cons other before ih => rw [List.cons_append, List.cons_append, polled_cons, polled_cons, ih]

/-- Each event shown is one of a page, and they come in the order of the pages. -/
theorem shown_sublist (capacity : Nat) (pages : List EventsPage) :
    (shown capacity pages).Sublist (eventsOf pages) := by
  induction pages with
  | nil => exact .slnil
  | cons page pages ih => exact (List.drop_sublist _ _).append ih

/-- Pages that fit are shown whole. -/
theorem shown_of_fits {capacity : Nat} {pages : List EventsPage}
    (h : ∀ page ∈ pages, page.events.length ≤ capacity) :
    shown capacity pages = eventsOf pages := by
  induction pages with
  | nil => rfl
  | cons page pages ih =>
      have hpage := Store.lastOf_of_length_le (h page List.mem_cons_self)
      have hpages := ih fun page hmem => h page (List.mem_cons_of_mem _ hmem)
      simp only [shown, eventsOf, List.flatMap_cons] at hpages ⊢
      rw [hpage, hpages]

/-! ### Fetching and printing -/

/-- What a store shows is printed as far as it is new. -/
theorem run_printNew {store : Store} {events : List LogEvent} (h : store.events = .success events)
    (last : Option String) (desk : Desk) :
    (printNew store last).run.run desk = (.ok (newest last events),
      { desk with printed := desk.printed ++ (unseen last events).map eventLine }) := by
  unfold printNew
  rw [h]
  change (Task.print ((unseen last events).map eventLine) >>= fun _ =>
    return newest last events).run.run desk = _
  rw [Task.run_bind, Task.run_print]
  rfl

/-! ### Following -/

variable {source : Source} {desk : Desk} {polls : List Answer}

/-- After a page, what is new is printed, and following goes on. -/
theorem run_follow_of_ok {store left : Store} {last newest : Option String} {between printed : Desk}
    (hrun : (runStore source (.refresh false) store).run.run desk = (.ok (.ok (), left), between))
    (hprint : (printNew left last).run.run between = (.ok newest, printed)) (fetches : Nat) :
    (follow source (fetches + 1) store last).run.run desk =
      (follow source fetches left newest).run.run printed := by
  rw [follow, Task.run_bind, hrun]
  show (printNew left last >>= fun newest => follow source fetches left newest).run.run between = _
  rw [Task.run_bind, hprint]

/-- After a failure, following ends if the fetch was refused as faulty, and else goes on. -/
theorem run_follow_of_error {store left : Store} {between : Desk} {failure : Failure}
    (hrun : (runStore source (.refresh false) store).run.run desk =
      (.ok (.error failure, left), between)) (fetches : Nat) (last : Option String) :
    (follow source (fetches + 1) store last).run.run desk =
      if failure.isClientError then (.error (.events failure), between)
      else (follow source fetches left last).run.run between := by
  rw [follow, Task.run_bind, hrun]
  show (if failure.isClientError = true then throw (.events failure)
    else follow source fetches left last : Task Unit).run.run between = _
  split
  · rw [Task.run_throw]
  · rfl

/-- A poll that brings a page prints what is new and goes on. -/
theorem follow_page (h : source.AnsweredFrom polls desk.network) {page : EventsPage}
    (hpage : (nextAnswer polls).page = .ok page) (fetches : Nat) (store : Store)
    (last : Option String) :
    let kept := Store.lastOf store.capacity (store.held ++ page.events)
    ∃ next, source.AnsweredFrom polls.tail next ∧
      (follow source (fetches + 1) store last).run.run desk =
        (follow source fetches (store.refresh false (.ok page)).2 (newest last kept)).run.run
          ⟨next, desk.printed ++ (unseen last kept).map eventLine⟩ := by
  intro kept
  have hrun := run_runStore source (.refresh false) store desk
  have hevents : (store.refresh false (.ok page)).2.events = .success kept :=
    store.events_refresh_ok false page
  rw [h.page_eq, hpage] at hrun
  exact ⟨_, h.after _, run_follow_of_ok hrun (run_printNew hevents last _) fetches⟩

/-- A poll that fails prints nothing, and ends the following only if it was refused as faulty. -/
theorem follow_failure (h : source.AnsweredFrom polls desk.network) {failure : Failure}
    (hpage : (nextAnswer polls).page = .error failure) (fetches : Nat) (store : Store)
    (last : Option String) :
    ∃ next, source.AnsweredFrom polls.tail next ∧
      (follow source (fetches + 1) store last).run.run desk =
        if failure.isClientError then (.error (.events failure), { desk with network := next })
        else (follow source fetches (store.refresh false (.error failure)).2 last).run.run
          { desk with network := next } := by
  have hrun := run_runStore source (.refresh false) store desk
  rw [h.page_eq, hpage] at hrun
  exact ⟨_, h.after _, run_follow_of_error hrun fetches last⟩

/-- **Following prints the pages that the polls bring**, of each what the store keeps of it. The
induction is on how often it fetches; carried along is that what is held ends where printing has
come to, and that what the polls still bring has other ids than the event printed last. -/
theorem follow_printed (h : source.AnsweredFrom polls desk.network) {fetches : Nat} {store : Store}
    {last : Option String} (hfetches : polls.length ≤ fetches) (hheld : CaughtUp store.held last)
    (hfresh : Fresh last (eventsOf (polled polls)))
    (hids : ((eventsOf (polled polls)).map LogEvent.id).Nodup) :
    ((follow source fetches store last).run.run desk).2.printed =
      desk.printed ++ (shown store.capacity (polled polls)).map eventLine := by
  induction fetches generalizing polls store last desk with
  | zero =>
      have hnone : polls = [] := List.length_eq_zero_iff.mp (Nat.le_zero.mp hfetches)
      rw [hnone, follow, Task.run_pure]
      exact (List.append_nil desk.printed).symm
  | succ fetches ih =>
      have htail : polls.tail.length ≤ fetches := by
        rw [List.length_tail]
        omega
      cases hpage : (nextAnswer polls).page with
      | ok page =>
          obtain ⟨next, hnext, hrun⟩ := follow_page h hpage fetches store last
          rw [polled_of_page hpage] at hfresh hids ⊢
          have hkept : (store.refresh false (.ok page)).2.held =
              Store.lastOf store.capacity (store.held ++ page.events) :=
            Store.held_of_success (store.events_refresh_ok false page)
          -- What is held ends where printing has come to, so what is new is what the page brings.
          have hnew : unseen last (Store.lastOf store.capacity (store.held ++ page.events)) =
              Store.lastOf store.capacity page.events :=
            unseen_lastOf store.capacity hheld fun e he => hfresh e (List.mem_append_left _ he)
          have hrest : ((eventsOf (polled polls.tail)).map LogEvent.id).Nodup :=
            hids.sublist ((List.sublist_append_right page.events _).map _)
          rw [hrun, ih hnext htail (hkept ▸ caughtUp_newest last _)
            (fresh_newest store.capacity hheld hfresh hids) hrest, hnew]
          simp [shown]
      | error failure =>
          obtain ⟨next, hnext, hrun⟩ := follow_failure h hpage fetches store last
          rw [polled_of_failure hpage] at hfresh hids ⊢
          rw [hrun]
          cases hfault : failure.isClientError with
          | true => simp [shown]
          | false =>
              simp only [hfault, Bool.false_eq_true, if_false] at hfresh hids ⊢
              -- Nothing is held after a failure, and the event printed last is still remembered.
              have hnone : CaughtUp (store.refresh false (.error failure)).2.held last := by
                rw [store.held_refresh_error]
                intro e he
                cases he
              rw [ih hnext htail hnone hfresh hids, Store.capacity_refresh]

/-! ### What is printed of an event -/

/-- What is written of an event: its log, its time and its message, on a line of their own. -/
def eventText (e : LogEvent) : String := e.log ++ " " ++ e.timestamp ++ " " ++ e.message ++ "\n"

/-- Without colours, a line of an event reads as the event. -/
theorem renderLine_eventLine (e : LogEvent) : renderLine false (eventLine e) = eventText e := by
  rw [← String.toList_inj]
  simp [renderLine, eventLine, eventText, Span.render, Span.plain, Span.styled, Span.pad, String.join]

theorem renderLines_eventLine (events : List LogEvent) :
    renderLines false (events.map eventLine) = String.join (events.map eventText) := by
  rw [renderLines, List.map_map]
  exact congrArg String.join (List.map_congr_left fun e _ => renderLine_eventLine e)

/-! ### The command -/

variable {c : Context} {names : List String} {network : Network} {id : String} {listing : Answer}
  {startup : List Answer} {earlier : List EventsPage} {first : EventsPage}

/-- Once every first fetch has brought a page, the latest events of the page that came last are
printed, and polls are made only if they are asked for. -/
theorem Context.run_tailLogs_of_pages (hfinds : c.Finds desk id)
    (hreach : (Source.mk c.client id).Reaches desk.network.transport)
    (hscript : desk.network.script = listing :: (startup ++ polls))
    (hlogs : startup.length = (firstRequests names).length)
    (hpages : startup.map Answer.page = (earlier ++ [first]).map .ok) (following : Bool) :
    let kept := Store.lastOf c.settings.logBufferSize first.events
    let next := desk.network.after c.client
      (.service .describeWorkspaces :: eventsCalls id (firstRequests names))
    ∃ store, Filled store c.settings.logBufferSize names startup ∧ store.held = kept ∧
      (Source.mk c.client id).AnsweredFrom polls next ∧
      (c.tailLogs names following).run.run desk =
        (if following then follow ⟨c.client, id⟩ (fetchesLeft next) store (newest none kept)
          else pure ()).run.run ⟨next, desk.printed ++ kept.map eventLine⟩ := by
  intro kept next
  obtain ⟨store, hfilled, hpolls, hfetched⟩ := run_fetchFirst_of_pages c.settings.logBufferSize hlogs
    (exists_page_of_map_eq hpages) (hfinds.answeredFrom hreach hscript)
  have hevents : store.events = .success kept := hfilled.events_of_map_eq hpages
  rw [Desk.after_after] at hpolls hfetched
  refine ⟨store, hfilled, Store.held_of_success hevents, hpolls, ?_⟩
  rw [tailLogs, Task.run_bind, hfinds.run]
  -- Nothing was printed before, so all of the page is new.
  simp only [Task.run_bind, hfetched, run_printNew hevents]
  cases following <;> rfl

/-- **Following prints every event once.** Once the workspace is known and the first fetches have
succeeded, what is printed is the latest events of the page that the last of them brought, and then
of every page that a poll brings; of each as many as the store holds at most. Every event stands on a
line of its own, with its log, its time and its message. No event is printed twice, and if all pages
fit, none is lost. Polls that fail add, drop and repeat nothing, wherever they stand, as long as the
service does not say that they were at fault. -/
theorem Command.logs_follow_printed (c : Context) (names : List String) (network : Network)
    (id : String) (listing : Answer) (startup polls : List Answer) (earlier : List EventsPage)
    (first : EventsPage) (hscript : network.script = listing :: (startup ++ polls))
    (hid : (c.resolve.run.run ⟨network, []⟩).1 = .ok id)
    (hreach : (Source.mk c.client id).Reaches network.transport)
    (hlogs : startup.length = max 1 names.length)
    (hpages : startup.map Answer.page = (earlier ++ [first]).map .ok)
    (hids : ((eventsOf (first :: polled polls)).map LogEvent.id).Nodup) :
    let printed := ((Command.run c (.logs names true)).run.run ⟨network, []⟩).2.printed
    let events := shown c.settings.logBufferSize (first :: polled polls)
    printed = events.map eventLine ∧
    renderLines false printed = String.join (events.map eventText) ∧
    (events.map LogEvent.id).Nodup ∧
    ((∀ page ∈ first :: polled polls, page.events.length ≤ c.settings.logBufferSize) →
      events = eventsOf (first :: polled polls)) ∧
    ∀ before poll after, polls = before ++ poll :: after →
      (∃ failure, poll.page = .error failure) → poll.refused = false →
      polled polls = polled (before ++ after) := by
  intro printed events
  have hprinted : printed = events.map eventLine := by
    obtain ⟨store, hfilled, hheld, hpolls, hrun⟩ := Context.run_tailLogs_of_pages
      (Context.finds_of_ok hid) hreach hscript (hlogs.trans (length_firstRequests names).symm) hpages
      true
    have hnone : CaughtUp [] none := by
      intro e he
      cases he
    have hfresh : Fresh (newest none (Store.lastOf c.settings.logBufferSize first.events))
        (eventsOf (polled polls)) :=
      fresh_newest c.settings.logBufferSize hnone (fun e _ => nofun) hids
    have hrest : ((eventsOf (polled polls)).map LogEvent.id).Nodup :=
      hids.sublist ((List.sublist_append_right first.events _).map _)
    have hfetches : polls.length ≤ polls.length + 1 := Nat.le_succ _
    change ((c.tailLogs names true).run.run ⟨network, []⟩).2.printed = _
    rw [hrun, if_pos rfl, fetchesLeft, hpolls.script, follow_printed hpolls hfetches
      (hheld ▸ caughtUp_newest none _) hfresh hrest, hfilled.capacity, List.nil_append,
      ← List.map_append]
    rfl
  refine ⟨hprinted, ?_, hids.sublist ((shown_sublist _ _).map _), shown_of_fits, ?_⟩
  · rw [hprinted, renderLines_eventLine]
  · rintro before poll after rfl hpage hrefused
    exact polled_without hpage hrefused

/-! A run: the store has room for one event, three polls fail, and one brings a page. -/

/-- A response that brings a record. -/
def responseOf {α : Type} [Wire.Codec α] (a : α) : Answer :=
  .response 200 (Utf8.bytes (Wire.Codec.render a))

def notedEvent (id : String) : LogEvent := ⟨id, "web", "12:00", id⟩

def smallContext : Context where
  settings := ⟨"https://host", some "w", 1, 250, none⟩
  client := ⟨"https://host", none⟩
  surroundings := ⟨.ok (.ofText "/"), fun _ => .error .noEntry⟩

def startPage : EventsPage := ⟨[notedEvent "a", notedEvent "b"], "x"⟩

def polledPage : EventsPage := ⟨[notedEvent "c"], "y"⟩

def interruptedPolls : List Answer :=
  [.silence "timed out", responseOf polledPage, .unread 200 "broken off", .response 404 []]

def workspaceListing : Answer := responseOf (⟨[⟨"w", "/"⟩]⟩ : WorkspaceList)

def smallNetwork : Network :=
  .new .plain (workspaceListing :: ([responseOf startPage] ++ interruptedPolls))

theorem ok_of_toOption {ε α : Type} {x : Except ε α} {a : α} (h : x.toOption = some a) :
    x = .ok a := by
  cases x with
  | error e => cases h
  | ok b => exact congrArg _ (Option.some.inj h)

theorem page_startPage : (responseOf startPage).page = .ok startPage :=
  ok_of_toOption (by decide +kernel)

theorem logs_follow_printed_of_interruptedPolls :
    let printed :=
      ((Command.run smallContext (.logs ["web"] true)).run.run ⟨smallNetwork, []⟩).2.printed
    polled interruptedPolls = [polledPage] ∧
    printed = [notedEvent "b", notedEvent "c"].map eventLine ∧
    renderLines false printed = "web 12:00 b\nweb 12:00 c\n" := by
  have hpolled : polled interruptedPolls = [polledPage] := by decide +kernel
  have hlists : smallContext.client.lists smallNetwork = .ok [⟨"w", "/"⟩] :=
    ok_of_toOption (by decide +kernel)
  have hmeant : Cli.resolve smallContext.surroundings smallContext.settings.workspace
      [⟨"w", "/"⟩] = .ok "w" := ok_of_toOption (by decide +kernel)
  have hid : (smallContext.resolve.run.run ⟨smallNetwork, []⟩).1 = .ok "w" := by
    rw [Context.run_resolve, hlists]
    exact congrArg (Except.mapError CommandFault.resolution) hmeant
  have hids : ((eventsOf (startPage :: polled interruptedPolls)).map LogEvent.id).Nodup := by
    rw [hpolled]
    decide
  obtain ⟨hprinted, htext, -⟩ := Command.logs_follow_printed smallContext ["web"] smallNetwork "w"
    workspaceListing [responseOf startPage] interruptedPolls [] startPage
    rfl hid (by decide +kernel) rfl (by rw [List.map_cons, page_startPage]; rfl) hids
  rw [hpolled] at hprinted htext
  exact ⟨hpolled, hprinted, htext.trans (by decide +kernel)⟩

end WorkspaceControl.Cli
