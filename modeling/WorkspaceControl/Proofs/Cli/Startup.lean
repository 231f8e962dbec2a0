import WorkspaceControl.Cli.Run
import WorkspaceControl.Proofs.Cli.Tasks
import WorkspaceControl.Proofs.Logs.Turns
import WorkspaceControl.Proofs.Logs.Watching

/-!
# Before logs are printed

Before any event is printed, each log named is asked for together with those named before it, from
the beginning (`firstRequests`), or all logs are if none is named. One invariant tells what that
leaves: **a store has come as far as the names and the answers that it was given** (`Reached`), so it
watches the logs named, each once and in the order in which they were first named, and its cursor is
that of the latest page. A page keeps this up whether it starts from the beginning or not. A failure
does so only if it does not start from the beginning, but a failure that does ends the command.

What is shown then is the page that came last (`Filled`), since each of these fetches starts anew.
-/

namespace WorkspaceControl.Cli

open Rpc Logs

/-! ### Requests -/

/-- The cursor of the latest page that some answers bring. -/
def latestCursor (answers : List Answer) : Option String :=
  (answers.filterMap fun answer => answer.page.toOption).getLast?.map EventsPage.cursor

/-- What watching logs one after the other asks for, with others watched already: each time all logs
named so far, from the beginning. -/
def namedRequests (watched names : List String) : List EventsRequest :=
  (List.range names.length).map fun k =>
    ⟨(watched ++ names.take (k + 1)).eraseDups, some (.after none)⟩

/-- What is asked for before anything is printed. -/
def firstRequests : List String → List EventsRequest
  | [] => [⟨[], some (.after none)⟩]
  | names => namedRequests [] names

/-- Calls that ask for events of a workspace. -/
def eventsCalls (id : String) (requests : List EventsRequest) : List Rpc.Call :=
  requests.map fun request => .workspace id (.getEvents request)

theorem latestCursor_concat_of_page {answer : Answer} {page : EventsPage}
    (h : answer.page = .ok page) (answers : List Answer) :
    latestCursor (answers ++ [answer]) = some page.cursor := by
  simp [latestCursor, h, Except.toOption]

theorem latestCursor_concat_of_failure {answer : Answer} {failure : Failure}
    (h : answer.page = .error failure) (answers : List Answer) :
    latestCursor (answers ++ [answer]) = latestCursor answers := by
  simp [latestCursor, h, Except.toOption]

theorem eventsCalls_append (id : String) (requests more : List EventsRequest) :
    eventsCalls id (requests ++ more) = eventsCalls id requests ++ eventsCalls id more :=
  List.map_append

theorem eventsCalls_cons (id : String) (request : EventsRequest) (requests : List EventsRequest) :
    eventsCalls id (request :: requests) = eventsCalls id [request] ++ eventsCalls id requests := rfl

theorem namedRequests_cons (watched : List String) (name : String) (names : List String) :
    namedRequests watched (name :: names) =
      ⟨(watched ++ [name]).eraseDups, some (.after none)⟩ ::
        namedRequests (watched ++ [name]) names := by
  simp [namedRequests, List.range_succ_eq_map]

theorem length_namedRequests (watched names : List String) :
    (namedRequests watched names).length = names.length := by
  simp [namedRequests]

theorem length_firstRequests (names : List String) :
    (firstRequests names).length = max 1 names.length := by
  cases names with
  | nil => rfl
  | cons name names =>
      have hlength := length_namedRequests [] (name :: names)
      rw [List.length_cons] at hlength ⊢
      exact hlength.trans (Nat.max_eq_right (Nat.le_add_left 1 _)).symm

/-! ### How far a store has come -/

/-- A store has come as far as the logs named to it and the answers given to it. -/
structure Reached (store : Store) (names : List String) (answers : List Answer) : Prop where
  watched : store.watched = names.eraseDups
  cursor : store.cursor = latestCursor answers

theorem reached_empty (capacity : Nat) : Reached (.empty capacity) [] [] := ⟨rfl, rfl⟩

/-- One more log that is to be watched comes last, unless it was named before. -/
theorem watched_watch_of_eraseDups {store : Store} {names : List String}
    (h : store.watched = names.eraseDups) (name : String) :
    (store.watch name true).watched = (names ++ [name]).eraseDups := by
  rw [List.eraseDups_append]
  -- A log that was named before keeps its place.
  by_cases hmem : name ∈ names
  · have hwatched : name ∈ store.watched := h ▸ List.mem_eraseDups.mpr hmem
    rw [Store.watched_watch_of_mem hwatched, h]
    simp [List.removeAll, hmem]
  · have hwatched : name ∉ store.watched := fun hold => hmem (List.mem_eraseDups.mp (h ▸ hold))
    rw [Store.watched_watch_of_not_mem hwatched, h]
    simp [List.removeAll, hmem, List.eraseDups_cons]

namespace Reached

variable {store : Store} {names : List String} {answers : List Answer} {answer : Answer}

theorem watch (h : Reached store names answers) (name : String) :
    Reached (store.watch name true) (names ++ [name]) answers where
  watched := watched_watch_of_eraseDups h.watched name
  cursor := (store.cursor_watch name true).trans h.cursor

theorem page (h : Reached store names answers) {page : EventsPage} (hpage : answer.page = .ok page)
    (fromStart : Bool) :
    Reached (store.refresh fromStart (.ok page)).2 names (answers ++ [answer]) where
  watched := (store.watched_refresh fromStart _).trans h.watched
  cursor := by
    rw [latestCursor_concat_of_page hpage, Store.refresh_ok, Store.cursor_add]

theorem failure (h : Reached store names answers) {failure : Failure}
    (hpage : answer.page = .error failure) :
    Reached (store.refresh false (.error failure)).2 names (answers ++ [answer]) where
  watched := (store.watched_refresh false _).trans h.watched
  cursor := by
    rw [latestCursor_concat_of_failure hpage, Store.refresh_error]
    exact h.cursor

/-- A fetch that goes on from here asks for the logs named, from where the latest page has led to. -/
theorem request_refresh (h : Reached store names answers) :
    (Logs.Call.start (.refresh false) store).1.request =
      ⟨names.eraseDups, some (.after (latestCursor answers))⟩ := by
  rw [← h.watched, ← h.cursor]
  rfl

/-- Watching one more log asks for it and all others, from the beginning. -/
theorem request_watch (h : Reached store names answers) (name : String) :
    (Logs.Call.start (.visibility name true) store).1.request =
      ⟨(names ++ [name]).eraseDups, some (.after none)⟩ := by
  rw [← (h.watch name).watched]
  rfl

end Reached

/-! ### Stores that are filled -/

/-- A store that was filled before anything is printed: it has come as far as the names and the
answers, and shows as much as it has room for of the page that came last. -/
structure Filled (store : Store) (room : Nat) (names : List String) (answers : List Answer) : Prop
    extends Reached store names answers where
  capacity : store.capacity = room
  events : ∀ page, answers.getLast?.map Answer.page = some (.ok page) →
    store.events = .success (Store.lastOf room page.events)

theorem filled_empty (room : Nat) : Filled (.empty room) room [] [] where
  toReached := reached_empty room
  capacity := rfl
  events := nofun

namespace Filled

variable {store : Store} {room : Nat} {names : List String} {answers : List Answer}
  {answer : Answer}

theorem watch (h : Filled store room names answers) (name : String) :
    Filled (store.watch name true) room (names ++ [name]) answers where
  toReached := h.toReached.watch name
  capacity := (store.capacity_watch name true).trans h.capacity
  events page hpage := (store.events_watch name true).trans (h.events page hpage)

/-- A page that starts from the beginning is all that is left. -/
theorem restart (h : Filled store room names answers) {page : EventsPage}
    (hpage : answer.page = .ok page) :
    Filled (store.refresh true (.ok page)).2 room names (answers ++ [answer]) where
  toReached := h.toReached.page hpage true
  capacity := (store.capacity_refresh true _).trans h.capacity
  events other hother := by
    have hsame : page = other := by simpa [hpage] using hother
    rw [store.events_refresh_ok true page, h.capacity, hsame]
    rfl

end Filled

/-- Each of some answers that bring pages brings one. -/
theorem exists_page_of_map_eq {answers : List Answer} {pages : List EventsPage}
    (h : answers.map Answer.page = pages.map .ok) :
    ∀ answer ∈ answers, ∃ page, answer.page = .ok page := by
  intro answer hanswer
  have hmem : answer.page ∈ pages.map .ok := h ▸ List.mem_map_of_mem hanswer
  obtain ⟨page, -, hpage⟩ := List.mem_map.mp hmem
  exact ⟨page, hpage.symm⟩

/-- Of answers that bring pages, the last page is shown. -/
theorem Filled.events_of_map_eq {store : Store} {room : Nat} {names : List String}
    {answers : List Answer} (h : Filled store room names answers) {earlier : List EventsPage}
    {first : EventsPage} (hpages : answers.map Answer.page = (earlier ++ [first]).map .ok) :
    store.events = .success (Store.lastOf room first.events) := by
  refine h.events first ?_
  rw [← List.getLast?_map, hpages]
  simp

/-! ### Fetching -/

variable {source : Source} {desk : Desk} {names watched : List String} {answers polls : List Answer}

/-- A call of a store is a turn of the store with the next page, and asks for its events. -/
theorem run_runStore (source : Source) (call : Logs.Call) (store : Store) (desk : Desk) :
    (runStore source call store).run.run desk =
      (.ok ((source.page desk.network).map fun _ => (),
          ((call.prepare store).refresh call.fromStart (source.page desk.network)).2),
        desk.after source.client
          (eventsCalls source.workspace [(call.start store).1.request])) := by
  rw [runStore, Task.run_talk, Logs.Call.perform_run]
  rfl

/-- What is to be done after a call of a store that has to succeed is done if a page comes, and else
the command has failed. -/
theorem run_required {α : Type} (source : Source) (call : Logs.Call) (store : Store)
    (fault : Failure → CommandFault) (rest : Store → Task α) (desk : Desk) :
    let next := desk.after source.client
      (eventsCalls source.workspace [(call.start store).1.request])
    (runStore source call store >>= fun answered =>
      Task.orElse fault answered.1 >>= fun _ => rest answered.2).run.run desk =
      match source.page desk.network with
      | .ok page => (rest ((call.prepare store).refresh call.fromStart (.ok page)).2).run.run next
      | .error failure => (.error (fault failure), next) := by
  intro next
  rw [Task.run_bind, run_runStore]
  cases source.page desk.network <;> rfl

/-- A page takes an answer of a script, and the fetches after it are answered from what is left. -/
theorem page_and_after {answer : Answer} (h : source.AnsweredFrom (answer :: answers) desk.network)
    {page : EventsPage} (hpage : answer.page = .ok page) (request : EventsRequest) :
    source.page desk.network = .ok page ∧ source.AnsweredFrom answers
      (desk.after source.client (eventsCalls source.workspace [request])).network :=
  ⟨h.page_eq.trans hpage, h.after request⟩

/-- Logs that are watched one after the other are asked for in turn, if pages come. The induction is
on the logs, each of which takes an answer and leaves a store that is filled. -/
theorem run_watchAll_of_pages {startup : List Answer} {store : Store} {room : Nat}
    (hfilled : Filled store room watched answers) (hlogs : startup.length = names.length)
    (hpages : ∀ answer ∈ startup, ∃ page, answer.page = .ok page)
    (h : source.AnsweredFrom (startup ++ polls) desk.network) :
    let next := desk.after source.client
      (eventsCalls source.workspace (namedRequests watched names))
    ∃ left, Filled left room (watched ++ names) (answers ++ startup) ∧
      source.AnsweredFrom polls next.network ∧
      (watchAll source names store).run.run desk = (.ok left, next) := by
  induction names generalizing store watched answers startup desk with
  | nil =>
      cases List.length_eq_zero_iff.mp hlogs
      have hnone : eventsCalls source.workspace (namedRequests watched []) = [] := rfl
      rw [hnone, Desk.after_nil]
      exact ⟨store, by simpa using hfilled, h, rfl⟩
  | cons name names ih =>
      obtain ⟨answer, startup, rfl⟩ := List.exists_cons_of_length_eq_add_one hlogs
      obtain ⟨⟨page, hpage⟩, hpages⟩ := List.forall_mem_cons.mp hpages
      rw [List.cons_append] at h
      obtain ⟨hbrings, hafter⟩ := page_and_after h hpage
        (Logs.Call.start (.visibility name true) store).1.request
      -- The first log takes an answer, and the others go on from the store that it leaves.
      have hrun := run_required source (.visibility name true) store (.eventsOf name)
        (watchAll source names) desk
      obtain ⟨left, hleft, hpolls, hwatched⟩ :=
        ih ((hfilled.watch name).restart hpage) (Nat.succ.inj hlogs) hpages hafter
      rw [hbrings] at hrun
      rw [namedRequests_cons, ← hfilled.request_watch name, eventsCalls_cons, ← Desk.after_after]
      exact ⟨left, by simpa using hleft, hpolls, hrun.trans hwatched⟩

/-- The first log whose page does not come is the last one asked for. -/
theorem run_watchAll_of_failure {before rest : List Answer} {failure : Failure} {store : Store}
    {room : Nat} (hfilled : Filled store room watched answers) (hlogs : before.length < names.length)
    (hpages : ∀ answer ∈ before, ∃ page, answer.page = .ok page)
    (hfailure : (nextAnswer rest).page = .error failure)
    (h : source.AnsweredFrom (before ++ rest) desk.network) :
    ∃ fault, (watchAll source names store).run.run desk =
      (.error fault, desk.after source.client
        (eventsCalls source.workspace ((namedRequests watched names).take (before.length + 1)))) := by
  induction names generalizing store watched answers before desk with
  | nil => exact absurd hlogs (Nat.not_lt_zero _)
  | cons name names ih =>
      have hrun := run_required source (.visibility name true) store (.eventsOf name)
        (watchAll source names) desk
      rw [namedRequests_cons, List.take_succ_cons, ← hfilled.request_watch name]
      cases before with
      | nil =>
          -- No answer is left before the failure, so this log is the last one.
          have hfails : source.page desk.network = .error failure := h.page_eq.trans hfailure
          rw [hfails] at hrun
          exact ⟨.eventsOf name failure, hrun⟩
      | cons answer before =>
          obtain ⟨⟨page, hpage⟩, hpages⟩ := List.forall_mem_cons.mp hpages
          rw [List.cons_append] at h
          obtain ⟨hbrings, hafter⟩ := page_and_after h hpage
            (Logs.Call.start (.visibility name true) store).1.request
          obtain ⟨fault, hfails⟩ := ih ((hfilled.watch name).restart hpage)
            (Nat.lt_of_succ_lt_succ hlogs) hpages hafter
          rw [hbrings] at hrun
          rw [List.length_cons, eventsCalls_cons, ← Desk.after_after]
          exact ⟨fault, hrun.trans hfails⟩

/-- **What is fetched before anything is printed is asked for in turn**, if pages come, and the store
shows the last of them. -/
theorem run_fetchFirst_of_pages {startup : List Answer} (room : Nat)
    (hlogs : startup.length = (firstRequests names).length)
    (hpages : ∀ answer ∈ startup, ∃ page, answer.page = .ok page)
    (h : source.AnsweredFrom (startup ++ polls) desk.network) :
    let next := desk.after source.client (eventsCalls source.workspace (firstRequests names))
    ∃ left, Filled left room names startup ∧ source.AnsweredFrom polls next.network ∧
      (fetchFirst source names (.empty room)).run.run desk = (.ok left, next) := by
  cases names with
  | nil =>
      obtain ⟨answer, rfl⟩ := List.length_eq_one_iff.mp hlogs
      obtain ⟨page, hpage⟩ := List.forall_mem_singleton.mp hpages
      obtain ⟨hbrings, hafter⟩ := page_and_after h hpage ⟨[], some (.after none)⟩
      have hrun := run_required source (.refresh true) (.empty room) .events pure desk
      rw [hbrings] at hrun
      exact ⟨_, (filled_empty room).restart hpage, hafter, hrun⟩
  | cons name names =>
      have hlogs : startup.length = (name :: names).length :=
        hlogs.trans (length_namedRequests [] (name :: names))
      exact run_watchAll_of_pages (filled_empty room) hlogs hpages h

/-- What is fetched before anything is printed is asked for up to the first page that does not
come. -/
theorem run_fetchFirst_of_failure {before rest : List Answer} {failure : Failure} (room : Nat)
    (hlogs : before.length < (firstRequests names).length)
    (hpages : ∀ answer ∈ before, ∃ page, answer.page = .ok page)
    (hfailure : (nextAnswer rest).page = .error failure)
    (h : source.AnsweredFrom (before ++ rest) desk.network) :
    ∃ fault, (fetchFirst source names (.empty room)).run.run desk =
      (.error fault, desk.after source.client
        (eventsCalls source.workspace ((firstRequests names).take (before.length + 1)))) := by
  cases names with
  | nil =>
      cases List.length_eq_zero_iff.mp (Nat.lt_one_iff.mp hlogs)
      have hrun := run_required source (.refresh true) (.empty room) .events pure desk
      have hfails : source.page desk.network = .error failure := h.page_eq.trans hfailure
      rw [hfails] at hrun
      exact ⟨.events failure, hrun⟩
  | cons name names =>
      have hlogs : before.length < (name :: names).length :=
        hlogs.trans_eq (length_namedRequests [] (name :: names))
      exact run_watchAll_of_failure (filled_empty room) hlogs hpages hfailure h

/-- Once the workspace is found, its events are fetched from what is left of the script. -/
theorem Context.Finds.answeredFrom {c : Context} {id : String} (h : c.Finds desk id)
    (hreach : (Source.mk c.client id).Reaches desk.network.transport) {listing : Answer}
    (hscript : desk.network.script = listing :: answers) :
    (Source.mk c.client id).AnsweredFrom answers
      (desk.after c.client [.service .describeWorkspaces]).network where
  reaches := hreach
  script := by rw [Desk.network_after, Network.script_after_of_takes h.takes, hscript, List.tail_cons]

/-- Nothing is fetched from an address that is refused. -/
theorem run_fetchFirst_of_refused (names : List String) (room : Nat)
    (h : ¬source.Reaches desk.network.transport) :
    ∃ fault, (fetchFirst source names (.empty room)).run.run desk = (.error fault, desk) := by
  have hrefused (request : EventsRequest) :
      desk.after source.client (eventsCalls source.workspace [request]) = desk :=
    Desk.after_of_refused h
  obtain ⟨failure, hfails⟩ := source.exists_page_eq_error h
  cases names with
  | nil =>
      have hrun := run_required source (.refresh true) (.empty room) .events pure desk
      rw [hfails, hrefused] at hrun
      exact ⟨.events failure, hrun⟩
  | cons name names =>
      have hrun := run_required source (.visibility name true) (.empty room) (.eventsOf name)
        (watchAll source names) desk
      rw [hfails, hrefused] at hrun
      exact ⟨.eventsOf name failure, hrun⟩

end WorkspaceControl.Cli
