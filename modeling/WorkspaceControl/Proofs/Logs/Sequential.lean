import WorkspaceControl.Proofs.Logs.History
import WorkspaceControl.Proofs.Logs.Turns

/-!
# Overlapping calls as calls one at a time

Calls to a store may overlap in any way, and what they leave behind is still that of a store used by
one call at a time. A fetch *wins* if it is the one issued last when its reply arrives. An `Outline`
reads off the events which fetches win, and writes the same run down as turns: a change of the logs
watched, or a refresh from its start to its end. Fetches that do not win have no turn, but a restart
among them is handed on to the next winner.

**After every winner the store is the one that the turns lead to.** The simulation behind it,
`Simulates`, says what the store keeps of the calls started since the last winner: whether one of
them was a restart.
-/

namespace WorkspaceControl.Logs

/-- Which logs are watched after a call has been started depends on nothing else. -/
theorem Call.watched_prepare_congr (call : Call) {s t : Store} (h : s.watched = t.watched) :
    (call.prepare s).watched = (call.prepare t).watched := by
  cases call with
  | refresh fromStart => exact h
  | visibility log visible =>
      have hagrees : s.agrees log visible = t.agrees log visible := by simp [Store.agrees, h]
      unfold prepare Store.watch
      cases ht : t.agrees log visible with
      | true => simpa [hagrees, ht] using h
      | false => cases visible <;> simp [hagrees, ht, h]

/-! ### The turns of a run -/

/-- What the events of a run say without a look at the store. -/
structure Outline where
  /-- How many fetches have been issued; the one issued last has this number. -/
  issued : Nat
  /-- The fetches under way. -/
  waiting : List Nat
  /-- The calls started since the last winner. -/
  pending : List Call
  /-- The run as turns. -/
  turns : List Turn

namespace Outline

/-- Nothing has happened. -/
def empty : Outline := ⟨0, [], [], []⟩

/-- Whether the reply of a fetch arrives while no later one has been issued. -/
def Wins (o : Outline) (number : Nat) : Prop := number ∈ o.waiting ∧ number = o.issued

instance (o : Outline) (number : Nat) : Decidable (o.Wins number) :=
  inferInstanceAs (Decidable (_ ∧ _))

/-- Whether the next winner has to start from the beginning: it or a fetch that it supersedes is a
restart. -/
def restarts (o : Outline) : Bool := o.pending.any Call.fromStart

/-- The outline with one more event. -/
def step (o : Outline) : Event → Outline
  | .start call =>
    { issued := o.issued + 1
      waiting := (o.issued + 1) :: o.waiting
      pending := o.pending ++ [call]
      turns := o.turns ++ call.watching }
  | .reply number reply =>
    if o.Wins number then
      { o with
        waiting := o.waiting.erase number
        pending := []
        turns := o.turns ++ [.refresh o.restarts reply] }
    else { o with waiting := o.waiting.erase number }
  | .drop number => { o with waiting := o.waiting.erase number }

/-- The outline of a run. -/
def of (events : List Event) : Outline := events.foldl step empty

theorem of_concat (events : List Event) (event : Event) :
    of (events ++ [event]) = (of events).step event := by
  simp [of]

theorem step_reply_of_wins {o : Outline} {number : Nat} (h : o.Wins number) (reply : Reply) :
    o.step (.reply number reply) =
      { o with
        waiting := o.waiting.erase number
        pending := []
        turns := o.turns ++ [.refresh o.restarts reply] } := by
  simp only [step, if_pos h]

theorem step_reply_of_not_wins {o : Outline} {number : Nat} (h : ¬o.Wins number)
    (reply : Reply) :
    o.step (.reply number reply) = { o with waiting := o.waiting.erase number } := by
  simp only [step, if_neg h]

/-! ### The simulation -/

/-- A session and a store that took the turns of its outline. They differ in what the calls since
the last winner have done: these have shown that a fetch is under way, and dropped the cursor and
the events if one of them was a restart. -/
structure Simulates (o : Outline) (s : Session) (t : Store) : Prop where
  issued : o.issued = s.store.latest
  waiting : o.waiting = s.waiting
  watched : s.store.watched = t.watched
  capacity : s.store.capacity = t.capacity
  cursor : s.store.cursor = if o.restarts then none else t.cursor
  held : s.store.held = if o.restarts then [] else t.held

theorem simulates_empty (capacity : Nat) :
    empty.Simulates (.new capacity) (.empty capacity) := by
  constructor <;> rfl

variable {o : Outline} {s : Session} {t : Store}

theorem Simulates.wins_iff (h : o.Simulates s t) (number : Nat) :
    o.Wins number ↔ number ∈ s.waiting ∧ number = s.store.latest := by
  rw [Wins, h.issued, h.waiting]

/-- Starting a call changes the logs in both at once, and drops what a restart drops in one. -/
theorem Simulates.start (h : o.Simulates s t) (call : Call) :
    (o.step (.start call)).Simulates (s.step (.start call)).2 (call.prepare t) := by
  have hrestarts : (o.step (.start call)).restarts = (o.restarts || call.fromStart) := by
    simp [restarts, step]
  constructor
  · simp [step, Call.start, h.issued]
  · simp [step, Call.start, h.issued, h.waiting]
  · exact call.watched_prepare_congr h.watched
  · simp [Call.start, h.capacity]
  · rw [hrestarts]
    cases hcall : call.fromStart <;> simp [Call.start, hcall, h.cursor]
  · rw [hrestarts]
    cases hcall : call.fromStart <;> simp [Call.start, hcall, h.held]

/-- What the winner shows is what its refresh shows that makes up for the restarts before it. -/
theorem Simulates.complete (h : o.Simulates s t) (reply : Reply) :
    (s.store.complete s.store.latest reply).events = (t.refresh o.restarts reply).2.events ∧
      (s.store.complete s.store.latest reply).cursor = (t.refresh o.restarts reply).2.cursor := by
  cases reply with
  | ok page =>
      rw [Store.complete_latest_ok, Store.refresh_ok]
      refine ⟨?_, rfl⟩
      simp only [Store.add, Store.held_issue, Store.capacity_issue, h.held, h.capacity]
  | error failure =>
      rw [Store.complete_latest_error, Store.refresh_error]
      exact ⟨rfl, h.cursor⟩

theorem Simulates.win (h : o.Simulates s t) {number : Nat} (hwins : o.Wins number)
    (reply : Reply) :
    (o.step (.reply number reply)).Simulates (s.step (.reply number reply)).2
      (t.refresh o.restarts reply).2 := by
  obtain ⟨hmem, rfl⟩ := (h.wins_iff number).mp hwins
  obtain ⟨hevents, hcursor⟩ := h.complete reply
  rw [step_reply_of_wins hwins, Session.step_reply_latest hmem]
  constructor
  · simp [h.issued]
  · simp [h.waiting]
  · simp [h.watched]
  · simp [h.capacity]
  · exact hcursor
  · simp only [Store.held, hevents]
    rfl

/-- A reply that does not win leaves both stores alone. -/
theorem Simulates.lose (h : o.Simulates s t) {number : Nat} (hwins : ¬o.Wins number)
    (reply : Reply) :
    (o.step (.reply number reply)).Simulates (s.step (.reply number reply)).2 t := by
  rw [step_reply_of_not_wins hwins]
  by_cases hmem : number ∈ s.waiting
  · have hne : number ≠ s.store.latest := fun heq => hwins ((h.wins_iff number).mpr ⟨hmem, heq⟩)
    rw [Session.step_reply_of_mem hmem]
    simp only [Store.complete_of_ne hne]
    exact ⟨h.issued, by rw [h.waiting], h.watched, h.capacity, h.cursor, h.held⟩
  · rw [Session.step_reply_of_not_mem hmem]
    refine ⟨h.issued, ?_, h.watched, h.capacity, h.cursor, h.held⟩
    rw [h.waiting]
    exact List.erase_of_not_mem hmem

theorem Simulates.drop (h : o.Simulates s t) (number : Nat) :
    (o.step (.drop number)).Simulates (s.step (.drop number)).2 t :=
  ⟨h.issued, by simp [step, h.waiting], h.watched, h.capacity, h.cursor, h.held⟩

/-- Every run is simulated by its turns. -/
theorem simulates_after (capacity : Nat) (events : List Event) :
    (of events).Simulates ((Session.new capacity).after events)
      ((Store.empty capacity).inTurn (of events).turns).2 := by
  induction events using List.reverseRecOn with
  | nil => exact simulates_empty capacity
  | append_singleton events event ih =>
      rw [of_concat, Session.after_concat]
      cases event with
      | start call =>
          have hstart := ih.start call
          simp only [step, Store.inTurn_append, Store.inTurn_watching] at hstart ⊢
          exact hstart
      | reply number reply =>
          by_cases hwins : (of events).Wins number
          · have hwin := ih.win hwins reply
            rw [step_reply_of_wins hwins] at hwin ⊢
            simp only [Store.inTurn_append, Store.inTurn_refresh]
            exact hwin
          · have hlose := ih.lose hwins reply
            rw [step_reply_of_not_wins hwins] at hlose ⊢
            exact hlose
      | drop number => exact ih.drop number

/-- No call has been started since the fetch issued last, so it asked for what the winner's turn
asks for. -/
theorem request_of_wins (capacity : Nat) {events : List Event} {number : Nat}
    (h : (of events).Wins number) :
    ∃ fetch, ((Session.new capacity).fetches events).getLast? = some fetch ∧
      fetch.number = number ∧
      fetch.request = (((Store.empty capacity).inTurn (of events).turns).2.issue
        (of events).restarts).1.request := by
  have hsim := simulates_after capacity events
  obtain ⟨hmem, rfl⟩ := (hsim.wins_iff number).mp h
  obtain ⟨fetch, hlast, hnumber, hlogs, hcursor⟩ :=
    (Session.coherent_after capacity events).asked hmem
  refine ⟨fetch, hlast, hnumber, ?_⟩
  rw [Fetch.request, Fetch.request, hlogs, hcursor, hsim.watched, hsim.cursor]
  rfl

end Outline

/-- **Overlapping use of a store is sequential use.** When a winner's reply arrives, the store shows
the logs and events and has the cursor of a store that took the turns of the run one at a time, and
the winner asked for what its turn asks for. A restart that a winner supersedes is not lost: the
winner asks from the beginning, and its page is all that is held. -/
theorem overlapping_eq_sequential (capacity : Nat) (events : List Event) (number : Nat)
    (reply : Reply) (h : (Outline.of events).Wins number) :
    let overlapping := ((Session.new capacity).after (events ++ [.reply number reply])).store
    let sequential := (Store.empty capacity).inTurn
      (Outline.of (events ++ [.reply number reply])).turns
    overlapping.snapshot = sequential.2.snapshot ∧
    overlapping.cursor = sequential.2.cursor ∧
    ∃ fetch, ((Session.new capacity).fetches events).getLast? = some fetch ∧
      fetch.number = number ∧
      sequential.1.getLast?.map Fetch.request = some fetch.request ∧
      ((∃ call ∈ (Outline.of events).pending, call.fromStart = true) →
        fetch.cursor = none ∧
        ∀ page, reply = .ok page → overlapping.held = Store.lastOf capacity page.events) := by
  intro overlapping sequential
  have hsim := Outline.simulates_after capacity events
  obtain ⟨fetch, hlast, hnumber, hrequest⟩ := Outline.request_of_wins capacity h
  obtain ⟨hmem, rfl⟩ := (hsim.wins_iff number).mp h
  obtain ⟨hevents, hcursor⟩ := hsim.complete reply
  have hoverlapping : overlapping = ((Session.new capacity).after events).store.complete
      ((Session.new capacity).after events).store.latest reply := by
    simp only [overlapping, Session.after_concat, Session.step_reply_latest hmem]
  have hsequential : sequential =
      (((Store.empty capacity).inTurn (Outline.of events).turns).1 ++
          [(((Store.empty capacity).inTurn (Outline.of events).turns).2.refresh
            (Outline.of events).restarts reply).1],
        (((Store.empty capacity).inTurn (Outline.of events).turns).2.refresh
          (Outline.of events).restarts reply).2) := by
    simp only [sequential, Outline.of_concat, Outline.step_reply_of_wins h, Store.inTurn_append,
      Store.inTurn_refresh]
  rw [hoverlapping, hsequential]
  refine ⟨?_, hcursor, fetch, hlast, hnumber, ?_, ?_⟩
  · simp only [Store.snapshot, hevents, Store.watched_complete, Store.capacity_complete,
      Store.watched_refresh, Store.capacity_refresh, hsim.watched, hsim.capacity]
  · rw [List.getLast?_concat, Option.map_some, hrequest]
    rfl
  · rintro ⟨call, hcall, hstart⟩
    have hrestarts : (Outline.of events).restarts = true :=
      List.any_eq_true.mpr ⟨call, hcall, hstart⟩
    have hheld := hsim.held
    rw [hrestarts] at hrequest hheld
    refine ⟨?_, ?_⟩
    · simpa [Fetch.request, Pagination.after, Store.issue] using congrArg
        (fun r => r.pagination.bind Pagination.cursor) hrequest
    · rintro page rfl
      have hcapacity := Session.capacity_after (.new capacity) events
      rw [Store.complete_latest_ok, Store.held_add, hheld, hcapacity]
      rfl

/-- A restart that a refresh supersedes before it is answered, while the logs watched change. -/
def supersededRestart : List Event :=
  [.start (.visibility "web" true), .reply 1 (.ok ⟨[⟨"a", "web", "1", "up"⟩], "x"⟩),
    .start (.visibility "db" true), .start (.refresh false),
    .reply 2 (.error (.requestFailed "timed out"))]

/-- Its winner asks from the beginning, as its turn does, and what it brings is all that is held. -/
theorem overlapping_eq_sequential_of_supersededRestart :
    (Outline.of supersededRestart).Wins 3 ∧
    ((Session.new 2).after
      (supersededRestart ++ [.reply 3 (.ok ⟨[⟨"b", "db", "2", "up"⟩], "y"⟩)])).store.snapshot =
      ((Store.empty 2).inTurn (Outline.of
        (supersededRestart ++ [.reply 3 (.ok ⟨[⟨"b", "db", "2", "up"⟩], "y"⟩)])).turns).2.snapshot ∧
    ((Session.new 2).after
      (supersededRestart ++ [.reply 3 (.ok ⟨[⟨"b", "db", "2", "up"⟩], "y"⟩)])).store.held =
      [⟨"b", "db", "2", "up"⟩] := by
  have hwins : (Outline.of supersededRestart).Wins 3 := by decide
  obtain ⟨hsnapshot, -, fetch, -, -, -, hrestart⟩ :=
    overlapping_eq_sequential 2 supersededRestart 3 (.ok ⟨[⟨"b", "db", "2", "up"⟩], "y"⟩) hwins
  have hpending : ∃ call ∈ (Outline.of supersededRestart).pending, call.fromStart = true := by
    decide
  exact ⟨hwins, hsnapshot, (hrestart hpending).2 _ rfl⟩

end WorkspaceControl.Logs
