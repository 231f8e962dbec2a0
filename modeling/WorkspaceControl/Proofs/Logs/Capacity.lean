import WorkspaceControl.Proofs.Logs.Steps

/-!
# A store of less capacity is a view of one of more

How many events a store may hold shows in nothing but the events it holds: **two stores that differ
in their capacity ask, answer and notify alike in every run, and where the larger shows events the
smaller shows the last of them**. The relation between the two stores, `Store.Trims`, is kept by
every operation; the case that needs an argument is a page that is added, since both have cut what
they held before (`Store.lastOf_lastOf`).

Both are views of the same unbounded list: the events of all pages taken since the store was last
emptied (`kept`). So it makes no difference whether events leave page by page or once at the end.
-/

namespace WorkspaceControl

/-- The value that is shown, changed by a function. -/
def Remote.map {α β : Type} (f : α → β) : Remote α → Remote β
  | idle => .idle
  | pending => .pending
  | error message => .error message
  | success data => .success (f data)
  | refetching data => .refetching (f data)

section Remote

variable {α β : Type} (f : α → β) (r : Remote α)

@[simp] theorem Remote.stage_map : (r.map f).stage = r.stage := by cases r <;> rfl

@[simp] theorem Remote.errorMessage?_map : (r.map f).errorMessage? = r.errorMessage? := by
  cases r <;> rfl

@[simp] theorem Remote.data?_map : (r.map f).data? = r.data?.map f := by cases r <;> rfl

end Remote

namespace Logs

namespace Store

theorem lastOf_nil {α : Type} (count : Nat) : lastOf count ([] : List α) = [] := by
  simp [lastOf]

/-- The last of the last items of a list are its last items. -/
theorem lastOf_lastOf {α : Type} {count more : Nat} (h : count ≤ more) (items : List α) :
    lastOf count (lastOf more items) = lastOf count items := by
  simp only [lastOf, List.length_drop, List.drop_drop]
  congr 1
  omega

/-- A store trims another of at least its capacity if it shows the last events of the other, and has
everything else in common with it. -/
structure Trims (s t : Store) : Prop where
  capacity : s.capacity ≤ t.capacity
  watched : s.watched = t.watched
  cursor : s.cursor = t.cursor
  latest : s.latest = t.latest
  events : s.events = t.events.map (lastOf s.capacity)

theorem trims_empty {small large : Nat} (h : small ≤ large) :
    (empty small).Trims (empty large) :=
  ⟨h, rfl, rfl, rfl, rfl⟩

variable {s t : Store}

theorem Trims.held (h : s.Trims t) : s.held = lastOf s.capacity t.held := by
  rw [Store.held, h.events, Remote.data?_map, Store.held]
  cases t.events.data? with
  | none => exact (lastOf_nil _).symm
  | some events => rfl

/-- A fetch that starts from the beginning leaves nothing to trim. -/
theorem underWay_map (fromStart : Bool) (count : Nat) (events : Remote (List LogEvent)) :
    underWay fromStart (events.map (lastOf count)) =
      (underWay fromStart events).map (lastOf count) := by
  cases events <;> cases fromStart <;> simp [underWay, Remote.map, lastOf_nil]

theorem Trims.start (h : s.Trims t) (call : Call) :
    (call.start s).1 = (call.start t).1 ∧ (call.start s).2.Trims (call.start t).2 := by
  have hwatched := call.watched_prepare_congr h.watched
  refine ⟨?_, ⟨?_, hwatched, ?_, ?_, ?_⟩⟩
  · simp [Call.start, issue, h.latest, h.cursor, hwatched]
  · simpa [Call.start] using h.capacity
  · simp [Call.start, h.cursor]
  · simp [Call.start, h.latest]
  · simp [Call.start, issue, h.events, underWay_map]

/-- Both stores have cut what they held before, the smaller one more. What it cut leaves the larger
one as well once that is cut to the same length. -/
theorem Trims.add (h : s.Trims t) (page : EventsPage) : (s.add page).Trims (t.add page) where
  capacity := h.capacity
  watched := h.watched
  cursor := rfl
  latest := h.latest
  events := by
    have hheld : lastOf s.capacity (s.held ++ page.events) =
        lastOf s.capacity (lastOf t.capacity (t.held ++ page.events)) := by
      rw [h.held, lastOf_lastOf_append, lastOf_lastOf h.capacity]
    exact congrArg Remote.success hheld

theorem Trims.complete (h : s.Trims t) (number : Nat) (reply : Reply) :
    (s.complete number reply).Trims (t.complete number reply) := by
  unfold Store.complete
  rw [h.latest]
  split
  · cases reply with
    | ok page => exact h.add page
    | error failure => exact ⟨h.capacity, h.watched, h.cursor, rfl, rfl⟩
  · exact h

end Store

namespace Session

/-- Two sessions with the same fetches under way, of which one has the smaller store. -/
structure Trims (s t : Session) : Prop where
  store : s.store.Trims t.store
  waiting : s.waiting = t.waiting

variable {s t : Session}

/-- A step shows the same in both. -/
theorem Trims.step (h : s.Trims t) (event : Event) :
    (s.step event).1 = (t.step event).1 ∧ (s.step event).2.Trims (t.step event).2 := by
  cases event with
  | start call =>
      obtain ⟨hfetch, hstore⟩ := h.store.start call
      refine ⟨?_, hstore, ?_⟩
      · rw [step_start, step_start, hfetch]
      · rw [step_start, step_start, hfetch, h.waiting]
  | reply number reply =>
      by_cases hmem : number ∈ s.waiting
      · rw [step_reply_of_mem hmem, step_reply_of_mem (h.waiting ▸ hmem), h.store.latest, h.waiting]
        exact ⟨rfl, h.store.complete number reply, rfl⟩
      · rw [step_reply_of_not_mem hmem, step_reply_of_not_mem (h.waiting ▸ hmem)]
        exact ⟨rfl, h⟩
  | drop number => exact ⟨rfl, h.store, by rw [step_drop, step_drop, h.waiting]⟩

theorem Trims.run (h : s.Trims t) (events : List Event) :
    (s.run events).1 = (t.run events).1 ∧ (s.after events).Trims (t.after events) := by
  induction events generalizing s t with
  | nil => exact ⟨rfl, h⟩
  | cons event events ih =>
      obtain ⟨houtcome, hnext⟩ := h.step event
      obtain ⟨houtcomes, hlast⟩ := ih hnext
      refine ⟨?_, hlast⟩
      simp only [Session.run, houtcome, houtcomes]

end Session

/-! ### Everything that is kept -/

/-- Whether a step leaves none of the events held: it starts from the beginning, or it shows a
failure. -/
def Step.empties (step : Step) : Bool :=
  step.restarts || step.winner?.any fun reply => reply.toOption.isNone

/-- A reply that wins leaves the events held if it is a page. -/
theorem Step.empties_of_winner? {step : Step} {reply : Reply} (h : step.winner? = some reply) :
    step.empties = reply.toOption.isNone := by
  rw [empties, restarts_of_no_call (call?_of_winner? h), h]
  rfl

/-- The events that a step brings. -/
def Step.brings (step : Step) : List LogEvent := (step.page?.map EventsPage.events).getD []

/-- The events of all pages taken since the store was last emptied. -/
def kept (events : List Event) : List LogEvent := (since Step.empties events).flatMap Step.brings

theorem kept_concat_of_empties {events : List Event} {event : Event}
    (h : Step.empties ⟨events, event⟩ = true) : kept (events ++ [event]) = [] := by
  rw [kept, since_concat_of_kind h]
  rfl

theorem kept_concat_of_not_empties {events : List Event} {event : Event}
    (h : Step.empties ⟨events, event⟩ = false) :
    kept (events ++ [event]) = kept events ++ Step.brings ⟨events, event⟩ := by
  rw [kept, since_concat_of_not_kind h]
  simp [kept]

namespace Session

variable {capacity : Nat} {events : List Event}

/-- Each step does to the events held what it does to everything kept, up to the capacity. -/
theorem held_step
    (h : ((new capacity).after events).store.held = Store.lastOf capacity (kept events))
    (event : Event) :
    (((new capacity).after events).step event).2.store.held =
      Store.lastOf capacity (kept (events ++ [event])) := by
  have hcapacity : ((new capacity).after events).store.capacity = capacity :=
    capacity_after (new capacity) events
  rcases run_cases capacity events event with
    ⟨call, rfl⟩ | ⟨reply, rfl, hmem, hwinner⟩ | ⟨hquiet, hcall, hwinner⟩
  · cases hstart : call.fromStart with
    | true =>
        rw [kept_concat_of_empties (by simp [Step.empties, hstart]), Store.lastOf_nil]
        simp [Call.start, hstart]
    | false =>
        rw [kept_concat_of_not_empties (by simp [Step.empties, hstart])]
        simp [Call.start, hstart, Step.brings, h]
  · have hpage := Step.page?_of_winner? hwinner
    rw [step_reply_latest hmem]
    cases reply with
    | ok page =>
        -- Cutting the events held before the page comes to the same as cutting afterwards only.
        rw [kept_concat_of_not_empties (Step.empties_of_winner? hwinner), Step.brings, hpage,
          Store.complete_latest_ok, Store.held_add, h, hcapacity, Store.lastOf_lastOf_append]
        rfl
    | error failure =>
        rw [kept_concat_of_empties (Step.empties_of_winner? hwinner), Store.lastOf_nil,
          Store.complete_latest_error]
        rfl
  · have hbrings : Step.brings ⟨events, event⟩ = [] := by
      rw [Step.brings, Step.page?_of_no_winner hwinner]
      rfl
    have hempties : Step.empties ⟨events, event⟩ = false := by
      rw [Step.empties, Step.restarts_of_no_call hcall, hwinner]
      rfl
    rw [kept_concat_of_not_empties hempties, hbrings, List.append_nil, hquiet.store, h]

/-- What a store holds is what its capacity leaves of everything kept. -/
theorem held_after (capacity : Nat) (events : List Event) :
    ((new capacity).after events).store.held = Store.lastOf capacity (kept events) := by
  induction events using List.reverseRecOn with
  | nil => exact (Store.lastOf_nil capacity).symm
  | append_singleton events event ih =>
      rw [after_concat]
      exact held_step ih event

/-- **A store of less capacity is a view of one of more.** In every run the two show the same at
every step: what is asked, what callers are told and who is notified. After it they have the same
cursor, logs watched, stage and message of a failure, and the smaller shows the last of the events
that the larger shows, if that shows any. What either holds is what its capacity leaves of the events
of all pages taken since it was last emptied. -/
theorem bounded_view (small large : Nat) (h : small ≤ large) (events : List Event) :
    let s := (new small).after events
    let t := (new large).after events
    ((new small).run events).1 = ((new large).run events).1 ∧
    s.store.cursor = t.store.cursor ∧
    s.store.watched = t.store.watched ∧
    s.store.events.stage = t.store.events.stage ∧
    s.store.events.errorMessage? = t.store.events.errorMessage? ∧
    s.store.events.data? = t.store.events.data?.map (Store.lastOf small) ∧
    s.store.held = Store.lastOf small (kept events) ∧
    t.store.held = Store.lastOf large (kept events) := by
  intro s t
  have hnew : (new small).Trims (new large) := ⟨Store.trims_empty h, rfl⟩
  obtain ⟨houtcomes, htrims⟩ := hnew.run events
  have hcapacity : s.store.capacity = small := capacity_after (new small) events
  have hevents : s.store.events = t.store.events.map (Store.lastOf small) := by
    rw [← hcapacity]
    exact htrims.store.events
  refine ⟨houtcomes, htrims.store.cursor, htrims.store.watched, ?_, ?_, ?_,
    held_after small events, held_after large events⟩
  · rw [hevents, Remote.stage_map]
  · rw [hevents, Remote.errorMessage?_map]
  · rw [hevents, Remote.data?_map]

/-- Two pages of which the second is larger than the smaller store, after a fetch that was
superseded. -/
def largePage : List Event :=
  [.start (.visibility "web" true), .start (.refresh false),
    .reply 1 (.error (.requestFailed "timed out")),
    .reply 2 (.ok ⟨[⟨"a", "web", "1", ""⟩], "x"⟩), .start (.refresh false),
    .reply 3 (.ok ⟨[⟨"b", "web", "2", ""⟩, ⟨"c", "web", "3", ""⟩, ⟨"d", "web", "4", ""⟩], "y"⟩)]

theorem bounded_view_of_largePage :
    2 ≤ 3 ∧ ((new 2).after largePage).store.events.data? =
        ((new 3).after largePage).store.events.data?.map (Store.lastOf 2) ∧
      ((new 2).after largePage).store.held = [⟨"c", "web", "3", ""⟩, ⟨"d", "web", "4", ""⟩] := by
  obtain ⟨-, -, -, -, -, hdata, hheld, -⟩ := bounded_view 2 3 (by decide) largePage
  exact ⟨by decide, hdata, hheld⟩

end Session

end Logs

end WorkspaceControl
