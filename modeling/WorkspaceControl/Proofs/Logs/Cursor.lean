import WorkspaceControl.Proofs.Logs.Steps

/-!
# Where fetches go on

Whatever the service answers, the cursor of a store is one that the history of the run determines:
**the cursor of the page taken last, or none if a call from the beginning was started since**
(`resume`). Every fetch asks for the logs watched when it is issued and goes on from there. Replies
that fail or come too late and calls that are dropped move nothing.

The law is an invariant of single steps: a call from the beginning drops the cursor, a page that is
taken sets it, and the steps behind the last page (`since`) tell which of the two was later.
-/

namespace WorkspaceControl.Logs

/-- Whether a step takes a page. -/
def Step.takesPage (step : Step) : Bool := step.page?.isSome

/-- The page that a run took last. -/
def lastPage? (events : List Event) : Option EventsPage :=
  ((steps events).filterMap Step.page?).getLast?

/-- Where the next fetch goes on after a run: at the beginning if no page was taken or if a call
from the beginning was started since, and else behind the page taken last. -/
def resume (events : List Event) : Option String :=
  if (since Step.takesPage events).any Step.restarts then none
  else (lastPage? events).map EventsPage.cursor

/-! ### Runs that grow at their end -/

theorem resume_concat_of_page {events : List Event} {event : Event} {page : EventsPage}
    (h : Step.page? ⟨events, event⟩ = some page) :
    resume (events ++ [event]) = some page.cursor := by
  have htakes : Step.takesPage ⟨events, event⟩ = true := by simp [Step.takesPage, h]
  simp [resume, since_concat_of_kind htakes, lastPage?, h]

theorem resume_concat_of_no_page {events : List Event} {event : Event}
    (h : Step.page? ⟨events, event⟩ = none) :
    resume (events ++ [event]) =
      if Step.restarts ⟨events, event⟩ then none else resume events := by
  have htakes : Step.takesPage ⟨events, event⟩ = false := by simp [Step.takesPage, h]
  have hlast : lastPage? (events ++ [event]) = lastPage? events := by simp [lastPage?, h]
  simp only [resume, since_concat_of_not_kind htakes, hlast, List.any_append, List.any_cons,
    List.any_nil, Bool.or_false]
  cases Step.restarts ⟨events, event⟩ <;> simp

/-! ### The cursor of a store -/

namespace Session

variable {capacity : Nat} {events : List Event}

/-- Each step moves the cursor as it moves what the history says. -/
theorem cursor_step (h : ((new capacity).after events).store.cursor = resume events)
    (event : Event) :
    (((new capacity).after events).step event).2.store.cursor = resume (events ++ [event]) := by
  rcases run_cases capacity events event with
    ⟨call, rfl⟩ | ⟨reply, rfl, hmem, hwinner⟩ | ⟨hquiet, hcall, hwinner⟩
  · rw [resume_concat_of_no_page rfl, Step.restarts_start, ← h]
    simp [Call.start]
  · have hpage := Step.page?_of_winner? hwinner
    rw [step_reply_latest hmem]
    cases reply with
    | ok page =>
        rw [resume_concat_of_page hpage, Store.complete_latest_ok]
        rfl
    | error failure =>
        rw [resume_concat_of_no_page hpage, Store.complete_latest_error]
        exact h
  · have hrestarts := Step.restarts_of_no_call hcall
    rw [resume_concat_of_no_page (Step.page?_of_no_winner hwinner), hrestarts, hquiet.store]
    exact h

theorem cursor_after (capacity : Nat) (events : List Event) :
    ((new capacity).after events).store.cursor = resume events := by
  induction events using List.reverseRecOn with
  | nil => rfl
  | append_singleton events event ih =>
      rw [after_concat]
      exact cursor_step ih event

/-- Only a call that is started asks for anything. -/
theorem fetch_eq_none {s : Session} {event : Event} (h : ∀ call, event ≠ .start call) :
    (s.step event).1.fetch = none := by
  rcases s.step_cases event with ⟨call, rfl⟩ | ⟨reply, rfl, hmem⟩ | hquiet
  · exact absurd rfl (h call)
  · rw [step_reply_latest hmem]
  · exact hquiet.fetch

/-- **Every request threads the cursor**, whatever the service answers. In every state of every run
the cursor is that of the page taken last, or none if no page was taken or a call from the beginning
was started since; only pages that are taken and calls from the beginning move it. A call that is
started asks for what follows that cursor, once the call itself is counted, of the logs watched once
the call has changed them; no other step asks for anything. -/
theorem requests_thread_cursor (capacity : Nat) (events : List Event) :
    let s := (new capacity).after events
    s.store.cursor = resume events ∧
    (∀ call : Call, ∃ fetch, (s.step (.start call)).1.fetch = some fetch ∧
      fetch.request = ⟨(s.step (.start call)).2.store.watched,
        some ⟨.afterCursor, if call.fromStart then none else resume events, none, none⟩⟩) ∧
    ∀ event,
      ((s.step event).1.fetch ≠ none → ∃ call, event = .start call) ∧
      (s.step event).2.store.cursor = resume (events ++ [event]) ∧
      (Step.page? ⟨events, event⟩ = none → Step.restarts ⟨events, event⟩ = false →
        (s.step event).2.store.cursor = s.store.cursor) := by
  have hcursor := cursor_after capacity events
  refine ⟨hcursor, fun call => ⟨_, rfl, ?_⟩, fun event =>
    ⟨fun hfetch => ?_, cursor_step hcursor event, fun hpage hrestarts => ?_⟩⟩
  · simp [Call.start, Fetch.request, Pagination.after, hcursor]
  · by_contra hstart
    exact hfetch (fetch_eq_none fun call hcall => hstart ⟨call, hcall⟩)
  · rw [cursor_step hcursor event, resume_concat_of_no_page hpage, hrestarts, hcursor]
    rfl

/-- A restart that failed is made up for by the next fetch. -/
example : resume [.start (.refresh false), .reply 1 (.ok ⟨[], "x"⟩), .start (.refresh true),
    .reply 2 (.error (.requestFailed "timed out"))] = none := rfl

end Session

end WorkspaceControl.Logs
