import WorkspaceControl.Proofs.Logs.Steps

/-!
# Superseded replies are invisible

A step counts if it starts a call or brings the reply of the fetch issued last. What the other steps
bring, when they come and whether they come at all cannot be told from outside: **two runs whose
steps that count are the same show the same at each of them**. The other steps are replies that come
too late and calls that are dropped.

The proof compares a run with the run of only what counts in it (`mirrored`). The two keep the same
store, and the fetch issued last is under way in the second whenever it is in the first (`Follows`),
so that every reply that wins in the one wins in the other.
-/

namespace WorkspaceControl.Logs

/-- Whether a step starts a call or brings the reply that wins. -/
def Step.counts (step : Step) : Bool := step.call?.isSome || step.winner?.isSome

theorem Step.counts_of_winner? {step : Step} {reply : Reply} (h : step.winner? = some reply) :
    step.counts = true := by
  simp [counts, h]

/-- The events of a run that count. -/
def counting (events : List Event) : List Event :=
  ((steps events).filter Step.counts).map Step.event

/-- What a step shows, and what others see of the store after it. -/
structure View where
  outcome : Outcome
  snapshot : Snapshot
  cursor : Option String

/-- What is seen at a step of a session. -/
def Session.view (s : Session) (event : Event) : View :=
  ⟨(s.step event).1, (s.step event).2.store.snapshot, (s.step event).2.store.cursor⟩

/-- The session that a step is taken in. -/
def Step.session (capacity : Nat) (step : Step) : Session :=
  (Session.new capacity).after step.before

/-- What is seen at the steps of a run that count. -/
def seen (capacity : Nat) (events : List Event) : List View :=
  ((steps events).filter Step.counts).map fun step => (step.session capacity).view step.event

/-! ### Runs that grow at their end -/

theorem counting_concat_of_counts {events : List Event} {event : Event}
    (h : Step.counts ⟨events, event⟩ = true) :
    counting (events ++ [event]) = counting events ++ [event] := by
  simp [counting, h]

theorem counting_concat_of_not_counts {events : List Event} {event : Event}
    (h : Step.counts ⟨events, event⟩ = false) :
    counting (events ++ [event]) = counting events := by
  simp [counting, h]

theorem seen_concat_of_counts (capacity : Nat) {events : List Event} {event : Event}
    (h : Step.counts ⟨events, event⟩ = true) :
    seen capacity (events ++ [event]) =
      seen capacity events ++ [((Session.new capacity).after events).view event] := by
  simp [seen, h, Step.session]

theorem seen_concat_of_not_counts (capacity : Nat) {events : List Event} {event : Event}
    (h : Step.counts ⟨events, event⟩ = false) :
    seen capacity (events ++ [event]) = seen capacity events := by
  simp [seen, h]

/-! ### A run and what counts in it -/

namespace Session

/-- A session that follows another has the same store, and waits for the fetch issued last if the
other does. Earlier fetches may be under way in one and not in the other. -/
structure Follows (t s : Session) : Prop where
  store : t.store = s.store
  waiting : s.store.latest ∈ s.waiting → s.store.latest ∈ t.waiting

variable {s t : Session}

theorem Follows.start (h : t.Follows s) (call : Call) :
    (t.step (.start call)).2.Follows (s.step (.start call)).2 ∧
      t.view (.start call) = s.view (.start call) := by
  refine ⟨⟨?_, fun _ => ?_⟩, ?_⟩
  · simp [h.store]
  · simp [h.store, Call.start]
  · simp [view, h.store]

/-- The fetch issued last is answered once, so it need not be under way in both sessions again. -/
theorem Follows.win (h : t.Follows s) {issued : List Fetch} (hcoherent : s.Coherent issued)
    (hmem : s.store.latest ∈ s.waiting) (reply : Reply) :
    (t.step (.reply s.store.latest reply)).2.Follows (s.step (.reply s.store.latest reply)).2 ∧
      t.view (.reply s.store.latest reply) = s.view (.reply s.store.latest reply) := by
  have hthere := h.waiting hmem
  refine ⟨⟨?_, fun hagain => ?_⟩, ?_⟩
  · rw [step_reply_of_mem hthere, step_reply_of_mem hmem, h.store]
  · rw [step_reply_latest hmem, Store.latest_complete] at hagain
    exact absurd hagain hcoherent.latest_not_mem_erase
  · simp only [view, step_reply_of_mem hthere, step_reply_of_mem hmem, h.store]

/-- A step that does nothing to the store is not missed. -/
theorem Follows.quiet (h : t.Follows s) {event : Event} (hquiet : s.Quiet event) :
    t.Follows (s.step event).2 where
  store := h.store.trans hquiet.store.symm
  waiting hmem := by
    rw [hquiet.store] at hmem ⊢
    exact h.waiting (hquiet.waiting.subset hmem)

/-! ### Steps that show nothing -/

/-- Whoever is not notified has missed nothing. -/
theorem quiet_of_not_notified {s : Session} {event : Event}
    (h : (s.step event).1.notified = false) : s.Quiet event := by
  rcases s.step_cases event with ⟨call, rfl⟩ | ⟨reply, rfl, hmem⟩ | hquiet
  · cases h
  · rw [step_reply_latest hmem] at h
    cases h
  · exact hquiet

/-- Nobody is notified of a step that does not count. -/
theorem not_notified_of_not_counts {capacity : Nat} {step : Step} (h : step.counts = false) :
    ((step.session capacity).step step.event).1.notified = false := by
  obtain ⟨before, event⟩ := step
  cases event with
  | start call => cases h
  | reply number reply =>
      have hwins : ¬(Outline.of before).Wins number := by
        intro hwins
        rw [Step.counts_of_winner? (Step.winner?_of_wins hwins reply)] at h
        cases h
      rw [wins_iff_mem capacity] at hwins
      by_cases hmem : number ∈ ((new capacity).after before).waiting
      · have hlate : number ≠ ((new capacity).after before).store.latest :=
          fun hlatest => hwins ⟨hmem, hlatest⟩
        simp [Step.session, step_reply_of_mem hmem, hlate]
      · simp [Step.session, step_reply_of_not_mem hmem]
  | drop number => rfl

/-- Whoever waits for a reply is told what it brings, whether it comes too late or not. -/
theorem result_of_waiting (capacity : Nat) {before : List Event} {number : Nat}
    (h : number ∈ (Outline.of before).waiting) (reply : Reply) :
    (((new capacity).after before).step (.reply number reply)).1.result =
      some (reply.map fun _ => ()) := by
  rw [(Outline.simulates_after capacity before).waiting] at h
  rw [step_reply_of_mem h]

end Session

/-! ### A run and what counts in it, from the start -/

/-- The run of what counts in a run follows it, and shows the same where it counts. -/
structure Mirrored (capacity : Nat) (events : List Event) : Prop where
  follows : ((Session.new capacity).after (counting events)).Follows
    ((Session.new capacity).after events)
  seen : seen capacity (counting events) = seen capacity events

variable {capacity : Nat} {events : List Event} {event : Event}

/-- An event that counts in a run counts in the run of what counts as well. -/
theorem Mirrored.concat_of_counts (h : Mirrored capacity events)
    (hcounts : Step.counts ⟨events, event⟩ = true)
    (hthere : Step.counts ⟨counting events, event⟩ = true)
    (hfollows : (((Session.new capacity).after (counting events)).step event).2.Follows
      (((Session.new capacity).after events).step event).2)
    (hview : ((Session.new capacity).after (counting events)).view event =
      ((Session.new capacity).after events).view event) :
    Mirrored capacity (events ++ [event]) where
  follows := by
    rw [counting_concat_of_counts hcounts, Session.after_concat, Session.after_concat]
    exact hfollows
  seen := by
    rw [counting_concat_of_counts hcounts, seen_concat_of_counts capacity hthere,
      seen_concat_of_counts capacity hcounts, h.seen, hview]

theorem Mirrored.concat_of_not_counts (h : Mirrored capacity events)
    (hcounts : Step.counts ⟨events, event⟩ = false)
    (hquiet : ((Session.new capacity).after events).Quiet event) :
    Mirrored capacity (events ++ [event]) where
  follows := by
    rw [counting_concat_of_not_counts hcounts, Session.after_concat]
    exact h.follows.quiet hquiet
  seen := by
    rw [counting_concat_of_not_counts hcounts, seen_concat_of_not_counts capacity hcounts, h.seen]

/-- Every run is mirrored by what counts in it. -/
theorem mirrored (capacity : Nat) (events : List Event) : Mirrored capacity events := by
  induction events using List.reverseRecOn with
  | nil => exact ⟨⟨rfl, id⟩, rfl⟩
  | append_singleton events event ih =>
      rcases Session.run_cases capacity events event with
        ⟨call, rfl⟩ | ⟨reply, rfl, hmem, hwinner⟩ | ⟨hquiet, hcall, hwinner⟩
      · obtain ⟨hfollows, hview⟩ := ih.follows.start call
        exact ih.concat_of_counts rfl rfl hfollows hview
      · have hwins : (Outline.of (counting events)).Wins
            ((Session.new capacity).after events).store.latest :=
          (Session.wins_iff_mem capacity _ _).mpr
            ⟨ih.follows.waiting hmem, by rw [ih.follows.store]⟩
        obtain ⟨hfollows, hview⟩ :=
          ih.follows.win (Session.coherent_after capacity events) hmem reply
        exact ih.concat_of_counts (Step.counts_of_winner? hwinner)
          (Step.counts_of_winner? (Step.winner?_of_wins hwins reply)) hfollows hview
      · exact ih.concat_of_not_counts (by simp [Step.counts, hcall, hwinner]) hquiet

/-- **Superseded replies are invisible.** Two runs whose steps that count are the same show the same
at each of them: what is asked, what callers are told, whether observers are notified, and the
snapshot and the cursor afterwards. A step that does not count notifies nobody, asks for nothing and
leaves snapshot and cursor alone, and the snapshot never changes without a notification; yet whoever
waits for a reply is told what it brings. -/
theorem superseded_replies_invisible (capacity : Nat) {events others : List Event}
    (h : counting events = counting others) :
    seen capacity events = seen capacity others ∧
    ∀ step : Step,
      let s := step.session capacity
      let taken := s.step step.event
      (step.counts = false → taken.1.notified = false ∧ taken.1.fetch = none ∧
        taken.2.store.snapshot = s.store.snapshot ∧ taken.2.store.cursor = s.store.cursor) ∧
      (taken.1.notified = false → taken.2.store.snapshot = s.store.snapshot) ∧
      (∀ number reply, step.event = .reply number reply →
        number ∈ (Outline.of step.before).waiting →
          taken.1.result = some (reply.map fun _ => ())) := by
  constructor
  · calc seen capacity events
        = seen capacity (counting events) := (mirrored capacity events).seen.symm
      _ = seen capacity (counting others) := by rw [h]
      _ = seen capacity others := (mirrored capacity others).seen
  · intro step s taken
    refine ⟨fun hcounts => ?_, fun hsilent => ?_, fun number reply hevent hwaits => ?_⟩
    · have hsilent : taken.1.notified = false := Session.not_notified_of_not_counts hcounts
      have hquiet := Session.quiet_of_not_notified hsilent
      exact ⟨hsilent, hquiet.fetch, congrArg Store.snapshot hquiet.store,
        congrArg Store.cursor hquiet.store⟩
    · exact congrArg Store.snapshot (Session.quiet_of_not_notified hsilent).store
    · simp only [taken, s, hevent]
      exact Session.result_of_waiting capacity hwaits reply

/-- Two fetches, of which the second brings a page before the first fails, and a third that is
dropped. -/
def lateFailure (page : EventsPage) : List Event :=
  [.start (.visibility "web" true), .start (.refresh false), .reply 2 (.ok page),
    .reply 1 (.error (.requestFailed "timed out")), .start (.refresh false), .drop 3]

/-- The same fetches, of which the first brings a page that comes too late to count. -/
def latePage (page late : EventsPage) : List Event :=
  [.start (.visibility "web" true), .start (.refresh false), .reply 1 (.ok late),
    .reply 2 (.ok page), .start (.refresh false)]

/-- The page that comes too late is not seen, nor is the failure, while four steps are. -/
theorem superseded_replies_invisible_of_latePage :
    let page : EventsPage := ⟨[⟨"a", "web", "1", "up"⟩], "x"⟩
    let late : EventsPage := ⟨[⟨"b", "web", "2", "down"⟩], "y"⟩
    counting (lateFailure page) = counting (latePage page late) ∧
      seen 5 (lateFailure page) = seen 5 (latePage page late) ∧
      (seen 5 (lateFailure page)).length = 4 := by
  intro page late
  have hcounting : counting (lateFailure page) = counting (latePage page late) := rfl
  exact ⟨hcounting, (superseded_replies_invisible 5 hcounting).1, rfl⟩

end WorkspaceControl.Logs
