import WorkspaceControl.Proofs.Logs.Cursor

/-!
# Which logs are watched

The logs that a store watches are a function of its visibility calls (`watchedBy`): refreshes,
replies of any kind and dropped calls have no part in it, and what a call has changed stays changed
whatever becomes of the fetch that it starts. Two readings of the calls say which logs these are,
without a look at the store:

* `wanted?`: what the most recent call for a log asked for; a log is watched if that is to be
  watched;
* `enteredAt?`: when a log last went from unwatched to watched. **The logs stand in the order of
  these moments**, each once.

All of it is kept by single steps (`Watches.step`). The order is kept because a log that enters does
so later than any other has, and a log that leaves moves none of the others.
-/

namespace WorkspaceControl.Logs

/-- The log that an event is about and whether it is to be watched, if the event is a visibility
call. -/
def Event.visibility? : Event → Option (String × Bool)
  | .start (.visibility log visible) => some (log, visible)
  | _ => none

/-- The visibility calls of a run. -/
def visibilities (events : List Event) : List (String × Bool) := events.filterMap Event.visibility?

/-- What the most recent visibility call for a log asked for, if there was one. -/
def wanted? (events : List Event) (log : String) : Option Bool :=
  (visibilities events).reverse.lookup log

/-- The log that goes from unwatched to watched at a step: it is to be watched, and that is not what
its most recent call asked for. -/
def Step.enters? (step : Step) : Option String :=
  match step.event.visibility? with
  | some (log, true) => if wanted? step.before log = some true then none else some log
  | _ => none

/-- When a log last went from unwatched to watched, counted in events from the beginning. -/
def enteredAt? (events : List Event) (log : String) : Option Nat :=
  ((steps events).reverse.find? fun step => step.enters? = some log).map fun step =>
    step.before.length

/-! ### Runs that grow at their end -/

section

variable {events : List Event} {event : Event} {log : String} {visible : Bool}

theorem visibilities_concat (events : List Event) (event : Event) :
    visibilities (events ++ [event]) = visibilities events ++ event.visibility?.toList := by
  cases h : event.visibility? <;> simp [visibilities, h]

theorem wanted?_concat_of_no_call (h : event.visibility? = none) (other : String) :
    wanted? (events ++ [event]) other = wanted? events other := by
  simp [wanted?, visibilities_concat, h]

theorem wanted?_concat_of_call (h : event.visibility? = some (log, visible)) (other : String) :
    wanted? (events ++ [event]) other =
      if other = log then some visible else wanted? events other := by
  simp [wanted?, visibilities_concat, h, lookup_entry_cons]

theorem Step.enters?_of_no_call (h : event.visibility? = none) :
    Step.enters? ⟨events, event⟩ = none := by
  simp [enters?, h]

/-- A log that is wanted already does not enter again. -/
theorem Step.enters?_of_wanted (h : event.visibility? = some (log, visible))
    (hwanted : visible = true → wanted? events log = some true) :
    Step.enters? ⟨events, event⟩ = none := by
  cases visible <;> simp_all [enters?]

theorem Step.enters?_of_unwanted (h : event.visibility? = some (log, true))
    (hwanted : wanted? events log ≠ some true) : Step.enters? ⟨events, event⟩ = some log := by
  simp [enters?, h, hwanted]

theorem enteredAt?_concat_of_enters (h : Step.enters? ⟨events, event⟩ = some log) :
    enteredAt? (events ++ [event]) log = some events.length := by
  simp [enteredAt?, h]

theorem enteredAt?_concat_of_not_enters (h : Step.enters? ⟨events, event⟩ ≠ some log) :
    enteredAt? (events ++ [event]) log = enteredAt? events log := by
  simp [enteredAt?, h]

/-- Whatever has entered has done so before now. -/
theorem enteredAt?_lt {i : Nat} (h : enteredAt? events log = some i) : i < events.length := by
  induction events using List.reverseRecOn with
  | nil => cases h
  | append_singleton events event ih =>
      rw [List.length_append, List.length_singleton]
      by_cases henters : Step.enters? ⟨events, event⟩ = some log
      · rw [enteredAt?_concat_of_enters henters] at h
        cases h
        exact Nat.lt_succ_self _
      · rw [enteredAt?_concat_of_not_enters henters] at h
        exact Nat.lt_succ_of_lt (ih h)

end

/-! ### What a call does to the logs -/

namespace Store

variable {s : Store} {log : String}

theorem watched_watch_of_mem (h : log ∈ s.watched) : (s.watch log true).watched = s.watched := by
  simp [watch, agrees, h]

/-- A log that was not watched comes last. -/
theorem watched_watch_of_not_mem (h : log ∉ s.watched) :
    (s.watch log true).watched = s.watched ++ [log] := by
  simp [watch, agrees, h]

/-- The others stay where they are when a log is not watched any more. -/
theorem watched_watch_false (s : Store) (log : String) :
    (s.watch log false).watched = s.watched.filter (· ≠ log) := by
  by_cases h : log ∈ s.watched
  · simp [watch, agrees, h]
  · have hkept : s.watched.filter (· ≠ log) = s.watched := by
      refine List.filter_eq_self.mpr fun other hmem => ?_
      exact decide_eq_true fun heq => h (heq ▸ hmem)
    rw [hkept]
    simp [watch, agrees, h]

end Store

namespace Session

theorem watched_step_of_no_call {event : Event} (h : event.visibility? = none) (s : Session) :
    (s.step event).2.store.watched = s.store.watched := by
  cases event with
  | start call =>
      cases call with
      | refresh fromStart => rfl
      | visibility log visible => cases h
  | reply number reply =>
      by_cases hmem : number ∈ s.waiting
      · rw [step_reply_of_mem hmem]
        exact Store.watched_complete _ _ _
      · rw [step_reply_of_not_mem hmem]
  | drop number => rfl

theorem watched_step_of_call {event : Event} {log : String} {visible : Bool}
    (h : event.visibility? = some (log, visible)) (s : Session) :
    (s.step event).2.store.watched = (s.store.watch log visible).watched := by
  cases event with
  | start call =>
      cases call with
      | refresh fromStart => cases h
      | visibility log visible =>
          cases h
          rfl
  | reply number reply => cases h
  | drop number => cases h

/-! ### The logs of a run -/

/-- The logs that are watched after some visibility calls. -/
def watchedBy (calls : List (String × Bool)) : List String :=
  (calls.foldl (fun s (log, visible) => s.watch log visible) (Store.empty 0)).watched

/-- Nothing but the visibility calls of a run decides which logs are watched. -/
theorem watched_after (capacity : Nat) (events : List Event) :
    ((new capacity).after events).store.watched = watchedBy (visibilities events) := by
  induction events using List.reverseRecOn with
  | nil => rfl
  | append_singleton events event ih =>
      rw [after_concat, visibilities_concat]
      cases hcall : event.visibility? with
      | none =>
          rw [watched_step_of_no_call hcall, ih, Option.toList_none, List.append_nil]
      | some call =>
          obtain ⟨log, visible⟩ := call
          rw [watched_step_of_call hcall, Option.toList_some, watchedBy, List.foldl_append]
          exact (Call.visibility log visible).watched_prepare_congr ih

/-- The logs watched are those that are wanted, each once, in the order in which they entered. -/
structure Watches (watched : List String) (events : List Event) : Prop where
  nodup : watched.Nodup
  mem_iff : ∀ log, log ∈ watched ↔ wanted? events log = some true
  entered : ∀ log ∈ watched, ∃ i, enteredAt? events log = some i
  ordered : watched.Pairwise fun earlier later => ∃ i j, enteredAt? events earlier = some i ∧
    enteredAt? events later = some j ∧ i < j

variable {watched : List String} {events : List Event} {event : Event} {log : String}

/-- Nothing is watched before anything has happened. -/
theorem watches_nil : Watches [] [] := ⟨.nil, by simp [wanted?, visibilities], nofun, .nil⟩

/-- A step at which no log enters leaves those that stay in their order. -/
theorem Watches.of_sublist (h : Watches watched events) {kept : List String}
    (hkept : kept.Sublist watched)
    (hmem : ∀ log, log ∈ kept ↔ wanted? (events ++ [event]) log = some true)
    (henters : Step.enters? ⟨events, event⟩ = none) : Watches kept (events ++ [event]) where
  nodup := h.nodup.sublist hkept
  mem_iff := hmem
  entered log hlog := by
    rw [enteredAt?_concat_of_not_enters (by simp [henters])]
    exact h.entered log (hkept.subset hlog)
  ordered := by
    refine (h.ordered.sublist hkept).imp fun {earlier later} hlt => ?_
    rw [enteredAt?_concat_of_not_enters (by simp [henters]),
      enteredAt?_concat_of_not_enters (by simp [henters])]
    exact hlt

/-- A log that enters does so later than all others have. -/
theorem Watches.enter (h : Watches watched events) (hcall : event.visibility? = some (log, true))
    (hnew : log ∉ watched) : Watches (watched ++ [log]) (events ++ [event]) := by
  have henters : Step.enters? ⟨events, event⟩ = some log :=
    Step.enters?_of_unwanted hcall (mt (h.mem_iff log).mpr hnew)
  have hothers : ∀ other ∈ watched,
      enteredAt? (events ++ [event]) other = enteredAt? events other := by
    intro other hother
    refine enteredAt?_concat_of_not_enters fun hsame => hnew ?_
    rw [henters, Option.some.injEq] at hsame
    exact hsame ▸ hother
  constructor
  · refine List.nodup_append.mpr ⟨h.nodup, List.pairwise_singleton _ _, ?_⟩
    rintro other hother _ hlog rfl
    exact hnew (List.mem_singleton.mp hlog ▸ hother)
  · intro other
    rw [wanted?_concat_of_call hcall, List.mem_append, List.mem_singleton, h.mem_iff]
    by_cases hsame : other = log <;> simp [hsame]
  · intro other hother
    rcases List.mem_append.mp hother with hold | hlog
    · rw [hothers other hold]
      exact h.entered other hold
    · rw [List.mem_singleton.mp hlog]
      exact ⟨_, enteredAt?_concat_of_enters henters⟩
  · refine List.pairwise_append.mpr ⟨?_, List.pairwise_singleton _ _, ?_⟩
    · refine h.ordered.imp_of_mem fun {earlier later} hearlier hlater hlt => ?_
      rw [hothers earlier hearlier, hothers later hlater]
      exact hlt
    · intro other hother last hlast
      obtain ⟨i, hi⟩ := h.entered other hother
      rw [List.mem_singleton.mp hlast, hothers other hother]
      exact ⟨i, events.length, hi, enteredAt?_concat_of_enters henters, enteredAt?_lt hi⟩

theorem Watches.step {s : Session} (h : Watches s.store.watched events) (event : Event) :
    Watches (s.step event).2.store.watched (events ++ [event]) := by
  cases hcall : event.visibility? with
  | none =>
      rw [watched_step_of_no_call hcall]
      refine h.of_sublist (.refl _) (fun log => ?_) (Step.enters?_of_no_call hcall)
      rw [wanted?_concat_of_no_call hcall, h.mem_iff]
  | some call =>
      obtain ⟨log, visible⟩ := call
      rw [watched_step_of_call hcall]
      cases visible with
      | false =>
          rw [Store.watched_watch_false]
          refine h.of_sublist List.filter_sublist (fun other => ?_)
            (Step.enters?_of_wanted hcall nofun)
          rw [wanted?_concat_of_call hcall, List.mem_filter, h.mem_iff]
          by_cases hsame : other = log <;> simp [hsame]
      | true =>
          by_cases hmem : log ∈ s.store.watched
          · have hwanted := (h.mem_iff log).mp hmem
            rw [Store.watched_watch_of_mem hmem]
            refine h.of_sublist (.refl _) (fun other => ?_)
              (Step.enters?_of_wanted hcall fun _ => hwanted)
            rw [wanted?_concat_of_call hcall, h.mem_iff]
            by_cases hsame : other = log <;> simp [hsame, hwanted]
          · rw [Store.watched_watch_of_not_mem hmem]
            exact h.enter hcall hmem

theorem watches_after (capacity : Nat) (events : List Event) :
    Watches ((new capacity).after events).store.watched events := by
  induction events using List.reverseRecOn with
  | nil => exact watches_nil
  | append_singleton events event ih =>
      rw [after_concat]
      exact ih.step event

/-- **The logs watched are what the visibility calls say.** In every state of every run each log
watched is watched once; it is watched if its most recent call asked for that; and the logs stand in
the order in which they last went from unwatched to watched. Runs with the same visibility calls
watch the same logs, whatever else happens in them: no other step changes the logs, and none takes a
change back. Every visibility call issues one fetch, from the beginning and of the logs watched from
then on, even if it changes nothing, and what becomes of the call issues none. -/
theorem watched_tells_calls (capacity : Nat) (events : List Event) :
    let s := (new capacity).after events
    s.store.watched.Nodup ∧
    (∀ log, log ∈ s.store.watched ↔ wanted? events log = some true) ∧
    (s.store.watched.Pairwise fun earlier later => ∃ i j, enteredAt? events earlier = some i ∧
      enteredAt? events later = some j ∧ i < j) ∧
    (∀ event, event.visibility? = none → (s.step event).2.store.watched = s.store.watched) ∧
    (∀ size others, visibilities others = visibilities events →
      ((new size).after others).store.watched = s.store.watched) ∧
    (∀ log visible, let event := Event.start (.visibility log visible)
      ∃ fetch,
        (new capacity).fetches (events ++ [event]) = (new capacity).fetches events ++ [fetch] ∧
        fetch.request = ⟨(s.step event).2.store.watched, some (.after none)⟩) ∧
    ∀ event, (∀ call, event ≠ .start call) →
      (new capacity).fetches (events ++ [event]) = (new capacity).fetches events := by
  intro s
  have hwatches := watches_after capacity events
  refine ⟨hwatches.nodup, hwatches.mem_iff, hwatches.ordered,
    fun event h => watched_step_of_no_call h s, fun size others h => ?_,
    fun log visible => ⟨_, fetches_concat _ events _, rfl⟩, fun event hstart => ?_⟩
  · rw [watched_after, h]
    exact (watched_after capacity events).symm
  · rw [fetches_concat, fetch_eq_none hstart, Option.toList_none, List.append_nil]

/-- A log that is hidden and shown again comes last, and one that is shown twice stays. -/
example : ((new 5).after [.start (.visibility "a" true), .start (.visibility "b" true),
    .start (.visibility "c" true), .start (.visibility "b" true), .start (.visibility "a" false),
    .reply 5 (.error (.requestFailed "timed out")), .start (.visibility "a" true),
    .drop 6]).store.watched =
      ["b", "c", "a"] := by decide

end Session

end WorkspaceControl.Logs
