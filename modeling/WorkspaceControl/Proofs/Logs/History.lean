import Mathlib.Data.List.Induction
import WorkspaceControl.Logs.Session

/-!
# Histories of sessions

What has happened in a session is read off its run. This module provides

* `Session.after`, `Session.fetches` and `Session.told`: the session after some events, the fetches
  that were issued, and what the callers were told, each with the lemma that says how it grows with
  one more event;
* `Session.step_cases`: a step starts a call, ends the fetch issued last, or leaves the store as it
  is, which is all that most invariants need to know; and
* `Session.Coherent`: the fetches are numbered in order, and as long as the one issued last is under
  way it asked for what the store wants now.
-/

namespace WorkspaceControl.Logs

/-! ### Starting a call -/

namespace Call

@[simp] theorem capacity_prepare (call : Call) (s : Store) :
    (call.prepare s).capacity = s.capacity := by
  cases call <;> simp [prepare]

@[simp] theorem cursor_prepare (call : Call) (s : Store) :
    (call.prepare s).cursor = s.cursor := by
  cases call <;> simp [prepare]

@[simp] theorem events_prepare (call : Call) (s : Store) :
    (call.prepare s).events = s.events := by
  cases call <;> simp [prepare]

@[simp] theorem held_prepare (call : Call) (s : Store) : (call.prepare s).held = s.held := by
  simp [Store.held]

@[simp] theorem latest_prepare (call : Call) (s : Store) :
    (call.prepare s).latest = s.latest := by
  cases call <;> simp [prepare]

/-- A call that goes on from where the store stands leaves the logs watched as they are. -/
theorem prepare_of_not_fromStart {call : Call} (h : call.fromStart = false) (s : Store) :
    call.prepare s = s := by
  cases call with
  | refresh b => rfl
  | visibility log visible => simp [fromStart] at h

end Call

namespace Session

/-! ### Single steps -/

@[simp] theorem step_start (s : Session) (call : Call) :
    s.step (.start call) =
      (⟨some (call.start s.store).1, none, true⟩,
        ⟨(call.start s.store).2, (call.start s.store).1.number :: s.waiting⟩) := rfl

theorem step_reply_of_mem {s : Session} {number : Nat} (h : number ∈ s.waiting) (reply : Reply) :
    s.step (.reply number reply) =
      (⟨none, some (reply.map fun _ => ()), number = s.store.latest⟩,
        ⟨s.store.complete number reply, s.waiting.erase number⟩) := by
  simp only [step, if_pos h]

theorem step_reply_of_not_mem {s : Session} {number : Nat} (h : number ∉ s.waiting)
    (reply : Reply) : s.step (.reply number reply) = (⟨none, none, false⟩, s) := by
  simp only [step, if_neg h]

@[simp] theorem step_drop (s : Session) (number : Nat) :
    s.step (.drop number) = (⟨none, none, false⟩, ⟨s.store, s.waiting.erase number⟩) := rfl

/-- A step that issues no fetch and leaves the store as it is. -/
structure Quiet (s : Session) (event : Event) : Prop where
  store : (s.step event).2.store = s.store
  fetch : (s.step event).1.fetch = none
  waiting : (s.step event).2.waiting.Sublist s.waiting

/-- Everything a step can do to a store: a call is started, the fetch issued last is answered, or
nothing happens. A reply that comes too late is among the last. -/
theorem step_cases (s : Session) (event : Event) :
    (∃ call, event = .start call) ∨
      (∃ reply, event = .reply s.store.latest reply ∧ s.store.latest ∈ s.waiting) ∨
      s.Quiet event := by
  cases event with
  | start call => exact Or.inl ⟨call, rfl⟩
  | reply number reply =>
      by_cases hmem : number ∈ s.waiting
      · by_cases hlast : number = s.store.latest
        · subst hlast
          exact Or.inr (Or.inl ⟨reply, rfl, hmem⟩)
        · refine Or.inr (Or.inr ⟨?_, ?_, ?_⟩)
          · rw [step_reply_of_mem hmem]
            exact Store.complete_of_ne hlast reply
          · rw [step_reply_of_mem hmem]
          · rw [step_reply_of_mem hmem]
            exact List.erase_sublist
      · have hstep := step_reply_of_not_mem hmem reply
        have hwaiting : (s.step (.reply number reply)).2.waiting = s.waiting := by rw [hstep]
        exact Or.inr (Or.inr ⟨by rw [hstep], by rw [hstep], hwaiting ▸ List.Sublist.refl _⟩)
  | drop number => exact Or.inr (Or.inr ⟨rfl, rfl, List.erase_sublist⟩)

/-- The step that ends the fetch issued last. -/
theorem step_reply_latest {s : Session} (h : s.store.latest ∈ s.waiting) (reply : Reply) :
    s.step (.reply s.store.latest reply) =
      (⟨none, some (reply.map fun _ => ()), true⟩,
        ⟨s.store.complete s.store.latest reply, s.waiting.erase s.store.latest⟩) := by
  rw [step_reply_of_mem h]
  simp

/-! ### Runs that grow at their end -/

/-- The session after some events. -/
def after (s : Session) (events : List Event) : Session := (s.run events).2

/-- The fetches that are issued in a run, in order. -/
def fetches (s : Session) (events : List Event) : List Fetch :=
  (s.run events).1.filterMap Outcome.fetch

/-- The number of the fetch that a step ends, with what its caller is told. -/
def answer? : Event × Outcome → Option (Nat × Except Rpc.Failure Unit)
  | (.reply number _, outcome) => outcome.result.map (number, ·)
  | _ => none

/-- What the callers are told in a run, in order, each with the number of the fetch. -/
def told (s : Session) (events : List Event) : List (Nat × Except Rpc.Failure Unit) :=
  (events.zip (s.run events).1).filterMap answer?

@[simp] theorem after_nil (s : Session) : s.after [] = s := rfl

@[simp] theorem fetches_nil (s : Session) : s.fetches [] = [] := rfl

@[simp] theorem told_nil (s : Session) : s.told [] = [] := rfl

theorem run_append (s : Session) (front back : List Event) :
    s.run (front ++ back) =
      ((s.run front).1 ++ ((s.after front).run back).1, ((s.after front).run back).2) := by
  induction front generalizing s with
  | nil => rfl
  | cons event front ih =>
      have htail := ih (s.step event).2
      simp only [List.cons_append, run, htail, after]

theorem length_run (s : Session) (events : List Event) :
    (s.run events).1.length = events.length := by
  induction events generalizing s with
  | nil => rfl
  | cons event events ih => simp only [run, List.length_cons, ih]

theorem after_append (s : Session) (front back : List Event) :
    s.after (front ++ back) = (s.after front).after back := by
  simp only [after, run_append]

@[simp] theorem after_concat (s : Session) (events : List Event) (event : Event) :
    s.after (events ++ [event]) = ((s.after events).step event).2 := by
  rw [after_append]
  rfl

@[simp] theorem fetches_concat (s : Session) (events : List Event) (event : Event) :
    s.fetches (events ++ [event]) =
      s.fetches events ++ ((s.after events).step event).1.fetch.toList := by
  simp only [fetches, run_append, List.filterMap_append]
  cases hfetch : ((s.after events).step event).1.fetch <;> simp [run, hfetch]

@[simp] theorem told_concat (s : Session) (events : List Event) (event : Event) :
    s.told (events ++ [event]) =
      s.told events ++ (answer? (event, ((s.after events).step event).1)).toList := by
  simp only [told, run_append]
  rw [List.zip_append (length_run s events).symm, List.filterMap_append]
  cases hanswer : answer? (event, ((s.after events).step event).1) <;> simp [run, hanswer]

/-! ### The fetches under way -/

/-- What ties the fetches under way to the store. The last field is what makes a page that arrives
for the fetch issued last fit the store: nobody has changed the logs or the cursor since. -/
structure Coherent (s : Session) (issued : List Fetch) : Prop where
  numbers : issued.map Fetch.number = List.range' 1 s.store.latest
  nodup : s.waiting.Nodup
  le_latest : ∀ number ∈ s.waiting, number ≤ s.store.latest
  asked : s.store.latest ∈ s.waiting → ∃ fetch, issued.getLast? = some fetch ∧
    fetch.number = s.store.latest ∧ fetch.logs = s.store.watched ∧
    fetch.cursor = s.store.cursor

theorem coherent_new (capacity : Nat) : (new capacity).Coherent [] where
  numbers := rfl
  nodup := List.nodup_nil
  le_latest := by simp [new]
  asked := by simp [new]

theorem Coherent.start {s : Session} {issued : List Fetch} (h : s.Coherent issued) (call : Call) :
    (s.step (.start call)).2.Coherent (issued ++ [(call.start s.store).1]) where
  numbers := by
    simp [Call.start, h.numbers, List.range'_concat, Nat.add_comm]
  nodup := by
    refine List.nodup_cons.mpr ⟨fun hmem => ?_, h.nodup⟩
    have hle := h.le_latest _ hmem
    simp only [Call.latest_prepare] at hle
    omega
  le_latest := by
    intro number hmem
    simp only [step_start, List.mem_cons, Call.start, Store.number_issue, Store.latest_issue,
      Call.latest_prepare] at hmem ⊢
    rcases hmem with rfl | hmem
    · exact Nat.le_refl _
    · exact Nat.le_succ_of_le (h.le_latest number hmem)
  asked _ := ⟨(call.start s.store).1, by simp, by simp [Call.start], rfl, rfl⟩

/-- Without a new fetch nothing breaks as long as the store keeps what the fetch asked for. -/
theorem Coherent.of_sublist {s t : Session} {issued : List Fetch} (h : s.Coherent issued)
    (hlatest : t.store.latest = s.store.latest) (hwaiting : t.waiting.Sublist s.waiting)
    (hasked : t.store.latest ∈ t.waiting →
      t.store.watched = s.store.watched ∧ t.store.cursor = s.store.cursor) :
    t.Coherent issued where
  numbers := by rw [hlatest]; exact h.numbers
  nodup := h.nodup.sublist hwaiting
  le_latest number hmem := by
    rw [hlatest]
    exact h.le_latest number (hwaiting.subset hmem)
  asked hmem := by
    obtain ⟨hwatched, hcursor⟩ := hasked hmem
    rw [hlatest, hwatched, hcursor]
    exact h.asked (hwaiting.subset (hlatest ▸ hmem))

/-- Once the fetch issued last has been answered it is no longer under way. -/
theorem Coherent.latest_not_mem_erase {s : Session} {issued : List Fetch}
    (h : s.Coherent issued) : s.store.latest ∉ s.waiting.erase s.store.latest := by
  intro hmem
  exact (h.nodup.mem_erase_iff.mp hmem).1 rfl

theorem Coherent.step {s : Session} {issued : List Fetch} (h : s.Coherent issued)
    (event : Event) :
    (s.step event).2.Coherent (issued ++ (s.step event).1.fetch.toList) := by
  rcases s.step_cases event with ⟨call, rfl⟩ | ⟨reply, rfl, hmem⟩ | hquiet
  · exact h.start call
  · rw [step_reply_latest hmem]
    rw [Option.toList_none, List.append_nil]
    refine h.of_sublist (by simp) List.erase_sublist ?_
    intro hlast
    simp only [Store.latest_complete] at hlast
    exact absurd hlast h.latest_not_mem_erase
  · rw [hquiet.fetch, Option.toList_none, List.append_nil]
    refine h.of_sublist (by rw [hquiet.store]) hquiet.waiting ?_
    intro _
    rw [hquiet.store]
    exact ⟨rfl, rfl⟩

/-- Every session that can be reached is coherent with the fetches of its run. -/
theorem coherent_after (capacity : Nat) (events : List Event) :
    ((new capacity).after events).Coherent ((new capacity).fetches events) := by
  induction events using List.reverseRecOn with
  | nil => exact coherent_new capacity
  | append_singleton events event ih =>
      rw [after_concat, fetches_concat]
      exact ih.step event

/-- No step changes how many events a store holds at most. -/
theorem capacity_after (s : Session) (events : List Event) :
    (s.after events).store.capacity = s.store.capacity := by
  induction events using List.reverseRecOn with
  | nil => rfl
  | append_singleton events event ih =>
      rw [after_concat, ← ih]
      rcases (s.after events).step_cases event with ⟨call, rfl⟩ | ⟨reply, rfl, hmem⟩ | hquiet
      · simp [Call.start]
      · rw [step_reply_latest hmem]
        exact Store.capacity_complete _ _ _
      · rw [hquiet.store]

end Session

end WorkspaceControl.Logs
