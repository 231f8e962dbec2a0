import WorkspaceControl.Proofs.Logs.History

/-!
# What the stage of a store says

A store overwrites its stage when a fetch ends without looking at it. That it never shows a result
nobody asked for, and never forgets one, is a fact about whole runs: **the stage tells how the fetch
issued last stands**. The invariant behind it, `Settled`, says which fetches cannot have been
answered yet: those under way and those still to come.
-/

namespace WorkspaceControl

/-- The stages that one step may lead to. -/
def Stage.next : Stage → List Stage
  | idle => [pending]
  | pending => [pending, success, error]
  | error => [pending]
  | success => [refetching]
  | refetching => [refetching, success, error]

namespace Logs

/-- How the fetch issued last stands. -/
inductive Standing where
  /-- No fetch has been issued. -/
  | unasked
  /-- The fetch is under way, or its call was dropped. -/
  | unanswered
  /-- The fetch has ended, and this is what its caller was told. -/
  | answered (result : Except Rpc.Failure Unit)

namespace Standing

/-- How a fetch stands, given its number and what the callers were told. -/
def of (asked : Option Nat) (told : List (Nat × Except Rpc.Failure Unit)) : Standing :=
  match asked with
  | none => unasked
  | some number =>
    match told.lookup number with
    | none => unanswered
    | some result => answered result

/-- What a store shows when the fetch issued last stands like this. -/
def Shown : Standing → Remote (List LogEvent) → Prop
  | unasked, events => events = .idle
  | unanswered, events => events.stage = .pending ∨ events.stage = .refetching
  | answered (.ok ()), events => events.stage = .success
  | answered (.error failure), events => events = .error failure.message

/-! What is shown tells the standings apart. -/

theorem Shown.idle_iff {standing : Standing} {events : Remote (List LogEvent)}
    (h : standing.Shown events) : events = .idle ↔ standing = .unasked := by
  rcases standing with _ | _ | ⟨_ | ⟨⟨⟩⟩⟩ <;> cases events <;>
    simp_all [Shown, Remote.stage]

theorem Shown.unresolved_iff {standing : Standing} {events : Remote (List LogEvent)}
    (h : standing.Shown events) :
    events.stage = .pending ∨ events.stage = .refetching ↔ standing = .unanswered := by
  rcases standing with _ | _ | ⟨_ | ⟨⟨⟩⟩⟩ <;> cases events <;>
    simp_all [Shown, Remote.stage]

theorem Shown.success_iff {standing : Standing} {events : Remote (List LogEvent)}
    (h : standing.Shown events) :
    events.stage = .success ↔ standing = .answered (.ok ()) := by
  rcases standing with _ | _ | ⟨_ | ⟨⟨⟩⟩⟩ <;> cases events <;>
    simp_all [Shown, Remote.stage]

theorem Shown.error_iff {standing : Standing} {events : Remote (List LogEvent)}
    (h : standing.Shown events) (message : String) :
    events = .error message ↔ ∃ failure : Rpc.Failure,
      standing = .answered (.error failure) ∧ message = failure.message := by
  rcases standing with _ | _ | ⟨failure | ⟨⟨⟩⟩⟩ <;> cases events <;>
    simp_all [Shown, Remote.stage, eq_comm]

end Standing

/-! ### Stages of a store -/

theorem Store.stage_underWay (fromStart : Bool) (events : Remote (List LogEvent)) :
    (underWay fromStart events).stage = .pending ∨
      (underWay fromStart events).stage = .refetching := by
  cases events with
  | idle => exact Or.inl rfl
  | pending => exact Or.inl rfl
  | error message => exact Or.inl rfl
  | success data => exact Or.inr rfl
  | refetching data => exact Or.inr rfl

theorem Store.stage_underWay_mem_next (fromStart : Bool) (events : Remote (List LogEvent)) :
    (underWay fromStart events).stage ∈ events.stage.next := by
  cases events <;> simp [underWay, Remote.stage, Stage.next]

namespace Session

/-- How the fetch issued last stands after a run. -/
def standing (s : Session) (events : List Event) : Standing :=
  .of ((s.fetches events).getLast?.map Fetch.number) (s.told events)

/-! ### Who cannot have been answered -/

/-- No caller is told anything before its fetch is issued or while it is under way. -/
structure Settled (s : Session) (told : List (Nat × Except Rpc.Failure Unit)) : Prop where
  waiting : ∀ number ∈ s.waiting, told.lookup number = none
  later : ∀ number, s.store.latest < number → told.lookup number = none

/-- A fetch that ends is told so, and no other. -/
theorem lookup_concat_of_ne {told : List (Nat × Except Rpc.Failure Unit)} {number other : Nat}
    (h : other ≠ number) (result : Except Rpc.Failure Unit) :
    (told ++ [(number, result)]).lookup other = told.lookup other := by
  have hne : (other == number) = false := by simpa using h
  rw [List.lookup_append, List.lookup_cons, hne]
  simp

theorem lookup_concat_self {told : List (Nat × Except Rpc.Failure Unit)} {number : Nat}
    (h : told.lookup number = none) (result : Except Rpc.Failure Unit) :
    (told ++ [(number, result)]).lookup number = some result := by
  rw [List.lookup_append, h]
  simp

theorem Settled.reply {s : Session} {issued : List Fetch}
    {told : List (Nat × Except Rpc.Failure Unit)} (h : s.Settled told)
    (hcoherent : s.Coherent issued) {number : Nat} (hmem : number ∈ s.waiting) (reply : Reply)
    (result : Except Rpc.Failure Unit) :
    Settled ⟨s.store.complete number reply, s.waiting.erase number⟩
      (told ++ [(number, result)]) where
  waiting other hother := by
    obtain ⟨hne, hwaits⟩ := hcoherent.nodup.mem_erase_iff.mp hother
    rw [lookup_concat_of_ne hne]
    exact h.waiting other hwaits
  later other hlater := by
    rw [Store.latest_complete] at hlater
    have hle := hcoherent.le_latest number hmem
    rw [lookup_concat_of_ne (by omega)]
    exact h.later other hlater

theorem Settled.step {s : Session} {issued : List Fetch}
    {told : List (Nat × Except Rpc.Failure Unit)} (h : s.Settled told)
    (hcoherent : s.Coherent issued) (event : Event) :
    (s.step event).2.Settled (told ++ (answer? (event, (s.step event).1)).toList) := by
  cases event with
  | start call =>
      simp only [answer?, Option.toList_none, List.append_nil]
      have hlater : ∀ number, s.store.latest < number → told.lookup number = none := h.later
      constructor
      · intro number hmem
        simp only [step_start, Call.start, Store.number_issue, Call.latest_prepare,
          List.mem_cons] at hmem
        rcases hmem with rfl | hmem
        · exact hlater _ (Nat.lt_succ_self _)
        · exact h.waiting number hmem
      · intro number hlt
        simp only [step_start, Call.start, Store.latest_issue, Call.latest_prepare] at hlt
        exact hlater number (by omega)
  | reply number reply =>
      by_cases hmem : number ∈ s.waiting
      · rw [step_reply_of_mem hmem]
        exact h.reply hcoherent hmem reply _
      · rw [step_reply_of_not_mem hmem]
        simpa [answer?] using h
  | drop number =>
      simp only [answer?, Option.toList_none, List.append_nil]
      exact ⟨fun other hmem => h.waiting other (List.mem_of_mem_erase hmem), h.later⟩

theorem settled_after (capacity : Nat) (events : List Event) :
    ((new capacity).after events).Settled ((new capacity).told events) := by
  induction events using List.reverseRecOn with
  | nil => exact ⟨fun _ _ => rfl, fun _ _ => rfl⟩
  | append_singleton events event ih =>
      rw [after_concat, told_concat]
      exact ih.step (coherent_after capacity events) event

/-! ### The stage of every reachable store -/

/-- The number of the fetch issued last is the store's. -/
theorem Coherent.number_of_getLast {s : Session} {issued : List Fetch} (h : s.Coherent issued)
    {number : Nat} (hlast : issued.getLast?.map Fetch.number = some number) :
    number = s.store.latest := by
  rw [← List.getLast?_map, h.numbers, List.getLast?_range'] at hlast
  split at hlast
  · cases hlast
  · have hnumber := Option.some.inj hlast
    omega

/-- While the fetch issued last is under way it stands unanswered. -/
theorem standing_of_mem {capacity : Nat} {events : List Event}
    (hmem : ((new capacity).after events).store.latest ∈ ((new capacity).after events).waiting) :
    (new capacity).standing events = .unanswered := by
  obtain ⟨fetch, hlast, hnumber, -, -⟩ := (coherent_after capacity events).asked hmem
  have hnone := (settled_after capacity events).waiting _ hmem
  rw [standing, hlast, Option.map_some, hnumber]
  simp only [Standing.of, hnone]

/-- The answer to an earlier fetch leaves open how the one issued last stands. -/
theorem standing_concat_of_ne {capacity : Nat} {events : List Event} {number : Nat}
    (hmem : number ∈ ((new capacity).after events).waiting)
    (hne : number ≠ ((new capacity).after events).store.latest) (reply : Reply) :
    (new capacity).standing (events ++ [.reply number reply]) =
      (new capacity).standing events := by
  have hcoherent := coherent_after capacity events
  simp only [standing, fetches_concat, told_concat, step_reply_of_mem hmem, answer?,
    Option.map_some, Option.toList_none, Option.toList_some, List.append_nil]
  cases hlast : ((new capacity).fetches events).getLast?.map Fetch.number with
  | none => rfl
  | some last =>
      have hlatest := hcoherent.number_of_getLast hlast
      have hother : last ≠ number := fun heq => hne (heq ▸ hlatest)
      simp only [Standing.of, lookup_concat_of_ne hother]

/-- A step that tells nobody anything and issues no fetch changes no standing. -/
theorem standing_concat_of_silent {s : Session} {events : List Event} {event : Event}
    (hfetch : ((s.after events).step event).1.fetch = none)
    (hanswer : answer? (event, ((s.after events).step event).1) = none) :
    s.standing (events ++ [event]) = s.standing events := by
  simp [standing, hfetch, hanswer]

/-- What a store shows once a fetch has been answered. -/
theorem shown_complete (s : Store) (reply : Reply) :
    (Standing.answered (reply.map fun _ => ())).Shown
      (s.complete s.latest reply).events := by
  cases reply with
  | ok page => rw [Store.complete_latest_ok]; rfl
  | error failure => rw [Store.complete_latest_error]; rfl

/-- The stage shows how the fetch issued last stands. -/
theorem shown_after (capacity : Nat) (events : List Event) :
    ((new capacity).standing events).Shown ((new capacity).after events).store.events := by
  induction events using List.reverseRecOn with
  | nil => rfl
  | append_singleton events event ih =>
      cases event with
      | start call =>
          have hlater := (settled_after capacity events).later _ (Nat.lt_succ_self _)
          have hstanding : (new capacity).standing (events ++ [.start call]) = .unanswered := by
            simp [standing, answer?, Call.start, Standing.of, hlater]
          rw [hstanding, after_concat]
          exact Store.stage_underWay _ _
      | reply number reply =>
          by_cases hmem : number ∈ ((new capacity).after events).waiting
          · by_cases hlatest : number = ((new capacity).after events).store.latest
            · subst hlatest
              obtain ⟨fetch, hlast, hnumber, -, -⟩ := (coherent_after capacity events).asked hmem
              have hnone := (settled_after capacity events).waiting _ hmem
              have hstanding : (new capacity).standing
                  (events ++ [.reply ((new capacity).after events).store.latest reply]) =
                    .answered (reply.map fun _ => ()) := by
                simp only [standing, fetches_concat, told_concat, step_reply_of_mem hmem,
                  Option.toList_none, List.append_nil, hlast, Option.map_some, hnumber, answer?,
                  Option.toList_some, Standing.of, lookup_concat_self hnone]
              rw [hstanding, after_concat, step_reply_of_mem hmem]
              exact shown_complete _ reply
            · rw [standing_concat_of_ne hmem hlatest, after_concat, step_reply_of_mem hmem]
              rw [Store.complete_of_ne hlatest]
              exact ih
          · have hstep := step_reply_of_not_mem hmem reply
            rw [standing_concat_of_silent (by rw [hstep]) (by rw [hstep]; rfl), after_concat,
              hstep]
            exact ih
      | drop number =>
          rw [standing_concat_of_silent rfl rfl, after_concat]
          exact ih

/-- One step leaves the events shown as they are or takes them one stage on. -/
theorem step_next (capacity : Nat) (events : List Event) (event : Event) :
    (((new capacity).after events).step event).2.store.events =
        ((new capacity).after events).store.events ∨
      (((new capacity).after events).step event).2.store.events.stage ∈
        ((new capacity).after events).store.events.stage.next := by
  rcases ((new capacity).after events).step_cases event with
    ⟨call, rfl⟩ | ⟨reply, rfl, hmem⟩ | hquiet
  · right
    simp only [step_start, Call.start, Store.issue, Call.events_prepare]
    exact Store.stage_underWay_mem_next _ _
  · right
    -- Only a fetch under way is answered, so there is no result yet that could be overwritten.
    have hshown := shown_after capacity events
    rw [standing_of_mem hmem] at hshown
    rw [step_reply_latest hmem]
    have hresult := shown_complete ((new capacity).after events).store reply
    cases reply with
    | ok page =>
        have hstage : (((new capacity).after events).store.complete
            ((new capacity).after events).store.latest (.ok page)).events.stage = .success :=
          hresult
        rw [hstage]
        rcases hshown with hshown | hshown <;> rw [hshown] <;> simp [Stage.next]
    | error failure =>
        have hstage : (((new capacity).after events).store.complete
            ((new capacity).after events).store.latest (.error failure)).events =
              .error failure.message := hresult
        rw [hstage]
        rcases hshown with hshown | hshown <;> rw [hshown] <;> simp [Stage.next, Remote.stage]
  · left
    rw [hquiet.store]

theorem standing_eq_unasked_iff {s : Session} {events : List Event} :
    s.standing events = .unasked ↔ s.fetches events = [] := by
  unfold standing
  cases hlast : (s.fetches events).getLast? with
  | none => simpa [Standing.of] using hlast
  | some fetch =>
      have hne : s.fetches events ≠ [] := by
        intro hnil
        simp [hnil] at hlast
      simp only [Standing.of, Option.map_some, hne, iff_false]
      split <;> simp

/-- If every fetch has been answered, the one issued last has. -/
theorem standing_ne_unanswered {s : Session} {events : List Event}
    (h : ∀ fetch ∈ s.fetches events, ((s.told events).lookup fetch.number).isSome) :
    s.standing events ≠ .unanswered := by
  unfold standing
  cases hlast : (s.fetches events).getLast? with
  | none => simp [Standing.of]
  | some fetch =>
      obtain ⟨result, hresult⟩ := Option.isSome_iff_exists.mp (h fetch (List.mem_of_getLast? hlast))
      simp [Standing.of, hresult]

/-- **The stage of a store tells how the fetch issued last stands**, in every state of every run: no
fetch was issued, the last one is still to be answered, it brought a page, or it failed with the
message shown. So a step moves the stage only along `Stage.next`, and no store is left waiting once
all its fetches have been answered. -/
theorem stage_tells_standing (capacity : Nat) (events : List Event) :
    let s := (new capacity).after events
    let shown := s.store.events
    (shown = .idle ↔ (new capacity).fetches events = []) ∧
    (shown.stage = .pending ∨ shown.stage = .refetching ↔
      (new capacity).standing events = .unanswered) ∧
    (shown.stage = .success ↔ (new capacity).standing events = .answered (.ok ())) ∧
    (∀ message, shown = .error message ↔ ∃ failure : Rpc.Failure,
      (new capacity).standing events = .answered (.error failure) ∧ message = failure.message) ∧
    (∀ event, (s.step event).2.store.events = shown ∨
      (s.step event).2.store.events.stage ∈ shown.stage.next) ∧
    ((∀ fetch ∈ (new capacity).fetches events,
        (((new capacity).told events).lookup fetch.number).isSome) →
      shown.stage ≠ .pending ∧ shown.stage ≠ .refetching) := by
  have hshown := shown_after capacity events
  refine ⟨?_, hshown.unresolved_iff, hshown.success_iff, hshown.error_iff,
    step_next capacity events, fun hanswered => ?_⟩
  · rw [hshown.idle_iff, standing_eq_unasked_iff]
  · have hopen := mt hshown.unresolved_iff.mp (standing_ne_unanswered hanswered)
    exact not_or.mp hopen

end Session

end Logs

end WorkspaceControl
