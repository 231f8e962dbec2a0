import WorkspaceControl.Logs.Live
import WorkspaceControl.Proofs.Rpc.Exchange

/-!
# Turns

A store that is used by one call at a time takes turns: the logs watched are changed, or a refresh
runs from its start to its end. The reply of such a refresh is always that of the fetch issued last,
so it always counts.
-/

namespace WorkspaceControl.Logs

open Rpc

/-- What is done to a store that is used by one call at a time. -/
inductive Turn where
  /-- The logs watched are changed, and nothing is fetched. -/
  | watch (log : String) (visible : Bool)
  /-- A refresh is run from its start to its end. -/
  | refresh (fromStart : Bool) (reply : Reply)

namespace Store

/-- Runs a refresh from its start to its end. -/
def refresh (s : Store) (fromStart : Bool) (reply : Reply) : Fetch × Store :=
  let (fetch, issued) := s.issue fromStart
  (fetch, issued.complete fetch.number reply)

/-- Takes turns one after the other; shown are the fetches issued and the store that is left. -/
def inTurn (s : Store) : List Turn → List Fetch × Store
  | [] => ([], s)
  | .watch log visible :: turns => (s.watch log visible).inTurn turns
  | .refresh fromStart reply :: turns =>
    let (fetch, s) := s.refresh fromStart reply
    let (fetches, s) := s.inTurn turns
    (fetch :: fetches, s)

theorem held_of_success {s : Store} {events : List LogEvent} (h : s.events = .success events) :
    s.held = events := by
  rw [held, h]
  rfl

theorem refresh_ok (s : Store) (fromStart : Bool) (page : EventsPage) :
    (s.refresh fromStart (.ok page)).2 = (s.issue fromStart).2.add page :=
  complete_latest_ok (s.issue fromStart).2 page

/-- A page that a refresh brings goes behind what the refresh goes on from. -/
theorem events_refresh_ok (s : Store) (fromStart : Bool) (page : EventsPage) :
    (s.refresh fromStart (.ok page)).2.events =
      .success (lastOf s.capacity ((if fromStart then [] else s.held) ++ page.events)) := by
  rw [refresh_ok]
  simp [add]

theorem refresh_error (s : Store) (fromStart : Bool) (failure : Rpc.Failure) :
    (s.refresh fromStart (.error failure)).2 =
      { (s.issue fromStart).2 with events := .error failure.message } :=
  complete_latest_error (s.issue fromStart).2 failure

/-- A refresh that fails leaves nothing held. -/
theorem held_refresh_error (s : Store) (fromStart : Bool) (failure : Rpc.Failure) :
    (s.refresh fromStart (.error failure)).2.held = [] := by
  rw [refresh_error]
  rfl

@[simp] theorem watched_refresh (s : Store) (fromStart : Bool) (reply : Reply) :
    (s.refresh fromStart reply).2.watched = s.watched := by
  simp [refresh]

@[simp] theorem capacity_refresh (s : Store) (fromStart : Bool) (reply : Reply) :
    (s.refresh fromStart reply).2.capacity = s.capacity := by
  simp [refresh]

theorem inTurn_append (s : Store) (front back : List Turn) :
    s.inTurn (front ++ back) =
      ((s.inTurn front).1 ++ ((s.inTurn front).2.inTurn back).1,
        ((s.inTurn front).2.inTurn back).2) := by
  induction front generalizing s with
  | nil => rfl
  | cons turn front ih =>
      cases turn with
      | watch log visible => exact ih _
      | refresh fromStart reply => simp only [List.cons_append, inTurn, ih]

@[simp] theorem inTurn_refresh (s : Store) (fromStart : Bool) (reply : Reply) :
    s.inTurn [.refresh fromStart reply] =
      ([(s.refresh fromStart reply).1], (s.refresh fromStart reply).2) := rfl

end Store

/-- The turns that a call takes at once. -/
def Call.watching : Call → List Turn
  | refresh _ => []
  | visibility log visible => [.watch log visible]

theorem Store.inTurn_watching (s : Store) (call : Call) :
    s.inTurn call.watching = ([], call.prepare s) := by
  cases call <;> rfl

/-! ### Fetches of a source -/

/-- The call that a fetch of a source is. -/
def Source.call (source : Source) (request : EventsRequest) : Rpc.Call :=
  .workspace source.workspace (.getEvents request)

/-- The page that the next fetch of a source brings, whatever it asks for. -/
def Source.page (source : Source) (network : Network) : Reply :=
  pageOf (source.client.hears network (source.call ⟨[], none⟩))

theorem Source.fetch_run (source : Source) (request : EventsRequest) (network : Network) :
    (source.fetch request).run network =
      (source.page network, network.after source.client [source.call request]) := by
  refine (Client.perform_run source.client (source.call request) network).trans ?_
  exact congrArg (·, _) (Call.hear_getEvents source.workspace request _)

/-- The address that the fetches of a source go to is taken by a transport. -/
def Source.Reaches (source : Source) (transport : Transport) : Prop :=
  ∃ url, transport (source.client.url "/workspace/get-events" [("id", source.workspace)]) = .ok url

instance (source : Source) (transport : Transport) : Decidable (source.Reaches transport) :=
  inferInstanceAs (Decidable (transport.Takes source.client (source.call ⟨[], none⟩)))

/-- A page comes only from an address that is taken. -/
theorem Source.reaches_of_page {source : Source} {network : Network} {page : EventsPage}
    (h : source.page network = .ok page) : source.Reaches network.transport := by
  rw [Source.page, ← Call.hear_getEvents source.workspace ⟨[], none⟩] at h
  exact Client.takes_of_hear h

theorem Source.exists_page_eq_error {source : Source} {network : Network}
    (h : ¬source.Reaches network.transport) :
    ∃ failure, source.page network = .error failure := by
  cases hpage : source.page network with
  | ok page => exact absurd (reaches_of_page hpage) h
  | error failure => exact ⟨failure, rfl⟩

/-- The fetches of a source reach the service over a network, and it answers them from a script. -/
structure Source.AnsweredFrom (source : Source) (script : List Answer) (network : Network) :
    Prop where
  reaches : source.Reaches network.transport
  script : network.script = script

namespace Source.AnsweredFrom

variable {source : Source} {script : List Answer} {network : Network}

/-- A fetch brings the page of the next answer. -/
theorem page_eq (h : source.AnsweredFrom script network) :
    source.page network = (nextAnswer script).page := by
  have htakes : network.transport.Takes source.client (source.call ⟨[], none⟩) := h.reaches
  rw [Source.page, Client.hears_of_takes htakes, h.script]
  rfl

/-- A fetch takes the next answer. -/
theorem after (h : source.AnsweredFrom script network) (request : EventsRequest) :
    source.AnsweredFrom script.tail (network.after source.client [source.call request]) where
  reaches := h.reaches
  script := by
    have htakes : network.transport.Takes source.client (source.call request) := h.reaches
    rw [Network.script_after_of_takes htakes, h.script]

end Source.AnsweredFrom

/-- A call that runs to its end is a refresh of the store that it has prepared, with the page that the
next fetch brings. -/
theorem Call.perform_run (call : Call) (source : Source) (store : Store) (network : Network) :
    (call.perform source store).run network =
      (((source.page network).map fun _ => (),
        ((call.prepare store).refresh call.fromStart (source.page network)).2),
        network.after source.client [source.call (call.start store).1.request]) := by
  have hrun : (call.perform source store).run network =
      let answered := (source.fetch (call.start store).1.request).run network
      ((answered.1.map fun _ => (),
        ((call.prepare store).refresh call.fromStart answered.1).2), answered.2) := rfl
  rw [hrun, source.fetch_run]

end WorkspaceControl.Logs
