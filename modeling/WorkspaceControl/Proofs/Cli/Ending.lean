import WorkspaceControl.Proofs.Cli.Requests
import WorkspaceControl.Proofs.Rpc.Spending

/-!
# How following ends

Following goes on over failures, so nothing in it bounds how often it fetches. It ends all the same,
because every fetch takes an answer of the script and a script that is used up refuses
(`exists_follows`): it makes one fetch after the other **up to the first answer that finds fault
with it, and none after it**. The limit that following is given is no part of that: what it does is
what following without a limit does (`Follows`, `follow_eq_error_iff`).

Before it follows, the program finds the workspace and fetches once for every log. Each of these
requests has to succeed, so no more than the answers of the script are taken before the first that
fails (`Paid`).
-/

namespace WorkspaceControl.Cli

open Rpc Logs

variable {source : Source} {desk : Desk} {script : List Answer}

/-! ### Following without a limit -/

/-- Following that ends with a fault after so many fetches, with no limit on how many these are. -/
inductive Follows (source : Source) :
    Nat → Store → Option String → Desk → CommandFault → Desk → Prop
  /-- A fetch is refused as faulty. -/
  | stop {store left : Store} {last : Option String} {desk after : Desk} {failure : Failure}
      (hrun : (runStore source (.refresh false) store).run.run desk =
        (.ok (.error failure, left), after))
      (hfault : failure.isClientError = true) :
      Follows source 1 store last desk (.events failure) after
  /-- A fetch fails in another way, and the next one is made. -/
  | again {count : Nat} {store left : Store} {last : Option String} {desk between after : Desk}
      {failure : Failure} {fault : CommandFault}
      (hrun : (runStore source (.refresh false) store).run.run desk =
        (.ok (.error failure, left), between))
      (hfault : failure.isClientError = false)
      (hrest : Follows source count left last between fault after) :
      Follows source (count + 1) store last desk fault after
  /-- A fetch brings a page, what is new is printed, and the next one is made. -/
  | page {count : Nat} {store left : Store} {last newest : Option String}
      {desk between printed after : Desk} {fault : CommandFault}
      (hrun : (runStore source (.refresh false) store).run.run desk = (.ok (.ok (), left), between))
      (hprint : (printNew left last).run.run between = (.ok newest, printed))
      (hrest : Follows source count left newest printed fault after) :
      Follows source (count + 1) store last desk fault after

/-- A call of a store always comes to something. -/
theorem exists_run_runStore (source : Source) (call : Logs.Call) (store : Store) (desk : Desk) :
    ∃ result left between,
      (runStore source call store).run.run desk = (.ok (result, left), between) :=
  ⟨_, _, _, rfl⟩

/-- Printing never fails and changes nothing but what is printed. -/
theorem exists_run_printNew (store : Store) (last : Option String) (desk : Desk) :
    ∃ newest lines, (printNew store last).run.run desk =
      (.ok newest, { desk with printed := lines }) := by
  unfold printNew
  cases store.events.data? with
  | none => exact ⟨last, desk.printed, rfl⟩
  | some events => exact ⟨_, _, rfl⟩

/-- **Following within a limit is following without one**, as long as the limit is not reached. -/
theorem follow_eq_error_iff {fetches : Nat} {store : Store} {last : Option String}
    {fault : CommandFault} {after : Desk} :
    (follow source fetches store last).run.run desk = (.error fault, after) ↔
      ∃ count ≤ fetches, Follows source count store last desk fault after := by
  constructor
  · intro h
    -- Each fetch within the limit is one step without it.
    induction fetches generalizing store last desk with
    | zero => cases h
    | succ fetches ih =>
        obtain ⟨result, left, between, hrun⟩ :=
          exists_run_runStore source (.refresh false) store desk
        cases result with
        | ok done =>
            obtain ⟨newest, lines, hprint⟩ := exists_run_printNew left last between
            rw [run_follow_of_ok hrun hprint] at h
            obtain ⟨count, hle, hrest⟩ := ih h
            exact ⟨count + 1, Nat.succ_le_succ hle, .page hrun hprint hrest⟩
        | error failure =>
            rw [run_follow_of_error hrun] at h
            cases hfault : failure.isClientError with
            | true =>
                rw [hfault, if_pos rfl] at h
                cases h
                exact ⟨1, Nat.le_add_left 1 fetches, .stop hrun hfault⟩
            | false =>
                rw [hfault, if_neg Bool.false_ne_true] at h
                obtain ⟨count, hle, hrest⟩ := ih h
                exact ⟨count + 1, Nat.succ_le_succ hle, .again hrun hfault hrest⟩
  · intro h
    obtain ⟨count, hle, h⟩ := h
    -- There are no more steps than the limit allows, so it is never reached.
    induction h generalizing fetches with
    | stop hrun hfault =>
        obtain ⟨fetches, rfl⟩ := Nat.exists_eq_add_of_le' hle
        rw [run_follow_of_error hrun, hfault, if_pos rfl]
    | again hrun hfault _ ih =>
        obtain ⟨fetches, rfl⟩ := Nat.exists_eq_add_of_le' (Nat.le_of_add_left_le hle)
        rw [run_follow_of_error hrun, hfault, if_neg Bool.false_ne_true]
        exact ih (Nat.le_of_succ_le_succ hle)
    | page hrun hprint _ ih =>
        obtain ⟨fetches, rfl⟩ := Nat.exists_eq_add_of_le' (Nat.le_of_add_left_le hle)
        rw [run_follow_of_ok hrun hprint]
        exact ih (Nat.le_of_succ_le_succ hle)

/-! ### Every fetch takes an answer -/

/-- A fetch that reaches the service takes the next answer, and is told what it brings. -/
theorem run_runStore_took (h : source.AnsweredFrom script desk.network) (call : Logs.Call)
    (store : Store) :
    ∃ left next, source.AnsweredFrom script.tail next ∧ desk.network.Took next 1 ∧
      (runStore source call store).run.run desk =
        (.ok ((nextAnswer script).page.map fun _ => (), left), { desk with network := next }) := by
  have hrun := run_runStore source call store desk
  rw [h.page_eq] at hrun
  exact ⟨_, _, h.after _, Network.took_of_takes h.reaches, hrun⟩

/-- A fetch that the next answer finds fault with is the last one. -/
theorem follows_of_findsFault (h : source.AnsweredFrom script desk.network) {status : Nat}
    {message : String} (hfinds : (nextAnswer script).FindsFault status message) (store : Store)
    (last : Option String) :
    ∃ left, desk.network.Took left.network 1 ∧
      Follows source 1 store last desk (.events (.api status message)) left := by
  obtain ⟨left, next, -, htook, hrun⟩ := run_runStore_took h (.refresh false) store
  rw [Answer.page_of_findsFault hfinds] at hrun
  have hfault : (Failure.api status message).isClientError = true :=
    (Failure.isClientError_iff _).mpr ⟨status, message, rfl, hfinds.fault⟩
  exact ⟨{ desk with network := next }, htook, .stop hrun hfault⟩

/-- A fetch that is not refused is followed by another. -/
theorem follows_of_not_refused (h : source.AnsweredFrom script desk.network)
    (hrefused : (nextAnswer script).refused = false) (store : Store) (last : Option String) :
    ∃ left newest next, source.AnsweredFrom script.tail next.network ∧
      desk.network.Took next.network 1 ∧
      ∀ count fault after, Follows source count left newest next fault after →
        Follows source (count + 1) store last desk fault after := by
  obtain ⟨left, next, hnext, htook, hrun⟩ := run_runStore_took h (.refresh false) store
  cases hpage : (nextAnswer script).page with
  | ok page =>
      rw [hpage] at hrun
      obtain ⟨newest, lines, hprint⟩ := exists_run_printNew left last { desk with network := next }
      exact ⟨left, newest, ⟨next, lines⟩, hnext, htook,
        fun _ _ _ hrest => .page hrun hprint hrest⟩
  | error failure =>
      rw [hpage] at hrun
      have hfault : failure.isClientError = false := by
        rw [Answer.refused, hpage] at hrefused
        exact hrefused
      exact ⟨left, last, { desk with network := next }, hnext, htook,
        fun _ _ _ hrest => .again hrun hfault hrest⟩

/-- **Following ends with the first answer that finds fault with it**, at the latest with the one
that a script gives that is used up. The induction is on the answers: each fetch takes one, and only
a fetch that is refused is not followed by another. -/
theorem exists_follows (h : source.AnsweredFrom script desk.network) (store : Store)
    (last : Option String) :
    ∃ before stop rest status message left, script ++ [Answer.exhausted] = before ++ stop :: rest ∧
      (∀ poll ∈ before, poll.refused = false) ∧ stop.FindsFault status message ∧
      desk.network.Took left.network (before.length + 1) ∧
      Follows source (before.length + 1) store last desk (.events (.api status message)) left := by
  induction script generalizing desk store last with
  | nil =>
      obtain ⟨status, message, hfinds⟩ := Answer.refused_iff.mp Answer.refused_exhausted
      obtain ⟨left, htook, hfollows⟩ := follows_of_findsFault h hfinds store last
      exact ⟨[], .exhausted, [], status, message, left, rfl, List.forall_mem_nil _, hfinds, htook,
        hfollows⟩
  | cons answer script ih =>
      cases hrefused : answer.refused with
      | true =>
          obtain ⟨status, message, hfinds⟩ := Answer.refused_iff.mp hrefused
          obtain ⟨left, htook, hfollows⟩ := follows_of_findsFault h hfinds store last
          exact ⟨[], answer, script ++ [.exhausted], status, message, left, rfl,
            List.forall_mem_nil _, hfinds, htook, hfollows⟩
      | false =>
          obtain ⟨between, newest, next, hnext, htook, hgoes⟩ :=
            follows_of_not_refused h hrefused store last
          obtain ⟨before, stop, rest, status, message, left, hsplit, hbefore, hfinds, hrest,
            hfollows⟩ := ih hnext between newest
          refine ⟨answer :: before, stop, rest, status, message, left,
            congrArg (answer :: ·) hsplit, List.forall_mem_cons.mpr ⟨hrefused, hbefore⟩, hfinds, ?_,
            hgoes _ _ _ hfollows⟩
          rw [List.length_cons, Nat.add_comm]
          exact htook.append hrest

/-- Following ends without a limit, and in the same way within any limit that is not reached. -/
theorem exists_follow_eq (h : source.AnsweredFrom script desk.network) (store : Store)
    (last : Option String) :
    ∃ count fault left, count ≤ script.length + 1 ∧
      Follows source count store last desk fault left ∧
      ∀ fetches, count ≤ fetches →
        (follow source fetches store last).run.run desk = (.error fault, left) := by
  obtain ⟨before, stop, rest, status, message, left, hsplit, -, -, -, hfollows⟩ :=
    exists_follows h store last
  have hlength := congrArg List.length hsplit
  simp only [List.length_append, List.length_cons, List.length_nil] at hlength
  refine ⟨before.length + 1, _, left, by omega, hfollows, fun fetches hfetches => ?_⟩
  exact follow_eq_error_iff.mpr ⟨before.length + 1, hfetches, hfollows⟩

/-- There is only one way to split answers at the first one that is refused. -/
theorem takeWhile_eq_of_split {answers before rest : List Answer} {stop : Answer}
    (hsplit : answers = before ++ stop :: rest) (hbefore : ∀ poll ∈ before, poll.refused = false)
    (hstop : stop.refused = true) : (answers.takeWhile fun poll => !poll.refused) = before := by
  rw [hsplit, List.takeWhile_append_of_pos (by simpa using hbefore)]
  simp [hstop]

/-! ### Before following -/

/-- What became of requests that all had to succeed, so many of which were due. Either they did,
each with an answer of the script; or one failed, and then no more were made than the script has
answers, that one apart. -/
inductive Paid {α : Type} (before : Network) (due : Nat) : Except CommandFault α × Desk → Prop
  | ok {a : α} {left : Desk} (htook : before.Took left.network due)
      (hle : due ≤ before.script.length) : Paid before due (.ok a, left)
  | error {fault : CommandFault} {left : Desk} {count : Nat}
      (htook : before.Took left.network count) (hle : count ≤ before.script.length + 1) :
      Paid before due (.error fault, left)

/-- What is due after requests that succeeded is due with them. -/
theorem Paid.append {α : Type} {before between : Network} {count due : Nat}
    {left : Except CommandFault α × Desk} (h : Paid between due left)
    (htook : before.Took between count) (hle : count ≤ before.script.length) :
    Paid before (count + due) left := by
  cases h with
  | ok hrest hmore =>
      refine .ok (htook.append hrest) ?_
      rw [htook.script, List.length_drop] at hmore
      omega
  | error hrest hmore =>
      refine .error (htook.append hrest) ?_
      rw [htook.script, List.length_drop] at hmore
      omega

/-- What two steps owe one after the other is due for both. -/
theorem Paid.bind {α β : Type} {task : Task α} {next : α → Task β} {due more : Nat}
    (h : Paid desk.network due (task.run.run desk))
    (hnext : ∀ (a : α) (between : Desk), task.run.run desk = (.ok a, between) →
      Paid between.network more ((next a).run.run between)) :
    Paid desk.network (due + more) ((task >>= next).run.run desk) := by
  rw [Task.run_bind]
  cases hrun : task.run.run desk with
  | mk result between =>
      rw [hrun] at h
      cases h with
      | ok htook hle => exact (hnext _ between hrun).append htook hle
      | error htook hle => exact .error htook hle

/-- A call is one request at most. -/
theorem took_after_le (network : Network) (client : Client) (call : Rpc.Call) :
    ∃ count ≤ network.script.length + 1, network.Took (network.after client [call]) count :=
  ⟨_, (List.length_filterMap_le _ _).trans (Nat.le_add_left 1 _), network.took_after client [call]⟩

/-- A call of a store that has to succeed is due, and whatever is due after it. -/
theorem paid_runStore {α : Type} (source : Source) (call : Logs.Call) (store : Store)
    (fault : Failure → CommandFault) {next : Store → Task α} {due : Nat} (desk : Desk)
    (hnext : ∀ (left : Store) (between : Desk),
      Paid between.network due ((next left).run.run between)) :
    Paid desk.network (1 + due) ((runStore source call store >>= fun answered =>
      Task.orElse fault answered.1 >>= fun _ => next answered.2).run.run desk) := by
  have hrun := run_required source call store fault next desk
  rw [hrun]
  cases hpage : source.page desk.network with
  | error failure =>
      obtain ⟨count, hle, htook⟩ := took_after_le desk.network source.client
        (source.call (call.start store).1.request)
      exact .error htook hle
  | ok page =>
      -- A page comes only from an address that is taken and an answer of the script.
      have h : source.AnsweredFrom desk.network.script desk.network :=
        ⟨Source.reaches_of_page hpage, rfl⟩
      have hrefused : (nextAnswer desk.network.script).refused = false := by
        rw [Answer.refused, ← h.page_eq, hpage]
      obtain ⟨answer, rest, hscript⟩ := exists_cons_of_not_refused hrefused
      have htakes : desk.network.transport.Takes source.client
          (source.call (call.start store).1.request) := h.reaches
      have hle : 1 ≤ desk.network.script.length := by
        rw [hscript]
        exact Nat.le_add_left 1 rest.length
      have hrest := hnext ((call.prepare store).refresh call.fromStart (.ok page)).2
        (desk.after source.client (eventsCalls source.workspace [(call.start store).1.request]))
      exact hrest.append (Network.took_of_takes htakes) hle

/-- Watching logs makes one request for each. -/
theorem paid_watchAll (source : Source) (logs : List String) (store : Store) (desk : Desk) :
    Paid desk.network logs.length ((watchAll source logs store).run.run desk) := by
  induction logs generalizing desk store with
  | nil => exact .ok (.nothing desk.network) (Nat.zero_le _)
  | cons log logs ih =>
      rw [List.length_cons, Nat.add_comm]
      exact paid_runStore source (.visibility log true) store (.eventsOf log) desk ih

/-- What is fetched before following is one page for each log named, or one page if none is. -/
theorem paid_fetchFirst (source : Source) (logs : List String) (store : Store) (desk : Desk) :
    Paid desk.network (max 1 logs.length) ((fetchFirst source logs store).run.run desk) := by
  cases logs with
  | nil =>
      exact paid_runStore source (.refresh true) store .events desk
        fun _ between => .ok (.nothing between.network) (Nat.zero_le _)
  | cons log logs =>
      have hdue : max 1 (log :: logs).length = (log :: logs).length := by
        rw [List.length_cons]
        omega
      rw [hdue]
      exact paid_watchAll source (log :: logs) store desk

/-- Finding out which workspace is meant is one request. -/
theorem Context.paid_resolve (c : Context) (desk : Desk) :
    Paid desk.network 1 (c.resolve.run.run desk) := by
  cases hrun : c.resolve.run.run desk with
  | mk result left =>
      have hleft : left = desk.after c.client [.service .describeWorkspaces] := by
        rw [run_resolve] at hrun
        exact (congrArg Prod.snd hrun).symm
      subst hleft
      cases result with
      | error fault =>
          obtain ⟨count, hle, htook⟩ :=
            took_after_le desk.network c.client (.service .describeWorkspaces)
          exact .error htook hle
      | ok id =>
          have hfinds := finds_of_ok (congrArg Prod.fst hrun)
          obtain ⟨workspaces, hlists, -⟩ := resolve_eq_ok_iff.mp (congrArg Prod.fst hrun)
          rw [Client.lists, Client.hears_of_takes hfinds.takes] at hlists
          obtain ⟨answer, rest, hscript⟩ := exists_cons_of_outcome_eq_ok hlists
          refine .ok (Network.took_of_takes hfinds.takes) ?_
          rw [hscript]
          exact Nat.le_add_left 1 rest.length

/-- What is done before following: the workspace is found, and the first events are fetched and
printed. -/
def Context.opening (c : Context) (names : List String) :
    Task (String × Store × Option String) := do
  let id ← c.resolve
  let store ← fetchFirst ⟨c.client, id⟩ names (.empty c.settings.logBufferSize)
  let last ← printNew store none
  return (id, store, last)

/-- Following goes on from where the opening has come to. -/
theorem Context.run_tailLogs_eq (c : Context) (names : List String) (desk : Desk) :
    (c.tailLogs names true).run.run desk =
      match (c.opening names).run.run desk with
      | (.ok (id, store, last), left) =>
        (follow ⟨c.client, id⟩ (fetchesLeft left.network) store last).run.run left
      | (.error fault, left) => (.error fault, left) := by
  simp only [tailLogs, opening, Task.run_bind]
  rcases c.resolve.run.run desk with ⟨fault | id, found⟩
  · rfl
  · simp only
    rcases (fetchFirst ⟨c.client, id⟩ names (.empty c.settings.logBufferSize)).run.run found with
      ⟨fault | store, fetched⟩
    · rfl
    · obtain ⟨newest, lines, hprint⟩ := exists_run_printNew store none fetched
      simp only [hprint]
      rfl

/-- What is fetched before anything is printed has reached the service if it has succeeded. -/
theorem reaches_of_fetchFirst {names : List String} {store left : Store} {after : Desk}
    (h : (fetchFirst source names store).run.run desk = (.ok left, after)) :
    source.Reaches desk.network.transport := by
  cases hpage : source.page desk.network with
  | ok page => exact Source.reaches_of_page hpage
  | error failure =>
      -- Whatever is fetched first needs a page, so there is no success without one.
      exfalso
      cases names with
      | nil =>
          have hrun := run_required source (.refresh true) store .events pure desk
          rw [hpage] at hrun
          cases h.symm.trans hrun
      | cons name names =>
          have hrun := run_required source (.visibility name true) store (.eventsOf name)
            (watchAll source names) desk
          rw [hpage] at hrun
          cases h.symm.trans hrun

/-- An opening that has succeeded has reached the service. -/
theorem Context.reaches_of_opening {c : Context} {names : List String} {left : Desk} {id : String}
    {opened : Store × Option String}
    (h : (c.opening names).run.run desk = (.ok (id, opened), left)) :
    (Source.mk c.client id).Reaches desk.network.transport := by
  rw [opening, Task.run_bind] at h
  cases hresolve : c.resolve.run.run desk with
  | mk result found =>
      rw [hresolve] at h
      cases result with
      | error fault => cases h
      | ok meant =>
          have hfinds := finds_of_ok (congrArg Prod.fst hresolve)
          cases hresolve.symm.trans hfinds.run
          simp only [Task.run_bind] at h
          cases hfetched : (fetchFirst ⟨c.client, meant⟩ names
              (.empty c.settings.logBufferSize)).run.run
                (desk.after c.client [.service .describeWorkspaces]) with
          | mk result fetched =>
              rw [hfetched] at h
              cases result with
              | error fault => cases h
              | ok store =>
                  obtain ⟨newest, lines, hprint⟩ := exists_run_printNew store none fetched
                  simp only [hprint] at h
                  cases h
                  have hreach := reaches_of_fetchFirst hfetched
                  exact hreach

/-- One request is due for the workspace, and one for each log named, or one if none is. -/
theorem Context.paid_opening (c : Context) (names : List String) (desk : Desk) :
    Paid desk.network (1 + max 1 names.length) ((c.opening names).run.run desk) := by
  refine (c.paid_resolve desk).bind fun id found _ => ?_
  -- Printing owes nothing.
  rw [← Nat.add_zero (max 1 names.length)]
  refine (paid_fetchFirst ⟨c.client, id⟩ names _ found).bind fun store fetched _ => ?_
  obtain ⟨newest, lines, hprint⟩ := exists_run_printNew store none fetched
  rw [Task.run_bind, hprint]
  exact .ok (.nothing fetched.network) (Nat.zero_le _)

/-- An opening succeeds if the workspace is known and every fetch brings a page. -/
theorem Context.run_opening {c : Context} {names : List String} {listing : Answer}
    {startup polls : List Answer} {id : String} (hfinds : c.Finds desk id)
    (hreach : (Source.mk c.client id).Reaches desk.network.transport)
    (hscript : desk.network.script = listing :: (startup ++ polls))
    (hlogs : startup.length = max 1 names.length)
    (hpages : ∀ answer ∈ startup, ∃ page, answer.page = .ok page) :
    ∃ opened left, (c.opening names).run.run desk = (.ok (id, opened), left) := by
  obtain ⟨store, -, -, hfetched⟩ := run_fetchFirst_of_pages c.settings.logBufferSize
    (hlogs.trans (length_firstRequests names).symm) hpages (hfinds.answeredFrom hreach hscript)
  obtain ⟨newest, lines, hprint⟩ := exists_run_printNew store none
    ((desk.after c.client [.service .describeWorkspaces]).after c.client
      (eventsCalls id (firstRequests names)))
  rw [opening, Task.run_bind, hfinds.run]
  simp only [Task.run_bind, hfetched, hprint]
  exact ⟨_, _, rfl⟩

/-- Following ends as `exists_follows` says, on the answers that the opening has left. -/
theorem Context.run_tailLogs_of_opening {c : Context} {names : List String} {id : String}
    {opened : Store × Option String} {between : Desk}
    (hopen : (c.opening names).run.run desk = (.ok (id, opened), between))
    (htook : desk.network.Took between.network (1 + max 1 names.length)) :
    ∃ before stop rest status message left,
      desk.network.script.drop (1 + max 1 names.length) ++ [Answer.exhausted] =
        before ++ stop :: rest ∧
      (∀ poll ∈ before, poll.refused = false) ∧ stop.FindsFault status message ∧
      desk.network.Took left.network (1 + max 1 names.length + (before.length + 1)) ∧
      (c.tailLogs names true).run.run desk = (.error (.events (.api status message)), left) := by
  obtain ⟨store, last⟩ := opened
  have h : (Source.mk c.client id).AnsweredFrom
      (desk.network.script.drop (1 + max 1 names.length)) between.network :=
    ⟨htook.transport ▸ reaches_of_opening hopen, htook.script⟩
  obtain ⟨before, stop, rest, status, message, left, hsplit, hbefore, hfinds, hrest, hfollows⟩ :=
    exists_follows h store last
  have hlimit : before.length + 1 ≤ fetchesLeft between.network := by
    have hlength := congrArg List.length hsplit
    simp only [List.length_append, List.length_cons, List.length_nil] at hlength
    rw [fetchesLeft, h.script]
    omega
  refine ⟨before, stop, rest, status, message, left, hsplit, hbefore, hfinds,
    htook.append hrest, ?_⟩
  rw [c.run_tailLogs_eq names desk, hopen]
  exact follow_eq_error_iff.mpr ⟨before.length + 1, hlimit, hfollows⟩

/-- Following logs never succeeds, and makes at most one request more than the script has answers. -/
theorem Context.run_tailLogs_error (c : Context) (names : List String) (desk : Desk) :
    ∃ fault left count, (c.tailLogs names true).run.run desk = (.error fault, left) ∧
      desk.network.Took left.network count ∧ count ≤ desk.network.script.length + 1 := by
  have hpaid := c.paid_opening names desk
  cases hopen : (c.opening names).run.run desk with
  | mk result between =>
      rw [hopen] at hpaid
      cases hpaid with
      | @error fault _ count htook hle =>
          have hrun : (c.tailLogs names true).run.run desk = (.error fault, between) := by
            rw [c.run_tailLogs_eq names desk, hopen]
          exact ⟨fault, between, count, hrun, htook, hle⟩
      | ok htook hle =>
          obtain ⟨before, stop, rest, status, message, left, hsplit, -, -, hall, hrun⟩ :=
            run_tailLogs_of_opening hopen htook
          have hlength := congrArg List.length hsplit
          simp only [List.length_append, List.length_drop, List.length_cons, List.length_nil]
            at hlength
          exact ⟨_, left, _, hrun, hall, by omega⟩

/-- If the workspace is known and every first fetch brings a page, following ends on the answers that
come after these. -/
theorem Context.run_tailLogs_of_finds {c : Context} {names : List String} {listing : Answer}
    {startup polls : List Answer} {id : String} (hfinds : c.Finds desk id)
    (hreach : (Source.mk c.client id).Reaches desk.network.transport)
    (hscript : desk.network.script = listing :: (startup ++ polls))
    (hlogs : startup.length = max 1 names.length)
    (hpages : ∀ answer ∈ startup, ∃ page, answer.page = .ok page) :
    ∃ before stop rest status message left,
      polls ++ [Answer.exhausted] = before ++ stop :: rest ∧
      (∀ poll ∈ before, poll.refused = false) ∧ stop.FindsFault status message ∧
      desk.network.Took left.network (1 + startup.length + (before.length + 1)) ∧
      (c.tailLogs names true).run.run desk = (.error (.events (.api status message)), left) := by
  obtain ⟨opened, between, hopen⟩ := run_opening hfinds hreach hscript hlogs hpages
  have hdrop : (listing :: (startup ++ polls)).drop (1 + max 1 names.length) = polls := by
    rw [← hlogs, Nat.add_comm, List.drop_succ_cons, List.drop_left]
  have hpaid := c.paid_opening names desk
  rw [hopen] at hpaid
  cases hpaid with
  | ok htook hle =>
      have hends := run_tailLogs_of_opening hopen htook
      rw [hscript, hdrop, ← hlogs] at hends
      exact hends

/-! ### Whole runs -/

/-- **Following logs ends exactly when it should.** Whatever the words of the command, the
environment, the surroundings, the transport and the answers of the service, a run whose settings are
in order ends with code 1, after one request more than there are answers at most. If the workspace is
known and every first fetch brings a page, one poll is made after the other up to the first answer
that finds fault with it, which is the one that a used up script gives if no other does; none is made
after it, and what it says is what the run reports. No limit on the number of polls has a part in
that: following without a limit ends, and following within any limit that is not reached does the
same. -/
theorem run_follow_ends {environment : Environment} {words : List String} {invocation : Invocation}
    {names : List String} (hparse : parse environment words = .ok invocation)
    (hcommand : invocation.command = .logs names true)
    (hvalid : invocation.settings.validate = .ok ()) (surroundings : Surroundings)
    (transport : Transport) (script : List Answer) :
    let report := run environment surroundings (.new transport script) words
    let settings := invocation.settings
    report.exit = 1 ∧ report.sent.length ≤ script.length + 1 ∧
    (∀ listing startup polls workspaces id, script = listing :: (startup ++ polls) →
      settings.client.lists (.new transport script) = .ok workspaces →
      Meant surroundings settings.workspace workspaces id →
      (Source.mk settings.client id).Reaches transport →
      startup.length = max 1 names.length → (∀ answer ∈ startup, ∃ page, answer.page = .ok page) →
      ∃ before stop rest status message,
        polls ++ [Answer.exhausted] = before ++ stop :: rest ∧
        (∀ poll ∈ before, ∀ status message, ¬poll.FindsFault status message) ∧
        stop.FindsFault status message ∧
        report.sent.length = 1 + startup.length + (before.length + 1) ∧
        report.errors = ["Failed to fetch log events", (Failure.api status message).message]) ∧
    ∀ (source : Source) (store : Store) (last : Option String) (desk : Desk)
      (answers : List Answer), source.AnsweredFrom answers desk.network →
      ∃ count fault left, count ≤ answers.length + 1 ∧
        Follows source count store last desk fault left ∧
        ∀ fetches, count ≤ fetches →
          (follow source fetches store last).run.run desk = (.error fault, left) := by
  intro report settings
  let c : Context := ⟨settings, settings.client, surroundings⟩
  let start : Desk := ⟨.new transport script, []⟩
  obtain ⟨fault, left, count, hrun, htook, hle⟩ := c.run_tailLogs_error names start
  have hreport : report = ⟨1, left.printed, fault.messages, left.network.sent⟩ := by
    rw [show report = _ from run_eq_report hparse surroundings _,
      Invocation.report_of_valid hvalid, hcommand]
    exact congrArg reportOf hrun
  have hsent : report.sent.length = count := by
    rw [hreport]
    exact htook.sent.trans (Nat.zero_add count)
  refine ⟨by rw [hreport], hsent ▸ hle, ?_,
    fun source store last desk answers h => exists_follow_eq h store last⟩
  intro listing startup polls workspaces id hsplit hlists hmeant hreach hlogs hpages
  have hfinds : c.Finds start id := Context.finds_of_meant hlists hmeant
  obtain ⟨before, stop, rest, status, message, ended, hpolls, hbefore, hstop, hall, hends⟩ :=
    Context.run_tailLogs_of_finds hfinds hreach hsplit hlogs hpages
  cases hrun.symm.trans hends
  refine ⟨before, stop, rest, status, message, hpolls, fun poll hpoll => ?_, hstop, ?_, ?_⟩
  · exact Answer.refused_eq_false_iff.mp (hbefore poll hpoll)
  · rw [hreport]
    exact hall.sent.trans (Nat.zero_add _)
  · rw [hreport]
    rfl

/-! A run: one poll gets no answer, the body of another breaks off, the service fails at one and does
not know the workspace at another without a message, one brings a page, and the next is told that the
log is gone. -/

def followWords : List String := ["--url", "https://host/", "logs", "web", "-f"]

def following : Invocation where
  settings := ⟨"https://host/", none, 1000, 250, none⟩
  command := .logs ["web"] true

def goneLog : Answer := .response 404 (Utf8.bytes "\x7b\"message\":\"gone\"\x7d")

def stubbornPolls : List Answer :=
  [.silence "timed out", .unread 200 "broken off", .response 500 [], .response 404 [],
    responseOf polledPage, goneLog, responseOf polledPage]

theorem run_follow_ends_of_stubbornPolls :
    parse .empty followWords = .ok following ∧ following.settings.validate = .ok () ∧
    let report := run .empty smallContext.surroundings
      (.new .plain (workspaceListing :: ([responseOf startPage] ++ stubbornPolls))) followWords
    report.exit = 1 ∧ report.sent.length = 8 := by
  have hparse : parse .empty followWords = .ok following := ok_of_toOption (by decide +kernel)
  have hvalid : following.settings.validate = .ok () := ok_of_toOption (by decide +kernel)
  have hlists : following.settings.client.lists
      (.new .plain (workspaceListing :: ([responseOf startPage] ++ stubbornPolls))) =
        .ok [⟨"w", "/"⟩] := ok_of_toOption (by decide +kernel)
  have hmeant : resolve smallContext.surroundings none [⟨"w", "/"⟩] = .ok "w" :=
    ok_of_toOption (by decide +kernel)
  obtain ⟨hexit, -, hends, -⟩ := run_follow_ends hparse rfl hvalid smallContext.surroundings .plain
    (workspaceListing :: ([responseOf startPage] ++ stubbornPolls))
  obtain ⟨before, stop, rest, status, message, hsplit, hbefore, hstop, hsent, -⟩ :=
    hends workspaceListing [responseOf startPage] stubbornPolls _ "w" rfl hlists
      (resolve_eq_ok_iff.mp hmeant) (by decide +kernel) rfl
      (List.forall_mem_singleton.mpr ⟨startPage, page_startPage⟩)
  have hunrefused : ∀ poll ∈ before, poll.refused = false := by
    intro poll hpoll
    exact Answer.refused_eq_false_iff.mpr (hbefore poll hpoll)
  have hpolls : before.length = 5 := by
    rw [← takeWhile_eq_of_split hsplit hunrefused (Answer.refused_iff.mpr ⟨status, message, hstop⟩)]
    decide +kernel
  refine ⟨hparse, hvalid, hexit, ?_⟩
  rw [hsent, hpolls]
  rfl

end WorkspaceControl.Cli
