import WorkspaceControl.Proofs.Cli.Following
import WorkspaceControl.Proofs.Cli.Resolution
import WorkspaceControl.Proofs.Rpc.Requests

/-!
# What a run asks of the service

A run of the program makes the calls that its command asks for and no others. Settings that are not in
order keep it from making any. A command about the service makes one call. A command about a
workspace first has the workspaces listed; if that does not say which one is meant, the run ends
there, and if it does, all that follows is about that workspace (`Scoped`). What follows is one call,
or fetches of events if logs are printed, so nothing is ever changed twice.

What is sent is one request for each call whose address the transport takes. The proofs go through a
command step by step: what a task asks for is what its steps ask for, one after the other, and only
`perform` asks for anything.
-/

namespace WorkspaceControl.Cli

open Rpc

/-! ### What commands may ask -/

/-- What a run asks whose command is about one workspace, by what it is told of the workspaces, and
the code that it ends with: first for the workspaces, and then what `asks` allows of the one that is
meant. -/
inductive Scoped (surroundings : Surroundings) (given : Option String)
    (asks : List WorkspaceCall → Prop) (listing : Except Failure (List WorkspaceDescription)) :
    List Rpc.Call → Nat → Prop
  /-- The workspaces are not listed, or none of those listed is meant. -/
  | unknown
      (h : ∀ workspaces, listing = .ok workspaces → ∀ id, ¬Meant surroundings given workspaces id) :
      Scoped surroundings given asks listing [.service .describeWorkspaces] 1
  /-- All that follows is about the workspace that is meant. -/
  | known {workspaces : List WorkspaceDescription} {id : String} {more : List WorkspaceCall}
      {exit : Nat} (hlisted : listing = .ok workspaces)
      (hmeant : Meant surroundings given workspaces id) (hmore : asks more) :
      Scoped surroundings given asks listing
        (.service .describeWorkspaces :: more.map (.workspace id)) exit

/-- The call that creates a workspace, if its root leads anywhere: it is created at what is shown of
the canonical path. -/
def creation (surroundings : Surroundings) (root : String) : List ServiceCall :=
  match surroundings.canonical (.ofText root) with
  | .ok path => [.createWorkspace path.display]
  | .error _ => []

/-- The call that creates a process, if it can be told how to start it. -/
def NewProcess.calls (p : NewProcess) : List WorkspaceCall :=
  match p.spec with
  | .ok spec => [.createProcess p.name spec]
  | .error _ => []

/-- A pair without an equals sign keeps a process from being created. -/
def NewProcess.Asks (p : NewProcess) (more : List WorkspaceCall) : Prop :=
  more = p.calls ∧ ((∃ pair ∈ p.environment, '=' ∉ pair.toList) → more = [])

/-- What a run asks with a command, by what it is told of the workspaces, and the code that it ends
with. -/
def Command.Conduct (surroundings : Surroundings) (given : Option String)
    (listing : Except Failure (List WorkspaceDescription)) : Command → List Rpc.Call → Nat → Prop
  | .version => fun calls _ => calls = [.service .getVersion]
  | .upgrade => fun calls _ => calls = [.service .upgrade]
  | .listWorkspaces => fun calls _ => calls = [.service .describeWorkspaces]
  | .createWorkspace root => fun calls _ => calls = (creation surroundings root).map .service
  | .describeWorkspace => Scoped surroundings given (· = [.describe]) listing
  | .listProcesses => Scoped surroundings given (· = [.describeProcesses]) listing
  | .createProcess p => Scoped surroundings given p.Asks listing
  | .act action reference => Scoped surroundings given (· = [.act action reference]) listing
  | .refreshProcesses => Scoped surroundings given (· = [.refreshAll]) listing
  | .logs _ _ => Scoped surroundings given
      (fun more => ∃ requests : List EventsRequest, more = requests.map .getEvents) listing

namespace Task

variable {α : Type}

/-- A call that has to succeed comes to what is heard of it. -/
theorem run_perform (client : Client) (call : Rpc.Call) (desk : Desk) :
    (perform client call).run.run desk =
      ((call.hear (client.hears desk.network call)).mapError .call, desk.after client [call]) := by
  rw [perform, run_bind, run_talk, Client.perform_run]
  exact run_orElse _ _ _

/-- A call whose address is refused ends the task. -/
theorem run_perform_of_refused {client : Client} {call : Rpc.Call} (desk : Desk)
    (h : ¬desk.network.transport.Takes client call) (next : call.Result → Task α) :
    ∃ fault, (perform client call >>= next).run.run desk = (.error fault, desk) := by
  rw [run_bind, run_perform, Desk.after_of_refused h]
  cases hheard : call.hear (client.hears desk.network call) with
  | ok result => exact absurd (Client.takes_of_hear hheard) h
  | error failure => exact ⟨.call failure, rfl⟩

/-- Printing what a call brings asks for nothing more. -/
theorem network_perform_print (client : Client) (call : Rpc.Call)
    (lines : call.Result → List Line) (desk : Desk) :
    ((perform client call >>= fun result => print (lines result)).run.run desk).2.network =
      desk.network.after client [call] := by
  rw [run_bind, run_perform]
  cases call.hear (client.hears desk.network call) <;> rfl

/-! ### Fetches -/

/-- Whatever a task does, all it asks for is events of one workspace. -/
def Fetches (client : Client) (id : String) (task : Task α) : Prop :=
  ∀ desk : Desk, ∃ requests,
    (task.run.run desk).2.network = desk.network.after client (eventsCalls id requests)

namespace Fetches

variable {β : Type} {client : Client} {id : String}

/-- A task that leaves the network alone asks for nothing. -/
theorem of_network_eq {task : Task α}
    (h : ∀ desk, (task.run.run desk).2.network = desk.network) : Fetches client id task :=
  fun desk => ⟨[], (h desk).trans (desk.network.after_nil client).symm⟩

theorem pure (a : α) : Fetches client id (Pure.pure a : Task α) := of_network_eq fun _ => rfl

theorem throw (fault : CommandFault) : Fetches client id (MonadExcept.throw fault : Task α) :=
  of_network_eq fun _ => rfl

theorem print (lines : List Line) : Fetches client id (Task.print lines) :=
  of_network_eq fun _ => rfl

theorem orElse {ε : Type} (fault : ε → CommandFault) (result : Except ε α) :
    Fetches client id (Task.orElse fault result) :=
  of_network_eq fun desk => by rw [run_orElse]

/-- What is fetched in two steps is what the first fetches and then what the second does. -/
theorem bind {task : Task α} {next : α → Task β} (htask : Fetches client id task)
    (hnext : ∀ a, Fetches client id (next a)) : Fetches client id (task >>= next) := by
  intro desk
  obtain ⟨requests, hrequests⟩ := htask desk
  rw [run_bind]
  cases hrun : task.run.run desk with
  | mk result between =>
      rw [hrun] at hrequests
      cases result with
      | error fault => exact ⟨requests, hrequests⟩
      | ok a =>
          obtain ⟨more, hmore⟩ := hnext a between
          change between.network = _ at hrequests
          exact ⟨requests ++ more, by
            rw [hmore, hrequests, Network.after_after, eventsCalls_append]⟩

end Fetches

end Task

section

variable {source : Logs.Source}

theorem fetches_runStore (call : Logs.Call) (store : Logs.Store) :
    Task.Fetches source.client source.workspace (runStore source call store) :=
  fun desk => ⟨[(call.start store).1.request], by rw [run_runStore]; rfl⟩

theorem fetches_printNew (client : Client) (id : String) (store : Logs.Store)
    (last : Option String) : Task.Fetches client id (printNew store last) := by
  unfold printNew
  split
  · exact .pure last
  · exact .bind (.print _) fun _ => .pure _

theorem fetches_watchAll (logs : List String) (store : Logs.Store) :
    Task.Fetches source.client source.workspace (watchAll source logs store) := by
  induction logs generalizing store with
  | nil => exact .pure store
  | cons log logs ih =>
      exact .bind (fetches_runStore _ store) fun answered =>
        .bind (.orElse _ answered.1) fun _ => ih answered.2

theorem fetches_fetchFirst (logs : List String) (store : Logs.Store) :
    Task.Fetches source.client source.workspace (fetchFirst source logs store) := by
  cases logs with
  | nil =>
      exact .bind (fetches_runStore _ store) fun answered =>
        .bind (.orElse _ answered.1) fun _ => .pure answered.2
  | cons log logs => exact fetches_watchAll (log :: logs) store

theorem fetches_follow (fetches : Nat) (store : Logs.Store) (last : Option String) :
    Task.Fetches source.client source.workspace (follow source fetches store last) := by
  induction fetches generalizing store last with
  | zero => exact .pure ()
  | succ fetches ih =>
      refine .bind (fetches_runStore _ store) fun answered => ?_
      obtain ⟨result, store⟩ := answered
      cases result with
      | ok done => exact .bind (fetches_printNew _ _ store last) fun last => ih store last
      | error failure =>
          change Task.Fetches source.client source.workspace
            (if failure.isClientError then throw (.events failure)
            else follow source fetches store last)
          split
          · exact .throw _
          · exact ih store last

/-- Printing logs asks for events only, once the workspace is known. -/
theorem fetches_tail (names : List String) (following : Bool) (capacity : Nat) :
    Task.Fetches source.client source.workspace (do
      let store ← fetchFirst source names (.empty capacity)
      let last ← printNew store none
      if following then follow source (fetchesLeft (← get).network) store last) := by
  refine .bind (fetches_fetchFirst names _) fun store => .bind (fetches_printNew _ _ store none) ?_
  intro last
  cases following with
  | true => exact .bind (.of_network_eq fun _ => rfl) fun desk => fetches_follow _ store last
  | false => exact .pure ()

end

/-! ### Commands about one workspace -/

/-- The code that a run ends with. -/
def exitOf : Except CommandFault Unit → Nat
  | .ok () => 0
  | .error _ => 1

/-- Whatever the network and its answers, what a task asks and the code that it ends with are what it
may ask and end with. -/
def Task.KeepsTo (client : Client)
    (may : Except Failure (List WorkspaceDescription) → List Rpc.Call → Nat → Prop)
    (task : Task Unit) : Prop :=
  ∀ desk : Desk, ∃ calls, (task.run.run desk).2.network = desk.network.after client calls ∧
    may (client.lists desk.network) calls (exitOf (task.run.run desk).1)

/-- A command that finds out which workspace is meant, and then asks for what it may, does no more. -/
theorem Context.keepsTo_scoped (c : Context) {rest : String → Task Unit}
    {asks : List WorkspaceCall → Prop}
    (hrest : ∀ (id : String) (desk : Desk), ∃ more, asks more ∧
      ((rest id).run.run desk).2.network =
        desk.network.after c.client (more.map (.workspace id))) :
    Task.KeepsTo c.client (Scoped c.surroundings c.settings.workspace asks) (c.resolve >>= rest) := by
  intro desk
  have hleft : (c.resolve.run.run desk).2 = desk.after c.client [.service .describeWorkspaces] := by
    rw [run_resolve]
  rw [Task.run_bind]
  cases hrun : c.resolve.run.run desk with
  | mk result left =>
      rw [hrun] at hleft
      change left = _ at hleft
      subst hleft
      cases result with
      | error fault =>
          -- Were a workspace meant, it would have been found.
          refine ⟨_, rfl, .unknown fun workspaces hlisted id hmeant => ?_⟩
          have hfound := resolve_eq_ok_iff.mpr ⟨workspaces, hlisted, hmeant⟩
          rw [hrun] at hfound
          cases hfound
      | ok id =>
          obtain ⟨workspaces, hlisted, hmeant⟩ := resolve_eq_ok_iff.mp (congrArg Prod.fst hrun)
          obtain ⟨more, hmore, hnetwork⟩ := hrest id (desk.after c.client _)
          refine ⟨_, hnetwork.trans ?_, .known hlisted hmeant hmore⟩
          rw [Desk.network_after, Network.after_after]
          rfl

/-! ### Environments -/

/-- A fold that fails at an item wherever it comes from fails. -/
theorem foldlM_eq_error {σ α ε : Type} {step : σ → α → Except ε σ} {items : List α} {a : α}
    (hmem : a ∈ items) (ha : ∀ state, ∃ e, step state a = .error e) (state : σ) :
    ∃ e, items.foldlM step state = .error e := by
  induction items generalizing state with
  | nil => cases hmem
  | cons b items ih =>
      rw [List.foldlM_cons]
      rcases List.mem_cons.mp hmem with rfl | hmem
      · obtain ⟨e, he⟩ := ha state
        exact ⟨e, by rw [he]; rfl⟩
      · cases step state b with
        | error e => exact ⟨e, rfl⟩
        | ok state => exact ih hmem state

/-- What is no pair makes no environment. -/
theorem environmentOf_eq_error {pairs : List String} {pair : String} (hmem : pair ∈ pairs)
    (h : '=' ∉ pair.toList) : ∃ fault, environmentOf pairs = .error fault := by
  have hsplit : splitPair? pair = none := by
    rw [splitPair?, Parts.divide_of_not_mem '=' _ h]
  refine foldlM_eq_error hmem (fun d => ⟨.binding pair, ?_⟩) _
  rw [hsplit]

theorem NewProcess.spec_eq_error {p : NewProcess}
    (h : ∃ pair ∈ p.environment, '=' ∉ pair.toList) : ∃ fault, p.spec = .error fault := by
  obtain ⟨pair, hmem, hmark⟩ := h
  obtain ⟨fault, hfault⟩ := environmentOf_eq_error hmem hmark
  unfold spec
  split
  · exact ⟨.noProgram, rfl⟩
  · rw [if_neg (List.ne_nil_of_mem hmem), hfault]
    exact ⟨fault, rfl⟩

/-! ### All commands -/

theorem Task.keepsTo_perform_print (client : Client) (call : Rpc.Call)
    (lines : call.Result → List Line) :
    KeepsTo client (fun _ calls _ => calls = [call])
      (perform client call >>= fun result => print (lines result)) :=
  fun desk => ⟨_, network_perform_print client call lines desk, rfl⟩

/-- One call is all that is left of a command whose workspace is known. -/
theorem Context.keepsTo_perform_print (c : Context) (call : WorkspaceCall)
    (lines : call.Result → List Line) :
    Task.KeepsTo c.client (Scoped c.surroundings c.settings.workspace (· = [call]))
      (c.resolve >>= fun id => Task.perform c.client (.workspace id call) >>= fun result =>
        Task.print (lines result)) :=
  c.keepsTo_scoped fun id desk =>
    ⟨[call], rfl, Task.network_perform_print c.client (.workspace id call) lines desk⟩

theorem Context.keepsTo_createProcess (c : Context) (p : NewProcess) :
    Task.KeepsTo c.client (Scoped c.surroundings c.settings.workspace p.Asks)
      (c.createProcess p) := by
  refine c.keepsTo_scoped fun id desk => ?_
  rw [Task.run_bind, Task.run_orElse]
  cases hspec : p.spec with
  | error fault =>
      have hcalls : p.calls = [] := by rw [NewProcess.calls, hspec]
      exact ⟨[], ⟨hcalls.symm, fun _ => rfl⟩, (desk.network.after_nil c.client).symm⟩
  | ok spec =>
      have hcalls : p.calls = [.createProcess p.name spec] := by rw [NewProcess.calls, hspec]
      refine ⟨[.createProcess p.name spec], ⟨hcalls.symm, fun hpair => ?_⟩, ?_⟩
      · obtain ⟨fault, hfault⟩ := NewProcess.spec_eq_error hpair
        cases hspec.symm.trans hfault
      · have hnetwork := Task.network_perform_print c.client
          (.workspace id (.createProcess p.name spec)) (fun made : String =>
            [doneLine "Created process" p.name ++
              [.plain " (", .styled .dimmed made, .plain ")"]]) desk
        exact hnetwork

theorem Context.keepsTo_tailLogs (c : Context) (names : List String) (following : Bool) :
    Task.KeepsTo c.client (Scoped c.surroundings c.settings.workspace
      fun more => ∃ requests : List EventsRequest, more = requests.map .getEvents)
      (c.tailLogs names following) := by
  refine c.keepsTo_scoped fun id desk => ?_
  let source : Logs.Source := ⟨c.client, id⟩
  have hfetches : Task.Fetches source.client source.workspace _ :=
    fetches_tail names following c.settings.logBufferSize
  obtain ⟨requests, hrequests⟩ := hfetches desk
  have hcalls : (requests.map WorkspaceCall.getEvents).map (Call.workspace id) =
      eventsCalls id requests := List.map_map
  exact ⟨requests.map .getEvents, ⟨requests, rfl⟩, hcalls ▸ hrequests⟩

theorem Context.keepsTo_createWorkspace (c : Context) (root : String) :
    Task.KeepsTo c.client
      (fun _ calls _ => calls = (creation c.surroundings root).map .service)
      (c.createWorkspace root) := by
  intro desk
  rw [createWorkspace, Task.run_bind, Task.run_orElse]
  unfold creation
  cases c.surroundings.canonical (.ofText root) with
  | error fault => exact ⟨[], (desk.network.after_nil c.client).symm, rfl⟩
  | ok path =>
      exact Task.keepsTo_perform_print c.client (.service (.createWorkspace path.display))
        (fun id : String => [[done, .plain " Created workspace ", .styled .cyan id]]) desk

/-- Every command keeps to what it may ask. -/
theorem Command.keepsTo (command : Command) (c : Context) :
    Task.KeepsTo c.client
      (fun listing => command.Conduct c.surroundings c.settings.workspace listing)
      (command.run c) := by
  cases command with
  | version => exact Task.keepsTo_perform_print c.client (.service .getVersion) versionLines
  | upgrade =>
      exact Task.keepsTo_perform_print c.client (.service .upgrade)
        fun _ => [[.styled .green "✓ Upgrade requested"]]
  | listWorkspaces =>
      exact Task.keepsTo_perform_print c.client (.service .describeWorkspaces) listLines
  | createWorkspace root => exact c.keepsTo_createWorkspace root
  | describeWorkspace => exact c.keepsTo_perform_print .describe workspaceLines
  | listProcesses => exact c.keepsTo_perform_print .describeProcesses processLines
  | createProcess p => exact c.keepsTo_createProcess p
  | act action reference =>
      exact c.keepsTo_perform_print (.act action reference)
        fun _ => [doneLine (actionWord action) reference]
  | refreshProcesses =>
      exact c.keepsTo_perform_print .refreshAll fun _ => [[done, .plain " Refreshed all processes"]]
  | logs names following => exact c.keepsTo_tailLogs names following

/-! ### Whole runs -/

/-- The client that settings make. -/
def Settings.client (s : Settings) : Client := ⟨trimSlashes s.url, s.timeout⟩

/-- Settings that are in order make a client. -/
theorem Settings.ofSettings_connection {s : Settings} (h : s.validate = .ok ()) :
    Client.ofSettings s.connection = .ok s.client := by
  unfold validate at h
  cases hconnection : s.connection.validate with
  | error fault =>
      rw [hconnection] at h
      cases h
  | ok done =>
      rw [Client.ofSettings, hconnection]
      rfl

/-- What is reported of a command by what has come of it. -/
def reportOf : Except CommandFault Unit × Desk → Report
  | (.ok (), desk) => ⟨0, desk.printed, [], desk.network.sent⟩
  | (.error fault, desk) => ⟨1, desk.printed, fault.messages, desk.network.sent⟩

/-- What is reported of an invocation, whether or not there are words for it. -/
def Invocation.report (i : Invocation) (surroundings : Surroundings) (network : Network) : Report :=
  reportOf ((i.run surroundings).run.run ⟨network, []⟩)

/-- A run reports what is reported of the invocation that its words are read as. -/
theorem run_eq_report {environment : Environment} {words : List String} {i : Invocation}
    (h : parse environment words = .ok i) (surroundings : Surroundings) (network : Network) :
    run environment surroundings network words = i.report surroundings network := by
  simp only [run, h, Invocation.report]
  cases (i.run surroundings).run.run ⟨network, []⟩ with
  | mk result desk => cases result <;> rfl

theorem exit_reportOf (ended : Except CommandFault Unit × Desk) :
    (reportOf ended).exit = exitOf ended.1 := by
  obtain ⟨_ | _, _⟩ := ended <;> rfl

theorem sent_reportOf (ended : Except CommandFault Unit × Desk) :
    (reportOf ended).sent = ended.2.network.sent := by
  obtain ⟨_ | _, _⟩ := ended <;> rfl

/-- Nothing is done with settings that are not in order. -/
theorem Invocation.report_of_invalid {i : Invocation} {fault : SettingsFault}
    (h : i.settings.validate = .error fault) (surroundings : Surroundings) (network : Network) :
    i.report surroundings network = reportOf (.error (.settings fault), ⟨network, []⟩) := by
  rw [report, run, Task.run_bind, Task.run_orElse, h]
  rfl

/-- With settings that are in order all that is reported is what comes of the command. -/
theorem Invocation.report_of_valid {i : Invocation} (h : i.settings.validate = .ok ())
    (surroundings : Surroundings) (network : Network) :
    i.report surroundings network = reportOf
      ((i.command.run ⟨i.settings, i.settings.client, surroundings⟩).run.run ⟨network, []⟩) := by
  rw [report, run, Task.run_bind, Task.run_orElse, h]
  change reportOf ((Task.orElse .call (Client.ofSettings i.settings.connection) >>= fun client =>
    i.command.run ⟨i.settings, client, surroundings⟩).run.run ⟨network, []⟩) = _
  rw [Task.run_bind, Task.run_orElse, Settings.ofSettings_connection h]
  rfl

/-- What is sent for an invocation whose settings are in order is the requests of calls that its
command may make. -/
theorem Invocation.report_conducts {i : Invocation} (hvalid : i.settings.validate = .ok ())
    (surroundings : Surroundings) (transport : Transport) (script : List Answer) :
    let report := i.report surroundings (.new transport script)
    ∃ calls, report.sent = i.settings.client.requests transport calls ∧
      i.command.Conduct surroundings i.settings.workspace
        (i.settings.client.lists (.new transport script)) calls report.exit := by
  intro report
  obtain ⟨calls, hcalls, hconduct⟩ :=
    i.command.keepsTo ⟨i.settings, i.settings.client, surroundings⟩ ⟨.new transport script, []⟩
  rw [show report = _ from report_of_valid hvalid surroundings _, exit_reportOf, sent_reportOf, hcalls]
  exact ⟨calls, rfl, hconduct⟩

/-! ### Changes -/

/-- A call about a workspace is made only where that workspace is meant. -/
theorem Scoped.meant {surroundings : Surroundings} {given : Option String}
    {asks : List WorkspaceCall → Prop} {listing : Except Failure (List WorkspaceDescription)}
    {calls : List Rpc.Call} {exit : Nat} (h : Scoped surroundings given asks listing calls exit)
    {id : String} {call : WorkspaceCall} (hmem : .workspace id call ∈ calls) :
    ∃ workspaces, listing = .ok workspaces ∧ Meant surroundings given workspaces id := by
  cases h with
  | unknown h => cases List.mem_singleton.mp hmem
  | known hlisted hmeant hmore =>
      obtain hfirst | hlater := List.mem_cons.mp hmem
      · cases hfirst
      · obtain ⟨made, -, hmade⟩ := List.mem_map.mp hlater
        cases hmade
        exact ⟨_, hlisted, hmeant⟩

/-- Where a workspace is meant, it is asked for what the command asks for. -/
theorem Scoped.calls_of_meant {surroundings : Surroundings} {given : Option String}
    {asks : List WorkspaceCall → Prop} {listing : Except Failure (List WorkspaceDescription)}
    {calls : List Rpc.Call} {exit : Nat} (h : Scoped surroundings given asks listing calls exit)
    {workspaces : List WorkspaceDescription} {id : String} (hlisted : listing = .ok workspaces)
    (hmeant : Meant surroundings given workspaces id) :
    ∃ more, asks more ∧ calls = .service .describeWorkspaces :: more.map (.workspace id) := by
  cases h with
  | unknown h => exact absurd hmeant (h workspaces hlisted id)
  | known hfound hother hmore =>
      cases hlisted.symm.trans hfound
      cases (resolve_eq_ok_iff.mpr hmeant).symm.trans (resolve_eq_ok_iff.mpr hother)
      exact ⟨_, hmore, rfl⟩

theorem Command.Conduct.meant {surroundings : Surroundings} {given : Option String}
    {listing : Except Failure (List WorkspaceDescription)} {command : Command}
    {calls : List Rpc.Call} {exit : Nat}
    (h : command.Conduct surroundings given listing calls exit) {id : String} {call : WorkspaceCall}
    (hmem : .workspace id call ∈ calls) :
    ∃ workspaces, listing = .ok workspaces ∧ Meant surroundings given workspaces id := by
  cases command with
  | version | upgrade | listWorkspaces =>
      cases h
      cases List.mem_singleton.mp hmem
  | createWorkspace root =>
      cases h
      obtain ⟨made, -, hmade⟩ := List.mem_map.mp hmem
      cases hmade
  | describeWorkspace | listProcesses | createProcess | act | refreshProcesses | logs =>
      exact Scoped.meant h hmem

end WorkspaceControl.Cli
