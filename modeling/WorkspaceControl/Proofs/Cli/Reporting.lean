import WorkspaceControl.Proofs.Cli.Asking
import WorkspaceControl.Proofs.Cli.Processes
import WorkspaceControl.Proofs.Rpc.Attempts

/-!
# All or nothing

A command that does not follow logs first does all that can fail and then prints, so a run of it
either succeeds in everything it tries or prints nothing. What it tries is told as attempts
(`Rpc.Attempt`), each made after the one before it was answered (`Command.Tries`): the call of a
command about the service, or the call that lists the workspaces and then the calls about the one
that is meant. **A run ends with code 0 if and only if its settings are in order, the steps that need
no call succeed, and every attempt is answered; otherwise it has printed nothing**
(`run_all_or_nothing`).

The proofs go through a command step by step. A task that `Requires` calls prints nothing; closed by a
task that prints, it is `AllOrNothing`, and so is a command that finds out first which workspace is
meant.
-/

namespace WorkspaceControl.Cli

open Rpc

/-! ### What commands try -/

/-- What is tried of a workspace that has to be found: first the workspaces are listed, and if one of
those listed is meant, calls of some kinds are made about it in turn. -/
inductive Seeks (surroundings : Surroundings) (given : Option String)
    (kinds : String → List (Rpc.Call → Prop)) : List Attempt → Prop
  | unlisted {heard : Heard}
      (h : ¬(Attempt.mk (.service .describeWorkspaces) heard).Answered) :
      Seeks surroundings given kinds [⟨.service .describeWorkspaces, heard⟩]
  | unmeant {heard : Heard} {workspaces : List WorkspaceDescription}
      (hlisted : (Call.service .describeWorkspaces).hear heard = .ok workspaces)
      (h : ∀ id, ¬Meant surroundings given workspaces id) :
      Seeks surroundings given kinds [⟨.service .describeWorkspaces, heard⟩]
  | meant {heard : Heard} {workspaces : List WorkspaceDescription} {id : String}
      {attempts : List Attempt}
      (hlisted : (Call.service .describeWorkspaces).hear heard = .ok workspaces)
      (hmeant : Meant surroundings given workspaces id) (hmore : InTurn (kinds id) attempts) :
      Seeks surroundings given kinds (⟨.service .describeWorkspaces, heard⟩ :: attempts)

/-- Each call of a list by itself, about the service. -/
def serviceCalls (calls : List ServiceCall) : List (Rpc.Call → Prop) :=
  calls.map fun call made => made = .service call

/-- Each call of a list by itself, about a workspace. -/
def workspaceCalls (calls : List WorkspaceCall) (id : String) : List (Rpc.Call → Prop) :=
  calls.map fun call made => made = .workspace id call

/-- A call that fetches events of a workspace. -/
def Fetch (id : String) (call : Rpc.Call) : Prop :=
  ∃ request, call = .workspace id (.getEvents request)

/-- What a command tries: the calls it makes in turn, up to the first that is not answered. Logs are
fetched once for each name given, and once if there is none. -/
def Command.Tries (surroundings : Surroundings) (given : Option String) :
    Command → List Attempt → Prop
  | .version => InTurn (serviceCalls [.getVersion])
  | .upgrade => InTurn (serviceCalls [.upgrade])
  | .listWorkspaces => InTurn (serviceCalls [.describeWorkspaces])
  | .createWorkspace root => InTurn (serviceCalls (creation surroundings root))
  | .describeWorkspace => Seeks surroundings given (workspaceCalls [.describe])
  | .listProcesses => Seeks surroundings given (workspaceCalls [.describeProcesses])
  | .createProcess p => Seeks surroundings given (workspaceCalls p.calls)
  | .act action reference => Seeks surroundings given (workspaceCalls [.act action reference])
  | .refreshProcesses => Seeks surroundings given (workspaceCalls [.refreshAll])
  | .logs names _ => Seeks surroundings given fun id => List.replicate (max 1 names.length) (Fetch id)

/-- Of the workspaces listed, if they are, one is meant. -/
def Resolves (surroundings : Surroundings) (given : Option String)
    (listing : Except Failure (List WorkspaceDescription)) : Prop :=
  ∀ workspaces, listing = .ok workspaces → ∃ id, Meant surroundings given workspaces id

/-- The steps of a command succeed that need no call of their own: the root of a new workspace leads
somewhere, a workspace is meant, and the pairs for a new process are pairs. -/
def Command.LocalSteps (surroundings : Surroundings) (given : Option String)
    (listing : Except Failure (List WorkspaceDescription)) : Command → Prop
  | .version | .upgrade | .listWorkspaces => True
  | .createWorkspace root => ∃ path, surroundings.canonical (.ofText root) = .ok path
  | .createProcess p =>
    Resolves surroundings given listing ∧ ∀ pair ∈ p.environment, '=' ∈ pair.toList
  | .describeWorkspace | .listProcesses | .act _ _ | .refreshProcesses | .logs _ _ =>
    Resolves surroundings given listing

/-! ### Tasks that need answers -/

namespace Task

variable {α β : Type} {client : Client}

/-- A task that prints nothing, makes calls of some kinds in turn, and succeeds if and only if all of
them are answered. -/
def Requires (client : Client) (kinds : List (Rpc.Call → Prop)) (task : Task α) : Prop :=
  ∀ desk : Desk, ∃ attempts,
    client.Attempts desk.network attempts (task.run.run desk).2.network ∧
    InTurn kinds attempts ∧ (task.run.run desk).2.printed = desk.printed ∧
    ((∃ a, (task.run.run desk).1 = .ok a) ↔ ∀ attempt ∈ attempts, attempt.Answered)

namespace Requires

theorem pure (a : α) : Requires client [] (Pure.pure a : Task α) :=
  fun desk => ⟨[], .nothing desk.network, .done, rfl, fun _ => List.forall_mem_nil _, fun _ => ⟨a, rfl⟩⟩

/-- What follows is tried after all that comes before it was answered. -/
theorem bind {kinds later : List (Rpc.Call → Prop)} {task : Task α} {next : α → Task β}
    (htask : Requires client kinds task) (hnext : ∀ a, Requires client later (next a)) :
    Requires client (kinds ++ later) (task >>= next) := by
  intro desk
  obtain ⟨attempts, hattempts, hturn, hprinted, hok⟩ := htask desk
  rw [run_bind]
  cases hrun : task.run.run desk with
  | mk result between =>
      rw [hrun] at hattempts hprinted hok
      cases result with
      | error fault =>
          -- Nothing that comes after a failure is tried.
          have hfailed : ¬∀ attempt ∈ attempts, attempt.Answered := by
            intro hall
            obtain ⟨a, ha⟩ := hok.mpr hall
            cases ha
          refine ⟨attempts, hattempts, hturn.append_of_failed hfailed, hprinted, ?_⟩
          exact ⟨fun ⟨b, hb⟩ => (nomatch hb), fun hall => absurd hall hfailed⟩
      | ok a =>
          have hall : ∀ attempt ∈ attempts, attempt.Answered := hok.mp ⟨a, rfl⟩
          obtain ⟨more, hmore, hlater, hsame, hends⟩ := hnext a between
          refine ⟨attempts ++ more, hattempts.append hmore, hturn.append hall hlater,
            hsame.trans hprinted, hends.trans ?_⟩
          rw [List.forall_mem_append]
          exact ⟨fun h => ⟨hall, h⟩, And.right⟩

end Requires

/-- A task that makes a call and comes to something of its result, or to a fault of its failure,
requires that call. -/
theorem requires_of_run {call : Rpc.Call} (kind : Rpc.Call → Prop) (hkind : kind call)
    {task : Task α} (fault : Failure → CommandFault)
    (hrun : ∀ desk : Desk, ∃ value : call.Result → α, task.run.run desk =
      (((call.hear (client.hears desk.network call)).map value).mapError fault,
        desk.after client [call])) :
    Requires client [kind] task := by
  intro desk
  obtain ⟨value, hdesk⟩ := hrun desk
  have hanswered : (client.attempt call desk.network).Answered ↔
      ∃ result, call.hear (client.hears desk.network call) = .ok result := Attempt.answered_iff _
  rw [hdesk]
  refine ⟨[client.attempt call desk.network], client.attempts_after call desk.network,
    inTurn_singleton hkind, rfl, ?_⟩
  rw [List.forall_mem_singleton, hanswered]
  cases call.hear (client.hears desk.network call) with
  | error failure =>
      constructor
      · rintro ⟨a, ha⟩
        cases ha
      · rintro ⟨result, hresult⟩
        cases hresult
  | ok result => exact ⟨fun _ => ⟨result, rfl⟩, fun _ => ⟨value result, rfl⟩⟩

theorem requires_perform (client : Client) (call : Rpc.Call) :
    Requires client [(· = call)] (perform client call) := by
  refine requires_of_run (· = call) rfl .call fun desk => ⟨id, ?_⟩
  rw [run_perform]
  cases call.hear (client.hears desk.network call) <;> rfl

end Task

/-- A fetch that has to succeed. -/
def requiredFetch (source : Logs.Source) (call : Logs.Call) (fault : Failure → CommandFault)
    (store : Logs.Store) : Task Logs.Store := do
  let (result, store) ← runStore source call store
  Task.orElse fault result
  return store

theorem requires_requiredFetch (source : Logs.Source) (call : Logs.Call)
    (fault : Failure → CommandFault) (store : Logs.Store) :
    Task.Requires source.client [Fetch source.workspace] (requiredFetch source call fault store) := by
  let request := (call.start store).1.request
  let left (page : Logs.Reply) := ((call.prepare store).refresh call.fromStart page).2
  refine Task.requires_of_run (Fetch source.workspace) ⟨request, rfl⟩ fault fun desk =>
    ⟨fun _ => left (source.page desk.network), ?_⟩
  refine (run_required source call store fault pure desk).trans ?_
  rw [Call.hear_getEvents]
  show _ = (((source.page desk.network).map fun _ => left (source.page desk.network)).mapError fault,
    desk.after source.client [source.call request])
  cases source.page desk.network <;> rfl

/-- Logs that are watched one after the other are fetched once each. -/
theorem requires_watchAll (source : Logs.Source) (logs : List String) (store : Logs.Store) :
    Task.Requires source.client (List.replicate logs.length (Fetch source.workspace))
      (watchAll source logs store) := by
  induction logs generalizing store with
  | nil => exact .pure store
  | cons log logs ih =>
      have hsteps : watchAll source (log :: logs) store =
          requiredFetch source (.visibility log true) (.eventsOf log) store >>=
            watchAll source logs := by
        rw [watchAll, requiredFetch]
        simp only [bind_assoc, pure_bind]
      rw [hsteps]
      exact (requires_requiredFetch source _ _ store).bind ih

/-- Before anything is printed, logs are fetched once for each name, and once if there is none. -/
theorem requires_fetchFirst (source : Logs.Source) (logs : List String) (store : Logs.Store) :
    Task.Requires source.client (List.replicate (max 1 logs.length) (Fetch source.workspace))
      (fetchFirst source logs store) := by
  cases logs with
  | nil => exact requires_requiredFetch source (.refresh true) .events store
  | cons log logs =>
      have hcount : max 1 (log :: logs).length = (log :: logs).length := by
        rw [List.length_cons]
        omega
      rw [hcount]
      exact requires_watchAll source (log :: logs) store

/-! ### Commands -/

namespace Task

variable {α : Type} {client : Client}

/-- A task that succeeds if and only if its steps do and all that it tries is answered, and that else
prints nothing. -/
def AllOrNothing (client : Client) (tries : List Attempt → Prop)
    (steps : Except Failure (List WorkspaceDescription) → Prop) (task : Task Unit) : Prop :=
  ∀ desk : Desk, ∃ attempts,
    client.Attempts desk.network attempts (task.run.run desk).2.network ∧ tries attempts ∧
    ((task.run.run desk).1 = .ok () ↔
      steps (client.lists desk.network) ∧ ∀ attempt ∈ attempts, attempt.Answered) ∧
    ((task.run.run desk).1 ≠ .ok () → (task.run.run desk).2.printed = desk.printed)

/-- A task that does nothing but print. -/
def Prints (task : Task Unit) : Prop :=
  ∀ desk : Desk, ∃ lines, task.run.run desk = (.ok (), { desk with printed := lines })

/-- What requires calls and then prints is all or nothing. -/
theorem Requires.allOrNothing {kinds : List (Rpc.Call → Prop)} {task : Task α}
    {next : α → Task Unit} (h : Requires client kinds task) (hnext : ∀ a, Prints (next a)) :
    AllOrNothing client (InTurn kinds) (fun _ => True) (task >>= next) := by
  intro desk
  obtain ⟨attempts, hattempts, hturn, hprinted, hok⟩ := h desk
  refine ⟨attempts, ?_⟩
  cases hrun : task.run.run desk with
  | mk result between =>
      rw [hrun] at hattempts hprinted hok
      cases result with
      | error fault =>
          have hends : (task >>= next).run.run desk = (.error fault, between) := by
            rw [run_bind, hrun]
          rw [hends, true_and, ← hok]
          exact ⟨hattempts, hturn, ⟨nofun, nofun⟩, fun _ => hprinted⟩
      | ok a =>
          obtain ⟨lines, hlines⟩ := hnext a between
          have hends : (task >>= next).run.run desk = (.ok (), { between with printed := lines }) := by
            rw [run_bind, hrun]
            exact hlines
          rw [hends, true_and, ← hok]
          exact ⟨hattempts, hturn, ⟨fun _ => ⟨a, rfl⟩, fun _ => rfl⟩, fun hfailed => absurd rfl hfailed⟩

theorem prints_print (lines : List Line) : Prints (print lines) :=
  fun desk => ⟨desk.printed ++ lines, run_print lines desk⟩

/-- A command that makes one call and says what it brings. -/
theorem allOrNothing_perform_print (client : Client) (call : Rpc.Call)
    (lines : call.Result → List Line) :
    AllOrNothing client (InTurn [(· = call)]) (fun _ => True)
      (perform client call >>= fun result => print (lines result)) :=
  (requires_perform client call).allOrNothing fun _ => prints_print _

/-- A task that fails at a step of its own tries nothing. -/
theorem allOrNothing_throw (client : Client) (fault : CommandFault) :
    AllOrNothing client (InTurn []) (fun _ => False) (throw fault) :=
  fun desk => ⟨[], .nothing desk.network, .done, ⟨nofun, fun h => h.1.elim⟩, fun _ => rfl⟩

end Task

/-- A command that finds out first which workspace is meant is all or nothing if what follows is. -/
theorem Context.allOrNothing_seeks (c : Context) (kinds : String → List (Rpc.Call → Prop))
    (steps : Prop) {rest : String → Task Unit}
    (hrest : ∀ id, Task.AllOrNothing c.client (InTurn (kinds id)) (fun _ => steps) (rest id)) :
    Task.AllOrNothing c.client (Seeks c.surroundings c.settings.workspace kinds)
      (fun listing => Resolves c.surroundings c.settings.workspace listing ∧ steps)
      (c.resolve >>= rest) := by
  intro desk
  let call : Rpc.Call := .service .describeWorkspaces
  let found := desk.after c.client [call]
  have hattempts : c.client.Attempts desk.network [c.client.attempt call desk.network]
      found.network := c.client.attempts_after call desk.network
  have hanswered : (c.client.attempt call desk.network).Answered ↔
      ∃ workspaces, c.client.lists desk.network = .ok workspaces := Attempt.answered_iff _
  have hleft : (c.resolve.run.run desk).2 = found := by rw [c.run_resolve]
  have hfound := c.found_resolve desk
  rw [Task.run_bind]
  cases hrun : c.resolve.run.run desk with
  | mk result left =>
      rw [hrun] at hleft hfound
      change left = found at hleft
      subst hleft
      cases hfound with
      | unlisted h =>
          have hnot : ¬(c.client.attempt call desk.network).Answered := by
            rw [hanswered, h]
            rintro ⟨workspaces, hlisted⟩
            cases hlisted
          refine ⟨_, hattempts, .unlisted hnot, ⟨nofun, fun hall => ?_⟩, fun _ => rfl⟩
          exact absurd (hall.2 _ List.mem_cons_self) hnot
      | unmeant hlisted h =>
          -- The call was answered, so it is the step after it that fails.
          refine ⟨_, hattempts, .unmeant hlisted h, ⟨nofun, fun hall => ?_⟩, fun _ => rfl⟩
          obtain ⟨id, hmeant⟩ := hall.1.1 _ hlisted
          exact absurd hmeant (h id)
      | @meant workspaces id hlisted hmeant =>
          have hall : (c.client.attempt call desk.network).Answered :=
            hanswered.mpr ⟨workspaces, hlisted⟩
          have hresolves : Resolves c.surroundings c.settings.workspace
              (c.client.lists desk.network) := by
            intro listing hlisting
            cases hlisted.symm.trans hlisting
            exact ⟨id, hmeant⟩
          obtain ⟨attempts, hmore, hturn, hok, hprinted⟩ := hrest id found
          refine ⟨_, hattempts.append hmore, .meant hlisted hmeant hturn, hok.trans ?_, hprinted⟩
          rw [List.forall_mem_append, List.forall_mem_singleton]
          exact ⟨fun h => ⟨⟨hresolves, h.1⟩, hall, h.2⟩, fun h => ⟨h.1.2, h.2.2⟩⟩

/-! ### Programs of new processes -/

/-- Whatever an entrance makes of its words, a new process has a program to run. -/
def Entrance.NamesProgram (e : Entrance) : Prop :=
  ∀ given words rest p, e.command given words rest = some (.createProcess p) → p.command ≠ []

theorem namesProgram_bare {names : List String} {command : Command}
    (h : ∀ p, command ≠ .createProcess p) : (Entrance.bare names command).NamesProgram := by
  intro given words rest p hp
  cases hp
  exact absurd rfl (h p)

theorem namesProgram_one {names : List String} {command : String → Command}
    (h : ∀ word p, command word ≠ .createProcess p) :
    (Entrance.one names command).NamesProgram := by
  intro given words rest p hp
  obtain ⟨word, -, hword⟩ := Option.map_eq_some_iff.mp hp
  exact absurd hword (h word p)

theorem namesProgram_createProcessCommand : createProcessCommand.NamesProgram := by
  intro given words rest p hp
  simp only [createProcessCommand] at hp
  split at hp
  · cases hp
    exact List.cons_ne_nil _ _
  · cases hp

theorem namesProgram_logsCommand : logsCommand.NamesProgram := nofun

theorem namesProgram_plainCommands : ∀ e ∈ plainCommands, e.NamesProgram := by
  simp only [plainCommands, List.forall_mem_cons]
  exact ⟨namesProgram_bare nofun, namesProgram_bare nofun, namesProgram_logsCommand,
    List.forall_mem_nil _⟩

theorem namesProgram_groups : ∀ group ∈ groups, ∀ e ∈ group.2, e.NamesProgram := by
  simp only [groups, workspaceCommands, processCommands, List.forall_mem_cons]
  exact ⟨⟨namesProgram_bare nofun, namesProgram_one nofun, namesProgram_bare nofun,
      List.forall_mem_nil _⟩,
    ⟨namesProgram_bare nofun, namesProgram_createProcessCommand, namesProgram_one nofun,
      namesProgram_one nofun, namesProgram_one nofun, namesProgram_one nofun,
      namesProgram_bare nofun, List.forall_mem_nil _⟩, List.forall_mem_nil _⟩

theorem Entrance.command_ne_nil_of_read {e : Entrance} (he : e.NamesProgram) {words : List String}
    {p : NewProcess} (h : e.read words = .ok (.createProcess p)) : p.command ≠ [] := by
  rw [read, Json.bind_eq_ok] at h
  obtain ⟨stop, -, h⟩ := h
  cases stop with
  | branch progress name rest => cases h
  | ended progress rest =>
      cases hcommand : e.command progress.given progress.words rest with
      | none =>
          simp only [hcommand] at h
          cases h
      | some command =>
          simp only [hcommand] at h
          cases h
          exact he _ _ _ _ hcommand

theorem command_ne_nil_of_find {entrances : List Entrance}
    (hall : ∀ e ∈ entrances, e.NamesProgram) {name : String} {e : Entrance}
    (hfind : find? entrances name = some e) {words : List String} {p : NewProcess}
    (h : e.read words = .ok (.createProcess p)) : p.command ≠ [] :=
  Entrance.command_ne_nil_of_read (hall e (List.mem_of_find?_eq_some hfind)) h

theorem command_ne_nil_of_readGroup {entrances : List Entrance}
    (hall : ∀ e ∈ entrances, e.NamesProgram) {words : List String} {p : NewProcess}
    (h : readGroup entrances words = .ok (.createProcess p)) : p.command ≠ [] := by
  rw [readGroup, Json.bind_eq_ok] at h
  obtain ⟨stop, -, h⟩ := h
  cases stop with
  | ended progress rest => cases h
  | branch progress name rest =>
      cases hfind : find? entrances name with
      | none =>
          simp only [hfind] at h
          cases h
      | some e =>
          simp only [hfind] at h
          exact command_ne_nil_of_find hall hfind h

theorem mem_of_lookup_eq_some {α : Type} {entries : List (String × α)} {key : String} {value : α}
    (h : entries.lookup key = some value) : (key, value) ∈ entries := by
  obtain ⟨before, after, hsplit, -⟩ := List.lookup_eq_some_iff.mp h
  rw [hsplit]
  exact List.mem_append_right _ List.mem_cons_self

/-- A process that the words of a command line ask for has a program to run. -/
theorem command_ne_nil_of_parse {environment : Environment} {words : List String}
    {invocation : Invocation} {p : NewProcess} (h : parse environment words = .ok invocation)
    (hcommand : invocation.command = .createProcess p) : p.command ≠ [] := by
  rw [parse, Json.bind_eq_ok] at h
  obtain ⟨stop, -, h⟩ := h
  cases stop with
  | ended progress rest => cases h
  | branch progress name rest =>
      obtain ⟨command, hread, h⟩ := Json.bind_eq_ok.mp h
      obtain ⟨settled, -, h⟩ := Json.bind_eq_ok.mp h
      obtain ⟨settings, -, h⟩ := Json.bind_eq_ok.mp h
      cases h
      cases hcommand
      unfold readCommand at hread
      split at hread
      · rename_i entrances hgroup
        exact command_ne_nil_of_readGroup (namesProgram_groups _ (mem_of_lookup_eq_some hgroup)) hread
      · split at hread
        · rename_i e hfind
          exact command_ne_nil_of_find namesProgram_plainCommands hfind hread
        · cases hread

/-! ### All commands -/

theorem Task.AllOrNothing.congr {client : Client} {tries : List Attempt → Prop}
    {steps steps' : Except Failure (List WorkspaceDescription) → Prop} {task : Task Unit}
    (h : AllOrNothing client tries steps task) (hsteps : ∀ listing, steps listing ↔ steps' listing) :
    AllOrNothing client tries steps' task := by
  intro desk
  obtain ⟨attempts, hattempts, htries, hok, hprinted⟩ := h desk
  exact ⟨attempts, hattempts, htries, by rw [hok, hsteps], hprinted⟩

/-- A command that makes one call about the workspace that is meant and says what it brings. -/
theorem Context.allOrNothing_perform_print (c : Context) (call : WorkspaceCall)
    (lines : call.Result → List Line) :
    Task.AllOrNothing c.client (Seeks c.surroundings c.settings.workspace (workspaceCalls [call]))
      (Resolves c.surroundings c.settings.workspace)
      (c.resolve >>= fun id => Task.perform c.client (.workspace id call) >>= fun result =>
        Task.print (lines result)) := by
  have h := c.allOrNothing_seeks (workspaceCalls [call]) True fun id =>
    Task.allOrNothing_perform_print c.client (.workspace id call) lines
  exact h.congr fun _ => iff_of_eq (and_true _)

theorem NewProcess.exists_spec_iff {p : NewProcess} (hcommand : p.command ≠ []) :
    (∃ spec, p.spec = .ok spec) ↔ ∀ pair ∈ p.environment, '=' ∈ pair.toList := by
  constructor
  · intro h pair hmem
    by_contra hmark
    obtain ⟨spec, hspec⟩ := h
    obtain ⟨fault, hfault⟩ := spec_eq_error ⟨pair, hmem, hmark⟩
    cases hspec.symm.trans hfault
  · intro h
    obtain ⟨spec, hspec, -⟩ := exists_spec hcommand h
    exact ⟨spec, hspec⟩

theorem Context.allOrNothing_createProcess (c : Context) {p : NewProcess}
    (hcommand : p.command ≠ []) :
    Task.AllOrNothing c.client (Seeks c.surroundings c.settings.workspace (workspaceCalls p.calls))
      (fun listing => Resolves c.surroundings c.settings.workspace listing ∧
        ∀ pair ∈ p.environment, '=' ∈ pair.toList)
      (c.createProcess p) := by
  have hpairs := NewProcess.exists_spec_iff hcommand
  unfold NewProcess.calls createProcess
  cases hspec : p.spec with
  | error fault =>
      rw [hspec] at hpairs
      refine (c.allOrNothing_seeks _ False fun id => ?_).congr fun _ => ?_
      · exact Task.allOrNothing_throw c.client fault
      · rw [← hpairs]
        exact and_congr_right' ⟨False.elim, fun ⟨_, h⟩ => nomatch h⟩
  | ok spec =>
      rw [hspec] at hpairs
      refine (c.allOrNothing_seeks _ True fun id => ?_).congr fun _ => ?_
      · exact Task.allOrNothing_perform_print c.client (.workspace id (.createProcess p.name spec)) _
      · rw [← hpairs]
        exact and_congr_right' ⟨fun _ => ⟨spec, rfl⟩, fun _ => trivial⟩

theorem Context.allOrNothing_createWorkspace (c : Context) (root : String) :
    Task.AllOrNothing c.client (InTurn (serviceCalls (creation c.surroundings root)))
      (fun _ => ∃ path, c.surroundings.canonical (.ofText root) = .ok path)
      (c.createWorkspace root) := by
  unfold creation createWorkspace
  cases c.surroundings.canonical (.ofText root) with
  | error fault =>
      refine (Task.allOrNothing_throw c.client (.root root fault)).congr fun _ => ?_
      exact ⟨False.elim, fun ⟨_, h⟩ => nomatch h⟩
  | ok path =>
      refine (Task.allOrNothing_perform_print c.client
        (.service (.createWorkspace path.display)) _).congr fun _ => ?_
      exact ⟨fun _ => ⟨path, rfl⟩, fun _ => trivial⟩

/-- Logs that are not followed are printed once all of them were fetched. -/
theorem Context.allOrNothing_tailLogs (c : Context) (names : List String) :
    Task.AllOrNothing c.client (Command.Tries c.surroundings c.settings.workspace (.logs names false))
      (Resolves c.surroundings c.settings.workspace) (c.tailLogs names false) := by
  refine (c.allOrNothing_seeks _ True fun id => ?_).congr fun _ =>
    iff_of_eq (and_true _)
  refine (requires_fetchFirst ⟨c.client, id⟩ names _).allOrNothing fun store desk => ?_
  obtain ⟨newest, lines, hrun⟩ := exists_run_printNew store none desk
  exact ⟨lines, by rw [Task.run_bind, hrun]; rfl⟩

/-- Every command that does not follow logs is all or nothing. -/
theorem Command.allOrNothing (command : Command) (c : Context)
    (hfollow : ∀ names, command ≠ .logs names true)
    (hprogram : ∀ p, command = .createProcess p → p.command ≠ []) :
    Task.AllOrNothing c.client (command.Tries c.surroundings c.settings.workspace)
      (fun listing => command.LocalSteps c.surroundings c.settings.workspace listing)
      (command.run c) := by
  cases command with
  | version => exact Task.allOrNothing_perform_print c.client (.service .getVersion) versionLines
  | upgrade =>
      exact Task.allOrNothing_perform_print c.client (.service .upgrade)
        fun _ => [[.styled .green "✓ Upgrade requested"]]
  | listWorkspaces =>
      exact Task.allOrNothing_perform_print c.client (.service .describeWorkspaces) listLines
  | createWorkspace root => exact c.allOrNothing_createWorkspace root
  | describeWorkspace => exact c.allOrNothing_perform_print .describe workspaceLines
  | listProcesses => exact c.allOrNothing_perform_print .describeProcesses processLines
  | createProcess p => exact c.allOrNothing_createProcess (hprogram p rfl)
  | act action reference =>
      exact c.allOrNothing_perform_print (.act action reference)
        fun _ => [doneLine (actionWord action) reference]
  | refreshProcesses =>
      exact c.allOrNothing_perform_print .refreshAll fun _ => [[done, .plain " Refreshed all processes"]]
  | logs names following =>
      cases following with
      | true => exact absurd rfl (hfollow names)
      | false => exact c.allOrNothing_tailLogs names

/-! ### Whole runs -/

theorem printed_reportOf (ended : Except CommandFault Unit × Desk) :
    (reportOf ended).printed = ended.2.printed := by
  obtain ⟨_ | _, _⟩ := ended <;> rfl

theorem exitOf_eq_zero_iff {result : Except CommandFault Unit} :
    exitOf result = 0 ↔ result = .ok () := by
  cases result with
  | error fault => exact ⟨nofun, nofun⟩
  | ok done => exact ⟨fun _ => rfl, fun _ => rfl⟩

/-- **A run either succeeds in all it tries or prints nothing.** Whatever the words of a command that
does not follow logs, the environment, the surroundings, the transport and the answers of the service,
what a run has tried is told by attempts: each is a call with what was heard of it, and the requests
for these calls are what was sent. There are none if the settings are not in order, and else they are
what the command tries. The run ends with code 0 if and only if the settings are in order, the steps
that need no call succeed, and all attempts are answered by a status from 200 to 299 and a text that
decodes as the call's result. If it ends with another code, nothing was printed. -/
theorem run_all_or_nothing {environment : Environment} {words : List String}
    {invocation : Invocation} (hparse : parse environment words = .ok invocation)
    (hfollow : ∀ names, invocation.command ≠ .logs names true) (surroundings : Surroundings)
    (transport : Transport) (script : List Answer) :
    let network := Network.new transport script
    let report := run environment surroundings network words
    let settings := invocation.settings
    ∃ attempts left, settings.client.Attempts network attempts left ∧ report.sent = left.sent ∧
      report.sent = settings.client.requests transport (attempts.map Attempt.call) ∧
      (∀ fault, settings.validate = .error fault → attempts = []) ∧
      (settings.validate = .ok () →
        invocation.command.Tries surroundings settings.workspace attempts) ∧
      (report.exit = 0 ↔ settings.validate = .ok () ∧
        invocation.command.LocalSteps surroundings settings.workspace
          (settings.client.lists network) ∧
        ∀ attempt ∈ attempts, attempt.Answered) ∧
      (report.exit ≠ 0 → report.printed = []) := by
  intro network report settings
  have hreport : report = invocation.report surroundings network :=
    run_eq_report hparse surroundings network
  rw [hreport]
  cases hvalid : settings.validate with
  | error fault =>
      rw [Invocation.report_of_invalid hvalid, exit_reportOf, exitOf_eq_zero_iff]
      exact ⟨[], _, .nothing _, rfl, rfl, fun _ _ => rfl, nofun, ⟨nofun, nofun⟩, fun _ => rfl⟩
  | ok done =>
      rw [Invocation.report_of_valid hvalid, exit_reportOf, sent_reportOf, printed_reportOf, ne_eq,
        exitOf_eq_zero_iff]
      obtain ⟨attempts, hattempts, htries, hok, hprinted⟩ := invocation.command.allOrNothing
        ⟨settings, settings.client, surroundings⟩ hfollow
        (fun p hp => command_ne_nil_of_parse hparse hp) ⟨network, []⟩
      have hsent := congrArg Network.sent hattempts.after_eq
      refine ⟨attempts, _, hattempts, rfl, hsent, nofun, fun _ => htries, ?_, hprinted⟩
      exact hok.trans ⟨fun h => ⟨rfl, h⟩, And.right⟩

/-! A run: the events of two logs are to be printed, and only those of the first come. -/

def twoLogsWords : List String := ["--url", "https://host/", "logs", "web", "db"]

def twoLogs : Invocation where
  settings := ⟨"https://host/", none, 1000, 250, none⟩
  command := .logs ["web", "db"] false

def oneLogAnswered : Network :=
  .new .plain [workspaceListing, responseOf startPage, .silence "timed out"]

theorem run_all_or_nothing_of_oneLogAnswered :
    let report := run .empty smallContext.surroundings oneLogAnswered twoLogsWords
    report.exit = 1 ∧ report.sent.length = 3 ∧ report.printed = [] := by
  intro report
  have hparse : parse .empty twoLogsWords = .ok twoLogs := ok_of_toOption (by decide +kernel)
  have hvalid : twoLogs.settings.validate = .ok () := ok_of_toOption (by decide +kernel)
  let c : Context := ⟨twoLogs.settings, twoLogs.settings.client, smallContext.surroundings⟩
  let start : Desk := ⟨oneLogAnswered, []⟩
  have hlists : c.client.lists oneLogAnswered = .ok [⟨"w", "/"⟩] := ok_of_toOption (by decide +kernel)
  have hmeant : Meant c.surroundings c.settings.workspace [⟨"w", "/"⟩] "w" :=
    resolve_eq_ok_iff.mp (ok_of_toOption (by decide +kernel))
  have hfinds : c.Finds start "w" := Context.finds_of_meant hlists hmeant
  have hreach : (Logs.Source.mk c.client "w").Reaches start.network.transport := by decide +kernel
  have hcount : [responseOf startPage].length < (firstRequests ["web", "db"]).length := by decide
  have hscript : start.network.script =
      workspaceListing :: ([responseOf startPage] ++ [.silence "timed out"]) := rfl
  obtain ⟨fault, hfails⟩ := Context.run_tailLogs_of_failure hfinds hreach hscript hcount
    (List.forall_mem_singleton.mpr ⟨startPage, page_startPage⟩) rfl false
  have hreport : report = reportOf ((c.tailLogs ["web", "db"] false).run.run start) := by
    rw [show report = _ from run_eq_report hparse smallContext.surroundings _,
      Invocation.report_of_valid hvalid]
    rfl
  rw [hfails] at hreport
  have hexit : report.exit = 1 := congrArg Report.exit hreport
  have hfollow : ∀ names, twoLogs.command ≠ .logs names true := by
    intro names hnames
    cases hnames
  obtain ⟨attempts, left, -, -, -, -, -, -, hprinted⟩ :=
    run_all_or_nothing hparse hfollow smallContext.surroundings .plain
      [workspaceListing, responseOf startPage, .silence "timed out"]
  refine ⟨hexit, ?_, hprinted fun hzero => absurd (hexit.symm.trans hzero) (by decide)⟩
  have hsent : report.sent = c.client.requests .plain (.service .describeWorkspaces ::
      eventsCalls "w" ((firstRequests ["web", "db"]).take 2)) := congrArg Report.sent hreport
  rw [hsent]
  decide +kernel

end WorkspaceControl.Cli
