import Mathlib.Data.List.Induction
import WorkspaceControl.Proofs.Cli.Requests

/-!
# Processes as they are described

The words that describe a new process are pairs for its environment and a command, and what they
describe is said here without reading them (`NewProcess.Describes`): a pair is divided at its first
equals sign (`Binds`), and of the pairs that give a value to one key the last counts (`LastBinds`).
A process is asked for just as it is described (`NewProcess.exists_spec`), and not at all if a pair
has no equals sign, wherever it stands.
-/

namespace WorkspaceControl.Cli

open Rpc Wire

/-! ### Pairs -/

/-- A pair gives a value to a key if the key is what stands before its first equals sign, and the
value all that stands behind it. -/
def Binds (pair key value : String) : Prop :=
  '=' ∉ key.toList ∧ pair.toList = key.toList ++ '=' :: value.toList

theorem splitPair?_eq_some_iff {pair key value : String} :
    splitPair? pair = some (key, value) ↔ Binds pair key value := by
  constructor
  · intro h
    by_cases hmem : '=' ∈ pair.toList
    · obtain ⟨before, behind, hpair, hbefore⟩ := List.eq_append_cons_of_mem hmem
      rw [splitPair?, hpair, Parts.divide_append '=' before behind hbefore] at h
      cases h
      refine ⟨?_, ?_⟩
      · rwa [String.toList_ofList]
      · rw [String.toList_ofList, String.toList_ofList, hpair]
    · rw [splitPair?, Parts.divide_of_not_mem '=' _ hmem] at h
      cases h
  · rintro ⟨hkey, hpair⟩
    simp [splitPair?, hpair, Parts.divide_append '=' _ _ hkey]

theorem exists_binds {pair : String} (h : '=' ∈ pair.toList) : ∃ key value, Binds pair key value := by
  obtain ⟨before, behind, hpair, hbefore⟩ := List.eq_append_cons_of_mem h
  exact ⟨.ofList before, .ofList behind, by simpa using hbefore, by simpa using hpair⟩

/-- A pair gives one value to one key. -/
theorem Binds.eq {pair key value other more : String} (h : Binds pair key value)
    (hother : Binds pair other more) : key = other ∧ value = more := by
  have hsplit := splitPair?_eq_some_iff.mpr h
  rw [splitPair?_eq_some_iff.mpr hother] at hsplit
  cases hsplit
  exact ⟨rfl, rfl⟩

/-- Of several pairs, the last that gives a value to a key gives it this one. -/
def LastBinds (pairs : List String) (key value : String) : Prop :=
  ∃ before pair after, pairs = before ++ pair :: after ∧ Binds pair key value ∧
    ∀ other ∈ after, ∀ later, ¬Binds other key later

theorem lastBinds_concat_self {pair key value other : String} (pairs : List String)
    (h : Binds pair key value) : LastBinds (pairs ++ [pair]) key other ↔ other = value := by
  constructor
  · rintro ⟨before, last, after, hpairs, hlast, hafter⟩
    rcases List.eq_nil_or_concat after with rfl | ⟨after, end_, rfl⟩
    · obtain ⟨-, hpair⟩ := List.append_inj' hpairs rfl
      cases hpair
      exact (hlast.eq h).2
    · rw [List.concat_eq_append, ← List.cons_append, ← List.append_assoc] at hpairs
      obtain ⟨-, hpair⟩ := List.append_inj' hpairs rfl
      cases hpair
      exact absurd h (hafter pair (by simp) value)
  · rintro rfl
    exact ⟨pairs, pair, [], rfl, h, List.forall_mem_nil _⟩

theorem lastBinds_concat_of_ne {pair key value other more : String} {pairs : List String}
    (h : Binds pair key value) (hne : other ≠ key) :
    LastBinds (pairs ++ [pair]) other more ↔ LastBinds pairs other more := by
  constructor
  · rintro ⟨before, last, after, hpairs, hlast, hafter⟩
    rcases List.eq_nil_or_concat after with rfl | ⟨after, end_, rfl⟩
    · obtain ⟨-, hpair⟩ := List.append_inj' hpairs rfl
      cases hpair
      exact absurd (hlast.eq h).1 hne
    · rw [List.concat_eq_append, ← List.cons_append, ← List.append_assoc] at hpairs
      obtain ⟨hpairs, -⟩ := List.append_inj' hpairs rfl
      exact ⟨before, last, after, hpairs, hlast, fun p hp => hafter p (by simp [hp])⟩
  · rintro ⟨before, last, after, rfl, hlast, hafter⟩
    refine ⟨before, last, after ++ [pair], by simp, hlast, fun p hp later hp' => ?_⟩
    rcases List.mem_append.mp hp with hp | hp
    · exact hafter p hp later hp'
    · cases List.mem_singleton.mp hp
      exact hne (hp'.eq h).1

/-! ### Environments -/

theorem environmentOf_concat {pairs : List String} {pair key value : String}
    (h : Binds pair key value) :
    environmentOf (pairs ++ [pair]) = do
      let dictionary ← environmentOf pairs
      return dictionary.insert key value := by
  simp only [environmentOf, List.foldlM_append, List.foldlM_cons, List.foldlM_nil,
    splitPair?_eq_some_iff.mpr h]
  rfl

/-- **Pairs that all have equals signs make an environment**, in which every key has the value that
the last of its pairs gives it. The induction is on the pairs from their end, where the one stands
that counts. -/
theorem exists_environmentOf {pairs : List String} (h : ∀ pair ∈ pairs, '=' ∈ pair.toList) :
    ∃ dictionary, environmentOf pairs = .ok dictionary ∧
      ∀ key value, dictionary.get? key = some value ↔ LastBinds pairs key value := by
  induction pairs using List.reverseRecOn with
  | nil =>
      refine ⟨.empty, rfl, fun key value => ?_⟩
      rw [Dictionary.get?_empty]
      refine ⟨nofun, ?_⟩
      rintro ⟨before, pair, after, hnil, -, -⟩
      simp at hnil
  | append_singleton pairs pair ih =>
      obtain ⟨dictionary, hmade, hvalues⟩ := ih fun other hmem => h other (by simp [hmem])
      obtain ⟨bound, given, hpair⟩ := exists_binds (h pair (by simp))
      refine ⟨dictionary.insert bound given, by rw [environmentOf_concat hpair, hmade]; rfl, ?_⟩
      intro key value
      rw [Dictionary.get?_insert]
      by_cases hkey : key = bound
      · subst hkey
        rw [if_pos rfl, lastBinds_concat_self pairs hpair, Option.some.injEq, eq_comm]
      · rw [if_neg hkey, hvalues, lastBinds_concat_of_ne hpair hkey]

/-! ### Specifications -/

/-- What words describe: a process in the directory given, of the program and the arguments that
the command names, and with an environment of its own if there are pairs for one. -/
structure NewProcess.Describes (p : NewProcess) (spec : ProcessSpec) : Prop where
  directory : spec.directory = p.directory
  command : p.command = spec.program :: spec.arguments
  environment_eq_none : spec.environment = none ↔ p.environment = []
  get? {dictionary : Dictionary String} (h : spec.environment = some dictionary)
    (key value : String) : dictionary.get? key = some value ↔ LastBinds p.environment key value

/-- A process that can be asked for is asked for as it is described. -/
theorem NewProcess.exists_spec {p : NewProcess} (hcommand : p.command ≠ [])
    (hpairs : ∀ pair ∈ p.environment, '=' ∈ pair.toList) :
    ∃ spec, p.spec = .ok spec ∧ p.Describes spec := by
  obtain ⟨program, arguments, hwords⟩ := List.exists_cons_of_ne_nil hcommand
  by_cases hnone : p.environment = []
  · refine ⟨⟨p.directory, program, arguments, none⟩, ?_, rfl, hwords, by simp [hnone], nofun⟩
    simp only [spec, hwords, if_pos hnone]
    rfl
  · obtain ⟨dictionary, hmade, hvalues⟩ := exists_environmentOf hpairs
    refine ⟨⟨p.directory, program, arguments, some dictionary⟩, ?_, rfl, hwords, by simp [hnone], ?_⟩
    · simp only [spec, hwords, if_neg hnone, hmade]
      rfl
    · intro other hother
      cases hother
      exact hvalues

/-! ### Requests -/

/-- A process that cannot be asked for is not, and the command fails. -/
theorem Context.run_createProcess_of_error {c : Context} {p : NewProcess} {desk : Desk} {id : String}
    {fault : CommandFault} (hfinds : c.Finds desk id) (hspec : p.spec = .error fault) :
    ((c.createProcess p).run.run desk).1 = .error fault := by
  rw [createProcess, Task.run_bind, hfinds.run]
  simp only [Task.run_bind, Task.run_orElse, hspec]
  rfl

/-- If the address that a process is asked for at is refused, the command fails. -/
theorem Context.run_createProcess_of_refused {c : Context} {p : NewProcess} {desk : Desk}
    {id : String} {spec : ProcessSpec} (hfinds : c.Finds desk id) (hspec : p.spec = .ok spec)
    (hrefused : ¬desk.network.transport.Takes c.client (.workspace id (.createProcess p.name spec))) :
    ∃ fault, ((c.createProcess p).run.run desk).1 = .error fault := by
  obtain ⟨fault, hfault⟩ := Task.run_perform_of_refused
    (desk.after c.client [.service .describeWorkspaces]) hrefused fun made : String =>
      Task.print [doneLine "Created process" p.name ++
        [.plain " (", .styled .dimmed made, .plain ")"]]
  refine ⟨fault, ?_⟩
  rw [createProcess, Task.run_bind, hfinds.run]
  simp only [Task.run_bind, Task.run_orElse, hspec]
  exact congrArg Prod.fst hfault

/-- A request for a process of a workspace: it goes where components are created, its body has the
name given and says that the component is a process, and the specification in it is read back as what
is described. A lawful transport has it read back as the call. -/
structure NewProcess.AskedBy (p : NewProcess) (client : Client) (transport : Transport) (id : String)
    (request : Request) : Prop where
  url : transport (client.url "/workspace/create-component" [("id", id)]) = .ok request.url
  body : ∃ (component : ComponentRequest) (spec : ProcessSpec),
    record? request.body = some component ∧ component.name = p.name ∧
    component.type = "process" ∧ Codec.read component.spec = .ok spec ∧ p.Describes spec ∧
    (transport.Lawful → '#' ∉ client.baseUrl.toList →
      Call.ofRequest? request = some (.workspace id (.createProcess p.name spec)))

/-- The request for a process is one for it. -/
theorem NewProcess.askedBy_of_request? {p : NewProcess} {client : Client} {transport : Transport}
    {id : String} {spec : ProcessSpec} {request : Request} (hdescribes : p.Describes spec)
    (hrequest : client.request? transport (.workspace id (.createProcess p.name spec)) =
      some request) : p.AskedBy client transport id request := by
  have hread := fun hlawful hbase => Client.read_request hlawful hbase hrequest
  unfold Client.request? at hrequest
  split at hrequest
  · rename_i url hurl
    cases hrequest
    exact ⟨hurl, ⟨p.name, processComponent, Codec.render spec⟩, spec,
      WorkspaceCall.record?_createProcess p.name spec, rfl, rfl,
      ProcessSpec.read_of_reordered (.refl _), hdescribes, hread⟩
  · cases hrequest

/-- **A process is asked for as it is described, or not at all.** Once the workspace is known, which
takes one request, a pair without an equals sign fails the command, wherever the pair stands, and no
component is asked for. Otherwise one component is asked for and nothing else: it has the name given
and is a process, and its specification is read back as what is described. Only if the transport
refuses the address for that, nothing more is sent, and the command fails. All that goes for a run
whose words describe the process. -/
theorem run_createProcess_as_described {invocation : Invocation} {p : NewProcess}
    {surroundings : Surroundings} {transport : Transport} {script : List Answer}
    {workspaces : List WorkspaceDescription} {id : String}
    (hcommand : invocation.command = .createProcess p) (hwords : p.command ≠ [])
    (hvalid : invocation.settings.validate = .ok ())
    (hlists : invocation.settings.client.lists (.new transport script) = .ok workspaces)
    (hmeant : Meant surroundings invocation.settings.workspace workspaces id) :
    let client := invocation.settings.client
    let report := invocation.report surroundings (.new transport script)
    ∃ listing, client.request? transport (.service .describeWorkspaces) = some listing ∧
    ((∃ pair ∈ p.environment, '=' ∉ pair.toList) → report.exit = 1 ∧ report.sent = [listing]) ∧
    ((∀ pair ∈ p.environment, '=' ∈ pair.toList) →
      (∃ creating, report.sent = [listing, creating] ∧ p.AskedBy client transport id creating) ∨
      ((∃ reason, transport (client.url "/workspace/create-component" [("id", id)]) =
        .error reason) ∧ report.exit = 1 ∧ report.sent = [listing])) ∧
    ∀ environment words, parse environment words = .ok invocation →
      run environment surroundings (.new transport script) words = report := by
  intro client report
  let c : Context := ⟨invocation.settings, client, surroundings⟩
  let start : Desk := ⟨.new transport script, []⟩
  have hfinds : c.Finds start id := Context.finds_of_meant hlists hmeant
  have hexit : report.exit = exitOf ((c.createProcess p).run.run start).1 := by
    rw [show report = _ from Invocation.report_of_valid hvalid surroundings _, exit_reportOf, hcommand]
    rfl
  obtain ⟨listing, hlisting⟩ := hfinds.takes.exists_request?
  obtain ⟨calls, hsent, hconduct⟩ := Invocation.report_conducts hvalid surroundings transport script
  -- What is sent is the request for the workspaces and then those for the process.
  rw [hcommand] at hconduct
  obtain ⟨more, ⟨hmore, hnothing⟩, rfl⟩ := Scoped.calls_of_meant hconduct hlists hmeant
  have hfirst : report.sent = listing :: client.requests transport (more.map (.workspace id)) :=
    hsent.trans (List.filterMap_cons_some hlisting)
  refine ⟨listing, hlisting, ?_, ?_, fun environment words hparse =>
    run_eq_report hparse surroundings _⟩
  · intro hpair
    obtain ⟨fault, hspec⟩ := NewProcess.spec_eq_error hpair
    refine ⟨hexit.trans (congrArg exitOf (Context.run_createProcess_of_error hfinds hspec)), ?_⟩
    rw [hfirst, hnothing hpair]
    rfl
  · intro hpairs
    obtain ⟨spec, hspec, hdescribes⟩ := NewProcess.exists_spec hwords hpairs
    have hcreate : more = [.createProcess p.name spec] := by rw [hmore, NewProcess.calls, hspec]
    rw [hcreate] at hfirst
    -- The address tells whether it is sent, and it does not depend on the specification.
    by_cases htakes : transport.Takes client (.workspace id (.createProcess p.name spec))
    · obtain ⟨creating, hcreating⟩ := htakes.exists_request?
      refine .inl ⟨creating, ?_, NewProcess.askedBy_of_request? hdescribes hcreating⟩
      rw [hfirst]
      exact congrArg (listing :: ·) (List.filterMap_cons_some hcreating)
    · obtain ⟨fault, hfault⟩ := Context.run_createProcess_of_refused hfinds hspec htakes
      refine .inr ⟨Transport.not_takes_iff.mp htakes, hexit.trans (congrArg exitOf hfault), ?_⟩
      rw [hfirst]
      exact congrArg (listing :: ·) (Client.requests_of_refused htakes)

/-! A run: of two values for one key the last counts, in which there is another equals sign. -/

def describedProcess : NewProcess where
  name := "web"
  directory := some "app"
  environment := ["PORT=3000", "=", "PORT=\"a=b\""]
  command := ["npm", "run", "dev"]

def processWords : List String :=
  ["--url", "https://host/", "process", "create", "web", "--directory", "app", "-e", "PORT=3000",
    "-e", "=", "-e", "PORT=\"a=b\"", "--", "npm", "run", "dev"]

def creatingProcess : Invocation where
  settings := ⟨"https://host/", none, 1000, 250, none⟩
  command := .createProcess describedProcess

theorem run_createProcess_of_processWords :
    parse .empty processWords = .ok creatingProcess ∧
    creatingProcess.settings.validate = .ok () ∧
    ∃ (listing creating : Request) (component : ComponentRequest) (spec : ProcessSpec)
      (dictionary : Dictionary String),
      (run .empty smallContext.surroundings (.new .plain [workspaceListing]) processWords).sent =
        [listing, creating] ∧
      creating.url = "https://host/workspace/create-component?id=w" ∧
      record? creating.body = some component ∧ component.name = "web" ∧
      Codec.read component.spec = .ok spec ∧ spec.program = "npm" ∧
      spec.environment = some dictionary ∧ dictionary.get? "PORT" = some "\"a=b\"" ∧
      dictionary.get? "" = some "" := by
  have hparse : parse .empty processWords = .ok creatingProcess := ok_of_toOption (by decide +kernel)
  have hvalid : creatingProcess.settings.validate = .ok () := ok_of_toOption (by decide +kernel)
  have hlists : creatingProcess.settings.client.lists (.new .plain [workspaceListing]) =
      .ok [⟨"w", "/"⟩] := ok_of_toOption (by decide +kernel)
  have hmeant : resolve smallContext.surroundings none [⟨"w", "/"⟩] = .ok "w" :=
    ok_of_toOption (by decide +kernel)
  have htaken : Transport.plain (creatingProcess.settings.client.url "/workspace/create-component"
      [("id", "w")]) = .ok "https://host/workspace/create-component?id=w" :=
    ok_of_toOption (by decide +kernel)
  obtain ⟨listing, -, -, hsends, hruns⟩ := run_createProcess_as_described rfl (by decide) hvalid
    hlists (resolve_eq_ok_iff.mp hmeant)
  obtain ⟨creating, hsent, hasked⟩ | ⟨⟨reason, hreason⟩, -⟩ := hsends (by decide)
  case inr => cases htaken.symm.trans hreason
  obtain ⟨component, spec, hbody, hname, -, hread, hdescribes, -⟩ := hasked.body
  rw [← hruns _ _ hparse] at hsent
  have henvironment : spec.environment ≠ none := by
    rw [ne_eq, hdescribes.environment_eq_none]
    decide
  obtain ⟨dictionary, hdictionary⟩ := Option.ne_none_iff_exists'.mp henvironment
  have hprogram : ["npm", "run", "dev"] = spec.program :: spec.arguments := hdescribes.command
  refine ⟨hparse, hvalid, listing, creating, component, spec, dictionary, hsent,
    Except.ok.inj (hasked.url.symm.trans htaken), hbody, hname, hread,
    (List.cons.inj hprogram).1.symm, hdictionary, ?_, ?_⟩
  · refine (hdescribes.get? hdictionary _ _).mpr ⟨["PORT=3000", "="], "PORT=\"a=b\"", [], rfl, ?_, ?_⟩
    · exact ⟨by decide, by decide⟩
    · exact List.forall_mem_nil _
  · refine (hdescribes.get? hdictionary _ _).mpr ⟨["PORT=3000"], "=", ["PORT=\"a=b\""], rfl, ?_, ?_⟩
    · exact ⟨by decide, by decide⟩
    · intro other hother later hbinds
      cases List.mem_singleton.mp hother
      exact absurd hbinds.2 (by simp)

end WorkspaceControl.Cli
