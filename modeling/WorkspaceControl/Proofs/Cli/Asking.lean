import WorkspaceControl.Proofs.Cli.Ending

/-!
# What printing logs asks for

The events that printing logs asks for are settled by the logs that are named and by the pages that
have come. Before anything is printed each log named is asked for together with those named before
it, from the beginning (`firstRequests`); and each poll asks for all of them, from where the latest
page has led to (`pollRequests`), however many polls have failed since.

That a store has come as far as the names and the answers that it was given (`Reached`) is kept by a
poll whether it brings a page or not, so it holds of all polls (`Follows.after_eq`).
-/

namespace WorkspaceControl.Cli

open Rpc Logs

/-! ### Polls -/

/-- What so many polls ask for after some answers: each time all logs named, from where the latest
page has led to. -/
def pollRequests (names : List String) (answers polls : List Answer) (count : Nat) :
    List EventsRequest :=
  (List.range count).map fun k =>
    ⟨names.eraseDups, some (.after (latestCursor (answers ++ polls.take k)))⟩

theorem pollRequests_succ (names : List String) (answers : List Answer) (poll : Answer)
    (polls : List Answer) (count : Nat) :
    pollRequests names answers (poll :: polls) (count + 1) =
      ⟨names.eraseDups, some (.after (latestCursor answers))⟩ ::
        pollRequests names (answers ++ [poll]) polls count := by
  simp [pollRequests, List.range_succ_eq_map]

variable {source : Source} {store : Store} {desk : Desk} {names : List String}
  {answers polls : List Answer}

/-- A poll asks for all logs named, from where the latest page has led to, and takes the next
answer; what it leaves has come as far as that one too, whether it is a page or not. -/
theorem Reached.poll {store left : Store} {between : Desk} {result : Except Failure Unit}
    (hreached : Reached store names answers) (h : source.AnsweredFrom polls desk.network)
    (hrun : (runStore source (.refresh false) store).run.run desk = (.ok (result, left), between)) :
    between.network = desk.network.after source.client (eventsCalls source.workspace
        [⟨names.eraseDups, some (.after (latestCursor answers))⟩]) ∧
      source.AnsweredFrom polls.tail between.network ∧
      result = (nextAnswer polls).page.map (fun _ => ()) ∧
      Reached left names (answers ++ [nextAnswer polls]) := by
  have hfetch := run_runStore source (.refresh false) store desk
  rw [hreached.request_refresh, h.page_eq] at hfetch
  cases hrun.symm.trans hfetch
  refine ⟨rfl, h.after _, rfl, ?_⟩
  cases hpage : (nextAnswer polls).page with
  | ok page => exact hreached.page hpage false
  | error failure => exact hreached.failure hpage

/-- A poll that is not refused as faulty took an answer of the script. -/
theorem exists_cons_of_result {result : Except Failure Unit}
    (hresult : result = (nextAnswer polls).page.map fun _ => ())
    (h : ∀ failure, result = .error failure → failure.isClientError = false) :
    ∃ poll rest, polls = poll :: rest := by
  subst hresult
  apply exists_cons_of_not_refused
  unfold Answer.refused
  cases hpage : (nextAnswer polls).page with
  | ok page => rfl
  | error failure => exact h failure (by rw [hpage]; rfl)

/-- **Every poll asks for all logs named, from where the latest page has led to.** The induction is
on the polls, each of which leaves a store that has come as far as its answer. -/
theorem Follows.after_eq {count : Nat} {last : Option String} {fault : CommandFault} {after : Desk}
    (hfollows : Follows source count store last desk fault after)
    (hreached : Reached store names answers) (h : source.AnsweredFrom polls desk.network) :
    after.network = desk.network.after source.client
      (eventsCalls source.workspace (pollRequests names answers polls count)) := by
  induction hfollows generalizing answers polls with
  | stop hrun hfault =>
      obtain ⟨hasked, -⟩ := hreached.poll h hrun
      simpa [pollRequests] using hasked
  | @again _ _ _ _ _ _ _ failure _ hrun hfault _ ih =>
      obtain ⟨hasked, hleft, hresult, hcame⟩ := hreached.poll h hrun
      obtain ⟨poll, polls, rfl⟩ := exists_cons_of_result hresult fun other hother => by
        cases hother
        exact hfault
      -- A failure leaves the cursor, and the next poll asks from the same place.
      rw [pollRequests_succ, eventsCalls_cons, ← Network.after_after, ← hasked]
      exact ih hcame hleft
  | page hrun hprint _ ih =>
      obtain ⟨hasked, hleft, hresult, hcame⟩ := hreached.poll h hrun
      obtain ⟨poll, polls, rfl⟩ := exists_cons_of_result hresult fun other hother => by
        cases hother
      obtain ⟨newest, lines, hnew⟩ := exists_run_printNew _ _ _
      cases hprint.symm.trans hnew
      rw [pollRequests_succ, eventsCalls_cons, ← Network.after_after, ← hasked]
      exact ih hcame hleft

/-- The answer that a script gives that is used up is refused, so it ends polls where they end. -/
theorem takeWhile_concat_exhausted (polls : List Answer) :
    ((polls ++ [Answer.exhausted]).takeWhile fun poll => !poll.refused) =
      polls.takeWhile fun poll => !poll.refused := by
  induction polls with
  | nil => simp [Answer.refused_exhausted]
  | cons poll polls ih => simp only [List.cons_append, List.takeWhile_cons, ih]

/-- One poll is made after the other up to the first that is refused. -/
theorem run_follow_of_reached (hreached : Reached store names answers)
    (h : source.AnsweredFrom polls desk.network) (last : Option String) :
    ∃ fault left, left.network = desk.network.after source.client (eventsCalls source.workspace
        (pollRequests names answers polls
          ((polls.takeWhile fun poll => !poll.refused).length + 1))) ∧
      (follow source (fetchesLeft desk.network) store last).run.run desk = (.error fault, left) := by
  obtain ⟨before, stop, rest, status, message, left, hsplit, hbefore, hfinds, -, hfollows⟩ :=
    exists_follows h store last
  have hcount : (polls.takeWhile fun poll => !poll.refused) = before := by
    rw [← takeWhile_concat_exhausted]
    exact takeWhile_eq_of_split hsplit hbefore (Answer.refused_iff.mpr ⟨status, message, hfinds⟩)
  -- A fetch is left for every answer, and one more for the refusal behind them.
  have hlimit : before.length + 1 ≤ fetchesLeft desk.network := by
    have hlength := congrArg List.length hsplit
    simp only [List.length_append, List.length_cons, List.length_nil] at hlength
    rw [fetchesLeft, h.script]
    omega
  refine ⟨_, left, ?_, follow_eq_error_iff.mpr ⟨before.length + 1, hlimit, hfollows⟩⟩
  rw [hcount]
  exact hfollows.after_eq hreached h

/-! ### The command -/

variable {c : Context} {id : String} {listing : Answer}

/-- A first fetch that fails is the last thing that the command does. -/
theorem Context.run_tailLogs_of_failure {before rest : List Answer} {failure : Failure}
    (hfinds : c.Finds desk id) (hreach : (Source.mk c.client id).Reaches desk.network.transport)
    (hscript : desk.network.script = listing :: (before ++ rest))
    (hlogs : before.length < (firstRequests names).length)
    (hpages : ∀ answer ∈ before, ∃ page, answer.page = .ok page)
    (hfailure : (nextAnswer rest).page = .error failure) (following : Bool) :
    ∃ fault, (c.tailLogs names following).run.run desk =
      (.error fault, desk.after c.client (.service .describeWorkspaces ::
        eventsCalls id ((firstRequests names).take (before.length + 1)))) := by
  obtain ⟨fault, hfails⟩ := run_fetchFirst_of_failure c.settings.logBufferSize hlogs hpages hfailure
    (hfinds.answeredFrom hreach hscript)
  rw [Desk.after_after] at hfails
  refine ⟨fault, ?_⟩
  rw [tailLogs, Task.run_bind, hfinds.run]
  simp only [Task.run_bind, hfails]
  rfl

/-- Once every first fetch has brought a page, all that following adds is its polls. -/
theorem Context.run_tailLogs_of_polls {startup polls : List Answer} {earlier : List EventsPage}
    {first : EventsPage} (hfinds : c.Finds desk id)
    (hreach : (Source.mk c.client id).Reaches desk.network.transport)
    (hscript : desk.network.script = listing :: (startup ++ polls))
    (hlogs : startup.length = (firstRequests names).length)
    (hpages : startup.map Answer.page = (earlier ++ [first]).map .ok) :
    ∃ fault left, left.network = desk.network.after c.client (.service .describeWorkspaces ::
        eventsCalls id (firstRequests names ++ pollRequests names startup polls
          ((polls.takeWhile fun poll => !poll.refused).length + 1))) ∧
      (c.tailLogs names true).run.run desk = (.error fault, left) := by
  obtain ⟨store, hfilled, -, hpolls, hrun⟩ :=
    run_tailLogs_of_pages hfinds hreach hscript hlogs hpages true
  let kept := Store.lastOf c.settings.logBufferSize first.events
  let between : Desk := ⟨desk.network.after c.client
    (.service .describeWorkspaces :: eventsCalls id (firstRequests names)),
    desk.printed ++ kept.map eventLine⟩
  have hpolls : (Source.mk c.client id).AnsweredFrom polls between.network := hpolls
  obtain ⟨fault, left, hleft, hstops⟩ :=
    run_follow_of_reached hfilled.toReached hpolls (newest none kept)
  refine ⟨fault, left, ?_, hrun.trans hstops⟩
  rw [hleft, eventsCalls_append]
  exact Network.after_after desk.network c.client _ _

/-- If the address of the fetches is refused, the command ends when the workspace is known. -/
theorem Context.run_tailLogs_of_refused (hfinds : c.Finds desk id)
    (hrefused : ¬(Source.mk c.client id).Reaches desk.network.transport) (names : List String)
    (following : Bool) :
    ∃ fault, (c.tailLogs names following).run.run desk =
      (.error fault, desk.after c.client [.service .describeWorkspaces]) := by
  have hleft : ¬(Source.mk c.client id).Reaches
      (desk.after c.client [.service .describeWorkspaces]).network.transport := hrefused
  obtain ⟨fault, hfails⟩ := run_fetchFirst_of_refused names c.settings.logBufferSize hleft
  refine ⟨fault, ?_⟩
  rw [tailLogs, Task.run_bind, hfinds.run]
  simp only [Task.run_bind, hfails]

/-! ### Whole runs -/

/-- A run has the workspaces listed and then asks one of them for events, each by a request of its own,
and sends nothing else. Over a lawful transport these requests are read back as what is asked for. -/
structure Report.Asks (report : Report) (client : Client) (transport : Transport) (id : String)
    (requests : List EventsRequest) : Prop where
  sent : report.sent.map some =
    (.service .describeWorkspaces :: eventsCalls id requests).map (client.request? transport)
  read : transport.Lawful → '#' ∉ client.baseUrl.toList → report.sent.map Call.ofRequest? =
    (.service .describeWorkspaces :: eventsCalls id requests).map some

/-- What calls have sent whose addresses are all taken is what a run asks for. -/
theorem Report.asks_of_sent {report : Report} {client : Client} {transport : Transport}
    {requests : List EventsRequest} {script : List Answer}
    (hsent : report.sent = ((Network.new transport script).after client
      (.service .describeWorkspaces :: eventsCalls id requests)).sent)
    (hlisting : transport.Takes client (.service .describeWorkspaces))
    (hreach : requests ≠ [] → (Source.mk client id).Reaches transport) :
    report.Asks client transport id requests := by
  -- All fetches go to one address, so they are all taken.
  have hall : ∀ call ∈ .service .describeWorkspaces :: eventsCalls id requests,
      transport.Takes client call := by
    refine List.forall_mem_cons.mpr ⟨hlisting, fun call hcall => ?_⟩
    obtain ⟨request, hmem, rfl⟩ := List.mem_map.mp hcall
    exact hreach (List.ne_nil_of_mem hmem)
  have hrequests : report.sent = client.requests transport
      (.service .describeWorkspaces :: eventsCalls id requests) := hsent
  refine ⟨by rw [hrequests, Client.map_some_requests hall], fun hlawful hbase => ?_⟩
  rw [hrequests, client.read_requests hlawful hbase, List.filter_eq_self.mpr]
  intro call hcall
  obtain ⟨request, hrequest⟩ := (hall call hcall).exists_request?
  rw [hrequest]
  rfl

/-- **What printing logs asks for is settled by the names and the pages.** Once the workspace is
known, all logs are asked for once if none is named; otherwise each log named is asked for in turn,
together with those named before it, each log once and from the beginning. The first of these fetches
that fails is the last, nothing is printed, and the code is 1; and so it is if the address of the
fetches is refused. If none fails, only the page that came last is printed, as much of it as the store
holds at most, each event with its log, its time and its message on a line of its own. Without
following that is all, and the code is 0; with it, every poll asks for all logs named, from where the
latest page has led to, however many polls have failed since. All that goes for a run whose words name
the logs. -/
theorem run_logs_asks {invocation : Invocation} {names : List String} {following : Bool}
    {surroundings : Surroundings} {transport : Transport} {script : List Answer}
    {workspaces : List WorkspaceDescription} {id : String}
    (hcommand : invocation.command = .logs names following)
    (hvalid : invocation.settings.validate = .ok ())
    (hlists : invocation.settings.client.lists (.new transport script) = .ok workspaces)
    (hmeant : Meant surroundings invocation.settings.workspace workspaces id) :
    let client := invocation.settings.client
    let report := invocation.report surroundings (.new transport script)
    (¬(Source.mk client id).Reaches transport →
      report.Asks client transport id [] ∧ report.printed = [] ∧ report.exit = 1) ∧
    ((Source.mk client id).Reaches transport →
      (∀ listing before rest failure, script = listing :: (before ++ rest) →
        before.length < (firstRequests names).length →
        (∀ answer ∈ before, ∃ page, answer.page = .ok page) →
        (nextAnswer rest).page = .error failure →
        report.Asks client transport id ((firstRequests names).take (before.length + 1)) ∧
          report.printed = [] ∧ report.exit = 1) ∧
      ∀ listing startup polls earlier first, script = listing :: (startup ++ polls) →
        startup.length = (firstRequests names).length →
        startup.map Answer.page = (earlier ++ [first]).map .ok →
        (following = false →
          let kept := Store.lastOf invocation.settings.logBufferSize first.events
          report.Asks client transport id (firstRequests names) ∧
          report.printed = kept.map eventLine ∧
          renderLines false report.printed = String.join (kept.map eventText) ∧
          report.exit = 0) ∧
        (following = true →
          report.Asks client transport id (firstRequests names ++ pollRequests names startup polls
            ((polls.takeWhile fun poll => !poll.refused).length + 1)))) ∧
    ∀ environment words, parse environment words = .ok invocation →
      run environment surroundings (.new transport script) words = report := by
  intro client report
  let c : Context := ⟨invocation.settings, invocation.settings.client, surroundings⟩
  let start : Desk := ⟨.new transport script, []⟩
  have hreport : report = reportOf ((c.tailLogs names following).run.run start) := by
    rw [show report = _ from Invocation.report_of_valid hvalid surroundings _, hcommand]
    rfl
  have hfinds : c.Finds start id := Context.finds_of_meant hlists hmeant
  refine ⟨fun hrefused => ?_, fun hreach => ⟨?_, ?_⟩,
    fun environment words hparse => run_eq_report hparse surroundings _⟩
  · obtain ⟨fault, hrun⟩ := Context.run_tailLogs_of_refused hfinds hrefused names following
    rw [hreport, hrun]
    exact ⟨Report.asks_of_sent rfl hfinds.takes nofun, rfl, rfl⟩
  · intro listing before rest failure hscript hlogs hpages hfailure
    obtain ⟨fault, hrun⟩ := Context.run_tailLogs_of_failure hfinds hreach hscript hlogs hpages
      hfailure following
    rw [hreport, hrun]
    exact ⟨Report.asks_of_sent rfl hfinds.takes fun _ => hreach, rfl, rfl⟩
  · intro listing startup polls earlier first hscript hlogs hpages
    rw [hreport]
    constructor
    · rintro rfl
      obtain ⟨store, -, -, -, hrun⟩ :=
        Context.run_tailLogs_of_pages hfinds hreach hscript hlogs hpages false
      rw [hrun]
      exact ⟨Report.asks_of_sent rfl hfinds.takes fun _ => hreach, rfl, renderLines_eventLine _, rfl⟩
    · rintro rfl
      obtain ⟨fault, left, hleft, hstops⟩ :=
        Context.run_tailLogs_of_polls hfinds hreach hscript hlogs hpages
      have hrun : (c.tailLogs names true).run.run start = _ := hstops
      rw [hrun]
      exact Report.asks_of_sent (congrArg Network.sent hleft) hfinds.takes fun _ => hreach

/-! Three runs that name a log twice. Two follow: in one the second fetch gets no answer; in the other
five polls fail, then one brings a page, and the next is refused. The third does not follow, and keeps
only one event of a page with two. -/

def repeatedWords : List String := ["--url", "https://host/", "logs", "web", "web", "db", "-f"]

def repeating : Invocation where
  settings := ⟨"https://host/", none, 1000, 250, none⟩
  command := .logs ["web", "web", "db"] true

def narrowWords : List String :=
  ["--url", "https://host/", "--log-buffer-size", "1", "logs", "web", "web", "db"]

def narrow : Invocation where
  settings := ⟨"https://host/", none, 1, 250, none⟩
  command := .logs ["web", "web", "db"] false

def repeatedStartup : List Answer :=
  [responseOf polledPage, responseOf polledPage, responseOf startPage]

theorem run_logs_asks_of_repeatedWords :
    (parse .empty repeatedWords = .ok repeating ∧ parse .empty narrowWords = .ok narrow) ∧
    (repeating.settings.validate = .ok () ∧ narrow.settings.validate = .ok ()) ∧
    (let report := run .empty smallContext.surroundings
      (.new .plain (workspaceListing :: ([responseOf startPage] ++ stubbornPolls))) repeatedWords
    report.Asks repeating.settings.client .plain "w"
        [⟨["web"], some (.after none)⟩, ⟨["web"], some (.after none)⟩] ∧
      report.printed = [] ∧ report.exit = 1) ∧
    (run .empty smallContext.surroundings
      (.new .plain (workspaceListing :: (repeatedStartup ++ stubbornPolls))) repeatedWords).Asks
      repeating.settings.client .plain "w" ([⟨["web"], some (.after none)⟩,
        ⟨["web"], some (.after none)⟩, ⟨["web", "db"], some (.after none)⟩] ++
        [some "x", some "x", some "x", some "x", some "x", some "y"].map fun cursor =>
          ⟨["web", "db"], some (.after cursor)⟩) ∧
    let report := run .empty smallContext.surroundings
      (.new .plain (workspaceListing :: (repeatedStartup ++ []))) narrowWords
    report.Asks narrow.settings.client .plain "w" [⟨["web"], some (.after none)⟩,
        ⟨["web"], some (.after none)⟩, ⟨["web", "db"], some (.after none)⟩] ∧
      report.printed = [eventLine (notedEvent "b")] ∧
      renderLines false report.printed = "web 12:00 b\n" ∧ report.exit = 0 := by
  have hparse : parse .empty repeatedWords = .ok repeating := ok_of_toOption (by decide +kernel)
  have hnarrow : parse .empty narrowWords = .ok narrow := ok_of_toOption (by decide +kernel)
  have hvalid : repeating.settings.validate = .ok () := ok_of_toOption (by decide +kernel)
  have hproper : narrow.settings.validate = .ok () := ok_of_toOption (by decide +kernel)
  have hcommand : repeating.command = .logs ["web", "web", "db"] true := rfl
  have hprints : narrow.command = .logs ["web", "web", "db"] false := rfl
  have hmeant : Meant smallContext.surroundings none [⟨"w", "/"⟩] "w" :=
    resolve_eq_ok_iff.mp (ok_of_toOption (by decide +kernel))
  have hreach : (Source.mk repeating.settings.client "w").Reaches .plain := by decide +kernel
  have hpolled : (responseOf polledPage).page = .ok polledPage := ok_of_toOption (by decide +kernel)
  have hpages : repeatedStartup.map Answer.page =
      ([polledPage, polledPage] ++ [startPage]).map .ok := by
    simp [repeatedStartup, hpolled, page_startPage]
  refine ⟨⟨hparse, hnarrow⟩, ⟨hvalid, hproper⟩, ?_, ?_, ?_⟩
  · have hlists : repeating.settings.client.lists (.new .plain
        (workspaceListing :: ([responseOf startPage] ++ stubbornPolls))) = .ok [⟨"w", "/"⟩] :=
      ok_of_toOption (by decide +kernel)
    obtain ⟨-, hreached, hruns⟩ := run_logs_asks hcommand hvalid hlists hmeant
    rw [hruns _ _ hparse]
    exact (hreached hreach).1 workspaceListing [responseOf startPage] stubbornPolls
      (.requestFailed "timed out") rfl (by decide)
      (List.forall_mem_singleton.mpr ⟨startPage, page_startPage⟩) rfl
  · have hlists : repeating.settings.client.lists (.new .plain
        (workspaceListing :: (repeatedStartup ++ stubbornPolls))) = .ok [⟨"w", "/"⟩] :=
      ok_of_toOption (by decide +kernel)
    obtain ⟨-, hreached, hruns⟩ := run_logs_asks hcommand hvalid hlists hmeant
    rw [hruns _ _ hparse]
    have hasked := ((hreached hreach).2 workspaceListing repeatedStartup stubbornPolls
      [polledPage, polledPage] startPage rfl rfl hpages).2 rfl
    have hpolls : pollRequests ["web", "web", "db"] repeatedStartup stubbornPolls
        ((stubbornPolls.takeWhile fun poll => !poll.refused).length + 1) =
          [some "x", some "x", some "x", some "x", some "x", some "y"].map fun cursor =>
            ⟨["web", "db"], some (.after cursor)⟩ := by
      decide +kernel
    rw [hpolls] at hasked
    exact hasked
  · have hlists : narrow.settings.client.lists (.new .plain
        (workspaceListing :: (repeatedStartup ++ []))) = .ok [⟨"w", "/"⟩] :=
      ok_of_toOption (by decide +kernel)
    obtain ⟨-, hreached, hruns⟩ := run_logs_asks hprints hproper hlists hmeant
    rw [hruns _ _ hnarrow]
    obtain ⟨hasked, hprinted, htext, hexit⟩ := ((hreached hreach).2 workspaceListing repeatedStartup []
      [polledPage, polledPage] startPage rfl rfl hpages).1 rfl
    exact ⟨hasked, hprinted, htext.trans (by decide +kernel), hexit⟩

end WorkspaceControl.Cli
