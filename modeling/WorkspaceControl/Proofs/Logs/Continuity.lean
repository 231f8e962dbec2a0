import WorkspaceControl.Proofs.Logs.History

/-!
# What a store holds is a block of the service's events

The cursor and the events of a store are changed by different steps, and any of them may come
between the issue of a fetch and its answer. Over an honest service they still fit: **the events
held are a block of the service's sequence for the logs watched, and the block ends where the cursor
stands**. Carried through a run are `Block`, and `Whole` as long as nothing fails.

A `Service` has one sequence of events for each list of logs, which only grows, and gives every
cursor a place in it. It is honest in a run if every page continues its sequence where the fetch
asked it to (`Service.Answers`). Nothing is assumed about failures, or about which replies arrive.
-/

namespace WorkspaceControl.Logs

/-- A service as far as its events go. Moments count the steps of a run. -/
structure Service where
  /-- The events of some logs that the service has at a moment. -/
  sequence : Nat → List String → List LogEvent
  /-- Events are only ever appended. -/
  grows : ∀ moment logs, sequence moment logs <+: sequence (moment + 1) logs
  /-- How many events of some logs lie before a cursor. -/
  position : List String → String → Nat

namespace Service

variable (v : Service)

/-- How many events lie before the place where a fetch goes on. -/
def place (logs : List String) : Option String → Nat
  | none => 0
  | some cursor => v.position logs cursor

/-- A page continues the sequence where the fetch asks it to, and its cursor stands behind it. -/
structure Answers (moment : Nat) (fetch : Fetch) (page : EventsPage) : Prop where
  events : page.events <+: (v.sequence moment fetch.logs).drop (v.place fetch.logs fetch.cursor)
  cursor : v.position fetch.logs page.cursor =
    v.place fetch.logs fetch.cursor + page.events.length

instance (moment : Nat) (fetch : Fetch) (page : EventsPage) :
    Decidable (v.Answers moment fetch page) :=
  decidable_of_iff (_ ∧ _) ⟨fun h => ⟨h.1, h.2⟩, fun h => ⟨h.events, h.cursor⟩⟩

/-- Every page that reaches a call is what the service has at that moment for its fetch. -/
def Honest (s : Session) (events : List Event) : Prop :=
  ∀ before number page later, events = before ++ .reply number (.ok page) :: later →
    number ∈ (s.after before).waiting →
    ∀ fetch ∈ s.fetches before, fetch.number = number → v.Answers before.length fetch page

/-- The events up to a store's cursor. -/
def reached (moment : Nat) (s : Store) : List LogEvent :=
  (v.sequence moment s.watched).take (v.place s.watched s.cursor)

/-- The events of a store are a block of the service's that ends at the cursor. -/
structure Block (moment : Nat) (s : Store) : Prop where
  place_le : v.place s.watched s.cursor ≤ (v.sequence moment s.watched).length
  suffix : s.held <:+ v.reached moment s
  length_le : s.held.length ≤ s.capacity

/-- The block is as long as the capacity allows. -/
def Whole (moment : Nat) (s : Store) : Prop := s.held = Store.lastOf s.capacity (v.reached moment s)

variable {v} {moment : Nat} {s t : Store}

/-! ### Honest runs -/

theorem honest_nil (s : Session) : v.Honest s [] := by
  intro before number page later heq
  simp at heq

theorem honest_concat {s : Session} {events : List Event} {event : Event} :
    v.Honest s (events ++ [event]) ↔ v.Honest s events ∧
      ∀ number page, event = .reply number (.ok page) → number ∈ (s.after events).waiting →
        ∀ fetch ∈ s.fetches events, fetch.number = number →
          v.Answers events.length fetch page := by
  constructor
  · intro h
    refine ⟨fun before number page later heq => ?_, fun number page heq => ?_⟩
    · exact h before number page (later ++ [event]) (by rw [heq]; simp)
    · exact h events number page [] (by rw [heq])
  · rintro ⟨hbefore, hlast⟩ before number page later heq
    rcases List.eq_nil_or_concat later with rfl | ⟨later, last, rfl⟩
    · obtain ⟨rfl, hevent⟩ := List.append_inj' heq rfl
      exact hlast number page (List.singleton_inj.mp hevent)
    · have hsplit : events ++ [event] =
          (before ++ .reply number (.ok page) :: later) ++ [last] := by
        rw [heq]
        simp
      exact hbefore before number page later (List.append_inj' hsplit rfl).1

/-! ### What keeps a block -/

/-- Both properties only read the logs, the cursor, the events and the capacity. -/
theorem Block.congr (h : v.Block moment s) (hwatched : t.watched = s.watched)
    (hcursor : t.cursor = s.cursor) (hheld : t.held = s.held)
    (hcapacity : t.capacity = s.capacity) : v.Block moment t where
  place_le := by rw [hwatched, hcursor]; exact h.place_le
  suffix := by rw [reached, hwatched, hcursor, hheld]; exact h.suffix
  length_le := by rw [hheld, hcapacity]; exact h.length_le

theorem Whole.congr (h : v.Whole moment s) (hwatched : t.watched = s.watched)
    (hcursor : t.cursor = s.cursor) (hheld : t.held = s.held)
    (hcapacity : t.capacity = s.capacity) : v.Whole moment t := by
  rw [Whole, reached, hwatched, hcursor, hheld, hcapacity]
  exact h

/-- A store that starts from the beginning holds the empty block there. -/
theorem block_of_fresh (hheld : s.held = []) (hcursor : s.cursor = none) :
    v.Block moment s where
  place_le := by rw [hcursor]; exact Nat.zero_le _
  suffix := by rw [hheld]; exact List.nil_suffix
  length_le := by rw [hheld]; exact Nat.zero_le _

theorem whole_of_fresh (hheld : s.held = []) (hcursor : s.cursor = none) :
    v.Whole moment s := by
  simp [Whole, reached, hheld, hcursor, place, Store.lastOf]

/-- What the service appends lies behind the cursor. -/
theorem Block.reached_succ (h : v.Block moment s) :
    v.reached (moment + 1) s = v.reached moment s := by
  obtain ⟨more, hmore⟩ := v.grows moment s.watched
  rw [reached, reached, ← hmore, List.take_append_of_le_length h.place_le]

theorem Block.succ (h : v.Block moment s) : v.Block (moment + 1) s where
  place_le := Nat.le_trans h.place_le (v.grows moment s.watched).length_le
  suffix := by rw [h.reached_succ]; exact h.suffix
  length_le := h.length_le

/-- A page that answers what the store wants now takes the cursor right behind it. -/
theorem reached_add {page : EventsPage} {number : Nat}
    (hpage : v.Answers moment ⟨number, s.watched, s.cursor⟩ page) :
    v.reached moment (s.add page) = v.reached moment s ++ page.events := by
  have hplace : v.place (s.add page).watched (s.add page).cursor =
      v.place s.watched s.cursor + page.events.length := hpage.cursor
  have hevents := List.prefix_iff_eq_take.mp hpage.events
  rw [reached, hplace, Store.watched_add, List.take_add, ← hevents]
  rfl

theorem Block.add (h : v.Block moment s) {page : EventsPage} {number : Nat}
    (hpage : v.Answers moment ⟨number, s.watched, s.cursor⟩ page) :
    v.Block moment (s.add page) where
  place_le := by
    have hplace : v.place (s.add page).watched (s.add page).cursor =
        v.place s.watched s.cursor + page.events.length := hpage.cursor
    have hlength := hpage.events.length_le
    have hle := h.place_le
    rw [List.length_drop] at hlength
    rw [hplace, Store.watched_add]
    simp only at hlength
    omega
  suffix := by
    rw [reached_add hpage, Store.held_add]
    obtain ⟨front, hfront⟩ := h.suffix
    refine (List.drop_suffix _ _).trans ⟨front, ?_⟩
    rw [← List.append_assoc, hfront]
  length_le := by
    rw [Store.held_add, Store.length_lastOf]
    exact Nat.min_le_left _ _

/-- Events that left the store do not come back, so cutting page by page keeps what cutting once
would. -/
theorem Whole.add (h : v.Whole moment s) {page : EventsPage} {number : Nat}
    (hpage : v.Answers moment ⟨number, s.watched, s.cursor⟩ page) :
    v.Whole moment (s.add page) := by
  rw [Whole, reached_add hpage, Store.held_add, h, Store.capacity_add]
  exact Store.lastOf_lastOf_append _ _ _

/-- A failure loses the events but not the place. -/
theorem Block.fail (h : v.Block moment s) (message : String) :
    v.Block moment { s with events := .error message } where
  place_le := h.place_le
  suffix := List.nil_suffix
  length_le := Nat.zero_le _

/-! ### Steps -/

/-- What a store holds after a call from the beginning is started. -/
theorem fresh_start {call : Call} (h : call.fromStart = true) (s : Store) :
    (call.start s).2.held = [] ∧ (call.start s).2.cursor = none := by
  simp [Call.start, h]

theorem Block.start (h : v.Block moment s) (call : Call) : v.Block moment (call.start s).2 := by
  cases hstart : call.fromStart with
  | true =>
      obtain ⟨hheld, hcursor⟩ := fresh_start hstart s
      exact block_of_fresh hheld hcursor
  | false =>
      rw [Call.start, Call.prepare_of_not_fromStart hstart, hstart]
      exact h.congr rfl rfl (by simp) rfl

theorem Whole.start (h : v.Whole moment s) (call : Call) : v.Whole moment (call.start s).2 := by
  cases hstart : call.fromStart with
  | true =>
      obtain ⟨hheld, hcursor⟩ := fresh_start hstart s
      exact whole_of_fresh hheld hcursor
  | false =>
      rw [Call.start, Call.prepare_of_not_fromStart hstart, hstart]
      exact h.congr rfl rfl (by simp) rfl

/-- The page that ends the fetch issued last answers what the store wants now. -/
theorem answers_of_coherent {session : Session} {issued : List Fetch} {page : EventsPage}
    (h : session.Coherent issued) (hmem : session.store.latest ∈ session.waiting)
    (hpages : ∀ fetch ∈ issued, fetch.number = session.store.latest →
      v.Answers moment fetch page) :
    v.Answers moment ⟨session.store.latest, session.store.watched, session.store.cursor⟩ page := by
  obtain ⟨⟨number, logs, cursor⟩, hlast, hnumber, hlogs, hcursor⟩ := h.asked hmem
  have hpage := hpages _ (List.mem_of_getLast? hlast) hnumber
  simp only at hnumber hlogs hcursor
  rw [← hnumber, ← hlogs, ← hcursor]
  exact hpage

/-- What a step of an honest run keeps, it keeps when a call is started, when a page is added that
answers the store, and when a failure is shown. -/
theorem step_keeps {P : Store → Prop} {session : Session} {issued : List Fetch} {event : Event}
    (h : P session.store) (hcoherent : session.Coherent issued)
    (hpages : ∀ number page, event = .reply number (.ok page) → number ∈ session.waiting →
      ∀ fetch ∈ issued, fetch.number = number → v.Answers moment fetch page)
    (hstart : ∀ call : Call, P (call.start session.store).2)
    (hadd : ∀ number page,
      v.Answers moment ⟨number, session.store.watched, session.store.cursor⟩ page →
        P (session.store.add page))
    (hfail : ∀ failure : Rpc.Failure,
      (session.step event).2.store = { session.store with events := .error failure.message } →
        P { session.store with events := .error failure.message }) :
    P (session.step event).2.store := by
  rcases session.step_cases event with ⟨call, rfl⟩ | ⟨reply, rfl, hmem⟩ | hquiet
  · exact hstart call
  · rw [Session.step_reply_latest hmem] at hfail ⊢
    cases reply with
    | ok page =>
        rw [Store.complete_latest_ok]
        exact hadd _ page (answers_of_coherent hcoherent hmem (hpages _ page rfl hmem))
    | error failure =>
        rw [Store.complete_latest_error] at hfail ⊢
        exact hfail failure rfl
  · rw [hquiet.store]
    exact h

/-! ### Runs -/

/-- Every store that an honest run reaches holds a block. -/
theorem block_after {capacity : Nat} {events : List Event}
    (h : v.Honest (.new capacity) events) :
    v.Block events.length ((Session.new capacity).after events).store := by
  induction events using List.reverseRecOn with
  | nil => exact block_of_fresh rfl rfl
  | append_singleton events event ih =>
      obtain ⟨hbefore, hpages⟩ := honest_concat.mp h
      have hblock := ih hbefore
      rw [Session.after_concat, List.length_append]
      refine Block.succ (step_keeps hblock (Session.coherent_after capacity events) hpages
        hblock.start (fun number page => hblock.add) (fun failure _ => hblock.fail _))

/-- A run that has not begun, or whose last step starts from the beginning. -/
def Restarted (events : List Event) : Prop :=
  events = [] ∨ ∃ earlier call, events = earlier ++ [.start call] ∧ call.fromStart = true

/-- Since a restart the block stays as long as it can be until a failure is shown. -/
theorem whole_after {capacity : Nat} {before later : List Event} (hrestart : Restarted before)
    (h : v.Honest (.new capacity) (before ++ later))
    (hstage : ∀ part, part <+: later →
      ((Session.new capacity).after (before ++ part)).store.events.stage ≠ .error) :
    v.Whole (before ++ later).length ((Session.new capacity).after (before ++ later)).store := by
  induction later using List.reverseRecOn with
  | nil =>
      rw [List.append_nil]
      rcases hrestart with rfl | ⟨earlier, call, rfl, hcall⟩
      · exact whole_of_fresh rfl rfl
      · rw [Session.after_concat]
        obtain ⟨hheld, hcursor⟩ :=
          fresh_start hcall ((Session.new capacity).after earlier).store
        exact whole_of_fresh hheld hcursor
  | append_singleton later event ih =>
      have hlast := hstage _ (List.prefix_refl _)
      rw [← List.append_assoc] at h hlast ⊢
      obtain ⟨hbefore, hpages⟩ := honest_concat.mp h
      have hwhole := ih hbefore fun part hpart =>
        hstage part (hpart.trans (List.prefix_append _ _))
      have hblock := block_after hbefore
      have hcoherent := Session.coherent_after capacity (before ++ later)
      rw [Session.after_concat] at hlast ⊢
      have hnow : v.Whole (before ++ later).length
          (((Session.new capacity).after (before ++ later)).step event).2.store := by
        refine step_keeps hwhole hcoherent hpages hwhole.start (fun number page => hwhole.add) ?_
        intro failure heq
        rw [heq] at hlast
        exact absurd rfl hlast
      have hblocknow := step_keeps hblock hcoherent hpages hblock.start
        (fun number page => hblock.add) (fun failure _ => hblock.fail _)
      rw [Whole, List.length_append, List.length_singleton, hblocknow.reached_succ]
      exact hnow

/-- **Over an honest service a store never has a gap, a repeated event or one of other logs.** In
every state of every run, however the calls overlap, the events held are a block of the service's
sequence for the logs watched now, at most as long as the capacity, and end where the cursor stands.
If no failure has been shown since the last restart, they are all that the capacity leaves of the
events before the cursor. -/
theorem held_block_of_honest (v : Service) (capacity : Nat) (events : List Event)
    (h : v.Honest (.new capacity) events) :
    let s := ((Session.new capacity).after events).store
    let sequence := v.sequence events.length s.watched
    let place := v.place s.watched s.cursor
    place ≤ sequence.length ∧ s.held <:+ sequence.take place ∧ s.held.length ≤ capacity ∧
    ∀ before later, events = before ++ later → Restarted before →
      (∀ part, part <+: later →
        ((Session.new capacity).after (before ++ part)).store.events.stage ≠ .error) →
      s.held = Store.lastOf capacity (sequence.take place) := by
  have hblock := block_after h
  have hcapacity : ((Session.new capacity).after events).store.capacity = capacity :=
    Session.capacity_after (.new capacity) events
  refine ⟨hblock.place_le, hblock.suffix, ?_, ?_⟩
  · exact Nat.le_trans hblock.length_le (Nat.le_of_eq hcapacity)
  · rintro before later rfl hrestart hstage
    have hwhole := whole_after hrestart h hstage
    rw [Whole, hcapacity] at hwhole
    exact hwhole

/-! A service that gets one more event at every moment, and a run over it: the answer to a first
fetch comes when a second one is under way, and a third goes on from there. -/

/-- An event with a given id. -/
def sampleEvent (id : String) : LogEvent := ⟨id, "web", "", ""⟩

/-- A service whose cursors are as long as the place they stand at. -/
def sampleService : Service where
  sequence moment _ := [sampleEvent "1", sampleEvent "2", sampleEvent "3"].take moment
  grows moment _ := List.take_prefix_take_left (Nat.le_succ moment)
  position _ cursor := cursor.length

/-- The calls before the first answer. -/
def sampleCalls : List Event := [.start (.visibility "web" true), .start (.refresh false)]

/-- The first answer comes too late, the other two do not. -/
def sampleRun : List Event :=
  sampleCalls ++ [.reply 1 (.ok ⟨[sampleEvent "1"], "*"⟩)] ++
    [.reply 2 (.ok ⟨[sampleEvent "1", sampleEvent "2"], "**"⟩)] ++ [.start (.refresh false)] ++
    [.reply 3 (.ok ⟨[sampleEvent "3"], "***"⟩)]

theorem held_block_of_sampleRun :
    sampleService.Honest (.new 2) sampleRun ∧
      ((Session.new 2).after sampleRun).store.held = [sampleEvent "2", sampleEvent "3"] := by
  have hcalls : sampleService.Honest (.new 2) sampleCalls :=
    honest_concat.mpr ⟨honest_concat.mpr ⟨honest_nil _, by simp⟩, by simp⟩
  have hhonest : sampleService.Honest (.new 2) sampleRun := by
    refine honest_concat.mpr ⟨honest_concat.mpr ⟨honest_concat.mpr ⟨honest_concat.mpr
      ⟨hcalls, ?_⟩, ?_⟩, by simp⟩, ?_⟩
    · rintro _ _ ⟨⟩
      decide
    · rintro _ _ ⟨⟩
      decide
    · rintro _ _ ⟨⟩
      decide
  have hstages : ∀ count < 6,
      ((Session.new 2).after (sampleRun.take 1 ++ (sampleRun.drop 1).take count)).store.events.stage
        ≠ .error := by
    decide
  obtain ⟨-, -, -, hwhole⟩ := held_block_of_honest sampleService 2 sampleRun hhonest
  refine ⟨hhonest, ?_⟩
  refine hwhole (sampleRun.take 1) (sampleRun.drop 1) rfl (Or.inr ⟨[], _, rfl, rfl⟩) ?_
  intro part hpart
  rw [List.prefix_iff_eq_take.mp hpart]
  exact hstages _ (Nat.lt_succ_of_le hpart.length_le)

end Service

end WorkspaceControl.Logs
