import WorkspaceControl.Proofs.Rpc.Classification

/-!
# Scripts are used up

A request that is sent takes one answer of the script, and a script that is used up finds fault with
every request. So whoever goes on only while no fault is found comes to an end, with one request
more than there are answers at most (`exists_cons_of_not_refused`).

An answer finds fault with a fetch of events in one way only (`Answer.findsFault_of_page`): by a
status from 400 to 499 and a text that is an object with a `message`. Silence, bodies that cannot be
read, pages that do not decode, other statuses and such a status without a message do not.
-/

namespace WorkspaceControl.Rpc

open Wire

/-! ### What is taken -/

/-- Between two moments of a network, so many requests were sent, and as many answers were taken
from the script while there were any. -/
structure Network.Took (before after : Network) (count : Nat) : Prop where
  transport : after.transport = before.transport
  sent : after.sent.length = before.sent.length + count
  script : after.script = before.script.drop count

theorem Network.Took.nothing (network : Network) : network.Took network 0 := ⟨rfl, rfl, rfl⟩

theorem Network.Took.append {before between after : Network} {count more : Nat}
    (h : before.Took between count) (hmore : between.Took after more) :
    before.Took after (count + more) where
  transport := hmore.transport.trans h.transport
  sent := by
    rw [hmore.sent, h.sent]
    omega
  script := by rw [hmore.script, h.script, List.drop_drop]

/-- Calls take as many answers as requests are sent for them. -/
theorem Network.took_after (network : Network) (client : Client) (calls : List Call) :
    network.Took (network.after client calls)
      (client.requests network.transport calls).length where
  transport := rfl
  sent := by rw [sent_after, List.length_append]
  script := network.script_after client calls

/-- A call whose address is taken takes one answer. -/
theorem Network.took_of_takes {network : Network} {client : Client} {call : Call}
    (h : network.transport.Takes client call) : network.Took (network.after client [call]) 1 := by
  have htook := network.took_after client [call]
  rwa [Client.length_requests (List.forall_mem_singleton.mpr h)] at htook

/-! ### Finding fault -/

/-- A response finds fault with a request, and says why: the status is one for that, and the text is
an object with a message. -/
structure Answer.FindsFault (answer : Answer) (status : Nat) (message : String) : Prop where
  refuses : ∃ body, answer = .response status body ∧ Refuses (Body.text body) message
  fault : 400 ≤ status ∧ status < 500

theorem Answer.text_of_fault {status : Nat} (h : 400 ≤ status ∧ status < 500) (body : List UInt8) :
    (response status body).heard = .ok (status, Body.text body) := by
  have hbody : bodiless status = false := by
    simp only [bodiless, decide_eq_false_iff_not]
    omega
  rw [heard, hbody]
  rfl

theorem succeeded_of_fault {status : Nat} (h : 400 ≤ status ∧ status < 500) :
    succeeded status = false := by
  simp only [succeeded, decide_eq_false_iff_not]
  omega

/-- A fetch of events that is told to be at fault is answered so. -/
theorem Answer.findsFault_of_page {answer : Answer} {failure : Failure}
    (h : answer.page = .error failure) (hfault : failure.isClientError = true) :
    ∃ status message, failure = .api status message ∧ answer.FindsFault status message := by
  obtain ⟨status, message, rfl, hstatus⟩ := failure.isClientError_iff.mp hfault
  refine ⟨status, message, rfl, ?_, hstatus⟩
  -- What was asked for makes no difference, so anything will do.
  rw [page, ← Call.hear_getEvents "" ⟨[], none⟩] at h
  cases answer with
  | silence reason => cases h
  | unread received reason => cases h
  | response received body =>
      obtain ⟨-, hreceived, hrefuses⟩ := ((Call.classified_settle _ received _).api_iff
        status message).mp h
      subst hreceived
      rw [(Prod.mk.inj (Except.ok.inj (text_of_fault hstatus body))).2] at hrefuses
      exact ⟨body, rfl, hrefuses⟩

/-- Such an answer refuses a fetch of events with its message. -/
theorem Answer.page_of_findsFault {answer : Answer} {status : Nat} {message : String}
    (h : answer.FindsFault status message) : answer.page = .error (.api status message) := by
  obtain ⟨⟨body, rfl, hrefuses⟩, hstatus⟩ := h
  rw [page, ← Call.hear_getEvents "" ⟨[], none⟩, text_of_fault hstatus body]
  exact Call.settle_of_refuses _ (succeeded_of_fault hstatus) hrefuses

/-- A fetch of events is refused as faulty if and only if the answer finds fault with it. -/
theorem Answer.refused_iff {answer : Answer} :
    answer.refused = true ↔ ∃ status message, answer.FindsFault status message := by
  constructor
  · intro h
    unfold refused at h
    cases hpage : answer.page with
    | ok page =>
        rw [hpage] at h
        cases h
    | error failure =>
        rw [hpage] at h
        obtain ⟨status, message, -, hfinds⟩ := findsFault_of_page hpage h
        exact ⟨status, message, hfinds⟩
  · intro h
    obtain ⟨status, message, hfinds⟩ := h
    rw [refused, page_of_findsFault hfinds]
    exact (Failure.api status message).isClientError_iff.mpr ⟨status, message, rfl, hfinds.fault⟩

theorem Answer.refused_eq_false_iff {answer : Answer} :
    answer.refused = false ↔ ∀ status message, ¬answer.FindsFault status message := by
  rw [← Bool.not_eq_true, refused_iff]
  simp only [not_exists]

/-! ### The end of a script -/

theorem Answer.refused_exhausted : Answer.exhausted.refused = true := by decide +kernel

/-- Once the script is used up every fetch of events is refused, so an answer that does not refuse
is one of the script. -/
theorem exists_cons_of_not_refused {script : List Answer}
    (h : (nextAnswer script).refused = false) : ∃ answer rest, script = answer :: rest := by
  cases script with
  | nil => exact absurd Answer.refused_exhausted (Bool.eq_false_iff.mp h)
  | cons answer rest => exact ⟨answer, rest, rfl⟩

/-- Once the script is used up no call brings anything. -/
theorem exists_cons_of_outcome_eq_ok {script : List Answer} {call : Call} {result : call.Result}
    (h : (nextAnswer script).outcome call = .ok result) :
    ∃ answer rest, script = answer :: rest := by
  cases script with
  | nil =>
      obtain ⟨hstatus, -⟩ := ((call.classified_settle 410 _).ok_iff result).mp h
      cases hstatus
  | cons answer rest => exact ⟨answer, rest, rfl⟩

end WorkspaceControl.Rpc
