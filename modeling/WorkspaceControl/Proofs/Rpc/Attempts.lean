import WorkspaceControl.Proofs.Rpc.Classification

/-!
# Attempts

What a client has tried is told by the calls it made, in their order, and by what was heard of each
(`Client.Attempts`). That goes for calls as well that were never sent, because their addresses were
refused. An attempt is answered if a response came that succeeded and brings the call a result
(`Attempt.Answered`), and a call comes to a result just then (`Attempt.answered_iff`).

Whoever needs every call to be answered makes one after the other up to the first that is not
(`InTurn`).
-/

namespace WorkspaceControl.Rpc

/-- A call that was made, and what was heard of it. -/
structure Attempt where
  call : Call
  heard : Heard

/-- A response came whose status says that the call succeeded, and its text stands for a value that
brings the call a result. -/
def Attempt.Answered (attempt : Attempt) : Prop :=
  ∃ status text value result, attempt.heard = .ok (status, text) ∧ succeeded status = true ∧
    Json.parse text = .ok value ∧ attempt.call.Brings value result

/-- A call comes to a result if and only if it is answered. -/
theorem Attempt.answered_iff (attempt : Attempt) :
    attempt.Answered ↔ ∃ result, attempt.call.hear attempt.heard = .ok result := by
  obtain ⟨call, heard⟩ := attempt
  constructor
  · intro h
    obtain ⟨status, text, value, result, hheard, hstatus, hparse, hbrings⟩ := h
    cases hheard
    exact ⟨result, call.settle_of_brings hstatus hparse hbrings⟩
  · intro h
    obtain ⟨result, hresult⟩ := h
    cases heard with
    | error reason => cases hresult
    | ok response =>
        obtain ⟨status, text⟩ := response
        obtain ⟨hstatus, value, hparse, hbrings⟩ :=
          ((call.classified_settle status text).ok_iff result).mp hresult
        exact ⟨status, text, value, result, rfl, hstatus, hparse, hbrings⟩

/-- Between two moments of a network, a client made some calls one after the other, and this is what
was heard of them. -/
inductive Client.Attempts (client : Client) : Network → List Attempt → Network → Prop
  | nothing (network : Network) : client.Attempts network [] network
  | next (call : Call) (before : Network) {attempts : List Attempt} {after : Network}
      (hmore : client.Attempts ((client.exchange call).run before).2 attempts after) :
      client.Attempts before (⟨call, ((client.exchange call).run before).1⟩ :: attempts) after

section

variable {client : Client}

theorem Client.Attempts.append {before between after : Network} {attempts more : List Attempt}
    (h : client.Attempts before attempts between) (hmore : client.Attempts between more after) :
    client.Attempts before (attempts ++ more) after := by
  induction h with
  | nothing network => exact hmore
  | next call before _ ih => exact .next call before (ih hmore)

/-- The attempt that a call is over a network. -/
def Client.attempt (client : Client) (call : Call) (network : Network) : Attempt :=
  ⟨call, client.hears network call⟩

/-- A call that is made is one attempt. -/
theorem Client.attempts_after (client : Client) (call : Call) (network : Network) :
    client.Attempts network [client.attempt call network] (network.after client [call]) := by
  have hattempt : client.Attempts network _ _ := .next call network (.nothing _)
  rw [exchange_run] at hattempt
  exact hattempt

/-- What becomes of a network by attempts is what becomes of it by their calls. -/
theorem Client.Attempts.after_eq {before after : Network} {attempts : List Attempt}
    (h : client.Attempts before attempts after) :
    after = before.after client (attempts.map Attempt.call) := by
  induction h with
  | nothing network => exact network.after_nil client |>.symm
  | next call before _ ih =>
      rw [ih, exchange_run, Network.after_after]
      rfl

end

/-! ### One call after the other -/

/-- Calls of some kinds are made in turn, each after the one before it was answered. An attempt that
is not answered is the last. -/
inductive InTurn : List (Call → Prop) → List Attempt → Prop
  | done : InTurn [] []
  | failed {kind : Call → Prop} {attempt : Attempt} (hcall : kind attempt.call)
      (h : ¬attempt.Answered) (later : List (Call → Prop)) : InTurn (kind :: later) [attempt]
  | answered {kind : Call → Prop} {later : List (Call → Prop)} {attempt : Attempt}
      {attempts : List Attempt} (hcall : kind attempt.call) (h : attempt.Answered)
      (hmore : InTurn later attempts) : InTurn (kind :: later) (attempt :: attempts)

/-- A call is made by itself. -/
theorem inTurn_singleton {kind : Call → Prop} {attempt : Attempt} (hcall : kind attempt.call) :
    InTurn [kind] [attempt] := by
  by_cases h : attempt.Answered
  · exact .answered hcall h .done
  · exact .failed hcall h []

namespace InTurn

variable {kinds later : List (Call → Prop)} {attempts more : List Attempt}

/-- Once all calls are answered, others follow. -/
theorem append (h : InTurn kinds attempts) (hall : ∀ attempt ∈ attempts, attempt.Answered)
    (hmore : InTurn later more) : InTurn (kinds ++ later) (attempts ++ more) := by
  induction h with
  | done => exact hmore
  | failed _ hfailed _ => exact absurd (hall _ List.mem_cons_self) hfailed
  | answered hcall hanswered _ ih =>
      exact .answered hcall hanswered
        (ih fun attempt hmem => hall attempt (List.mem_cons_of_mem _ hmem))

/-- After a call that is not answered, no others follow. -/
theorem append_of_failed (h : InTurn kinds attempts)
    (hfailed : ¬∀ attempt ∈ attempts, attempt.Answered) : InTurn (kinds ++ later) attempts := by
  induction h with
  | done => exact absurd (List.forall_mem_nil _) hfailed
  | failed hcall hnot others => exact .failed hcall hnot (others ++ later)
  | answered hcall hanswered _ ih =>
      exact .answered hcall hanswered
        (ih fun hall => hfailed (List.forall_mem_cons.mpr ⟨hanswered, hall⟩))

end InTurn

end WorkspaceControl.Rpc
