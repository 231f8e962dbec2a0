import WorkspaceControl.Rpc.Call

/-!
# One call over the network

What a call brings is decided by what is heard of it (`Call.hear`), and what becomes of a network is
told by the calls that were made over it: **the requests that they are sent as have been sent, and
each of them has taken an answer** (`Network.after`). A call is sent as one request if the transport
takes its address, and not at all if the address is refused (`Client.request?`). Both are said of a
single call by `Client.perform_run`, and nothing else is needed of one.
-/

namespace WorkspaceControl.Rpc

open Wire

/-! ### Requests of calls -/

/-- The request that a call is sent as, if the transport takes its address. -/
def Client.request? (client : Client) (transport : Transport) (call : Call) : Option Request :=
  match transport (client.url call.path call.query) with
  | .ok url => some ⟨url, call.body?.map fun b => b.canonical.render⟩
  | .error _ => none

/-- The requests that calls are sent as, in their order. -/
def Client.requests (client : Client) (transport : Transport) (calls : List Call) : List Request :=
  calls.filterMap (client.request? transport)

/-- A transport takes the address of a call. -/
def Transport.Takes (transport : Transport) (client : Client) (call : Call) : Prop :=
  ∃ url, transport (client.url call.path call.query) = .ok url

section

variable {client : Client} {transport : Transport} {call : Call} {calls : List Call}

@[simp] theorem Client.requests_nil : client.requests transport [] = [] := rfl

theorem Client.requests_append (calls more : List Call) :
    client.requests transport (calls ++ more) =
      client.requests transport calls ++ client.requests transport more :=
  List.filterMap_append

theorem Transport.takes_iff :
    transport.Takes client call ↔ (transport (client.url call.path call.query)).isOk = true := by
  unfold Takes
  cases transport (client.url call.path call.query) <;> simp [Except.isOk, Except.toBool]

instance : Decidable (transport.Takes client call) := decidable_of_iff' _ Transport.takes_iff

theorem Transport.Takes.exists_request? (h : transport.Takes client call) :
    ∃ request, client.request? transport call = some request := by
  obtain ⟨url, hurl⟩ := h
  exact ⟨_, by rw [Client.request?, hurl]⟩

/-- Calls whose addresses are taken are sent as one request each. -/
theorem Client.map_some_requests (h : ∀ call ∈ calls, transport.Takes client call) :
    (client.requests transport calls).map some = calls.map (client.request? transport) := by
  induction calls with
  | nil => rfl
  | cons call calls ih =>
      obtain ⟨htakes, hmore⟩ := List.forall_mem_cons.mp h
      obtain ⟨request, hrequest⟩ := htakes.exists_request?
      rw [requests, List.filterMap_cons_some hrequest, List.map_cons, List.map_cons, hrequest]
      exact congrArg (some request :: ·) (ih hmore)

theorem Client.length_requests (h : ∀ call ∈ calls, transport.Takes client call) :
    (client.requests transport calls).length = calls.length := by
  simpa using congrArg List.length (client.map_some_requests h)

theorem Transport.not_takes_iff :
    ¬transport.Takes client call ↔
      ∃ reason, transport (client.url call.path call.query) = .error reason := by
  unfold Takes
  cases transport (client.url call.path call.query) <;> simp

/-- A call whose address is refused is not sent. -/
theorem Client.requests_of_refused (h : ¬transport.Takes client call) :
    client.requests transport [call] = [] := by
  obtain ⟨reason, hreason⟩ := Transport.not_takes_iff.mp h
  have hnone : client.request? transport call = none := by rw [request?, hreason]
  rw [requests, List.filterMap_cons_none hnone, List.filterMap_nil]

end

/-! ### What becomes of a network -/

/-- What becomes of a network by calls that are made over it. -/
def Network.after (network : Network) (client : Client) (calls : List Call) : Network :=
  let requests := client.requests network.transport calls
  ⟨network.transport, network.script.drop requests.length, network.sent ++ requests⟩

namespace Network

variable (network : Network) (client : Client)

@[simp] theorem transport_after (calls : List Call) :
    (network.after client calls).transport = network.transport := rfl

theorem sent_after (calls : List Call) :
    (network.after client calls).sent =
      network.sent ++ client.requests network.transport calls := rfl

theorem script_after (calls : List Call) :
    (network.after client calls).script =
      network.script.drop (client.requests network.transport calls).length := rfl

@[simp] theorem after_nil : network.after client [] = network := by simp [after]

theorem after_after (calls more : List Call) :
    (network.after client calls).after client more = network.after client (calls ++ more) := by
  simp [after, Client.requests_append, List.drop_drop]

variable {network client}

/-- A call whose address is taken takes the next answer. -/
theorem script_after_of_takes {call : Call} (h : network.transport.Takes client call) :
    (network.after client [call]).script = network.script.tail := by
  rw [script_after, Client.length_requests (List.forall_mem_singleton.mpr h)]
  exact List.drop_one

theorem after_of_refused {call : Call} (h : ¬network.transport.Takes client call) :
    network.after client [call] = network := by
  simp [after, Client.requests_of_refused h]

end Network

/-! ### What a call makes of an answer -/

/-- What a call brings by what is heard of it. -/
def Call.hear (call : Call) : Heard → Except Failure call.Result
  | .ok (status, text) => call.settle status text
  | .error reason => .error (.requestFailed reason)

/-- What a call brings that is answered so. -/
def Answer.outcome (answer : Answer) (call : Call) : Except Failure call.Result :=
  call.hear answer.heard

/-- The answer to the request that a script has come to. -/
def nextAnswer (script : List Answer) : Answer := script.head?.getD .exhausted

/-- What is heard of a call over a network: the next answer, or why the address is refused. -/
def Client.hears (client : Client) (network : Network) (call : Call) : Heard :=
  match network.transport (client.url call.path call.query) with
  | .ok _ => (nextAnswer network.script).heard
  | .error reason => .error reason

/-- The exchange that a call is made over. -/
def Client.exchange (client : Client) (call : Call) : StateM Network Heard :=
  Network.exchange (client.url call.path call.query) (call.body?.map fun b => b.canonical.render)

section

variable (client : Client) (call : Call) (network : Network)

theorem Client.exchange_run :
    (client.exchange call).run network =
      (client.hears network call, network.after client [call]) := by
  simp only [exchange, Network.exchange, StateT.run, hears, Network.after, requests]
  cases hurl : network.transport (client.url call.path call.query) with
  | error reason => simp [request?, hurl]
  | ok url => simp [request?, hurl, nextAnswer]

/-- **The request of a call goes out once, if its address is taken, and all that the call brings is what
is heard of it.** -/
theorem Client.perform_run :
    (client.perform call).run network =
      (call.hear (client.hears network call), network.after client [call]) := by
  have hrun : (client.perform call).run network =
      (call.hear ((client.exchange call).run network).1,
        ((client.exchange call).run network).2) := by
    simp only [perform, send, exchange, StateT.run_bind]
    rcases (Network.exchange _ _).run network with ⟨_ | ⟨status, text⟩, next⟩
    · rfl
    · rfl
  rw [hrun, exchange_run]

end

theorem Client.hears_of_takes {client : Client} {call : Call} {network : Network}
    (h : network.transport.Takes client call) :
    client.hears network call = (nextAnswer network.script).heard := by
  obtain ⟨url, hurl⟩ := h
  rw [hears, hurl]

/-- Only a call whose address is taken hears of a response. -/
theorem Client.takes_of_hears {client : Client} {call : Call} {network : Network}
    {response : Nat × String} (h : client.hears network call = .ok response) :
    network.transport.Takes client call := by
  unfold hears at h
  split at h
  · exact ⟨_, ‹_›⟩
  · cases h

/-- Only a call whose address is taken comes to a result. -/
theorem Client.takes_of_hear {client : Client} {call : Call} {network : Network}
    {result : call.Result} (h : call.hear (client.hears network call) = .ok result) :
    network.transport.Takes client call := by
  cases hheard : client.hears network call with
  | error reason =>
      rw [hheard] at h
      cases h
  | ok response => exact takes_of_hears hheard

/-- The workspaces that the service lists over a network, or why it lists none. -/
def Client.lists (client : Client) (network : Network) :
    Except Failure (List WorkspaceDescription) :=
  (Call.service .describeWorkspaces).hear (client.hears network (.service .describeWorkspaces))

/-! ### Fetches of events -/

/-- The page that a fetch of events brings by what is heard of it. -/
def pageOf : Heard → Except Failure EventsPage
  | .ok (status, text) => do
    let value ← settle status text
    match (Codec.ofJson value : Except DecodeError EventsPage) with
    | .ok page => return page
    | .error e => throw (.decode e)
  | .error reason => throw (.requestFailed reason)

/-- What a fetch of events brings does not depend on what it asked for. -/
theorem Call.hear_getEvents (id : String) (request : EventsRequest) (heard : Heard) :
    (Call.workspace id (.getEvents request)).hear heard = pageOf heard := by
  -- The type of the result hides that it is a page, so it is said here how it is read.
  have hread (value : Json) : (Call.workspace id (.getEvents request)).ofJson value =
      (Codec.ofJson value : Except DecodeError EventsPage) := rfl
  cases heard with
  | error reason => rfl
  | ok response =>
      simp only [hear, pageOf, Call.settle]
      cases Rpc.settle response.1 response.2 with
      | error failure => rfl
      | ok value =>
          change Call.decode _ value = _
          unfold Call.decode
          rw [hread]
          cases hvalue : (Codec.ofJson value : Except DecodeError EventsPage) <;>
            simp only [bind, Except.bind, hvalue] <;> rfl

/-- The page that a fetch of events brings that is answered so. -/
def Answer.page (answer : Answer) : Except Failure EventsPage := pageOf answer.heard

/-- Whether a fetch of events that is answered so is refused as faulty. -/
def Answer.refused (answer : Answer) : Bool :=
  match answer.page with
  | .ok _ => false
  | .error failure => failure.isClientError

/-- A response whose status says that the call failed brings no page. -/
theorem Answer.page_of_not_succeeded {status : Nat} (h : succeeded status = false)
    (body : List UInt8) : ∃ failure, (response status body).page = .error failure := by
  unfold page pageOf heard
  simp only [settle, refusal?, h, Bool.false_eq_true, if_false]
  cases (payload (if bodiless status then "" else Body.text body)).member? "message" >>=
    Json.text? with
  | some message => exact ⟨.api status message, rfl⟩
  | none => exact ⟨.malformedResponse _, rfl⟩

end WorkspaceControl.Rpc
