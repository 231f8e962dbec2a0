import WorkspaceControl.Proofs.Json.Depth
import WorkspaceControl.Proofs.Json.Order
import WorkspaceControl.Proofs.Rpc.Exchange

/-!
# What a response comes to

A call comes to exactly one of its result, a text that does not decode, a refusal with a message and a
refusal without one, and which of these it is can be told from the status and the text
(`Call.Classified`). A refusal without a message keeps its payload whole: unless a double stands in
the text, what the failure shows is read back as the payload.

That no response was received, or none whose body could be read, is told apart from all of these. The
two are not told apart from each other (`Call.requestFailed_of_unread`).
-/

namespace WorkspaceControl.Rpc

open Wire Json

/-! ### What calls bring -/

/-- A call brings a result if the value of the response decodes as the record that the service answers
the call with, and the result is the field of that record. A call without a result takes any value. -/
def ServiceCall.Brings : (call : ServiceCall) → Json → call.Result → Prop
  | describeWorkspaces, v, r => Codec.ofJson v = .ok (⟨r⟩ : WorkspaceList)
  | createWorkspace _, v, r => Codec.ofJson v = .ok (⟨r⟩ : WorkspaceCreated)
  | getVersion, v, r => (Codec.ofJson v : Except DecodeError VersionInfo) = .ok r
  | upgrade, _, _ => True

@[inherit_doc ServiceCall.Brings]
def WorkspaceCall.Brings : (call : WorkspaceCall) → Json → call.Result → Prop
  | describe, v, r => Codec.ofJson v = .ok (⟨r⟩ : WorkspaceDetails)
  | describeProcesses, v, r => Codec.ofJson v = .ok (⟨r⟩ : ProcessList)
  | createProcess _ _, v, r => Codec.ofJson v = .ok (⟨r⟩ : ComponentCreated)
  | describeLogs _, v, r => Codec.ofJson v = .ok (⟨r⟩ : LogList)
  | getEvents _, v, r => (Codec.ofJson v : Except DecodeError EventsPage) = .ok r
  | apply _, _, _ | act _ _, _, _ | refreshAll, _, _ => True

@[inherit_doc ServiceCall.Brings]
def Call.Brings : (call : Call) → Json → call.Result → Prop
  | service call => call.Brings
  | workspace _ call => call.Brings

/-- A field of a record is what was decoded if the record of it is. -/
theorem map_eq_ok_iff {α β : Type} (field : α → β) (mk : β → α) (hfield : ∀ b, field (mk b) = b)
    (hmk : ∀ a, mk (field a) = a) {made : Except DecodeError α} {b : β} :
    field <$> made = .ok b ↔ made = .ok (mk b) := by
  cases made with
  | error e => exact ⟨nofun, nofun⟩
  | ok a =>
      constructor
      · intro h
        cases h
        rw [hmk]
      · intro h
        cases h
        exact congrArg Except.ok (hfield b)

theorem ServiceCall.ofJson_eq_ok_iff (call : ServiceCall) (v : Json) (r : call.Result) :
    call.ofJson v = .ok r ↔ call.Brings v r := by
  cases call with
  | describeWorkspaces =>
      exact map_eq_ok_iff WorkspaceList.workspaces WorkspaceList.mk (fun _ => rfl) fun _ => rfl
  | createWorkspace root =>
      exact map_eq_ok_iff WorkspaceCreated.id WorkspaceCreated.mk (fun _ => rfl) fun _ => rfl
  | getVersion => exact Iff.rfl
  | upgrade => exact ⟨fun _ => trivial, fun _ => rfl⟩

theorem WorkspaceCall.ofJson_eq_ok_iff (call : WorkspaceCall) (v : Json) (r : call.Result) :
    call.ofJson v = .ok r ↔ call.Brings v r := by
  cases call with
  | describe =>
      exact map_eq_ok_iff WorkspaceDetails.description WorkspaceDetails.mk (fun _ => rfl) fun _ => rfl
  | describeProcesses =>
      exact map_eq_ok_iff ProcessList.processes ProcessList.mk (fun _ => rfl) fun _ => rfl
  | createProcess name spec =>
      exact map_eq_ok_iff ComponentCreated.id ComponentCreated.mk (fun _ => rfl) fun _ => rfl
  | describeLogs refs =>
      exact map_eq_ok_iff LogList.logs LogList.mk (fun _ => rfl) fun _ => rfl
  | getEvents request => exact Iff.rfl
  | apply manifest => exact ⟨fun _ => trivial, fun _ => rfl⟩
  | act action reference => exact ⟨fun _ => trivial, fun _ => rfl⟩
  | refreshAll => exact ⟨fun _ => trivial, fun _ => rfl⟩

theorem Call.ofJson_eq_ok_iff (call : Call) (v : Json) (r : call.Result) :
    call.ofJson v = .ok r ↔ call.Brings v r := by
  cases call with
  | service call => exact call.ofJson_eq_ok_iff v r
  | workspace id call => exact call.ofJson_eq_ok_iff v r

/-! ### Refusals -/

/-- A text refuses a call with a message if it is an object whose last member called `message` is that
text. -/
def Refuses (text message : String) : Prop :=
  ∃ members, ofText text = .ok (.object members) ∧
    members.reverse.lookup "message" = some (.string message)

/-- What a text says: its value, or the text itself if it is no JSON. -/
def IsPayload (text : String) (p : Json) : Prop :=
  Json.parse text = .ok p ∨ (∀ v, Json.parse text ≠ .ok v) ∧ p = .string text

theorem isPayload_iff {text : String} {p : Json} : IsPayload text p ↔ p = payload text := by
  unfold IsPayload payload
  cases Json.parse text with
  | ok v => simp [eq_comm]
  | error e => simp

theorem message_payload_eq_some_iff {text message : String} :
    (payload text).member? "message" >>= text? = some message ↔ Refuses text message := by
  unfold payload Refuses Json.parse
  cases htree : ofText text with
  | error e => simp [Functor.map, Except.map, member?]
  | ok tree =>
      cases tree with
      | object members =>
          simp only [Functor.map, Except.map, canonical_object, member?, lookup_canonical]
          cases hlast : members.reverse.lookup "message" with
          | none => simp [hlast]
          | some v => cases v <;> simp [hlast, canonical, text?]
      | _ => simp [Functor.map, Except.map, canonical, member?]

/-- A payload without doubles is read back from what it is written as. -/
theorem parse_render_payload {text : String}
    (h : ∀ tree, ofText text = .ok tree → tree.Integral) :
    Json.parse (payload text).render = .ok (payload text) := by
  unfold payload Json.parse
  cases htree : ofText text with
  | error e => exact parse_render (.string deepest text) (.string text)
  | ok tree =>
      have hread := parse_render (within_ofText htree).canonical (h tree htree).canonical
      rw [canonical_canonical] at hread
      exact hread

/-! ### Outcomes -/

section

variable (call : Call) {status : Nat} {text : String}

theorem Call.settle_of_brings (hstatus : succeeded status = true) {v : Json}
    (hparse : Json.parse text = .ok v) {r : call.Result} (h : call.Brings v r) :
    call.settle status text = .ok r := by
  unfold settle Rpc.settle refusal?
  rw [if_pos hstatus]
  simp only [hparse]
  change call.decode v = .ok r
  rw [decode, (call.ofJson_eq_ok_iff v r).mpr h]

theorem Call.settle_of_brings_nothing (hstatus : succeeded status = true)
    (h : ∀ v, Json.parse text = .ok v → ∀ r, ¬call.Brings v r) :
    ∃ e, call.settle status text = .error (.decode e) := by
  unfold settle Rpc.settle refusal?
  rw [if_pos hstatus]
  cases hparse : Json.parse text with
  | error e => exact ⟨e, rfl⟩
  | ok v =>
      cases hmade : call.ofJson v with
      | ok r => exact absurd ((call.ofJson_eq_ok_iff v r).mp hmade) (h v hparse r)
      | error e =>
          refine ⟨e, ?_⟩
          change call.decode v = .error (.decode e)
          rw [decode, hmade]

theorem Call.settle_of_refuses (hstatus : succeeded status = false) {m : String}
    (h : Refuses text m) : call.settle status text = .error (.api status m) := by
  unfold settle Rpc.settle refusal?
  rw [hstatus, message_payload_eq_some_iff.mpr h]
  rfl

theorem Call.settle_of_refuses_without (hstatus : succeeded status = false)
    (h : ∀ m, ¬Refuses text m) :
    call.settle status text = .error (.malformedResponse (payload text)) := by
  have hmessage : (payload text).member? "message" >>= text? = none := by
    rw [Option.eq_none_iff_forall_ne_some]
    exact fun m hm => h m (message_payload_eq_some_iff.mp hm)
  unfold settle Rpc.settle refusal?
  rw [hstatus, hmessage]
  rfl

/-- The four things that can be true of a response, and what the call comes to then. -/
inductive Call.ComesTo (call : Call) (status : Nat) (text : String) :
    Except Failure call.Result → Prop
  | result (hstatus : succeeded status = true) {v : Json} (hparse : Json.parse text = .ok v)
      {r : call.Result} (h : call.Brings v r) : call.ComesTo status text (.ok r)
  | nothing (hstatus : succeeded status = true)
      (h : ∀ v, Json.parse text = .ok v → ∀ r, ¬call.Brings v r) (e : DecodeError) :
      call.ComesTo status text (.error (.decode e))
  | refusal (hstatus : succeeded status = false) {m : String} (h : Refuses text m) :
      call.ComesTo status text (.error (.api status m))
  | payload (hstatus : succeeded status = false) (h : ∀ m, ¬Refuses text m) :
      call.ComesTo status text (.error (.malformedResponse (payload text)))

theorem Call.comesTo_settle : call.ComesTo status text (call.settle status text) := by
  cases hstatus : succeeded status with
  | true =>
      by_cases h : ∃ v r, Json.parse text = .ok v ∧ call.Brings v r
      · obtain ⟨v, r, hparse, hr⟩ := h
        rw [call.settle_of_brings hstatus hparse hr]
        exact .result hstatus hparse hr
      · have hnothing : ∀ v, Json.parse text = .ok v → ∀ r, ¬call.Brings v r :=
          fun v hparse r hr => h ⟨v, r, hparse, hr⟩
        obtain ⟨e, he⟩ := call.settle_of_brings_nothing hstatus hnothing
        rw [he]
        exact .nothing hstatus hnothing e
  | false =>
      by_cases h : ∃ m, Refuses text m
      · obtain ⟨m, hm⟩ := h
        rw [call.settle_of_refuses hstatus hm]
        exact .refusal hstatus hm
      · have hwithout : ∀ m, ¬Refuses text m := fun m hm => h ⟨m, hm⟩
        rw [call.settle_of_refuses_without hstatus hwithout]
        exact .payload hstatus hwithout

end

/-- What an outcome says about the status and the text of the response that a call came to. -/
structure Call.Classified (call : Call) (status : Nat) (text : String)
    (outcome : Except Failure call.Result) : Prop where
  ok_iff (r : call.Result) : outcome = .ok r ↔
    succeeded status = true ∧ ∃ v, Json.parse text = .ok v ∧ call.Brings v r
  decode_iff : (∃ e, outcome = .error (.decode e)) ↔
    succeeded status = true ∧ ∀ v, Json.parse text = .ok v → ∀ r, ¬call.Brings v r
  api_iff (s : Nat) (m : String) : outcome = .error (.api s m) ↔
    succeeded status = false ∧ s = status ∧ Refuses text m
  malformed_iff (p : Json) : outcome = .error (.malformedResponse p) ↔
    succeeded status = false ∧ (∀ m, ¬Refuses text m) ∧ IsPayload text p
  /-- There are no other outcomes. -/
  total : (∃ r, outcome = .ok r) ∨ (∃ e, outcome = .error (.decode e)) ∨
    (∃ s m, outcome = .error (.api s m)) ∨ ∃ p, outcome = .error (.malformedResponse p)
  /-- A payload is shown so that it can be read back, if the text holds no double. -/
  lossless (p : Json) (h : outcome = .error (.malformedResponse p))
    (hint : ∀ tree, ofText text = .ok tree → tree.Integral) : Json.parse p.render = .ok p

theorem Call.classified_settle (call : Call) (status : Nat) (text : String) :
    call.Classified status text (call.settle status text) := by
  have hcomes : call.ComesTo status text (call.settle status text) := call.comesTo_settle
  constructor
  case ok_iff =>
      intro r
      refine ⟨fun h => ?_, fun ⟨hstatus, v, hparse, hr⟩ => call.settle_of_brings hstatus hparse hr⟩
      rw [h] at hcomes
      cases hcomes with
      | result hstatus hparse hr => exact ⟨hstatus, _, hparse, hr⟩
  case decode_iff =>
      refine ⟨fun ⟨e, h⟩ => ?_, fun ⟨hstatus, h⟩ => call.settle_of_brings_nothing hstatus h⟩
      rw [h] at hcomes
      cases hcomes with
      | nothing hstatus hnothing => exact ⟨hstatus, hnothing⟩
  case api_iff =>
      intro s m
      constructor
      · intro h
        rw [h] at hcomes
        cases hcomes with
        | refusal hstatus hm => exact ⟨hstatus, rfl, hm⟩
      · rintro ⟨hstatus, rfl, hm⟩
        exact call.settle_of_refuses hstatus hm
  case malformed_iff =>
      intro p
      rw [isPayload_iff]
      constructor
      · intro h
        rw [h] at hcomes
        cases hcomes with
        | payload hstatus hwithout => exact ⟨hstatus, hwithout, rfl⟩
      · rintro ⟨hstatus, hwithout, rfl⟩
        exact call.settle_of_refuses_without hstatus hwithout
  case total =>
      generalize call.settle status text = outcome at hcomes ⊢
      cases hcomes with
      | @result _ v hparse r hr => exact .inl ⟨r, rfl⟩
      | nothing _ _ e => exact .inr (.inl ⟨e, rfl⟩)
      | @refusal _ m hm => exact .inr (.inr (.inl ⟨status, m, rfl⟩))
      | payload hstatus hwithout => exact .inr (.inr (.inr ⟨_, rfl⟩))
  case lossless =>
      intro p h hint
      rw [h] at hcomes
      cases hcomes with
      | payload hstatus hwithout => exact parse_render_payload hint

/-! ### Failures -/

theorem Failure.status?_eq_some_iff (f : Failure) (s : Nat) :
    f.status? = some s ↔ ∃ m, f = .api s m := by
  cases f with
  | api status message => simp [status?, eq_comm]
  | _ => simp [status?]

/-- A call was at fault only if the service said so with a status for it. -/
theorem Failure.isClientError_iff (f : Failure) :
    f.isClientError = true ↔ ∃ s m, f = .api s m ∧ 400 ≤ s ∧ s < 500 := by
  cases f with
  | api status message => simp [isClientError, status?]
  | _ => simp [isClientError, status?]

/-! ### Calls of which nothing is heard -/

/-- The status of the response, if one is received. -/
def Answer.status? : Answer → Option Nat
  | response status _ | unread status _ => some status
  | silence _ => none

/-- A response to a call is received, with a status. -/
def Client.Receives (client : Client) (network : Network) (call : Call) (status : Nat) : Prop :=
  network.transport.Takes client call ∧ (nextAnswer network.script).status? = some status

/-- Nothing is heard of a call, and why. -/
inductive Client.Unheard (client : Client) (network : Network) (call : Call) : String → Prop
  /-- The address is refused, so no response is received. -/
  | refused {reason : String}
      (h : network.transport (client.url call.path call.query) = .error reason) :
      client.Unheard network call reason
  /-- No response is received. -/
  | silent {reason : String} (htakes : network.transport.Takes client call)
      (h : nextAnswer network.script = .silence reason) : client.Unheard network call reason
  /-- A response is received, but its body cannot be read. -/
  | unread {status : Nat} {reason : String} (htakes : network.transport.Takes client call)
      (h : nextAnswer network.script = .unread status reason) : client.Unheard network call reason

section

variable {client : Client} {network : Network} {call : Call}

theorem Client.hears_eq_error_iff {reason : String} :
    client.hears network call = .error reason ↔ client.Unheard network call reason := by
  constructor
  · intro h
    by_cases htakes : network.transport.Takes client call
    · rw [hears_of_takes htakes] at h
      cases hanswer : nextAnswer network.script with
      | response status body =>
          rw [hanswer] at h
          cases h
      | unread status why =>
          rw [hanswer] at h
          cases h
          exact .unread htakes hanswer
      | silence why =>
          rw [hanswer] at h
          cases h
          exact .silent htakes hanswer
    · obtain ⟨why, hwhy⟩ := Transport.not_takes_iff.mp htakes
      rw [hears, hwhy] at h
      cases h
      exact .refused hwhy
  · intro h
    cases h with
    | refused h => rw [hears, h]
    | silent htakes h => rw [hears_of_takes htakes, h, Answer.heard]
    | unread htakes h => rw [hears_of_takes htakes, h, Answer.heard]

/-- A response that is heard of is never taken for none. -/
theorem Call.hear_eq_requestFailed_iff {heard : Heard} {reason : String} :
    call.hear heard = .error (.requestFailed reason) ↔ heard = .error reason := by
  cases heard with
  | error why => simp [hear]
  | ok response =>
      have hcomes : call.ComesTo response.1 response.2 (call.settle response.1 response.2) :=
        call.comesTo_settle
      constructor
      · intro h
        change call.settle response.1 response.2 = _ at h
        rw [h] at hcomes
        cases hcomes
      · intro h
        cases h

end

/-- **What a call comes to is classified** by the status and the text of the response, totally and
exclusively, with the payload of a refusal kept; and a failure tells what it is by its status. A call
is said to have had no response if and only if nothing is heard of it: no response was received, or the
body of the response could not be read. -/
theorem Call.outcome_classified (call : Call) :
    (∀ status text, call.Classified status text (call.settle status text)) ∧
    (∀ (client : Client) (network : Network),
      (∀ status text, ((client.exchange call).run network).1 = .ok (status, text) →
        ((client.perform call).run network).1 = call.settle status text) ∧
      ∀ reason, ((client.perform call).run network).1 = .error (.requestFailed reason) ↔
        client.Unheard network call reason) ∧
    ∀ f : Failure, (∀ s, f.status? = some s ↔ ∃ m, f = .api s m) ∧
      (f.isClientError = true ↔ ∃ s m, f = .api s m ∧ 400 ≤ s ∧ s < 500) := by
  refine ⟨call.classified_settle, fun client network => ⟨fun status text h => ?_, fun reason => ?_⟩,
    fun f => ⟨f.status?_eq_some_iff, f.isClientError_iff⟩⟩
  · rw [Client.exchange_run] at h
    rw [Client.perform_run]
    change call.hear (client.hears network call) = _
    rw [show client.hears network call = _ from h]
    rfl
  · rw [Client.perform_run, ← Client.hears_eq_error_iff]
    exact Call.hear_eq_requestFailed_iff

/-- A response may be received, and the call is said to have had none all the same: its status came, but
its body broke off. -/
theorem Call.requestFailed_of_unread :
    ¬∀ (client : Client) (network : Network) (call : Call) (reason : String),
      ((client.perform call).run network).1 = .error (.requestFailed reason) →
        ∀ status, ¬client.Receives network call status := by
  let client := Client.new "https://host"
  let network := Network.new .plain [.unread 200 "error decoding response body"]
  have htakes : network.transport.Takes client (.service .getVersion) := by decide +kernel
  have hfailed : ((client.perform (.service .getVersion)).run network).1 =
      .error (.requestFailed "error decoding response body") := by
    rw [Client.perform_run, Client.hears_of_takes htakes]
    rfl
  intro hnone
  exact hnone client network _ _ hfailed 200 ⟨htakes, rfl⟩

end WorkspaceControl.Rpc
