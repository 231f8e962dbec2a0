import WorkspaceControl.Proofs.Records.Lossless
import WorkspaceControl.Proofs.Rpc.Transport

/-!
# Calls read back from requests

A request says which call it was made for. `Call.ofRequest?` reads the call off the end of the address
and the body, without knowing the base address: the last two parts of the address between slashes are
the group and the method of the call, the query behind the method holds the id of the workspace, and
the body is the record of the arguments. A specification of a process is read from the text that it
travels as inside the body.

The reader takes the place of the service here, so it is as lenient as it likes; what matters is that
it finds the call again (`Call.ofRequest?_eq`), whatever the strings in it.
-/

namespace WorkspaceControl.Rpc

open Wire Json

/-! ### The reader -/

/-- The record of a body. -/
def record? {α : Type} [Codec α] (body : Option String) : Option α :=
  body.bind fun text => (Codec.parse text).toOption

def ServiceCall.ofParts? (method : String) (body : Option String) : Option ServiceCall :=
  match method with
  | "describe-workspaces" => some .describeWorkspaces
  | "create-workspace" => (record? body).map fun r : WorkspaceRequest => .createWorkspace r.root
  | "get-version" => some .getVersion
  | "upgrade" => some .upgrade
  | _ => none

/-- The process that a component is asked for as. -/
def WorkspaceCall.ofComponent? (r : ComponentRequest) : Option WorkspaceCall :=
  if r.type = processComponent then
    (Codec.read r.spec).toOption.map fun spec => .createProcess r.name spec
  else none

def WorkspaceCall.ofParts? (method : String) (body : Option String) : Option WorkspaceCall :=
  let act (action : ComponentAction) : Option WorkspaceCall :=
    (record? body).map fun r : ComponentRef => .act action r.reference
  match method with
  | "describe" => some .describe
  | "apply" => (record? body).map .apply
  | "describe-processes" => some .describeProcesses
  | "create-component" => (record? body).bind ofComponent?
  | "start-component" => act .start
  | "stop-component" => act .stop
  | "restart-component" => act .restart
  | "delete-component" => act .delete
  | "refresh-all-components" => some .refreshAll
  | "describe-logs" => (record? body).map fun r : LogsRequest => .describeLogs r.refs
  | "get-events" => (record? body).map .getEvents
  | _ => none

/-- The last two parts of an address between slashes. -/
def lastParts (url : List Char) : List Char × List Char :=
  let (last, front) := Parts.divide '/' url.reverse
  ((Parts.divide '/' (front.getD [])).1.reverse, last.reverse)

/-- The id in a query that has nothing else. -/
def id? (query : List Char) : Option String :=
  match Parts.divide '=' query with
  | (['i', 'd'], some component) => Percent.decode component
  | _ => none

/-- The call that a request was made for. -/
def Call.ofRequest? (request : Request) : Option Call :=
  let (group, last) := lastParts request.url.toList
  let (method, query) := Parts.divide '?' last
  match String.ofList group, query with
  | "kernel", none => .service <$> ServiceCall.ofParts? (String.ofList method) request.body
  | "workspace", some query => do
    return .workspace (← id? query) (← WorkspaceCall.ofParts? (String.ofList method) request.body)
  | _, _ => none

/-! ### Bodies -/

/-- What a call may have as its body: the canonical form of its record in text. The specification of a
process inside may have its members in any order. -/
def WorkspaceCall.HasBody : WorkspaceCall → Option String → Prop
  | .createProcess name spec, body => ∃ other, Reordered (Codec.encode spec) other ∧
      body = some (Codec.encode
        (⟨name, processComponent, other.render⟩ : ComponentRequest)).canonical.render
  | call, body => body = call.body?.map fun b => b.canonical.render

def Call.HasBody : Call → Option String → Prop
  | .service call, body => body = some call.body.canonical.render
  | .workspace _ call, body => call.HasBody body

/-- The body that a client sends is one that the call may have. -/
theorem Call.hasBody_body? (call : Call) :
    call.HasBody (call.body?.map fun b => b.canonical.render) := by
  cases call with
  | service call => rfl
  | workspace id call =>
      cases call with
      | createProcess name spec => exact ⟨_, .refl _, rfl⟩
      | _ => rfl

/-- A record is read back from its canonical form. -/
theorem record?_canonical {α : Type} [Codec α] (h : Lossless α) (a : α) :
    record? (some (Codec.encode a).canonical.render) = some a := by
  rw [record?, Option.bind_some, h.parse_canonical a]
  rfl

/-- A record of a sound shape is read back from its canonical form. -/
theorem record?_of_sound {α : Type} [Record α] (a : α)
    (hsound : (Record.shape α).sound = true := by decide)
    (hdepth : (Record.shape α).depth ≤ deepest := by decide) :
    record? (some (Codec.encode a).canonical.render) = some a :=
  record?_canonical (Record.lossless hsound hdepth) a

theorem ServiceCall.ofParts?_eq (call : ServiceCall) :
    ofParts? call.method (some call.body.canonical.render) = some call := by
  cases call with
  | describeWorkspaces => rfl
  | createWorkspace root =>
      rw [method, body, ofParts?, record?_of_sound (⟨root⟩ : WorkspaceRequest)]
      rfl
  | getVersion => rfl
  | upgrade => rfl

/-- A specification is read back from its text, in whatever order its members come. -/
theorem ProcessSpec.read_of_reordered {spec : ProcessSpec} {other : Json}
    (h : Reordered (Codec.encode spec) other) : Codec.read other.render = .ok spec :=
  (Record.lossless (by decide) (by decide)).read_reordered spec h

/-- A process is asked for as a component whose specification is read back from its text. -/
theorem WorkspaceCall.ofComponent?_eq (name : String) {spec : ProcessSpec} {other : Json}
    (h : Reordered (Codec.encode spec) other) :
    ofComponent? ⟨name, processComponent, other.render⟩ = some (.createProcess name spec) := by
  rw [ofComponent?, if_pos rfl, ProcessSpec.read_of_reordered h]
  rfl

/-- The body of a call that creates a process is a component of this kind. -/
theorem WorkspaceCall.record?_createProcess (name : String) (spec : ProcessSpec) :
    record? ((createProcess name spec).body?.map fun b => b.canonical.render) =
      some (⟨name, processComponent, Codec.render spec⟩ : ComponentRequest) :=
  record?_of_sound _

theorem WorkspaceCall.ofParts?_eq {call : WorkspaceCall} {body : Option String}
    (h : call.HasBody body) : ofParts? call.method body = some call := by
  cases call with
  | describe => rfl
  | apply manifest =>
      cases h
      rw [method, body?, Option.map_some, ofParts?, record?_of_sound manifest]
      rfl
  | describeProcesses => rfl
  | createProcess name spec =>
      obtain ⟨other, hother, rfl⟩ := h
      rw [method, ofParts?,
        record?_of_sound (⟨name, processComponent, other.render⟩ : ComponentRequest)]
      exact ofComponent?_eq name hother
  | act action reference =>
      cases h
      rw [method, body?, Option.map_some]
      cases action <;>
        rw [ComponentAction.method, ofParts?, record?_of_sound (⟨reference⟩ : ComponentRef)] <;>
        rfl
  | refreshAll => rfl
  | describeLogs refs =>
      cases h
      rw [method, body?, Option.map_some, ofParts?, record?_of_sound (⟨refs⟩ : LogsRequest)]
      rfl
  | getEvents request =>
      cases h
      rw [method, body?, Option.map_some, ofParts?, record?_canonical EventsRequest.lossless request]
      rfl

/-! ### Ends of addresses -/

theorem lastParts_eq (front : List Char) {group last : List Char} (hgroup : '/' ∉ group)
    (hlast : '/' ∉ last) : lastParts (front ++ '/' :: (group ++ '/' :: last)) = (group, last) := by
  have hreverse : (front ++ '/' :: (group ++ '/' :: last)).reverse =
      last.reverse ++ '/' :: (group.reverse ++ '/' :: front.reverse) := by simp
  rw [lastParts, hreverse, Parts.divide_append '/' _ _ (by simpa using hlast)]
  simp only [Option.getD_some]
  rw [Parts.divide_append '/' _ _ (by simpa using hgroup)]
  simp

/-- The id is read off the query of a call. -/
theorem id?_eq (id : String) :
    id? ('i' :: 'd' :: '=' :: Request.escapeQuotes (Percent.encode id)) = some id := by
  have hdivide := Parts.divide_append '=' ['i', 'd'] (Request.escapeQuotes (Percent.encode id))
    (by decide)
  simp only [List.cons_append, List.nil_append] at hdivide
  rw [id?, hdivide]
  exact Percent.decode_escapeQuotes_encode id

/-- The query of a call about a workspace, as it is sent. -/
theorem escapeQuotes_writeQuery_id (id : String) :
    Request.escapeQuotes (writeQuery [("id", id)]) =
      '?' :: 'i' :: 'd' :: '=' :: Request.escapeQuotes (Percent.encode id) := by
  have hid : Percent.encode "id" = ['i', 'd'] := by decide
  simp only [writeQuery, writePair, hid, List.flatMap_nil, List.append_nil, List.cons_append,
    List.nil_append]
  rfl

theorem Call.slash_not_mem_last (call : Call) : '/' ∉ call.last := by
  have hmethod : '/' ∉ call.method.toList :=
    not_mem_of_isWordChar call.isWordChar_method (by decide)
  have hquery : '/' ∉ Request.escapeQuotes (writeQuery call.query) := by
    cases call with
    | service call => exact List.not_mem_nil
    | workspace id call =>
        have hid : '/' ∉ Request.escapeQuotes (Percent.encode id) :=
          Percent.not_mem_escapeQuotes_encode (by decide) id
        rw [query, escapeQuotes_writeQuery_id]
        simpa using hid
  rw [last, List.mem_append]
  exact not_or.mpr ⟨hmethod, hquery⟩

/-- A request is read back as its call if its address ends as the call's does. -/
theorem Call.ofRequest?_of_url {call : Call} {request : Request} (hbody : call.HasBody request.body)
    (front : List Char) (hurl : request.url.toList =
      front ++ call.path.toList ++ Request.escapeQuotes (writeQuery call.query)) :
    ofRequest? request = some call := by
  have hslash : '/' ∉ call.group.toList := not_mem_of_isWordChar call.isWordChar_group (by decide)
  have hmark : '?' ∉ call.method.toList := not_mem_of_isWordChar call.isWordChar_method (by decide)
  -- The last slash stands in front of the method, and the one before it in front of the group.
  have hparts : lastParts request.url.toList = (call.group.toList, call.last) := by
    rw [hurl, path_toList, ← lastParts_eq front hslash call.slash_not_mem_last, last]
    simp
  rw [ofRequest?, hparts]
  cases call with
  | service call =>
      have hcall : ServiceCall.ofParts? call.method request.body = some call := by
        rw [hbody]
        exact call.ofParts?_eq
      have hdivide : Parts.divide '?' (service call).last = (call.method.toList, none) := by
        rw [last, query, writeQuery]
        exact (congrArg _ (List.append_nil _)).trans (Parts.divide_of_not_mem '?' _ hmark)
      simp only [hdivide, group, String.ofList_toList, hcall]
      rfl
  | workspace id call =>
      have hcall : WorkspaceCall.ofParts? call.method request.body = some call :=
        WorkspaceCall.ofParts?_eq hbody
      have hdivide : Parts.divide '?' (workspace id call).last = (call.method.toList,
          some ('i' :: 'd' :: '=' :: Request.escapeQuotes (Percent.encode id))) := by
        rw [last, query, escapeQuotes_writeQuery_id]
        exact Parts.divide_append '?' _ _ hmark
      simp only [hdivide, group, String.ofList_toList, hcall, id?_eq]
      rfl

/-! ### What is carried -/

/-- Between two moments of a network, the requests of some calls were carried in their order. -/
def Network.Carried (before after : Network) (calls : List Call) : Prop :=
  ∃ requests, after.sent = before.sent ++ requests ∧ requests.map Call.ofRequest? = calls.map some

/-- A request that a lawful transport has sent for a call is read back as the call. -/
theorem Client.read_request {client : Client} {transport : Transport} (h : transport.Lawful)
    (hbase : '#' ∉ client.baseUrl.toList) {call : Call} {request : Request}
    (hrequest : client.request? transport call = some request) :
    Call.ofRequest? request = some call := by
  unfold request? at hrequest
  split at hrequest
  · rename_i url hurl
    cases hrequest
    obtain ⟨front, hfront, -⟩ := h.ends client.baseUrl call url hbase hurl
    exact Call.ofRequest?_of_url call.hasBody_body? front hfront
  · cases hrequest

/-- **What a lawful transport has sent for calls reads back as those calls that it takes**, all of them
and in their order. -/
theorem Client.read_requests {client : Client} {transport : Transport} (h : transport.Lawful)
    (hbase : '#' ∉ client.baseUrl.toList) (calls : List Call) :
    (client.requests transport calls).map Call.ofRequest? =
      (calls.filter fun call => (client.request? transport call).isSome).map some := by
  induction calls with
  | nil => rfl
  | cons call calls ih =>
      cases hrequest : client.request? transport call with
      | none =>
          rw [requests, List.filterMap_cons_none hrequest, List.filter_cons_of_neg (by simp [hrequest]),
            ← ih, requests]
      | some request =>
          rw [requests, List.filterMap_cons_some hrequest,
            List.filter_cons_of_pos (by simp [hrequest]), List.map_cons, List.map_cons, ← ih,
            read_request h hbase hrequest, requests]

/-- The workspace that a call is about, if it is about one. -/
def Call.workspaceId? : Call → Option String
  | service _ => none
  | workspace id _ => some id

/-- What the service sees of a call in the request for it: the path of the call is the end of the
place that the request goes to, the query holds the id of the workspace, and with the body the request
is read back as the call. -/
structure Request.Shows (request : Request) (call : Call) : Prop where
  path : ∃ front, (Parts.divide '?' request.url.toList).1 = front ++ call.path.toList
  id : (Parts.divide '?' request.url.toList).2.bind id? = call.workspaceId?
  call : Call.ofRequest? request = some call

/-- A call is carried by itself, or not at all. -/
theorem Client.perform_carried {client : Client} (call : Call) {network : Network}
    (h : network.transport.Lawful) (hbase : '#' ∉ client.baseUrl.toList) :
    network.Carried ((client.perform call).run network).2 [] ∨
      network.Carried ((client.perform call).run network).2 [call] := by
  have hread := client.read_requests h hbase [call]
  rw [perform_run]
  cases hrequest : client.request? network.transport call with
  | none =>
      refine .inl ⟨_, network.sent_after client [call], ?_⟩
      simpa [hrequest] using hread
  | some request =>
      refine .inr ⟨_, network.sent_after client [call], ?_⟩
      simpa [hrequest] using hread

/-- **A request says which call it was made for.** One reader finds the call again, its arguments and
the id of its workspace included, whatever the base address and the strings in the call, from the
address with the quotes escaped in its query and from any body that the call may have; the body that a
client sends is one of these. So the reader finds the call in whatever a lawful transport carries for
it under a base address without a fragment, since fragments are not sent. -/
theorem Call.ofRequest?_eq (client : Client) (call : Call) :
    (∀ body, call.HasBody body → ofRequest?
        ⟨String.ofList (Request.escapeQuery (client.url call.path call.query).toList), body⟩ =
      some call) ∧
    call.HasBody (call.body?.map fun b => b.canonical.render) ∧
    ∀ network : Network, network.transport.Lawful → '#' ∉ client.baseUrl.toList →
      network.Carried ((client.perform call).run network).2 [] ∨
        network.Carried ((client.perform call).run network).2 [call] := by
  obtain ⟨hmark, hquote⟩ := call.marks_not_mem_path
  refine ⟨fun body hbody => ?_, call.hasBody_body?, fun _ h hbase =>
    client.perform_carried call h hbase⟩
  refine ofRequest?_of_url hbody (Request.escapeQuery client.baseUrl.toList) ?_
  rw [String.toList_ofList, Client.url, buildUrl, String.toList_append, String.toList_append,
    String.toList_ofList, escapeQuery_path hmark hquote]

end WorkspaceControl.Rpc
