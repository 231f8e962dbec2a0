import WorkspaceControl.Proofs.Rpc.Classification
import WorkspaceControl.Proofs.Wire.Compatible

/-!
# Responses of other versions of the service

The service may come in a version that tells more than this one asks for. Two responses that
succeeded bring the same result to a call, or the same fault, if their values differ in members that
say nothing (`Wire.Extends`), or if their texts differ in the order of members only
(`Client.perform_eq_of_compatible`). Each call that brings something is answered with one record
(`Call.response?`), and its value reaches the caller by way of this record alone.
-/

namespace WorkspaceControl.Rpc

open Wire Json

/-! ### The record of a response -/

/-- The record that a call is answered with, if it brings anything. -/
def ServiceCall.response? : ServiceCall → Option Shape
  | describeWorkspaces => some (Record.shape WorkspaceList)
  | createWorkspace _ => some (Record.shape WorkspaceCreated)
  | getVersion => some (Record.shape VersionInfo)
  | upgrade => none

@[inherit_doc ServiceCall.response?]
def WorkspaceCall.response? : WorkspaceCall → Option Shape
  | describe => some (Record.shape WorkspaceDetails)
  | describeProcesses => some (Record.shape ProcessList)
  | createProcess _ _ => some (Record.shape ComponentCreated)
  | describeLogs _ => some (Record.shape LogList)
  | getEvents _ => some (Record.shape EventsPage)
  | apply _ | act _ _ | refreshAll => none

@[inherit_doc ServiceCall.response?]
def Call.response? : Call → Option Shape
  | service call => call.response?
  | workspace _ call => call.response?

section

variable {shape : Shape} {value value' : Json}

/-- A record is made of what its shape makes of a value. -/
theorem ofJson_congr {α : Type} [Record α]
    (h : (Record.shape α).ofJson .whole value = (Record.shape α).ofJson .whole value') :
    (Codec.ofJson value : Except DecodeError α) = Codec.ofJson value' := by
  show (unplaced ((Record.shape α).ofJson .whole value) >>= fun data => pure (Record.unpack data)) = _
  rw [h]
  rfl

theorem ServiceCall.ofJson_congr {call : ServiceCall} (hresponse : call.response? = some shape)
    (h : shape.ofJson .whole value = shape.ofJson .whole value') :
    call.ofJson value = call.ofJson value' := by
  cases call with
  | describeWorkspaces =>
      cases hresponse
      exact congrArg (WorkspaceList.workspaces <$> ·) (Rpc.ofJson_congr h)
  | createWorkspace root =>
      cases hresponse
      exact congrArg (WorkspaceCreated.id <$> ·) (Rpc.ofJson_congr h)
  | getVersion =>
      cases hresponse
      exact Rpc.ofJson_congr h
  | upgrade => cases hresponse

theorem WorkspaceCall.ofJson_congr {call : WorkspaceCall} (hresponse : call.response? = some shape)
    (h : shape.ofJson .whole value = shape.ofJson .whole value') :
    call.ofJson value = call.ofJson value' := by
  cases call with
  | describe =>
      cases hresponse
      exact congrArg (WorkspaceDetails.description <$> ·) (Rpc.ofJson_congr h)
  | describeProcesses =>
      cases hresponse
      exact congrArg (ProcessList.processes <$> ·) (Rpc.ofJson_congr h)
  | createProcess name spec =>
      cases hresponse
      exact congrArg (ComponentCreated.id <$> ·) (Rpc.ofJson_congr h)
  | describeLogs refs =>
      cases hresponse
      exact congrArg (LogList.logs <$> ·) (Rpc.ofJson_congr h)
  | getEvents request =>
      cases hresponse
      exact Rpc.ofJson_congr h
  | apply manifest => cases hresponse
  | act action reference => cases hresponse
  | refreshAll => cases hresponse

/-- A call makes the same of values that its record makes the same of. -/
theorem Call.decode_congr {call : Call} (hresponse : call.response? = some shape)
    (h : shape.ofJson .whole value = shape.ofJson .whole value') :
    call.decode value = call.decode value' := by
  have hsame : call.ofJson value = call.ofJson value' := by
    cases call with
    | service call => exact call.ofJson_congr hresponse h
    | workspace id call => exact call.ofJson_congr hresponse h
  rw [decode, decode, hsame]

end

/-! ### Responses that succeeded -/

/-- An answer is a response that succeeded, with a text that stands for a value. -/
def Answer.Carries (answer : Answer) (value : Json) : Prop :=
  ∃ status text, answer.heard = .ok (status, text) ∧ succeeded status = true ∧
    Json.parse text = .ok value

/-- An answer is a response that succeeded, with a text that is written like this. -/
def Answer.Writes (answer : Answer) (tree : Json) : Prop :=
  ∃ status text, answer.heard = .ok (status, text) ∧ succeeded status = true ∧
    ofText text = .ok tree

section

variable {answer answer' : Answer}

theorem Answer.Writes.carries {tree : Json} (h : answer.Writes tree) :
    answer.Carries tree.canonical := by
  obtain ⟨status, text, hheard, hstatus, htree⟩ := h
  exact ⟨status, text, hheard, hstatus, by rw [Json.parse, htree]; rfl⟩

/-- What a call brings then is what it makes of the value. -/
theorem Answer.outcome_of_carries (call : Call) {value : Json} (h : answer.Carries value) :
    answer.outcome call = call.decode value := by
  obtain ⟨status, text, hheard, hstatus, hvalue⟩ := h
  have hsettle : Rpc.settle status text = .ok value := by
    rw [Rpc.settle, refusal?, if_pos hstatus]
    simp only [hvalue]
  rw [outcome, hheard]
  show Rpc.settle status text >>= call.decode = call.decode value
  rw [hsettle]
  rfl

/-- A call brings the same over two scripts if their next answers bring it the same. -/
theorem Client.perform_congr (client : Client) {call : Call}
    (h : answer.outcome call = answer'.outcome call) (transport : Transport) (rest : List Answer)
    (sent : List Request) :
    ((client.perform call).run ⟨transport, answer :: rest, sent⟩).1 =
      ((client.perform call).run ⟨transport, answer' :: rest, sent⟩).1 := by
  rw [perform_run, perform_run]
  simp only [hears]
  cases transport (client.url call.path call.query) with
  | error reason => rfl
  | ok url => exact h

/-- **A call that brings something brings the same from compatible responses**, be it a result or a
fault. Compatible are responses whose values come from each other by members that say nothing, added
and taken away in any record, however deep: a member that no field is named after, whatever it holds,
and a `null` for a field that may be unset. And so are responses whose texts have the same members in
different orders, if no object has a key twice. -/
theorem Client.perform_eq_of_compatible {call : Call} {shape : Shape}
    (hresponse : call.response? = some shape) (client : Client) (transport : Transport)
    (rest : List Answer) (sent : List Request) :
    (∀ answer answer' value value', Answer.Carries answer value → Answer.Carries answer' value' →
      Relation.EqvGen (Extends shape) value value' →
      ((client.perform call).run ⟨transport, answer :: rest, sent⟩).1 =
        ((client.perform call).run ⟨transport, answer' :: rest, sent⟩).1) ∧
    ∀ answer answer' tree tree', Answer.Writes answer tree → Answer.Writes answer' tree' →
      tree.Distinct → Reordered tree tree' →
      ((client.perform call).run ⟨transport, answer :: rest, sent⟩).1 =
        ((client.perform call).run ⟨transport, answer' :: rest, sent⟩).1 := by
  constructor
  · intro answer answer' value value' h h' hsame
    refine client.perform_congr ?_ transport rest sent
    rw [Answer.outcome_of_carries call h, Answer.outcome_of_carries call h']
    exact Call.decode_congr hresponse (ofJson_eq_of_eqvGen .whole hsame)
  · intro answer answer' tree tree' h h' hdistinct hsame
    refine client.perform_congr ?_ transport rest sent
    rw [Answer.outcome_of_carries call h.carries, Answer.outcome_of_carries call h'.carries,
      hsame.canonical_eq hdistinct]

end

/-! A list of logs, the same list from a later version, and that in a text of another order. -/

def earlierText : String := "\x7b\"logs\":[\x7b\"name\":\"a\"\x7d]\x7d"

def earlierLogs : Json := .object [("logs", .array [.object [("name", .string "a")]])]

def laterText : String :=
  "\x7b\"logs\":[\x7b\"kind\":\x7b\x7d,\"lastEventAt\":null,\"name\":\"a\"\x7d],\"more\":[]\x7d"

def laterLogs : Json :=
  .object [("logs", .array [.object [("kind", .object []), ("lastEventAt", .null),
    ("name", .string "a")]]), ("more", .array [])]

def turnedText : String :=
  "\x7b\"more\":[],\"logs\":[\x7b\"name\":\"a\",\"lastEventAt\":null,\"kind\":\x7b\x7d\x7d]\x7d"

def turnedLogs : Json :=
  .object [("more", .array []), ("logs", .array [.object [("name", .string "a"),
    ("lastEventAt", .null), ("kind", .object [])]])]

/-- The response with a text. -/
def answerOf (text : String) : Answer := .response 200 (Utf8.bytes text)

theorem writes_earlierLogs : (answerOf earlierText).Writes earlierLogs :=
  ⟨200, earlierText, by decide +kernel, by decide, by rfl⟩

theorem writes_laterLogs : (answerOf laterText).Writes laterLogs :=
  ⟨200, laterText, by decide +kernel, by decide, by rfl⟩

theorem writes_turnedLogs : (answerOf turnedText).Writes turnedLogs :=
  ⟨200, turnedText, by decide +kernel, by decide, by rfl⟩

/-- The later version says nothing more about logs that a caller would hear of. -/
theorem eqvGen_extends_laterLogs :
    Relation.EqvGen (Extends (Record.shape LogList)) earlierLogs laterLogs := by
  have hmore : Extends (Record.shape LogList) earlierLogs
      (.object [("logs", .array [.object [("name", .string "a")]]), ("more", .array [])]) :=
    .undeclared [("logs", .array [.object [("name", .string "a")]])] [] (by decide) (.array [])
  have hunset : Extends (Record.shape LogDescription) (.object [("name", .string "a")])
      (.object [("lastEventAt", .null), ("name", .string "a")]) :=
    .unset [] [("name", .string "a")] rfl (by decide)
  have hkind : Extends (Record.shape LogDescription)
      (.object [("lastEventAt", .null), ("name", .string "a")])
      (.object [("kind", .object []), ("lastEventAt", .null), ("name", .string "a")]) :=
    .undeclared [] [("lastEventAt", .null), ("name", .string "a")] (by decide) (.object [])
  have hlog (log log' : Json) (h : Extends (Record.shape LogDescription) log log') :
      Extends (Record.shape LogList) (.object [("logs", .array [log]), ("more", .array [])])
        (.object [("logs", .array [log']), ("more", .array [])]) :=
    .member [] [("more", .array [])] rfl (.item [] [] h)
  exact .trans _ _ _ (.rel _ _ hmore)
    (.trans _ _ _ (.rel _ _ (hlog _ _ hunset)) (.rel _ _ (hlog _ _ hkind)))

theorem reordered_turnedLogs : Reordered laterLogs turnedLogs := by
  have hlog : Reordered
      (.object [("kind", .object []), ("lastEventAt", .null), ("name", .string "a")])
      (.object [("name", .string "a"), ("lastEventAt", .null), ("kind", .object [])]) :=
    .object (List.forall₂_same.mpr fun m _ => .intro m.1 (.refl m.2)) (List.reverse_perm _).symm
  exact .object (.cons (.intro "logs" (.array (.cons hlog .nil)))
    (.cons (.intro "more" (.refl _)) .nil)) (.swap _ _ [])

theorem distinct_laterLogs : laterLogs.Distinct := distinct_canonical laterLogs

/-- The three texts bring the same logs. -/
theorem perform_eq_of_laterLogs :
    let brings : String → Except Failure (List LogDescription) := fun text =>
      (((Client.new "https://host").perform (.workspace "w" (.describeLogs []))).run
        (.new .plain [answerOf text])).1
    (brings earlierText).toOption = some [⟨"a", none⟩] ∧ brings earlierText = brings laterText ∧
      brings laterText = brings turnedText := by
  intro brings
  obtain ⟨hextended, hreordered⟩ := Client.perform_eq_of_compatible
    (show (Call.workspace "w" (.describeLogs [])).response? = some (Record.shape LogList) from rfl)
    (Client.new "https://host") .plain [] []
  refine ⟨by decide +kernel, ?_, ?_⟩
  · exact hextended _ _ _ _ writes_earlierLogs.carries writes_laterLogs.carries
      eqvGen_extends_laterLogs
  · exact hreordered _ _ _ _ writes_laterLogs writes_turnedLogs distinct_laterLogs
      reordered_turnedLogs

end WorkspaceControl.Rpc
