import Mathlib.Data.List.TakeWhile
import WorkspaceControl.Proofs.Rpc.Exchange
import WorkspaceControl.Proofs.Text.Percent

/-!
# Lawful transports

What a transport makes of an address is not ours to say, but some of it is known, and it is all that
the theory needs (`Transport.Lawful`): **an address that is sent ends as it is written**, up to the
escaped quotes of its query; **the slashes behind the scheme may be too few**, and then the next word is
taken for the host; and an address of plain words is sent as it stands. A transport may refuse any
address. What follows a `#` is never sent, so the laws are about base addresses without one.

`Transport.plain` keeps the laws (`Transport.plain_lawful`).
-/

namespace WorkspaceControl.Rpc

/-! ### Addresses of calls -/

/-- An address as it is sent: quotes are escaped behind the first question mark. -/
def Request.escapeQuery (url : List Char) : List Char :=
  match Parts.divide '?' url with
  | (place, none) => place
  | (place, some query) => place ++ '?' :: escapeQuotes query

/-- The group of a call is the part of its path in front of the method. -/
def Call.group : Call → String
  | service _ => "kernel"
  | workspace _ _ => "workspace"

def Call.method : Call → String
  | service call => call.method
  | workspace _ call => call.method

/-- The characters of groups and methods. -/
def isWordChar (c : Char) : Bool := c.isLower || c == '-'

theorem Call.isWordChar_group (call : Call) : call.group.toList.all isWordChar = true := by
  cases call <;> rw [group] <;> decide

theorem Call.isWordChar_method (call : Call) : call.method.toList.all isWordChar = true := by
  cases call with
  | service call => cases call <;> rw [method, ServiceCall.method] <;> decide
  | workspace id call =>
      rw [method]
      cases call with
      | act action reference => cases action <;> rw [WorkspaceCall.method] <;> decide
      | _ => rw [WorkspaceCall.method]; decide

/-- No mark of an address stands in a group or a method. -/
theorem not_mem_of_isWordChar {word : List Char} (h : word.all isWordChar = true) {mark : Char}
    (hmark : isWordChar mark = false) : mark ∉ word := by
  intro hmem
  rw [List.all_eq_true.mp h mark hmem] at hmark
  cases hmark

theorem Call.path_toList (call : Call) :
    call.path.toList = '/' :: (call.group.toList ++ '/' :: call.method.toList) := by
  cases call <;> simp [path, group, method]

/-- A group begins with a letter, and not with a slash. -/
theorem Call.group_eq (call : Call) : ∃ c word, call.group.toList = c :: word ∧ c ≠ '/' := by
  cases call with
  | service call => exact ⟨'k', "ernel".toList, by rw [group]; decide, by decide⟩
  | workspace id call => exact ⟨'w', "orkspace".toList, by rw [group]; decide, by decide⟩

/-- No mark of an address but the slash stands in a path. -/
theorem Call.not_mem_path (call : Call) {mark : Char} (hmark : isWordChar mark = false)
    (hslash : mark ≠ '/') : mark ∉ call.path.toList := by
  have hgroup := not_mem_of_isWordChar call.isWordChar_group hmark
  have hmethod := not_mem_of_isWordChar call.isWordChar_method hmark
  simp [path_toList, hslash, hgroup, hmethod]

theorem Call.marks_not_mem_path (call : Call) : '?' ∉ call.path.toList ∧ '\'' ∉ call.path.toList :=
  ⟨call.not_mem_path (by decide) (by decide), call.not_mem_path (by decide) (by decide)⟩

/-- What the query of a call is written in: encoded components and two marks. -/
theorem Call.mem_writeQuery (call : Call) {c : Char} (h : c ∈ writeQuery call.query) :
    Percent.IsWritten c ∨ c = '?' ∨ c = '=' := by
  cases call with
  | service call => exact absurd h List.not_mem_nil
  | workspace id call =>
      simp only [query, writeQuery, writePair, List.flatMap_nil, List.append_nil, List.mem_cons,
        List.mem_append] at h
      rcases h with hmark | hkey | hmark | hid
      · exact .inr (.inl hmark)
      · exact .inl (Percent.isWritten_of_mem_encode hkey)
      · exact .inr (.inr hmark)
      · exact .inl (Percent.isWritten_of_mem_encode hid)

/-- Where the first question mark is, if there is one. -/
theorem escapeQuery_of_not_mem {url : List Char} (h : '?' ∉ url) : Request.escapeQuery url = url := by
  rw [Request.escapeQuery, Parts.divide_of_not_mem '?' url h]

theorem escapeQuery_append {place : List Char} (h : '?' ∉ place) (query : List Char) :
    Request.escapeQuery (place ++ '?' :: query) = place ++ '?' :: Request.escapeQuotes query := by
  rw [Request.escapeQuery, Parts.divide_append '?' place query h]

/-- A path is left as it is, whether it belongs to a query or not, and quotes behind the path are
escaped in either case. -/
theorem escapeQuery_path {path : List Char} (hmark : '?' ∉ path) (hquote : '\'' ∉ path)
    (front : List Char) (query : List QueryPair) :
    Request.escapeQuery (front ++ path ++ writeQuery query) =
      Request.escapeQuery front ++ path ++ Request.escapeQuotes (writeQuery query) := by
  by_cases hfront : '?' ∈ front
  · obtain ⟨place, behind, rfl, hplace⟩ := List.eq_append_cons_of_mem hfront
    have hurl : place ++ '?' :: behind ++ path ++ writeQuery query =
        place ++ '?' :: (behind ++ path ++ writeQuery query) := by simp
    rw [hurl, escapeQuery_append hplace, escapeQuery_append hplace, Percent.escapeQuotes_append,
      Percent.escapeQuotes_append, Percent.escapeQuotes_of_not_mem hquote]
    simp
  · have hplace : '?' ∉ front ++ path := fun h => (List.mem_append.mp h).elim hfront hmark
    rw [escapeQuery_of_not_mem hfront]
    cases query with
    | nil =>
        rw [writeQuery, List.append_nil, escapeQuery_of_not_mem hplace]
        exact (List.append_nil _).symm
    | cons pair pairs =>
        rw [writeQuery, escapeQuery_append hplace]
        rfl

/-- The end of the address of a call behind the last slash, as it is sent. -/
def Call.last (call : Call) : List Char :=
  call.method.toList ++ Request.escapeQuotes (writeQuery call.query)

/-! ### The laws -/

/-- What is known of a transport. -/
structure Transport.Lawful (transport : Transport) : Prop where
  /-- The path and the query of a call stay behind whatever the base address is sent as. That has a
  query of its own only if the base address has one. -/
  ends (base : String) (call : Call) (sent : String) : '#' ∉ base.toList →
    transport (buildUrl base call.path call.query) = .ok sent →
    ∃ front, sent.toList =
        front ++ call.path.toList ++ Request.escapeQuotes (writeQuery call.query) ∧
      ('?' ∉ base.toList → '?' ∉ front)
  /-- One slash behind the scheme is as good as two. -/
  slashes (scheme rest : String) : scheme ∈ Transport.schemes →
    transport (scheme ++ "/" ++ rest) = transport (scheme ++ "//" ++ rest)
  /-- Where the host, the path and the query are plain words, the address is sent as it stands. -/
  words (scheme : String) (call : Call) (sent : String) : scheme ∈ Transport.schemes →
    transport (scheme ++ "//" ++ call.group ++ "/" ++ call.method ++
      String.ofList (writeQuery call.query)) = .ok sent →
    sent = scheme ++ "//" ++ call.group ++ "/" ++ String.ofList call.last

/-- **A base address that is a scheme without slashes leaves the place of the host to the group of
the call.** -/
theorem Transport.Lawful.sent_of_bare_scheme {transport : Transport} (h : transport.Lawful)
    {scheme : String} (hscheme : scheme ∈ Transport.schemes) {call : Call} {sent : String}
    (hsent : transport (buildUrl scheme call.path call.query) = .ok sent) :
    sent = scheme ++ "//" ++ call.group ++ "/" ++ String.ofList call.last := by
  have hurl : buildUrl scheme call.path call.query =
      scheme ++ "/" ++ (call.group ++ "/" ++ call.method ++
        String.ofList (writeQuery call.query)) := by
    rw [buildUrl, ← String.toList_inj]
    simp [call.path_toList]
  rw [hurl, h.slashes _ _ hscheme] at hsent
  refine h.words scheme call sent hscheme ?_
  rw [← hsent]
  exact congrArg transport (by simp [String.append_assoc])

/-! ### The plain transport -/

namespace Transport

theorem slash_not_mem_of_mem_schemes : ∀ scheme ∈ schemes, '/' ∉ scheme.toList := by decide

theorem scheme?_append {scheme : String} (h : scheme ∈ schemes) (rest : List Char) :
    scheme? (scheme.toList ++ rest) = some (scheme, rest) := by
  rcases (by simpa [schemes] using h : scheme = "http:" ∨ scheme = "https:") with rfl | rfl
  · rfl
  · rfl

theorem scheme?_eq_some {url rest : List Char} {scheme : String}
    (h : scheme? url = some (scheme, rest)) :
    scheme ∈ schemes ∧ url = scheme.toList ++ rest := by
  obtain ⟨made, hmade, hurl⟩ := List.exists_of_findSome?_eq_some h
  split at hurl
  · rename_i hstart
    obtain ⟨behind, rfl⟩ := List.isPrefixOf_iff_prefix.mp hstart
    cases hurl
    exact ⟨hmade, by rw [← String.length_toList, List.drop_left]⟩
  · cases hurl

/-- No part of a path belongs to the scheme. -/
theorem scheme_of_append {scheme base more rest : List Char} (hslash : '/' ∉ scheme)
    (h : base ++ '/' :: more = scheme ++ rest) :
    ∃ kept, base = scheme ++ kept ∧ rest = kept ++ '/' :: more := by
  rcases List.append_eq_append_iff.mp h with ⟨behind, rfl, hmore⟩ | ⟨kept, hbase, hrest⟩
  · cases behind with
    | nil => exact ⟨[], by simp, hmore.symm⟩
    | cons c behind =>
        -- Otherwise the slash would stand in the scheme.
        obtain ⟨rfl, -⟩ := List.cons.inj hmore
        exact absurd (List.mem_append_right _ List.mem_cons_self) hslash
  · exact ⟨kept, hbase, hrest⟩

theorem sendPlain_slash (scheme : String) (rest : List Char) :
    sendPlain scheme ('/' :: rest) = sendPlain scheme rest := by
  simp [sendPlain]

/-- What is sent is the address with its quotes escaped, without the slashes in front of the host. -/
theorem sendPlain_eq_ok {scheme sent : String} {rest : List Char}
    (h : sendPlain scheme rest = .ok sent) :
    sent.toList =
      scheme.toList ++ '/' :: '/' :: Request.escapeQuery (rest.dropWhile (· = '/')) := by
  unfold sendPlain at h
  unfold Request.escapeQuery
  cases hparts : Parts.divide '?' (rest.dropWhile (· = '/')) with
  | mk place query =>
      simp only [hparts] at h
      split at h
      · cases h
        cases query <;> simp
      · cases h

/-- No fragment stands in the path and the query of a call. -/
theorem takeWhile_url (front : List Char) (hfront : '#' ∉ front) (call : Call) :
    (front ++ (call.path.toList ++ writeQuery call.query)).takeWhile (· ≠ '#') =
      front ++ (call.path.toList ++ writeQuery call.query) := by
  refine List.takeWhile_eq_self_iff.mpr fun c hc => decide_eq_true ?_
  rintro rfl
  rcases List.mem_append.mp hc with hc | hc
  · exact hfront hc
  · rcases List.mem_append.mp hc with hpath | hquery
    · exact call.not_mem_path (by decide) (by decide) hpath
    · exact absurd (call.mem_writeQuery hquery) (by decide)

/-- Behind the slashes comes the group of a call, if nothing else does. -/
theorem dropWhile_url (call : Call) :
    (call.path.toList ++ writeQuery call.query).dropWhile (· = '/') =
      call.path.toList.tail ++ writeQuery call.query := by
  obtain ⟨c, word, hgroup, hc⟩ := call.group_eq
  simp [call.path_toList, hgroup, hc]

/-- What is sent for a call under a base address is sent behind the scheme of the base address. -/
theorem plain_url_eq_ok {base sent : String} {call : Call} (hbase : '#' ∉ base.toList)
    (h : plain (buildUrl base call.path call.query) = .ok sent) :
    ∃ scheme ∈ schemes, ∃ kept, base.toList = scheme.toList ++ kept ∧
      sendPlain scheme (kept ++ (call.path.toList ++ writeQuery call.query)) = .ok sent := by
  have hurl : (buildUrl base call.path call.query).toList =
      base.toList ++ (call.path.toList ++ writeQuery call.query) := by simp [buildUrl]
  unfold plain at h
  rw [hurl, takeWhile_url _ hbase] at h
  split at h
  · rename_i scheme rest hscheme
    obtain ⟨hmem, hcut⟩ := scheme?_eq_some hscheme
    rw [call.path_toList] at hcut ⊢
    obtain ⟨kept, hkept, rfl⟩ := scheme_of_append (slash_not_mem_of_mem_schemes scheme hmem) hcut
    exact ⟨scheme, hmem, kept, hkept, h⟩
  · cases h

theorem plain_scheme {scheme : String} (h : scheme ∈ schemes) (rest : List Char) :
    plain (scheme ++ String.ofList rest) = sendPlain scheme (rest.takeWhile (· ≠ '#')) := by
  have hall : ∀ scheme ∈ schemes, scheme.toList.all (· ≠ '#') = true := by decide
  have hmark : ∀ c ∈ scheme.toList, decide (c ≠ '#') = true := List.all_eq_true.mp (hall scheme h)
  unfold plain
  rw [String.toList_append, String.toList_ofList, List.takeWhile_append_of_pos hmark,
    scheme?_append h]

theorem plain_bare_scheme {scheme : String} (h : scheme ∈ schemes) (call : Call) :
    plain (buildUrl scheme call.path call.query) =
      sendPlain scheme (call.path.toList ++ writeQuery call.query) := by
  have hurl : buildUrl scheme call.path call.query =
      scheme ++ String.ofList (call.path.toList ++ writeQuery call.query) := by
    rw [← String.toList_inj]
    simp [buildUrl]
  rw [hurl, plain_scheme h]
  exact congrArg (sendPlain scheme) (takeWhile_url [] List.not_mem_nil call)

theorem path_of_bare_scheme (call : Call) :
    Request.escapeQuery ((call.path.toList ++ writeQuery call.query).dropWhile (· = '/')) =
      call.path.toList.tail ++ Request.escapeQuotes (writeQuery call.query) := by
  obtain ⟨hmark, hquote⟩ := call.marks_not_mem_path
  have htail {mark : Char} (hmark : mark ∉ call.path.toList) : mark ∉ call.path.toList.tail :=
    fun hmem => hmark (List.mem_of_mem_tail hmem)
  rw [dropWhile_url]
  exact escapeQuery_path (htail hmark) (htail hquote) [] call.query

/-- The end of an address is sent as it is written. -/
theorem ends_of_sendPlain {scheme sent : String} {kept : List Char} {call : Call}
    (h : sendPlain scheme (kept ++ (call.path.toList ++ writeQuery call.query)) = .ok sent) :
    ∃ front, sent.toList =
        scheme.toList ++ front ++ call.path.toList ++ Request.escapeQuotes (writeQuery call.query) ∧
      ('?' ∉ kept → '?' ∉ front) := by
  rw [sendPlain_eq_ok h, List.dropWhile_append]
  split
  · -- The slashes go on to the path, whose group takes the place of the host.
    refine ⟨['/'], ?_, fun _ => by decide⟩
    rw [path_of_bare_scheme, call.path_toList]
    simp
  -- The slashes end at the host, so the path is not touched.
  · obtain ⟨hmark, hquote⟩ := call.marks_not_mem_path
    refine ⟨'/' :: '/' :: Request.escapeQuery (kept.dropWhile (· = '/')), ?_, fun hkept => ?_⟩
    · rw [← List.append_assoc, escapeQuery_path hmark hquote]
      simp
    · have hrest : '?' ∉ kept.dropWhile (· = '/') :=
        fun hmem => hkept ((List.dropWhile_suffix _).subset hmem)
      rw [escapeQuery_of_not_mem hrest]
      simpa using hrest

/-- **The plain transport keeps the laws.** -/
theorem plain_lawful : plain.Lawful where
  ends base call sent hbase hsent := by
    obtain ⟨scheme, hscheme, kept, hkept, hrest⟩ := plain_url_eq_ok hbase hsent
    obtain ⟨front, hfront, hmark⟩ := ends_of_sendPlain hrest
    have hnomark : ∀ scheme ∈ schemes, '?' ∉ scheme.toList := by decide
    refine ⟨scheme.toList ++ front, hfront, fun h => ?_⟩
    rw [hkept, List.mem_append] at h
    rw [List.mem_append]
    exact not_or.mpr ⟨hnomark scheme hscheme, hmark fun hmem => h (.inr hmem)⟩
  slashes scheme rest hscheme := by
    have hone : scheme ++ "/" ++ rest = scheme ++ String.ofList ('/' :: rest.toList) := by
      rw [← String.toList_inj]
      simp
    have htwo : scheme ++ "//" ++ rest = scheme ++ String.ofList ('/' :: '/' :: rest.toList) := by
      rw [← String.toList_inj]
      simp
    rw [hone, htwo, plain_scheme hscheme, plain_scheme hscheme]
    simp [sendPlain_slash]
  words scheme call sent hscheme hsent := by
    have hurl : scheme ++ "//" ++ call.group ++ "/" ++ call.method ++
        String.ofList (writeQuery call.query) =
          scheme ++ String.ofList ('/' :: (call.path.toList ++ writeQuery call.query)) := by
      rw [← String.toList_inj]
      simp [call.path_toList]
    have hrest := takeWhile_url ['/'] (by decide) call
    rw [hurl, plain_scheme hscheme] at hsent
    rw [List.singleton_append] at hrest
    rw [hrest, sendPlain_slash] at hsent
    rw [← String.toList_inj, sendPlain_eq_ok hsent, path_of_bare_scheme, call.path_toList]
    simp [Call.last]

/-- The query of a call is written as it is sent, but for the quotes. -/
theorem isQueryChar_of_mem_writeQuery (call : Call) :
    (writeQuery call.query).all isQueryChar = true := by
  refine List.all_eq_true.mpr fun c hc => ?_
  rcases call.mem_writeQuery hc with (hplain | rfl) | rfl | rfl
  · simp [isQueryChar, hplain]
  all_goals decide

/-- The group and the method of a call are written as they are sent, whatever the query is. -/
theorem isPlain_of_call (call : Call) {query : List Char} (h : query.all isQueryChar = true) :
    isPlain call.group.toList ('/' :: call.method.toList) query = true := by
  have hne : call.group.toList.isEmpty = false := by
    obtain ⟨c, word, hgroup, -⟩ := call.group_eq
    rw [hgroup]
    rfl
  have hport : ':' ∉ call.group.toList := not_mem_of_isWordChar call.isWordChar_group (by decide)
  have hword {text : List Char} {p : Char → Bool} (htext : text.all isWordChar = true)
      (hp : ∀ c, isWordChar c = true → p c = true) : text.all p = true :=
    List.all_eq_true.mpr fun c hc => hp c (List.all_eq_true.mp htext c hc)
  have hhost : call.group.toList.all isHostChar = true :=
    hword call.isWordChar_group fun c hc => by
      unfold isWordChar at hc
      unfold isHostChar
      grind
  have hpath : call.method.toList.all isPathChar = true :=
    hword call.isWordChar_method fun c hc => by
      unfold isWordChar at hc
      unfold isPathChar Char.isAlphanum Char.isAlpha
      grind
  have hslash : isPathChar '/' = true := by decide
  rw [isPlain, isPlainHost, Parts.divide_of_not_mem ':' _ hport, h, List.all_cons, hslash, hpath]
  simp [hne, hhost]

/-- A call is taken whose group stands in the place of the host. -/
theorem plain_takes_bare_scheme {scheme : String} (h : scheme ∈ schemes) (call : Call) :
    ∃ sent, plain (buildUrl scheme call.path call.query) = .ok sent := by
  -- Behind the slashes stands the group, in the place of the host, and then the method.
  obtain ⟨query, hquery, hall⟩ : ∃ query,
      Parts.divide '?' ((call.path.toList ++ writeQuery call.query).dropWhile (· = '/')) =
        (call.group.toList ++ '/' :: call.method.toList, query) ∧
      (query.getD []).all isQueryChar = true := by
    have hall := isQueryChar_of_mem_writeQuery call
    have hmark : '?' ∉ call.group.toList ++ '/' :: call.method.toList := by
      simpa [call.path_toList] using call.marks_not_mem_path.1
    rw [dropWhile_url, call.path_toList, List.tail_cons]
    cases hwritten : writeQuery call.query with
    | nil => exact ⟨none, by rw [List.append_nil, Parts.divide_of_not_mem '?' _ hmark], rfl⟩
    | cons c query =>
        obtain rfl : c = '?' := by
          cases call with
          | service call => cases hwritten
          | workspace id call => exact (List.cons.inj hwritten).1.symm
        rw [hwritten, List.all_cons, Bool.and_eq_true] at hall
        exact ⟨some query, Parts.divide_append '?' _ _ hmark, hall.2⟩
  have hgroup : ∀ c ∈ call.group.toList, decide (c ≠ '/') = true := fun c hc =>
    decide_eq_true fun e => not_mem_of_isWordChar call.isWordChar_group (by decide) (e ▸ hc)
  have hhost : (call.group.toList ++ '/' :: call.method.toList).takeWhile (· ≠ '/') =
      call.group.toList := by
    rw [List.takeWhile_append_of_pos hgroup]
    simp
  rw [plain_bare_scheme h, sendPlain]
  simp only [hquery, hhost, List.drop_left, isPlain_of_call call hall, if_true]
  exact ⟨_, rfl⟩

end Transport

end WorkspaceControl.Rpc
