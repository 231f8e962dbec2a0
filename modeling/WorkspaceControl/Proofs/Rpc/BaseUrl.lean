import Mathlib.Data.List.DropRight
import WorkspaceControl.Proofs.Rpc.Requests

/-!
# Base addresses of clients

A client keeps the base address of its settings without the slashes at the end. The settings are
checked while the slashes are still there, so what the check has found need not hold of what is
left: **the base address of a client is in order again if and only if something besides slashes
stands behind the scheme**. Settings that name nothing there pass the check all the same. Their
client has lost the slashes of the scheme as well, and since whatever follows the scheme is taken
for the host, its requests go to a host that is called like the group of the call.
-/

namespace WorkspaceControl.Rpc

/-- What the base address of settings in order begins with. -/
def schemes : List String := ["http://", "https://"]

/-- Something besides slashes stands behind the scheme of the base address. -/
def Settings.NamesHost (s : Settings) : Prop :=
  ∃ scheme ∈ schemes, ∃ rest, s.baseUrl.toList = scheme.toList ++ rest ∧ ∃ c ∈ rest, c ≠ '/'

/-! ### Slashes at the end -/

theorem toList_trimSlashes (base : String) :
    (trimSlashes base).toList = base.toList.rdropWhile (· = '/') :=
  String.toList_ofList

theorem getLast?_trimSlashes (base : String) : (trimSlashes base).toList.getLast? ≠ some '/' := by
  rw [toList_trimSlashes]
  intro h
  have hne : base.toList.rdropWhile (· = '/') ≠ [] := by
    rintro hnil
    rw [hnil] at h
    cases h
  rw [List.getLast?_eq_some_getLast hne, Option.some.injEq] at h
  exact List.rdropWhile_last_not _ _ hne (by simp [h])

/-- What stands in front of something besides slashes is kept. -/
theorem toList_trimSlashes_of_exists {base : String} {front rest : List Char}
    (h : base.toList = front ++ rest) (hrest : ∃ c ∈ rest, c ≠ '/') :
    (trimSlashes base).toList = front ++ rest.rdropWhile (· = '/') := by
  have hne : ¬(rest.reverse.dropWhile (· = '/')).isEmpty := by simpa using hrest
  rw [toList_trimSlashes, h, List.rdropWhile, List.reverse_append, List.dropWhile_append,
    if_neg hne]
  simp [List.rdropWhile]

/-- Slashes are trimmed with those that stand in front of them. -/
theorem toList_trimSlashes_of_forall {base : String} {front rest : List Char}
    (h : base.toList = front ++ rest) (hrest : ∀ c ∈ rest, c = '/') :
    (trimSlashes base).toList = front.rdropWhile (· = '/') := by
  have hempty : (rest.reverse.dropWhile (· = '/')).isEmpty := by simpa using hrest
  rw [toList_trimSlashes, h, List.rdropWhile, List.reverse_append, List.dropWhile_append,
    if_pos hempty]
  rfl

/-! ### Settings in order -/

theorem begins_iff {start text : String} :
    Parts.begins start text = true ↔ ∃ rest, text.toList = start.toList ++ rest := by
  rw [Parts.begins, List.isPrefixOf_iff_prefix]
  exact exists_congr fun rest => eq_comm

/-- Settings are in order if their base address has a scheme and their time limit is not zero. -/
theorem Settings.validate_eq_ok_iff {s : Settings} :
    s.validate = .ok () ↔
      (∃ scheme ∈ schemes, ∃ rest, s.baseUrl.toList = scheme.toList ++ rest) ∧
        s.timeout ≠ some 0 := by
  have hschemes : (∃ scheme ∈ schemes, ∃ rest, s.baseUrl.toList = scheme.toList ++ rest) ↔
      Parts.begins "http://" s.baseUrl = true ∨ Parts.begins "https://" s.baseUrl = true := by
    simp only [← begins_iff, schemes, List.mem_cons, List.not_mem_nil, or_false, exists_eq_or_imp,
      exists_eq_left]
  have hempty : s.baseUrl = "" → Parts.begins "http://" s.baseUrl = false ∧
      Parts.begins "https://" s.baseUrl = false := by
    intro h
    rw [h]
    decide
  rw [hschemes]
  unfold validate
  split
  · simp [hempty ‹_›]
  · split
    · simp_all
    · split <;> simp_all [or_iff_not_imp_left]

theorem Client.ofSettings_eq_ok_iff {s : Settings} {client : Client} :
    ofSettings s = .ok client ↔
      s.validate = .ok () ∧ client = ⟨trimSlashes s.baseUrl, s.timeout⟩ := by
  unfold ofSettings
  cases s.validate with
  | ok done => simp [eq_comm]
  | error fault => simp

/-! ### What is left of a base address -/

/-- If a scheme is left, something besides slashes stood behind it. -/
theorem Settings.namesHost_of_trimmed {s : Settings} {scheme : String} (hscheme : scheme ∈ schemes)
    {kept : List Char} (h : (trimSlashes s.baseUrl).toList = scheme.toList ++ kept) :
    s.NamesHost := by
  obtain ⟨slashes, hbase⟩ : (trimSlashes s.baseUrl).toList <+: s.baseUrl.toList := by
    rw [toList_trimSlashes]
    exact List.rdropWhile_prefix _ _
  rw [h, List.append_assoc] at hbase
  refine ⟨scheme, hscheme, kept ++ slashes, hbase.symm, ?_⟩
  have hlast := getLast?_trimSlashes s.baseUrl
  rw [h, List.getLast?_append] at hlast
  cases hkept : kept.getLast? with
  | some c =>
      rw [hkept] at hlast
      refine ⟨c, List.mem_append_left _ (List.mem_of_getLast? hkept), fun hc => hlast ?_⟩
      rw [hc]
      rfl
  | none =>
      -- Then the scheme itself is all that is left, and it ends in a slash.
      rw [hkept, Option.none_or] at hlast
      have hslash : ∀ scheme ∈ schemes, scheme.toList.getLast? = some '/' := by decide
      exact absurd (hslash scheme hscheme) hlast

theorem Settings.validate_trimmed_iff {s : Settings} (h : s.validate = .ok ()) :
    validate ⟨trimSlashes s.baseUrl, s.timeout⟩ = .ok () ↔ s.NamesHost := by
  rw [validate_eq_ok_iff]
  constructor
  · rintro ⟨⟨scheme, hscheme, kept, hkept⟩, -⟩
    exact namesHost_of_trimmed hscheme hkept
  · rintro ⟨scheme, hscheme, rest, hbase, hrest⟩
    exact ⟨⟨scheme, hscheme, _, toList_trimSlashes_of_exists hbase hrest⟩,
      (validate_eq_ok_iff.mp h).2⟩

/-- Where nothing stands behind the scheme but slashes, all of them go. -/
theorem Settings.trimmed_of_not_namesHost {s : Settings} (h : s.validate = .ok ())
    (hhost : ¬s.NamesHost) :
    trimSlashes s.baseUrl = "http:" ∨ trimSlashes s.baseUrl = "https:" := by
  obtain ⟨⟨scheme, hscheme, rest, hbase⟩, -⟩ := validate_eq_ok_iff.mp h
  have hslashes : ∀ c ∈ rest, c = '/' := by
    intro c hc
    by_contra hne
    exact hhost ⟨scheme, hscheme, rest, hbase, c, hc, hne⟩
  have htrimmed := toList_trimSlashes_of_forall hbase hslashes
  rcases List.mem_pair.mp hscheme with rfl | rfl
  · exact .inl (String.toList_inj.mp (htrimmed.trans (by decide)))
  · exact .inr (String.toList_inj.mp (htrimmed.trans (by decide)))

/-- Behind a scheme without slashes, the group of a call takes the place of the host: this is where the
plain transport sends it, and so does every lawful transport that sends it. -/
theorem Client.sent_of_bare_scheme {client : Client} {scheme : String}
    (hscheme : scheme ∈ Transport.schemes) (h : client.baseUrl = scheme) (call : Call) :
    Transport.plain (client.url call.path call.query) =
        .ok (scheme ++ "//" ++ call.group ++ "/" ++ String.ofList call.last) ∧
      ∀ transport : Transport, transport.Lawful → ∀ sent,
        transport (client.url call.path call.query) = .ok sent →
        sent = scheme ++ "//" ++ call.group ++ "/" ++ String.ofList call.last := by
  rw [url, h]
  obtain ⟨sent, hsent⟩ := Transport.plain_takes_bare_scheme hscheme call
  refine ⟨?_, fun transport hlawful sent => hlawful.sent_of_bare_scheme hscheme⟩
  rw [hsent, Transport.plain_lawful.sent_of_bare_scheme hscheme hsent]

/-- **What is left of a base address is in order if and only if something besides slashes stands
behind its scheme.** A client of settings in order has a base address that does not end in a slash
and that all its addresses begin with. That base address passes the check again if the settings name
something behind the scheme. If they do not, the scheme is left without its slashes, and every request
goes to a host called like the group of its call. -/
theorem Client.ofSettings_accepted_iff {s : Settings} {client : Client}
    (h : ofSettings s = .ok client) :
    client.baseUrl.toList.getLast? ≠ some '/' ∧
    (∀ path query, Parts.begins client.baseUrl (client.url path query) = true) ∧
    (Settings.validate ⟨client.baseUrl, client.timeout⟩ = .ok () ↔ s.NamesHost) ∧
    (¬s.NamesHost → client.baseUrl = "http:" ∨ client.baseUrl = "https:") ∧
    ∀ scheme ∈ Transport.schemes, client.baseUrl = scheme → ∀ call : Call,
      Transport.plain (client.url call.path call.query) =
          .ok (scheme ++ "//" ++ call.group ++ "/" ++ String.ofList call.last) ∧
        ∀ transport : Transport, transport.Lawful → ∀ sent,
          transport (client.url call.path call.query) = .ok sent →
          sent = scheme ++ "//" ++ call.group ++ "/" ++ String.ofList call.last := by
  obtain ⟨hvalid, rfl⟩ := ofSettings_eq_ok_iff.mp h
  refine ⟨getLast?_trimSlashes s.baseUrl, fun path query => ?_,
    Settings.validate_trimmed_iff hvalid, Settings.trimmed_of_not_namesHost hvalid,
    fun scheme hscheme => sent_of_bare_scheme hscheme⟩
  refine begins_iff.mpr ⟨path.toList ++ writeQuery query, ?_⟩
  simp [url, buildUrl]

/-- Slashes go from behind a host without harm. -/
theorem Client.ofSettings_accepted_of_host :
    ofSettings ⟨"https://host/api//", some 5⟩ = .ok ⟨"https://host/api", some 5⟩ ∧
      Settings.validate ⟨"https://host/api", some 5⟩ = .ok () := by
  have hvalid : Settings.validate ⟨"https://host/api//", some 5⟩ = .ok () :=
    Settings.validate_eq_ok_iff.mpr
      ⟨⟨"https://", by decide, "host/api//".toList, by decide⟩, by decide⟩
  have hclient : ofSettings ⟨"https://host/api//", some 5⟩ = .ok ⟨"https://host/api", some 5⟩ :=
    ofSettings_eq_ok_iff.mpr ⟨hvalid, by decide⟩
  obtain ⟨-, -, haccepted, -⟩ := ofSettings_accepted_iff hclient
  exact ⟨hclient, haccepted.mpr
    ⟨"https://", by decide, "host/api//".toList, by decide, 'h', by decide, by decide⟩⟩

/-- The scheme alone is accepted, and the client of it sends its requests to a host that nobody has
named. -/
theorem Client.ofSettings_of_bare_scheme :
    ∃ client, ofSettings ⟨"http://", none⟩ = .ok client ∧
      Settings.validate ⟨client.baseUrl, client.timeout⟩ = .error .unsupportedScheme ∧
      Transport.plain
          (client.url (Call.service .getVersion).path (Call.service .getVersion).query) =
        .ok "http://kernel/get-version" := by
  have hvalid : Settings.validate ⟨"http://", none⟩ = .ok () :=
    Settings.validate_eq_ok_iff.mpr ⟨⟨"http://", by decide, [], by decide⟩, by decide⟩
  exact ⟨⟨"http:", none⟩, ofSettings_eq_ok_iff.mpr ⟨hvalid, by decide⟩, by rfl, by decide +kernel⟩

end WorkspaceControl.Rpc
