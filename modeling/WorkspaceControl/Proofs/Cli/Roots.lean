import WorkspaceControl.Proofs.Cli.FileSystems
import WorkspaceControl.Proofs.Cli.Requests

/-!
# Workspaces by their roots

Where a workspace is registered, and where it is looked for later, canonical paths are made in two
places that treat failure in two ways: a root that leads nowhere cannot be registered, and is compared
as it is written where it is looked for. In a lawful file system the two agree. Whatever is compared
as it is written leads nowhere, so it has not the parts of a directory that is there
(`FileSystem.Lawful.same_iff`), and of all roots those are found that lead to the directory, however
they are written.

Between the two stands the text that is sent for the root. It is the directory if that is a text, and
another place if it is none (`registered_root_lost`).
-/

namespace WorkspaceControl.Cli

open Rpc

/-- A path is the place that is shown for it if and only if it is a text. -/
theorem Path.ofText_display_eq_iff (path : Path) :
    ofText path.display = path ↔ ∃ text, path = ofText text := by
  constructor
  · intro h
    exact ⟨path.display, h.symm⟩
  · rintro ⟨text, rfl⟩
    rw [display_ofText]

namespace FileSystem

variable {fs : FileSystem} {here directory : Path}

/-- **A root is the place of a directory if it leads there**, and not if it leads nowhere. -/
theorem Lawful.same_iff (h : fs.Lawful) (hdirectory : fs.IsDirectory directory)
    (hhere : fs.canonical here here = .ok directory) (root : Path) :
    (fs.surroundings here).same root here = true ↔ fs.canonical here root = .ok directory := by
  have hself : fs.canonical here directory = .ok directory := h.canonical_canonical hhere
  have hsame : (fs.surroundings here).same root here = true ↔
      ((fs.surroundings here).normal root).parts = directory.parts := by
    simp [Surroundings.same, Surroundings.normal, surroundings, hhere]
  rw [hsame]
  unfold Surroundings.normal
  cases hroot : fs.canonical here root with
  | ok found =>
      simp only [surroundings, hroot, Except.ok.injEq]
      constructor
      · intro hparts
        -- The canonical path of the root is its own, and the one of the directory as well.
        have hfound := h.canonical_of_parts hself hdirectory hparts
        rw [h.canonical_canonical hroot] at hfound
        exact Except.ok.inj hfound
      · exact congrArg Path.parts
  | error fault =>
      simp only [surroundings, hroot, reduceCtorEq, iff_false]
      intro hparts
      rw [h.canonical_of_parts hself hdirectory hparts] at hroot
      cases hroot

/-- The first workspace listed whose root leads to a directory. -/
def FirstAt (fs : FileSystem) (here directory : Path) (listing : List WorkspaceDescription)
    (w : WorkspaceDescription) : Prop :=
  ∃ before after, listing = before ++ w :: after ∧
    fs.canonical here (.ofText w.root) = .ok directory ∧
    ∀ v ∈ before, fs.canonical here (.ofText v.root) ≠ .ok directory

theorem Lawful.find?_same_eq_some_iff (h : fs.Lawful) (hdirectory : fs.IsDirectory directory)
    (hhere : fs.canonical here here = .ok directory) {listing : List WorkspaceDescription}
    {w : WorkspaceDescription} :
    listing.find? (fun w => (fs.surroundings here).same (.ofText w.root) here) = some w ↔
      fs.FirstAt here directory listing w := by
  rw [List.find?_eq_some_iff_append]
  simp only [Bool.not_eq_true', ← Bool.not_eq_true, h.same_iff hdirectory hhere]
  constructor
  · rintro ⟨hroot, before, after, hlisting, hbefore⟩
    exact ⟨before, after, hlisting, hroot, hbefore⟩
  · rintro ⟨before, after, hlisting, hroot, hbefore⟩
    exact ⟨hroot, before, after, hlisting, hbefore⟩

/-- Without a text the first workspace listed is meant whose root leads to the directory. -/
theorem Lawful.resolve_eq_ok_iff (h : fs.Lawful) (hdirectory : fs.IsDirectory directory)
    (hhere : fs.canonical here here = .ok directory) {listing : List WorkspaceDescription}
    {id : String} :
    resolve (fs.surroundings here) none listing = .ok id ↔
      ∃ w, fs.FirstAt here directory listing w ∧ w.id = id := by
  rw [Cli.resolve_eq_ok_iff]
  have hmeant : Meant (fs.surroundings here) none listing id ↔ ∃ w, listing.find?
      (fun w => (fs.surroundings here).same (.ofText w.root) here) = some w ∧ w.id = id := by
    simp [Meant, surroundings]
  rw [hmeant]
  exact exists_congr fun w => and_congr_left' (h.find?_same_eq_some_iff hdirectory hhere)

/-- One of the workspaces at a directory is the first. -/
theorem exists_firstAt {listing : List WorkspaceDescription} {w : WorkspaceDescription}
    (hmem : w ∈ listing) (hroot : fs.canonical here (.ofText w.root) = .ok directory) :
    ∃ v, fs.FirstAt here directory listing v := by
  induction listing with
  | nil => cases hmem
  | cons first rest ih =>
      by_cases hfirst : fs.canonical here (.ofText first.root) = .ok directory
      · exact ⟨first, [], rest, rfl, hfirst, List.forall_mem_nil _⟩
      · have hrest : w ∈ rest := by
          rcases List.mem_cons.mp hmem with rfl | hrest
          · exact absurd hroot hfirst
          · exact hrest
        obtain ⟨v, before, after, rfl, hv, hbefore⟩ := ih hrest
        exact ⟨v, first :: before, after, rfl, hv, List.forall_mem_cons.mpr ⟨hfirst, hbefore⟩⟩

/-- Workspaces whose roots lead nowhere might as well not be listed. -/
theorem Lawful.resolve_filter (h : fs.Lawful) (hdirectory : fs.IsDirectory directory)
    (hhere : fs.canonical here here = .ok directory) (listing : List WorkspaceDescription) :
    resolve (fs.surroundings here) none
        (listing.filter fun w => (fs.canonical here (.ofText w.root)).isOk) =
      resolve (fs.surroundings here) none listing := by
  let s := fs.surroundings here
  have hsame : (fun w : WorkspaceDescription =>
      decide ((fs.canonical here (.ofText w.root)).isOk = true ∧
        s.same (.ofText w.root) here = true)) = fun w => s.same (.ofText w.root) here := by
    funext w
    rw [Bool.eq_iff_iff, decide_eq_true_iff]
    refine and_iff_right_of_imp fun hroot => ?_
    rw [(h.same_iff hdirectory hhere (.ofText w.root)).mp hroot]
    rfl
  have hfind : (listing.filter fun w => (fs.canonical here (.ofText w.root)).isOk).find?
      (fun w => s.same (.ofText w.root) here) =
        listing.find? fun w => s.same (.ofText w.root) here := by
    rw [List.find?_filter, hsame]
  show matchRoot s here _ = matchRoot s here _
  rw [matchRoot, hfind, matchRoot]

end FileSystem

/-! ### Registering and finding -/

/-- What is asked for with a root that leads to a path: a workspace at what is shown of the path. -/
theorem Invocation.sent_createWorkspace {invocation : Invocation} {root : String} {path : Path}
    {surroundings : Surroundings} (hcommand : invocation.command = .createWorkspace root)
    (hvalid : invocation.settings.validate = .ok ())
    (hroot : surroundings.canonical (.ofText root) = .ok path) (transport : Transport)
    (script : List Answer) :
    (invocation.report surroundings (.new transport script)).sent =
      invocation.settings.client.requests transport
        [.service (.createWorkspace path.display)] := by
  obtain ⟨calls, hsent, hconduct⟩ :=
    Invocation.report_conducts hvalid surroundings transport script
  rw [hcommand] at hconduct
  have hcalls : calls = (creation surroundings root).map .service := hconduct
  rw [hsent, hcalls, creation, hroot]
  rfl

/-- **What is registered is what is found.** In a lawful file system a workspace is registered by what
is shown of the canonical path of its root, however the root is written and wherever it is looked at
from; only if the transport refuses the address for that, it is not registered. What is shown of a
path is the path if and only if that is a text. A command that is not told its workspace means the
first workspace listed whose root leads to the directory where the command runs, however that root is
written; so if that directory is a text, and a workspace is listed with what it was registered by, one
at the directory is found. Workspaces whose roots lead nowhere do not matter, wherever they are
listed. -/
theorem registered_root_found {fs : FileSystem} (hfs : fs.Lawful) {directory : Path}
    (hdirectory : fs.IsDirectory directory) :
    (∀ invocation root there transport script,
      invocation.command = .createWorkspace root → invocation.settings.validate = .ok () →
      fs.canonical there (.ofText root) = .ok directory →
      let address := transport (invocation.settings.client.url "/kernel/create-workspace" [])
      let report := invocation.report (fs.surroundings there) (.new transport script)
      (∀ url, address = .ok url → ∃ body, report.sent = [⟨url, some body⟩] ∧
        record? (some body) = some (⟨directory.display⟩ : WorkspaceRequest)) ∧
      (∀ reason, address = .error reason → report.sent = []) ∧
      ∀ environment words, parse environment words = .ok invocation →
        run environment (fs.surroundings there) (.new transport script) words = report) ∧
    (Path.ofText directory.display = directory ↔ ∃ text, directory = .ofText text) ∧
    ∀ settings client here desk listing, settings.workspace = none →
      Client.lists client desk.network = .ok listing → fs.canonical here here = .ok directory →
      let found := ((Context.mk settings client (fs.surroundings here)).resolve.run.run desk).1
      (∀ id, found = .ok id ↔ ∃ w, fs.FirstAt here directory listing w ∧ w.id = id) ∧
      ((∃ text, directory = .ofText text) → ∀ w ∈ listing, w.root = directory.display →
        ∃ v, fs.FirstAt here directory listing v ∧ found = .ok v.id) ∧
      resolve (fs.surroundings here) none
          (listing.filter fun w => (fs.canonical here (.ofText w.root)).isOk) =
        resolve (fs.surroundings here) none listing := by
  refine ⟨?_, directory.ofText_display_eq_iff, ?_⟩
  · intro invocation root there transport script hcommand hvalid hroot address report
    let create : Rpc.Call := .service (.createWorkspace directory.display)
    have hsent : report.sent = invocation.settings.client.requests transport [create] :=
      Invocation.sent_createWorkspace hcommand hvalid hroot transport script
    refine ⟨fun url hurl => ?_, fun reason hreason => ?_,
      fun environment words hparse => run_eq_report hparse _ _⟩
    · have hrequest : invocation.settings.client.request? transport create =
          some ⟨url, create.body?.map fun b => b.canonical.render⟩ := by
        have htaken : transport (invocation.settings.client.url create.path create.query) = .ok url :=
          hurl
        rw [Client.request?, htaken]
      refine ⟨_, hsent.trans (List.filterMap_cons_some hrequest), ?_⟩
      exact record?_of_sound (⟨directory.display⟩ : WorkspaceRequest)
    · exact hsent.trans (Client.requests_of_refused (Transport.not_takes_iff.mpr ⟨reason, hreason⟩))
  · intro settings client here desk listing hnone hlists hhere found
    have hiff : ∀ id, found = .ok id ↔ ∃ w, fs.FirstAt here directory listing w ∧ w.id = id := by
      intro id
      rw [Context.resolve_eq_ok_iff, ← hfs.resolve_eq_ok_iff hdirectory hhere,
        Cli.resolve_eq_ok_iff]
      simp [hlists, hnone]
    refine ⟨hiff, fun htext w hmem hroot => ?_, hfs.resolve_filter hdirectory hhere listing⟩
    -- What was sent for a text is the canonical path, which is its own.
    have hleads : fs.canonical here (.ofText w.root) = .ok directory := by
      rw [hroot, directory.ofText_display_eq_iff.mpr htext]
      exact hfs.canonical_canonical hhere
    obtain ⟨v, hv⟩ := FileSystem.exists_firstAt hmem hleads
    exact ⟨v, hv, (hiff v.id).mpr ⟨v, hv, rfl⟩⟩

/-! A run: a workspace is registered from the directory above its root, and looked for in the root
itself. One workspace listed has a root that is gone, and another was registered before at the same
root, written in another way. -/

def srv : Name := Utf8.bytes "srv"

def one : Name := Utf8.bytes "one"

def sampleTree : FileTree := ⟨[([srv], .directory), ([srv, one], .directory)]⟩

theorem inOrder_sampleTree : sampleTree.InOrder := ⟨by decide +kernel, by decide +kernel⟩

def registerWords : List String := ["--url", "https://host/", "workspace", "create", "./one/"]

def registering : Invocation where
  settings := ⟨"https://host/", none, 1000, 250, none⟩
  command := .createWorkspace "./one/"

def rootListing : List WorkspaceDescription :=
  [⟨"g", "/gone"⟩, ⟨"w", "../one/"⟩, ⟨"n", "/srv/one"⟩]

def rootNetwork : Network := .new .plain [responseOf (⟨rootListing⟩ : WorkspaceList)]

theorem registered_root_found_in_sampleTree :
    let fs := sampleTree.fileSystem
    parse .empty registerWords = .ok registering ∧
    (∃ request, (run .empty (fs.surroundings (.ofText "/srv")) (.new .plain []) registerWords).sent =
        [request] ∧
      record? request.body = some (⟨"/srv/one"⟩ : WorkspaceRequest)) ∧
    ((Context.mk registering.settings registering.settings.client
      (fs.surroundings (.ofText "/srv/one"))).resolve.run.run ⟨rootNetwork, []⟩).1 = .ok "w" := by
  intro fs
  have hparse : parse .empty registerWords = .ok registering := ok_of_toOption (by decide +kernel)
  have hvalid : registering.settings.validate = .ok () := ok_of_toOption (by decide +kernel)
  have hroot : fs.canonical (.ofText "/srv") (.ofText "./one/") = .ok (.ofText "/srv/one") :=
    ok_of_toOption (by decide +kernel)
  have hhere : fs.canonical (.ofText "/srv/one") (.ofText "/srv/one") = .ok (.ofText "/srv/one") :=
    ok_of_toOption (by decide +kernel)
  have hlists : registering.settings.client.lists rootNetwork = .ok rootListing :=
    ok_of_toOption (by decide +kernel)
  have htaken : Transport.plain (registering.settings.client.url "/kernel/create-workspace" []) =
      .ok "https://host/kernel/create-workspace" := ok_of_toOption (by decide +kernel)
  obtain ⟨hcreate, -, hfind⟩ := registered_root_found inOrder_sampleTree.lawful
    (show fs.IsDirectory (.ofText "/srv/one") from
      ⟨[srv, one], by decide +kernel, by decide +kernel⟩)
  refine ⟨hparse, ?_, ?_⟩
  · obtain ⟨hsends, -, hruns⟩ :=
      hcreate registering "./one/" (.ofText "/srv") .plain [] rfl hvalid hroot
    obtain ⟨body, hsent, hbody⟩ := hsends _ htaken
    rw [Path.display_ofText] at hbody
    exact ⟨_, (hruns _ _ hparse).symm ▸ hsent, hbody⟩
  · have hfirst : fs.FirstAt (.ofText "/srv/one") (.ofText "/srv/one") rootListing
        ⟨"w", "../one/"⟩ := by
      refine ⟨[⟨"g", "/gone"⟩], [⟨"n", "/srv/one"⟩], rfl, ok_of_toOption (by decide +kernel), ?_⟩
      rw [List.forall_mem_singleton]
      intro hgone
      have hnone : (fs.canonical (.ofText "/srv/one") (.ofText "/gone")).toOption = none := by
        decide +kernel
      rw [hgone] at hnone
      cases hnone
    have hfound := hfind registering.settings registering.settings.client (.ofText "/srv/one")
      ⟨rootNetwork, []⟩ rootListing rfl hlists hhere
    exact (hfound.1 "w").mpr ⟨_, hfirst, rfl⟩

/-! ### Roots that are not registered as they are -/

def usr : Name := Utf8.bytes "usr"

/-- A directory whose name is no text stands beside one whose name is. -/
def oddTree : FileTree := ⟨[([usr], .directory), ([[0xFF]], .directory)]⟩

def oddDirectory : Path := .absolute [[0xFF]]

theorem inOrder_oddTree : oddTree.InOrder := ⟨by decide +kernel, by decide +kernel⟩

/-- **Not every workspace is registered at its root.** A directory that is no text is registered as
another place, and what is listed there is not found in the directory. With an address that passes for
one but cannot be sent to, nothing is registered at all. -/
theorem registered_root_lost :
    let fs := oddTree.fileSystem
    fs.Lawful ∧
    (fs.IsDirectory oddDirectory ∧
      fs.canonical oddDirectory (.ofText ".") = .ok oddDirectory ∧
      (run .empty (fs.surroundings oddDirectory) (.new .plain [])
          ["--url", "https://host", "workspace", "create", "."]).sent =
        [⟨"https://host/kernel/create-workspace", some "\x7b\"root\":\"/\uFFFD\"\x7d"⟩] ∧
      Path.ofText "/\uFFFD" ≠ oddDirectory ∧
      resolve (fs.surroundings oddDirectory) none [⟨"w", "/\uFFFD"⟩] =
        .error (.noRoot "/\uFFFD")) ∧
    let report := run .empty (fs.surroundings (.ofText "/"))
      (.new .plain [.response 200 (Utf8.bytes "\x7b\"id\":\"w\"\x7d")])
      ["--url", "http://a b", "workspace", "create", "/usr"]
    (⟨"http://a b", none, 1000, 250, none⟩ : Settings).validate = .ok () ∧
    fs.canonical (.ofText "/") (.ofText "/usr") = .ok (.ofText "/usr") ∧
    report.exit = 1 ∧ report.sent = [] := by
  intro fs
  have hdirectory : fs.IsDirectory oddDirectory := ⟨[[0xFF]], rfl, by decide +kernel⟩
  have hhere : fs.canonical oddDirectory (.ofText ".") = .ok oddDirectory :=
    ok_of_toOption (by decide +kernel)
  refine ⟨inOrder_oddTree.lawful, ⟨hdirectory, hhere, ?_, ?_, ?_⟩, ok_of_toOption ?_,
    ok_of_toOption ?_, ?_, ?_⟩
  all_goals decide +kernel

end WorkspaceControl.Cli
