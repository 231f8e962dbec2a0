import WorkspaceControl.Proofs.Records.EventsRequest
import WorkspaceControl.Proofs.Remote.Codec
import WorkspaceControl.Records.Process
import WorkspaceControl.Records.Workspace

/-!
# Everything on the wire comes back

Every type that the service and its clients exchange travels without loss, and so do the events of
logs as a remote value. For the records this is a look at their shapes; requests for events and remote
values, which set members aside while they are read, have arguments of their own.
-/

namespace WorkspaceControl

open Wire

/-- **Decoding undoes encoding for all types on the wire**: every value comes back from what is
written for it, straight from the text and by way of its value, in whatever order the members stand. -/
theorem lossless_onWire :
    Lossless LogEvent ∧ Lossless LogDescription ∧ Lossless ProcessDescription ∧
    Lossless ProcessSpec ∧ Lossless WorkspaceDescription ∧ Lossless VersionInfo ∧
    Lossless PageKind ∧ Lossless Pagination ∧ Lossless EventsRequest ∧ Lossless EventsPage ∧
    Lossless LogsRequest ∧ Lossless LogList ∧ Lossless ComponentRequest ∧
    Lossless ComponentCreated ∧ Lossless ComponentRef ∧ Lossless ProcessList ∧
    Lossless WorkspaceDetails ∧ Lossless ManifestRequest ∧ Lossless WorkspaceRequest ∧
    Lossless WorkspaceCreated ∧ Lossless WorkspaceList ∧ Lossless (Remote (List LogEvent)) := by
  refine ⟨?_, ?_, ?_, ?_, ?_, ?_, ?_, ?_, EventsRequest.lossless, ?_, ?_, ?_, ?_, ?_, ?_, ?_, ?_, ?_,
    ?_, ?_, ?_, Remote.lossless (by decide) (by decide)⟩
  all_goals exact Record.lossless (by decide) (by decide)

end WorkspaceControl
