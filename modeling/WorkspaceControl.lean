import WorkspaceControl.Main
import WorkspaceControl.Proofs.Logs.Continuity
import WorkspaceControl.Proofs.Logs.Sequential
import WorkspaceControl.Proofs.Logs.Stage
import WorkspaceControl.Proofs.Logs.Superseded
import WorkspaceControl.Proofs.Logs.Cursor
import WorkspaceControl.Proofs.Logs.Capacity
import WorkspaceControl.Proofs.Cli.Following
import WorkspaceControl.Proofs.Cli.Requests
import WorkspaceControl.Proofs.Rpc.Classification
import WorkspaceControl.Proofs.Rpc.Query
import WorkspaceControl.Proofs.Logs.Watching
import WorkspaceControl.Proofs.Rpc.BaseUrl
import WorkspaceControl.Proofs.Logs.Whole
import WorkspaceControl.Proofs.Records.EventsPage
import WorkspaceControl.Proofs.Cli.Ending
import WorkspaceControl.Proofs.Cli.Asking
import WorkspaceControl.Proofs.Cli.Processes
import WorkspaceControl.Proofs.Cli.Beginnings
import WorkspaceControl.Proofs.Cli.Roots
import WorkspaceControl.Proofs.Rpc.Compatibility
import WorkspaceControl.Proofs.Cli.Reporting
import WorkspaceControl.Proofs.Records.PageRequest
