import Testbed.Table
import Testbed.Text.Blank
import Testbed.Text.Line
import Testbed.Text.Utf8
import Testbed.Text.Quoted
import Testbed.Binary64.Literal
import Testbed.Binary64.Shortest
import Testbed.Environment.Session
import Testbed.Poll.Basic
import Testbed.Host.Result
import Testbed.Json.Decode
import Testbed.FileTree.Access
import Testbed.Inventory.Visible
import Testbed.Cache.Lookup
import Testbed.Facts.Lookup
import Testbed.Worker.Parallel
import Testbed.Host.Template
import Testbed.Host.Scripted
import Testbed.Host.Restore
import Testbed.Host.Address
import Testbed.Toml.Reader
import Testbed.Settings.Decode
import Testbed.Shell.Command
import Testbed.Shell.Reader
import Testbed.Shell.Pattern
import Testbed.Shell.Arithmetic
import Testbed.Shell.Print
import Testbed.Shell.Program
import Testbed.Shell.State
import Testbed.Shell.Field
import Testbed.Shell.Builtin
import Testbed.Shell.Run
import Testbed.Host.Local
import Testbed.CommandLine.Program
import Testbed.Main
import Testbed.Proofs.Worker.Deadline
import Testbed.Proofs.Worker.Soundness
import Testbed.Proofs.Cache.Refinement
import Testbed.Proofs.Facts.Transparency
import Testbed.Proofs.Inventory.Links
import Testbed.Proofs.Inventory.Traversal
import Testbed.Proofs.Inventory.Preorder
import Testbed.Proofs.Inventory.Depth
import Testbed.Proofs.Inventory.Precedence
import Testbed.Proofs.Worker.Lifecycle
import Testbed.Proofs.FileTree.Directories
import Testbed.Proofs.Cache.View
import Testbed.Proofs.Cache.Coherence
import Testbed.Proofs.Environment.Restore
import Testbed.Proofs.Inventory.Merge
import Testbed.Proofs.Inventory.ClosedForm
import Testbed.Proofs.Cache.Backing
import Testbed.Proofs.Cache.Clearing
import Testbed.Proofs.Cache.Recall
import Testbed.Proofs.Facts.Loads
import Testbed.Proofs.Facts.Chosen
import Testbed.Proofs.Facts.Restart
import Testbed.Proofs.Environment.Unwinding
import Testbed.Proofs.Host.Teardown
import Testbed.Proofs.Settings.Path
import Testbed.Proofs.Settings.Presets
import Testbed.Proofs.Settings.Keys
import Testbed.Proofs.Worker.Sightings
import Testbed.Proofs.Worker.Round
import Testbed.Proofs.Worker.Completeness
import Testbed.Proofs.Worker.Timed
import Testbed.Proofs.Poll.Course
import Testbed.Proofs.Host.Placeholder
import Testbed.Proofs.Host.Rendering
import Testbed.Proofs.Host.Copying
import Testbed.Proofs.Inventory.Reordering
import Testbed.Proofs.Cache.WriteThrough
import Testbed.Proofs.Cache.Recovery
import Testbed.Proofs.Cache.Rollback
import Testbed.Proofs.Cache.Threads
import Testbed.Proofs.Cache.Concurrency
import Testbed.Proofs.Inventory.Ascent
import Testbed.Proofs.Host.Output
