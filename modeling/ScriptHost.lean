import ScriptHost.Proofs.Agreement
import ScriptHost.Proofs.ArgumentGrammar
import ScriptHost.Proofs.Attendance
import ScriptHost.Proofs.Bindings
import ScriptHost.Proofs.CallPaths
import ScriptHost.Proofs.Closing
import ScriptHost.Proofs.Configuring
import ScriptHost.Proofs.Confinement
import ScriptHost.Proofs.Creation
import ScriptHost.Proofs.DataFolder
import ScriptHost.Proofs.Directory
import ScriptHost.Proofs.FailedDefinitions
import ScriptHost.Proofs.FailedImports
import ScriptHost.Proofs.FileRefinement
import ScriptHost.Proofs.Firing
import ScriptHost.Proofs.HaltedReload
import ScriptHost.Proofs.Isolation
import ScriptHost.Proofs.Keeping
import ScriptHost.Proofs.Layout
import ScriptHost.Proofs.Leftovers
import ScriptHost.Proofs.Listing
import ScriptHost.Proofs.Loading
import ScriptHost.Proofs.LogLines
import ScriptHost.Proofs.Materializing
import ScriptHost.Proofs.Pausing
import ScriptHost.Proofs.Persistence
import ScriptHost.Proofs.Privacy
import ScriptHost.Proofs.Quoting
import ScriptHost.Proofs.Refusals
import ScriptHost.Proofs.Removal
import ScriptHost.Proofs.Replacing
import ScriptHost.Proofs.Reporting
import ScriptHost.Proofs.Serving
import ScriptHost.Proofs.Shallow
import ScriptHost.Proofs.Shutdown
import ScriptHost.Proofs.StaleNumbers
import ScriptHost.Proofs.Teardown
import ScriptHost.Resource.Files
import ScriptHost.Resource.Memory
import ScriptHost.Server.Ticking
