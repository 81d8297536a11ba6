import RefSync.Compiler.Screen
import RefSync.Compiler.Shell
import RefSync.CommandLine.Arguments
import RefSync.CommandLine.Output
import RefSync.Doctor.Run
import RefSync.Binary64.Fixed
import RefSync.Watch.Serve
import RefSync.Watch.Flight
import RefSync.Main
import RefSync.Proofs.Path.Components
import RefSync.Proofs.Workspace.Ownership
import RefSync.Proofs.Artifact.Graph
import RefSync.Proofs.Watch.Discovery
import RefSync.Proofs.Artifact.Shape
import RefSync.Proofs.Artifact.Locality
import RefSync.Proofs.Disk
import RefSync.Proofs.Registry.Operations
import RefSync.Proofs.Registry.Sound
import RefSync.Proofs.Registry.Calls
import RefSync.Proofs.Registry.Renaming
import RefSync.Proofs.Routine.Conduct
import RefSync.Proofs.Routine.Group
import RefSync.Proofs.Routine.Schedule
import RefSync.Proofs.Watch.Adding
import RefSync.Proofs.Watch.Handlers
import RefSync.Proofs.Binary64.Rounding
import RefSync.Proofs.Binary64.Shortest
import RefSync.Proofs.Config.References
import RefSync.Proofs.Config.Aliasing
import RefSync.Proofs.Disk.Documents
import RefSync.Proofs.Manifest.Dependencies
import RefSync.Proofs.Update
import RefSync.Proofs.Watch.Classified
import RefSync.Proofs.Watch.Dispatch
import RefSync.Proofs.Watch.Runs
import RefSync.Proofs.Watch.Synchronized
import RefSync.Proofs.Routine.Abiding
import RefSync.Proofs.Manifest.Validity
import RefSync.Proofs.Manifest.Updating
import RefSync.Proofs.Manifest.Renaming
import RefSync.Proofs.Manifest.Reading
import RefSync.Proofs.Config.Usable
import RefSync.Proofs.Update.Permitted
import RefSync.Proofs.Watch.Permitted
import RefSync.Proofs.Watch.Settling
import RefSync.Proofs.Watch.Throughout
import RefSync.Proofs.Watch.Pruning
import RefSync.Proofs.Watch.Contents
import RefSync.Proofs.Config.Root
import RefSync.Proofs.Disk.Accepts
import RefSync.Proofs.Routine.Alone
import RefSync.Proofs.Update.Root
import RefSync.Proofs.Watch.Registering
import RefSync.Proofs.Watch.Aggregate
import RefSync.Proofs.Watch.Reloading
import RefSync.Proofs.Watch.BringUp
import RefSync.Proofs.Watch.Following
import RefSync.Proofs.Watch.Renaming
import RefSync.Proofs.Watch.Pausing
import RefSync.Proofs.Watch.Isolation
import RefSync.Proofs.Routine.Confining
import RefSync.Proofs.Watch.Watching
import RefSync.Proofs.Watch.Referring
import RefSync.Proofs.Watch.Naming
import RefSync.Proofs.Watch.Resuming
import RefSync.Proofs.Watch.CatchingUp
import RefSync.Proofs.Watch.Confirming
import RefSync.Proofs.Watch.Retrying
import RefSync.Proofs.Watch.Commuting
import RefSync.Proofs.FileTree.Gaining
import RefSync.Proofs.Glob
import RefSync.Proofs.Disk.Scanning
import RefSync.Proofs.Config.Satisfactory
import RefSync.Proofs.Doctor.Mending
import RefSync.Proofs.Doctor.Workspaces
import RefSync.Proofs.Doctor.Fixing
import RefSync.Proofs.Doctor.Started
import RefSync.Proofs.Disk.Reaching
import RefSync.Proofs.Watch.Replacing
import RefSync.Proofs.FileTree.Clearing
import RefSync.Proofs.Doctor.Clearing
import RefSync.Proofs.Doctor.Repeating
import RefSync.Proofs.Watch.Sustaining
import RefSync.Proofs.Watch.Heeding
import RefSync.Proofs.Watch.Converging
import RefSync.Proofs.Config.Updated
import RefSync.Proofs.Config.Aliased
import RefSync.Proofs.Update.Aliased
import RefSync.Proofs.Config.Renamed
import RefSync.Proofs.Config.Repairs
import RefSync.Proofs.Update.Rewriting
import RefSync.Proofs.Update.Carrying
import RefSync.Proofs.Watch.Crossing
import RefSync.Proofs.Routine.Playing
import RefSync.Proofs.Watch.Overlapping
import RefSync.Proofs.Watch.Continuing
import RefSync.Proofs.Watch.Absorbing
import RefSync.Proofs.Watch.Reentering
import RefSync.Proofs.Compiler.Chunks
import RefSync.Proofs.Routine.Retrying
import RefSync.Proofs.Binary64.Growth
import RefSync.Proofs.Disk.Jsx
import RefSync.Proofs.Watch.Unusable
import RefSync.Proofs.Workspace.Plain
import RefSync.Proofs.Update.Ways
import RefSync.Proofs.Watch.Routing
