/-
Dispatching events to the handlers of their documents. Faults of documents are logged
and end with the event; anything else is passed on. The events of a batch are handled
together.
-/

import RefSync.Watch.Root

namespace RefSync.Watch

open Routine

/-- The handler of an event on a document, given by its normalised path. -/
def handle (project : Project) (options : SyncOptions) (kind : DocumentKind) (change : Change)
    (path : String) : Routine Unit :=
  match kind, change with
  | .rootManifest, .delete => rootDeleted
  | .rootManifest, _ => do
      if (← engine).active then rootUpdated project options else rootCreated project options
  | .workspaceManifest, .delete => manifestDeleted project path
  | .workspaceManifest, _ => manifestWritten project options path
  | .workspaceConfig, .delete => configDeleted project (Workspace.ofDocument path)
  | .workspaceConfig, _ => configPresent project options (Workspace.ofDocument path)
  | .artifact, .create => artifactCreated project options path
  | .artifact, .update => artifactWritten project options path
  | .artifact, .delete => artifactDeleted path

/-- What becomes of a failed handler: a fatal fault stays alone, faults of documents
are logged, and any other fault lets the whole failure through. -/
def settle (change : Change) (path : String) (failure : Failure) : Routine Unit :=
  match failure.find? Fault.isFatal with
  | some fault => throw fault
  | none =>
      if failure.all Fault.isDocumentFault then
        failure.forM fun fault =>
          log .error ("Failed to process " ++ change.text ++ " " ++ path ++ ": " ++ fault.message)
      else .fail failure

def dispatch (project : Project) (options : SyncOptions) (event : Event) : Routine Unit := do
  match classify project (← registry) event.path with
  | none => return
  | some kind =>
      let path := project.relative event.path
      (handle project options kind event.change path).recover (settle event.change path)

def dispatchAll (project : Project) (options : SyncOptions) (events : List Event) : Routine Unit := do
  let _ ← forAll events (dispatch project options)

end RefSync.Watch
