/-
What the engine is told to do with redundant dependencies and torn artifacts.
-/

import RefSync.Duration

namespace RefSync

structure SyncOptions where
  showRedundant : Bool := false
  pruneRedundant : Bool := false
  artifactAttempts : Int := 50
  artifactDelay : Duration := .rounded (.ofDecimal false 1 (-2))
deriving DecidableEq, Repr

end RefSync
