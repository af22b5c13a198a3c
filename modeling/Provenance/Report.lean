import Provenance.Action.Key

/-!
What is printed of an action, and the report of a whole resolution.
-/

namespace Provenance

/-- A printed action. -/
structure Entry where
  /-- The key of the action. -/
  id : String
  owner : Option String := none
  mnemonic : String
  arguments : List String := []
  inputs : List String := []
  outputs : List String := []
  deriving DecidableEq

/-- What is printed of an action. -/
def Action.entry (a : Action) : Entry where
  id := a.key
  owner := a.owner.map Label.toString
  mnemonic := a.mnemonic
  arguments := a.arguments
  inputs := a.inputPaths.map Path.toString
  outputs := a.outputPaths.map Path.toString

/-- The printed actions, in order of discovery, and whether the build behind them succeeded. -/
structure Report where
  entries : List Entry
  buildSucceeded : Bool
  deriving DecidableEq

end Provenance
