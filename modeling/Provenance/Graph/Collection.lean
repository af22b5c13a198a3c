import Provenance.Graph

/-!
Collection of every action that some artifacts need. All inputs are followed alike, placeholders
included, and the mnemonic filter selects among the actions found without stopping the walk.
-/

namespace Provenance

/-- A list of mnemonics to print; the empty list stands for all. -/
abbrev MnemonicFilter := List String

namespace MnemonicFilter

/-- Whether a filter lets an action through. -/
def allows (f : MnemonicFilter) (a : Action) : Bool := f.isEmpty || f.contains a.mnemonic

end MnemonicFilter

namespace Graph

/-- The actions that some artifacts need, by number, in depth-first pre-order. -/
def needed (g : Graph) (roots : List Artifact) : List ActionId :=
  g.prerequisites.preorder (roots.filterMap fun a => g.generatorId? a.path)

/-- The needed actions that a filter lets through. -/
def collect (g : Graph) (roots : List Artifact) (mnemonics : MnemonicFilter) : List ActionId :=
  (g.needed roots).filter fun i => (g.action? i).any mnemonics.allows

end Graph

end Provenance
