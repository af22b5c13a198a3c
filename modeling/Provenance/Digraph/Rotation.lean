/-!
One written form for each cycle. A cycle is written as a closed walk, which ends where it starts; of
its rotations the canonical one starts at the least node.
-/

namespace Provenance.Digraph

variable {α : Type} [LT α] [DecidableLT α]

/-- The place of the first entry that no entry is below. -/
def leastPlace (ring : List α) : Nat := ring.findIdx fun a => ring.all fun b => ¬b < a

/-- The rotation of a ring that starts at its least entry. -/
def fromLeast (ring : List α) : List α := ring.drop (leastPlace ring) ++ ring.take (leastPlace ring)

/-- The canonical rotation of a closed walk. -/
def canonical (cycle : List α) : List α :=
  match cycle.dropLast with
  | [] => cycle
  | a :: ring => fromLeast (a :: ring) ++ (fromLeast (a :: ring)).take 1

end Provenance.Digraph
