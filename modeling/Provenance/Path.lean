import Provenance.Text.Fields

/-!
File paths in normal form. A path is read by cutting its text at the separators and dropping empty
and `.` components; `..` stays. Two texts name the same path exactly when they agree on the leading
separator and on the components that are left.
-/

namespace Provenance

/-- A component that a path keeps: not empty, not `.`, and without a separator. -/
def IsComponent (s : String) : Prop := s ≠ "" ∧ s ≠ "." ∧ '/' ∉ s.toList

instance (s : String) : Decidable (IsComponent s) := by unfold IsComponent; infer_instance

/-- A path in normal form. -/
structure Path where
  /-- Whether the path starts at the root. -/
  rooted : Bool
  components : List String
  components_ok : ∀ c ∈ components, IsComponent c
  deriving DecidableEq

namespace Path

/-- Reads a path from any of its spellings. -/
def ofString (s : String) : Path where
  rooted := s.toList.head? = some '/'
  components := ((Text.fields '/' s.toList).map String.ofList).filter (IsComponent ·)
  components_ok := fun _ h => of_decide_eq_true (List.mem_filter.1 h).2

/-- The one normal spelling of a path. -/
def toString (p : Path) : String :=
  String.ofList ((if p.rooted then ['/'] else []) ++
    Text.join ['/'] (p.components.map String.toList))

instance : ToString Path := ⟨toString⟩

/-- The rank of a component: a step up comes before every name, and names go by code points. -/
def componentKey (c : String) : List Nat :=
  if c = ".." then [1] else 2 :: c.toList.map Char.toNat

/-- What paths are ordered by: the root before all else, then component by component. -/
def key (p : Path) : List (List Nat) :=
  (if p.rooted then [[0]] else []) ++ p.components.map componentKey

instance : LT Path := ⟨fun p q => p.key < q.key⟩

instance : DecidableLT Path := fun p q => inferInstanceAs (Decidable (p.key < q.key))

instance : Ord Path := ⟨fun p q => compareOfLessAndEq p q⟩

end Path

end Provenance
