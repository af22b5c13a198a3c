import Mathlib
import Provenance.Digraph

/-!
The depth-first walk over related digraphs. Two digraphs that name the same nodes differently, but
list the successors of each in the same order, are walked alike, and so are two digraphs that differ
only where the walk does not come.
-/

namespace Provenance.Digraph

variable {α β : Type} [DecidableEq α] [DecidableEq β] {d : Digraph α} {e : Digraph β}
  {R : α → β → Prop}

/-- A renaming that every node's successors keep to is kept to by the whole walk. -/
theorem forall₂_walk (hR : Relator.BiUnique R)
    (hnext : ∀ {a b}, R a b → List.Forall₂ R (d.next a) (e.next b)) (pending visited : List α) :
    ∀ {pending' visited' : List β}, List.Forall₂ R pending pending' →
      List.Forall₂ R visited visited' →
      List.Forall₂ R (d.walk pending visited) (e.walk pending' visited') := by
  induction pending, visited using walk.induct d with
  | case1 visited =>
    rintro _ visited' ⟨⟩ -
    rw [walk, walk]
    exact .nil
  | case2 a rest visited hmem ih =>
    rintro _ visited' (_ | ⟨hab, hrest⟩) hvisited
    rw [walk, if_pos hmem, walk, if_pos ((List.rel_mem hR hab hvisited).1 hmem)]
    exact ih hrest hvisited
  | case3 a rest visited hmem ih =>
    rintro _ visited' (_ | ⟨hab, hrest⟩) hvisited
    rw [walk, if_neg hmem, walk, if_neg fun h => hmem ((List.rel_mem hR hab hvisited).2 h)]
    exact .cons hab (ih (List.rel_append (hnext hab) hrest) (.cons hab hvisited))

theorem forall₂_preorder (hR : Relator.BiUnique R)
    (hnext : ∀ {a b}, R a b → List.Forall₂ R (d.next a) (e.next b)) {roots : List α}
    {roots' : List β} (hroots : List.Forall₂ R roots roots') :
    List.Forall₂ R (d.preorder roots) (e.preorder roots') :=
  forall₂_walk hR hnext roots [] hroots .nil

/-- The walk looks only at the successors of nodes that it can reach. -/
theorem walk_congr_on {e : Digraph α} {S : Set α} (hnext : ∀ a ∈ S, d.next a = e.next a)
    (hclosed : ∀ a ∈ S, ∀ b ∈ d.next a, b ∈ S) (pending visited : List α)
    (hpending : ∀ a ∈ pending, a ∈ S) : d.walk pending visited = e.walk pending visited := by
  induction pending, visited using walk.induct d with
  | case1 visited => rw [walk, walk]
  | case2 a rest visited hmem ih =>
    obtain ⟨-, hrest⟩ := List.forall_mem_cons.1 hpending
    rw [walk, if_pos hmem, walk, if_pos hmem, ih hrest]
  | case3 a rest visited hmem ih =>
    obtain ⟨ha, hrest⟩ := List.forall_mem_cons.1 hpending
    rw [walk, if_neg hmem, walk, if_neg hmem, ← hnext a ha, ih]
    exact List.forall_mem_append.2 ⟨hclosed a ha, hrest⟩

theorem preorder_congr_on {e : Digraph α} {S : Set α} {roots : List α}
    (hnext : ∀ a ∈ S, d.next a = e.next a) (hclosed : ∀ a ∈ S, ∀ b ∈ d.next a, b ∈ S)
    (hroots : ∀ a ∈ roots, a ∈ S) : d.preorder roots = e.preorder roots :=
  walk_congr_on hnext hclosed roots [] hroots

end Provenance.Digraph
