import Provenance.Digraph
import Provenance.Proofs.Digraph.Search.Invariant

/-!
What the depth-first walk meets. The walk meets no node twice. It comes to every node that is pending,
unless the node was visited before, and where it meets a node it comes to the successors of the node
as well; so from nothing visited it meets exactly the nodes that the roots lead to. It is over after
as many turns as there are roots and edges, or fewer.
-/

namespace Provenance.Digraph

open Relation

variable {α : Type} [DecidableEq α] {d : Digraph α} {a b : α} {pending visited roots : List α}

theorem not_mem_visited_of_mem_walk (h : a ∈ d.walk pending visited) : a ∉ visited := by
  induction pending, visited using walk.induct d with
  | case1 visited =>
    rw [walk] at h
    cases h
  | case2 x rest visited hx ih =>
    rw [walk, if_pos hx] at h
    exact ih h
  | case3 x rest visited hx ih =>
    rw [walk, if_neg hx] at h
    rcases List.mem_cons.1 h with rfl | h
    · exact hx
    · exact fun hmem => ih h (List.mem_cons_of_mem x hmem)

theorem nodup_walk (d : Digraph α) (pending visited : List α) : (d.walk pending visited).Nodup := by
  induction pending, visited using walk.induct d with
  | case1 visited =>
    rw [walk]
    exact List.nodup_nil
  | case2 x rest visited hx ih =>
    rw [walk, if_pos hx]
    exact ih
  | case3 x rest visited hx ih =>
    rw [walk, if_neg hx]
    refine List.nodup_cons.2 ⟨fun hmem => ?_, ih⟩
    exact not_mem_visited_of_mem_walk hmem (List.mem_cons_self ..)

/-- The walk comes to all that is pending. -/
theorem mem_walk_of_mem_pending (h : a ∈ pending) :
    a ∈ visited ∨ a ∈ d.walk pending visited := by
  induction pending, visited using walk.induct d with
  | case1 visited => cases h
  | case2 x rest visited hx ih =>
    rw [walk, if_pos hx]
    rcases List.mem_cons.1 h with rfl | h
    · exact .inl hx
    · exact ih h
  | case3 x rest visited hx ih =>
    rw [walk, if_neg hx]
    rcases List.mem_cons.1 h with rfl | h
    · exact .inr (List.mem_cons_self ..)
    · have hlater := ih (List.mem_append_right _ h)
      rw [List.mem_cons] at hlater ⊢
      tauto

/-- The walk comes to the successors of what it meets. -/
theorem mem_walk_of_edge (h : a ∈ d.walk pending visited) (hab : d.Edge a b) :
    b ∈ visited ∨ b ∈ d.walk pending visited := by
  induction pending, visited using walk.induct d with
  | case1 visited =>
    rw [walk] at h
    cases h
  | case2 x rest visited hx ih =>
    rw [walk, if_pos hx] at h ⊢
    exact ih h
  | case3 x rest visited hx ih =>
    rw [walk, if_neg hx] at h ⊢
    have hlater : b ∈ x :: visited ∨ b ∈ d.walk (d.next x ++ rest) (x :: visited) := by
      rcases List.mem_cons.1 h with rfl | h
      · exact mem_walk_of_mem_pending (List.mem_append_left rest hab)
      · exact ih h
    rw [List.mem_cons] at hlater ⊢
    tauto

/-- The walk meets nothing but what is pending leads to. -/
theorem exists_reflTransGen_of_mem_walk (h : a ∈ d.walk pending visited) :
    ∃ r ∈ pending, ReflTransGen d.Edge r a := by
  induction pending, visited using walk.induct d with
  | case1 visited =>
    rw [walk] at h
    cases h
  | case2 x rest visited hx ih =>
    rw [walk, if_pos hx] at h
    obtain ⟨r, hr, hra⟩ := ih h
    exact ⟨r, List.mem_cons_of_mem x hr, hra⟩
  | case3 x rest visited hx ih =>
    rw [walk, if_neg hx] at h
    rcases List.mem_cons.1 h with rfl | h
    · exact ⟨a, List.mem_cons_self .., .refl⟩
    · obtain ⟨r, hr, hra⟩ := ih h
      rcases List.mem_append.1 hr with hr | hr
      · exact ⟨x, List.mem_cons_self .., .head hr hra⟩
      · exact ⟨r, List.mem_cons_of_mem x hr, hra⟩

/-- One turn of the walk, on what is pending and what was visited, the latest first. -/
def turn (d : Digraph α) : List α × List α → List α × List α
  | ([], visited) => ([], visited)
  | (a :: rest, visited) =>
    if a ∈ visited then (rest, visited) else (d.next a ++ rest, a :: visited)

/-- The walk is over after a turn for each pending node and for each successor still to be given. -/
theorem exists_turns (d : Digraph α) (pending visited : List α) :
    ∃ n ≤ d.outstanding visited + pending.length,
      d.turn^[n] (pending, visited) = ([], (d.walk pending visited).reverse ++ visited) := by
  induction pending, visited using walk.induct d with
  | case1 visited =>
    refine ⟨0, Nat.zero_le _, ?_⟩
    rw [walk]
    rfl
  | case2 x rest visited hx ih =>
    obtain ⟨n, hn, hturns⟩ := ih
    refine ⟨n + 1, by rw [List.length_cons]; omega, ?_⟩
    rw [Function.iterate_succ_apply, turn, if_pos hx, hturns, walk, if_pos hx]
  | case3 x rest visited hx ih =>
    obtain ⟨n, hn, hturns⟩ := ih
    have hgiven := d.outstanding_cons hx
    refine ⟨n + 1, by rw [List.length_append] at hn; rw [List.length_cons]; omega, ?_⟩
    rw [Function.iterate_succ_apply, turn, if_neg hx, hturns, walk, if_neg hx, List.reverse_cons,
      List.append_assoc, List.singleton_append]

theorem nodup_preorder (d : Digraph α) (roots : List α) : (d.preorder roots).Nodup :=
  d.nodup_walk roots []

/-- From nothing visited, the walk meets exactly the nodes that the roots lead to. -/
theorem mem_preorder_iff : a ∈ d.preorder roots ↔ ∃ r ∈ roots, ReflTransGen d.Edge r a := by
  constructor
  · exact exists_reflTransGen_of_mem_walk
  · rintro ⟨r, hr, hra⟩
    induction hra with
    | refl => exact (mem_walk_of_mem_pending hr).resolve_left List.not_mem_nil
    | tail _ hbc ih => exact (mem_walk_of_edge ih hbc).resolve_left List.not_mem_nil

/-- From nothing visited, the walk is over after a turn for each root and for each edge, or before. -/
theorem exists_turns_preorder (d : Digraph α) (roots : List α) :
    ∃ n ≤ roots.length + (d.nodes.flatMap d.next).length,
      d.turn^[n] (roots, []) = ([], (d.preorder roots).reverse) := by
  obtain ⟨n, hn, hturns⟩ := d.exists_turns roots []
  refine ⟨n, ?_, by rw [hturns, List.append_nil, preorder]⟩
  simpa [outstanding, Nat.add_comm] using hn

end Provenance.Digraph
