/-!
Finite directed graphs and the depth-first walk over them. The walk takes the next node from a stack
of pending ones, drops it if it was met before, and otherwise puts its successors on top. It ends
because each listed node gives up its successors once: what is pending, together with the successors
that are still to come, gets smaller with every step.
-/

namespace Provenance

/-- A relation in which only the listed nodes have successors. -/
structure Digraph (α : Type) where
  nodes : List α
  next : α → List α
  next_eq_nil : ∀ a, a ∉ nodes → next a = []

namespace Digraph

variable {α β : Type} [DecidableEq α]

/-- The number of successors that the nodes outside `visited` still have to give. -/
def outstanding (d : Digraph α) (visited : List α) : Nat :=
  ((d.nodes.filter (· ∉ visited)).flatMap d.next).length

theorem length_flatMap_filter_cons_le (f : α → List β) (xs visited : List α) {a : α}
    (ha : a ∉ visited) :
    ((xs.filter (· ∉ a :: visited)).flatMap f).length + (if a ∈ xs then (f a).length else 0) ≤
      ((xs.filter (· ∉ visited)).flatMap f).length := by
  induction xs with
  | nil => simp
  | cons x xs ih =>
    by_cases hx : x = a
    · subst hx
      by_cases hm : x ∈ xs
      · simp only [hm, if_true] at ih
        simp [ha] at ih ⊢
        omega
      · simp only [hm, if_false] at ih
        simp [ha] at ih ⊢
        omega
    · have hxa : a ∈ x :: xs ↔ a ∈ xs := by simp [Ne.symm hx]
      simp only [hxa]
      by_cases hv : x ∈ visited
      · simpa [List.filter_cons, hx, hv] using ih
      · simp [hx, hv] at ih ⊢
        omega

/-- A node that is visited now has no successors left to give. -/
theorem outstanding_cons (d : Digraph α) {a : α} {visited : List α} (ha : a ∉ visited) :
    d.outstanding (a :: visited) + (d.next a).length ≤ d.outstanding visited := by
  have h := length_flatMap_filter_cons_le d.next d.nodes visited ha
  by_cases hm : a ∈ d.nodes
  · simpa [outstanding, hm] using h
  · simpa [outstanding, hm, d.next_eq_nil a hm] using h

/-- The nodes that a depth-first walk meets, in order, apart from those visited before it. -/
def walk (d : Digraph α) : (pending visited : List α) → List α
  | [], _ => []
  | a :: rest, visited =>
    if a ∈ visited then walk d rest visited
    else a :: walk d (d.next a ++ rest) (a :: visited)
termination_by pending visited => d.outstanding visited + pending.length
decreasing_by
  · simp
  · rename_i h
    have := d.outstanding_cons h
    simp only [List.length_append, List.length_cons]
    omega

/-- The nodes reachable from the roots, in depth-first pre-order. -/
def preorder (d : Digraph α) (roots : List α) : List α := d.walk roots []

end Digraph

end Provenance
