import Provenance.Digraph

/-!
The search for a cycle: a depth-first search that keeps the open path from a root as a stack of
frames and a mark for every node it has entered. It is a machine of single steps. A step either
starts at the next root, follows the next edge of the innermost frame, or closes a frame that has no
edges left; following an edge to an open node closes a cycle.
-/

namespace Provenance.Digraph

/-- An entered node is open while its frame is on the stack, and closed from then on. -/
inductive Mark where
  | opened
  | closed
  deriving DecidableEq

/-- A node on the open path, with the successors that were not followed yet. -/
structure Frame (α : Type) where
  node : α
  rest : List α
  deriving DecidableEq

/-- A state of the search. -/
structure Search (α : Type) where
  /-- The roots not started from yet. -/
  roots : List α
  /-- The open path, with the innermost frame first. -/
  stack : List (Frame α)
  /-- The nodes entered so far, each with its latest mark first. -/
  marks : List (α × Mark)

/-- What a step of the search leads to. -/
inductive Progress (α : Type) where
  | moved (s : Search α)
  /-- A closed walk: its first and last node are the same. -/
  | found (cycle : List α)
  | finished

namespace Search

variable {α : Type} [DecidableEq α]

/-- The search before its first step. -/
def start (roots : List α) : Search α := ⟨roots, [], []⟩

/-- The mark of a node that was entered. -/
def mark? (s : Search α) (a : α) : Option Mark := s.marks.lookup a

/-- Puts a frame for a node on the stack. -/
def enter (d : Digraph α) (s : Search α) (a : α) : Search α :=
  { s with stack := ⟨a, d.next a⟩ :: s.stack, marks := (a, .opened) :: s.marks }

/-- The walk along the stack from an open node to the innermost frame and back to the node. -/
def cycleThrough (s : Search α) (a : α) : List α :=
  a :: ((s.stack.map Frame.node).takeWhile (· ≠ a)).reverse ++ [a]

/-- One step of the search. -/
def step (d : Digraph α) (s : Search α) : Progress α :=
  match s.stack with
  | [] =>
    match s.roots with
    | [] => .finished
    | r :: roots =>
      let s := { s with roots }
      match s.mark? r with
      | some _ => .moved s
      | none => .moved (s.enter d r)
  | ⟨a, []⟩ :: below => .moved { s with stack := below, marks := (a, .closed) :: s.marks }
  | ⟨a, b :: rest⟩ :: below =>
    let s := { s with stack := ⟨a, rest⟩ :: below }
    match s.mark? b with
    | some .closed => .moved s
    | some .opened => .found (s.cycleThrough b)
    | none => .moved (s.enter d b)

/-- What is left to do: two steps for each edge not followed, one for each open frame, and two for
each root. -/
def work (d : Digraph α) (s : Search α) : Nat :=
  2 * s.roots.length + s.stack.length + 2 * (s.stack.flatMap Frame.rest).length +
    2 * d.outstanding (s.marks.map Prod.fst)

theorem not_mem_marks_of_lookup {a : α} {xs : List (α × Mark)} (h : xs.lookup a = none) :
    a ∉ xs.map Prod.fst := by
  intro hmem
  obtain ⟨x, hx, rfl⟩ := List.mem_map.1 hmem
  exact absurd (List.lookup_eq_none_iff.1 h x hx) (by simp)

/-- Marking a node again leaves no more successors to give. -/
theorem outstanding_cons_le (d : Digraph α) (a : α) (visited : List α) :
    d.outstanding (a :: visited) ≤ d.outstanding visited := by
  by_cases h : a ∈ visited
  · have : ∀ x, x ∉ a :: visited ↔ x ∉ visited := by
      intro x
      by_cases hx : x = a <;> simp_all
    simp only [outstanding, this]
    exact Nat.le_refl _
  · exact Nat.le_trans (Nat.le_add_right _ _) (d.outstanding_cons h)

/-- Every step leaves less to do. -/
theorem work_lt_of_step {d : Digraph α} {s t : Search α} (h : s.step d = .moved t) :
    t.work d < s.work d := by
  obtain ⟨roots, stack, marks⟩ := s
  match stack with
  | [] =>
    match roots with
    | [] => simp [step] at h
    | r :: roots =>
      simp only [step] at h
      split at h
      · cases h
        simp only [work, List.length_cons]
        omega
      · rename_i hr
        cases h
        have := d.outstanding_cons (not_mem_marks_of_lookup hr)
        simp only [work, enter, List.map_cons, List.flatMap_cons, List.flatMap_nil,
          List.length_append, List.length_cons, List.length_nil] at this ⊢
        omega
  | ⟨a, []⟩ :: below =>
    simp only [step] at h
    cases h
    have := outstanding_cons_le d a (marks.map Prod.fst)
    simp only [work, List.map_cons, List.flatMap_cons, List.nil_append, List.length_cons]
    omega
  | ⟨a, b :: rest⟩ :: below =>
    simp only [step] at h
    split at h
    · cases h
      simp only [work, List.flatMap_cons, List.length_append, List.length_cons]
      omega
    · cases h
    · rename_i hb
      cases h
      have := d.outstanding_cons (not_mem_marks_of_lookup hb)
      simp only [work, enter, List.map_cons, List.flatMap_cons, List.length_append,
        List.length_cons] at this ⊢
      omega

/-- Steps until the search has found a cycle or has nothing left to do. -/
def run (d : Digraph α) (s : Search α) : Option (List α) :=
  match _h : s.step d with
  | .moved t => run d t
  | .found cycle => some cycle
  | .finished => none
termination_by s.work d
decreasing_by exact work_lt_of_step _h

end Search

end Provenance.Digraph
