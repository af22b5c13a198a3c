import Mathlib

/-!
Closed walks of a relation. A relation has one exactly when some element leads back to itself. A
cycle is a closed walk that meets no element twice before it is back, and of the ways to write it
down one starts at its least element.
-/

namespace Provenance

open Relation

variable {α : Type} {R S : α → α → Prop}

/-- A walk along a relation that takes a step at least and ends where it starts. -/
structure ClosedWalk (R : α → α → Prop) (walk : List α) : Prop where
  two_le_length : 2 ≤ walk.length
  steps : walk.IsChain R
  closed : walk.head? = walk.getLast?

/-- A closed walk that meets nothing twice before it is back, written from its least element. -/
structure LeastCycle [LT α] (R : α → α → Prop) (cycle : List α) : Prop where
  walk : ClosedWalk R cycle
  nodup : cycle.dropLast.Nodup
  least : ∀ a ∈ cycle.head?, ∀ b ∈ cycle, a = b ∨ a < b

theorem closedWalk_cons_append {a : α} {ring : List α} :
    ClosedWalk R (a :: ring ++ [a]) ↔ (a :: ring ++ [a]).IsChain R :=
  ⟨ClosedWalk.steps, fun h => ⟨by simp, h, by rw [List.getLast?_concat]; rfl⟩⟩

/-- A closed walk is a ring of elements with the first one written again behind it. -/
theorem ClosedWalk.exists_ring {walk : List α} (h : ClosedWalk R walk) :
    ∃ a ring, walk = a :: ring ++ [a] := by
  obtain ⟨hlen, -, hclosed⟩ := h
  rcases List.eq_nil_or_concat walk with rfl | ⟨front, z, rfl⟩
  · simp at hlen
  · rw [List.concat_eq_append] at hlen hclosed ⊢
    cases front with
    | nil => simp at hlen
    | cons a ring =>
      rw [List.getLast?_concat] at hclosed
      exact ⟨a, ring, by rw [Option.some.inj hclosed]⟩

theorem ClosedWalk.imp {walk : List α} (hRS : ∀ a b, R a b → S a b) (h : ClosedWalk R walk) :
    ClosedWalk S walk :=
  ⟨h.two_le_length, h.steps.imp hRS, h.closed⟩

theorem LeastCycle.imp [LT α] {cycle : List α} (hRS : ∀ a b, R a b → S a b) (h : LeastCycle R cycle) :
    LeastCycle S cycle :=
  ⟨h.walk.imp hRS, h.nodup, h.least⟩

theorem ClosedWalk.exists_transGen {walk : List α} (h : ClosedWalk R walk) :
    ∃ a, TransGen R a a := by
  obtain ⟨a, ring, rfl⟩ := h.exists_ring
  refine ⟨a, ?_⟩
  cases ring with
  | nil => exact .single (by simpa using h.steps)
  | cons b ring =>
    obtain ⟨hab, hrest⟩ := List.isChain_cons_cons.1 h.steps
    exact TransGen.head' hab
      (List.relationReflTransGen_of_exists_isChain_cons (ring ++ [a]) hrest (by simp))

theorem exists_closedWalk_of_transGen {a : α} (h : TransGen R a a) : ∃ walk, ClosedWalk R walk := by
  obtain ⟨b, hab, hba⟩ := TransGen.head'_iff.1 h
  obtain ⟨rest, hchain, hlast⟩ := List.exists_isChain_cons_of_relationReflTransGen hba
  refine ⟨a :: b :: rest, by simp, List.isChain_cons_cons.2 ⟨hab, hchain⟩, ?_⟩
  rw [List.getLast?_cons_cons, List.getLast?_eq_some_getLast (List.cons_ne_nil b rest), hlast]
  rfl

/-- There is a closed walk if and only if some element leads back to itself. -/
theorem exists_closedWalk_iff : (∃ walk, ClosedWalk R walk) ↔ ∃ a, TransGen R a a :=
  ⟨fun ⟨_, h⟩ => h.exists_transGen, fun ⟨_, h⟩ => exists_closedWalk_of_transGen h⟩

/-- Every step of a closed walk stays a step when the walk is entered elsewhere. -/
theorem closedWalk_of_isRotated {a b : α} {ring other : List α}
    (h : ClosedWalk R (a :: ring ++ [a])) (hr : (a :: ring).IsRotated (b :: other)) :
    ClosedWalk R (b :: other ++ [b]) := by
  have hc : Cycle.Chain R (a :: ring : List α) := (Cycle.chain_coe_cons R a ring).2 h.steps
  rw [Cycle.coe_eq_coe.2 hr] at hc
  exact closedWalk_cons_append.2 ((Cycle.chain_coe_cons R b other).1 hc)

end Provenance
