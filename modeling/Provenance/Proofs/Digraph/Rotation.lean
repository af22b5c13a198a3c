import Provenance.Digraph.Rotation
import Provenance.Proofs.Digraph.ClosedWalk

/-!
The canonical rotation of a cycle. The rotation of a ring at its least entry is one of its rotations,
so it holds the same entries and takes the same steps, and it starts at an entry that none is below.
Under a total order that makes the canonical form of a cycle the one written from its least element,
and a cycle that meets nothing twice has the same form wherever it is entered.
-/

namespace Provenance.Digraph

variable {α : Type} [LT α] [DecidableLT α] {R : α → α → Prop}

/-- A ring that is not empty has an entry that no entry is below. -/
theorem exists_least [IsStrictOrder α (· < ·)] :
    ∀ {ring : List α}, ring ≠ [] → ∃ a ∈ ring, ∀ b ∈ ring, ¬b < a
  | [a], _ => ⟨a, List.mem_singleton_self a, by simpa using irrefl a⟩
  | a :: b :: ring, _ => by
    obtain ⟨m, hm, hleast⟩ := exists_least (List.cons_ne_nil b ring)
    by_cases ham : a < m
    · refine ⟨a, List.mem_cons_self .., ?_⟩
      rintro c hc hca
      rcases List.mem_cons.1 hc with rfl | hc
      · exact irrefl c hca
      · exact hleast c hc (trans_of (· < ·) hca ham)
    · refine ⟨m, List.mem_cons_of_mem _ hm, ?_⟩
      rintro c hc
      rcases List.mem_cons.1 hc with rfl | hc
      · exact ham
      · exact hleast c hc

theorem leastPlace_lt_length [IsStrictOrder α (· < ·)] {ring : List α} (h : ring ≠ []) :
    leastPlace ring < ring.length := by
  obtain ⟨a, ha, hleast⟩ := exists_least h
  exact List.findIdx_lt_length_of_exists ⟨a, ha, by simpa using hleast⟩

theorem fromLeast_eq_rotate (ring : List α) : fromLeast ring = ring.rotate (leastPlace ring) :=
  (List.rotate_eq_drop_append_take List.findIdx_le_length).symm

theorem fromLeast_isRotated (ring : List α) : ring.IsRotated (fromLeast ring) :=
  ⟨leastPlace ring, (fromLeast_eq_rotate ring).symm⟩

/-- The rotation of a ring at its least entry starts at an entry that none is below. -/
theorem exists_fromLeast_eq_cons [IsStrictOrder α (· < ·)] {ring : List α} (h : ring ≠ []) :
    ∃ a rest, fromLeast ring = a :: rest ∧ ∀ b ∈ ring, ¬b < a := by
  have hlt := leastPlace_lt_length h
  refine ⟨ring[leastPlace ring], (fromLeast ring).tail, ?_, ?_⟩
  · refine (List.cons_head?_tail ?_).symm
    rw [fromLeast_eq_rotate, List.head?_rotate hlt, List.getElem?_eq_getElem hlt]
    rfl
  · have hall := List.findIdx_getElem (w := hlt)
    exact fun b hb => of_decide_eq_true (List.all_eq_true.1 hall b hb)

theorem canonical_cons_append {a b : α} {ring rest : List α}
    (h : fromLeast (a :: ring) = b :: rest) : canonical (a :: ring ++ [a]) = b :: rest ++ [b] := by
  rw [canonical, List.dropLast_concat]
  simp only [h, List.take_succ_cons, List.take_zero]

/-- The canonical rotation of a cycle is a rotation of it, and starts and ends at its least element. -/
theorem exists_canonical_eq [IsStrictTotalOrder α (· < ·)] (a : α) (ring : List α) :
    ∃ b rest, canonical (a :: ring ++ [a]) = b :: rest ++ [b] ∧
      (a :: ring).IsRotated (b :: rest) ∧ ∀ c ∈ a :: ring, b = c ∨ b < c := by
  obtain ⟨b, rest, hb, hleast⟩ := exists_fromLeast_eq_cons (List.cons_ne_nil a ring)
  refine ⟨b, rest, canonical_cons_append hb, hb ▸ fromLeast_isRotated (a :: ring), ?_⟩
  intro c hc
  rcases trichotomous_of (· < ·) b c with hlt | heq | hgt
  · exact .inr hlt
  · exact .inl heq
  · exact absurd hgt (hleast c hc)

/-- The canonical rotation of a cycle is that cycle, written from its least element. -/
theorem leastCycle_canonical [IsStrictTotalOrder α (· < ·)] {walk : List α}
    (hw : ClosedWalk R walk) (hn : walk.dropLast.Nodup) : LeastCycle R (canonical walk) := by
  obtain ⟨a, ring, rfl⟩ := hw.exists_ring
  rw [List.dropLast_concat] at hn
  obtain ⟨b, rest, hcanonical, hr, hleast⟩ := exists_canonical_eq a ring
  rw [hcanonical]
  refine ⟨closedWalk_of_isRotated hw hr, ?_, ?_⟩
  · rw [List.dropLast_concat]
    exact hr.nodup_iff.1 hn
  · rintro _ ⟨⟩ c hc
    rcases List.mem_append.1 hc with hc | hc
    · exact hleast c (hr.mem_iff.2 hc)
    · exact .inl (List.mem_singleton.1 hc).symm

/-- Rotations of one another that start at the same entry are the same, if no entry occurs twice. -/
theorem eq_of_isRotated_of_head? {β : Type} {ring other : List β} (hn : ring.Nodup)
    (hr : ring.IsRotated other) (hhead : ring.head? = other.head?) : ring = other := by
  obtain ⟨n, hle, rfl⟩ := List.isRotated_iff_mod.1 hr
  rcases Nat.lt_or_eq_of_le hle with hlt | rfl
  · rw [List.head?_rotate hlt, List.head?_eq_getElem?] at hhead
    have hzero : 0 = n := (List.getElem?_inj (Nat.zero_lt_of_lt hlt) hn).1 hhead
    rw [← hzero, List.rotate_zero]
  · exact ring.rotate_length.symm

/-- The canonical rotation of a cycle is the same wherever the cycle is entered. -/
theorem canonical_eq_of_isRotated [IsStrictTotalOrder α (· < ·)] {a b : α} {ring other : List α}
    (hn : (a :: ring).Nodup) (hr : (a :: ring).IsRotated (b :: other)) :
    canonical (b :: other ++ [b]) = canonical (a :: ring ++ [a]) := by
  obtain ⟨c, rest, hcanonical, hc, hleast⟩ := exists_canonical_eq a ring
  obtain ⟨c', rest', hcanonical', hc', hleast'⟩ := exists_canonical_eq b other
  have hrotated : (c :: rest).IsRotated (c' :: rest') := hc.symm.trans (hr.trans hc')
  -- both start at an entry that is least among the same entries
  have hmem : c ∈ b :: other := hr.mem_iff.1 (hc.mem_iff.2 (List.mem_cons_self ..))
  have hmem' : c' ∈ a :: ring := hr.mem_iff.2 (hc'.mem_iff.2 (List.mem_cons_self ..))
  have hfirst : c = c' := by
    rcases hleast c' hmem' with heq | hlt
    · exact heq
    · rcases hleast' c hmem with heq | hgt
      · exact heq.symm
      · exact absurd hgt (asymm hlt)
  have heq : c :: rest = c' :: rest' :=
    eq_of_isRotated_of_head? (hc.nodup_iff.1 hn) hrotated (by rw [hfirst]; rfl)
  rw [hcanonical, hcanonical', heq, hfirst]

end Provenance.Digraph
