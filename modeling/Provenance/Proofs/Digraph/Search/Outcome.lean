import Provenance.Proofs.Digraph.Search.Invariant

/-!
What the search for a cycle answers. The search stops, since every step leaves less to do. A cycle
that it finds is a closed walk along the open path, which meets no node twice. A search that finds
none has closed every root, and a closed node does not lead back to itself.
-/

namespace Provenance.Digraph

open Relation

variable {α : Type} [DecidableEq α] {d : Digraph α}

namespace Progress

/-- The progress of a search that stops with an outcome. -/
def stop : Option (List α) → Progress α
  | none => .finished
  | some cycle => .found cycle

end Progress

namespace Search

variable {s t : Search α}

/-- What one step and up to a number of further ones lead to. -/
def advance (d : Digraph α) : Nat → Search α → Progress α
  | 0, s => s.step d
  | n + 1, s =>
    match s.step d with
    | .moved t => t.advance d n
    | stopped => stopped

/-- A search stops with its outcome as soon as there is nothing left to do, if not before. -/
theorem advance_eq_stop : ∀ {n : Nat} {s : Search α}, s.work d ≤ n →
    s.advance d n = .stop (s.run d) := by
  intro n
  induction n with
  | zero =>
    intro s hn
    rw [advance, run]
    split
    · rename_i t ht
      exact absurd (work_lt_of_step ht) (by omega)
    · assumption
    · assumption
  | succ n ih =>
    intro s hn
    rw [advance, run]
    cases hs : s.step d with
    | moved t => exact ih (by have := work_lt_of_step hs; omega)
    | found cycle => rfl
    | finished => rfl

/-- Where a number of steps lead to is where the search comes to. -/
theorem leads_of_advance : ∀ {n : Nat} {s : Search α}, s.advance d n = .moved t → Leads d s t
  | 0, _, h => .single h
  | n + 1, s, h => by
    rw [advance] at h
    cases hs : s.step d with
    | moved u =>
      rw [hs] at h
      exact .head hs (leads_of_advance h)
    | found cycle =>
      rw [hs] at h
      cases h
    | finished =>
      rw [hs] at h
      cases h

/-- What a search has to do at its start: two steps for each root and for each edge. -/
theorem work_start (roots : List α) : (start roots).work d =
    2 * roots.length + 2 * (d.nodes.flatMap d.next).length := by
  simp [work, start, outstanding]

/-- What every move keeps holds of the state in which a search stops. -/
theorem exists_last {P : Search α → Prop} (hP : ∀ {s t}, P s → Move d s t → P t) :
    ∀ (s : Search α), P s → ∃ t, P t ∧ t.step d = .stop (s.run d) := by
  intro s
  fun_induction run d s with
  | case1 s t ht ih => exact fun hs => ih (hP hs (move_of_step ht))
  | case2 s cycle hc => exact fun hs => ⟨s, hs, hc⟩
  | case3 s hf => exact fun hs => ⟨s, hs, hf⟩

theorem mark?_cons_ne_none {roots : List α} {stack : List (Frame α)} {marks : List (α × Mark)}
    {a x : α} {m : Mark} (h : x = a ∨ marks.lookup x ≠ none) :
    (⟨roots, stack, (a, m) :: marks⟩ : Search α).mark? x ≠ none := by
  rw [mark?_cons]
  by_cases hx : x = a
  · rw [if_pos hx]
    exact Option.some_ne_none m
  · rw [if_neg hx]
    exact h.resolve_left hx

/-- Every one of some roots is still to be started from, or has been entered. -/
def Covers (roots : List α) (s : Search α) : Prop := ∀ r ∈ roots, r ∈ s.roots ∨ s.mark? r ≠ none

theorem Covers.move {roots : List α} (h : Covers roots s) (hm : Move d s t) : Covers roots t := by
  intro r hr
  cases hm with
  | skipRoot hx =>
    rcases h r hr with hmem | hmark
    · rcases List.mem_cons.1 hmem with rfl | hmem
      · exact .inr hx
      · exact .inl hmem
    · exact .inr hmark
  | enterRoot =>
    rcases h r hr with hmem | hmark
    · rcases List.mem_cons.1 hmem with rfl | hmem
      · exact .inr (mark?_cons_ne_none (.inl rfl))
      · exact .inl hmem
    · exact .inr (mark?_cons_ne_none (.inr hmark))
  | close => exact (h r hr).imp_right fun hmark => mark?_cons_ne_none (.inr hmark)
  | skipEdge => exact h r hr
  | enterEdge => exact (h r hr).imp_right fun hmark => mark?_cons_ne_none (.inr hmark)

/-- A root does not lead back to itself if the search finds no cycle. -/
theorem not_transGen_of_run_eq_none {roots : List α} (h : (start roots).run d = none) {r : α}
    (hr : r ∈ roots) : ¬TransGen d.Edge r r := by
  obtain ⟨t, ⟨hinv, hcovers⟩, ht⟩ := exists_last (P := fun s => s.Inv d ∧ Covers roots s)
    (fun hs hm => ⟨hs.1.move hm, hs.2.move hm⟩) (start roots)
    ⟨inv_start roots, fun r hr => .inl hr⟩
  rw [h] at ht
  obtain ⟨hstack, hroots⟩ := of_step_finished ht
  have hmark : t.mark? r ≠ none := (hcovers r hr).resolve_left (by simp [hroots])
  refine hinv.closed_acyclic r ?_
  cases hm : t.mark? r with
  | none => exact absurd hm hmark
  | some m =>
    cases m with
    | closed => exact hm
    | opened =>
      have := (hinv.opened_iff r).1 hm
      simp [path, hstack] at this

/-- Back at an open node, the walk along the stack goes through the part of the stack above it. -/
theorem cycleThrough_eq {front back : List α} {b : α} (hpath : s.path = front ++ b :: back)
    (hb : b ∉ front) : s.cycleThrough b = b :: front.reverse ++ [b] := by
  have hfront : s.path.takeWhile (· ≠ b) = front := by
    rw [hpath, List.takeWhile_append_of_pos fun x hx => by simpa using ne_of_mem_of_not_mem hx hb]
    simp
  rw [cycleThrough, ← path, hfront]

/-- Counted from the outermost frame, an open node stands behind those that were opened before it. -/
theorem findIdx?_reverse_path {front back : List α} {b : α} (hpath : s.path = front ++ b :: back)
    (hb : b ∉ back) :
    s.path.reverse.findIdx? (· = b) = some back.length ∧
      s.path.reverse.drop back.length = b :: front.reverse := by
  have hreverse : s.path.reverse = back.reverse ++ b :: front.reverse := by simp [hpath]
  have hnone : back.reverse.findIdx? (· = b) = none := by
    rw [List.findIdx?_eq_none_iff]
    intro x hx
    exact decide_eq_false (ne_of_mem_of_not_mem (List.mem_reverse.1 hx) hb)
  constructor
  · rw [hreverse, List.findIdx?_append, hnone, List.findIdx?_cons, decide_eq_true rfl]
    simp
  · rw [hreverse, ← List.length_reverse, List.drop_left]

/-- The node that closes a cycle is found on the stack, and the cycle is read off from there. -/
theorem Inv.exists_findIdx?_of_found (h : s.Inv d) {cycle : List α} (hs : s.step d = .found cycle) :
    ∃ b i, s.mark? b = some .opened ∧ s.path.reverse.findIdx? (· = b) = some i ∧
      cycle = s.path.reverse.drop i ++ [b] := by
  obtain ⟨-, b, -, -, -, hb, rfl⟩ := of_step_found hs
  obtain ⟨front, back, hpath, hfront⟩ := List.eq_append_cons_of_mem ((h.opened_iff b).1 hb)
  have hback : b ∉ back := by
    have hn := h.path_nodup
    rw [hpath] at hn
    exact (List.nodup_cons.1 hn.of_append_right).1
  obtain ⟨hfind, hdrop⟩ := findIdx?_reverse_path hpath hback
  exact ⟨b, back.length, hb, hfind, by rw [cycleThrough_eq hpath hfront, hdrop]⟩

/-- The walk along the stack is a cycle, if the innermost node leads back to where it begins. -/
theorem Inv.closedWalk_cycleThrough (h : s.Inv d) {a b : α} (hb : b ∈ s.path)
    (ha : s.path.head? = some a) (hab : d.Edge a b) :
    ClosedWalk d.Edge (s.cycleThrough b) ∧ (s.cycleThrough b).dropLast.Nodup := by
  obtain ⟨front, back, hpath, hnot⟩ := List.eq_append_cons_of_mem hb
  have hreverse : b :: front.reverse = (front ++ [b]).reverse := by simp
  have hprefix : front ++ [b] <+: s.path := ⟨back, by rw [hpath]; simp⟩
  have hhead : (front ++ [b]).head? = some a := by
    rw [← ha, hpath]
    cases front <;> rfl
  rw [cycleThrough_eq hpath hnot, List.dropLast_concat, closedWalk_cons_append, hreverse]
  refine ⟨List.isChain_append.2 ⟨?_, List.isChain_singleton b, ?_⟩, ?_⟩
  · rw [List.isChain_reverse]
    exact List.IsChain.prefix h.linked hprefix
  · rintro x hx y ⟨⟩
    rw [List.getLast?_reverse, hhead] at hx
    cases hx
    exact hab
  · exact List.nodup_reverse.2 (h.path_nodup.sublist hprefix.sublist)

/-- What the search reports is a cycle. -/
theorem closedWalk_of_run_eq_some {roots cycle : List α} (h : (start roots).run d = some cycle) :
    ClosedWalk d.Edge cycle ∧ cycle.dropLast.Nodup := by
  obtain ⟨t, hinv, ht⟩ := exists_last (P := Inv d) Inv.move (start roots) (inv_start roots)
  rw [h] at ht
  obtain ⟨a, b, rest, below, hstack, hb, rfl⟩ := of_step_found ht
  refine hinv.closedWalk_cycleThrough (a := a) ((hinv.opened_iff b).1 hb) (by simp [path, hstack]) ?_
  have hfollowed := hinv.followed
  rw [hstack] at hfollowed
  exact hfollowed.1 b (List.mem_cons_self ..)

/-- Started from every node that leads anywhere, the search finds a cycle unless there is none. -/
theorem run_eq_none_iff {roots : List α} (hroots : ∀ a ∈ d.nodes, a ∈ roots) :
    (start roots).run d = none ↔ ¬∃ walk, ClosedWalk d.Edge walk := by
  rw [exists_closedWalk_iff]
  constructor
  · rintro h ⟨a, haa⟩
    refine not_transGen_of_run_eq_none h (hroots a ?_) haa
    obtain ⟨b, hab, -⟩ := TransGen.head'_iff.1 haa
    by_contra hnot
    rw [Edge, d.next_eq_nil a hnot] at hab
    exact List.not_mem_nil hab
  · intro h
    cases hrun : (start roots).run d with
    | none => rfl
    | some cycle => exact absurd (closedWalk_of_run_eq_some hrun).1.exists_transGen h

end Search

end Provenance.Digraph
