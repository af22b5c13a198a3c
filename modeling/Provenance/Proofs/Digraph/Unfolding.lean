import Provenance.Proofs.Digraph.Preorder

/-!
The walk over an acyclic digraph, without what it remembers. A node unfolds to itself and, after it, to
the unfoldings of its successors, which come to an end where no node leads back to itself. A shared
node is unfolded again and again. The walk meets the nodes of the unfoldings of its roots in the order of
their first occurrences: where it comes to a node for the second time, it has met all that the node
unfolds to, since the node can not be among its own successors.
-/

namespace Provenance

variable {α : Type} [DecidableEq α]

/-- The first occurrences are the same before and after others are left out. -/
theorem filter_eraseDups (p : α → Bool) : ∀ xs : List α,
    xs.eraseDups.filter p = (xs.filter p).eraseDups
  | [] => rfl
  | x :: xs => by
    have ih := filter_eraseDups p (xs.filter fun y => !y == x)
    rw [List.eraseDups_cons]
    by_cases hx : p x
    · rw [List.filter_cons_of_pos hx, List.filter_cons_of_pos hx, List.eraseDups_cons, ih,
        List.filter_comm]
    · have hother : ∀ y ∈ xs, (p y && !y == x) = p y := by
        intro y _
        by_cases hy : y = x
        · simp [hy, hx]
        · simp [hy]
      rw [List.filter_cons_of_neg hx, List.filter_cons_of_neg hx, ih, List.filter_filter,
        List.filter_congr hother]
termination_by xs => xs.length
decreasing_by exact Nat.lt_succ_of_le (List.length_filter_le _ _)

namespace Digraph

open Relation

variable {d : Digraph α} {a b : α} {pending visited : List α}

/-- No node leads back to itself. -/
def Acyclic (d : Digraph α) : Prop := ∀ a, ¬TransGen d.Edge a a

/-- A node is not among the nodes that a successor leads to, so fewer are left with each step. -/
theorem Acyclic.length_preorder_lt (h : d.Acyclic) (hab : d.Edge a b) :
    (d.preorder [b]).length < (d.preorder [a]).length := by
  have hmem {x y : α} : y ∈ d.preorder [x] ↔ ReflTransGen d.Edge x y := by
    rw [mem_preorder_iff]
    simp
  have ha : a ∉ d.preorder [b] := fun hba => h a (TransGen.head' hab (hmem.1 hba))
  have hsubset : a :: d.preorder [b] ⊆ d.preorder [a] := by
    intro x hx
    rcases List.mem_cons.1 hx with rfl | hx
    · exact hmem.2 .refl
    · exact hmem.2 (.head hab (hmem.1 hx))
  have hnodup : (a :: d.preorder [b]).Nodup := List.nodup_cons.2 ⟨ha, d.nodup_preorder [b]⟩
  exact (List.subperm_of_subset hnodup hsubset).length_le

/-- A node, and after it what each of its successors unfolds to, in order. -/
def unfold {α : Type} [DecidableEq α] (d : Digraph α) (h : d.Acyclic) (a : α) : List α :=
  a :: (d.next a).flatMap (unfold d h)
termination_by (d.preorder [a]).length
decreasing_by
  rename_i b hb
  exact h.length_preorder_lt hb

/-- A node unfolds to what it leads to. -/
theorem mem_unfold_iff (h : d.Acyclic) : b ∈ d.unfold h a ↔ ReflTransGen d.Edge a b := by
  induction a using unfold.induct d h with
  | case1 a ih =>
    rw [unfold, List.mem_cons, List.mem_flatMap]
    constructor
    · rintro (rfl | ⟨c, hc, hb⟩)
      · exact .refl
      · exact .head hc ((ih c hc).1 hb)
    · intro hab
      rcases ReflTransGen.cases_head hab with rfl | ⟨c, hc, hcb⟩
      · exact .inl rfl
      · exact .inr ⟨c, hc, (ih c hc).2 hcb⟩

/-- A walk is done with what lies on top before it comes to the rest. -/
theorem walk_append (xs ys visited : List α) : d.walk (xs ++ ys) visited =
    d.walk xs visited ++ d.walk ys ((d.walk xs visited).reverse ++ visited) := by
  induction xs, visited using walk.induct d with
  | case1 visited =>
    have hnil : d.walk [] visited = [] := by rw [walk]
    rw [hnil]
    rfl
  | case2 x rest visited hx ih =>
    have hskip : d.walk (x :: rest) visited = d.walk rest visited := by rw [walk, if_pos hx]
    rw [List.cons_append, walk, if_pos hx, ih, hskip]
  | case3 x rest visited hx ih =>
    have hmeet : d.walk (x :: rest) visited = x :: d.walk (d.next x ++ rest) (x :: visited) := by
      rw [walk, if_neg hx]
    rw [List.cons_append, walk, if_neg hx, ← List.append_assoc, ih, hmeet]
    simp

/-- Whatever a visited node leads to was visited, as far as it is a node that `a` leads to. -/
def Settled (d : Digraph α) (visited : List α) (a : α) : Prop :=
  ∀ v ∈ visited, ReflTransGen d.Edge a v → ∀ b, ReflTransGen d.Edge v b → b ∈ visited

/-- The first occurrences of nodes that were not visited. -/
def fresh (visited xs : List α) : List α := (xs.filter (· ∉ visited)).eraseDups

theorem mem_fresh_iff {xs : List α} : a ∈ fresh visited xs ↔ a ∈ xs ∧ a ∉ visited := by
  rw [fresh, List.mem_eraseDups, List.mem_filter, decide_eq_true_iff]

/-- What is fresh in the later of two lists is looked at with the fresh nodes of the earlier visited. -/
theorem fresh_append (visited xs ys : List α) :
    fresh visited (xs ++ ys) =
      fresh visited xs ++ fresh ((fresh visited xs).reverse ++ visited) ys := by
  have hlater : (ys.filter (· ∉ visited)).removeAll (xs.filter (· ∉ visited)) =
      ys.filter (· ∉ (fresh visited xs).reverse ++ visited) := by
    rw [List.removeAll, List.filter_filter]
    refine List.filter_congr fun y _ => ?_
    simp only [List.mem_append, List.mem_reverse, mem_fresh_iff]
    by_cases hy : y ∈ visited <;> simp [hy]
  rw [fresh, List.filter_append, List.eraseDups_append, hlater]
  rfl

/-- The walk from several nodes, if from each of them it meets what is fresh in its unfolding. -/
theorem walk_eq_fresh_of_forall (h : d.Acyclic) : ∀ {xs visited : List α},
    (∀ x ∈ xs, ∀ {visited}, d.Settled visited x → d.walk [x] visited = fresh visited (d.unfold h x)) →
    (∀ x ∈ xs, d.Settled visited x) →
    d.walk xs visited = fresh visited (xs.flatMap (d.unfold h))
  | [], visited, _, _ => by
    rw [walk]
    rfl
  | x :: xs, visited, hwalk, hsettled => by
    obtain ⟨hx, hxs⟩ := List.forall_mem_cons.1 hwalk
    obtain ⟨hsx, hsxs⟩ := List.forall_mem_cons.1 hsettled
    have hfirst := hx hsx
    -- all that a node met in the unfolding of `x` leads to is in that unfolding
    have hlater : ∀ y ∈ xs, d.Settled ((fresh visited (d.unfold h x)).reverse ++ visited) y := by
      intro y hy v hv hyv b hvb
      rw [List.mem_append, List.mem_reverse, mem_fresh_iff, mem_unfold_iff] at hv ⊢
      by_cases hb : b ∈ visited
      · exact .inr hb
      · rcases hv with ⟨hxv, -⟩ | hv
        · exact .inl ⟨hxv.trans hvb, hb⟩
        · exact .inr (hsxs y hy v hv hyv b hvb)
    rw [← List.singleton_append, walk_append, hfirst, walk_eq_fresh_of_forall h hxs hlater,
      List.singleton_append, List.flatMap_cons, fresh_append]

/-- From one node, the walk meets what is fresh in the unfolding of the node. -/
theorem walk_singleton_eq_fresh (h : d.Acyclic) (hsettled : d.Settled visited a) :
    d.walk [a] visited = fresh visited (d.unfold h a) := by
  induction a using unfold.induct d h generalizing visited with
  | case1 a ih =>
    by_cases ha : a ∈ visited
    · have hnone : (d.unfold h a).filter (· ∉ visited) = [] := by
        rw [List.filter_eq_nil_iff]
        intro b hb
        simpa using hsettled a ha .refl b ((mem_unfold_iff h).1 hb)
      rw [walk, if_pos ha, walk, fresh, hnone]
      rfl
    · -- a successor does not lead back to `a`, so visiting `a` unsettles none of them
      have hnext : ∀ x ∈ d.next a, d.Settled (a :: visited) x := by
        intro x hx v hv hxv b hvb
        rcases List.mem_cons.1 hv with rfl | hv
        · exact absurd (TransGen.head' hx hxv) (h v)
        · exact List.mem_cons_of_mem a (hsettled v hv (.head hx hxv) b hvb)
      rw [walk, if_neg ha, List.append_nil,
        walk_eq_fresh_of_forall h (fun x hx _ => ih x hx) hnext, unfold]
      simp only [fresh]
      rw [List.filter_cons_of_pos (by simpa using ha), List.eraseDups_cons, List.filter_filter]
      congr 3
      funext b
      by_cases hb : b = a <;> simp [hb]

/-- The walk meets the nodes that its roots unfold to, each where it occurs for the first time. -/
theorem preorder_eq_eraseDups (h : d.Acyclic) (roots : List α) :
    d.preorder roots = (roots.flatMap (d.unfold h)).eraseDups := by
  rw [preorder, walk_eq_fresh_of_forall h (fun _ _ _ => walk_singleton_eq_fresh h)
    (fun _ _ v hv => absurd hv List.not_mem_nil), fresh]
  simp

end Digraph

end Provenance
