import Provenance.Proofs.Digraph.Rotation
import Provenance.Proofs.Digraph.Search.Outcome
import Provenance.Proofs.Digraph.Unfolding
import Provenance.Proofs.Graph.Registration
import Provenance.Proofs.Path.Order

/-!
The check for cycles. A path depends on what the action that writes it reads. However a graph was
built up, its check stops, it accepts the graph exactly if no path depends on itself by any number of
steps, and otherwise it reports a cycle of the graph, written from its least path. That form depends
on the cycle only, not on the path at which the search came across it.
-/

namespace Provenance

namespace Graph

open Provenance.Digraph

variable {g : Graph} {p q : Path}

/-- One path depends on another if an action that writes the one reads the other. -/
def DependsOn (g : Graph) (p q : Path) : Prop :=
  ∃ a ∈ g.actions, p ∈ a.outputPaths ∧ q ∈ a.inputPaths

/-- In the digraph of dependencies, a path leads to what its generator reads. -/
theorem edge_dependencies_iff :
    g.dependencies.Edge p q ↔ ∃ a, g.generator? p = some a ∧ q ∈ a.inputPaths := by
  rw [Edge]
  simp only [dependencies]
  cases hgen : g.generator? p with
  | none => simp
  | some a => simp

theorem Consistent.edge_dependencies_iff (h : g.Consistent) :
    g.dependencies.Edge p q ↔ g.DependsOn p q := by
  rw [Graph.edge_dependencies_iff, DependsOn]
  simp only [h.generator?_eq_some_iff, and_assoc]

theorem checkAcyclic_eq_ok_iff_findCycle? : g.checkAcyclic = .ok () ↔ g.findCycle? = none := by
  rw [checkAcyclic]
  cases g.findCycle? with
  | none => simp
  | some cycle => exact iff_of_false (fun h => by cases h) (Option.some_ne_none cycle)

/-- The check accepts a graph exactly if no path leads back to itself. -/
theorem checkAcyclic_eq_ok_iff_acyclic : g.checkAcyclic = .ok () ↔ g.dependencies.Acyclic := by
  have hrun := Search.run_eq_none_iff (d := g.dependencies) fun p (hp : p ∈ g.outputPaths) => hp
  rw [checkAcyclic_eq_ok_iff_findCycle?, findCycle?, Option.map_eq_none_iff, hrun,
    exists_closedWalk_iff, not_exists]
  rfl

/-- The check accepts exactly the graphs without a closed walk. -/
theorem Consistent.checkAcyclic_eq_ok_iff (h : g.Consistent) :
    g.checkAcyclic = .ok () ↔ ¬∃ walk, ClosedWalk g.DependsOn walk := by
  rw [checkAcyclic_eq_ok_iff_acyclic, Acyclic, ← not_exists, ← exists_closedWalk_iff]
  simp only [not_exists]
  refine forall_congr' fun walk => not_congr ⟨?_, ?_⟩
  · exact fun hw => hw.imp fun _ _ => h.edge_dependencies_iff.1
  · exact fun hw => hw.imp fun _ _ => h.edge_dependencies_iff.2

/-- What the check reports is a cycle of the graph, written from its least path. -/
theorem Consistent.leastCycle_of_checkAcyclic (h : g.Consistent) {e : GraphError}
    (he : g.checkAcyclic = .error e) :
    ∃ cycle, e = .circularDependency cycle ∧ LeastCycle g.DependsOn cycle := by
  rw [checkAcyclic] at he
  split at he
  · rename_i cycle hcycle
    cases he
    obtain ⟨walk, hrun, rfl⟩ := Option.map_eq_some_iff.1 hcycle
    obtain ⟨hwalk, hnodup⟩ := Search.closedWalk_of_run_eq_some hrun
    refine ⟨canonical walk, rfl, (leastCycle_canonical hwalk hnodup).imp ?_⟩
    exact fun _ _ => h.edge_dependencies_iff.1
  · cases he

/-- The check stops within two steps for each path that is written and for each dependency. -/
theorem exists_advance_eq_stop (g : Graph) :
    ∃ n ≤ 2 * g.outputPaths.length +
        2 * (g.outputPaths.flatMap g.dependencies.next).length,
      (Search.start g.outputPaths).advance g.dependencies n =
        .stop ((Search.start g.outputPaths).run g.dependencies) :=
  ⟨_, Nat.le_refl _, Search.advance_eq_stop (Search.work_start _).le⟩

/-- However a graph was built up, its check stops, accepts it exactly if it has no closed walk, and
otherwise reports a cycle of it that starts at its least path. -/
theorem checkAcyclic_ofOperations (ops : List Operation) :
    let g := ofOperations ops
    (∃ n ≤ 2 * g.outputPaths.length +
        2 * (g.outputPaths.flatMap g.dependencies.next).length,
      (Search.start g.outputPaths).advance g.dependencies n =
        .stop ((Search.start g.outputPaths).run g.dependencies)) ∧
    (g.checkAcyclic = .ok () ↔ ¬∃ walk, ClosedWalk g.DependsOn walk) ∧
    ∀ e, g.checkAcyclic = .error e →
      ∃ cycle, e = .circularDependency cycle ∧ LeastCycle g.DependsOn cycle := by
  intro g
  have h : g.Consistent := consistent_ofOperations ops
  exact ⟨exists_advance_eq_stop g, h.checkAcyclic_eq_ok_iff, fun e => h.leastCycle_of_checkAcyclic⟩

/-- Two actions that read each other's output. -/
def mutualReaders : List Operation :=
  [.add { mnemonic := "B", inputs := [.file (.ofString "a")], outputs := [.file (.ofString "b")] },
    .add { mnemonic := "A", inputs := [.file (.ofString "b")], outputs := [.file (.ofString "a")] }]

theorem checkAcyclic_mutualReaders :
    (ofOperations mutualReaders).checkAcyclic =
        .error (.circularDependency [.ofString "a", .ofString "b", .ofString "a"]) ∧
      LeastCycle (ofOperations mutualReaders).DependsOn
        [.ofString "a", .ofString "b", .ofString "a"] := by
  have hcheck : (ofOperations mutualReaders).checkAcyclic =
      .error (.circularDependency [.ofString "a", .ofString "b", .ofString "a"]) := by
    cbv
  refine ⟨hcheck, ?_⟩
  obtain ⟨cycle, heq, hcycle⟩ := (checkAcyclic_ofOperations mutualReaders).2.2 _ hcheck
  rw [GraphError.circularDependency.injEq] at heq
  rw [heq]
  exact hcycle

/-- A cycle of different paths has one canonical form, wherever it is entered: the same cycle, written
from its smallest path. -/
theorem canonical_ring {p : Path} {ring : List Path} (hn : (p :: ring).Nodup) :
    (∃ least rest, canonical (p :: ring ++ [p]) = least :: rest ++ [least] ∧
        (p :: ring).IsRotated (least :: rest) ∧ ∀ q ∈ p :: ring, least = q ∨ least < q) ∧
      (canonical (p :: ring ++ [p])).length = (p :: ring).length + 1 ∧
      (∀ q other, (p :: ring).IsRotated (q :: other) →
        canonical (q :: other ++ [q]) = canonical (p :: ring ++ [p])) ∧
      canonical (canonical (p :: ring ++ [p])) = canonical (p :: ring ++ [p]) := by
  obtain ⟨least, rest, hcanonical, hr, hleast⟩ := exists_canonical_eq p ring
  refine ⟨⟨least, rest, hcanonical, hr, hleast⟩, ?_, ?_, ?_⟩
  · rw [hcanonical, List.length_append, List.length_singleton, hr.perm.length_eq]
  · exact fun q other hother => canonical_eq_of_isRotated hn hother
  · calc canonical (canonical (p :: ring ++ [p]))
      _ = canonical (least :: rest ++ [least]) := by rw [hcanonical]
      _ = canonical (p :: ring ++ [p]) := canonical_eq_of_isRotated hn hr

theorem canonical_ring_threePaths :
    [Path.ofString "c", .ofString "a", .ofString "b"].Nodup ∧
      [Path.ofString "c", .ofString "a", .ofString "b"].IsRotated
        [.ofString "b", .ofString "c", .ofString "a"] ∧
      canonical [Path.ofString "b", .ofString "c", .ofString "a", .ofString "b"] =
        [.ofString "a", .ofString "b", .ofString "c", .ofString "a"] := by
  have hn : [Path.ofString "c", .ofString "a", .ofString "b"].Nodup := by decide
  have hrotated (a b c : Path) : [c, a, b].IsRotated [b, c, a] := ⟨2, rfl⟩
  have hr := hrotated (.ofString "a") (.ofString "b") (.ofString "c")
  have hcanonical : canonical [Path.ofString "c", .ofString "a", .ofString "b", .ofString "c"] =
      [.ofString "a", .ofString "b", .ofString "c", .ofString "a"] := by
    cbv
  exact ⟨hn, hr, ((canonical_ring hn).2.2.1 _ _ hr).trans hcanonical⟩

end Graph

end Provenance
