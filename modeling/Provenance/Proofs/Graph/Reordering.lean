import Provenance.Proofs.Graph.Agreement

/-!
Reordered graphs. Two graphs of the same actions in different orders give their actions different
numbers, but they have the same generators for all paths, and the same cycles.
-/

namespace Provenance.Graph

variable {g g' : Graph}

theorem outputPaths_perm (hperm : g.actions.Perm g'.actions) :
    g.outputPaths.Perm g'.outputPaths := by
  rw [Registry.outputPaths_eq, Registry.outputPaths_eq]
  exact hperm.flatMap_right Action.outputPaths

theorem Consistent.of_perm (h : g.Consistent) (hperm : g.actions.Perm g'.actions) :
    g'.Consistent :=
  ⟨(outputPaths_perm hperm).nodup_iff.1 h.outputPaths_nodup,
    fun a ha => h.outputs_ne a (hperm.mem_iff.2 ha)⟩

theorem dependsOn_of_perm (hperm : g.actions.Perm g'.actions) : g'.DependsOn = g.DependsOn := by
  funext p q
  simp only [DependsOn, hperm.mem_iff]

/-- Order does not decide whether a graph is accepted. -/
theorem Consistent.checkAcyclic_eq_ok_iff_of_perm (h : g.Consistent)
    (hperm : g.actions.Perm g'.actions) : g'.checkAcyclic = .ok () ↔ g.checkAcyclic = .ok () := by
  rw [(h.of_perm hperm).checkAcyclic_eq_ok_iff, h.checkAcyclic_eq_ok_iff, dependsOn_of_perm hperm]

theorem Consistent.generator?_of_perm (h : g.Consistent) (hperm : g.actions.Perm g'.actions) :
    g'.generator? = g.generator? := by
  funext p
  refine Option.ext fun a => ?_
  rw [(h.of_perm hperm).generator?_eq_some_iff, h.generator?_eq_some_iff, hperm.mem_iff]

theorem Consistent.agreeOn_of_perm (h : g.Consistent) (hperm : g.actions.Perm g'.actions) :
    AgreeOn Set.univ g g' :=
  ⟨fun p _ => congrFun (h.generator?_of_perm hperm) p, fun _ _ q _ => Set.mem_univ q⟩

end Provenance.Graph
