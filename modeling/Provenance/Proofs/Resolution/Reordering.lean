import Provenance.Proofs.Graph.Reordering
import Provenance.Proofs.Resolution.Agreement

/-!
Resolution over a reordered graph. What is printed depends on the actions of a graph and on the order
in which targets ask for them, not on the order in which the graph has them.
-/

namespace Provenance.Request

variable {g g' : Graph}

/-- A build that realises the same over a reordered graph resolves every request alike. -/
theorem resolve_of_perm (h : g.Consistent) (hperm : g.actions.Perm g'.actions)
    (build : BuildRequest → BuildResult × List Warning) (r : Request) :
    resolve ⟨g', build⟩ r = resolve ⟨g, build⟩ r := by
  have hgather (ts : List Target) : r.gather g' ts = r.gather g ts :=
    gather_of_agreeOn (h.agreeOn_of_perm hperm) h (h.of_perm hperm) r
      fun _ _ _ _ => Set.mem_univ _
  rw [resolve, resolve]
  simp only [hgather]

end Provenance.Request
