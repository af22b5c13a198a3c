import Provenance.Proofs.Graph.Lowering

/-!
Acceptance of actions. A snapshot has a graph exactly when its actions are well formed, whatever
their order: each writes something, no path is written twice, every owner is a label, and no path
depends on itself by any number of steps.
-/

namespace Provenance

open Checks Provenance.Digraph

/-- Actions that make up a graph. -/
structure Snapshot.WellFormedActions (s : Snapshot) : Prop where
  outputs_ne : ∀ r ∈ s.actions, r.outputs.toList ≠ []
  /-- No path is written twice, be it by two actions or by one. -/
  outputPaths_nodup : (s.actions.flatMap ActionRecord.outputPaths).Nodup
  owners : ∀ r ∈ s.actions, ∀ text ∈ r.owner, IsLabel text
  acyclic : ¬∃ walk, ClosedWalk s.DependsOn walk

namespace Graph

variable {g : Graph} {s : Snapshot} {as : List Action} {p q : Path}

theorem admitsAll_declared_iff (has : s.actions.mapM (Action.ofRecord (declared s)) = .ok as) :
    (declared s).AdmitsAll as ↔
      (∀ r ∈ s.actions, r.outputs.toList ≠ []) ∧
        (s.actions.flatMap ActionRecord.outputPaths).Nodup := by
  have hpaths : as.map Action.outputPaths = s.actions.map ActionRecord.outputPaths :=
    map_eq_map_of_mapM Action.outputPaths_of_ofRecord has
  have hne : (∀ a ∈ as, a.outputs ≠ []) ↔ ∀ r ∈ s.actions, r.outputs.toList ≠ [] := by
    have hmap : (∀ ps ∈ as.map Action.outputPaths, ps ≠ []) ↔
        ∀ ps ∈ s.actions.map ActionRecord.outputPaths, ps ≠ [] := by
      rw [hpaths]
    simpa [Action.outputPaths, ActionRecord.outputPaths, TextOrList.paths] using hmap
  have hflat : as.flatMap Action.outputPaths = s.actions.flatMap ActionRecord.outputPaths := by
    rw [List.flatMap_def, hpaths, ← List.flatMap_def]
  rw [← hne, ← hflat]
  constructor
  · exact fun h => ⟨h.outputs_ne, h.outputPaths_nodup⟩
  · rintro ⟨hne, hnodup⟩
    refine ⟨hne, hnodup, fun p _ => ?_⟩
    rw [outputPaths_declared]
    exact List.not_mem_nil

/-- The dependencies of a graph are those of the snapshot it was made from. -/
theorem Describes.dependsOn_iff (h : g.Describes s) : g.DependsOn p q ↔ s.DependsOn p q := by
  have hpaths : g.actions.map (fun a => (a.outputPaths, a.inputPaths)) =
      s.actions.map fun r => (r.outputPaths, r.inputPaths) :=
    map_eq_map_of_mapM (fun hr => Prod.ext (Action.outputPaths_of_ofRecord hr)
      (Action.inputPaths_of_ofRecord hr)) h.actions
  have hmem : (∃ x ∈ g.actions.map fun a => (a.outputPaths, a.inputPaths), p ∈ x.1 ∧ q ∈ x.2) ↔
      ∃ x ∈ s.actions.map fun r => (r.outputPaths, r.inputPaths), p ∈ x.1 ∧ q ∈ x.2 := by
    rw [hpaths]
  simpa [DependsOn, Snapshot.DependsOn] using hmem

theorem Describes.checkAcyclic_eq_ok_iff (h : g.Describes s) :
    g.checkAcyclic = .ok () ↔ ¬∃ walk, ClosedWalk s.DependsOn walk := by
  rw [h.consistent.checkAcyclic_eq_ok_iff]
  simp only [not_exists]
  refine forall_congr' fun walk => not_congr ⟨?_, ?_⟩
  · exact fun hw => hw.imp fun _ _ => h.dependsOn_iff.1
  · exact fun hw => hw.imp fun _ _ => h.dependsOn_iff.2

/-- A snapshot has a graph exactly when its actions are well formed. -/
theorem exists_ofSnapshot_iff_wellFormedActions : (∃ g, ofSnapshot s = .ok g) ↔ s.WellFormedActions := by
  have howners : (∃ as, s.actions.mapM (Action.ofRecord (declared s)) = .ok as) ↔
      ∀ r ∈ s.actions, ∀ text ∈ r.owner, IsLabel text := by
    rw [exists_mapM_eq_ok_iff]
    exact forall₂_congr fun r _ => Action.exists_ofRecord_iff
  constructor
  · rintro ⟨g, hg⟩
    obtain ⟨as, has, hall, rfl, hcheck⟩ := ofSnapshot_eq_ok_iff.1 hg
    obtain ⟨hne, hnodup⟩ := (admitsAll_declared_iff has).1 hall
    refine ⟨hne, hnodup, howners.1 ⟨as, has⟩, ?_⟩
    exact (describes_attemptAll has hall).checkAcyclic_eq_ok_iff.1 hcheck
  · intro h
    obtain ⟨as, has⟩ := howners.2 h.owners
    have hall := (admitsAll_declared_iff has).2 ⟨h.outputs_ne, h.outputPaths_nodup⟩
    have hcheck := (describes_attemptAll has hall).checkAcyclic_eq_ok_iff.2 h.acyclic
    exact ⟨_, ofSnapshot_eq_ok_iff.2 ⟨as, has, hall, rfl, hcheck⟩⟩

end Graph

end Provenance
