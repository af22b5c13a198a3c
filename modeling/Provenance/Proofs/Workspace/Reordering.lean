import Provenance.Proofs.Resolution.Reordering
import Provenance.Proofs.Workspace.Acceptance
import Provenance.Proofs.Workspace.Replay

/-!
Reordered snapshots. The order in which a snapshot declares its actions, and the order in which it
lists its placeholders or how often, decide neither whether it is accepted nor what any request
prints. A placeholder that is declared after its use is known at its use.
-/

namespace Provenance

open Checks

variable {g g' : Graph} {s s' : Snapshot} {w : Workspace}

/-- The same snapshot with its actions in another order, and its placeholders listed otherwise. -/
structure Snapshot.Reordering (s s' : Snapshot) : Prop where
  version : s'.version = s.version
  build : s'.build = s.build
  targets : s'.targets = s.targets
  /-- The same placeholders, in any order and any number of times. -/
  indirections : ∀ text, text ∈ s'.indirections ↔ text ∈ s.indirections
  actions : s.actions.Perm s'.actions

theorem Snapshot.Reordering.mem_placeholders_iff (h : s.Reordering s') {p : Path} :
    p ∈ s'.placeholders ↔ p ∈ s.placeholders := by
  simp only [Snapshot.placeholders, List.mem_map, List.mem_append, List.mem_flatMap,
    List.mem_filter, h.indirections, h.actions.mem_iff]

namespace Graph

theorem artifact_declared_of_reordering (h : s.Reordering s') :
    (declared s').artifact = (declared s).artifact := by
  funext p
  refine Registry.artifact_eq_of_mem_placeholders_iff ?_
  rw [declared, declared, mem_placeholders_foldl_mark, mem_placeholders_foldl_mark,
    h.mem_placeholders_iff]

theorem AdmitsAll.of_perm {as as' : List Action} (h : g.AdmitsAll as) (hperm : as.Perm as')
    (hout : g'.outputPaths = g.outputPaths) : g'.AdmitsAll as' := by
  have hpaths := hperm.flatMap_right Action.outputPaths
  refine ⟨fun a ha => h.outputs_ne a (hperm.mem_iff.2 ha), ?_, fun p hp => ?_⟩
  · exact hpaths.nodup_iff.1 h.outputPaths_nodup
  · rw [hout]
    exact h.fresh p (hpaths.mem_iff.2 hp)

/-- A reordered snapshot has a graph of the same actions, which knows the same placeholders. -/
theorem exists_ofSnapshot_of_reordering (hg : ofSnapshot s = .ok g) (h : s.Reordering s') :
    ∃ g', ofSnapshot s' = .ok g' ∧ g.actions.Perm g'.actions ∧ g'.artifact = g.artifact := by
  obtain ⟨as, has, hall, rfl, hcheck⟩ := ofSnapshot_eq_ok_iff.1 hg
  obtain ⟨as', has', hperm⟩ := exists_mapM_of_perm h.actions has
  have hartifact := artifact_declared_of_reordering h
  rw [← Action.ofRecord_congr hartifact] at has'
  have hall' : (declared s').AdmitsAll as' := by
    refine hall.of_perm hperm ?_
    rw [outputPaths_declared, outputPaths_declared]
  have hdescribes := describes_attemptAll has hall
  have hdescribes' := describes_attemptAll has' hall'
  have hactions : ((declared s).attemptAll as).actions.Perm ((declared s').attemptAll as').actions := by
    rw [actions_attemptAll hall, actions_attemptAll hall', actions_declared, actions_declared]
    exact hperm
  refine ⟨_, ofSnapshot_eq_ok_iff.2 ⟨as', has', hall', rfl, ?_⟩, hactions, ?_⟩
  · exact (hdescribes.consistent.checkAcyclic_eq_ok_iff_of_perm hactions).2 hcheck
  · rw [hdescribes'.artifact, hartifact, hdescribes.artifact]

end Graph

namespace Target

theorem ofRecord_congr (h : g'.artifact = g.artifact) : Target.ofRecord g' = Target.ofRecord g := by
  funext r
  simp only [Target.ofRecord, Graph.artifacts, h]

theorem ofRecords_of_artifact_eq {seen : List Label} {rs : List TargetRecord} {ts : List Target}
    (h : g'.artifact = g.artifact) (hts : Target.ofRecords g seen rs = .ok ts) :
    Target.ofRecords g' seen rs = .ok ts := by
  rw [ofRecords_eq_ok_iff] at hts ⊢
  rwa [ofRecord_congr h]

end Target

namespace Workspace

/-- What a workspace builds does not depend on its graph. -/
theorem build_withGraph (w : Workspace) (g : Graph) :
    ({ w with graph := g } : Workspace).build = w.build := by
  have hrecast : Recast id w { w with graph := g } :=
    ⟨(List.map_id _).symm, rfl, rfl, fun _ => rfl, fun _ _ => rfl⟩
  funext r
  rw [hrecast.build_eq, BuildResult.map_id]

/-- A reordered snapshot is accepted as well, and every request has the same outcome over it. -/
theorem resolve_eq_of_reordering (hw : Workspace.ofSnapshot s = .ok w) (h : s.Reordering s') :
    ∃ w', Workspace.ofSnapshot s' = .ok w' ∧
      ∀ r : Request, Request.resolve w'.tool r = Request.resolve w.tool r := by
  obtain ⟨hgraph, htargets, hfailed, hsuccess⟩ := ofSnapshot_eq_ok_iff.1 hw
  obtain ⟨g', hgraph', hperm, hartifact⟩ := Graph.exists_ofSnapshot_of_reordering hgraph h
  have hw' : Workspace.ofSnapshot s' = .ok { w with graph := g' } := by
    refine ofSnapshot_eq_ok_iff.2 ⟨hgraph', ?_, ?_, ?_⟩
    · rw [h.targets]
      exact Target.ofRecords_of_artifact_eq hartifact htargets
    · rw [h.build]
      exact hfailed
    · rw [h.build]
      exact hsuccess
  refine ⟨_, hw', fun r => ?_⟩
  have hconsistent := (Graph.Describes.of_ofSnapshot hgraph).consistent
  rw [tool, build_withGraph]
  exact Request.resolve_of_perm hconsistent hperm w.build r

/-- A snapshot with an action that reads a placeholder before the action that writes it. -/
def placeholderLast : Snapshot where
  version := ⟨1, 0, 0, [], []⟩
  indirections := ["p/order", "p/group"]
  actions := [
    { mnemonic := "Compile", inputs := .many ["p/a.c", "p/headers"], outputs := .one "p/a.o" },
    { mnemonic := "Discover", inputs := .one "p/a.h", outputs := .one "p/headers"
      indirection := some .scheduling }]
  targets := [{ label := "//p:a", outputGroups := [(Target.compiledGroup, .one "p/a.o")] }]

/-- The same snapshot the other way round, with a placeholder repeated. -/
def placeholderFirst : Snapshot :=
  { placeholderLast with
    indirections := ["p/group", "p/order", "p/group"]
    actions := placeholderLast.actions.reverse }

theorem resolve_placeholderFirst :
    ∃ w w', Workspace.ofSnapshot placeholderLast = .ok w ∧
      Workspace.ofSnapshot placeholderFirst = .ok w' ∧
      ∀ r : Request, Request.resolve w'.tool r = Request.resolve w.tool r := by
  obtain ⟨w, hw⟩ := exists_eq_ok_of_isOk (x := Workspace.ofSnapshot placeholderLast) (by cbv)
  have hreordering : placeholderLast.Reordering placeholderFirst := by
    refine ⟨rfl, rfl, rfl, fun text => ?_, (List.reverse_perm _).symm⟩
    simp only [placeholderFirst, placeholderLast, List.mem_cons, List.not_mem_nil, or_false]
    tauto
  obtain ⟨w', hw', hresolve⟩ := resolve_eq_of_reordering hw hreordering
  exact ⟨w, w', hw, hw', hresolve⟩

end Workspace

end Provenance
