import Provenance.Proofs.Resolution.Agreement
import Provenance.Proofs.Resolution.Views
import Provenance.Proofs.Workspace.Placeholders
import Provenance.Proofs.Workspace.Replay
import Provenance.Proofs.Workspace.Requested

/-!
Snapshots with one more action. The new action shifts the numbers of those declared after it, and if
it writes placeholders, artifacts at its outputs are flagged anew wherever they stand. None of that
shows in the answer to a request from which no output of the action can be reached.
-/

namespace Provenance

open Checks

variable {g g' : Graph} {s s' : Snapshot} {w w' : Workspace} {r : ActionRecord} {R : Set Path}
  {p : Path} {a : Action}

namespace Snapshot

/-- The same snapshot with one more action, declared at any place. -/
structure Insertion (r : ActionRecord) (s s' : Snapshot) : Prop where
  version : s'.version = s.version
  build : s'.build = s.build
  indirections : s'.indirections = s.indirections
  targets : s'.targets = s.targets
  actions : ∃ front back, s.actions = front ++ back ∧ s'.actions = front ++ r :: back

/-- The paths that can be reached from some targets: what they build and compile, and what that
depends on by any number of steps. -/
def reach (s : Snapshot) (ts : List Target) : Set Path :=
  {p | ∃ t ∈ ts, ∃ x ∈ t.filesToBuild ++ t.filesToCompile,
    Relation.ReflTransGen s.DependsOn x.path p}

theorem mem_reach_of_dependsOn {ts : List Target} {q : Path} (hp : p ∈ s.reach ts)
    (hq : s.DependsOn p q) : q ∈ s.reach ts := by
  obtain ⟨t, ht, x, hx, hreach⟩ := hp
  exact ⟨t, ht, x, hx, hreach.tail hq⟩

/-- A set of paths that holds the inputs of every action that writes one of them can not be left. -/
theorem reach_subset {ts : List Target}
    (hts : ∀ t ∈ ts, ∀ x ∈ t.filesToBuild ++ t.filesToCompile, x.path ∈ R)
    (hclosed : ∀ x ∈ s.actions, (∃ p ∈ x.outputPaths, p ∈ R) → ∀ q ∈ x.inputPaths, q ∈ R) :
    s.reach ts ⊆ R := by
  rintro p ⟨t, ht, x, hx, hreach⟩
  induction hreach with
  | refl => exact hts t ht x hx
  | tail _ hstep ih =>
    obtain ⟨r, hr, hp, hq⟩ := hstep
    exact hclosed r hr ⟨_, hp, ih⟩ _ hq

namespace Insertion

theorem perm (h : Insertion r s s') : s'.actions.Perm (r :: s.actions) := by
  obtain ⟨front, back, hs, hs'⟩ := h.actions
  rw [hs, hs']
  exact List.perm_middle

theorem mem_actions_iff (h : Insertion r s s') {x : ActionRecord} :
    x ∈ s'.actions ↔ x = r ∨ x ∈ s.actions := by
  rw [h.perm.mem_iff, List.mem_cons]

/-- The new action declares placeholders at its outputs at most. -/
theorem declaresPlaceholder_iff (h : Insertion r s s') (hp : p ∉ r.outputPaths) :
    s'.DeclaresPlaceholder p ↔ s.DeclaresPlaceholder p := by
  rw [DeclaresPlaceholder, DeclaresPlaceholder, h.indirections]
  refine or_congr_right ⟨?_, ?_⟩
  · rintro ⟨x, hx, hclass, text, htext, hpath⟩
    rcases h.mem_actions_iff.1 hx with rfl | hx
    · exact absurd (List.mem_map.2 ⟨text, htext, hpath⟩) hp
    · exact ⟨x, hx, hclass, text, htext, hpath⟩
  · rintro ⟨x, hx, hclass⟩
    exact ⟨x, h.mem_actions_iff.2 (.inr hx), hclass⟩

/-- The new action writes nothing that another action writes. -/
theorem not_mem_outputPaths (h : Insertion r s s') (hs' : s'.WellFormedActions) {x : ActionRecord}
    (hx : x ∈ s.actions) (hp : p ∈ x.outputPaths) : p ∉ r.outputPaths := by
  have hnodup : ((r :: s.actions).flatMap ActionRecord.outputPaths).Nodup :=
    (h.perm.flatMap_right ActionRecord.outputPaths).nodup_iff.1 hs'.outputPaths_nodup
  rw [List.flatMap_cons, List.nodup_append'] at hnodup
  exact fun hpr => hnodup.2.2 hpr (List.mem_flatMap.2 ⟨x, hx, hp⟩)

end Insertion

end Snapshot

namespace Graph

/-- Away from the outputs of the new action, the same placeholders are known. -/
theorem artifact_of_insertion (hg : g.Describes s) (hg' : g'.Describes s')
    (h : Snapshot.Insertion r s s') (hp : p ∉ r.outputPaths) : g'.artifact p = g.artifact p := by
  refine Registry.artifact_eq_of_mem_placeholders_iff ?_
  rw [← Registry.placeholder_artifact_iff, ← Registry.placeholder_artifact_iff, hg'.placeholder_artifact,
    hg.placeholder_artifact, h.declaresPlaceholder_iff hp]

theorem reflag_of_insertion (hg : g.Describes s) (hg' : g'.Describes s')
    (h : Snapshot.Insertion r s s') {x : Artifact} (hx : g.reflag x = x)
    (hfree : x.path ∉ r.outputPaths) : g'.reflag x = x := by
  rw [reflag, artifact_of_insertion hg hg' h hfree]
  exact hx

/-- An action that reads no output of the new one is lowered as before. -/
theorem mem_actions_of_insertion (hg : g.Describes s) (hg' : g'.Describes s')
    (h : Snapshot.Insertion r s s') (hs' : s'.WellFormedActions) (ha : a ∈ g.actions)
    (hfree : ∀ p ∈ a.inputPaths, p ∉ r.outputPaths) : a ∈ g'.actions := by
  obtain ⟨record, hrecord, hlower⟩ := exists_of_mem_mapM hg.mapM_ofRecord ha
  have houtputs : ∀ p ∈ a.outputPaths, p ∉ r.outputPaths := by
    intro p hp
    rw [Action.outputPaths_of_ofRecord hlower] at hp
    exact h.not_mem_outputPaths hs' hrecord hp
  have hsame : a.reflag g' = a := by
    refine Action.reflag_eq_self fun x hx => ?_
    refine reflag_of_insertion hg hg' h (hg.reflag_of_mem_artifacts ha hx) ?_
    rcases List.mem_append.1 hx with hx | hx
    · exact hfree x.path (List.mem_map_of_mem hx)
    · exact houtputs x.path (List.mem_map_of_mem hx)
  have hlower' : Action.ofRecord g' record = .ok a := by
    rw [← hsame]
    exact Action.ofRecord_reflag hlower
  exact mem_of_mapM hg'.mapM_ofRecord (h.mem_actions_iff.2 (.inr hrecord)) hlower'

/-- A path that the new action does not write is written by no other action than before. -/
theorem mem_outputPaths_of_insertion (hg : g.Describes s) (hg' : g'.Describes s')
    (h : Snapshot.Insertion r s s') (hfree : p ∉ r.outputPaths) (hp : p ∈ g'.outputPaths) :
    p ∈ g.outputPaths := by
  obtain ⟨a, ha, hpa⟩ := Registry.mem_outputPaths.1 hp
  obtain ⟨record, hrecord, hlower⟩ := exists_of_mem_mapM hg'.mapM_ofRecord ha
  rw [Action.outputPaths_of_ofRecord hlower] at hpa
  rcases h.mem_actions_iff.1 hrecord with rfl | hrecord
  · exact absurd hpa hfree
  · have hlower' : Action.ofRecord g record = .ok (a.reflag g) := Action.ofRecord_reflag hlower
    refine Registry.mem_outputPaths.2 ⟨_, mem_of_mapM hg.mapM_ofRecord hrecord hlower', ?_⟩
    rwa [Action.outputPaths_of_ofRecord hlower']

/-- Where no output of the new action can be reached, every path has the generator that it had. -/
theorem agreeOn_of_insertion (hg : g.Describes s) (hg' : g'.Describes s')
    (h : Snapshot.Insertion r s s') (hs' : s'.WellFormedActions)
    (hclosed : ∀ p ∈ R, ∀ q, s.DependsOn p q → q ∈ R) (hfree : ∀ p ∈ R, p ∉ r.outputPaths) :
    AgreeOn R g g' := by
  have hclosed' : ∀ p ∈ R, ∀ q, g.DependsOn p q → q ∈ R := fun p hp q hpq =>
    hclosed p hp q (hg.dependsOn_iff.1 hpq)
  refine ⟨fun p hp => ?_, hclosed'⟩
  cases hgen : g.generator? p with
  | some a =>
    obtain ⟨ha, hpa⟩ := mem_of_generator? hgen
    refine hg'.consistent.generator?_eq_some_iff.2 ⟨?_, hpa⟩
    refine mem_actions_of_insertion hg hg' h hs' ha fun q hq => hfree q ?_
    exact hclosed' p hp q ⟨a, ha, hpa, hq⟩
  | none =>
    have hnone : p ∉ g.outputPaths := by
      rw [← generatorId?_isSome_iff, generatorId?_eq_none_iff.2 hgen]
      exact Bool.false_ne_true
    rw [← generatorId?_eq_none_iff, ← Option.not_isSome_iff_eq_none, generatorId?_isSome_iff]
    exact fun hp' => hnone (mem_outputPaths_of_insertion hg hg' h (hfree p hp) hp')

end Graph

/-- A target of which only flags change that are not looked at. -/
theorem Target.alike_reflag {t : Target}
    (h : ∀ x ∈ t.filesToBuild ++ t.filesToCompile, g.reflag x = x) : t.Alike (t.reflag g) := by
  obtain ⟨hbuild, hcompile⟩ := List.forall_mem_append.1 h
  refine ⟨rfl, rfl, (Graph.map_reflag_eq_self_iff.2 hbuild).symm, ?_, rfl⟩
  rw [filesToCompile, filesToCompile, outputGroup_reflag]
  exact (Graph.map_reflag_eq_self_iff.2 hcompile).symm

theorem BuildResult.alike_map {f : Target → Target} {result : BuildResult}
    (h : ∀ ts, result.targets = some ts → ∀ t ∈ ts, t.Alike (f t)) :
    result.Alike (result.map f) := by
  obtain ⟨targets, success⟩ := result
  refine ⟨?_, rfl⟩
  cases targets with
  | none => exact .none
  | some ts => exact .some (List.forall₂_map_right_iff.2 (List.forall₂_same.2 (h ts rfl)))

namespace Workspace

/-- The targets that the build of a request realises. -/
def realised (w : Workspace) (q : Request) : List Target :=
  (w.build q.buildRequest).1.targets.getD []

/-- A workspace records what it recorded without the new action, with the flags set anew. -/
theorem recast_of_insertion (hw : Workspace.ofSnapshot s = .ok w)
    (hw' : Workspace.ofSnapshot s' = .ok w') (h : Snapshot.Insertion r s s') :
    Recast (Target.reflag w'.graph) w w' := by
  obtain ⟨-, htargets, hfailed, hsuccess⟩ := ofSnapshot_eq_ok_iff.1 hw
  obtain ⟨-, htargets', hfailed', hsuccess'⟩ := ofSnapshot_eq_ok_iff.1 hw'
  rw [h.targets] at htargets'
  rw [h.build] at hfailed' hsuccess'
  refine ⟨?_, ?_, hsuccess'.symm.trans hsuccess, fun _ => rfl, fun _ _ => rfl⟩
  · exact Except.ok.inj (htargets'.symm.trans (Target.ofRecords_reflag htargets))
  · exact Except.ok.inj (hfailed'.symm.trans hfailed)

theorem mem_reach_of_mem_realised {q : Request} {ts : List Target}
    (hts : (w.build q.buildRequest).1.targets = some ts) :
    ∀ t ∈ ts, ∀ x ∈ t.filesToBuild ++ t.filesToCompile, x.path ∈ s.reach (w.realised q) := by
  intro t ht x hx
  have hrealised : w.realised q = ts := by
    rw [realised, hts, Option.getD_some]
  exact ⟨t, hrealised ▸ ht, x, hx, .refl⟩

/-- The build of a request can not be told apart with the new action, where no output of it can be
reached: what the realised targets build and compile is flagged as before. -/
theorem alike_of_insertion (hw : Workspace.ofSnapshot s = .ok w)
    (hw' : Workspace.ofSnapshot s' = .ok w') (h : Snapshot.Insertion r s s') (q : Request)
    (hfree : ∀ p ∈ r.outputPaths, p ∉ s.reach (w.realised q)) :
    (w.build q.buildRequest).1.Alike (w'.build q.buildRequest).1 := by
  obtain ⟨hgraph, -⟩ := ofSnapshot_eq_ok_iff.1 hw
  obtain ⟨hgraph', -⟩ := ofSnapshot_eq_ok_iff.1 hw'
  have hg := Graph.Describes.of_ofSnapshot hgraph
  have hg' := Graph.Describes.of_ofSnapshot hgraph'
  rw [(recast_of_insertion hw hw' h).build_eq]
  refine BuildResult.alike_map fun ts hts t ht => Target.alike_reflag fun x hx => ?_
  have hxw : x ∈ w.artifacts := by
    refine List.mem_append_right _ (List.mem_flatMap.2 ⟨t, mem_targets_of_build hts t ht, ?_⟩)
    exact Target.mem_artifacts_of_needed hx
  refine Graph.reflag_of_insertion hg hg' h (reflag_of_mem_artifacts hw hxw) fun hxr => ?_
  exact hfree x.path hxr (mem_reach_of_mem_realised hts t ht x hx)

/-- An action does not affect the answer to a request from whose realised targets none of its
outputs can be reached. -/
theorem resolve_eq_of_insertion (hw : Workspace.ofSnapshot s = .ok w)
    (hw' : Workspace.ofSnapshot s' = .ok w') (h : Snapshot.Insertion r s s') (q : Request)
    (hfree : ∀ p ∈ r.outputPaths, p ∉ s.reach (w.realised q)) :
    Request.resolve w'.tool q = Request.resolve w.tool q := by
  obtain ⟨hgraph, -⟩ := ofSnapshot_eq_ok_iff.1 hw
  obtain ⟨hgraph', -⟩ := ofSnapshot_eq_ok_iff.1 hw'
  have hg := Graph.Describes.of_ofSnapshot hgraph
  have hg' := Graph.Describes.of_ofSnapshot hgraph'
  have hwell := Graph.exists_ofSnapshot_iff_wellFormedActions.1 ⟨_, hgraph'⟩
  have hagree : Graph.AgreeOn (s.reach (w.realised q)) w.graph w'.graph :=
    Graph.agreeOn_of_insertion hg hg' h hwell (fun p hp q hq => Snapshot.mem_reach_of_dependsOn hp hq)
      fun p hp hpr => hfree p hpr hp
  have hwarnings : (w'.build q.buildRequest).2 = (w.build q.buildRequest).2 := by
    rw [(recast_of_insertion hw hw' h).build_eq]
  refine Request.resolve_of_alike hwarnings (alike_of_insertion hw hw' h q hfree) fun ts hts => ?_
  exact Request.gather_of_agreeOn hagree hg.consistent hg'.consistent q
    (mem_reach_of_mem_realised hts)

/-- An action that stands in for headers found in a source. -/
def discovery : ActionRecord where
  mnemonic := "Discover"
  inputs := .one "q/b.h"
  outputs := .one "q/headers"
  indirection := some .scheduling

/-- A snapshot of two packages, of which one reads what the action writes. -/
def twoPackages : Snapshot where
  version := ⟨1, 0, 0, [], []⟩
  actions := [
    { mnemonic := "Archive", inputs := .many ["q/b.c", "q/headers"], outputs := .one "q/b.a" },
    { mnemonic := "Compile", inputs := .many ["p/a.c", "p/a.h"], outputs := .one "p/a.o" }]
  targets := [
    { label := "//p:a", filesToBuild := .one "p/a.o"
      outputGroups := [(Target.compiledGroup, .one "p/a.o"), ("hidden", .one "q/headers")] },
    { label := "//q:b", outputGroups := [(Target.compiledGroup, .one "q/b.a")] }]

/-- The same snapshot with the action between those it had. -/
def twoPackagesDiscovered : Snapshot :=
  { twoPackages with
    actions := twoPackages.actions.take 1 ++ discovery :: twoPackages.actions.drop 1 }

/-- The paths that depend on what the action writes. -/
def discovered : List Path := ["q/b.a", "q/headers"].map Path.ofString

/-- An action is registered in front of the one that is printed, and makes a placeholder of a file
that the printed action does not depend on. -/
theorem resolve_twoPackagesDiscovered :
    let q : Request := { targets := ["//p:a"], files := ["p/a.h"], mode := .files }
    ∃ w w', Workspace.ofSnapshot twoPackages = .ok w ∧
      Workspace.ofSnapshot twoPackagesDiscovered = .ok w' ∧
      Artifact.file (.ofString "q/headers") ∈ w.artifacts ∧
      Artifact.standIn (.ofString "q/headers") ∈ w'.artifacts ∧
      (∃ rep, (Request.resolve w.tool q).1 = .ok rep ∧
        rep.entries.map (·.mnemonic) = ["Compile"]) ∧
      Request.resolve w'.tool q = Request.resolve w.tool q := by
  intro q
  obtain ⟨w, hw, hfile, hroots, hbuild, hcompile, hprinted⟩ :
      ∃ w, Workspace.ofSnapshot twoPackages = .ok w ∧
        Artifact.file (.ofString "q/headers") ∈ w.artifacts ∧
        (∀ t ∈ w.realised q, ∀ x ∈ t.filesToBuild ++ t.filesToCompile, x.path ∉ discovered) ∧
        (w.build q.buildRequest).1 = .succeeded (w.realised q) ∧
        (∀ t ∈ w.realised q, t.filesToCompile ≠ []) ∧
        ((q.gather w.graph (w.realised q)).1.map Action.entry).map (·.mnemonic) = ["Compile"] :=
    ⟨_, by cbv, by decide +kernel⟩
  obtain ⟨w', hw', hstandIn⟩ : ∃ w', Workspace.ofSnapshot twoPackagesDiscovered = .ok w' ∧
      Artifact.standIn (.ofString "q/headers") ∈ w'.artifacts :=
    ⟨_, by cbv, by decide +kernel⟩
  have hinsertion : Snapshot.Insertion discovery twoPackages twoPackagesDiscovered :=
    ⟨rfl, rfl, rfl, rfl, twoPackages.actions.take 1, twoPackages.actions.drop 1,
      (List.take_append_drop 1 _).symm, rfl⟩
  have hclosed : ∀ x ∈ twoPackages.actions, (∃ p ∈ x.outputPaths, p ∉ discovered) →
      ∀ q ∈ x.inputPaths, q ∉ discovered := by
    decide +kernel
  have hwritten : ∀ p ∈ discovery.outputPaths, p ∈ discovered := by
    decide +kernel
  have hfree : ∀ p ∈ discovery.outputPaths, p ∉ twoPackages.reach (w.realised q) :=
    fun p hp hreach => Snapshot.reach_subset hroots hclosed hreach (hwritten p hp)
  have haccept : q.accept (w.tool.build q.buildRequest).1 = .ok (w.realised q) := by
    rw [tool, hbuild]
    exact Request.accept_succeeded hcompile
  have hfound : (q.gather w.graph (w.realised q)).1 ≠ [] := by
    intro hnone
    rw [hnone] at hprinted
    cases hprinted
  have hreport : ∃ rep, (Request.resolve w.tool q).1 = .ok rep ∧
      rep.entries.map (·.mnemonic) = ["Compile"] :=
    ⟨_, Request.resolve_eq_ok_iff.2 ⟨_, haccept, hfound, rfl⟩, hprinted⟩
  have hsame := resolve_eq_of_insertion hw hw' hinsertion q hfree
  exact ⟨w, w', hw, hw', hfile, hstandIn, hreport, hsame⟩

end Workspace

end Provenance
