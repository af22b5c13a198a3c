import Provenance.Proofs.Workspace.Reflagging

/-!
The placeholders of a workspace. All placeholders of a snapshot are known before the first record is
lowered, and no registration adds one. So an artifact of a workspace is flagged as a placeholder
exactly if the snapshot declares its path to be one, wherever it is used and however it is spelled,
and an artifact is told by its path alone.
-/

namespace Provenance

open Checks

variable {g : Graph} {s : Snapshot} {w : Workspace} {p : Path} {x : Artifact}

namespace Snapshot

/-- A path that a snapshot declares to be a placeholder, by listing it or by writing it with an
action of an indirection class. -/
def DeclaresPlaceholder (s : Snapshot) (p : Path) : Prop :=
  (∃ text ∈ s.indirections, Path.ofString text = p) ∨
    ∃ r ∈ s.actions, r.indirection.isSome = true ∧
      ∃ text ∈ r.outputs.toList, Path.ofString text = p

theorem mem_placeholders_iff : p ∈ s.placeholders ↔ s.DeclaresPlaceholder p := by
  simp only [placeholders, DeclaresPlaceholder, List.map_append, List.mem_append, List.mem_map,
    List.mem_flatMap, List.mem_filter]
  refine or_congr_right ⟨?_, ?_⟩
  · rintro ⟨text, ⟨r, ⟨hr, hclass⟩, htext⟩, hp⟩
    exact ⟨r, hr, hclass, text, htext, hp⟩
  · rintro ⟨r, hr, hclass, text, htext, hp⟩
    exact ⟨text, ⟨r, ⟨hr, hclass⟩, htext⟩, hp⟩

end Snapshot

namespace Graph

theorem placeholder_artifact_declared :
    ((declared s).artifact p).placeholder = true ↔ s.DeclaresPlaceholder p := by
  rw [Registry.placeholder_artifact_iff, declared, mem_placeholders_foldl_mark,
    Snapshot.mem_placeholders_iff]
  exact or_iff_left List.not_mem_nil

/-- The graph of a snapshot knows the placeholders that the snapshot declares, and no others. -/
theorem Describes.placeholder_artifact (h : g.Describes s) :
    (g.artifact p).placeholder = true ↔ s.DeclaresPlaceholder p := by
  rw [h.artifact]
  exact placeholder_artifact_declared

theorem Describes.reflag_of_mem_artifacts (h : g.Describes s) {a : Action} (ha : a ∈ g.actions)
    (hx : x ∈ a.artifacts) : g.reflag x = x := by
  obtain ⟨r, -, hr⟩ := exists_of_mem_mapM h.mapM_ofRecord ha
  exact Action.reflag_of_mem_artifacts hr hx

end Graph

namespace Workspace

/-- The artifacts of a workspace: those of its actions, and those of its targets. -/
def artifacts (w : Workspace) : List Artifact :=
  w.graph.actions.flatMap Action.artifacts ++ w.targets.flatMap Target.artifacts

/-- Every artifact of a workspace is flagged as its graph has it. -/
theorem reflag_of_mem_artifacts (hw : Workspace.ofSnapshot s = .ok w) (hx : x ∈ w.artifacts) :
    w.graph.reflag x = x := by
  obtain ⟨hgraph, htargets, -, -⟩ := ofSnapshot_eq_ok_iff.1 hw
  rcases List.mem_append.1 hx with hx | hx
  · obtain ⟨a, ha, hxa⟩ := List.mem_flatMap.1 hx
    exact (Graph.Describes.of_ofSnapshot hgraph).reflag_of_mem_artifacts ha hxa
  · obtain ⟨t, ht, hxt⟩ := List.mem_flatMap.1 hx
    obtain ⟨htargets, -⟩ := Target.ofRecords_eq_ok_iff.1 htargets
    obtain ⟨r, -, hr⟩ := exists_of_mem_mapM htargets ht
    exact Target.reflag_of_mem_artifacts hr hxt

/-- An artifact of a workspace is flagged as a placeholder exactly if the snapshot declares its path
to be one, so artifacts at one path are equal. -/
theorem placeholder_iff_of_mem_artifacts (hw : Workspace.ofSnapshot s = .ok w) :
    (∀ x ∈ w.artifacts, x.placeholder = true ↔ s.DeclaresPlaceholder x.path) ∧
      ∀ x ∈ w.artifacts, ∀ y ∈ w.artifacts, x.path = y.path → x = y := by
  constructor
  · intro x hx
    obtain ⟨hgraph, -⟩ := ofSnapshot_eq_ok_iff.1 hw
    have hdescribes := Graph.Describes.of_ofSnapshot hgraph
    rw [← hdescribes.placeholder_artifact, ← Graph.reflag, reflag_of_mem_artifacts hw hx]
  · intro x hx y hy hpath
    calc x = w.graph.reflag x := (reflag_of_mem_artifacts hw hx).symm
      _ = w.graph.reflag y := congrArg w.graph.artifact hpath
      _ = y := reflag_of_mem_artifacts hw hy

/-- A snapshot that uses a placeholder in three spellings before the action that writes it. -/
def usedBeforeWritten : Snapshot where
  version := ⟨1, 0, 0, [], []⟩
  indirections := ["p/order/"]
  actions := [
    { mnemonic := "Compile", inputs := .many ["p/a.c", "./p/headers", "p/order"]
      outputs := .one "p/a.o" },
    { mnemonic := "Discover", inputs := .one "p/a.h", outputs := .one "p/headers"
      indirection := some .scheduling }]
  targets := [
    { label := "//p:a", filesToBuild := .many ["p//headers", "p/a.o"]
      outputGroups := [(Target.compiledGroup, .one "p/a.o"), ("hidden", .one "p/./headers")] }]

theorem placeholder_iff_usedBeforeWritten :
    ∃ w, Workspace.ofSnapshot usedBeforeWritten = .ok w ∧
      Artifact.standIn (.ofString "p/headers") ∈ w.artifacts ∧
      Artifact.file (.ofString "p/headers") ∉ w.artifacts ∧
      (∀ x ∈ w.artifacts, x.placeholder = true ↔ usedBeforeWritten.DeclaresPlaceholder x.path) ∧
      ∀ x ∈ w.artifacts, ∀ y ∈ w.artifacts, x.path = y.path → x = y := by
  obtain ⟨w, hw, hmem⟩ : ∃ w, Workspace.ofSnapshot usedBeforeWritten = .ok w ∧
      Artifact.standIn (.ofString "p/headers") ∈ w.artifacts :=
    ⟨_, by cbv, by decide +kernel⟩
  obtain ⟨hflag, hpath⟩ := placeholder_iff_of_mem_artifacts hw
  refine ⟨w, hw, hmem, fun hfile => ?_, hflag, hpath⟩
  cases hpath _ hfile _ hmem rfl

end Workspace

end Provenance
