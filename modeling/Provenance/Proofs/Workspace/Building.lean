import Provenance.Proofs.Workspace.KeepGoing
import Provenance.Proofs.Workspace.Requested

/-!
What a build makes of its names. A name is good if it stands for a target that did not fail. A build
that keeps going realises the targets of its good names, each label once and in the place of its first
name, and has failed if a name is not good. Any other build does the same if all names are good, and
realises nothing otherwise.
-/

namespace Provenance.Workspace

variable {w : Workspace} {r : BuildRequest} {files : Bool} {name : String} {names : List String}
  {t : Target}

/-- A build that keeps going always has targets, if only none. -/
theorem exists_targets_buildFrom (hgo : r.keepGoing = true) : ∀ {names : List String}
    {realised : List Target} {success : Bool},
    ∃ ts, (w.buildFrom r realised success names).1.targets = some ts
  | [], realised, _ => ⟨realised, rfl⟩
  | name :: names, _, _ => by
    rw [buildFrom]
    cases w.realise r.compileOneDependency name with
    | ok t => exact exists_targets_buildFrom hgo
    | error warning =>
      simp only [hgo, if_true]
      exact exists_targets_buildFrom hgo

theorem targets_build_keepGoing (w : Workspace) (names : List String) (files : Bool) :
    (w.build ⟨names, files, true⟩).1.targets =
      some (firstOfEachLabel (w.realisedBy files names)) := by
  obtain ⟨ts, hts⟩ : ∃ ts, (w.build ⟨names, files, true⟩).1.targets = some ts :=
    exists_targets_buildFrom rfl
  rw [hts, targets_of_build hts]

/-- A name is good if it stands for a target that did not fail. -/
def Good (w : Workspace) (files : Bool) (name : String) : Prop :=
  ∃ t, w.Denotes files name t ∧ t.label ∉ w.failed

theorem good_iff : w.Good files name ↔ ∃ t, w.realise files name = .ok t :=
  exists_congr fun _ => realise_eq_ok_iff.symm

theorem not_good_of_error {warning : Warning} (h : w.realise files name = .error warning) :
    ¬w.Good files name := by
  rw [good_iff, h]
  rintro ⟨t, ⟨⟩⟩

instance : DecidablePred (w.Good files) := fun name =>
  match h : w.realise files name with
  | .ok t => isTrue (good_iff.2 ⟨t, h⟩)
  | .error _ => isFalse (not_good_of_error h)

theorem forall_good_iff : (∀ name ∈ names, w.Good files name) ↔ w.Realises files names :=
  forall₂_congr fun _ _ => good_iff

/-- The good names stand, one by one, for the targets that the names have realised. -/
theorem forall₂_denotes_realisedBy : ∀ names : List String,
    List.Forall₂ (w.Denotes files) (names.filter (w.Good files)) (w.realisedBy files names)
  | [] => .nil
  | name :: names => by
    cases hname : w.realise files name with
    | ok t =>
      have hgood : w.Good files name := good_iff.2 ⟨t, hname⟩
      rw [List.filter_cons_of_pos (by simpa using hgood), realisedBy_cons_of_ok hname]
      exact .cons (realise_eq_ok_iff.1 hname).1 (forall₂_denotes_realisedBy names)
    | error warning =>
      have hbad : ¬w.Good files name := not_good_of_error hname
      rw [List.filter_cons_of_neg (by simpa using hbad), realisedBy_cons_of_error hname]
      exact forall₂_denotes_realisedBy names

/-- The names that are not good have realised nothing. -/
theorem realisedBy_filter_good (names : List String) :
    w.realisedBy files (names.filter (w.Good files)) = w.realisedBy files names := by
  rw [realisedBy, List.filterMap_filter]
  refine List.filterMap_congr fun name _ => ?_
  cases hname : w.realise files name with
  | ok t => rw [if_pos (by simpa using good_iff.2 ⟨t, hname⟩)]
  | error warning =>
    rw [if_neg (by simpa using not_good_of_error hname)]
    rfl

theorem build_of_good (h : ∀ name ∈ names, w.Good files name) :
    w.build ⟨names, files, false⟩ = w.build ⟨names, files, true⟩ :=
  buildFrom_of_realises (r := ⟨names, files, true⟩) false (forall_good_iff.1 h)

/-- A build that keeps going realises what its good names stand for, each label once and in order of first
request, and succeeds if the recorded build did and all its names are good. A build that is not to keep
going does the same where all names are good, and has nothing to show otherwise. So the names that are
not good only cost the success, and no target that failed is ever realised. -/
theorem build_goodNames (w : Workspace) (names : List String) (files : Bool) :
    let going := (w.build ⟨names, files, true⟩).1
    let stopping := (w.build ⟨names, files, false⟩).1
    let good := names.filter (w.Good files)
    (∃ ts, List.Forall₂ (w.Denotes files) good ts ∧
        going.targets = some (firstOfEachLabel ts)) ∧
      (going.success = true ↔ w.success = true ∧ ∀ name ∈ names, w.Good files name) ∧
      stopping = (if ∀ name ∈ names, w.Good files name then going else ⟨none, false⟩) ∧
      going.targets = (w.build ⟨good, files, false⟩).1.targets ∧
      ∀ keepGoing ts, (w.build ⟨names, files, keepGoing⟩).1.targets = some ts →
        ∀ t ∈ ts, t ∈ w.targets ∧ t.label ∉ w.failed := by
  intro going stopping good
  have hgoing := w.targets_build_keepGoing names files
  refine ⟨⟨_, forall₂_denotes_realisedBy names, hgoing⟩, ?_, ?_, ?_, fun keepGoing ts hts => ?_⟩
  · rw [forall_good_iff]
    exact success_buildFrom_iff rfl
  · split
    · rename_i hnames
      exact congrArg Prod.fst (build_of_good hnames)
    · rename_i hnames
      exact buildFrom_of_not_realises rfl (mt forall_good_iff.2 hnames)
  · have hgood : ∀ name ∈ good, w.Good files name := fun name hname => by
      simpa using (List.mem_filter.1 hname).2
    rw [build_of_good hgood, targets_build_keepGoing w good, realisedBy_filter_good]
    exact hgoing
  · intro t ht
    obtain ⟨name, -, hname⟩ := exists_realise_of_mem_build hts ht
    exact ⟨mem_targets_of_build hts t ht, (realise_eq_ok_iff.1 hname).2⟩

/-- A finished build in which two targets share a source, and another one failed. -/
def partlyFailed : Workspace where
  graph := .empty
  targets := [
    { label := ⟨"app", "core", by decide, by decide, by decide⟩
      attributes := [(Target.sources, [⟨"app", "a.cc", by decide, by decide, by decide⟩])] },
    { label := ⟨"app", "test", by decide, by decide, by decide⟩
      attributes := [(Target.sources, [⟨"app", "a.cc", by decide, by decide, by decide⟩,
        ⟨"app", "b.cc", by decide, by decide, by decide⟩])] },
    { label := ⟨"app", "flaky", by decide, by decide, by decide⟩ }]
  failed := [⟨"app", "flaky", by decide, by decide, by decide⟩]
  success := true

theorem build_goodNames_sharedSource :
    let names := ["app/b.cc", "//app:flaky", "app/a.cc", "app/c.cc", "//app//:core"]
    let good := ["app/b.cc", "app/a.cc", "//app//:core"]
    let going := (partlyFailed.build ⟨names, true, true⟩).1
    good = names.filter (partlyFailed.Good true) ∧
      (going.targets.map fun ts => ts.map (·.label.toString)) = some ["//app:test", "//app:core"] ∧
      going.targets = (partlyFailed.build ⟨good, true, false⟩).1.targets ∧
      ∀ ts, going.targets = some ts → ∀ t ∈ ts, t.label ∉ partlyFailed.failed := by
  intro names good going
  have hgood : good = names.filter (partlyFailed.Good true) := by decide +kernel
  obtain ⟨-, -, -, htargets, hbuilt⟩ := build_goodNames partlyFailed names true
  refine ⟨hgood, by decide +kernel, ?_, fun ts hts t ht => (hbuilt true ts hts t ht).2⟩
  rw [hgood]
  exact htargets

end Provenance.Workspace
