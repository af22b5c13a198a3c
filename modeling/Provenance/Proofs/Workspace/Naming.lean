import Provenance.Proofs.Label
import Provenance.Proofs.Workspace.Acceptance

/-!
What requested names stand for. A name that is the label of a recorded target stands for that target,
whatever files there are, and only another name can stand for the first target that lists it as a file.
Since labels are read back from their display form, the display form of a recorded target's label
always stands for that target.
-/

namespace Provenance

variable {α : Type} {s : Snapshot} {w : Workspace} {files : Bool} {name file : String} {l : Label}
  {t : Target}

/-- The first entry of a list with a property. -/
def IsFirst (P : α → Prop) (xs : List α) (x : α) : Prop :=
  ∃ before after, xs = before ++ x :: after ∧ P x ∧ ∀ y ∈ before, ¬P y

theorem find?_eq_some_iff_isFirst {P : α → Prop} [DecidablePred P] {xs : List α} {x : α} :
    xs.find? (P ·) = some x ↔ IsFirst P xs x := by
  rw [List.find?_eq_some_iff_append]
  simp only [decide_eq_true_eq, Bool.not_eq_true', decide_eq_false_iff_not]
  constructor
  · rintro ⟨hx, before, after, hxs, hbefore⟩
    exact ⟨before, after, hxs, hx, hbefore⟩
  · rintro ⟨before, after, hxs, hx, hbefore⟩
    exact ⟨hx, before, after, hxs, hbefore⟩

namespace Target

/-- A target lists a file if a label among its sources or its headers means the file. -/
def Lists (t : Target) (file : String) : Prop :=
  ∃ field ∈ [sources, headers], ∃ labels,
    t.attribute? field = some labels ∧ ∃ l ∈ labels, l.pathText = file

theorem lists_iff_ownsFile : t.Lists file ↔ t.ownsFile file = true := by
  simp only [Lists, ← mem_listedFiles_iff, List.exists_mem_cons_iff, List.not_mem_nil, false_and,
    exists_false, or_false, ownsFile, List.contains_iff_mem, List.mem_append]

instance : DecidablePred t.Lists := fun _ => decidable_of_iff _ lists_iff_ownsFile.symm

end Target

namespace Workspace

/-- What a name stands for: a label for the target recorded under it, and any other name, where names
may stand for files, for the first target that lists the file. -/
inductive Denotes (w : Workspace) (files : Bool) (name : String) (t : Target) : Prop
  | label {l : Label} (hname : Label.parse name = .ok l) (ht : IsFirst (·.label = l) w.targets t)
  | file (hfiles : files = true)
      (hname : ∀ l, Label.parse name = .ok l → ∀ u ∈ w.targets, u.label ≠ l)
      (ht : IsFirst (·.Lists name) w.targets t)

theorem Denotes.mem_targets (h : w.Denotes files name t) : t ∈ w.targets := by
  rcases h with ⟨-, before, after, htargets, -⟩ | ⟨-, -, before, after, htargets, -⟩
  · simp [htargets]
  · simp [htargets]

theorem target?_eq_some_iff : w.target? l = some t ↔ IsFirst (·.label = l) w.targets t :=
  find?_eq_some_iff_isFirst

theorem target?_eq_none_iff : w.target? l = none ↔ ∀ u ∈ w.targets, u.label ≠ l := by
  simp only [target?, List.find?_eq_none, decide_eq_true_eq]

theorem resolve?_eq_some_iff : w.resolve? files name = some t ↔ w.Denotes files name t := by
  have howner : (if files then w.targets.find? (·.ownsFile name) else none) = some t ↔
      files = true ∧ IsFirst (·.Lists name) w.targets t := by
    cases files with
    | false => simp
    | true => simp [← find?_eq_some_iff_isFirst, Target.lists_iff_ownsFile]
  rw [resolve?, Option.or_eq_some_iff, howner]
  constructor
  · rintro (hlabelled | ⟨hnone, hfiles, ht⟩)
    · cases hparse : Label.parse name with
      | error e =>
        rw [hparse] at hlabelled
        cases hlabelled
      | ok l =>
        rw [hparse] at hlabelled
        exact .label hparse (target?_eq_some_iff.1 hlabelled)
    · refine .file hfiles (fun l hl => ?_) ht
      rw [hl] at hnone
      exact target?_eq_none_iff.1 hnone
  · rintro (⟨hname, ht⟩ | ⟨hfiles, hname, ht⟩)
    · left
      rw [hname]
      exact target?_eq_some_iff.2 ht
    · refine .inr ⟨?_, hfiles, ht⟩
      cases hparse : Label.parse name with
      | error e => rfl
      | ok l => exact target?_eq_none_iff.2 (hname l hparse)

/-- Where no two targets share a label, each of them is the one of its label. -/
theorem target?_label_of_mem (hlabels : (w.targets.map Target.label).Nodup) (ht : t ∈ w.targets) :
    w.target? t.label = some t := by
  obtain ⟨before, after, htargets⟩ := List.append_of_mem ht
  refine target?_eq_some_iff.2 ⟨before, after, htargets, rfl, fun u hu hlabel => ?_⟩
  rw [htargets, List.map_append, List.map_cons, List.nodup_append'] at hlabels
  refine hlabels.2.2 (List.mem_map_of_mem hu) ?_
  rw [hlabel]
  exact List.mem_cons_self ..

theorem nodup_labels_of_ofSnapshot (h : Workspace.ofSnapshot s = .ok w) :
    (w.targets.map Target.label).Nodup := by
  obtain ⟨-, htargets, -, -⟩ := ofSnapshot_eq_ok_iff.1 h
  obtain ⟨-, hlabels, -⟩ := Target.ofRecords_eq_ok_iff.1 htargets
  exact hlabels

/-- Labels are read back from their display form, whatever their package and name hold, so no two are
displayed alike; and the display form of a recorded target's label stands for that target, even where
names may stand for files. -/
theorem labels_read_back :
    (∀ l : Label, Label.parse l.toString = .ok l) ∧
      (∀ package name : String,
        (∃ text l, Label.parse text = .ok l ∧ l.package = package ∧ l.name = name) ↔
          ':' ∉ package.toList ∧ package.toList.getLast? ≠ some '/' ∧ name ≠ "") ∧
      Function.Injective Label.toString ∧
      ∀ s w, Workspace.ofSnapshot s = .ok w → ∀ t ∈ w.targets, ∀ files,
        w.resolve? files t.label.toString = some t := by
  refine ⟨Label.parse_toString, fun _ _ => Label.exists_parse_iff, Label.toString_injective, ?_⟩
  intro s w hw t ht files
  have htarget := target?_label_of_mem (nodup_labels_of_ofSnapshot hw) ht
  exact resolve?_eq_some_iff.2
    (.label (Label.parse_toString t.label) (target?_eq_some_iff.1 htarget))

/-- Two targets, of which the first lists a file that is spelled as the other's label is displayed. -/
def shadowedFile : Snapshot where
  version := ⟨1, 0, 0, [], []⟩
  targets := [
    { label := "//tools", attributes := [(Target.sources, .one "////p/q:a:b")] },
    { label := "//p/q/a//:b" }]

/-- The target that lists the file. -/
def lister : Target where
  label := ⟨"tools", "tools", by decide, by decide, by decide⟩
  attributes := [(Target.sources, [⟨"//p/q", "a:b", by decide, by decide, by decide⟩])]

/-- The target whose label is displayed as the file is spelled. -/
def listed : Target where
  label := ⟨"p/q/a", "b", by decide, by decide, by decide⟩

theorem labels_read_back_shadowedFile :
    let w : Workspace := ⟨.empty, [lister, listed], [], true⟩
    Workspace.ofSnapshot shadowedFile = .ok w ∧ lister.Lists listed.label.toString ∧
      w.resolve? true listed.label.toString = some listed := by
  intro w
  have hw : Workspace.ofSnapshot shadowedFile = .ok w := by decide +kernel
  refine ⟨hw, by decide +kernel, ?_⟩
  exact labels_read_back.2.2.2 shadowedFile w hw listed (by decide +kernel) true

end Workspace

end Provenance
