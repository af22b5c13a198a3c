import Provenance.Proofs.Workspace.Naming

/-!
Which targets a build realises. A build realises the targets that its names stand for, each once and in
the place of the first name that stands for it, whatever the names are. Where names are labels, these
are the recorded targets of the labels that did not fail.
-/

namespace Provenance.Workspace

variable {w : Workspace} {r : BuildRequest} {files : Bool} {name : String} {names : List String}
  {realised ts : List Target} {success : Bool} {l : Label} {t : Target}

theorem realise_eq_ok_iff :
    w.realise files name = .ok t ↔ w.Denotes files name t ∧ t.label ∉ w.failed := by
  rw [realise, ← resolve?_eq_some_iff]
  cases w.resolve? files name with
  | none => simp
  | some u =>
    by_cases hfailed : u.label ∈ w.failed
    · simp only [hfailed, if_true, reduceCtorEq, Option.some.injEq, false_iff, not_and, not_not]
      rintro rfl
      exact hfailed
    · simp only [hfailed, if_false, Except.ok.injEq, Option.some.injEq]
      constructor
      · rintro rfl
        exact ⟨rfl, hfailed⟩
      · exact And.left

/-- The targets that some names have realised, name by name. -/
def realisedBy (w : Workspace) (files : Bool) (names : List String) : List Target :=
  names.filterMap fun name => (w.realise files name).toOption

theorem realisedBy_cons_of_ok (h : w.realise files name = .ok t) :
    w.realisedBy files (name :: names) = t :: w.realisedBy files names := by
  simp [realisedBy, h, Except.toOption]

theorem realisedBy_cons_of_error {warning : Warning} (h : w.realise files name = .error warning) :
    w.realisedBy files (name :: names) = w.realisedBy files names := by
  simp [realisedBy, h, Except.toOption]

/-- The targets realised so far and one more, unless its label is among theirs. -/
def addTarget (realised : List Target) (t : Target) : List Target :=
  if (realised.map Target.label).contains t.label then realised else realised ++ [t]

/-- Some targets, each label once and in its first place. -/
def firstOfEachLabel (ts : List Target) : List Target := ts.eraseDupsBy fun t u => t.label == u.label

theorem firstOfEachLabel_cons (t : Target) (ts : List Target) : firstOfEachLabel (t :: ts) =
    t :: firstOfEachLabel (ts.filter fun u => !(u.label == t.label)) := by
  simp only [firstOfEachLabel, List.eraseDupsBy_cons, Bool.decide_eq_false]

theorem firstOfEachLabel_sublist : ∀ ts : List Target, (firstOfEachLabel ts).Sublist ts
  | [] => .refl _
  | t :: ts => by
    rw [firstOfEachLabel_cons]
    exact ((firstOfEachLabel_sublist _).trans List.filter_sublist).cons_cons t
termination_by ts => ts.length
decreasing_by simpa using Nat.lt_succ_of_le (List.length_filter_le ..)

theorem map_label_firstOfEachLabel : ∀ ts : List Target,
    (firstOfEachLabel ts).map Target.label = (ts.map Target.label).eraseDups
  | [] => rfl
  | t :: ts => by
    rw [firstOfEachLabel_cons, List.map_cons, List.map_cons, List.eraseDups_cons,
      map_label_firstOfEachLabel, List.filter_map]
    rfl
termination_by ts => ts.length
decreasing_by simpa using Nat.lt_succ_of_le (List.length_filter_le ..)

/-- To add targets one after the other is to append the first of each label that is new. -/
theorem foldl_addTarget : ∀ (ts realised : List Target), ts.foldl addTarget realised =
    realised ++ firstOfEachLabel (ts.filter fun t => t.label ∉ realised.map Target.label)
  | [], realised => by simp [firstOfEachLabel]
  | t :: ts, realised => by
    rw [List.foldl_cons, foldl_addTarget ts, addTarget]
    by_cases ht : t.label ∈ realised.map Target.label
    · rw [if_pos (List.contains_iff_mem.2 ht), List.filter_cons_of_neg (by simpa using ht)]
    · have hnew : (ts.filter fun u => u.label ∉ (realised ++ [t]).map Target.label) =
          (ts.filter fun u => u.label ∉ realised.map Target.label).filter
            fun u => !(u.label == t.label) := by
        rw [List.filter_filter]
        refine List.filter_congr fun u _ => ?_
        rw [Bool.eq_iff_iff, Bool.and_eq_true]
        simp only [decide_eq_true_eq, List.map_append, List.map_singleton, List.mem_append,
          List.mem_singleton, not_or, Bool.not_eq_true', beq_eq_false_iff_ne]
        exact and_comm
      rw [if_neg (mt List.contains_iff_mem.1 ht), List.filter_cons_of_pos (by simpa using ht),
        firstOfEachLabel_cons, hnew, List.append_assoc, List.singleton_append]

/-- A build that realises any targets adds those of its names one after the other. -/
theorem targets_of_buildFrom (h : (w.buildFrom r realised success names).1.targets = some ts) :
    ts = (w.realisedBy r.compileOneDependency names).foldl addTarget realised := by
  induction names generalizing realised success with
  | nil =>
    cases h
    rfl
  | cons name names ih =>
    rw [buildFrom] at h
    cases hname : w.realise r.compileOneDependency name with
    | ok t =>
      simp only [hname] at h
      rw [realisedBy_cons_of_ok hname, List.foldl_cons]
      exact ih h
    | error warning =>
      simp only [hname] at h
      rw [realisedBy_cons_of_error hname]
      split at h
      · exact ih h
      · cases h

/-- A build realises each of the targets that its names stand for once, in the place of its first name. -/
theorem targets_of_build (h : (w.build r).1.targets = some ts) :
    ts = firstOfEachLabel (w.realisedBy r.compileOneDependency r.names) := by
  rw [targets_of_buildFrom h, foldl_addTarget]
  simp

theorem exists_realise_of_mem_build (h : (w.build r).1.targets = some ts) (ht : t ∈ ts) :
    ∃ name ∈ r.names, w.realise r.compileOneDependency name = .ok t := by
  rw [targets_of_build h] at ht
  obtain ⟨name, hname, htarget⟩ := List.mem_filterMap.1 ((firstOfEachLabel_sublist _).subset ht)
  refine ⟨name, hname, ?_⟩
  cases hrealise : w.realise r.compileOneDependency name with
  | ok u =>
    rw [hrealise] at htarget
    exact congrArg Except.ok (Option.some.inj htarget)
  | error warning =>
    rw [hrealise] at htarget
    cases htarget

/-- A build realises recorded targets only. -/
theorem mem_targets_of_build (h : (w.build r).1.targets = some ts) : ∀ t ∈ ts, t ∈ w.targets := by
  intro t ht
  obtain ⟨name, -, hname⟩ := exists_realise_of_mem_build h ht
  exact (realise_eq_ok_iff.1 hname).1.mem_targets

/-! ### Names that are labels -/

/-- The label of the target that a name has realised, if it has one. -/
def realisedLabel? (w : Workspace) (files : Bool) (name : String) : Option Label :=
  (w.realise files name).toOption.map Target.label

/-- The labels of the realised targets are those that the names stand for, each in the place of its
first name. -/
theorem labels_of_build (h : (w.build r).1.targets = some ts) : ts.map Target.label =
    (r.names.filterMap (w.realisedLabel? r.compileOneDependency)).eraseDups := by
  rw [targets_of_build h, map_label_firstOfEachLabel, realisedBy, List.map_filterMap]
  rfl

/-- A label of a recorded target that did not fail. -/
def Builds (w : Workspace) (l : Label) : Prop := (w.target? l).isSome ∧ l ∉ w.failed

instance : DecidablePred w.Builds := fun _ => inferInstanceAs (Decidable (_ ∧ _))

/-- The targets that some names ask for as labels and that did not fail, each in the place of its first
request. -/
def requested (w : Workspace) (names : List String) : List Target :=
  ((names.filterMap fun name => (Label.parse name).toOption).filter w.Builds).eraseDups.filterMap
    w.target?

theorem label_of_target? (h : w.target? l = some t) : t.label = l := by
  rw [target?] at h
  simpa using List.find?_some h

theorem resolve?_label (w : Workspace) (name : String) :
    w.resolve? false name = (Label.parse name).toOption.bind w.target? := by
  rw [resolve?, if_neg Bool.false_ne_true, Option.or_none]
  cases Label.parse name with
  | error e => rfl
  | ok l => rfl

/-- A target realised for a label is the recorded one of its label. -/
theorem target?_of_realise_label (h : w.realise false name = .ok t) :
    w.target? t.label = some t := by
  rcases (realise_eq_ok_iff.1 h).1 with ⟨-, ht⟩ | ⟨hfiles, -, -⟩
  · rename_i l
    have hl := target?_eq_some_iff.2 ht
    rwa [label_of_target? hl]
  · cases hfiles

/-- Where names are labels, they stand for those that can be built. -/
theorem realisedLabel?_label (w : Workspace) (name : String) :
    w.realisedLabel? false name = (Label.parse name).toOption.filter w.Builds := by
  rw [realisedLabel?, realise, resolve?_label]
  cases Label.parse name with
  | error e => rfl
  | ok l =>
    cases htarget : w.target? l with
    | none => simp [Except.toOption, Option.filter, Builds, htarget]
    | some t =>
      have hlabel : t.label = l := label_of_target? htarget
      by_cases hfailed : l ∈ w.failed
      · simp [Except.toOption, Option.filter, Builds, htarget, hlabel, hfailed]
      · simp [Except.toOption, Option.filter, Builds, htarget, hlabel, hfailed]

/-- A build of labels realises the targets that they ask for, in order of first request. -/
theorem targets_of_build_labels (hlabels : r.compileOneDependency = false)
    (h : (w.build r).1.targets = some ts) : ts = w.requested r.names := by
  have hnames := labels_of_build h
  have hrecorded : ∀ t ∈ ts, w.target? t.label = some t := by
    intro t ht
    obtain ⟨name, -, hname⟩ := exists_realise_of_mem_build h ht
    rw [hlabels] at hname
    exact target?_of_realise_label hname
  rw [hlabels, funext (w.realisedLabel?_label), ← List.filter_filterMap] at hnames
  rw [requested, ← hnames, List.filterMap_map]
  calc ts = ts.filterMap some := (List.filterMap_some).symm
    _ = ts.filterMap (w.target? ∘ Target.label) :=
      List.filterMap_congr fun t ht => (hrecorded t ht).symm

end Provenance.Workspace
