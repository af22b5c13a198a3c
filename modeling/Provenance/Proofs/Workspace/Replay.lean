import Provenance.Workspace

/-!
Replayed builds. A build realises recorded targets, and picks them by their labels and by the sources
and headers that they list. So where each target is replaced by one with the same label and the same
lists, a build picks the replacements, and warns as before.
-/

namespace Provenance

variable {f : Target → Target} {w w' : Workspace} {r : BuildRequest} {names : List String}
  {realised : List Target} {success : Bool} {t : Target}

/-- The result of a build with its targets replaced. -/
def BuildResult.map (f : Target → Target) (result : BuildResult) : BuildResult :=
  { result with targets := result.targets.map (List.map f) }

theorem BuildResult.map_id (result : BuildResult) : result.map id = result := by
  rw [map, List.map_id_fun, Option.map_id]
  rfl

namespace Workspace

/-- A workspace that records the same build with its targets replaced, where the replacements are
picked by the same names. Its graph can be any. -/
structure Recast (f : Target → Target) (w w' : Workspace) : Prop where
  targets : w'.targets = w.targets.map f
  failed : w'.failed = w.failed
  success : w'.success = w.success
  label : ∀ t, (f t).label = t.label
  ownsFile : ∀ t file, (f t).ownsFile file = t.ownsFile file

namespace Recast

theorem target?_eq (h : Recast f w w') (l : Label) : w'.target? l = (w.target? l).map f := by
  rw [target?, target?, h.targets, List.find?_map]
  simp only [Function.comp_def, h.label]

/-- A name picks the replacement of what it picked. -/
theorem resolve?_eq (h : Recast f w w') (files : Bool) (name : String) :
    w'.resolve? files name = (w.resolve? files name).map f := by
  have howner : w'.targets.find? (·.ownsFile name) =
      (w.targets.find? (·.ownsFile name)).map f := by
    rw [h.targets, List.find?_map]
    simp only [Function.comp_def, h.ownsFile]
  rw [resolve?, resolve?, Option.map_or, howner]
  congr 1
  · cases Label.parse name with
    | ok l => exact h.target?_eq l
    | error _ => rfl
  · cases files with
    | false => rfl
    | true => rfl

theorem realise_eq (h : Recast f w w') (files : Bool) (name : String) :
    w'.realise files name = (w.realise files name).map f := by
  rw [realise, realise, h.resolve?_eq, h.failed]
  cases w.resolve? files name with
  | none => rfl
  | some t =>
    simp only [Option.map_some, h.label]
    split
    · rfl
    · rfl

/-- Since targets are known by their labels, the replacements are realised in the same places. -/
theorem buildFrom_eq (h : Recast f w w') :
    w'.buildFrom r (realised.map f) success names =
      ((w.buildFrom r realised success names).1.map f, (w.buildFrom r realised success names).2) := by
  induction names generalizing realised success with
  | nil => rfl
  | cons name names ih =>
    rw [buildFrom, buildFrom, h.realise_eq]
    cases w.realise r.compileOneDependency name with
    | ok t =>
      have hlabels : (realised.map f).map Target.label = realised.map Target.label := by
        rw [List.map_map]
        exact List.map_congr_left fun t _ => h.label t
      have hadd : realised.map f ++ [f t] = (realised ++ [t]).map f := by
        rw [List.map_append, List.map_singleton]
      simp only [Except.map, hlabels, h.label, hadd, ← apply_ite (List.map f), ih]
    | error warning =>
      simp only [Except.map, ih]
      split
      · rfl
      · rfl

theorem build_eq (h : Recast f w w') (r : BuildRequest) :
    w'.build r = ((w.build r).1.map f, (w.build r).2) := by
  rw [build, build, h.success, ← h.buildFrom_eq, List.map_nil]

end Recast

end Workspace

end Provenance
