import Provenance.Proofs.Workspace.Acceptance

/-!
Flags of lowered records. Whether an artifact is flagged as a placeholder is looked up when its record
is lowered, and nothing else of an action or a target depends on the graph. So to lower a record by
another graph is to set its flags anew, and the flags of a lowered record are those of its graph.
-/

namespace Provenance

open Checks

variable {g g' : Graph} {r : ActionRecord} {a : Action}

theorem map_put {β γ : Type} (f : β → γ) (key : String) (value : β) (xs : List (String × β)) :
    (put key value xs).map (Prod.map id f) = put key (f value) (xs.map (Prod.map id f)) := by
  induction xs with
  | nil => rfl
  | cons x xs ih =>
    obtain ⟨k, v⟩ := x
    by_cases hk : k = key
    · simp [put, hk]
    · simp [put, hk, ih]

theorem lookup_map_values {β γ : Type} (f : β → γ) (key : String) (xs : List (String × β)) :
    (xs.map (Prod.map id f)).lookup key = (xs.lookup key).map f := by
  induction xs with
  | nil => rfl
  | cons x xs ih =>
    obtain ⟨k, v⟩ := x
    by_cases hk : key = k
    · simp [hk]
    · simp [List.lookup_cons, beq_eq_false_iff_ne.2 hk, ih]

/-- An artifact as a graph knows it, whatever its flag was. -/
def Graph.reflag (g : Graph) (x : Artifact) : Artifact := g.artifact x.path

theorem Graph.map_reflag_eq_self_iff {xs : List Artifact} :
    xs.map g.reflag = xs ↔ ∀ x ∈ xs, g.reflag x = x := by
  have hiff := List.map_inj_left (l := xs) (f := g.reflag) (g := id)
  rwa [List.map_id] at hiff

theorem Graph.map_reflag_artifacts (g g' : Graph) (t : TextOrList) :
    (g.artifacts t).map g'.reflag = g'.artifacts t := by
  rw [artifacts, List.map_map]
  rfl

theorem Graph.map_reflag_groups (g g' : Graph) (groups : List (String × TextOrList)) :
    (groups.map fun (name, files) => (name, g.artifacts files)).map
        (Prod.map id (List.map g'.reflag)) =
      groups.map fun (name, files) => (name, g'.artifacts files) := by
  simp [map_reflag_artifacts]

namespace Action

/-- The artifacts of an action. -/
def artifacts (a : Action) : List Artifact := a.inputs ++ a.outputs

/-- The action with its artifacts as a graph knows them. -/
def reflag (g : Graph) (a : Action) : Action :=
  { a with inputs := a.inputs.map g.reflag, outputs := a.outputs.map g.reflag }

theorem artifacts_reflag : (a.reflag g).artifacts = a.artifacts.map g.reflag :=
  (List.map_append ..).symm

theorem reflag_eq_self (h : ∀ x ∈ a.artifacts, g.reflag x = x) : a.reflag g = a := by
  obtain ⟨hinputs, houtputs⟩ := List.forall_mem_append.1 h
  rw [reflag, Graph.map_reflag_eq_self_iff.2 hinputs, Graph.map_reflag_eq_self_iff.2 houtputs]

/-- To lower an action by another graph is to set its flags anew. -/
theorem ofRecord_reflag (h : Action.ofRecord g r = .ok a) :
    Action.ofRecord g' r = .ok (a.reflag g') := by
  obtain ⟨owner, howner, rfl⟩ := ofRecord_eq_ok_iff.1 h
  refine ofRecord_eq_ok_iff.2 ⟨owner, howner, ?_⟩
  simp only [reflag, Graph.map_reflag_artifacts]

theorem reflag_of_mem_artifacts (h : Action.ofRecord g r = .ok a) {x : Artifact}
    (hx : x ∈ a.artifacts) : g.reflag x = x := by
  have hsame : a.reflag g = a := Except.ok.inj ((ofRecord_reflag h).symm.trans h)
  refine Graph.map_reflag_eq_self_iff.1 ?_ x hx
  rw [← artifacts_reflag, hsame]

end Action

namespace Target

variable {t : Target} {ts : List Target} {r : TargetRecord} {rs : List TargetRecord}

/-- The artifacts of a target. -/
def artifacts (t : Target) : List Artifact := t.filesToBuild ++ t.outputGroups.flatMap Prod.snd

/-- The target with its artifacts as a graph knows them. -/
def reflag (g : Graph) (t : Target) : Target :=
  { t with
    filesToBuild := t.filesToBuild.map g.reflag
    outputGroups := t.outputGroups.map (Prod.map id (List.map g.reflag)) }

theorem mem_artifacts_of_mem_outputGroup {name : String} {x : Artifact}
    (hx : x ∈ t.outputGroup name) : x ∈ t.artifacts := by
  rw [outputGroup] at hx
  cases hfiles : t.outputGroups.lookup name with
  | none =>
    rw [hfiles] at hx
    cases hx
  | some files =>
    rw [hfiles] at hx
    obtain ⟨before, after, hgroups, -⟩ := List.lookup_eq_some_iff.1 hfiles
    refine List.mem_append_right t.filesToBuild (List.mem_flatMap.2 ⟨(name, files), ?_, hx⟩)
    rw [hgroups]
    exact List.mem_append_right before (List.mem_cons_self ..)

/-- What a target builds and compiles is among its artifacts. -/
theorem mem_artifacts_of_needed {x : Artifact} (hx : x ∈ t.filesToBuild ++ t.filesToCompile) :
    x ∈ t.artifacts := by
  rcases List.mem_append.1 hx with hx | hx
  · exact List.mem_append_left _ hx
  · exact mem_artifacts_of_mem_outputGroup hx

theorem artifacts_reflag : (t.reflag g).artifacts = t.artifacts.map g.reflag := by
  simp only [artifacts, reflag, List.map_append, List.map_flatMap, List.flatMap_map]
  rfl

theorem outputGroup_reflag (name : String) :
    (t.reflag g).outputGroup name = (t.outputGroup name).map g.reflag := by
  rw [outputGroup, outputGroup, reflag]
  simp only [lookup_map_values]
  cases t.outputGroups.lookup name with
  | none => rfl
  | some files => rfl

theorem reflag_withOutputGroup (name : String) (files : List Artifact) :
    (t.withOutputGroup name files).reflag g =
      (t.reflag g).withOutputGroup name (files.map g.reflag) := by
  simp only [withOutputGroup, reflag, map_put]

theorem reflag_foldl_withOutputGroup (groups : List (String × List Artifact)) (t : Target) :
    (groups.foldl (fun t (name, files) => t.withOutputGroup name files) t).reflag g =
      (groups.map (Prod.map id (List.map g.reflag))).foldl
        (fun t (name, files) => t.withOutputGroup name files) (t.reflag g) := by
  induction groups generalizing t with
  | nil => rfl
  | cons group groups ih =>
    rw [List.foldl_cons, ih, reflag_withOutputGroup, List.map_cons, List.foldl_cons]
    rfl

theorem reflag_foldl_withAttribute (fields : List (String × List Label)) (t : Target) :
    (fields.foldl (fun t (name, labels) => t.withAttribute name labels) t).reflag g =
      fields.foldl (fun t (name, labels) => t.withAttribute name labels) (t.reflag g) := by
  induction fields generalizing t with
  | nil => rfl
  | cons field fields ih =>
    rw [List.foldl_cons, ih, List.foldl_cons]
    rfl

/-- To lower a target by another graph is to set its flags anew. -/
theorem ofRecord_reflag (h : Target.ofRecord g r = .ok t) :
    Target.ofRecord g' r = .ok (t.reflag g') := by
  obtain ⟨label, hlabel, h⟩ := bind_eq_ok.1 h
  obtain ⟨attributes, hattributes, h⟩ := bind_eq_ok.1 h
  refine bind_eq_ok.2 ⟨label, hlabel, bind_eq_ok.2 ⟨attributes, hattributes, pure_eq_ok.2 ?_⟩⟩
  rw [← pure_eq_ok.1 h, reflag_foldl_withAttribute, reflag_foldl_withOutputGroup,
    Graph.map_reflag_groups]
  simp only [reflag, Graph.map_reflag_artifacts, List.map_nil]

theorem reflag_of_mem_artifacts (h : Target.ofRecord g r = .ok t) {x : Artifact}
    (hx : x ∈ t.artifacts) : g.reflag x = x := by
  have hsame : t.reflag g = t := Except.ok.inj ((ofRecord_reflag h).symm.trans h)
  refine Graph.map_reflag_eq_self_iff.1 ?_ x hx
  rw [← artifacts_reflag, hsame]

theorem ofRecords_reflag {seen : List Label} (h : Target.ofRecords g seen rs = .ok ts) :
    Target.ofRecords g' seen rs = .ok (ts.map (reflag g')) := by
  obtain ⟨hts, hlabels⟩ := ofRecords_eq_ok_iff.1 h
  have hmap : (ts.map (reflag g')).map label = ts.map label := by
    rw [List.map_map]
    rfl
  refine ofRecords_eq_ok_iff.2 ⟨mapM_eq_ok_iff.2 ?_, hmap ▸ hlabels⟩
  refine List.forall₂_map_right_iff.2 ((mapM_eq_ok_iff.1 hts).imp fun _ _ => ofRecord_reflag)

end Target

end Provenance
