import Provenance.Proofs.Workspace.Acceptance

/-!
Respelled snapshots. Paths are put into normal form wherever a snapshot is read, and a field of texts
is read as a list in whichever form it was written. So two snapshots that differ in the spelling of
their paths and in the form of their fields have the same workspace, or the same fault.
-/

namespace Provenance

open Checks

variable {g g' : Graph} {s s' : Snapshot}

/-- Fields that spell the same paths, be it as a single text or as a list. -/
def TextOrList.Respelling (t t' : TextOrList) : Prop :=
  List.Forall₂ (Path.ofString · = Path.ofString ·) t.toList t'.toList

instance (t t' : TextOrList) : Decidable (t.Respelling t') :=
  inferInstanceAs (Decidable (List.Forall₂ _ t.toList t'.toList))

/-- The same action with its paths spelled otherwise. -/
@[mk_iff]
structure ActionRecord.Respelling (r r' : ActionRecord) : Prop where
  mnemonic : r'.mnemonic = r.mnemonic
  owner : r'.owner = r.owner
  inputs : r.inputs.Respelling r'.inputs
  outputs : r.outputs.Respelling r'.outputs
  arguments : r'.arguments = r.arguments
  indirection : r'.indirection = r.indirection

instance (r r' : ActionRecord) : Decidable (r.Respelling r') :=
  decidable_of_iff' _ (ActionRecord.respelling_iff r r')

/-- The same target with its paths spelled otherwise. Labels are not paths, but they may be written
in another form of field. -/
@[mk_iff]
structure TargetRecord.Respelling (r r' : TargetRecord) : Prop where
  label : r'.label = r.label
  kind : r'.kind = r.kind
  filesToBuild : r.filesToBuild.Respelling r'.filesToBuild
  outputGroups : List.Forall₂ (fun x x' => x.1 = x'.1 ∧ x.2.Respelling x'.2)
    r.outputGroups r'.outputGroups
  attributes : List.Forall₂ (fun x x' => x.1 = x'.1 ∧ x.2.toList = x'.2.toList)
    r.attributes r'.attributes

instance (r r' : TargetRecord) : Decidable (r.Respelling r') :=
  decidable_of_iff' _ (TargetRecord.respelling_iff r r')

/-- The same snapshot with its paths spelled otherwise. -/
@[mk_iff]
structure Snapshot.Respelling (s s' : Snapshot) : Prop where
  version : s'.version = s.version
  build : s'.build = s.build
  indirections : List.Forall₂ (Path.ofString · = Path.ofString ·) s.indirections s'.indirections
  actions : List.Forall₂ ActionRecord.Respelling s.actions s'.actions
  targets : List.Forall₂ TargetRecord.Respelling s.targets s'.targets

instance (s s' : Snapshot) : Decidable (s.Respelling s') :=
  decidable_of_iff' _ (Snapshot.respelling_iff s s')

theorem TextOrList.Respelling.paths {t t' : TextOrList} (h : t.Respelling t') :
    t.paths = t'.paths :=
  map_eq_map_of_forall₂ h

theorem Graph.artifacts_of_respelling {t t' : TextOrList} (h : t.Respelling t') :
    g.artifacts t = g.artifacts t' := by
  have hpaths (t : TextOrList) : g.artifacts t = t.paths.map g.artifact := by
    rw [Graph.artifacts, TextOrList.paths, List.map_map]
    rfl
  rw [hpaths, hpaths, h.paths]

theorem Action.ofRecord_of_respelling {r r' : ActionRecord} (h : r.Respelling r') :
    Action.ofRecord g r = Action.ofRecord g r' := by
  simp only [Action.ofRecord, h.mnemonic, h.owner, h.arguments, h.indirection,
    Graph.artifacts_of_respelling h.inputs, Graph.artifacts_of_respelling h.outputs]

/-- A respelled snapshot declares the same placeholders, in the same order. -/
theorem Snapshot.Respelling.placeholders (h : s.Respelling s') :
    s.placeholders = s'.placeholders := by
  refine map_eq_map_of_forall₂ (List.rel_append h.indirections ?_)
  refine List.rel_flatMap (List.rel_filter ?_ h.actions) fun _ _ hr => hr.outputs
  intro r r' hr
  simp only [hr.indirection]

namespace Graph

theorem addRecords_of_respelling {rs rs' : List ActionRecord}
    (h : List.Forall₂ ActionRecord.Respelling rs rs') (g : Graph) :
    g.addRecords rs = g.addRecords rs' := by
  induction h generalizing g with
  | nil => rfl
  | cons hr _ ih =>
    rw [addRecords, addRecords, Action.ofRecord_of_respelling hr]
    simp only [ih]

theorem ofSnapshot_of_respelling (h : s.Respelling s') : ofSnapshot s = ofSnapshot s' := by
  rw [ofSnapshot, ofSnapshot, h.placeholders, addRecords_of_respelling h.actions]

end Graph

namespace Target

theorem attributes_of_respelling {r r' : TargetRecord} (h : r.Respelling r') :
    (r.attributes.mapM fun (name, labels) => do
        return (name, ← labels.toList.mapM Label.ofRecord)) =
      (r'.attributes.mapM fun (name, labels) => do
        return (name, ← labels.toList.mapM Label.ofRecord) : Except GraphError _) := by
  refine mapM_eq_mapM_of_forall₂ (h.attributes.imp ?_)
  rintro ⟨name, labels⟩ ⟨name', labels'⟩ ⟨rfl, hlabels⟩
  simp only [hlabels]

theorem outputGroups_of_respelling {r r' : TargetRecord} (h : r.Respelling r') :
    (r.outputGroups.map fun (name, files) => (name, g.artifacts files)) =
      r'.outputGroups.map fun (name, files) => (name, g.artifacts files) := by
  refine map_eq_map_of_forall₂ (h.outputGroups.imp ?_)
  rintro ⟨name, files⟩ ⟨name', files'⟩ ⟨rfl, hfiles⟩
  simp only [Graph.artifacts_of_respelling hfiles]

theorem ofRecord_of_respelling {r r' : TargetRecord} (h : r.Respelling r') :
    Target.ofRecord g r = Target.ofRecord g r' := by
  simp only [Target.ofRecord, h.label, h.kind, attributes_of_respelling h,
    outputGroups_of_respelling h, Graph.artifacts_of_respelling h.filesToBuild]

theorem ofRecords_of_respelling {rs rs' : List TargetRecord}
    (h : List.Forall₂ TargetRecord.Respelling rs rs') (seen : List Label) :
    Target.ofRecords g seen rs = Target.ofRecords g seen rs' := by
  induction h generalizing seen with
  | nil => rfl
  | cons hr _ ih =>
    rw [ofRecords, ofRecords, ofRecord_of_respelling hr]
    simp only [ih]

end Target

namespace Workspace

/-- A respelled snapshot has the same workspace, or the same fault. -/
theorem ofSnapshot_eq_of_respelling (h : s.Respelling s') :
    Workspace.ofSnapshot s = Workspace.ofSnapshot s' := by
  rw [ofSnapshot, ofSnapshot, Graph.ofSnapshot_of_respelling h, h.build]
  simp only [Target.ofRecords_of_respelling h.targets]

/-- A snapshot with every path in normal form, and every field as a list. -/
def plainlySpelled : Snapshot where
  version := ⟨1, 0, 0, [], []⟩
  indirections := ["p/order"]
  actions := [
    { mnemonic := "Discover", inputs := .many ["p/a.h", "p/order"], outputs := .many ["p/headers"]
      indirection := some .scheduling },
    { mnemonic := "Compile", inputs := .many ["p/headers"], outputs := .many ["p/a.o"] },
    { mnemonic := "Touch", inputs := .many [], outputs := .many ["/p/stamp"] }]
  targets := [
    { label := "//p:a", filesToBuild := .many ["p/a.o"]
      outputGroups := [(Target.compiledGroup, .many ["p/a.o"])]
      attributes := [(Target.headers, .many ["//p:a.h"])] }]

/-- The same snapshot with other spellings of its paths, and without lists for single texts. -/
def otherwiseSpelled : Snapshot where
  version := ⟨1, 0, 0, [], []⟩
  indirections := ["./p/order/"]
  actions := [
    { mnemonic := "Discover", inputs := .many ["p//a.h", "p/./order"], outputs := .one "p/headers/"
      indirection := some .scheduling },
    { mnemonic := "Compile", inputs := .one "./p/headers", outputs := .one "p//a.o" },
    { mnemonic := "Touch", inputs := .empty, outputs := .one "//p/stamp" }]
  targets := [
    { label := "//p:a", filesToBuild := .one "p/./a.o"
      outputGroups := [(Target.compiledGroup, .one "././p/a.o")]
      attributes := [(Target.headers, .one "//p:a.h")] }]

theorem ofSnapshot_otherwiseSpelled :
    plainlySpelled.Respelling otherwiseSpelled ∧
      ∃ w, Workspace.ofSnapshot plainlySpelled = .ok w ∧
        Workspace.ofSnapshot otherwiseSpelled = .ok w := by
  have hrespelling : plainlySpelled.Respelling otherwiseSpelled := by decide +kernel
  obtain ⟨w, hw⟩ := exists_eq_ok_of_isOk (x := Workspace.ofSnapshot plainlySpelled) (by cbv)
  refine ⟨hrespelling, w, hw, ?_⟩
  rw [← ofSnapshot_eq_of_respelling hrespelling]
  exact hw

end Workspace

end Provenance
