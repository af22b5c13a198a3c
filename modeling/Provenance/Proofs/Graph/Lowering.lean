import Provenance.Proofs.Checks
import Provenance.Proofs.Graph.Cycle
import Provenance.Workspace

/-!
The graph of a snapshot. All placeholders are declared before the first action is registered, so a
record stands for the same action whatever was registered before it, and to register the actions one
by one amounts to one condition on all of them together.
-/

namespace Provenance

open Checks

/-- A text that reads as a label. -/
def IsLabel (text : String) : Prop := ∃ l, Label.parse text = .ok l

theorem Label.ofRecord_eq_ok_iff {text : String} {l : Label} :
    Label.ofRecord text = .ok l ↔ Label.parse text = .ok l :=
  mapError_eq_ok

theorem exists_ofRecord_iff_isLabel {text : String} :
    (∃ l, Label.ofRecord text = .ok l) ↔ IsLabel text :=
  exists_congr fun _ => Label.ofRecord_eq_ok_iff

/-- The paths of a field, in normal form. -/
def TextOrList.paths (t : TextOrList) : List Path := t.toList.map Path.ofString

/-- The paths that an action reads. -/
def ActionRecord.inputPaths (r : ActionRecord) : List Path := r.inputs.paths

/-- The paths that an action writes. -/
def ActionRecord.outputPaths (r : ActionRecord) : List Path := r.outputs.paths

/-- One path depends on another if an action of the snapshot writes the one and reads the other. -/
def Snapshot.DependsOn (s : Snapshot) (p q : Path) : Prop :=
  ∃ r ∈ s.actions, p ∈ r.outputPaths ∧ q ∈ r.inputPaths

variable {g g' : Graph} {r : ActionRecord} {rs : List ActionRecord} {a : Action}
  {as : List Action} {s : Snapshot}

theorem Graph.map_path_artifacts (g : Graph) (t : TextOrList) :
    (g.artifacts t).map Artifact.path = t.paths := by
  rw [Graph.artifacts, List.map_map]
  rfl

namespace Action

theorem ofRecord_eq_ok_iff :
    Action.ofRecord g r = .ok a ↔ ∃ owner, r.owner.mapM Label.ofRecord = .ok owner ∧
      { mnemonic := r.mnemonic, owner, inputs := g.artifacts r.inputs
        outputs := g.artifacts r.outputs, arguments := r.arguments
        indirection := .ofRecord r.indirection } = a := by
  rw [Action.ofRecord, bind_eq_ok]
  exact exists_congr fun owner => and_congr_right fun _ => pure_eq_ok

/-- A record is lowered by what a graph knows about placeholders alone. -/
theorem ofRecord_congr (h : g.artifact = g'.artifact) : Action.ofRecord g = Action.ofRecord g' := by
  funext r
  simp only [Action.ofRecord, Graph.artifacts, h]

theorem exists_ofRecord_iff :
    (∃ a, Action.ofRecord g r = .ok a) ↔ ∀ text ∈ r.owner, IsLabel text := by
  simp only [ofRecord_eq_ok_iff, ← exists_ofRecord_iff_isLabel, ← exists_option_mapM_eq_ok_iff]
  rw [exists_comm]
  simp only [exists_and_left, exists_eq', and_true]

theorem inputs_of_ofRecord (h : Action.ofRecord g r = .ok a) :
    a.inputs = g.artifacts r.inputs := by
  obtain ⟨_, _, rfl⟩ := ofRecord_eq_ok_iff.1 h
  rfl

theorem outputs_of_ofRecord (h : Action.ofRecord g r = .ok a) :
    a.outputs = g.artifacts r.outputs := by
  obtain ⟨_, _, rfl⟩ := ofRecord_eq_ok_iff.1 h
  rfl

theorem inputPaths_of_ofRecord (h : Action.ofRecord g r = .ok a) : a.inputPaths = r.inputPaths := by
  rw [inputPaths, inputs_of_ofRecord h, g.map_path_artifacts, ActionRecord.inputPaths]

theorem outputPaths_of_ofRecord (h : Action.ofRecord g r = .ok a) :
    a.outputPaths = r.outputPaths := by
  rw [outputPaths, outputs_of_ofRecord h, g.map_path_artifacts, ActionRecord.outputPaths]

end Action

namespace Graph

open Registry

/-- Actions that a graph can take one after the other. -/
structure AdmitsAll (g : Graph) (as : List Action) : Prop where
  outputs_ne : ∀ a ∈ as, a.outputs ≠ []
  outputPaths_nodup : (as.flatMap Action.outputPaths).Nodup
  fresh : ∀ p ∈ as.flatMap Action.outputPaths, p ∉ g.outputPaths

/-- The graph that attempts to register some actions leave. -/
def attemptAll (g : Graph) (as : List Action) : Graph := as.foldl attempt g

theorem attemptAll_cons (g : Graph) (a : Action) (as : List Action) :
    g.attemptAll (a :: as) = (g.attempt a).attemptAll as :=
  rfl

/-- To take some actions one after the other is to take all of them together. -/
theorem admitsAll_cons :
    g.AdmitsAll (a :: as) ↔ g.Admits a ∧ (g.attempt a).AdmitsAll as := by
  constructor
  · rintro ⟨hne, hnodup, hfresh⟩
    rw [List.forall_mem_cons] at hne
    rw [List.flatMap_cons, List.nodup_append'] at hnodup
    rw [List.flatMap_cons, List.forall_mem_append] at hfresh
    obtain ⟨hnodup, hnodup', hdisjoint⟩ := hnodup
    have ha : g.Admits a := ⟨hne.1, hnodup, hfresh.1⟩
    refine ⟨ha, hne.2, hnodup', fun p hp hmem => ?_⟩
    rw [outputPaths_attempt ha] at hmem
    rcases List.mem_append.1 hmem with h | h
    · exact hfresh.2 p hp h
    · exact hdisjoint h hp
  · rintro ⟨ha, hne', hnodup', hfresh'⟩
    simp only [outputPaths_attempt ha, List.mem_append, not_or] at hfresh'
    refine ⟨List.forall_mem_cons.2 ⟨ha.outputs_ne, hne'⟩, ?_, ?_⟩
    · rw [List.flatMap_cons]
      exact ha.outputPaths_nodup.append hnodup' fun p hp hp' => (hfresh' p hp').2 hp
    · rw [List.flatMap_cons, List.forall_mem_append]
      exact ⟨ha.fresh, fun p hp => (hfresh' p hp).1⟩

theorem Consistent.attemptAll : ∀ (as : List Action) {g : Graph}, g.Consistent →
    (g.attemptAll as).Consistent
  | [], _, h => h
  | a :: as, _, h => Consistent.attemptAll as (h.attempt a)

theorem actions_attemptAll : ∀ {as : List Action} {g : Graph}, g.AdmitsAll as →
    (g.attemptAll as).actions = g.actions ++ as
  | [], g, _ => (List.append_nil g.actions).symm
  | a :: as, g, h => by
    obtain ⟨ha, has⟩ := admitsAll_cons.1 h
    rw [attemptAll_cons, actions_attemptAll has, toRegistry_attempt ha]
    exact List.append_assoc g.actions [a] as

/-- An action whose outputs are known already adds no placeholder. -/
theorem artifact_attempt (ha : g.Admits a) (h : ∀ x ∈ a.outputs, g.artifact x.path = x) :
    (g.attempt a).artifact = g.artifact := by
  funext p
  refine artifact_eq_of_mem_placeholders_iff ?_
  rw [toRegistry_attempt ha, mem_placeholders_extend, or_iff_right_iff_imp,
    ← placeholder_artifact_iff]
  exact fun hp => congrArg Artifact.placeholder (h _ hp)

theorem artifact_of_mem_outputs (h : Action.ofRecord g r = .ok a) :
    ∀ x ∈ a.outputs, g.artifact x.path = x := by
  rw [Action.outputs_of_ofRecord h, artifacts]
  intro x hx
  obtain ⟨_, _, rfl⟩ := List.mem_map.1 hx
  rfl

theorem artifact_attemptAll : ∀ {as : List Action} {g : Graph}, g.AdmitsAll as →
    (∀ a ∈ as, ∀ x ∈ a.outputs, g.artifact x.path = x) → (g.attemptAll as).artifact = g.artifact
  | [], _, _, _ => rfl
  | a :: as, g, hall, h => by
    obtain ⟨hadmits, hall⟩ := admitsAll_cons.1 hall
    obtain ⟨ha, has⟩ := List.forall_mem_cons.1 h
    have hext := artifact_attempt hadmits ha
    rw [attemptAll_cons, artifact_attemptAll hall fun b hb x hx => ?_, hext]
    rw [hext]
    exact has b hb x hx

/-- Registering what some records describe succeeds if each record can be lowered and the graph
admits all the actions together. -/
theorem addRecords_eq_ok_iff : ∀ {rs : List ActionRecord} {g : Graph},
    g.addRecords rs = .ok g' ↔
      ∃ as, rs.mapM (Action.ofRecord g) = .ok as ∧ g.AdmitsAll as ∧ g.attemptAll as = g'
  | [], g => by
    rw [addRecords, Except.ok.injEq]
    constructor
    · rintro rfl
      exact ⟨[], rfl, ⟨by simp, List.nodup_nil, by simp⟩, rfl⟩
    · rintro ⟨_, ⟨⟩, -, h⟩
      exact h
  | r :: rs, g => by
    rw [addRecords]
    simp only [List.mapM_cons, bind_eq_ok, pure_eq_ok, Prod.exists, add_eq_ok_iff]
    constructor
    · rintro ⟨a, ha, i, _, ⟨hadmits, -, rfl⟩, hrest⟩
      obtain ⟨as, has, hall, hg⟩ := addRecords_eq_ok_iff.1 hrest
      rw [Action.ofRecord_congr (artifact_attempt hadmits (artifact_of_mem_outputs ha))] at has
      exact ⟨a :: as, ⟨a, ha, as, has, rfl⟩, admitsAll_cons.2 ⟨hadmits, hall⟩, hg⟩
    · rintro ⟨_, ⟨a, ha, as, has, rfl⟩, hall, hg⟩
      obtain ⟨hadmits, hall⟩ := admitsAll_cons.1 hall
      rw [← Action.ofRecord_congr (artifact_attempt hadmits (artifact_of_mem_outputs ha))] at has
      exact ⟨a, ha, g.size, _, ⟨hadmits, rfl, rfl⟩, addRecords_eq_ok_iff.2 ⟨as, has, hall, hg⟩⟩

/-- The graph of the placeholders that a snapshot declares, before its first action. -/
def declared (s : Snapshot) : Graph := s.placeholders.foldl mark empty

theorem actions_foldl_mark : ∀ (ps : List Path) (g : Graph), (ps.foldl mark g).actions = g.actions
  | [], _ => rfl
  | p :: ps, g => actions_foldl_mark ps (g.mark p)

theorem mem_placeholders_foldl_mark {p : Path} : ∀ {ps : List Path} {g : Graph},
    p ∈ (ps.foldl mark g).placeholders ↔ p ∈ ps ∨ p ∈ g.placeholders
  | [], _ => by simp
  | q :: ps, g => by
    rw [List.foldl_cons, mem_placeholders_foldl_mark, mark, mem_placeholders_mark, List.mem_cons]
    tauto

theorem actions_declared (s : Snapshot) : (declared s).actions = [] :=
  actions_foldl_mark s.placeholders empty

theorem outputPaths_declared (s : Snapshot) : (declared s).outputPaths = [] := by
  rw [outputPaths_eq, actions_declared, List.flatMap_nil]

theorem consistent_declared (s : Snapshot) : (declared s).Consistent := by
  constructor
  · rw [outputPaths_declared]
    exact List.nodup_nil
  · rw [actions_declared]
    exact List.forall_mem_nil _

/-- A graph knows the declared placeholders before its first action, so all its actions are lowered
by them. -/
theorem ofSnapshot_eq_ok_iff :
    ofSnapshot s = .ok g ↔ ∃ as, s.actions.mapM (Action.ofRecord (declared s)) = .ok as ∧
      (declared s).AdmitsAll as ∧ (declared s).attemptAll as = g ∧ g.checkAcyclic = .ok () := by
  rw [ofSnapshot, bind_eq_ok]
  constructor
  · rintro ⟨_, hadd, h⟩
    obtain ⟨_, hcheck, ⟨⟩⟩ := bind_eq_ok.1 h
    obtain ⟨as, has, hall, hg⟩ := addRecords_eq_ok_iff.1 hadd
    exact ⟨as, has, hall, hg, hcheck⟩
  · rintro ⟨as, has, hall, hg, hcheck⟩
    exact ⟨g, addRecords_eq_ok_iff.2 ⟨as, has, hall, hg⟩, bind_eq_ok.2 ⟨(), hcheck, rfl⟩⟩

/-- The graph of some actions that were lowered from a snapshot. -/
structure Describes (g : Graph) (s : Snapshot) : Prop where
  actions : s.actions.mapM (Action.ofRecord (declared s)) = .ok g.actions
  artifact : g.artifact = (declared s).artifact
  consistent : g.Consistent

theorem describes_attemptAll (has : s.actions.mapM (Action.ofRecord (declared s)) = .ok as)
    (hall : (declared s).AdmitsAll as) : ((declared s).attemptAll as).Describes s := by
  refine ⟨?_, artifact_attemptAll hall fun a ha => ?_, (consistent_declared s).attemptAll as⟩
  · rw [actions_attemptAll hall, actions_declared]
    exact has
  · obtain ⟨r, _, hr⟩ := exists_of_mem_mapM has ha
    exact artifact_of_mem_outputs hr

/-- A graph lowers the records that it was made of to its own actions. -/
theorem Describes.mapM_ofRecord (h : g.Describes s) :
    s.actions.mapM (Action.ofRecord g) = .ok g.actions := by
  rw [Action.ofRecord_congr h.artifact]
  exact h.actions

theorem Describes.of_ofSnapshot (h : ofSnapshot s = .ok g) : g.Describes s := by
  obtain ⟨as, has, hall, rfl, -⟩ := ofSnapshot_eq_ok_iff.1 h
  exact describes_attemptAll has hall

end Graph

end Provenance
