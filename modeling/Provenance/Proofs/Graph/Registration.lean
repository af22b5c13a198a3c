import Provenance.Graph
import Provenance.Proofs.Checks

/-!
Registration of actions. A graph takes an action if the action writes something, writes no path
twice, and writes no path that is written already; it is left as it was by an action that it does not
take. So however a graph is built up, no path is written twice in it, and the generator of a path is
the one action that writes it.
-/

namespace Provenance

/-- A call to a graph under construction. -/
inductive Graph.Operation where
  | add (a : Action)
  | mark (p : Path)

namespace Registry

variable {r : Registry} {a : Action} {p : Path}

/-- An action that can be registered. -/
structure Admits (r : Registry) (a : Action) : Prop where
  outputs_ne : a.outputs ≠ []
  outputPaths_nodup : a.outputPaths.Nodup
  fresh : ∀ p ∈ a.outputPaths, p ∉ r.outputPaths

theorem outputPaths_extend (r : Registry) (a : Action) :
    (r.extend a).outputPaths = r.outputPaths ++ a.outputPaths := by
  simp [outputPaths_eq, extend]

theorem mem_placeholders_mark {q : Path} :
    p ∈ (r.mark q).placeholders ↔ p = q ∨ p ∈ r.placeholders :=
  List.mem_insert_iff

theorem mem_placeholders_enter {i : ActionId} {x : Artifact} :
    p ∈ (enter i r x).placeholders ↔ .standIn p = x ∨ p ∈ r.placeholders := by
  obtain ⟨q, _ | _⟩ := x
  · have hne : Artifact.standIn p ≠ ⟨q, false⟩ := fun h => by cases h
    rw [or_iff_right hne]
    rfl
  · have heq : Artifact.standIn p = ⟨q, true⟩ ↔ p = q := by simp [Artifact.standIn]
    rw [heq]
    exact mem_placeholders_mark

theorem mem_placeholders_foldl_enter {i : ActionId} : ∀ {xs : List Artifact} {r : Registry},
    p ∈ (xs.foldl (enter i) r).placeholders ↔ .standIn p ∈ xs ∨ p ∈ r.placeholders
  | [], _ => by simp
  | x :: xs, r => by
    rw [List.foldl_cons, mem_placeholders_foldl_enter, mem_placeholders_enter, List.mem_cons]
    tauto

theorem mem_placeholders_extend :
    p ∈ (r.extend a).placeholders ↔ Artifact.standIn p ∈ a.outputs ∨ p ∈ r.placeholders :=
  mem_placeholders_foldl_enter

theorem placeholder_artifact_iff : (r.artifact p).placeholder = true ↔ p ∈ r.placeholders :=
  List.contains_iff_mem

/-- Registries that agree on whether a path is a placeholder have the same artifact there. -/
theorem artifact_eq_of_mem_placeholders_iff {r' : Registry}
    (h : p ∈ r'.placeholders ↔ p ∈ r.placeholders) : r'.artifact p = r.artifact p := by
  have hflag : (r'.artifact p).placeholder = (r.artifact p).placeholder := by
    rw [Bool.eq_iff_iff, placeholder_artifact_iff, placeholder_artifact_iff, h]
  rw [artifact, artifact, Artifact.mk.injEq]
  exact ⟨rfl, hflag⟩

/-- Performs a call, whatever its outcome. -/
def perform (r : Registry) : Graph.Operation → Registry
  | .add a => (r.call (add a)).2
  | .mark p => r.mark p

/-- The registry that some calls lead to. -/
def ofOperations (ops : List Graph.Operation) : Registry := ops.foldl perform {}

/-- A registration leaves no trace, or it enters its action. -/
theorem call_add_cases (r : Registry) (a : Action) :
    (∃ e, r.call (add a) = (.error e, r)) ∨ r.call (add a) = (.ok r.size, r.extend a) := by
  rw [call_add]
  split
  · exact .inl ⟨_, rfl⟩
  · split
    · exact .inl ⟨_, rfl⟩
    · exact .inr rfl

/-- A registration that ends with an error leaves no trace. -/
theorem eq_of_call_add_eq_error {r' : Registry} {e : GraphError}
    (h : r.call (add a) = (.error e, r')) : r' = r := by
  rcases r.call_add_cases a with ⟨e', he⟩ | hok
  · exact congrArg Prod.snd (h.symm.trans he)
  · rw [hok] at h
    cases h

end Registry

namespace Graph

open Registry

variable {g : Graph} {a : Action} {p q : Path}

theorem toRegistry_injective : ∀ {g g' : Graph}, g.toRegistry = g'.toRegistry → g = g'
  | ⟨_, _⟩, ⟨_, _⟩, rfl => rfl

/-- No path is written twice, and every action writes one. -/
structure Consistent (g : Graph) : Prop where
  outputPaths_nodup : g.outputPaths.Nodup
  outputs_ne : ∀ a ∈ g.actions, a.outputs ≠ []

theorem generatorId?_isSome_iff : (g.generatorId? p).isSome ↔ p ∈ g.outputPaths := by
  rw [generatorId?_eq_findIdx?, List.findIdx?_isSome, List.any_eq_true, mem_outputPaths]
  simp

theorem contested?_eq_none_iff {paths : List Path} : ∀ {earlier : List Path},
    g.contested? earlier paths = none ↔
      (∀ p ∈ paths, p ∉ g.outputPaths) ∧ paths.Nodup ∧ ∀ p ∈ paths, p ∉ earlier := by
  induction paths with
  | nil => simp [contested?]
  | cons p paths ih =>
    intro earlier
    rw [contested?, Checks.nodup_cons_fresh_iff, List.forall_mem_cons]
    by_cases hp : (g.generatorId? p).isSome || earlier.contains p
    · rw [if_pos hp]
      refine iff_of_false (Option.some_ne_none p) ?_
      rintro ⟨⟨hout, -⟩, hearlier, -⟩
      rcases Bool.or_eq_true_iff.1 hp with h | h
      · exact hout (generatorId?_isSome_iff.1 h)
      · exact hearlier (List.contains_iff_mem.1 h)
    · have hp' : p ∉ g.outputPaths ∧ p ∉ earlier := by
        rw [← generatorId?_isSome_iff, ← List.contains_iff_mem]
        simpa using hp
      rw [if_neg hp, ih]
      constructor
      · rintro ⟨hout, hrest⟩
        exact ⟨⟨hp'.1, hout⟩, hp'.2, hrest⟩
      · rintro ⟨⟨-, hout⟩, -, hrest⟩
        exact ⟨hout, hrest⟩

/-- An action that the graph admits is entered. -/
theorem call_add_of_admits (ha : g.Admits a) :
    g.call (Registry.add a) = (.ok g.size, g.toRegistry.extend a) := by
  have hfree : g.contested? [] a.outputPaths = none :=
    contested?_eq_none_iff.2 ⟨ha.fresh, ha.outputPaths_nodup, fun _ _ => List.not_mem_nil⟩
  rw [call_add, if_neg ha.outputs_ne, hfree]

/-- An action that the graph does not admit is refused. -/
theorem call_add_of_not_admits (ha : ¬g.Admits a) :
    ∃ e, g.call (Registry.add a) = (.error e, g.toRegistry) := by
  rw [call_add]
  by_cases hne : a.outputs = []
  · exact ⟨_, if_pos hne⟩
  · rw [if_neg hne]
    cases hfree : g.contested? [] a.outputPaths with
    | some p => exact ⟨_, rfl⟩
    | none =>
      obtain ⟨hfresh, hnodup, -⟩ := contested?_eq_none_iff.1 hfree
      exact absurd ⟨hne, hnodup, hfresh⟩ ha

theorem toRegistry_attempt (ha : g.Admits a) : (g.attempt a).toRegistry = g.toRegistry.extend a :=
  congrArg Prod.snd (call_add_of_admits ha)

theorem attempt_of_not_admits (ha : ¬g.Admits a) : g.attempt a = g := by
  obtain ⟨e, he⟩ := call_add_of_not_admits ha
  exact toRegistry_injective (congrArg Prod.snd he)

theorem outputPaths_attempt (ha : g.Admits a) :
    (g.attempt a).outputPaths = g.outputPaths ++ a.outputPaths := by
  rw [toRegistry_attempt ha, outputPaths_extend]

/-- An action is registered exactly when the graph admits it. -/
theorem add_eq_ok_iff {i : ActionId} {g' : Graph} :
    g.add a = .ok (i, g') ↔ g.Admits a ∧ i = g.size ∧ g' = g.attempt a := by
  rw [add]
  by_cases ha : g.Admits a
  · rw [call_add_of_admits ha, and_iff_right ha]
    constructor
    · rintro ⟨⟩
      exact ⟨rfl, rfl⟩
    · rintro ⟨rfl, rfl⟩
      rfl
  · obtain ⟨e, he⟩ := call_add_of_not_admits ha
    rw [he]
    exact iff_of_false (fun h => by cases h) fun h => ha h.1

theorem consistent_empty : empty.Consistent := ⟨List.nodup_nil, by simp [empty]⟩

theorem Consistent.attempt (h : g.Consistent) (a : Action) : (g.attempt a).Consistent := by
  by_cases ha : g.Admits a
  · refine ⟨?_, fun b hb => ?_⟩
    · rw [outputPaths_attempt ha]
      refine h.outputPaths_nodup.append ha.outputPaths_nodup fun p hp hpa => ?_
      exact ha.fresh p hpa hp
    · rw [toRegistry_attempt ha] at hb
      rcases List.mem_append.1 hb with hb | hb
      · exact h.outputs_ne b hb
      · rw [List.mem_singleton.1 hb]
        exact ha.outputs_ne
  · rwa [attempt_of_not_admits ha]

theorem Consistent.mark (h : g.Consistent) (p : Path) : (g.mark p).Consistent :=
  ⟨h.outputPaths_nodup, h.outputs_ne⟩

/-- Performs a call on the registry of a graph. -/
def perform (g : Graph) : Operation → Graph
  | .add a => g.attempt a
  | .mark p => g.mark p

/-- The graph that some calls lead to. -/
def ofOperations (ops : List Operation) : Graph := ops.foldl perform empty

theorem toRegistry_perform (g : Graph) : ∀ op : Operation,
    (g.perform op).toRegistry = g.toRegistry.perform op
  | .add _ => rfl
  | .mark _ => rfl

theorem toRegistry_foldl_perform : ∀ (ops : List Operation) (g : Graph),
    (ops.foldl perform g).toRegistry = ops.foldl Registry.perform g.toRegistry
  | [], _ => rfl
  | op :: ops, g => by
    rw [List.foldl_cons, toRegistry_foldl_perform ops, toRegistry_perform, List.foldl_cons]

theorem toRegistry_ofOperations (ops : List Operation) :
    (ofOperations ops).toRegistry = .ofOperations ops :=
  toRegistry_foldl_perform ops empty

theorem Consistent.perform (h : g.Consistent) : ∀ op : Operation, (g.perform op).Consistent
  | .add a => h.attempt a
  | .mark p => h.mark p

theorem Consistent.foldl_perform : ∀ (ops : List Operation) {g : Graph}, g.Consistent →
    (ops.foldl Graph.perform g).Consistent
  | [], _, h => h
  | op :: ops, _, h => Consistent.foldl_perform ops (h.perform op)

theorem consistent_ofOperations (ops : List Operation) : (ofOperations ops).Consistent :=
  consistent_empty.foldl_perform ops

/-- The generator of a path is the first action that writes it. -/
theorem generator?_eq_find? (g : Graph) (p : Path) :
    g.generator? p = g.actions.find? fun a => a.outputPaths.contains p := by
  rw [generator?, generatorId?_eq_findIdx?, List.find?_eq_bind_findIdx?_getElem?]
  rfl

theorem Consistent.pairwise_disjoint (h : g.Consistent) :
    g.actions.Pairwise (Function.onFun List.Disjoint Action.outputPaths) := by
  have hnodup := h.outputPaths_nodup
  rw [outputPaths_eq] at hnodup
  exact (List.nodup_flatMap.1 hnodup).2

/-- Two actions that write a path in common are one. -/
theorem Consistent.eq_of_mem_outputPaths (h : g.Consistent) {a b : Action} (ha : a ∈ g.actions)
    (hb : b ∈ g.actions) (hpa : p ∈ a.outputPaths) (hpb : p ∈ b.outputPaths) : a = b := by
  have hsymm : Std.Symm (Function.onFun List.Disjoint Action.outputPaths) :=
    ⟨fun _ _ hab => hab.symm⟩
  by_contra hne
  exact h.pairwise_disjoint.forall ha hb hne hpa hpb

theorem Consistent.exists_mem_outputPaths (h : g.Consistent) (ha : a ∈ g.actions) :
    ∃ p, p ∈ a.outputPaths :=
  List.exists_mem_of_ne_nil _ fun hnil => h.outputs_ne a ha (List.map_eq_nil_iff.1 hnil)

/-- No action is registered twice. -/
theorem Consistent.actions_nodup (h : g.Consistent) : g.actions.Nodup := by
  refine h.pairwise_disjoint.imp_of_mem fun {a b} ha _ hab heq => ?_
  obtain ⟨p, hp⟩ := h.exists_mem_outputPaths ha
  exact hab hp (heq ▸ hp)

/-- The generator of a path is an action of the graph that writes it. -/
theorem mem_of_generator? (h : g.generator? p = some a) : a ∈ g.actions ∧ p ∈ a.outputPaths := by
  rw [generator?_eq_find?] at h
  have hp := List.find?_some h
  exact ⟨List.mem_of_find?_eq_some h, List.contains_iff_mem.1 hp⟩

/-- The generator of a path is the one action that writes it. -/
theorem Consistent.generator?_eq_some_iff (h : g.Consistent) :
    g.generator? p = some a ↔ a ∈ g.actions ∧ p ∈ a.outputPaths := by
  refine ⟨mem_of_generator?, ?_⟩
  rintro ⟨ha, hp⟩
  cases hgen : g.generator? p with
  | none =>
    rw [generator?_eq_find?] at hgen
    exact absurd (List.contains_iff_mem.2 hp) (List.find?_eq_none.1 hgen a ha)
  | some b =>
    obtain ⟨hb, hpb⟩ := mem_of_generator? hgen
    rw [h.eq_of_mem_outputPaths hb ha hpb hp]

end Graph

end Provenance
