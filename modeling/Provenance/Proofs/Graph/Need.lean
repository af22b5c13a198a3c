import Provenance.Graph.Collection
import Provenance.Proofs.Digraph.Preorder
import Provenance.Proofs.Graph.Agreement

/-!
What some artifacts need. They need the actions that generate them, and whatever generates an input of
a needed action. The actions collected for the artifacts are those that they need and a filter lets
through, each of them once.
-/

namespace Provenance.Graph

open Provenance.Digraph Relation

variable {g : Graph} {roots : List Artifact} {a b : Action} {i j : ActionId} {p : Path}

/-- An action that some artifacts need. -/
inductive Needs (g : Graph) (roots : List Artifact) : Action → Prop
  /-- It generates one of the artifacts. -/
  | root {x : Artifact} {a : Action} : x ∈ roots → g.generator? x.path = some a → Needs g roots a
  /-- It generates an input of an action that they need. -/
  | input {x : Artifact} {a b : Action} : Needs g roots a → x ∈ a.inputs →
      g.generator? x.path = some b → Needs g roots b

theorem generator?_eq_some_iff_id :
    g.generator? p = some a ↔ ∃ i, g.generatorId? p = some i ∧ g.action? i = some a := by
  rw [generator?, Option.bind_eq_some_iff]

/-- One action comes after another in the walk if it generates an input of it. -/
theorem edge_prerequisites_iff (hi : g.action? i = some a) :
    g.prerequisites.Edge i j ↔ ∃ x ∈ a.inputs, g.generatorId? x.path = some j := by
  simp [Edge, prerequisites, hi, Action.inputPaths]

/-- The numbers that the walk meets stand for needed actions. -/
theorem needs_of_mem_needed (h : i ∈ g.needed roots) :
    ∃ a, g.action? i = some a ∧ g.Needs roots a := by
  obtain ⟨r, hr, hri⟩ := mem_preorder_iff.1 h
  induction hri with
  | refl =>
    obtain ⟨x, hx, hgen⟩ := List.mem_filterMap.1 hr
    obtain ⟨a, ha, hxa⟩ := exists_action?_of_generatorId? hgen
    exact ⟨a, ha, .root hx hxa⟩
  | tail _ hij ih =>
    obtain ⟨a, ha, hneeds⟩ := ih (mem_preorder_iff.2 ⟨r, hr, by assumption⟩)
    obtain ⟨x, hx, hgen⟩ := (edge_prerequisites_iff ha).1 hij
    obtain ⟨b, hb, hxb⟩ := exists_action?_of_generatorId? hgen
    exact ⟨b, hb, hneeds.input hx hxb⟩

/-- The walk meets the number of every needed action. -/
theorem Needs.exists_mem_needed (h : g.Needs roots a) :
    ∃ i ∈ g.needed roots, g.action? i = some a := by
  induction h with
  | root hx hgen =>
    obtain ⟨i, hi, ha⟩ := generator?_eq_some_iff_id.1 hgen
    exact ⟨i, mem_preorder_iff.2 ⟨i, List.mem_filterMap.2 ⟨_, hx, hi⟩, .refl⟩, ha⟩
  | input _ hx hgen ih =>
    obtain ⟨i, hi, ha⟩ := ih
    obtain ⟨j, hj, hb⟩ := generator?_eq_some_iff_id.1 hgen
    obtain ⟨r, hr, hri⟩ := mem_preorder_iff.1 hi
    have hij : g.prerequisites.Edge i j := (edge_prerequisites_iff ha).2 ⟨_, hx, hj⟩
    exact ⟨j, mem_preorder_iff.2 ⟨r, hr, hri.tail hij⟩, hb⟩

theorem needs_iff_mem : g.Needs roots a ↔ a ∈ (g.needed roots).filterMap g.action? := by
  rw [List.mem_filterMap]
  constructor
  · exact Needs.exists_mem_needed
  · rintro ⟨i, hi, ha⟩
    obtain ⟨b, hb, hneeds⟩ := needs_of_mem_needed hi
    cases ha.symm.trans hb
    exact hneeds

instance : DecidablePred (g.Needs roots) := fun _ => decidable_of_iff _ needs_iff_mem.symm

/-- A needed action is an action of the graph. -/
theorem Needs.mem_actions (h : g.Needs roots a) : a ∈ g.actions := by
  obtain ⟨i, -, ha⟩ := h.exists_mem_needed
  exact List.mem_of_getElem? ha

/-- Exactly the needed actions that the filter lets through are collected. -/
theorem mem_filterMap_collect {M : MnemonicFilter} :
    a ∈ (g.collect roots M).filterMap g.action? ↔ g.Needs roots a ∧ M.allows a = true := by
  rw [needs_iff_mem, List.mem_filterMap, List.mem_filterMap, ← exists_and_right]
  refine exists_congr fun i => ?_
  rw [collect, List.mem_filter]
  constructor
  · rintro ⟨⟨hi, hallows⟩, ha⟩
    rw [ha] at hallows
    exact ⟨⟨hi, ha⟩, hallows⟩
  · rintro ⟨⟨hi, ha⟩, hallows⟩
    rw [ha]
    exact ⟨⟨hi, hallows⟩, rfl⟩

/-- No action is collected twice. -/
theorem Consistent.nodup_filterMap_collect (h : g.Consistent) (roots : List Artifact)
    (M : MnemonicFilter) : ((g.collect roots M).filterMap g.action?).Nodup := by
  refine List.Nodup.filterMap ?_ ((nodup_preorder _ _).filter _)
  intro i j a hi hj
  exact h.action?_injective hi hj

end Provenance.Graph
