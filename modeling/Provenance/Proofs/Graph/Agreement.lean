import Provenance.Graph.Collection
import Provenance.Graph.Expansion
import Provenance.Proofs.Digraph.Walk
import Provenance.Proofs.Graph.Cycle

/-!
Graphs that agree on some paths. What a graph has to say about a path depends on the generators of the
path and of all that it depends on. So where two graphs have the same generators for a set of paths
that is closed under dependencies, the same real files stand behind the artifacts of that set, and the
same actions are needed for them, in the same order and under whatever numbers.
-/

namespace Provenance.Graph

open Provenance.Digraph

variable {g g' : Graph} {R : Set Path} {p q : Path} {i j : ActionId} {a : Action}
  {roots : List Artifact}

/-- Two graphs that have the same generators for some paths, among which is all that these depend
on. -/
structure AgreeOn (R : Set Path) (g g' : Graph) : Prop where
  generator? : ∀ p ∈ R, g'.generator? p = g.generator? p
  closed : ∀ p ∈ R, ∀ q, g.DependsOn p q → q ∈ R

theorem dependsOn_of_generator? (h : g.generator? p = some a) (hq : q ∈ a.inputPaths) :
    g.DependsOn p q := by
  obtain ⟨ha, hp⟩ := mem_of_generator? h
  exact ⟨a, ha, hp, hq⟩

namespace AgreeOn

theorem inputPaths_subset (h : AgreeOn R g g') (hp : p ∈ R) (hgen : g.generator? p = some a) :
    ∀ q ∈ a.inputPaths, q ∈ R :=
  fun q hq => h.closed p hp q (dependsOn_of_generator? hgen hq)

theorem substitution_next (h : AgreeOn R g g') {x : Artifact} (hx : x.path ∈ R) :
    g.substitution.next x = g'.substitution.next x := by
  simp only [substitution, behind, h.generator? x.path hx]

/-- What stands behind an artifact of the set is of the set. -/
theorem path_mem_of_mem_next (h : AgreeOn R g g') {x y : Artifact} (hx : x.path ∈ R)
    (hy : y ∈ g.substitution.next x) : y.path ∈ R := by
  simp only [substitution, behind] at hy
  split at hy
  · cases hgen : g.generator? x.path with
    | none => simp [hgen] at hy
    | some b =>
      have hinput : y ∈ b.inputs := by
        simp only [hgen] at hy
        split at hy
        · exact hy
        · cases hy
      exact h.inputPaths_subset hx hgen y.path (List.mem_map_of_mem hinput)
  · cases hy

/-- The same real files stand behind some artifacts. -/
theorem expand_eq (h : AgreeOn R g g') (hroots : ∀ x ∈ roots, x.path ∈ R) :
    g'.expand roots = g.expand roots := by
  have hwalk : g.substitution.preorder roots = g'.substitution.preorder roots :=
    preorder_congr_on (S := {x : Artifact | x.path ∈ R}) (fun _ => h.substitution_next)
      (fun _ hx _ => h.path_mem_of_mem_next hx) hroots
  rw [expand, expand, hwalk]

end AgreeOn

/-- Two numbers that stand for one action, each in its graph, which writes one of some paths. -/
def SameAction (R : Set Path) (g g' : Graph) (i j : ActionId) : Prop :=
  ∃ a, g.action? i = some a ∧ g'.action? j = some a ∧ ∃ p ∈ a.outputPaths, p ∈ R

theorem Consistent.action?_injective (h : g.Consistent) (hi : g.action? i = some a)
    (hj : g.action? j = some a) : i = j := by
  have hlt : i < g.actions.length := (List.getElem?_eq_some_iff.1 hi).1
  exact (List.getElem?_inj hlt h.actions_nodup).1 (hi.trans hj.symm)

theorem Consistent.biUnique_sameAction (h : g.Consistent) (h' : g'.Consistent) :
    Relator.BiUnique (SameAction R g g') := by
  constructor
  · rintro i j k ⟨a, hi, hk, -⟩ ⟨b, hj, hk', -⟩
    cases hk.symm.trans hk'
    exact h.action?_injective hi hj
  · rintro i j k ⟨a, hi, hj, -⟩ ⟨b, hi', hk, -⟩
    cases hi.symm.trans hi'
    exact h'.action?_injective hj hk

theorem exists_action?_of_generatorId? (h : g.generatorId? p = some i) :
    ∃ a, g.action? i = some a ∧ g.generator? p = some a := by
  have hfind := h
  rw [generatorId?_eq_findIdx?] at hfind
  obtain ⟨hlt, -⟩ := List.findIdx?_eq_some_iff_getElem.1 hfind
  refine ⟨g.actions[i], List.getElem?_eq_getElem hlt, ?_⟩
  rw [generator?, h]
  exact List.getElem?_eq_getElem hlt

theorem generatorId?_eq_none_iff : g.generatorId? p = none ↔ g.generator? p = none := by
  constructor
  · intro hnone
    rw [generator?, hnone]
    rfl
  · intro hnone
    cases hi : g.generatorId? p with
    | none => rfl
    | some i =>
      obtain ⟨a, -, ha⟩ := exists_action?_of_generatorId? hi
      cases hnone.symm.trans ha

namespace AgreeOn

theorem rel_generatorId? (h : AgreeOn R g g') (hp : p ∈ R) :
    Option.Rel (SameAction R g g') (g.generatorId? p) (g'.generatorId? p) := by
  have hgen := h.generator? p hp
  cases hi : g.generatorId? p with
  | none =>
    rw [generatorId?_eq_none_iff.1 hi] at hgen
    rw [generatorId?_eq_none_iff.2 hgen]
    exact .none
  | some i =>
    obtain ⟨a, hia, ha⟩ := exists_action?_of_generatorId? hi
    cases hj : g'.generatorId? p with
    | none =>
      rw [ha, generatorId?_eq_none_iff.1 hj] at hgen
      cases hgen
    | some j =>
      obtain ⟨b, hjb, hb⟩ := exists_action?_of_generatorId? hj
      rw [ha, hb] at hgen
      cases hgen
      exact .some ⟨a, hia, hjb, p, (mem_of_generator? ha).2, hp⟩

/-- The generators of some paths of the set stand for the same actions. -/
theorem forall₂_generatorIds (h : AgreeOn R g g') {paths : List Path}
    (hpaths : ∀ p ∈ paths, p ∈ R) :
    List.Forall₂ (SameAction R g g') (paths.filterMap g.generatorId?)
      (paths.filterMap g'.generatorId?) := by
  refine List.rel_filterMap (R := fun p q => p = q ∧ p ∈ R) ?_ ?_
  · rintro p _ ⟨rfl, hp⟩
    exact h.rel_generatorId? hp
  · exact List.forall₂_same.2 fun p hp => ⟨rfl, hpaths p hp⟩

theorem forall₂_next_prerequisites (h : AgreeOn R g g') (hij : SameAction R g g' i j) :
    List.Forall₂ (SameAction R g g') (g.prerequisites.next i) (g'.prerequisites.next j) := by
  obtain ⟨a, hi, hj, p, hp, hpR⟩ := hij
  have hinputs : ∀ q ∈ a.inputPaths, q ∈ R := fun q hq =>
    h.closed p hpR q ⟨a, List.mem_of_getElem? hi, hp, hq⟩
  simp only [prerequisites, hi, hj, Option.map_some, Option.getD_some]
  exact h.forall₂_generatorIds hinputs

/-- The same actions are needed for some artifacts, and are met in the same order. -/
theorem forall₂_needed (h : AgreeOn R g g') (hg : g.Consistent) (hg' : g'.Consistent)
    (hroots : ∀ x ∈ roots, x.path ∈ R) :
    List.Forall₂ (SameAction R g g') (g.needed roots) (g'.needed roots) := by
  have hids := h.forall₂_generatorIds (List.forall_mem_map.2 hroots)
  rw [List.filterMap_map, List.filterMap_map] at hids
  exact forall₂_preorder (hg.biUnique_sameAction hg') h.forall₂_next_prerequisites hids

/-- The same actions are collected for some artifacts, in the same order. -/
theorem filterMap_action?_collect (h : AgreeOn R g g') (hg : g.Consistent) (hg' : g'.Consistent)
    (hroots : ∀ x ∈ roots, x.path ∈ R) (mnemonics : MnemonicFilter) :
    (g'.collect roots mnemonics).filterMap g'.action? =
      (g.collect roots mnemonics).filterMap g.action? := by
  have hcollect : List.Forall₂ (SameAction R g g') (g.collect roots mnemonics)
      (g'.collect roots mnemonics) := by
    refine List.rel_filter ?_ (h.forall₂_needed hg hg' hroots)
    rintro i j ⟨a, hi, hj, -⟩
    simp only [hi, hj]
  have hactions : List.Forall₂ Eq ((g.collect roots mnemonics).filterMap g.action?)
      ((g'.collect roots mnemonics).filterMap g'.action?) := by
    refine List.rel_filterMap ?_ hcollect
    rintro i j ⟨a, hi, hj, -⟩
    rw [hi, hj]
    exact .some rfl
  rw [List.forall₂_eq_eq_eq] at hactions
  exact hactions.symm

end AgreeOn

end Provenance.Graph
