import Provenance.Proofs.Graph.Agreement
import Provenance.Resolution

/-!
Resolution over graphs that agree. What is printed for some targets depends on the generators of the
files that they build and compile, and of all that these depend on. Over two graphs that agree on
those, the same actions are gathered, and the same files are left over.
-/

namespace Provenance

variable {g g' : Graph} {R : Set Path}

namespace Matcher

theorem offer_of_agreeOn (h : Graph.AgreeOn R g g') (m : Matcher) (t : Target) {a : Action}
    (ha : ∀ x ∈ a.inputs, x.path ∈ R) : m.offer g' t (some a) = m.offer g t (some a) := by
  simp only [offer, h.expand_eq ha]

theorem offerAll_of_agreeOn (h : Graph.AgreeOn R g g') (t : Target) (artifacts : List Artifact)
    (hartifacts : ∀ x ∈ artifacts, x.path ∈ R) (m : Matcher) :
    m.offerAll g' t artifacts = m.offerAll g t artifacts := by
  induction artifacts generalizing m with
  | nil => rfl
  | cons x artifacts ih =>
    obtain ⟨hx, hrest⟩ := List.forall_mem_cons.1 hartifacts
    have hoffer : m.offer g' t (g.generator? x.path) = m.offer g t (g.generator? x.path) := by
      cases hgen : g.generator? x.path with
      | none => rfl
      | some a =>
        refine offer_of_agreeOn h m t fun y hy => ?_
        exact h.inputPaths_subset hx hgen y.path (List.mem_map_of_mem hy)
    simp only [offerAll, h.generator? x.path hx, hoffer, ih hrest]

theorem gatherAll_of_agreeOn (h : Graph.AgreeOn R g g') (ts : List Target)
    (hts : ∀ t ∈ ts, ∀ x ∈ t.filesToCompile, x.path ∈ R) (m : Matcher) :
    m.gatherAll g' ts = m.gatherAll g ts := by
  induction ts generalizing m with
  | nil => rfl
  | cons t ts ih =>
    obtain ⟨ht, hrest⟩ := List.forall_mem_cons.1 hts
    simp only [gatherAll, gather, offerAll_of_agreeOn h t t.filesToCompile ht, ih hrest]

end Matcher

namespace Request

theorem neededActions_of_agreeOn (h : Graph.AgreeOn R g g') (hg : g.Consistent)
    (hg' : g'.Consistent) (mnemonics : MnemonicFilter) {t : Target}
    (ht : ∀ x ∈ t.filesToBuild, x.path ∈ R) :
    neededActions g' mnemonics t = neededActions g mnemonics t := by
  rw [neededActions, neededActions]
  cases t.kind with
  | rule => exact h.filterMap_action?_collect hg hg' ht mnemonics
  | file => rfl

/-- The same actions are gathered for some targets, and the same files are left over. -/
theorem gather_of_agreeOn (h : Graph.AgreeOn R g g') (hg : g.Consistent) (hg' : g'.Consistent)
    (r : Request) {ts : List Target}
    (hts : ∀ t ∈ ts, ∀ x ∈ t.filesToBuild ++ t.filesToCompile, x.path ∈ R) :
    r.gather g' ts = r.gather g ts := by
  rw [gather, gather]
  cases r.mode with
  | files =>
    have hcompile : ∀ t ∈ ts, ∀ x ∈ t.filesToCompile, x.path ∈ R := fun t ht x hx =>
      hts t ht x (List.mem_append_right t.filesToBuild hx)
    simp only [Matcher.gatherAll_of_agreeOn h ts hcompile]
  | target =>
    have hneeded : ∀ t ∈ ts, neededActions g' r.mnemonics t = neededActions g r.mnemonics t :=
      fun t ht => neededActions_of_agreeOn h hg hg' r.mnemonics fun x hx =>
        hts t ht x (List.mem_append_left t.filesToCompile hx)
    simp only [List.flatMap_congr hneeded]

end Request

end Provenance
