import Provenance.Graph.Expansion
import Provenance.Proofs.Digraph.Unfolding
import Provenance.Proofs.Graph.Cycle

/-!
What stands behind artifacts. A placeholder of a scheduling action gives way to the inputs of the action,
and the expansion of some artifacts is made of the real files that they come down to in this way, each
once, whatever the graph. In a graph without cycles the placeholders can also be replaced by recursion,
with nothing remembered; the expansion is what that gives, with repetitions left out.
-/

namespace Provenance.Graph

open Provenance.Digraph Relation

variable {g : Graph} {a b : Artifact} {starts : List Artifact}

/-- One artifact gives way to another if it is a placeholder, generated by a scheduling action that
reads the other. -/
def GivesWay (g : Graph) (a b : Artifact) : Prop :=
  a.placeholder = true ∧
    ∃ m, g.generator? a.path = some m ∧ m.indirection = .scheduling ∧ b ∈ m.inputs

/-- Artifacts of which each gives way to the next one, from one of some artifacts down to another. -/
structure Trail (g : Graph) (starts : List Artifact) (a : Artifact) (trail : List Artifact) : Prop where
  begins : ∃ s ∈ starts, trail.head? = some s
  ends : trail.getLast? = some a
  steps : trail.IsChain g.GivesWay

theorem mem_behind_iff : b ∈ g.behind a ↔ g.GivesWay a b := by
  rw [behind, GivesWay]
  by_cases ha : a.placeholder
  · cases hgen : g.generator? a.path with
    | none => simp [ha]
    | some m => by_cases hm : m.indirection = .scheduling <;> simp [ha, hm]
  · simp [ha]

theorem edge_substitution : g.substitution.Edge = g.GivesWay := by
  funext a b
  exact propext mem_behind_iff

/-- A trail leads wherever steps lead. -/
theorem exists_trail_iff :
    (∃ trail, g.Trail starts a trail) ↔ ∃ s ∈ starts, ReflTransGen g.GivesWay s a := by
  constructor
  · rintro ⟨trail, ⟨s, hs, hhead⟩, hlast, hsteps⟩
    obtain ⟨rest, rfl⟩ := List.head?_eq_some_iff.1 hhead
    refine ⟨s, hs, List.relationReflTransGen_of_exists_isChain_cons rest hsteps ?_⟩
    rw [List.getLast?_eq_some_getLast (List.cons_ne_nil s rest)] at hlast
    exact Option.some.inj hlast
  · rintro ⟨s, hs, hsa⟩
    obtain ⟨rest, hsteps, hlast⟩ := List.exists_isChain_cons_of_relationReflTransGen hsa
    refine ⟨s :: rest, ⟨s, hs, rfl⟩, ?_, hsteps⟩
    rw [List.getLast?_eq_some_getLast (List.cons_ne_nil s rest), hlast]

theorem mem_expand_iff :
    a ∈ g.expand starts ↔ a.placeholder = false ∧ ∃ trail, g.Trail starts a trail := by
  rw [expand, List.mem_filter, mem_preorder_iff, edge_substitution, exists_trail_iff,
    Bool.not_eq_true', and_comm]

/-- For whatever graph, the expansion of some artifacts is over after a turn for each of them and for
each input behind a placeholder, or before. It gives the real files that trails from them lead to, and
none of them twice. -/
theorem expand_exact (g : Graph) (starts : List Artifact) :
    (∃ n ≤ starts.length + ((g.outputPaths.map Artifact.standIn).flatMap g.behind).length,
        ∃ visited, g.substitution.turn^[n] (starts, []) = ([], visited) ∧
          g.expand starts = visited.reverse.filter (!·.placeholder)) ∧
      (g.expand starts).Nodup ∧
      ∀ a, a ∈ g.expand starts ↔ a.placeholder = false ∧ ∃ trail, g.Trail starts a trail := by
  obtain ⟨n, hn, hturns⟩ := g.substitution.exists_turns_preorder starts
  refine ⟨⟨n, hn, _, hturns, ?_⟩, ?_, fun a => mem_expand_iff⟩
  · rw [List.reverse_reverse, expand]
  · exact (nodup_preorder _ _).filter _

-- The path of a placeholder that its own action reads, which is also the path of a real file.
example :
    let file (name : String) : Artifact := .file (.ofString name)
    let loop : Artifact := .standIn (.ofString "loop")
    (ofOperations [.add {
      mnemonic := "Middleman", inputs := [loop, file "loop", file "a.h"], outputs := [loop],
      indirection := .scheduling }]).expand [loop, file "a.h"] = [file "loop", file "a.h"] := by
  decide +kernel

/-- Without a cycle among the dependencies, no artifact gives way to itself. -/
theorem acyclic_substitution (h : g.checkAcyclic = .ok ()) : g.substitution.Acyclic := by
  intro a ha
  rw [edge_substitution] at ha
  refine checkAcyclic_eq_ok_iff_acyclic.1 h a.path
    (TransGen.lift Artifact.path (fun b c hbc => ?_) _ _ ha)
  obtain ⟨-, m, hgen, -, hc⟩ := hbc
  simp only [Function.onFun, Edge, dependencies, hgen, Option.map_some, Option.getD_some]
  exact List.mem_map_of_mem hc

/-- What an artifact is replaced by: a real file by itself, a placeholder of a scheduling action by what
the inputs of the action are replaced by, and any other placeholder by nothing. -/
def substituted (g : Graph) (h : g.checkAcyclic = .ok ()) (a : Artifact) : List Artifact :=
  if a.placeholder then
    match _hgen : g.generator? a.path with
    | some m =>
      if m.indirection = .scheduling then m.inputs.attach.flatMap fun ⟨b, _⟩ => substituted g h b
      else []
    | none => []
  else [a]
termination_by (g.substitution.preorder [a]).length
decreasing_by
  rename_i ha hm hb
  exact (acyclic_substitution h).length_preorder_lt (mem_behind_iff.2 ⟨ha, m, _hgen, hm, hb⟩)

theorem substituted_of_file (h : g.checkAcyclic = .ok ()) (ha : a.placeholder = false) :
    g.substituted h a = [a] := by
  rw [substituted, if_neg (by simp [ha])]

theorem substituted_of_placeholder (h : g.checkAcyclic = .ok ()) (ha : a.placeholder = true) :
    g.substituted h a = (g.behind a).flatMap (g.substituted h) := by
  rw [substituted, if_pos ha, behind, if_pos ha]
  cases hgen : g.generator? a.path with
  | none => rfl
  | some m => by_cases hm : m.indirection = .scheduling <;> simp [hm]

/-- The real files among what an artifact unfolds to are what it is replaced by. -/
theorem filter_unfold (h : g.checkAcyclic = .ok ()) (a : Artifact) :
    (g.substitution.unfold (acyclic_substitution h) a).filter (!·.placeholder) = g.substituted h a := by
  induction a using unfold.induct g.substitution (acyclic_substitution h) with
  | case1 a ih =>
    have hbehind : ((g.behind a).flatMap (g.substitution.unfold (acyclic_substitution h))).filter
        (!·.placeholder) = (g.behind a).flatMap (g.substituted h) := by
      rw [List.filter_flatMap]
      exact List.flatMap_congr ih
    have hunfold : g.substitution.unfold (acyclic_substitution h) a =
        a :: (g.behind a).flatMap (g.substitution.unfold (acyclic_substitution h)) := by
      rw [unfold]
      rfl
    rw [hunfold, List.filter_cons, hbehind]
    cases ha : a.placeholder with
    | true =>
      rw [substituted_of_placeholder h ha]
      rfl
    | false =>
      have hnone : g.behind a = [] := if_neg (by simp [ha])
      rw [substituted_of_file h ha, hnone]
      rfl

/-- In a graph without cycles, the expansion of some artifacts is what they are replaced by, each file
where it occurs for the first time. -/
theorem expand_eq_eraseDups (h : g.checkAcyclic = .ok ()) (starts : List Artifact) :
    g.expand starts = (starts.flatMap (g.substituted h)).eraseDups := by
  rw [expand, preorder_eq_eraseDups (acyclic_substitution h), filter_eraseDups, List.filter_flatMap]
  congr 2
  exact funext (filter_unfold h)

/-- Two scheduling placeholders that share a third one. -/
def sharedPlaceholder : Graph :=
  let file (name : String) : Artifact := .file (.ofString name)
  let standIn (name : String) : Artifact := .standIn (.ofString name)
  let schedule (inputs : List Artifact) (output : String) : Operation :=
    .add { mnemonic := "Middleman", inputs, outputs := [standIn output], indirection := .scheduling }
  ofOperations [
    schedule [file "common.h"] "base",
    schedule [file "left.h", standIn "base"] "left",
    schedule [standIn "base", file "right.h"] "right"]

theorem expand_sharedPlaceholder :
    let file (name : String) : Artifact := .file (.ofString name)
    let starts : List Artifact :=
      [.standIn (.ofString "left"), file "main.cc", .standIn (.ofString "right")]
    ∃ h : sharedPlaceholder.checkAcyclic = .ok (),
      starts.flatMap (sharedPlaceholder.substituted h) =
          ["left.h", "common.h", "main.cc", "common.h", "right.h"].map file ∧
        sharedPlaceholder.expand starts = ["left.h", "common.h", "main.cc", "right.h"].map file := by
  intro file starts
  have h : sharedPlaceholder.checkAcyclic = .ok () := by cbv
  have hsubstituted : starts.flatMap (sharedPlaceholder.substituted h) =
      ["left.h", "common.h", "main.cc", "common.h", "right.h"].map file := by
    have hbase : sharedPlaceholder.behind (.standIn (.ofString "base")) = [file "common.h"] := by
      decide +kernel
    have hleft : sharedPlaceholder.behind (.standIn (.ofString "left")) =
        [file "left.h", .standIn (.ofString "base")] := by
      decide +kernel
    have hright : sharedPlaceholder.behind (.standIn (.ofString "right")) =
        [.standIn (.ofString "base"), file "right.h"] := by
      decide +kernel
    have hfile (name : String) : sharedPlaceholder.substituted h (file name) = [file name] :=
      substituted_of_file h rfl
    have hstandIn (name : String) :
        sharedPlaceholder.substituted h (.standIn (.ofString name)) =
          (sharedPlaceholder.behind (.standIn (.ofString name))).flatMap
            (sharedPlaceholder.substituted h) :=
      substituted_of_placeholder h rfl
    simp [starts, hstandIn, hbase, hleft, hright, hfile]
  refine ⟨h, hsubstituted, ?_⟩
  rw [expand_eq_eraseDups h, hsubstituted]
  decide +kernel

end Provenance.Graph
