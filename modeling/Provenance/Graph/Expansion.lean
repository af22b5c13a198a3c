import Provenance.Graph

/-!
Expansion of inputs past scheduling placeholders. Some dependencies of an action are known only after
a discovery step, and the build keeps the order of work by a placeholder instead. Expansion replaces
such a placeholder by the inputs of the action behind it, and no other kind of placeholder, until
only real files are left.
-/

namespace Provenance.Graph

/-- What stands behind an artifact: the inputs of its generator, if the artifact is a placeholder
and the generator is a scheduling one. -/
def behind (g : Graph) (a : Artifact) : List Artifact :=
  if a.placeholder then
    match g.generator? a.path with
    | some b => if b.indirection = .scheduling then b.inputs else []
    | none => []
  else []

/-- The placeholders that an expansion may see through, each followed by what stands behind it. -/
def substitution (g : Graph) : Digraph Artifact where
  nodes := g.outputPaths.map Artifact.standIn
  next := g.behind
  next_eq_nil a ha := by
    obtain ⟨p, f⟩ := a
    cases f with
    | false => rfl
    | true =>
      cases h : g.generator? p with
      | none => simp [behind, h]
      | some b =>
        exact absurd (List.mem_map.2 ⟨p, mem_outputPaths_of_generator h, rfl⟩) ha

/-- The real files behind some artifacts, in depth-first order of discovery. -/
def expand (g : Graph) (artifacts : List Artifact) : List Artifact :=
  (g.substitution.preorder artifacts).filter (!·.placeholder)

end Provenance.Graph
