import Provenance.Digraph.Rotation
import Provenance.Digraph.Search
import Provenance.Graph.Registry

/-!
The action graph of a finished build. A path has at most one generator, and the table of generators
is in step with the actions. An artifact depends on the inputs of the action that generates it; an
action on the generators of its inputs.
-/

namespace Provenance

/-- A registry with its table in step. -/
structure Graph extends Registry where
  inStep : toRegistry.InStep
  deriving DecidableEq

namespace Graph

/-- The graph without actions. -/
def empty : Graph := ⟨{}, Registry.inStep_empty⟩

/-- The graph that an attempt to register an action leaves. -/
def attempt (g : Graph) (a : Action) : Graph := ⟨(g.call (Registry.add a)).2, g.inStep.add a⟩

/-- Registers an action, with a graph only if it is not refused. -/
def add (g : Graph) (a : Action) : Except GraphError (ActionId × Graph) :=
  (g.call (Registry.add a)).1.map fun i => (i, g.attempt a)

/-- Declares a path to be a placeholder. -/
def mark (g : Graph) (p : Path) : Graph := ⟨g.toRegistry.mark p, g.inStep.mark p⟩

/-- The action that writes a path; a source file has none. -/
def generator? (g : Graph) (p : Path) : Option Action := (g.generatorId? p).bind g.action?

theorem generatorId?_eq_findIdx? (g : Graph) (p : Path) :
    g.generatorId? p = g.actions.findIdx? fun a => a.outputPaths.contains p :=
  g.inStep p

theorem mem_outputPaths_of_generator {g : Graph} {p : Path} {a : Action}
    (h : g.generator? p = some a) : p ∈ g.outputPaths := by
  obtain ⟨i, hi, ha⟩ := Option.bind_eq_some_iff.1 h
  rw [generatorId?_eq_findIdx?] at hi
  obtain ⟨hlt, hp, _⟩ := List.findIdx?_eq_some_iff_getElem.1 hi
  exact Registry.mem_outputPaths.2 ⟨g.actions[i], List.getElem_mem hlt, by simpa using hp⟩

/-- Each path depends on the paths that its generator reads. -/
def dependencies (g : Graph) : Digraph Path where
  nodes := g.outputPaths
  next p := ((g.generator? p).map Action.inputPaths).getD []
  next_eq_nil p hp := by
    cases h : g.generator? p with
    | none => rfl
    | some a => exact absurd (mem_outputPaths_of_generator h) hp

/-- Each action depends on the generators of its inputs. -/
def prerequisites (g : Graph) : Digraph ActionId where
  nodes := List.range g.size
  next i := ((g.action? i).map fun a => a.inputPaths.filterMap g.generatorId?).getD []
  next_eq_nil i hi := by
    have : g.action? i = none := List.getElem?_eq_none (by simpa [Registry.size] using hi)
    simp [this]

/-- One cycle among the dependencies of the paths that are written, in canonical rotation. -/
def findCycle? (g : Graph) : Option (List Path) :=
  ((Digraph.Search.start g.outputPaths).run g.dependencies).map Digraph.canonical

/-- Refuses a graph with a cycle among its dependencies. -/
def checkAcyclic (g : Graph) : Except GraphError Unit :=
  match g.findCycle? with
  | some cycle => .error (.circularDependency cycle)
  | none => .ok ()

end Graph

end Provenance
