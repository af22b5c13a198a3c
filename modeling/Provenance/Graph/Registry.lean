import Provenance.Action
import Provenance.Table
import Provenance.Text.Shown

/-!
The registry behind a graph. It holds the actions of a build in order of registration, a table with
the generator of each path that is written, and the paths known to be placeholders. A registration
looks at the table before it changes anything, and an action that would write a path for the second
time is refused, so the table is kept in step with the actions.
-/

namespace Provenance

/-- Why a build is not well formed. -/
inductive GraphError where
  | duplicateOutput (output : Path)
  | noOutputs (mnemonic : String)
  | circularDependency (cycle : List Path)
  | duplicateTarget (label : Label)
  | invalidLabel (cause : LabelError)
  deriving DecidableEq

namespace GraphError

def message : GraphError → String
  | duplicateOutput p => s!"artifact '{p.toString}' is generated by more than one action"
  | noOutputs m => s!"action '{m}' declares no outputs"
  | circularDependency ps =>
    s!"circular dependency detected: {Text.shownList (ps.map Path.toString)}"
  | duplicateTarget l => s!"target '{l.toString}' is declared more than once"
  | invalidLabel _ => "invalid label in snapshot"

/-- The messages of what lies behind an error, the nearest first. -/
def causes : GraphError → List String
  | invalidLabel e => [e.message]
  | _ => []

/-- The code that documentation knows an error by. -/
def code : GraphError → String
  | duplicateOutput _ => "whence::graph::duplicate_output"
  | noOutputs _ => "whence::graph::no_outputs"
  | circularDependency _ => "whence::graph::circular_dependency"
  | duplicateTarget _ => "whence::graph::duplicate_target"
  | invalidLabel _ => "whence::graph::invalid_label"

def help : GraphError → Option String
  | circularDependency _ => some "the snapshot must describe an acyclic action graph"
  | _ => none

end GraphError

/-- What is recorded of the actions of a build. -/
structure Registry where
  /-- The actions in order of registration. -/
  actions : List Action := []
  /-- The number of the action that writes a path. -/
  generators : List (Path × ActionId) := []
  /-- The paths known to be placeholders. -/
  placeholders : List Path := []
  deriving DecidableEq

namespace Registry

/-- The number of actions. -/
def size (r : Registry) : Nat := r.actions.length

/-- The action registered under a number. -/
def action? (r : Registry) (i : ActionId) : Option Action := r.actions[i]?

/-- The actions with their numbers, in order of registration. -/
def entries (r : Registry) : List (ActionId × Action) := r.actions.zipIdx.map Prod.swap

/-- The paths that the actions write, in order of registration. -/
def outputPaths (r : Registry) : List Path := r.entries.flatMap fun e => e.2.outputPaths

/-- The number of the action that writes a path. -/
def generatorId? (r : Registry) (p : Path) : Option ActionId := r.generators.lookup p

/-- The artifact at a path, a placeholder if the path is known as one. -/
def artifact (r : Registry) (p : Path) : Artifact := ⟨p, r.placeholders.contains p⟩

/-- The first of some paths that is written already, or that was seen before. -/
def contested? (r : Registry) : (seen paths : List Path) → Option Path
  | _, [] => none
  | seen, p :: ps =>
    if (r.generatorId? p).isSome || seen.contains p then some p else r.contested? (p :: seen) ps

/-- Declares a path to be a placeholder, with or without an action that writes it. -/
def mark (r : Registry) (p : Path) : Registry :=
  { r with placeholders := r.placeholders.insert p }

/-- Enters an output of the action with a number. -/
def enter (i : ActionId) (r : Registry) (x : Artifact) : Registry :=
  { if x.placeholder then r.mark x.path else r with generators := put x.path i r.generators }

/-- What is called on a registry: it may give up with an error, and what it has changed until then
stays changed. -/
abbrev Call (α : Type) := ExceptT GraphError (StateM Registry) α

/-- Registers an action under the next number. -/
def add (a : Action) : Call ActionId := do
  if a.outputs = [] then throw (.noOutputs a.mnemonic)
  if let some p := (← get).contested? [] a.outputPaths then throw (.duplicateOutput p)
  let i := (← get).size
  forM a.outputs fun x => modify (enter i · x)
  modify fun r => { r with actions := r.actions ++ [a] }
  return i

/-- The outcome of a call, and the registry that it leaves. -/
def call {α : Type} (r : Registry) (c : Call α) : Except GraphError α × Registry := c.run.run r

/-- The registry with one more action. -/
def extend (r : Registry) (a : Action) : Registry :=
  { a.outputs.foldl (enter r.size) r with actions := r.actions ++ [a] }

/-- The table tells of every path the first action that writes it. -/
def InStep (r : Registry) : Prop :=
  ∀ p, r.generatorId? p = r.actions.findIdx? fun a => a.outputPaths.contains p

variable {r : Registry} {a : Action} {p : Path} {i : ActionId} {α β : Type}

theorem outputPaths_eq (r : Registry) : r.outputPaths = r.actions.flatMap Action.outputPaths := by
  have hentries : r.entries.map Prod.snd = r.actions := by
    rw [entries, List.map_map]
    exact List.zipIdx_map_fst 0 r.actions
  rw [outputPaths, List.flatMap_def, List.flatMap_def, ← hentries, List.map_map]
  rfl

theorem mem_outputPaths : p ∈ r.outputPaths ↔ ∃ a ∈ r.actions, p ∈ a.outputPaths := by
  rw [outputPaths_eq, List.mem_flatMap]

theorem call_bind (r : Registry) (c : Call α) (k : α → Call β) :
    r.call (c >>= k) = match r.call c with
      | (.ok x, r') => r'.call (k x)
      | (.error e, r') => (.error e, r') := by
  change (match c r with | (x, r') => ExceptT.bindCont k x r') =
    match c r with
    | (.ok x, r') => r'.call (k x)
    | (.error e, r') => (.error e, r')
  rcases c r with ⟨_ | x, r'⟩ <;> rfl

theorem call_pure (r : Registry) (x : α) : r.call (pure x) = (.ok x, r) := rfl

theorem call_get (r : Registry) : r.call get = (.ok r, r) := rfl

theorem call_modify (r : Registry) (f : Registry → Registry) :
    r.call (modify f) = (.ok ⟨⟩, f r) :=
  rfl

theorem call_forM_enter (i : ActionId) : ∀ (xs : List Artifact) (r : Registry),
    r.call (forM xs fun x => modify (enter i · x)) = (.ok ⟨⟩, xs.foldl (enter i) r)
  | [], _ => rfl
  | x :: xs, r => by
    rw [List.forM_cons, call_bind, call_modify]
    exact call_forM_enter i xs _

theorem actions_foldl_enter (i : ActionId) : ∀ (xs : List Artifact) (r : Registry),
    (xs.foldl (enter i) r).actions = r.actions
  | [], _ => rfl
  | x :: xs, r => by
    rw [List.foldl_cons, actions_foldl_enter i xs, enter]
    split <;> rfl

/-- A registration is refused with the registry as it was, or it enters the action. -/
theorem call_add (r : Registry) (a : Action) :
    r.call (add a) =
      if a.outputs = [] then (.error (.noOutputs a.mnemonic), r)
      else match r.contested? [] a.outputPaths with
        | some p => (.error (.duplicateOutput p), r)
        | none => (.ok r.size, r.extend a) := by
  rw [add]
  by_cases h : a.outputs = []
  · rw [if_pos h, if_pos h]
    rfl
  · rw [if_neg h, if_neg h]
    simp only [call_bind, call_get]
    cases r.contested? [] a.outputPaths with
    | some p => rfl
    | none =>
      simp only [call_bind, call_get, call_modify, call_pure, call_forM_enter]
      rw [actions_foldl_enter, extend]

theorem generatorId?_enter (i : ActionId) (r : Registry) (x : Artifact) (p : Path) :
    (enter i r x).generatorId? p = if p = x.path then some i else r.generatorId? p := by
  rw [generatorId?, enter, lookup_put, generatorId?]

theorem generatorId?_foldl_enter (i : ActionId) (p : Path) : ∀ (xs : List Artifact) (r : Registry),
    (xs.foldl (enter i) r).generatorId? p =
      if p ∈ xs.map Artifact.path then some i else r.generatorId? p
  | [], _ => rfl
  | x :: xs, r => by
    rw [List.foldl_cons, generatorId?_foldl_enter i p xs, generatorId?_enter, List.map_cons]
    by_cases hx : p = x.path <;> simp [hx]

/-- A registration enters the outputs of its action in the table. -/
theorem generatorId?_extend (r : Registry) (a : Action) (p : Path) :
    (r.extend a).generatorId? p =
      if p ∈ a.outputPaths then some r.size else r.generatorId? p :=
  generatorId?_foldl_enter r.size p a.outputs r

theorem generatorId?_eq_none_of_contested? : ∀ {paths seen : List Path},
    r.contested? seen paths = none → ∀ p ∈ paths, r.generatorId? p = none
  | [], _, _ => by simp
  | q :: paths, seen, h => by
    rw [contested?] at h
    split at h
    · cases h
    · rename_i hfree
      have hq : r.generatorId? q = none := by
        cases hgen : r.generatorId? q with
        | none => rfl
        | some i => simp [hgen] at hfree
      intro p hp
      rcases List.mem_cons.1 hp with rfl | hp
      · exact hq
      · exact generatorId?_eq_none_of_contested? h p hp

theorem inStep_empty : ({} : Registry).InStep := fun _ => rfl

theorem InStep.mark (h : r.InStep) (p : Path) : (r.mark p).InStep := h

/-- The table stays in step with an action that writes nothing that is written already. -/
theorem InStep.extend (h : r.InStep) (hfree : ∀ p ∈ a.outputPaths, r.generatorId? p = none) :
    (r.extend a).InStep := by
  intro p
  have hactions : (r.extend a).actions = r.actions ++ [a] := rfl
  rw [generatorId?_extend, hactions, List.findIdx?_append, ← h p, List.findIdx?_singleton]
  by_cases hp : p ∈ a.outputPaths
  · rw [if_pos hp, hfree p hp, if_pos (List.contains_iff_mem.2 hp), Option.none_or,
      Option.map_some, Nat.zero_add, size]
  · rw [if_neg hp, if_neg (mt List.contains_iff_mem.1 hp), Option.map_none, Option.or_none]

/-- The table stays in step over a registration, also one that is refused. -/
theorem InStep.add (h : r.InStep) (a : Action) : (r.call (add a)).2.InStep := by
  rw [call_add]
  split
  · exact h
  · split
    · exact h
    · rename_i hfree
      exact h.extend (generatorId?_eq_none_of_contested? hfree)

end Registry

end Provenance
