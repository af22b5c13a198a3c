import Provenance.Proofs.Graph.Registration
import Provenance.Proofs.Path.Spelling

/-!
The history of a graph. A graph is built up by calls that register an action or declare a
placeholder, and some of the registrations are refused. After every call its tables are the record of
the calls so far: the actions are those that were registered, in order, the generator of a path is the
one of them that writes it, and the known placeholders are those that were declared or written. A
refused call leaves no trace.
-/

namespace Provenance

namespace Graph

open Registry

variable {g : Graph} {a : Action} {p : Path} {i : ActionId}

/-- The number of a path's generator is the number of the action that writes the path. -/
theorem Consistent.generatorId?_eq_some_iff (h : g.Consistent) :
    g.generatorId? p = some i ↔ i < g.size ∧ ∃ a, g.action? i = some a ∧ p ∈ a.outputPaths := by
  rw [generatorId?_eq_findIdx?, List.findIdx?_eq_some_iff_getElem]
  constructor
  · rintro ⟨hlt, hp, _⟩
    exact ⟨hlt, g.actions[i], List.getElem?_eq_getElem hlt, List.contains_iff_mem.1 hp⟩
  · rintro ⟨hlt, a, ha, hp⟩
    obtain ⟨hlt', rfl⟩ := List.getElem?_eq_some_iff.1 ha
    refine ⟨hlt, List.contains_iff_mem.2 hp, fun j hj hpj => ?_⟩
    -- an earlier action that writes the path would be the same action, standing twice
    have hjlt : j < g.actions.length := hj.trans hlt
    have hsame : g.actions[j] = g.actions[i] :=
      h.eq_of_mem_outputPaths (List.getElem_mem hjlt) (List.getElem_mem hlt)
        (List.contains_iff_mem.1 hpj) hp
    have hij : j = i := h.actions_nodup.getElem_inj_iff.1 hsame
    omega

/-- An action is found again by the output it is described by. -/
theorem Consistent.generator?_primaryOutput (h : g.Consistent) (ha : a ∈ g.actions) :
    ∃ x, a.primaryOutput? = some x ∧ g.generator? x.path = some a := by
  obtain ⟨x, rest, houtputs⟩ := List.exists_cons_of_ne_nil (h.outputs_ne a ha)
  refine ⟨x, by rw [Action.primaryOutput?, houtputs, List.head?_cons], ?_⟩
  refine h.generator?_eq_some_iff.2 ⟨ha, List.mem_map_of_mem ?_⟩
  rw [houtputs]
  exact List.mem_cons_self ..

/-- A registration is refused exactly if the graph does not admit the action. -/
theorem exists_call_add_eq_error_iff :
    (∃ e, (g.call (Registry.add a)).1 = .error e) ↔ ¬g.Admits a := by
  constructor
  · rintro ⟨e, he⟩ ha
    rw [call_add_of_admits ha] at he
    cases he
  · intro ha
    obtain ⟨e, he⟩ := call_add_of_not_admits ha
    exact ⟨e, congrArg Prod.fst he⟩

end Graph

namespace Registry

variable {r : Registry} {a : Action} {p : Path}

/-- The actions whose registration succeeds in a run of calls, in order of the calls. -/
def registered (r : Registry) : List Graph.Operation → List Action
  | [] => []
  | .add a :: ops =>
    match r.call (add a) with
    | (.ok _, r') => a :: r'.registered ops
    | (.error _, r') => r'.registered ops
  | .mark p :: ops => (r.mark p).registered ops

/-- A registration enters its action, and the run goes on, or it leaves everything as it was. -/
theorem perform_add (r : Registry) (a : Action) :
    (r.perform (.add a) = r.extend a ∧
        ∀ ops, r.registered (.add a :: ops) = a :: (r.extend a).registered ops) ∨
      (r.perform (.add a) = r ∧ ∀ ops, r.registered (.add a :: ops) = r.registered ops) := by
  rcases r.call_add_cases a with ⟨e, he⟩ | hok
  · exact .inr ⟨by rw [perform, he], fun ops => by rw [registered, he]⟩
  · exact .inl ⟨by rw [perform, hok], fun ops => by rw [registered, hok]⟩

/-- The actions of a registry are those that were registered, in order of the calls. -/
theorem actions_foldl_perform (ops : List Graph.Operation) (r : Registry) :
    (ops.foldl perform r).actions = r.actions ++ r.registered ops := by
  induction ops generalizing r with
  | nil => exact (List.append_nil r.actions).symm
  | cons op ops ih =>
    rw [List.foldl_cons, ih]
    cases op with
    | mark p => rfl
    | add a =>
      rcases r.perform_add a with ⟨hperform, hregistered⟩ | ⟨hperform, hregistered⟩
      · rw [hperform, hregistered]
        exact List.append_assoc r.actions [a] _
      · rw [hperform, hregistered]

/-- The placeholders that a registry knows were declared by a call or written by a registered action. -/
theorem mem_placeholders_foldl_perform (ops : List Graph.Operation) (r : Registry) :
    p ∈ (ops.foldl perform r).placeholders ↔
      p ∈ r.placeholders ∨ .mark p ∈ ops ∨
        ∃ a ∈ r.registered ops, Artifact.standIn p ∈ a.outputs := by
  induction ops generalizing r with
  | nil => simp [registered]
  | cons op ops ih =>
    rw [List.foldl_cons, ih, List.mem_cons]
    cases op with
    | mark q =>
      rw [Graph.Operation.mark.injEq, perform, mem_placeholders_mark, registered]
      tauto
    | add a =>
      have hne : (Graph.Operation.mark p = .add a) = False := by simp
      rw [hne, false_or]
      rcases r.perform_add a with ⟨hperform, hregistered⟩ | ⟨hperform, hregistered⟩
      · rw [hperform, hregistered, mem_placeholders_extend]
        simp only [List.mem_cons, exists_eq_or_imp]
        tauto
      · rw [hperform, hregistered]

/-- A path is known as a placeholder if some spelling of it was declared, or if a registered action
writes a placeholder there. -/
theorem placeholder_artifact_ofOperations (ops : List Graph.Operation) (text : String) :
    ((ofOperations ops).artifact (.ofString text)).placeholder = true ↔
      (∃ spelling, Path.ofString spelling = .ofString text ∧ .mark (.ofString spelling) ∈ ops) ∨
        ∃ a ∈ registered {} ops, ∃ x ∈ a.outputs, x.placeholder = true ∧
          x.path = .ofString text := by
  have hwritten (a : Action) : Artifact.standIn (.ofString text) ∈ a.outputs ↔
      ∃ x ∈ a.outputs, x.placeholder = true ∧ x.path = .ofString text := by
    constructor
    · exact fun hmem => ⟨_, hmem, rfl, rfl⟩
    · rintro ⟨⟨q, flag⟩, hx, rfl, rfl⟩
      exact hx
  have hdeclared : (∃ spelling, Path.ofString spelling = .ofString text ∧
      .mark (.ofString spelling) ∈ ops) ↔ .mark (.ofString text) ∈ ops := by
    constructor
    · rintro ⟨spelling, hspelling, hmem⟩
      rwa [hspelling] at hmem
    · exact fun hmem => ⟨text, rfl, hmem⟩
  rw [placeholder_artifact_iff, ofOperations, mem_placeholders_foldl_perform, hdeclared]
  simp only [hwritten, List.not_mem_nil, false_or]

/-- The tables of a graph are the record of the calls that led to it. The table of generators names the
one action that writes a path, no path is written twice, every action writes one, the actions are those
whose registration succeeded, in order, and a placeholder is one that was declared or written. A
registration is refused exactly if the action is not admitted, and then leaves every table as it was. -/
theorem history_ofOperations (ops : List Graph.Operation) :
    let r := ofOperations ops
    (∀ p i, r.generators.lookup p = some i ↔
        i < r.size ∧ ∃ a, r.action? i = some a ∧ p ∈ a.outputPaths) ∧
      (r.actions.flatMap Action.outputPaths).Nodup ∧
      (∀ a ∈ r.actions, a.outputs ≠ []) ∧
      r.actions = registered {} ops ∧
      (∀ text, (r.artifact (.ofString text)).placeholder = true ↔
        (∃ spelling, Path.ofString spelling = .ofString text ∧ .mark (.ofString spelling) ∈ ops) ∨
          ∃ a ∈ registered {} ops, ∃ x ∈ a.outputs, x.placeholder = true ∧
            x.path = .ofString text) ∧
      (∀ a, (∃ e, (r.call (add a)).1 = .error e) ↔ ¬r.Admits a) ∧
      ∀ a e r', r.call (add a) = (.error e, r') → r' = r := by
  intro r
  obtain ⟨g, hg, h⟩ : ∃ g : Graph, g.toRegistry = r ∧ g.Consistent :=
    ⟨_, Graph.toRegistry_ofOperations ops, Graph.consistent_ofOperations ops⟩
  have hnodup : r.outputPaths.Nodup := hg ▸ h.outputPaths_nodup
  rw [outputPaths_eq] at hnodup
  refine ⟨fun p i => ?_, hnodup, ?_, actions_foldl_perform ops {},
    placeholder_artifact_ofOperations ops, fun a => ?_, fun a e r' => eq_of_call_add_eq_error⟩
  · rw [← hg]
    exact h.generatorId?_eq_some_iff
  · rw [← hg]
    exact h.outputs_ne
  · rw [← hg]
    exact Graph.exists_call_add_eq_error_iff

/-- An action with a single output. -/
def compiling (object : String) : Action :=
  { mnemonic := "Compile", outputs := [.file (.ofString object)] }

/-- An action whose second output is that of another one. -/
def archiving : Action :=
  { mnemonic := "Archive", outputs := [.standIn (.ofString "p/b.o"), .file (.ofString "p//a.o")] }

/-- An action that is refused for its last output does not hold its first one: another action can
still write it, and it is not known as a placeholder. -/
theorem history_lateDuplicate :
    let calls : List Graph.Operation := [.add (compiling "p/a.o"), .mark (.ofString "./p//group")]
    let r := ofOperations (calls ++ [.add archiving, .add (compiling "p/b.o")])
    (ofOperations calls).call (add archiving) =
        (.error (.duplicateOutput (.ofString "p/a.o")), ofOperations calls) ∧
      r.generators.lookup (.ofString "p/b.o") = some 1 ∧
      (r.artifact (.ofString "p/b.o")).placeholder = false ∧
      (r.artifact (.ofString "p/group/")).placeholder = true := by
  intro calls r
  have hrefused : ((ofOperations calls).call (add archiving)).1 =
      .error (.duplicateOutput (.ofString "p/a.o")) := by
    decide +kernel
  obtain ⟨-, -, -, -, -, -, hkept⟩ := history_ofOperations calls
  obtain ⟨hgenerator, -, -, -, hplaceholder, -⟩ :=
    history_ofOperations (calls ++ [.add archiving, .add (compiling "p/b.o")])
  refine ⟨?_, ?_, by decide +kernel, ?_⟩
  · exact Prod.ext hrefused (hkept archiving _ _ (Prod.ext hrefused rfl))
  · exact (hgenerator _ _).2
      ⟨by decide +kernel, compiling "p/b.o", by decide +kernel, by decide +kernel⟩
  · exact (hplaceholder "p/group/").2 (.inl ⟨"./p//group", by decide +kernel, by simp [calls]⟩)

end Registry

end Provenance
