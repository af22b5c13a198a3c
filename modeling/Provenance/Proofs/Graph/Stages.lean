import Provenance.Proofs.Graph.Cycle

/-!
The stages of the check for cycles. At each of them the marks tell what is on the stack: the open paths
are those of the frames, each is read by the generator of the one below it, and what is closed depends
on closed paths only. The next root waits until the stack is empty. An open path that is come across
again is therefore found on the stack, from where the cycle is read off.
-/

namespace Provenance.Graph

open Provenance.Digraph

variable {g : Graph}

/-- The marks of a search among the dependencies of a graph are in step with its stack, which has the
innermost frame first. -/
structure InStep (g : Graph) (s : Search Path) : Prop where
  opened_iff : ∀ p, s.mark? p = some .opened ↔ p ∈ s.stack.map Frame.node
  nodup : (s.stack.map Frame.node).Nodup
  linked : (s.stack.map Frame.node).IsChain fun above below =>
    ∃ a, g.generator? below = some a ∧ above ∈ a.inputPaths
  closed_inputs : ∀ p a, s.mark? p = some .closed → g.generator? p = some a →
    ∀ q ∈ a.inputPaths, s.mark? q = some .closed

theorem inStep_of_inv {s : Search Path} (h : s.Inv g.dependencies) : g.InStep s where
  opened_iff := h.opened_iff
  nodup := h.path_nodup
  linked := h.linked.imp fun _ _ => edge_dependencies_iff.1
  closed_inputs p a hp ha q hq := h.closed_next p hp q (edge_dependencies_iff.2 ⟨a, ha, hq⟩)

/-- At every stage of the check for cycles the marks are in step with the stack. When it goes on to
the next root, or is finished, the stack is empty and nothing is open. When it comes across an open path
again, that path has a place on the stack, counted from the outermost frame, and the cycle goes from
there to the innermost frame and back. -/
theorem inStep_of_leads {s : Search Path}
    (hs : Search.Leads g.dependencies (Search.start g.outputPaths) s) :
    g.InStep s ∧
      (∀ t, s.step g.dependencies = .moved t → t.roots ≠ s.roots → s.stack = []) ∧
      (s.step g.dependencies = .finished → s.stack = []) ∧
      (s.stack = [] → ∀ p m, s.mark? p = some m → m = .closed) ∧
      ∀ cycle, s.step g.dependencies = .found cycle →
        ∃ p i, s.mark? p = some .opened ∧
          (s.stack.map Frame.node).reverse.findIdx? (· = p) = some i ∧
          cycle = (s.stack.map Frame.node).reverse.drop i ++ [p] := by
  have h : s.Inv g.dependencies := (Search.inv_start g.outputPaths).leads hs
  refine ⟨inStep_of_inv h, ?_, ?_, ?_, ?_⟩
  · exact fun t hstep hroots => (Search.move_of_step hstep).stack_eq_nil hroots
  · exact fun hstep => (Search.of_step_finished hstep).1
  · exact fun hnil p m => h.closed_of_stack_eq_nil hnil
  · exact fun cycle => h.exists_findIdx?_of_found

/-- Two actions that read each other's output, and before them one that reads from the first. -/
def readerInFront : List Operation :=
  .add { mnemonic := "C", inputs := [.file (.ofString "b")], outputs := [.file (.ofString "c")] } ::
    mutualReaders

/-- The search that has opened three paths and now comes across the second of them again. -/
def backAtSecond : Search Path where
  roots := [.ofString "b", .ofString "a"]
  stack := [⟨.ofString "a", [.ofString "b"]⟩, ⟨.ofString "b", []⟩, ⟨.ofString "c", []⟩]
  marks := [(.ofString "a", .opened), (.ofString "b", .opened), (.ofString "c", .opened)]

theorem inStep_backAtSecond :
    let g := ofOperations readerInFront
    Search.Leads g.dependencies (Search.start g.outputPaths) backAtSecond ∧
      g.InStep backAtSecond ∧
      backAtSecond.step g.dependencies =
        .found [.ofString "b", .ofString "a", .ofString "b"] ∧
      ∃ p i, backAtSecond.mark? p = some .opened ∧
        (backAtSecond.stack.map Frame.node).reverse.findIdx? (· = p) = some i ∧
        [.ofString "b", .ofString "a", .ofString "b"] =
          (backAtSecond.stack.map Frame.node).reverse.drop i ++ [p] := by
  intro g
  have hleads : Search.Leads g.dependencies (Search.start g.outputPaths) backAtSecond := by
    have hsteps : (Search.start g.outputPaths).advance g.dependencies 2 = .moved backAtSecond := by
      cbv
    exact Search.leads_of_advance hsteps
  have hfound : backAtSecond.step g.dependencies =
      .found [.ofString "b", .ofString "a", .ofString "b"] := by
    cbv
  obtain ⟨hinStep, -, -, -, hcycle⟩ := inStep_of_leads hleads
  exact ⟨hleads, hinStep, hfound, hcycle _ hfound⟩

end Provenance.Graph
