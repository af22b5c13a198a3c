import Provenance.Proofs.Action.Key
import Provenance.Proofs.Graph.Agreement
import Provenance.Report

/-!
What tells an action from the others of its graph. No two actions of a graph write the same paths, so
what is printed of an action is printed of no other one, and neither are the bytes behind its key those
of another one. Two actions of a graph can be printed under one key only where the digest is the same
for different bytes.
-/

namespace Provenance

/-- Actions of different numbers are shown by different texts. -/
theorem ActionId.text_injective : Function.Injective ActionId.text := by
  intro i j h
  have hdigits : toString i = toString j := (String.append_right_inj "#").1 h
  exact Nat.repr_injective hdigits

namespace Graph

variable {g : Graph} {a b : Action} {i j : ActionId}

theorem outputPaths_eq_of_entry_eq (h : a.entry = b.entry) : a.outputPaths = b.outputPaths :=
  List.map_injective_iff.2 Path.toString_injective (congrArg Entry.outputs h)

/-- Actions that write the same paths are one. -/
theorem Consistent.eq_of_outputPaths_eq (h : g.Consistent) (ha : a ∈ g.actions)
    (hb : b ∈ g.actions) (hpaths : a.outputPaths = b.outputPaths) : a = b := by
  obtain ⟨p, hp⟩ := h.exists_mem_outputPaths ha
  exact h.eq_of_mem_outputPaths ha hb hp (hpaths ▸ hp)

/-- What is printed of an action tells it from every other action of the graph. -/
theorem Consistent.eq_of_entry_eq (h : g.Consistent) (ha : a ∈ g.actions) (hb : b ∈ g.actions)
    (hentry : a.entry = b.entry) : a = b :=
  h.eq_of_outputPaths_eq ha hb (outputPaths_eq_of_entry_eq hentry)

/-- No two actions of a graph have the same bytes behind their keys. -/
theorem Consistent.eq_of_keyBytes_eq (h : g.Consistent) (hi : g.action? i = some a)
    (hj : g.action? j = some b) (hbytes : a.keyBytes = b.keyBytes) : i = j := by
  obtain ⟨-, -, -, -, hpaths, -⟩ := Action.keyBytes_eq_iff.1 hbytes
  have hab : a = b :=
    h.eq_of_outputPaths_eq (List.mem_of_getElem? hi) (List.mem_of_getElem? hj) hpaths
  exact h.action?_injective hi (hab ▸ hj)

/-- The bytes behind a key lose nothing of an action but the placeholder marks of its artifacts. So
the actions of a graph all have different bytes, and different keys as well, if the digest tells those
bytes apart. -/
theorem keyBytes_identify :
    (∀ a b : Action, a.keyBytes = b.keyBytes ↔ a.mnemonic = b.mnemonic ∧ a.owner = b.owner ∧
        a.arguments = b.arguments ∧ a.inputPaths = b.inputPaths ∧ a.outputPaths = b.outputPaths ∧
        a.indirection = b.indirection) ∧
      ∀ ops, let g := ofOperations ops
        (∀ i j a b, g.action? i = some a → g.action? j = some b → a.keyBytes = b.keyBytes → i = j) ∧
        ((∀ a ∈ g.actions, ∀ b ∈ g.actions,
            Sha256.digest a.keyBytes = Sha256.digest b.keyBytes → a.keyBytes = b.keyBytes) →
          ∀ i j a b, g.action? i = some a → g.action? j = some b → a.entry.id = b.entry.id → i = j) := by
  refine ⟨fun a b => Action.keyBytes_eq_iff, fun ops => ?_⟩
  intro g
  have h : g.Consistent := consistent_ofOperations ops
  refine ⟨fun i j a b => h.eq_of_keyBytes_eq, fun hdigest i j a b hi hj hid => ?_⟩
  refine h.eq_of_keyBytes_eq hi hj (hdigest a ?_ b ?_ (Sha256.hex_injective hid))
  · exact List.mem_of_getElem? hi
  · exact List.mem_of_getElem? hj

/-- A command that writes one file. -/
def running (arguments : List String) (output : String) : Action :=
  { mnemonic := "Run", arguments, outputs := [.file (.ofString output)] }

/-- Two commands whose fields hold what looks like the count or the tag of another field are printed
under different keys. -/
theorem keyBytes_identify_cutElsewhere :
    let g := ofOperations [.add (running ["1:a", "outputs"] "b"), .add (running ["1:aoutputs"] "1:b")]
    (∀ a ∈ g.actions, ∀ b ∈ g.actions,
        Sha256.digest a.keyBytes = Sha256.digest b.keyBytes → a.keyBytes = b.keyBytes) ∧
      (running ["1:a", "outputs"] "b").entry.id ≠ (running ["1:aoutputs"] "1:b").entry.id := by
  intro g
  have hdigest : ∀ a ∈ g.actions, ∀ b ∈ g.actions,
      Sha256.digest a.keyBytes = Sha256.digest b.keyBytes → a.keyBytes = b.keyBytes := by
    decide +kernel
  refine ⟨hdigest, fun hid => ?_⟩
  have hsame : 0 = 1 := (keyBytes_identify.2 _).2 hdigest 0 1 _ _ rfl rfl hid
  cases hsame

end Graph

end Provenance
