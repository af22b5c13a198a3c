import Provenance.Proofs.Graph.Identity
import Provenance.Proofs.Resolution.SingleFile

/-!
Readers of a single requested file. The file goes to the first offer that it matches, which may be one
whose target only lists it as a header. The headers are looked at offer by offer, so an action that reads
the file is printed exactly if no target lists it before the first such action is offered.
-/

namespace Provenance

open Matcher

variable {g : Graph} {ts : List Target} {r : Request} {f : String}

/-- The first offer that a file matches reads it exactly if no offer before the first reader is for
a target that lists the file. -/
theorem mem_realInputs_iff_of_first_match {front back : List Offer} {o : Offer}
    (hfront : ∀ u ∈ front, ¬Matches g f u) (ho : Matches g f o) :
    f ∈ g.realInputs o.2 ↔
      ∀ u ∈ (front ++ o :: back).takeWhile fun u => f ∉ g.realInputs u.2,
        f ∉ u.1.listedFiles Target.headers := by
  have hskip : ∀ u ∈ front, decide (f ∉ g.realInputs u.2) = true := fun u hu =>
    decide_eq_true fun hreads => hfront u hu (matches_iff.2 (.inl hreads))
  rw [List.takeWhile_append_of_pos hskip]
  constructor
  · intro hreads u hu hlists
    rw [List.takeWhile_cons_of_neg (by simpa using hreads), List.append_nil] at hu
    exact hfront u hu (matches_iff.2 (.inr hlists))
  · intro hlists
    by_contra hreads
    have hmem : o ∈ front ++ (o :: back).takeWhile fun u => f ∉ g.realInputs u.2 := by
      rw [List.takeWhile_cons_of_pos (by simpa using hreads)]
      exact List.mem_append_right front (List.mem_cons_self ..)
    exact hlists o hmem ((matches_iff.1 ho).resolve_left hreads)

namespace Graph

/-- What is printed is of an action that reads a file exactly if the printed action reads it. -/
theorem Consistent.exists_reader_iff (h : g.Consistent) {a : Action} (ha : a ∈ g.actions) :
    (∃ b ∈ g.actions, f ∈ g.realInputs b ∧ b.entry = a.entry) ↔ f ∈ g.realInputs a := by
  constructor
  · rintro ⟨b, hb, hreads, hentry⟩
    rwa [h.eq_of_entry_eq hb ha hentry] at hreads
  · exact fun hreads => ⟨a, ha, hreads, rfl⟩

end Graph

namespace Request

theorem resolve_of_first_match {tool : BuildTool} {warnings : List Warning}
    {front back : List Offer} {o : Offer}
    (hbuild : tool.build r.buildRequest = (.succeeded ts, warnings))
    (hts : ∀ t ∈ ts, t.filesToCompile ≠ []) (hmode : r.mode = .files) (hfiles : r.files = [f])
    (hallows : r.mnemonics.allows o.2) (hoffers : tool.graph.offers ts = front ++ o :: back)
    (hfront : ∀ o ∈ front, ¬Matches tool.graph f o) (ho : Matches tool.graph f o) :
    resolve tool r = (.ok ⟨[o.2.entry], true⟩, warnings) := by
  rw [resolve_of_match hbuild (accept_succeeded hts) hmode hfiles hoffers hfront ho, if_pos hallows]
  rfl

/-- A request for one file that some offered action reads prints one action. That action reads the
file exactly if no offer before the first reader is for a target that lists the file as a header. -/
theorem resolve_readFile (ops : List Graph.Operation)
    {build : BuildRequest → BuildResult × List Warning} {warnings : List Warning}
    (hbuild : build r.buildRequest = (.succeeded ts, warnings))
    (hts : ∀ t ∈ ts, t.filesToCompile ≠ []) (hmode : r.mode = .files) (hfiles : r.files = [f])
    (hmnemonics : r.mnemonics = [])
    (hreader : ∃ o ∈ (Graph.ofOperations ops).offers ts,
      f ∈ (Graph.ofOperations ops).realInputs o.2) :
    let g := Graph.ofOperations ops
    ∃ e, resolve ⟨g, build⟩ r = (.ok ⟨[e], true⟩, warnings) ∧
      ((∃ a ∈ g.actions, f ∈ g.realInputs a ∧ a.entry = e) ↔
        ∀ o ∈ (g.offers ts).takeWhile fun o => f ∉ g.realInputs o.2,
          f ∉ o.1.listedFiles Target.headers) := by
  intro g
  have hconsistent : g.Consistent := Graph.consistent_ofOperations ops
  obtain ⟨u, hu, hreads⟩ := hreader
  obtain ⟨front, o, back, hoffers, hfront, ho⟩ :=
    exists_first_match ⟨u, hu, matches_iff.2 (.inl hreads)⟩
  have hallows : r.mnemonics.allows o.2 := by
    rw [hmnemonics]
    rfl
  have hmem : o ∈ g.offers ts := by
    rw [hoffers]
    exact List.mem_append_right front (List.mem_cons_self ..)
  refine ⟨o.2.entry, resolve_of_first_match hbuild hts hmode hfiles hallows hoffers hfront ho, ?_⟩
  rw [hconsistent.exists_reader_iff (Graph.mem_actions_of_mem_offers hmem), hoffers]
  exact mem_realInputs_iff_of_first_match hfront ho

/-- An action that reads nothing. -/
def compileAlone : Action where
  mnemonic := "CompileAlone"
  outputs := [.file (.ofString "p/a.o")]

/-- An action that reads a header. -/
def compileWithHeader : Action where
  mnemonic := "CompileWithHeader"
  inputs := [.file (.ofString "p/a.h")]
  outputs := [.file (.ofString "p/b.o")]

/-- Two actions, of which only the second reads the header. -/
def lateReader : List Graph.Operation := [.add compileAlone, .add compileWithHeader]

/-- The target of both actions, which lists the header. -/
def listingTarget : Target where
  label := labelOf "lib" (by decide)
  outputGroups :=
    [(Target.compiledGroup, [.file (.ofString "p/a.o"), .file (.ofString "p/b.o")])]
  attributes := [(Target.headers, [labelOf "a.h" (by decide)])]

/-- A request for the header. -/
def headerRequest : Request :=
  { targets := ["p/a.h"], files := ["p/a.h"], mode := .files }

theorem resolve_readFile_lateReader :
    let g := Graph.ofOperations lateReader
    ∃ e, resolve ⟨g, fun _ => (.succeeded [listingTarget], [])⟩ headerRequest =
        (.ok ⟨[e], true⟩, []) ∧
      ((∃ a ∈ g.actions, "p/a.h" ∈ g.realInputs a ∧ a.entry = e) ↔
        ∀ o ∈ (g.offers [listingTarget]).takeWhile fun o => "p/a.h" ∉ g.realInputs o.2,
          "p/a.h" ∉ o.1.listedFiles Target.headers) := by
  have hts : ∀ t ∈ [listingTarget], t.filesToCompile ≠ [] := by decide
  have hreader : ∃ o ∈ (Graph.ofOperations lateReader).offers [listingTarget],
      "p/a.h" ∈ (Graph.ofOperations lateReader).realInputs o.2 := by
    decide +kernel
  exact resolve_readFile lateReader rfl hts rfl rfl rfl hreader

/-- A target that lists a header can hide the action that reads it: another action is printed. -/
theorem resolve_hiddenReader :
    let g := Graph.ofOperations lateReader
    (∀ t ∈ [listingTarget], t.filesToCompile ≠ []) ∧
      (∃ o ∈ g.offers [listingTarget], "p/a.h" ∈ g.realInputs o.2) ∧
      ∃ e, resolve ⟨g, fun _ => (.succeeded [listingTarget], [])⟩ headerRequest =
          (.ok ⟨[e], true⟩, []) ∧
        ¬∃ a ∈ g.actions, "p/a.h" ∈ g.realInputs a ∧ a.entry = e := by
  intro g
  have hts : ∀ t ∈ [listingTarget], t.filesToCompile ≠ [] := by decide
  have hreader : ∃ o ∈ g.offers [listingTarget], "p/a.h" ∈ g.realInputs o.2 := by decide +kernel
  have hoffers : g.offers [listingTarget] =
      [] ++ (listingTarget, compileAlone) :: [(listingTarget, compileWithHeader)] := by
    decide +kernel
  have hmatches : Matches g "p/a.h" (listingTarget, compileAlone) := by decide +kernel
  refine ⟨hts, hreader, _,
    resolve_of_first_match rfl hts rfl rfl rfl hoffers (List.forall_mem_nil _) hmatches, ?_⟩
  rw [(Graph.consistent_ofOperations lateReader).exists_reader_iff (by decide +kernel)]
  decide +kernel

end Request

end Provenance
