import Provenance.Proofs.Matcher.Ledger
import Provenance.Proofs.Resolution.Outcome

/-!
The account of a request for files. Every requested file is answered by an entry of its own, or went
to an action that the filter refused, or is warned of as unmatched.
-/

namespace Provenance

/-- An action that may be printed for a file: the filter lets it through, and it compiles a file of a
target, of which it reads the file or which lists it as a header. -/
structure Graph.Answers (g : Graph) (ts : List Target) (mnemonics : MnemonicFilter) (a : Action)
    (file : String) : Prop where
  allowed : mnemonics.allows a = true
  compiles : ∃ t ∈ ts, (∃ x ∈ t.filesToCompile, g.generator? x.path = some a) ∧
    (file ∈ g.realInputs a ∨ file ∈ t.listedFiles Target.headers)

namespace Request

variable {r : Request} {g : Graph} {ts : List Target}

/-- The files of a request that no offer consumes are left over, in order of their first mention. -/
theorem gather_files_left (hmode : r.mode = .files) :
    (r.gather g ts).2 =
      r.files.eraseDups.filter (· ∉ (r.matcher.ledger g (g.offers ts)).map Prod.snd) := by
  rw [gather_eq_run hmode, ← files_matcher]
  exact Matcher.pending_run_eq_filter (g.offers ts) r.matcher

/-- An entry of the ledger accounts for its file. -/
theorem answers_of_mem_ledger {e : Offer × String}
    (he : e ∈ r.matcher.ledger g (g.offers ts)) (hallowed : r.mnemonics.allows e.1.2 = true) :
    e.2 ∈ r.files.eraseDups ∧ g.Answers ts r.mnemonics e.1.2 e.2 := by
  obtain ⟨hoffer, hpending, hmatches⟩ := Matcher.of_mem_ledger he
  obtain ⟨ht, hcompiles⟩ := Graph.mem_offers.1 hoffer
  refine ⟨?_, hallowed, e.1.1, ht, hcompiles, Matcher.matches_iff.1 hmatches⟩
  rwa [files_matcher] at hpending

/-- Every requested file is accounted for once: it is the one file of a printed action that answers
for it, or it was consumed by an action that the filter refused, or it is warned of. -/
theorem resolve_accounts (tool : BuildTool) {r : Request} {ts : List Target}
    (hmode : r.mode = .files) (haccept : r.accept (tool.build r.buildRequest).1 = .ok ts) :
    let g := tool.graph
    let requested := r.files.eraseDups
    let ledger := r.matcher.ledger g (g.offers ts)
    let printed := (r.gather g ts).1
    let unmatched := requested.filter (· ∉ ledger.map Prod.snd)
    (∃ file : Fin printed.length → String, Function.Injective file ∧
        ∀ i, file i ∈ requested ∧ g.Answers ts r.mnemonics (printed.get i) (file i)) ∧
      resolve tool r =
        (if printed = [] then .error (.noMatches r.files (ts.map Target.label))
          else .ok ⟨printed.map Action.entry, (tool.build r.buildRequest).1.success⟩,
        (tool.build r.buildRequest).2 ++ if unmatched = [] then [] else [.unmatched unmatched]) ∧
      requested.length =
        printed.length + (ledger.filter fun e => !r.mnemonics.allows e.1.2).length +
          unmatched.length := by
  intro g requested ledger printed unmatched
  have hprinted : printed = (r.matcher.run g (g.offers ts)).1 :=
    congrArg Prod.fst (gather_eq_run hmode)
  refine ⟨?_, ?_, ?_⟩
  · -- the files of the printed entries of the ledger
    rw [hprinted]
    obtain ⟨file, hinjective, hfile⟩ := Matcher.exists_injective_files (g.offers ts) r.matcher
    refine ⟨file, hinjective, fun i => ?_⟩
    obtain ⟨e, he, hallowed, haction, hassigned⟩ := hfile i
    rw [← haction, ← hassigned]
    exact answers_of_mem_ledger he hallowed
  · rw [resolve_of_accept rfl haccept, report_eq_ite, gather_files_left hmode]
    simp only [List.isEmpty_iff]
    rfl
  · have hlength := Matcher.length_pending_eq (g := g) (g.offers ts) r.matcher
    rw [Matcher.pending_run_eq_filter, files_matcher] at hlength
    rw [hprinted]
    exact hlength

/-- Of three files, one of them requested twice, the header goes to an action that is refused, one
source is printed for, and one is unmatched. -/
theorem resolve_accounts_sharedHeader :
    let r : Request :=
      { files := ["p/x.h", "p/b.m", "p/none.m", "p/x.h"], mode := .files,
        mnemonics := ["ObjcCompile"] }
    r.accept (sharedHeader.build r.buildRequest).1 = .ok [mixedTarget] ∧
      resolve sharedHeader r =
        (.ok ⟨[(compileOf "ObjcCompile" "p/b.m" "p/b.o").entry], true⟩,
          [.unmatched ["p/none.m"]]) ∧
      r.files.eraseDups.length = 1 + 1 + 1 := by
  intro r
  have haccept : r.accept (sharedHeader.build r.buildRequest).1 = .ok [mixedTarget] :=
    accept_sharedHeader
  obtain ⟨-, hresolve, hcount⟩ := resolve_accounts sharedHeader rfl haccept
  have hprinted : (r.gather sharedHeader.graph [mixedTarget]).1 =
      [compileOf "ObjcCompile" "p/b.m" "p/b.o"] := by
    decide +kernel
  have hledger : r.matcher.ledger sharedHeader.graph (sharedHeader.graph.offers [mixedTarget]) =
      [((mixedTarget, compileOf "CppCompile" "p/a.cc" "p/a.o"), "p/x.h"),
        ((mixedTarget, compileOf "ObjcCompile" "p/b.m" "p/b.o"), "p/b.m")] := by
    decide +kernel
  rw [hprinted, hledger] at hresolve hcount
  exact ⟨haccept, hresolve, hcount⟩

end Request

end Provenance
