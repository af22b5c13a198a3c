import Provenance.Proofs.Graph.Expansion
import Provenance.Proofs.Resolution.Outcome

/-!
Requests for one file. Of the actions that are offered, target by target, the first one that reads the
file, or whose target declares it as a header, is the answer. The request fails without a match, with a
warning of the file, and fails as well if the filter refuses the answer; the file is spent then, and no
later offer stands in.
-/

namespace Provenance

open Matcher

variable {g : Graph} {a : Action} {t : Target} {o : Offer} {ts : List Target} {r : Request} {f : String}

/-- An action reads a file if a trail leads from its inputs to a real artifact at the path. -/
def Graph.Reads (g : Graph) (a : Action) (f : String) : Prop :=
  ∃ x trail, g.Trail a.inputs x trail ∧ x.placeholder = false ∧ x.path.toString = f

/-- A target declares a file if a label among its headers means the file. -/
def Target.Declares (t : Target) (f : String) : Prop :=
  ∃ labels, t.attribute? Target.headers = some labels ∧ ∃ l ∈ labels, l.pathText = f

/-- An offer covers a file that its action reads, and one that its target declares. -/
def Graph.Covers (g : Graph) (o : Offer) (f : String) : Prop := g.Reads o.2 f ∨ o.1.Declares f

theorem Graph.reads_iff : g.Reads a f ↔ f ∈ g.realInputs a := by
  rw [Graph.realInputs, List.mem_map]
  constructor
  · rintro ⟨x, trail, htrail, hreal, hpath⟩
    exact ⟨x, mem_expand_iff.2 ⟨hreal, trail, htrail⟩, hpath⟩
  · rintro ⟨x, hx, hpath⟩
    obtain ⟨hreal, trail, htrail⟩ := mem_expand_iff.1 hx
    exact ⟨x, trail, htrail, hreal, hpath⟩

theorem Target.declares_iff : t.Declares f ↔ f ∈ t.listedFiles Target.headers :=
  Target.mem_listedFiles_iff.symm

/-- The offers that cover a file are those that the file matches. -/
theorem Graph.covers_iff_matches : g.Covers o f ↔ Matches g f o := by
  rw [Graph.Covers, Graph.reads_iff, Target.declares_iff, matches_iff]

instance : Decidable (g.Covers o f) := decidable_of_iff _ Graph.covers_iff_matches.symm

namespace Request

variable {tool : BuildTool} {result : BuildResult} {warnings : List Warning} {front back : List Offer}

theorem pending_matcher_of_single (hfiles : r.files = [f]) : r.matcher.pending.files = [f] := by
  rw [files_matcher, hfiles]
  rfl

/-- A request for one file gathers the action of the first offer that matches it, if the filter lets the
action through, and nothing is left over. -/
theorem gather_of_first_match (hmode : r.mode = .files) (hfiles : r.files = [f])
    (hoffers : g.offers ts = front ++ o :: back) (hfront : ∀ u ∈ front, ¬Matches g f u)
    (ho : Matches g f o) : r.gather g ts = (if r.mnemonics.allows o.2 then [o.2] else [], []) := by
  have hpending := pending_matcher_of_single hfiles
  rw [gather_eq_run hmode, hoffers, run_of_first_match hpending hfront ho]
  refine Prod.ext rfl ?_
  simp [PendingFiles.erase, hpending]

/-- Without a match, a request for one file gathers nothing, and the file is left over. -/
theorem gather_of_no_match (hmode : r.mode = .files) (hfiles : r.files = [f])
    (h : ∀ u ∈ g.offers ts, ¬Matches g f u) : r.gather g ts = ([], [f]) := by
  have hpending := pending_matcher_of_single hfiles
  have hnone : ∀ u ∈ g.offers ts, ∀ x ∈ r.matcher.pending.files, ¬Matches g x u := by
    intro u hu x hx
    rw [hpending, List.mem_singleton] at hx
    rw [hx]
    exact h u hu
  rw [gather_eq_run hmode, run_of_not_matches hnone, hpending]

theorem resolve_of_match (hbuild : tool.build r.buildRequest = (result, warnings))
    (haccept : r.accept result = .ok ts) (hmode : r.mode = .files) (hfiles : r.files = [f])
    (hoffers : tool.graph.offers ts = front ++ o :: back)
    (hfront : ∀ u ∈ front, ¬Matches tool.graph f u) (ho : Matches tool.graph f o) :
    resolve tool r =
      (if r.mnemonics.allows o.2 then .ok ⟨[o.2.entry], result.success⟩
        else .error (.noMatches r.files (ts.map Target.label)), warnings) := by
  rw [resolve_of_accept hbuild haccept, gather_of_first_match hmode hfiles hoffers hfront ho]
  refine Prod.ext ?_ (List.append_nil warnings)
  cases r.mnemonics.allows o.2 with
  | false => rfl
  | true => rfl

/-- A request for one file, over a build whose targets are accepted, is answered by the first offer that
covers the file. If the filter lets its action through, the report consists of that action, and otherwise
the request fails, whatever is offered later; in neither case is the file warned of. If no offer covers the
file, the request fails with a warning of it. -/
theorem resolve_singleFile (hbuild : tool.build r.buildRequest = (result, warnings))
    (htargets : result.targets = some ts) (hgo : result.success = true ∨ r.keepGoing = true)
    (hts : ∀ t ∈ ts, t.filesToCompile ≠ []) (hmode : r.mode = .files) (hfiles : r.files = [f]) :
    let g := tool.graph
    let noMatches : Except ResolutionError Report :=
      .error (.noMatches [f] (ts.map Target.label))
    ((∀ o ∈ g.offers ts, ¬g.Covers o f) →
        resolve tool r = (noMatches, warnings ++ [.unmatched [f]])) ∧
      ∀ front o back, g.offers ts = front ++ o :: back → (∀ u ∈ front, ¬g.Covers u f) →
        g.Covers o f →
        resolve tool r =
          (if r.mnemonics.allows o.2 then .ok ⟨[o.2.entry], result.success⟩ else noMatches,
            warnings) := by
  intro g noMatches
  have haccept : r.accept result = .ok ts := accept_eq_ok_iff.2 ⟨htargets, hgo, hts⟩
  simp only [Graph.covers_iff_matches]
  constructor
  · intro hnone
    rw [resolve_of_accept hbuild haccept, gather_of_no_match hmode hfiles hnone]
    refine Prod.ext ?_ rfl
    rw [report_eq_ite, if_pos rfl, hfiles]
  · intro front o back hoffers hfront ho
    rw [resolve_of_match hbuild haccept hmode hfiles hoffers hfront ho, hfiles]

/-- The compilation of a source that reads headers through a scheduling placeholder. -/
def compileBehind (mnemonic source object : String) : Action where
  mnemonic := mnemonic
  inputs := [.file (.ofString source), .standIn (.ofString "p/headers")]
  outputs := [.file (.ofString object)]

/-- A target that compiles a file without a generator besides an object. -/
def documentedTarget : Target where
  label := labelOf "documented" (by decide)
  outputGroups :=
    [(Target.compiledGroup, [.file (.ofString "p/doc.txt"), .file (.ofString "p/a.o")])]

/-- A target that declares a header which no action reads. -/
def declaringTarget : Target where
  label := labelOf "declaring" (by decide)
  outputGroups := [(Target.compiledGroup, [.file (.ofString "p/b.o")])]
  attributes := [(Target.headers, [labelOf "y.h" (by decide)])]

/-- A build that failed for one target and realised two others, which read the same header behind a
placeholder. -/
def scheduledHeader : BuildTool where
  graph := .ofOperations [
    .add { mnemonic := "Schedule", inputs := [.file (.ofString "p/x.h")]
           outputs := [.standIn (.ofString "p/headers")], indirection := .scheduling },
    .add (compileBehind "CppCompile" "p/a.cc" "p/a.o"),
    .add (compileBehind "ObjcCompile" "p/b.m" "p/b.o")]
  build _ := (⟨some [documentedTarget, declaringTarget], false⟩,
    [.failedTarget (labelOf "broken" (by decide))])

/-- The header goes to the first compilation, which is refused although the second one would be let
through. The declared header goes to the second one, and a file that nothing covers is warned of. -/
theorem resolve_singleFile_scheduledHeader :
    let request (f : String) : Request :=
      { files := [f], mode := .files, mnemonics := ["ObjcCompile"], keepGoing := true }
    let failed : Warning := .failedTarget (labelOf "broken" (by decide))
    let labels := [documentedTarget.label, declaringTarget.label]
    resolve scheduledHeader (request "p/x.h") = (.error (.noMatches ["p/x.h"] labels), [failed]) ∧
      resolve scheduledHeader (request "p/y.h") =
        (.ok ⟨[(compileBehind "ObjcCompile" "p/b.m" "p/b.o").entry], false⟩, [failed]) ∧
      resolve scheduledHeader (request "p/z.h") =
        (.error (.noMatches ["p/z.h"] labels), [failed, .unmatched ["p/z.h"]]) := by
  intro request failed labels
  have hts : ∀ t ∈ [documentedTarget, declaringTarget], t.filesToCompile ≠ [] := by decide
  have hoffers : scheduledHeader.graph.offers [documentedTarget, declaringTarget] =
      [(documentedTarget, compileBehind "CppCompile" "p/a.cc" "p/a.o"),
        (declaringTarget, compileBehind "ObjcCompile" "p/b.m" "p/b.o")] := by
    decide +kernel
  have hfirst : scheduledHeader.graph.Covers
      (documentedTarget, compileBehind "CppCompile" "p/a.cc" "p/a.o") "p/x.h" := by
    decide +kernel
  have hother : ¬scheduledHeader.graph.Covers
      (documentedTarget, compileBehind "CppCompile" "p/a.cc" "p/a.o") "p/y.h" := by
    decide +kernel
  have hsecond : scheduledHeader.graph.Covers
      (declaringTarget, compileBehind "ObjcCompile" "p/b.m" "p/b.o") "p/y.h" := by
    decide +kernel
  have hnone : ∀ o ∈ scheduledHeader.graph.offers [documentedTarget, declaringTarget],
      ¬scheduledHeader.graph.Covers o "p/z.h" := by
    decide +kernel
  refine ⟨?_, ?_, ?_⟩
  · exact (resolve_singleFile (r := request "p/x.h") rfl rfl (.inr rfl) hts rfl rfl).2
      [] _ _ hoffers (List.forall_mem_nil _) hfirst
  · exact (resolve_singleFile (r := request "p/y.h") rfl rfl (.inr rfl) hts rfl rfl).2
      [_] _ [] hoffers (List.forall_mem_singleton.2 hother) hsecond
  · exact (resolve_singleFile (r := request "p/z.h") rfl rfl (.inr rfl) hts rfl rfl).1 hnone

end Request

end Provenance
