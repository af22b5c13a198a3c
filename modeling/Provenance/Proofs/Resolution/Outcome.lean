import Provenance.Proofs.Matcher.Consumption
import Provenance.Resolution

/-!
The outcome of a resolution. A build is accepted if it realised targets that all compile something,
and if it succeeded or was to keep going. A resolution over an accepted build reports what it
gathers, unless that is nothing; over any other build it fails as the check of the build does.
-/

namespace Provenance.Request

variable {tool : BuildTool} {r : Request} {result : BuildResult} {ts : List Target}
  {found : List Action} {rep : Report}

theorem accept_eq_ok_iff :
    r.accept result = .ok ts ↔
      result.targets = some ts ∧ (result.success = true ∨ r.keepGoing = true) ∧
        ∀ t ∈ ts, t.filesToCompile ≠ [] := by
  cases htargets : result.targets with
  | none => simp [accept, htargets]
  | some us =>
    by_cases hgo : result.success = true ∨ r.keepGoing = true
    · cases hfind : us.find? fun t => t.filesToCompile.isEmpty with
      | none =>
        have hall : ∀ t ∈ us, t.filesToCompile ≠ [] := by simpa using hfind
        simp only [accept, htargets, Bool.or_eq_true, hgo, if_true, hfind, Except.ok.injEq,
          Option.some.injEq, true_and]
        exact ⟨fun h => ⟨h, h ▸ hall⟩, fun h => h.1⟩
      | some t =>
        have hempty : t.filesToCompile = [] := by simpa using List.find?_some hfind
        simp only [accept, htargets, Bool.or_eq_true, hgo, if_true, hfind, Option.some.injEq,
          true_and, reduceCtorEq, false_iff]
        rintro ⟨rfl, hall⟩
        exact hall t (List.mem_of_find?_eq_some hfind) hempty
    · simp [accept, htargets, hgo]

theorem accept_succeeded (h : ∀ t ∈ ts, t.filesToCompile ≠ []) :
    r.accept (.succeeded ts) = .ok ts :=
  accept_eq_ok_iff.2 ⟨rfl, .inl rfl, h⟩

theorem report_eq_ite :
    r.report result ts found =
      if found = [] then .error (.noMatches r.files (ts.map Target.label))
      else .ok ⟨found.map Action.entry, result.success⟩ := by
  simp only [report, List.isEmpty_iff]

theorem report_eq_ok_iff :
    r.report result ts found = .ok rep ↔
      found ≠ [] ∧ rep = ⟨found.map Action.entry, result.success⟩ := by
  rw [report_eq_ite]
  split
  · simp [*]
  · simp [*, eq_comm]

/-- The only error of a report is that nothing was found. -/
theorem eq_noMatches_of_report {e : ResolutionError} (h : r.report result ts found = .error e) :
    e = .noMatches r.files (ts.map Target.label) := by
  rw [report_eq_ite] at h
  split at h
  · cases h
    rfl
  · cases h

/-- A build that is not accepted leaves nothing to report. -/
theorem resolve_of_refused {e : ResolutionError}
    (h : r.accept (tool.build r.buildRequest).1 = .error e) :
    resolve tool r = (.error e, (tool.build r.buildRequest).2) := by
  simp only [resolve, h]

/-- Once a build is accepted, a resolution is what it gathers. -/
theorem resolve_of_accept {warnings : List Warning}
    (hbuild : tool.build r.buildRequest = (result, warnings)) (haccept : r.accept result = .ok ts) :
    resolve tool r = (r.report result ts (r.gather tool.graph ts).1,
      warnings ++ if (r.gather tool.graph ts).2.isEmpty then []
        else [.unmatched (r.gather tool.graph ts).2]) := by
  rw [resolve, hbuild]
  simp only [haccept]

/-- A resolution gives a report exactly if the build is accepted and something was gathered. -/
theorem resolve_eq_ok_iff :
    (resolve tool r).1 = .ok rep ↔
      ∃ ts, r.accept (tool.build r.buildRequest).1 = .ok ts ∧
        (r.gather tool.graph ts).1 ≠ [] ∧
        rep = ⟨(r.gather tool.graph ts).1.map Action.entry,
          (tool.build r.buildRequest).1.success⟩ := by
  cases haccept : r.accept (tool.build r.buildRequest).1 with
  | error e => simp [resolve_of_refused haccept]
  | ok ts => simp [resolve_of_accept rfl haccept, report_eq_ok_iff]

/-- The matcher that a request for files starts from. -/
def matcher (r : Request) : Matcher := ⟨.ofList r.files, r.mnemonics⟩

theorem files_matcher : r.matcher.pending.files = r.files.eraseDups :=
  PendingFiles.files_ofList r.files

/-- To resolve a request for files is to show its matcher the offers of the targets. -/
theorem gather_eq_run {g : Graph} (hmode : r.mode = .files) :
    r.gather g ts =
      ((r.matcher.run g (g.offers ts)).1, (r.matcher.run g (g.offers ts)).2.pending.files) := by
  rw [gather, hmode]
  simp only [Matcher.gatherAll_eq_run]
  rfl

/-- The label of a name in the package of the sources. -/
def labelOf (name : String) (h : name ≠ "") : Label where
  package := "p"
  name := name
  colon_not_mem := by decide
  package_trimmed := by decide
  name_ne := h

/-- The compilation of a source that reads a shared header before it. -/
def compileOf (mnemonic source object : String) : Action where
  mnemonic := mnemonic
  inputs := [.file (.ofString "p/x.h"), .file (.ofString source)]
  outputs := [.file (.ofString object)]

/-- The target of two sources. -/
def mixedTarget : Target where
  label := labelOf "mixed" (by decide)
  outputGroups :=
    [(Target.compiledGroup, [.file (.ofString "p/a.o"), .file (.ofString "p/b.o")])]

/-- A finished build of one target, with two sources of different kinds that share a header. -/
def sharedHeader : BuildTool where
  graph := .ofOperations [
    .add (compileOf "CppCompile" "p/a.cc" "p/a.o"),
    .add (compileOf "ObjcCompile" "p/b.m" "p/b.o")]
  build _ := (.succeeded [mixedTarget], [])

theorem accept_sharedHeader : r.accept (.succeeded [mixedTarget]) = .ok [mixedTarget] :=
  accept_succeeded (by decide)

/-- A request for the first source is answered by its compilation. -/
theorem gather_sharedHeader (targets : List String) (keepGoing : Bool) :
    (gather { targets, files := ["p/a.cc"], mode := .files, keepGoing } sharedHeader.graph
        [mixedTarget]).1 = [compileOf "CppCompile" "p/a.cc" "p/a.o"] := by
  change (gather { files := ["p/a.cc"], mode := .files } sharedHeader.graph [mixedTarget]).1 = _
  decide +kernel

end Provenance.Request
