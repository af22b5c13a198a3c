import Provenance.Proofs.Resolution.Outcome

/-!
Requests with a mnemonic filter. A filter selects among the actions that the same request gathers
without one, and has no part in which files are consumed or which actions are walked through; so the
filtered request fails where the other does, and warns of the same files.
-/

namespace Provenance

theorem MnemonicFilter.allows_eq {M : MnemonicFilter} (hM : M ≠ []) (a : Action) :
    M.allows a = decide (a.mnemonic ∈ M) := by
  have hM' : M.isEmpty = false := by simpa using hM
  rw [allows, hM', Bool.false_or, List.contains_eq_mem]

namespace Matcher

variable {g : Graph} {m : Matcher}

/-- A filter has no part in what an offer consumes. -/
theorem offer_withMnemonics (hm : m.mnemonics = []) (M : MnemonicFilter) (o : Offer) :
    ({ m with mnemonics := M } : Matcher).offer g o.1 (some o.2) =
      ((m.offer g o.1 (some o.2)).1 && M.allows o.2,
        { (m.offer g o.1 (some o.2)).2 with mnemonics := M }) := by
  have hconsumed : ({ m with mnemonics := M } : Matcher).consumed? g o = m.consumed? g o := by
    rw [consumed?_eq_find?, consumed?_eq_find?]
  cases h : m.consumed? g o with
  | none =>
    rw [offer_of_consumed?_eq_none h, offer_of_consumed?_eq_none (hconsumed.trans h),
      Bool.false_and]
  | some f =>
    have hall : m.mnemonics.allows o.2 = true := by
      rw [hm]
      rfl
    rw [offer_of_consumed?_eq_some h, offer_of_consumed?_eq_some (hconsumed.trans h), hall,
      Bool.true_and]

/-- A filter selects among the actions that are found without it, and the same files are left. -/
theorem run_withMnemonics (M : MnemonicFilter) : ∀ (os : List Offer) {m : Matcher},
    m.mnemonics = [] →
    ({ m with mnemonics := M } : Matcher).run g os =
      ((m.run g os).1.filter M.allows, { (m.run g os).2 with mnemonics := M })
  | [], _, _ => rfl
  | o :: os, m, hm => by
    have hafter : (m.offer g o.1 (some o.2)).2.mnemonics = [] := mnemonics_offer.trans hm
    rw [run_cons, run_cons, offer_withMnemonics hm, run_withMnemonics M os hafter,
      List.filter_append]
    cases (m.offer g o.1 (some o.2)).1 with
    | false => rfl
    | true =>
      rw [Bool.true_and, if_pos rfl, List.filter_cons]
      rfl

end Matcher

namespace Request

variable {g : Graph} {ts : List Target}

theorem neededActions_eq_filter (g : Graph) (M : MnemonicFilter) (t : Target) :
    neededActions g M t = (neededActions g [] t).filter M.allows := by
  cases hkind : t.kind with
  | file => simp only [neededActions, hkind, List.filter_nil]
  | rule =>
    simp only [neededActions, hkind, Graph.collect, List.filterMap_filter, List.filter_filterMap]
    refine List.filterMap_congr fun i _ => ?_
    cases h : g.action? i with
    | none => simp
    | some a => simp [Option.filter_some, MnemonicFilter.allows]

/-- What a request gathers with a filter, and what is left over. -/
theorem gather_withMnemonics (r : Request) (g : Graph) (ts : List Target) (M : MnemonicFilter) :
    { r with mnemonics := M }.gather g ts =
      (({ r with mnemonics := [] }.gather g ts).1.filter M.allows,
        ({ r with mnemonics := [] }.gather g ts).2) := by
  cases hmode : r.mode with
  | files =>
    simp only [gather_eq_run]
    have hrun := Matcher.run_withMnemonics (g := g) M (g.offers ts)
      (m := { r with mnemonics := [] }.matcher) rfl
    have hfound := congrArg Prod.fst hrun
    have hleft := congrArg (·.2.pending.files) hrun
    exact Prod.ext hfound hleft
  | target =>
    simp only [gather, List.filter_flatMap]
    rw [funext (neededActions_eq_filter g M)]

/-- A filter decides which of the gathered actions are printed, and nothing else: without it the
same builds are refused, and the same files are left over. -/
theorem resolve_withMnemonics (tool : BuildTool) (r : Request) {M : MnemonicFilter}
    (hM : M ≠ []) :
    let filtered : Request := { r with mnemonics := M }
    let unfiltered : Request := { r with mnemonics := [] }
    let result := (tool.build r.buildRequest).1
    (∀ ts, r.accept result = .ok ts →
        let found := (unfiltered.gather tool.graph ts).1
        let kept := found.filter (·.mnemonic ∈ M)
        (filtered.gather tool.graph ts).1 = kept ∧
          (resolve tool filtered).1 =
            if kept = [] then .error (.noMatches r.files (ts.map Target.label))
            else .ok ⟨kept.map Action.entry, result.success⟩) ∧
      (∀ names, (resolve tool filtered).1 = .error (.buildFailed names) ↔
        (resolve tool unfiltered).1 = .error (.buildFailed names)) ∧
      (∀ label, (resolve tool filtered).1 = .error (.unsupportedTarget label) ↔
        (resolve tool unfiltered).1 = .error (.unsupportedTarget label)) ∧
      (resolve tool filtered).2 = (resolve tool unfiltered).2 := by
  intro filtered unfiltered result
  have hselects : M.allows = fun a => decide (a.mnemonic ∈ M) :=
    funext (MnemonicFilter.allows_eq hM)
  cases haccept : r.accept result with
  | error e =>
    have hfiltered : resolve tool filtered = (.error e, (tool.build r.buildRequest).2) :=
      resolve_of_refused haccept
    have hunfiltered : resolve tool unfiltered = (.error e, (tool.build r.buildRequest).2) :=
      resolve_of_refused haccept
    rw [hfiltered, hunfiltered]
    exact ⟨fun ts hts => absurd hts (by simp), fun _ => Iff.rfl, fun _ => Iff.rfl, rfl⟩
  | ok ts =>
    have hfiltered : resolve tool filtered = _ := resolve_of_accept rfl haccept
    have hunfiltered : resolve tool unfiltered = _ := resolve_of_accept rfl haccept
    rw [gather_withMnemonics, hselects] at hfiltered
    rw [hfiltered, hunfiltered]
    refine ⟨?_, fun names => ?_, fun label => ?_, rfl⟩
    · rintro us ⟨⟩
      refine ⟨?_, report_eq_ite⟩
      rw [gather_withMnemonics, hselects]
    · exact iff_of_false (fun h => nomatch eq_noMatches_of_report h)
        fun h => nomatch eq_noMatches_of_report h
    · exact iff_of_false (fun h => nomatch eq_noMatches_of_report h)
        fun h => nomatch eq_noMatches_of_report h

/-- The shared header goes to an action that the filter refuses, and the source to one that it lets
through. -/
theorem resolve_withMnemonics_sharedHeader :
    let r : Request :=
      { files := ["p/x.h", "p/b.m"], mode := .files, mnemonics := ["ObjcCompile"] }
    (resolve sharedHeader r).1 =
        .ok ⟨[(compileOf "ObjcCompile" "p/b.m" "p/b.o").entry], true⟩ ∧
      (resolve sharedHeader r).2 = (resolve sharedHeader { r with mnemonics := [] }).2 := by
  intro r
  have hM : ["ObjcCompile"] ≠ [] := by decide
  obtain ⟨haccepted, -, -, hwarnings⟩ := resolve_withMnemonics sharedHeader r hM
  obtain ⟨-, hresolve⟩ := haccepted _ accept_sharedHeader
  have hfound : ({ r with mnemonics := [] }.gather sharedHeader.graph [mixedTarget]).1 =
      [compileOf "CppCompile" "p/a.cc" "p/a.o", compileOf "ObjcCompile" "p/b.m" "p/b.o"] := by
    decide +kernel
  rw [hfound] at hresolve
  exact ⟨hresolve, hwarnings⟩

end Request

end Provenance
