import Provenance.Proofs.Resolution.Outcome
import Provenance.Workspace

/-!
Builds that keep going. Such a build passes over the names that have no buildable target, and has
failed if there are any; any other build stops at the first of them. So the two builds differ only
where one has failed and the other has stopped, and a report on a build that succeeded does not
depend on the choice.
-/

namespace Provenance

namespace Workspace

variable {w : Workspace} {r : BuildRequest} {realised : List Target} {success : Bool}
  {names : List String}

/-- Every requested name has a buildable target. -/
def Realises (w : Workspace) (files : Bool) (names : List String) : Prop :=
  ∀ name ∈ names, ∃ t, w.realise files name = .ok t

theorem realises_cons {files : Bool} {name : String} :
    w.Realises files (name :: names) ↔
      (∃ t, w.realise files name = .ok t) ∧ w.Realises files names :=
  List.forall_mem_cons

/-- A name without a buildable target rules the whole list out. -/
theorem not_realises_cons {files : Bool} {name : String} {warning : Warning}
    (h : w.realise files name = .error warning) : ¬w.Realises files (name :: names) := by
  rw [realises_cons, h]
  rintro ⟨⟨t, ⟨⟩⟩, -⟩

/-- Where every name has a buildable target, there is nothing to keep going past. -/
theorem buildFrom_of_realises (keepGoing : Bool) : ∀ {names : List String}
    {realised : List Target} {success : Bool}, w.Realises r.compileOneDependency names →
    w.buildFrom { r with keepGoing } realised success names =
      w.buildFrom r realised success names
  | [], _, _, _ => rfl
  | name :: names, _, _, h => by
    obtain ⟨⟨t, ht⟩, hnames⟩ := realises_cons.1 h
    simp only [buildFrom, ht]
    exact buildFrom_of_realises keepGoing hnames

/-- A build that is not to keep going stops at a name without a buildable target. -/
theorem buildFrom_of_not_realises (hstop : r.keepGoing = false) : ∀ {names : List String}
    {realised : List Target} {success : Bool}, ¬w.Realises r.compileOneDependency names →
    (w.buildFrom r realised success names).1 = .aborted
  | [], _, _, h => absurd (List.forall_mem_nil _) h
  | name :: names, _, _, h => by
    cases hname : w.realise r.compileOneDependency name with
    | error warning => simp only [buildFrom, hname, hstop, Bool.false_eq_true, if_false]
    | ok t =>
      simp only [buildFrom, hname]
      refine buildFrom_of_not_realises hstop fun hnames => h ?_
      exact realises_cons.2 ⟨⟨t, hname⟩, hnames⟩

/-- A build that keeps going succeeds exactly if the recorded one did and every name has a buildable
target. -/
theorem success_buildFrom_iff (hgo : r.keepGoing = true) : ∀ {names : List String}
    {realised : List Target} {success : Bool},
    (w.buildFrom r realised success names).1.success = true ↔
      success = true ∧ w.Realises r.compileOneDependency names
  | [], _, _ => (and_iff_left (List.forall_mem_nil _)).symm
  | name :: names, _, _ => by
    cases hname : w.realise r.compileOneDependency name with
    | error warning =>
      simp only [buildFrom, hname, hgo, if_true, success_buildFrom_iff hgo]
      exact iff_of_false (fun h => Bool.false_ne_true h.1) fun h => not_realises_cons hname h.2
    | ok t =>
      simp only [buildFrom, hname, success_buildFrom_iff hgo, realises_cons]
      simp

/-- To keep going makes no difference, except between a build that failed and one that stopped. -/
theorem build_keepGoing (w : Workspace) (r : BuildRequest) :
    w.build { r with keepGoing := false } = w.build { r with keepGoing := true } ∨
      (w.build { r with keepGoing := false }).1 = .aborted ∧
        (w.build { r with keepGoing := true }).1.success = false := by
  by_cases h : w.Realises r.compileOneDependency r.names
  · exact .inl (buildFrom_of_realises (r := { r with keepGoing := true }) false h)
  · refine .inr ⟨buildFrom_of_not_realises rfl h, ?_⟩
    rw [← Bool.not_eq_true, build, success_buildFrom_iff rfl]
    exact fun hsuccess => h hsuccess.2

end Workspace

namespace Request

variable {r : Request} {rep : Report}

/-- Over a build that succeeds whether it is to keep going or not, the choice is not looked at. -/
theorem resolve_keepGoing_of_success {tool : BuildTool}
    (hbuild : tool.build { r with keepGoing := false }.buildRequest =
      tool.build { r with keepGoing := true }.buildRequest)
    (hsuccess : (tool.build { r with keepGoing := true }.buildRequest).1.success = true) :
    resolve tool { r with keepGoing := false } = resolve tool { r with keepGoing := true } := by
  have haccept (result : BuildResult) (h : result.success = true) :
      { r with keepGoing := false }.accept result = { r with keepGoing := true }.accept result := by
    simp only [accept, h, Bool.true_or]
  rw [resolve, resolve, hbuild]
  simp only [haccept _ hsuccess]
  rfl

/-- A report without keeping going is on a build that would also have succeeded with it. -/
theorem success_of_resolve_stopping {w : Workspace}
    (h : (resolve w.tool { r with keepGoing := false }).1 = .ok rep) :
    (w.build { r.buildRequest with keepGoing := true }).1.success = true := by
  obtain ⟨ts, haccept, -, -⟩ := resolve_eq_ok_iff.1 h
  obtain ⟨-, hgo, -⟩ := accept_eq_ok_iff.1 haccept
  have hsuccess : (w.build { r.buildRequest with keepGoing := false }).1.success = true :=
    hgo.resolve_right Bool.false_ne_true
  obtain hbuild | ⟨haborted, -⟩ := w.build_keepGoing r.buildRequest
  · rwa [hbuild] at hsuccess
  · rw [haborted] at hsuccess
    cases hsuccess

/-- To keep going changes nothing about a build that succeeded: the same report is given, with the
same warnings, and a report on any other build is only given for the sake of keeping going. -/
theorem resolve_keepGoing_iff (w : Workspace) (r : Request) :
    let stopping := resolve w.tool { r with keepGoing := false }
    let going := resolve w.tool { r with keepGoing := true }
    (∀ rep, stopping.1 = .ok rep ↔ going.1 = .ok rep ∧ rep.buildSucceeded = true) ∧
      (∀ rep, stopping.1 = .ok rep → stopping.2 = going.2) ∧
      ∀ rep, (resolve w.tool r).1 = .ok rep → rep.buildSucceeded = false → r.keepGoing = true := by
  intro stopping going
  have hsame (hsuccess : (w.build { r.buildRequest with keepGoing := true }).1.success = true) :
      stopping = going := by
    obtain hbuild | ⟨-, hfailed⟩ := w.build_keepGoing r.buildRequest
    · exact resolve_keepGoing_of_success hbuild hsuccess
    · exact absurd (hfailed.symm.trans hsuccess) Bool.false_ne_true
  have hreported {rep : Report} (h : going.1 = .ok rep) :
      (w.build { r.buildRequest with keepGoing := true }).1.success = rep.buildSucceeded := by
    obtain ⟨ts, -, -, rfl⟩ := resolve_eq_ok_iff.1 h
    rfl
  have hiff (rep : Report) :
      stopping.1 = .ok rep ↔ going.1 = .ok rep ∧ rep.buildSucceeded = true := by
    constructor
    · intro h
      have hsuccess := success_of_resolve_stopping h
      rw [hsame hsuccess] at h
      exact ⟨h, (hreported h).symm.trans hsuccess⟩
    · rintro ⟨h, hsucceeded⟩
      rw [hsame ((hreported h).trans hsucceeded)]
      exact h
  refine ⟨hiff, fun rep h => congrArg Prod.snd (hsame (success_of_resolve_stopping h)), ?_⟩
  -- without keeping going the report would be of a build that succeeded
  intro rep h hfailed
  by_contra hstop
  have hr : r = { r with keepGoing := false } := by
    rw [← Bool.eq_false_of_not_eq_true hstop]
  rw [hr] at h
  exact absurd (hfailed.symm.trans ((hiff rep).1 h).2) Bool.false_ne_true

/-- A report on a build that succeeded is the same for a build that is to keep going. With an unknown
name among the requested ones, the report is on a build that failed, and there is none for a build that
is not to keep going. -/
theorem resolve_keepGoing_unknownName :
    let w : Workspace := ⟨sharedHeader.graph, [mixedTarget], [], true⟩
    let known : Request := { targets := ["//p:mixed"], files := ["p/a.cc"], mode := .files }
    let unknown : Request := { known with targets := ["//p:mixed", "//p:none"] }
    let printed := (compileOf "CppCompile" "p/a.cc" "p/a.o").entry
    (resolve w.tool { known with keepGoing := true }).1 = .ok ⟨[printed], true⟩ ∧
      resolve w.tool { known with keepGoing := false } =
        resolve w.tool { known with keepGoing := true } ∧
      (resolve w.tool { unknown with keepGoing := true }).1 = .ok ⟨[printed], false⟩ ∧
      ∀ rep, (resolve w.tool { unknown with keepGoing := false }).1 ≠ .ok rep := by
  intro w known unknown printed
  have hreport (targets : List String) (b : Bool)
      (hbuild : (w.build { known with targets, keepGoing := true }.buildRequest).1 =
        ⟨some [mixedTarget], b⟩) :
      (resolve w.tool { known with targets, keepGoing := true }).1 = .ok ⟨[printed], b⟩ := by
    have hgather : ({ known with targets, keepGoing := true }.gather w.tool.graph [mixedTarget]).1 =
        [compileOf "CppCompile" "p/a.cc" "p/a.o"] :=
      gather_sharedHeader targets true
    have hsuccess := congrArg BuildResult.success hbuild
    refine resolve_eq_ok_iff.2 ⟨[mixedTarget], accept_eq_ok_iff.2 ?_, ?_, ?_⟩
    · exact ⟨congrArg BuildResult.targets hbuild, .inr rfl, by decide⟩
    · rw [hgather]
      exact List.cons_ne_nil _ _
    · rw [hgather]
      exact congrArg _ hsuccess.symm
  have hgoing : (resolve w.tool { known with keepGoing := true }).1 = .ok ⟨[printed], true⟩ :=
    hreport known.targets true (by decide +kernel)
  have hgoing' : (resolve w.tool { unknown with keepGoing := true }).1 = .ok ⟨[printed], false⟩ :=
    hreport unknown.targets false (by decide +kernel)
  obtain ⟨hiff, hwarnings, -⟩ := resolve_keepGoing_iff w known
  have hstopping := (hiff _).2 ⟨hgoing, rfl⟩
  refine ⟨hgoing, Prod.ext (hstopping.trans hgoing.symm) (hwarnings _ hstopping), hgoing', ?_⟩
  intro rep hrep
  obtain ⟨hsame, hsucceeded⟩ := ((resolve_keepGoing_iff w unknown).1 rep).1 hrep
  obtain rfl := Except.ok.inj (hgoing'.symm.trans hsame)
  cases hsucceeded

end Request

end Provenance
