import Provenance.Proofs.Graph.Identity
import Provenance.Proofs.Graph.Need
import Provenance.Proofs.Resolution.Outcome
import Provenance.Proofs.Workspace.Acceptance
import Provenance.Proofs.Workspace.Requested

/-!
Requests for targets. For each requested target, in order of first request, a resolution gathers the
actions that the target needs and that the filter lets through, each of them once, and nothing for a
target that is no rule. So an action is printed once for every rule among the targets that needs it.
-/

namespace Provenance

variable {g : Graph} {t : Target} {ts : List Target} {a : Action} {M : MnemonicFilter}

/-- A group of actions that is gathered for a target. -/
structure Graph.Gathers (g : Graph) (M : MnemonicFilter) (t : Target) (group : List Action) :
    Prop where
  nodup : group.Nodup
  mem_iff : ∀ a, a ∈ group ↔ t.kind = .rule ∧ g.Needs t.filesToBuild a ∧ M.allows a = true

namespace Request

theorem gathers_neededActions (hg : g.Consistent) (M : MnemonicFilter) (t : Target) :
    g.Gathers M t (neededActions g M t) := by
  cases hkind : t.kind with
  | rule =>
    simp only [neededActions, hkind]
    refine ⟨hg.nodup_filterMap_collect _ _, fun a => ?_⟩
    rw [Graph.mem_filterMap_collect, and_iff_right hkind]
  | file =>
    simp only [neededActions, hkind]
    refine ⟨List.nodup_nil, fun a => iff_of_false List.not_mem_nil ?_⟩
    rintro ⟨hrule, -⟩
    cases hkind.symm.trans hrule

theorem gather_target {r : Request} (hmode : r.mode = .target) (g : Graph) (ts : List Target) :
    r.gather g ts = (ts.flatMap (neededActions g r.mnemonics), []) := by
  rw [gather, hmode]

/-- What is printed for one target describes an action once, or not at all. -/
theorem count_entries_of_gathers (hg : g.Consistent) (ha : a ∈ g.actions) {group : List Action}
    (h : g.Gathers M t group) :
    (group.map Action.entry).count a.entry =
      if t.kind = .rule ∧ g.Needs t.filesToBuild a ∧ M.allows a = true then 1 else 0 := by
  have hactions : ∀ b ∈ group, b ∈ g.actions := fun b hb => ((h.mem_iff b).1 hb).2.1.mem_actions
  have hnodup : (group.map Action.entry).Nodup :=
    h.nodup.map_on fun b hb c hc => hg.eq_of_entry_eq (hactions b hb) (hactions c hc)
  have hmem : a.entry ∈ group.map Action.entry ↔ a ∈ group := by
    rw [List.mem_map]
    constructor
    · rintro ⟨b, hb, hentry⟩
      rwa [hg.eq_of_entry_eq (hactions b hb) ha hentry] at hb
    · exact fun hmem => ⟨a, hmem, rfl⟩
  simp only [hnodup.count, hmem, h.mem_iff]

/-- What is printed for some targets describes an action once for each rule that needs it. -/
theorem count_entries_neededActions (hg : g.Consistent) (ha : a ∈ g.actions)
    (M : MnemonicFilter) (ts : List Target) :
    ((ts.flatMap (neededActions g M)).map Action.entry).count a.entry =
      if M.allows a then ts.countP (fun t => t.kind = .rule ∧ g.Needs t.filesToBuild a) else 0 := by
  induction ts with
  | nil => simp
  | cons t ts ih =>
    rw [List.flatMap_cons, List.map_append, List.count_append, ih, List.countP_cons,
      count_entries_of_gathers hg ha (gathers_neededActions hg M t)]
    by_cases hallows : M.allows a = true
    · simp [hallows, Nat.add_comm]
    · simp [hallows]

/-- A request for targets prints every action once for each requested rule that needs it, if the
filter lets the action through, and groups what it prints by target, in order of first request. The
graph of every workspace that a snapshot gives is consistent. -/
theorem resolve_targets (w : Workspace) {r : Request} (hg : w.graph.Consistent)
    (hmode : r.mode = .target) (haccept : r.accept (w.build r.buildRequest).1 = .ok ts) :
    let found := (r.gather w.graph ts).1
    ts = w.requested r.targets ∧
      (∃ groups, List.Forall₂ (w.graph.Gathers r.mnemonics) ts groups ∧ found = groups.flatten) ∧
      (∀ a ∈ w.graph.actions, (found.map Action.entry).count a.entry =
        if r.mnemonics.allows a then
          ts.countP (fun t => t.kind = .rule ∧ w.graph.Needs t.filesToBuild a)
        else 0) ∧
      (resolve w.tool r).1 =
        if found = [] then .error (.noMatches r.files (ts.map Target.label))
        else .ok ⟨found.map Action.entry, (w.build r.buildRequest).1.success⟩ := by
  intro found
  have hfound : found = ts.flatMap (neededActions w.graph r.mnemonics) := by
    simp only [found, gather_target hmode]
  have htargets : (w.build r.buildRequest).1.targets = some ts := (accept_eq_ok_iff.1 haccept).1
  refine ⟨?_, ⟨ts.map (neededActions w.graph r.mnemonics), ?_, ?_⟩, fun a ha => ?_, ?_⟩
  · refine Workspace.targets_of_build_labels ?_ htargets
    simp [buildRequest, hmode]
  · rw [List.forall₂_map_right_iff, List.forall₂_same]
    exact fun t _ => gathers_neededActions hg r.mnemonics t
  · rw [hfound, List.flatMap_def]
  · rw [hfound]
    exact count_entries_neededActions hg ha r.mnemonics ts
  · have hbuild : w.tool.build r.buildRequest = w.build r.buildRequest := rfl
    rw [resolve_of_accept hbuild haccept]
    exact report_eq_ite

/-- A snapshot of two programs that link one archive, and of a file target that stands for it. -/
def sharedArchive : Snapshot where
  version := ⟨1, 0, 0, [], []⟩
  actions := [
    { mnemonic := "Compile", inputs := .one "lib/a.c", outputs := .one "lib/a.o" },
    { mnemonic := "Archive", inputs := .one "lib/a.o", outputs := .one "lib/lib.a" },
    { mnemonic := "Link", inputs := .one "lib/lib.a", outputs := .one "app/app" },
    { mnemonic := "Link", inputs := .many ["lib/lib.a", "lib/a.o"], outputs := .one "tool/tool" }]
  targets := [
    { label := "//app", filesToBuild := .one "app/app"
      outputGroups := [(Target.compiledGroup, .one "app/app")] },
    { label := "//tool", filesToBuild := .one "./tool/tool"
      outputGroups := [(Target.compiledGroup, .one "tool/tool")] },
    { label := "//lib:lib.a", kind := .file, filesToBuild := .one "lib/lib.a"
      outputGroups := [(Target.compiledGroup, .one "lib/lib.a")] }]

/-- One program is requested twice, under two spellings of its label. The compilation is printed once
for each program and not for the file target, and the archiving is refused by the filter. -/
theorem resolve_targets_sharedArchive :
    let r : Request :=
      { targets := ["//tool:tool", "//lib:lib.a", "//app", "//tool"]
        mnemonics := ["Compile", "Link"] }
    ∃ w compile archive link, Workspace.ofSnapshot sharedArchive = .ok w ∧
      w.graph.actions.take 3 = [compile, archive, link] ∧
      r.accept (w.build r.buildRequest).1 = .ok (w.requested r.targets) ∧
      (w.requested r.targets).map (·.label.toString) = ["//tool:tool", "//lib:lib.a", "//app:app"] ∧
      let printed := (r.gather w.graph (w.requested r.targets)).1.map Action.entry
      printed.count compile.entry = 2 ∧ printed.count archive.entry = 0 ∧
        printed.count link.entry = 1 := by
  intro r
  obtain ⟨w, compile, archive, link, hw, hactions, haccept, hlabels, hallows, hneeded⟩ :
      ∃ w compile archive link, Workspace.ofSnapshot sharedArchive = .ok w ∧
        w.graph.actions.take 3 = [compile, archive, link] ∧
        r.accept (w.build r.buildRequest).1 = .ok (w.requested r.targets) ∧
        (w.requested r.targets).map (·.label.toString) =
          ["//tool:tool", "//lib:lib.a", "//app:app"] ∧
        [compile, archive, link].map r.mnemonics.allows = [true, false, true] ∧
        [compile, archive, link].map (fun a => (w.requested r.targets).countP fun t =>
          t.kind = .rule ∧ w.graph.Needs t.filesToBuild a) = [2, 2, 1] :=
    ⟨_, _, _, _, by cbv, rfl, by decide +kernel⟩
  have hg : w.graph.Consistent :=
    (Graph.Describes.of_ofSnapshot (Workspace.ofSnapshot_eq_ok_iff.1 hw).1).consistent
  obtain ⟨-, -, hcount, -⟩ := resolve_targets w hg rfl haccept
  have hmem : ∀ a ∈ [compile, archive, link], a ∈ w.graph.actions :=
    fun a ha => List.mem_of_mem_take (hactions ▸ ha)
  simp only [List.map_cons, List.map_nil, List.cons.injEq, and_true] at hallows hneeded
  refine ⟨w, compile, archive, link, hw, hactions, haccept, hlabels, ?_, ?_, ?_⟩
  · rw [hcount compile (hmem compile (by simp)), hallows.1, hneeded.1]
    rfl
  · rw [hcount archive (hmem archive (by simp)), hallows.2.1]
    rfl
  · rw [hcount link (hmem link (by simp)), hallows.2.2, hneeded.2.2]
    rfl

end Request

end Provenance
