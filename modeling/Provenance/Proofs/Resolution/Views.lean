import Provenance.Proofs.Checks
import Provenance.Proofs.Resolution.Outcome

/-!
What a resolution sees of a target: its label and kind, what it builds and compiles, and the headers
that it lists. Targets that are alike in this are accepted alike, and the same is printed for them.
-/

namespace Provenance

open Checks

/-- Targets that a resolution can not tell apart. They may differ in other groups of outputs. -/
structure Target.Alike (t t' : Target) : Prop where
  label : t.label = t'.label
  kind : t.kind = t'.kind
  filesToBuild : t.filesToBuild = t'.filesToBuild
  filesToCompile : t.filesToCompile = t'.filesToCompile
  headers : t.listedFiles Target.headers = t'.listedFiles Target.headers

/-- Builds of targets that a resolution can not tell apart. -/
structure BuildResult.Alike (result result' : BuildResult) : Prop where
  targets : Option.Rel (List.Forall₂ Target.Alike) result.targets result'.targets
  success : result.success = result'.success

variable {g : Graph} {t t' : Target} {ts ts' : List Target}

namespace Matcher

theorem offerAll_of_alike (h : t.Alike t') (artifacts : List Artifact) (m : Matcher) :
    m.offerAll g t' artifacts = m.offerAll g t artifacts := by
  have hoffer (m : Matcher) (action : Option Action) : m.offer g t' action = m.offer g t action := by
    cases action with
    | none => rfl
    | some a => simp only [offer, h.headers]
  induction artifacts generalizing m with
  | nil => rfl
  | cons x artifacts ih => simp only [offerAll, hoffer, ih]

theorem gatherAll_of_alike (h : List.Forall₂ Target.Alike ts ts') (m : Matcher) :
    m.gatherAll g ts' = m.gatherAll g ts := by
  induction h generalizing m with
  | nil => rfl
  | cons ht _ ih => simp only [gatherAll, gather, offerAll_of_alike ht, ← ht.filesToCompile, ih]

end Matcher

namespace Request

variable {r : Request} {result result' : BuildResult}

/-- The same actions are gathered for targets that are alike. -/
theorem gather_of_alike (h : List.Forall₂ Target.Alike ts ts') : r.gather g ts' = r.gather g ts := by
  have hneeded : ts.map (neededActions g r.mnemonics) = ts'.map (neededActions g r.mnemonics) := by
    refine map_eq_map_of_forall₂ (h.imp fun t t' ht => ?_)
    simp only [neededActions, ht.kind, ht.filesToBuild]
  rw [gather, gather]
  cases r.mode with
  | files => simp only [Matcher.gatherAll_of_alike h]
  | target => simp only [List.flatMap_def, hneeded]

/-- The first target that compiles nothing has the same label among targets that are alike. -/
theorem rel_find?_of_alike (h : List.Forall₂ Target.Alike ts ts') :
    Option.Rel Target.Alike (ts.find? fun t => t.filesToCompile.isEmpty)
      (ts'.find? fun t => t.filesToCompile.isEmpty) := by
  induction h with
  | nil => exact .none
  | cons ht _ ih =>
    rw [List.find?_cons, List.find?_cons, ← ht.filesToCompile]
    split
    · exact .some ht
    · exact ih

/-- Builds that are alike are accepted alike. -/
theorem accept_of_alike (h : result.Alike result') :
    (∃ e, r.accept result = .error e ∧ r.accept result' = .error e) ∨
      ∃ ts ts', r.accept result = .ok ts ∧ r.accept result' = .ok ts' ∧
        List.Forall₂ Target.Alike ts ts' := by
  obtain ⟨targets, success⟩ := result
  obtain ⟨targets', success'⟩ := result'
  obtain ⟨htargets, rfl⟩ := h
  cases htargets with
  | none => exact .inl ⟨.buildFailed r.targets, rfl, rfl⟩
  | @some ts ts' hts =>
    simp only [accept]
    by_cases hgo : (success || r.keepGoing) = true
    · rw [if_pos hgo, if_pos hgo]
      have hfind := rel_find?_of_alike hts
      generalize ts.find? (fun t => t.filesToCompile.isEmpty) = refused at hfind ⊢
      generalize ts'.find? (fun t => t.filesToCompile.isEmpty) = refused' at hfind ⊢
      cases hfind with
      | none => exact .inr ⟨ts, ts', rfl, rfl, hts⟩
      | some ht => exact .inl ⟨_, rfl, by rw [ht.label]⟩
    · rw [if_neg hgo, if_neg hgo]
      exact .inl ⟨_, rfl, rfl⟩

theorem report_of_alike (h : result.Alike result') (hts : List.Forall₂ Target.Alike ts ts')
    (found : List Action) : r.report result' ts' found = r.report result ts found := by
  have hlabels : ts.map Target.label = ts'.map Target.label :=
    map_eq_map_of_forall₂ (hts.imp fun _ _ ht => ht.label)
  rw [report, report, hlabels, h.success]

/-- Over graphs that gather the same, builds that are alike are resolved alike. -/
theorem resolve_of_alike {tool tool' : BuildTool}
    (hwarnings : (tool'.build r.buildRequest).2 = (tool.build r.buildRequest).2)
    (halike : (tool.build r.buildRequest).1.Alike (tool'.build r.buildRequest).1)
    (hgather : ∀ ts, (tool.build r.buildRequest).1.targets = some ts →
      r.gather tool'.graph ts = r.gather tool.graph ts) :
    resolve tool' r = resolve tool r := by
  rcases accept_of_alike (r := r) halike with ⟨e, he, he'⟩ | ⟨ts, ts', hts, hts', hrel⟩
  · rw [resolve_of_refused he, resolve_of_refused he', hwarnings]
  · obtain ⟨htargets, -⟩ := accept_eq_ok_iff.1 hts
    have hsame : r.gather tool'.graph ts' = r.gather tool.graph ts := by
      rw [gather_of_alike hrel, hgather ts htargets]
    rw [resolve_of_accept rfl hts, resolve_of_accept rfl hts', hsame, hwarnings,
      report_of_alike halike hrel]

end Request

end Provenance
