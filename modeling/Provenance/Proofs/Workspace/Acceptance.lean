import Provenance.Proofs.Graph.Acceptance

/-!
Acceptance of snapshots. A workspace is made of a snapshot by checks that stop at the first fault, in
several places and over records that are lowered along the way; together they accept exactly the
well-formed snapshots.
-/

namespace Provenance

open Checks

/-- A target whose labels can be read. -/
structure TargetRecord.WellFormed (r : TargetRecord) : Prop where
  label : IsLabel r.label
  attributes : ∀ field ∈ r.attributes, ∀ text ∈ field.2.toList, IsLabel text

/-- A snapshot that describes a build. -/
structure Snapshot.WellFormed (s : Snapshot) : Prop extends s.WellFormedActions where
  targets : ∀ r ∈ s.targets, r.WellFormed
  /-- No two targets have the same label, however it is spelled. -/
  labels_nodup : (s.targets.map fun r => Label.parse r.label).Nodup
  failed : ∀ text ∈ s.build.failed, IsLabel text

namespace Target

variable {g : Graph} {r : TargetRecord} {rs : List TargetRecord} {t : Target} {ts : List Target}
  {seen : List Label}

theorem label_foldl {γ : Type} {f : Target → γ → Target} (hf : ∀ t c, (f t c).label = t.label) :
    ∀ (cs : List γ) (t : Target), (cs.foldl f t).label = t.label
  | [], _ => rfl
  | c :: cs, t => by rw [List.foldl_cons, label_foldl hf cs, hf]

/-- A target bears the label that its record spells. -/
theorem parse_label_of_ofRecord (h : Target.ofRecord g r = .ok t) :
    Label.parse r.label = .ok t.label := by
  obtain ⟨label, hlabel, h⟩ := bind_eq_ok.1 h
  obtain ⟨attributes, -, h⟩ := bind_eq_ok.1 h
  rw [← pure_eq_ok.1 h, label_foldl, label_foldl]
  · exact Label.ofRecord_eq_ok_iff.1 hlabel
  · exact fun _ _ => rfl
  · exact fun _ _ => rfl

/-- Attributes are lowered if every label of theirs can be read. -/
theorem exists_attributes_iff {fields : List (String × TextOrList)} :
    (∃ ys : List (String × List Label), (fields.mapM fun (name, labels) => do
        return (name, ← labels.toList.mapM Label.ofRecord)) = (.ok ys : Except GraphError _)) ↔
      ∀ field ∈ fields, ∀ text ∈ field.2.toList, IsLabel text := by
  rw [exists_mapM_eq_ok_iff]
  refine forall₂_congr fun field _ => ?_
  simp only [bind_eq_ok, pure_eq_ok]
  rw [exists_comm]
  simp only [exists_and_left, exists_eq', and_true, exists_mapM_eq_ok_iff,
    exists_ofRecord_iff_isLabel]

theorem exists_ofRecord_iff : (∃ t, Target.ofRecord g r = .ok t) ↔ r.WellFormed := by
  constructor
  · rintro ⟨t, h⟩
    obtain ⟨label, hlabel, h⟩ := bind_eq_ok.1 h
    obtain ⟨attributes, hattributes, -⟩ := bind_eq_ok.1 h
    exact ⟨exists_ofRecord_iff_isLabel.1 ⟨label, hlabel⟩,
      exists_attributes_iff.1 ⟨attributes, hattributes⟩⟩
  · rintro ⟨hlabel, hattributes⟩
    obtain ⟨label, hlabel⟩ := exists_ofRecord_iff_isLabel.2 hlabel
    obtain ⟨attributes, hattributes⟩ := exists_attributes_iff.2 hattributes
    exact ⟨_, bind_eq_ok.2 ⟨label, hlabel, bind_eq_ok.2 ⟨attributes, hattributes, rfl⟩⟩⟩

/-- To look each label up among those before it is to ask that all of them differ. -/
theorem ofRecords_eq_ok_iff : ∀ {rs : List TargetRecord} {seen : List Label} {ts : List Target},
    Target.ofRecords g seen rs = .ok ts ↔
      rs.mapM (Target.ofRecord g) = .ok ts ∧
        (ts.map label).Nodup ∧ ∀ l ∈ ts.map label, l ∉ seen
  | [], seen, ts => by
    rw [ofRecords, List.mapM_nil, pure_eq_ok, Except.ok.injEq]
    constructor
    · rintro rfl
      exact ⟨rfl, List.nodup_nil, List.forall_mem_nil _⟩
    · exact fun h => h.1
  | r :: rs, seen, ts => by
    rw [ofRecords, List.mapM_cons, bind_eq_ok, bind_eq_ok]
    constructor
    · rintro ⟨t, ht, h⟩
      by_cases hseen : t.label ∈ seen
      · rw [if_pos hseen] at h
        cases h
      · rw [if_neg hseen] at h
        obtain ⟨ts, hts, ⟨⟩⟩ := bind_eq_ok.1 h
        obtain ⟨hmap, hlabels⟩ := ofRecords_eq_ok_iff.1 hts
        exact ⟨⟨t, ht, bind_eq_ok.2 ⟨ts, hmap, rfl⟩⟩, nodup_cons_fresh_iff.2 ⟨hseen, hlabels⟩⟩
    · rintro ⟨⟨t, ht, h⟩, hlabels⟩
      obtain ⟨ts, hts, ⟨⟩⟩ := bind_eq_ok.1 h
      obtain ⟨hseen, hlabels⟩ := nodup_cons_fresh_iff.1 hlabels
      refine ⟨t, ht, ?_⟩
      rw [if_neg hseen]
      exact bind_eq_ok.2 ⟨ts, ofRecords_eq_ok_iff.2 ⟨hts, hlabels⟩, rfl⟩

theorem exists_ofRecords_iff :
    (∃ ts, Target.ofRecords g [] rs = .ok ts) ↔
      (∀ r ∈ rs, r.WellFormed) ∧ (rs.map fun r => Label.parse r.label).Nodup := by
  have hrecords : (∃ ts, rs.mapM (Target.ofRecord g) = .ok ts) ↔ ∀ r ∈ rs, r.WellFormed := by
    rw [exists_mapM_eq_ok_iff]
    exact forall₂_congr fun r _ => exists_ofRecord_iff
  have hnodup {ts : List Target} (hts : rs.mapM (Target.ofRecord g) = .ok ts) :
      (rs.map fun r => Label.parse r.label).Nodup ↔ (ts.map label).Nodup := by
    rw [← map_eq_map_of_mapM (fun ht => (parse_label_of_ofRecord ht).symm) hts]
    rw [← List.nodup_map_iff (f := (Except.ok : Label → Except LabelError Label))
      fun _ _ => Except.ok.inj, List.map_map]
    rfl
  constructor
  · rintro ⟨ts, h⟩
    obtain ⟨hts, hlabels, -⟩ := ofRecords_eq_ok_iff.1 h
    exact ⟨hrecords.1 ⟨ts, hts⟩, (hnodup hts).2 hlabels⟩
  · rintro ⟨hwell, hlabels⟩
    obtain ⟨ts, hts⟩ := hrecords.2 hwell
    exact ⟨ts, ofRecords_eq_ok_iff.2 ⟨hts, (hnodup hts).1 hlabels, fun _ _ => List.not_mem_nil⟩⟩

end Target

namespace Workspace

variable {s : Snapshot} {w : Workspace}

theorem ofSnapshot_eq_ok_iff :
    Workspace.ofSnapshot s = .ok w ↔ Graph.ofSnapshot s = .ok w.graph ∧
      Target.ofRecords w.graph [] s.targets = .ok w.targets ∧
      s.build.failed.mapM Label.ofRecord = .ok w.failed ∧ s.build.success = w.success := by
  rw [Workspace.ofSnapshot, bind_eq_ok]
  constructor
  · rintro ⟨graph, hgraph, h⟩
    obtain ⟨targets, htargets, h⟩ := bind_eq_ok.1 h
    obtain ⟨failed, hfailed, ⟨⟩⟩ := bind_eq_ok.1 h
    exact ⟨hgraph, htargets, hfailed, rfl⟩
  · rintro ⟨hgraph, htargets, hfailed, hsuccess⟩
    refine ⟨_, hgraph, bind_eq_ok.2 ⟨_, htargets, bind_eq_ok.2 ⟨_, hfailed, ?_⟩⟩⟩
    rw [hsuccess]
    rfl

/-- A workspace is made of a snapshot exactly if the snapshot is well formed. -/
theorem exists_ofSnapshot_iff_wellFormed (s : Snapshot) :
    (∃ w, Workspace.ofSnapshot s = .ok w) ↔ s.WellFormed := by
  have hfailed : (∃ ls, s.build.failed.mapM Label.ofRecord = .ok ls) ↔
      ∀ text ∈ s.build.failed, IsLabel text := by
    rw [exists_mapM_eq_ok_iff]
    exact forall₂_congr fun text _ => exists_ofRecord_iff_isLabel
  constructor
  · rintro ⟨w, h⟩
    obtain ⟨hgraph, htargets, hls, -⟩ := ofSnapshot_eq_ok_iff.1 h
    obtain ⟨hwell, hlabels⟩ := Target.exists_ofRecords_iff.1 ⟨_, htargets⟩
    exact ⟨Graph.exists_ofSnapshot_iff_wellFormedActions.1 ⟨_, hgraph⟩, hwell, hlabels,
      hfailed.1 ⟨_, hls⟩⟩
  · intro h
    obtain ⟨graph, hgraph⟩ := Graph.exists_ofSnapshot_iff_wellFormedActions.2 h.toWellFormedActions
    obtain ⟨targets, htargets⟩ := (Target.exists_ofRecords_iff (g := graph)).2
      ⟨h.targets, h.labels_nodup⟩
    obtain ⟨failed, hls⟩ := hfailed.2 h.failed
    exact ⟨⟨graph, targets, failed, s.build.success⟩,
      ofSnapshot_eq_ok_iff.2 ⟨hgraph, htargets, hls, rfl⟩⟩

end Workspace

end Provenance
