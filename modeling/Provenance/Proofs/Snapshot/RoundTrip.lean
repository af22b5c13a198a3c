import Provenance.Proofs.Checks
import Provenance.Proofs.Version
import Provenance.Snapshot.Schema

/-!
Snapshots written down and read again. Each reader reads what the writer of its kind writes: a value that
may be absent is never written as null when it is there, a list stays a list, and a record is written
with all the members of its shape, so that none is unknown or missing. A version is written as the text
that it was read from. So a snapshot that was read is read again from the document it is written as, and
that document names no member twice, unless the one that was read did.
-/

namespace Provenance

open Checks

namespace Document

/-- A reader that reads whatever a writer writes back. -/
def ReadsBack {α : Type} (read : Document → Except SchemaError α) (write : α → Document) : Prop :=
  ∀ a, read (write a) = .ok a

variable {α : Type} {read : Document → Except SchemaError α} {write : α → Document}

theorem readsBack_list (h : ReadsBack read write) :
    ReadsBack (readList read) fun as => .list (as.map write) := by
  intro as
  rw [readList, mapM_eq_ok_iff, List.forall₂_map_left_iff, List.forall₂_same]
  exact fun a _ => h a

theorem readsBack_text : ReadsBack readText .text := fun _ => rfl

theorem readsBack_texts : ReadsBack (readList readText) ofTexts := readsBack_list readsBack_text

theorem readOption_of_ne_null {d : Document} (hd : d ≠ .null) :
    readOption read d = some <$> read d := by
  cases d with
  | null => exact absurd rfl hd
  | _ => rfl

/-- A value is told from its absence, if it is never written as null. -/
theorem readsBack_option (h : ReadsBack read write) (hnull : ∀ a, write a ≠ .null) :
    ReadsBack (readOption read) (ofOption write) := by
  intro o
  cases o with
  | none => rfl
  | some a =>
    rw [ofOption, readOption_of_ne_null (hnull a), h a]
    rfl

theorem readsBack_textOrList : ReadsBack readTextOrList ofTextOrList := by
  intro t
  cases t with
  | empty => rfl
  | one s => rfl
  | many ss =>
    have htexts : (ss.map Document.text).mapM readText = .ok ss := readsBack_texts ss
    simp only [ofTextOrList, ofTexts, readTextOrList, htexts]

theorem readsBack_groups : ReadsBack (readMap readTextOrList) ofGroups := by
  intro gs
  rw [ofGroups, readMap, mapM_eq_ok_iff, List.forall₂_map_left_iff, List.forall₂_same]
  rintro ⟨name, t⟩ -
  exact bind_eq_ok.2 ⟨t, readsBack_textOrList t, rfl⟩

theorem readsBack_indirection : ReadsBack (readVariant Schema.indirections) ofIndirection := by
  intro i
  cases i <;> rfl

theorem readsBack_kind : ReadsBack (readVariant Schema.kinds) ofKind := by
  intro k
  cases k <;> rfl

/-- A document in which no record names a member twice. -/
inductive Proper : Document → Prop where
  | null : Proper .null
  | bool (b : Bool) : Proper (.bool b)
  | int (n : Int) : Proper (.int n)
  | float (x : Float) : Proper (.float x)
  | text (s : String) : Proper (.text s)
  | list {items : List Document} : (∀ d ∈ items, Proper d) → Proper (.list items)
  | record {members : List (String × Document)} :
    (members.map Prod.fst).Nodup → (∀ m ∈ members, Proper m.2) → Proper (.record members)

theorem proper_list_iff {items : List Document} : (list items).Proper ↔ ∀ d ∈ items, d.Proper :=
  ⟨fun h => by cases h; assumption, .list⟩

theorem proper_record_iff {members : List (String × Document)} :
    (record members).Proper ↔ (members.map Prod.fst).Nodup ∧ ∀ m ∈ members, m.2.Proper :=
  ⟨fun h => by cases h; exact ⟨by assumption, by assumption⟩, fun h => .record h.1 h.2⟩

theorem proper_map {α : Type} {write : α → Document} {as : List α} (h : ∀ a ∈ as, (write a).Proper) :
    (list (as.map write)).Proper :=
  proper_list_iff.2 (List.forall_mem_map.2 h)

theorem proper_ofTexts (ss : List String) : (ofTexts ss).Proper := proper_map fun s _ => .text s

theorem proper_ofTextOrList : ∀ t : TextOrList, (ofTextOrList t).Proper
  | .empty => .null
  | .one s => .text s
  | .many ss => proper_ofTexts ss

theorem proper_ofGroups {gs : List (String × TextOrList)} (h : (gs.map Prod.fst).Nodup) :
    (ofGroups gs).Proper := by
  refine .record ?_ ?_
  · rw [List.map_map]
    exact h
  · rw [List.forall_mem_map]
    exact fun g _ => proper_ofTextOrList g.2

theorem proper_ofOption {α : Type} {write : α → Document} (h : ∀ a, (write a).Proper) :
    ∀ o, (ofOption write o).Proper
  | none => .null
  | some a => h a

theorem proper_ofIndirection : ∀ i, (ofIndirection i).Proper
  | .scheduling => .text _
  | .aggregating => .text _

theorem proper_ofKind : ∀ k, (ofKind k).Proper
  | .rule => .text _
  | .file => .text _

theorem proper_ofBuild (b : BuildRecord) : (ofBuild b).Proper := by
  rw [ofBuild, proper_record_iff]
  simp [Proper.bool, proper_ofTexts]

theorem proper_ofAction (a : ActionRecord) : (ofAction a).Proper := by
  rw [ofAction, proper_record_iff]
  simp [Proper.text, proper_ofTexts, proper_ofTextOrList, proper_ofOption, proper_ofIndirection]

theorem proper_ofTarget {t : TargetRecord} (hgroups : (t.outputGroups.map Prod.fst).Nodup)
    (hattributes : (t.attributes.map Prod.fst).Nodup) : (ofTarget t).Proper := by
  rw [ofTarget, proper_record_iff]
  simp [Proper.text, proper_ofKind, proper_ofTextOrList, proper_ofGroups hgroups,
    proper_ofGroups hattributes]

theorem proper_ofSnapshot {s : Snapshot} (h : ∀ t ∈ s.targets, (ofTarget t).Proper) :
    (ofSnapshot s).Proper := by
  rw [ofSnapshot, proper_record_iff]
  simp [Proper.text, proper_ofTexts, proper_ofBuild, proper_map fun a _ => proper_ofAction a,
    proper_map h]

end Document

namespace Schema

open Document

variable {α : Type} {read : Document → Except SchemaError α} {d : Document} {a : α}

theorem accepts_eq_ok (h : read d = .ok a) : accepts read d = .ok () := by
  rw [accepts, h]
  rfl

theorem required_eq_ok {ms : List (String × Document)} {name : String}
    (hd : ms.lookup name = some d) (h : read d = .ok a) : required ms name read = .ok a := by
  rw [required, hd]
  exact h

theorem optional_eq_ok {ms : List (String × Document)} {name : String} {default : α}
    (hd : ms.lookup name = some d) (h : read d = .ok a) : optional ms name default read = .ok a := by
  rw [optional, hd]
  exact h

/-- A field is found by its name. -/
theorem find?_name_of_mem : ∀ {fields : List Field} {f : Field}, (fields.map Field.name).Nodup →
    f ∈ fields → fields.find? (·.name = f.name) = some f
  | e :: fields, f, hnames, hf => by
    rw [List.map_cons, List.nodup_cons] at hnames
    rcases List.mem_cons.1 hf with rfl | hf
    · rw [List.find?_cons_of_pos (by simp)]
    · have hne : e.name ≠ f.name := fun heq => hnames.1 (heq ▸ List.mem_map_of_mem hf)
      rw [List.find?_cons_of_neg (by simpa using hne), find?_name_of_mem hnames.2 hf]

/-- A record with all the fields of a shape, in order, each with a value that it takes. -/
theorem members_record {s : Shape} {ms : List (String × Document)}
    (hnames : (s.fields.map Field.name).Nodup)
    (h : List.Forall₂ (fun f m => f.name = m.1 ∧ f.check m.2 = .ok ()) s.fields ms) :
    s.members (.record ms) = .ok ms := by
  obtain ⟨hthere, hknown⟩ := exists_rel_of_mem h
  have hcheck : ms.forM s.checkMember = .ok () := by
    rw [forM_eq_ok_iff]
    intro m hm
    obtain ⟨f, hf, hname, hvalue⟩ := hknown m hm
    rw [Shape.checkMember, ← hname, find?_name_of_mem hnames hf]
    exact hvalue
  have hnone : s.fields.find? (fun f => f.required && (ms.lookup f.name).isNone) = none := by
    rw [List.find?_eq_none]
    intro f hf
    obtain ⟨m, hm, hname, -⟩ := hthere f hf
    have hlookup : ms.lookup f.name ≠ none := fun hlookup => by
      simpa [hname] using List.lookup_eq_none_iff.1 hlookup m hm
    simp [hlookup]
  refine bind_eq_ok.2 ⟨(), hcheck, ?_⟩
  rw [hnone]
  rfl

theorem readsBack_build : ReadsBack readBuild ofBuild := by
  intro b
  have hsuccess : readBool (.bool b.success) = .ok b.success := rfl
  have hfailed := readsBack_texts b.failed
  rw [readBuild, ofBuild]
  refine bind_eq_ok.2 ⟨_, members_record (by decide) ?_, ?_⟩
  · exact .cons ⟨rfl, accepts_eq_ok hsuccess⟩ (.cons ⟨rfl, accepts_eq_ok hfailed⟩ .nil)
  · refine bind_eq_ok.2 ⟨_, optional_eq_ok rfl hsuccess, ?_⟩
    refine bind_eq_ok.2 ⟨_, optional_eq_ok rfl hfailed, ?_⟩
    rfl

theorem readsBack_action : ReadsBack readAction ofAction := by
  intro a
  have hmnemonic := readsBack_text a.mnemonic
  have howner := readsBack_option readsBack_text (fun _ => nofun) a.owner
  have hinputs := readsBack_textOrList a.inputs
  have houtputs := readsBack_textOrList a.outputs
  have harguments := readsBack_texts a.arguments
  have hindirection := readsBack_option readsBack_indirection (fun i => by cases i <;> nofun)
    a.indirection
  rw [readAction, ofAction]
  refine bind_eq_ok.2 ⟨_, members_record (by decide) ?_, ?_⟩
  · exact .cons ⟨rfl, accepts_eq_ok hmnemonic⟩ (.cons ⟨rfl, accepts_eq_ok howner⟩
      (.cons ⟨rfl, accepts_eq_ok hinputs⟩ (.cons ⟨rfl, accepts_eq_ok houtputs⟩
        (.cons ⟨rfl, accepts_eq_ok harguments⟩ (.cons ⟨rfl, accepts_eq_ok hindirection⟩ .nil)))))
  · refine bind_eq_ok.2 ⟨_, required_eq_ok rfl hmnemonic, ?_⟩
    refine bind_eq_ok.2 ⟨_, optional_eq_ok rfl howner, ?_⟩
    refine bind_eq_ok.2 ⟨_, optional_eq_ok rfl hinputs, ?_⟩
    refine bind_eq_ok.2 ⟨_, required_eq_ok rfl houtputs, ?_⟩
    refine bind_eq_ok.2 ⟨_, optional_eq_ok rfl harguments, ?_⟩
    refine bind_eq_ok.2 ⟨_, optional_eq_ok rfl hindirection, ?_⟩
    rfl

theorem readsBack_target : ReadsBack readTarget ofTarget := by
  intro t
  have hlabel := readsBack_text t.label
  have hkind := readsBack_kind t.kind
  have hfiles := readsBack_textOrList t.filesToBuild
  have hgroups := readsBack_groups t.outputGroups
  have hattributes := readsBack_groups t.attributes
  rw [readTarget, ofTarget]
  refine bind_eq_ok.2 ⟨_, members_record (by decide) ?_, ?_⟩
  · exact .cons ⟨rfl, accepts_eq_ok hlabel⟩ (.cons ⟨rfl, accepts_eq_ok hkind⟩
      (.cons ⟨rfl, accepts_eq_ok hfiles⟩ (.cons ⟨rfl, accepts_eq_ok hgroups⟩
        (.cons ⟨rfl, accepts_eq_ok hattributes⟩ .nil))))
  · refine bind_eq_ok.2 ⟨_, required_eq_ok rfl hlabel, ?_⟩
    refine bind_eq_ok.2 ⟨_, optional_eq_ok rfl hkind, ?_⟩
    refine bind_eq_ok.2 ⟨_, optional_eq_ok rfl hfiles, ?_⟩
    refine bind_eq_ok.2 ⟨_, optional_eq_ok rfl hgroups, ?_⟩
    refine bind_eq_ok.2 ⟨_, optional_eq_ok rfl hattributes, ?_⟩
    rfl

/-- A snapshot is read from what it is written as, if its version is. -/
theorem readSnapshot_ofSnapshot {s : Snapshot}
    (hversion : readVersion (.text s.version.toString) = .ok s.version) :
    readSnapshot (ofSnapshot s) = .ok s := by
  have hbuild := readsBack_build s.build
  have hindirections := readsBack_texts s.indirections
  have hactions := readsBack_list readsBack_action s.actions
  have htargets := readsBack_list readsBack_target s.targets
  rw [readSnapshot, ofSnapshot]
  refine bind_eq_ok.2 ⟨_, members_record (by decide) ?_, ?_⟩
  · exact .cons ⟨rfl, accepts_eq_ok hversion⟩ (.cons ⟨rfl, accepts_eq_ok hbuild⟩
      (.cons ⟨rfl, accepts_eq_ok hindirections⟩ (.cons ⟨rfl, accepts_eq_ok hactions⟩
        (.cons ⟨rfl, accepts_eq_ok htargets⟩ .nil))))
  · refine bind_eq_ok.2 ⟨_, required_eq_ok rfl hversion, ?_⟩
    refine bind_eq_ok.2 ⟨_, optional_eq_ok rfl hbuild, ?_⟩
    refine bind_eq_ok.2 ⟨_, optional_eq_ok rfl hindirections, ?_⟩
    refine bind_eq_ok.2 ⟨_, optional_eq_ok rfl hactions, ?_⟩
    refine bind_eq_ok.2 ⟨_, optional_eq_ok rfl htargets, ?_⟩
    rfl

theorem exists_of_required {ms : List (String × Document)} {name : String}
    (h : required ms name read = .ok a) : ∃ d, (name, d) ∈ ms ∧ read d = .ok a := by
  rw [required] at h
  split at h
  · rename_i d hd
    obtain ⟨before, after, rfl, -⟩ := List.lookup_eq_some_iff.1 hd
    exact ⟨d, by simp, h⟩
  · cases h

theorem exists_of_optional {ms : List (String × Document)} {name : String} {default : α}
    (h : optional ms name default read = .ok a) :
    a = default ∨ ∃ d, (name, d) ∈ ms ∧ read d = .ok a := by
  rw [optional] at h
  split at h
  · rename_i d hd
    obtain ⟨before, after, rfl, -⟩ := List.lookup_eq_some_iff.1 hd
    exact .inr ⟨d, by simp, h⟩
  · cases h
    exact .inl rfl

theorem readVersion_toString {v : Version} (h : readVersion d = .ok v) :
    readVersion (.text v.toString) = .ok v := by
  unfold readVersion at h
  split at h
  · rename_i t
    rw [Version.toString_of_parse (mapError_eq_ok.1 h)]
    exact h
  · cases h

/-- The members of a document of a shape are parts of it. -/
theorem proper_of_members {s : Shape} {ms : List (String × Document)} (hd : d.Proper)
    (h : s.members d = .ok ms) : ∀ m ∈ ms, m.2.Proper := by
  unfold Shape.members at h
  split at h
  · rename_i members
    obtain ⟨-, -, h⟩ := bind_eq_ok.1 h
    split at h
    · cases h
    · cases h
      exact (proper_record_iff.1 hd).2
  · rename_i items
    obtain ⟨-, -, h⟩ := bind_eq_ok.1 h
    split at h
    · cases h
    · split at h
      · cases h
      · cases h
        intro m hm
        exact proper_list_iff.1 hd m.2 (List.of_mem_zip hm).2
  · cases h

theorem nodup_of_readMap {gs : List (String × α)} (hd : d.Proper) (h : readMap read d = .ok gs) :
    (gs.map Prod.fst).Nodup := by
  unfold readMap at h
  split at h
  · rename_i members
    have hnames : gs.map Prod.fst = members.map Prod.fst := by
      refine map_eq_map_of_mapM (fun {m g} hm => ?_) h
      obtain ⟨a, -, ha⟩ := bind_eq_ok.1 hm
      cases ha
      rfl
    rw [hnames]
    exact (proper_record_iff.1 hd).1
  · cases h

theorem proper_ofTarget_of_readTarget {t : TargetRecord} (hd : d.Proper) (h : readTarget d = .ok t) :
    (ofTarget t).Proper := by
  rw [readTarget] at h
  obtain ⟨ms, hms, h⟩ := bind_eq_ok.1 h
  obtain ⟨label, -, h⟩ := bind_eq_ok.1 h
  obtain ⟨kind, -, h⟩ := bind_eq_ok.1 h
  obtain ⟨files, -, h⟩ := bind_eq_ok.1 h
  obtain ⟨groups, hgroups, h⟩ := bind_eq_ok.1 h
  obtain ⟨attributes, hattributes, h⟩ := bind_eq_ok.1 h
  cases h
  have hparts := proper_of_members hd hms
  have hnames : ∀ {name : String} {gs : List (String × TextOrList)},
      optional ms name [] (readMap readTextOrList) = .ok gs → (gs.map Prod.fst).Nodup := by
    intro name gs h
    rcases exists_of_optional h with rfl | ⟨e, he, hread⟩
    · exact List.nodup_nil
    · exact nodup_of_readMap (hparts _ he) hread
  exact proper_ofTarget (hnames hgroups) (hnames hattributes)

/-- What is read as a snapshot is read as the same snapshot once it is written down, with every member
there; and where the first document names no member twice, neither does the second. -/
theorem readSnapshot_written {s : Snapshot} (h : readSnapshot d = .ok s) :
    readSnapshot (ofSnapshot s) = .ok s ∧ (d.Proper → (ofSnapshot s).Proper) := by
  rw [readSnapshot] at h
  obtain ⟨ms, hms, h⟩ := bind_eq_ok.1 h
  obtain ⟨version, hversion, h⟩ := bind_eq_ok.1 h
  obtain ⟨build, -, h⟩ := bind_eq_ok.1 h
  obtain ⟨indirections, -, h⟩ := bind_eq_ok.1 h
  obtain ⟨actions, -, h⟩ := bind_eq_ok.1 h
  obtain ⟨targets, htargets, h⟩ := bind_eq_ok.1 h
  cases h
  obtain ⟨e, -, he⟩ := exists_of_required hversion
  refine ⟨readSnapshot_ofSnapshot (readVersion_toString he), fun hd => proper_ofSnapshot ?_⟩
  have hparts := proper_of_members hd hms
  intro t ht
  rcases exists_of_optional htargets with rfl | ⟨e, he, hread⟩
  · cases ht
  · unfold readList at hread
    split at hread
    · obtain ⟨item, hitem, hitemt⟩ := exists_of_mem_mapM hread ht
      exact proper_ofTarget_of_readTarget (proper_list_iff.1 (hparts _ he) item hitem) hitemt
    · cases hread

/-- A snapshot with an action that is a list of fields, its class as the member of a record, and fields
that stand elsewhere or not at all. -/
def otherwiseWritten : Document :=
  .record [
    ("actions", .list [.list [.text "Middleman", .null, .text "a.h", .list [.text "mm"], .list [],
      .record [("scheduling-propagating", .null)]]]),
    ("snapshot_version", .text "1.0.0-rc.1+7"),
    ("targets", .list [.record [
      ("attributes", .record [("srcs", .null), ("hdrs", .text "//a:a.h")]),
      ("label", .text "//a")]])]

theorem readSnapshot_otherwiseWritten :
    let s : Snapshot := {
      version := ⟨1, 0, 0, "rc.1".toList, "7".toList⟩
      actions := [{
        mnemonic := "Middleman"
        inputs := .one "a.h"
        outputs := .many ["mm"]
        indirection := some .scheduling }]
      targets := [{
        label := "//a"
        attributes := [("srcs", .empty), ("hdrs", .one "//a:a.h")] }] }
    readSnapshot otherwiseWritten = .ok s ∧ otherwiseWritten.Proper ∧
      readSnapshot (ofSnapshot s) = .ok s ∧ (ofSnapshot s).Proper := by
  intro s
  have hread : readSnapshot otherwiseWritten = .ok s := by decide +kernel
  have hproper : otherwiseWritten.Proper := by
    simp [otherwiseWritten, proper_record_iff, proper_list_iff, Proper.null, Proper.text]
  obtain ⟨hagain, hwritten⟩ := readSnapshot_written hread
  exact ⟨hread, hproper, hagain, hwritten hproper⟩

end Schema

end Provenance
