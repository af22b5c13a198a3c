import Provenance.Machine
import Provenance.Proofs.Disk.Replacement

/-!
What a run leaves behind. A run reads one file, and what it writes, it writes at its end: to the screen,
or to a temporary file that then takes the place of the file it is for. So a run that fails has changed
nothing that was there, whichever of its steps failed, and one that does not fail has put its whole
report in one place. This holds under all conditions on a machine: for any reader of texts, and whatever
may go wrong beside what the disk tells, as long as a file is moved in one step.
-/

namespace Provenance

namespace Machine

/-- One step after another: the second sees the machine that the first leaves. -/
theorem bind_apply {α β : Type} (x : StateM Machine α) (next : α → StateM Machine β) (m : Machine) :
    (x >>= next) m = next (x m).1 (x m).2 :=
  rfl

/-- What a run may meet on a machine beside what the disk tells: any reader of texts, files that can
not be read or written, and temporary files of any name, filled in part, or not removed. -/
structure Conditions where
  parse : Yaml.Parser
  read : Machine → (name : String) → Option Disk.Fault
  /-- The name of a new temporary file. -/
  temporary : Machine → (directory : String) → String
  create : Machine → (directory : String) → Option Disk.Fault
  /-- What a temporary file holds that was not filled to its end. -/
  fill : Machine → (temporary : Disk.Place) → (text : String) → Option (ByteArray × Disk.Fault)
  persist : Machine → (temporary : Disk.Place) → (name : String) → Option Disk.Fault
  /-- Whether a temporary file remains that was to be removed. -/
  remains : Machine → (temporary : Disk.Place) → Bool

namespace Conditions

/-- What is read of a file. -/
def contents (k : Conditions) (m : Machine) (name : String) : Except Disk.Fault String :=
  match k.read m name with
  | some fault => .error fault
  | none => m.disk.read name

/-- A modelled machine under some conditions as the host of a run. -/
def host (k : Conditions) : Host (StateM Machine) Disk.Place where
  parse := k.parse
  read name := fun m => (k.contents m name, m)
  create directory := fun m =>
    let file := k.temporary m directory
    match k.create m directory with
    | some fault => (.error (m.disk.fullName directory file, fault), m)
    | none => Machine.create file directory m
  fill t text := fun m =>
    match k.fill m t text with
    | some (bytes, fault) => (.error fault, { m with disk := m.disk.put t (.file bytes) })
    | none => Machine.host.fill t text m
  persist t name := fun m =>
    match k.persist m t name with
    | some fault => (.error fault, m)
    | none => Machine.host.persist t name m
  discard t := fun m => if k.remains m t then ((), m) else Machine.host.discard t m
  print := Machine.host.print

/-- Nothing happens but what the disk tells. -/
def plain : Conditions where
  parse := Yaml.read
  read _ _ := none
  temporary _ _ := temporaryName
  create _ _ := none
  fill _ _ _ := none
  persist _ _ _ := none
  remains _ _ := false

theorem host_plain : plain.host = Machine.host := rfl

variable (k : Conditions) (m : Machine) (name text directory : String) (t : Disk.Place)

theorem host_create :
    (∃ x, k.host.create directory m = (.error x, m)) ∨
      ∃ t, m.disk.newPlace directory (k.temporary m directory) = .ok t ∧
        k.host.create directory m = (.ok t, { m with disk := m.disk.put t (.file .empty) }) := by
  dsimp only [host]
  cases k.create m directory with
  | some fault => exact .inl ⟨_, rfl⟩
  | none =>
    dsimp only [Machine.create, bind, get, getThe, MonadStateOf.get, StateT.bind, StateT.get, pure]
    cases m.disk.newPlace directory (k.temporary m directory) with
    | error fault => exact .inl ⟨_, rfl⟩
    | ok t => exact .inr ⟨t, rfl, rfl⟩

theorem host_fill :
    (∃ fault bytes,
        k.host.fill t text m = (.error fault, { m with disk := m.disk.put t (.file bytes) })) ∨
      k.host.fill t text m = (.ok (), { m with disk := m.disk.put t (.file text.toUTF8) }) := by
  dsimp only [host]
  cases k.fill m t text with
  | some fault => exact .inl ⟨_, _, rfl⟩
  | none => exact .inr rfl

theorem host_persist :
    (∃ fault, k.host.persist t name m = (.error fault, m)) ∨
      ∃ disk, m.disk.move t name = .ok disk ∧
        k.host.persist t name m = (.ok (), { m with disk }) := by
  dsimp only [host, Machine.host]
  cases k.persist m t name with
  | some fault => exact .inl ⟨_, rfl⟩
  | none =>
    dsimp only [bind, get, getThe, MonadStateOf.get, StateT.bind, StateT.get, pure]
    cases m.disk.move t name with
    | error fault => exact .inl ⟨_, rfl⟩
    | ok disk => exact .inr ⟨disk, rfl, rfl⟩

theorem host_discard :
    (k.remains m t = true ∧ k.host.discard t m = ((), m)) ∨
      k.host.discard t m = ((), { m with disk := m.disk.remove t }) := by
  dsimp only [host]
  cases hremains : k.remains m t with
  | true => exact .inl ⟨rfl, rfl⟩
  | false => exact .inr rfl

end Conditions

/-- What a text changes that is written to the screen, or to a file if one is named. -/
def Written (m : Machine) (output : Option String) (text : String) (m' : Machine) : Prop :=
  match output with
  | none => m' = { m with printed := m.printed ++ text }
  | some name => m'.printed = m.printed ∧ ∃ p, m.disk.Replaced name text m'.disk p

/-- A machine as it was before a file of a name was to be written, but for a temporary file that may
not have been removed. -/
inductive Kept (k : Conditions) (m : Machine) (name : String) : Machine → Prop
  | same : Kept k m name m
  | left {t : Disk.Place} {m₁ : Machine} (bytes : ByteArray) :
      m.disk.newPlace (Disk.parent name) (k.temporary m (Disk.parent name)) = .ok t →
      k.remains m₁ t = true → Kept k m name { m with disk := m.disk.put t (.file bytes) }

variable {k : Conditions} {m m' : Machine} {name text : String} {t : Disk.Place}

/-- A temporary file is removed, or remains. -/
theorem kept_of_discard (bytes : ByteArray)
    (ht : m.disk.newPlace (Disk.parent name) (k.temporary m (Disk.parent name)) = .ok t) :
    ∃ m', k.host.discard t { m with disk := m.disk.put t (.file bytes) } = ((), m') ∧
      Kept k m name m' := by
  rcases k.host_discard { m with disk := m.disk.put t (.file bytes) } t with
    ⟨hremains, hdiscard⟩ | hdiscard
  · exact ⟨_, hdiscard, .left bytes ht hremains⟩
  · refine ⟨_, hdiscard, ?_⟩
    rw [Disk.remove_put (Disk.free_of_newPlace ht).1.unused]
    exact .same

/-- A file is replaced, or the machine is kept as it was. -/
theorem Conditions.host_replace (k : Conditions) (m : Machine) (name text : String) :
    (∃ fault m', k.host.replace name text m = (.error fault, m') ∧ Kept k m name m') ∨
      ∃ m', k.host.replace name text m = (.ok (), m') ∧ m.Written (some name) text m' := by
  unfold Host.replace
  rw [bind_apply]
  -- each of the three steps may be the last, and what it leaves behind it is the temporary file alone
  rcases k.host_create m (Disk.parent name) with ⟨x, hcreate⟩ | ⟨t, ht, hcreate⟩
  · rw [hcreate]
    exact .inl ⟨_, m, rfl, .same⟩
  · rw [hcreate]
    dsimp only
    rw [bind_apply]
    have hfree := (Disk.free_of_newPlace ht).1
    rcases k.host_fill { m with disk := m.disk.put t (.file .empty) } text t with
      ⟨fault, bytes, hfill⟩ | hfill
    · rw [hfill]
      dsimp only
      rw [Disk.put_put, bind_apply]
      obtain ⟨m', hdiscard, hkept⟩ := kept_of_discard bytes ht
      rw [hdiscard]
      exact .inl ⟨_, m', rfl, hkept⟩
    · rw [hfill]
      dsimp only
      rw [Disk.put_put, bind_apply]
      rcases k.host_persist { m with disk := m.disk.put t (.file text.toUTF8) } name t with
        ⟨fault, hpersist⟩ | ⟨disk, hmove, hpersist⟩
      · rw [hpersist]
        dsimp only
        obtain ⟨m', hdiscard, hkept⟩ := kept_of_discard text.toUTF8 ht
        rw [bind_apply, hdiscard]
        exact .inl ⟨_, m', rfl, hkept⟩
      · rw [hpersist]
        exact .inr ⟨_, rfl, rfl, hfree.exists_replaced_of_move hmove⟩

/-- A disk with a temporary file on it holds all that it held before. -/
theorem Kept.node?_of_used {q : Disk.Place} (h : Kept k m name m') (hq : m.disk.node? q ≠ none) :
    m'.disk.node? q = m.disk.node? q := by
  cases h with
  | same => rfl
  | left bytes ht hremains =>
    have hfree := (Disk.free_of_newPlace ht).1
    refine Disk.node?_put_of_ne hfree.inDirectory ?_
    rintro rfl
    exact hq hfree.unused

/-- A temporary file of another name does not stand where the file was to go. -/
theorem Kept.node?_output {p : Disk.Place} (h : Kept k m name m')
    (hname : k.temporary m (Disk.parent name) ≠ Disk.last name) (hp : m.disk.vacancy name = .ok p) :
    m'.disk.node? p = m.disk.node? p := by
  cases h with
  | same => rfl
  | left bytes ht hremains =>
    obtain ⟨hfree, r, rfl⟩ := Disk.free_of_newPlace ht
    obtain ⟨r', -, rfl⟩ := Disk.exists_vacant_of_vacancy hp
    refine Disk.node?_put_of_ne hfree.inDirectory fun heq => hname ?_
    exact (List.singleton_inj.1 (List.append_inj' heq rfl).2).symm

theorem Kept.printed (h : Kept k m name m') : m'.printed = m.printed := by
  cases h <;> rfl

theorem Kept.eq_of_removes (h : Kept k m name m') (hremoves : ∀ m t, k.remains m t = false) :
    m' = m := by
  cases h with
  | same => rfl
  | left bytes ht hremains =>
    rw [hremoves] at hremains
    cases hremains

end Machine

namespace Invocation

open Machine

variable (k : Machine.Conditions) (i : Invocation) (o : PrintOptions) (m : Machine)

/-- A text that a snapshot is loaded from gives the workspace of that snapshot. -/
theorem workspace_of_load {parse : Yaml.Parser} {text : String} {s : Snapshot}
    (h : Snapshot.load i.snapshotName text parse = .ok s) :
    i.workspace parse (.ok text) =
      (Workspace.ofSnapshot s).mapError (.lowering i.snapshotName) := by
  rw [workspace]
  dsimp only [Except.mapError, bind, Except.bind]
  rw [h]

/-- Why a run fails. -/
inductive Fails (k : Machine.Conditions) (i : Invocation) (m : Machine) : RunError → Prop
  /-- The snapshot is not read, or it gives no workspace. -/
  | loading {e : RunError} :
      i.workspace k.parse (k.contents m i.snapshotName) = .error e → Fails k i m e
  /-- The request is not resolved. -/
  | resolving {o : PrintOptions} {w : Workspace} {e : ResolutionError} :
      i.command = .printAction o → i.workspace k.parse (k.contents m i.snapshotName) = .ok w →
      (o.request.resolve w.tool).1 = .error e → Fails k i m (.resolving e)
  /-- The file for the report is not written. -/
  | writing {o : PrintOptions} {w : Workspace} {report : Report} {name : String}
      {fault : Disk.WriteFault} :
      i.command = .printAction o → i.workspace k.parse (k.contents m i.snapshotName) = .ok w →
      (o.request.resolve w.tool).1 = .ok report → i.outputName? o = some name →
      (k.host.replace name (o.format.render report) m).1 = .error fault → Fails k i m (.writing fault)

/-- What a failed run leaves: the machine as it was, but for a temporary file of its output. -/
def Leaves (k : Machine.Conditions) (i : Invocation) (m m' : Machine) : Prop :=
  m' = m ∨ ∃ o name, i.command = .printAction o ∧ i.outputName? o = some name ∧ Kept k m name m'

theorem write_host (text : String) :
    (∃ fault name m', i.write k.host o text m = (.error fault, m') ∧ i.outputName? o = some name ∧
        (k.host.replace name text m).1 = .error fault ∧ Kept k m name m') ∨
      ∃ m', i.write k.host o text m = (.ok (), m') ∧ m.Written (i.outputName? o) text m' := by
  rw [write]
  cases i.outputName? o with
  | none => exact .inr ⟨{ m with printed := m.printed ++ text }, rfl, rfl⟩
  | some name =>
    rcases k.host_replace m name text with ⟨fault, m', hreplace, hkept⟩ | hreplaced
    · exact .inl ⟨fault, name, m', hreplace, rfl, congrArg Prod.fst hreplace, hkept⟩
    · exact .inr hreplaced

/-- Printing actions writes the report of their resolution, or leaves what was there. -/
theorem printActions_host {w : Workspace} (hcommand : i.command = .printAction o)
    (hworkspace : i.workspace k.parse (k.contents m i.snapshotName) = .ok w) :
    (∃ e ws m', i.printActions k.host w o m = ((.error e, ws), m') ∧ i.Fails k m e ∧
        i.Leaves k m m') ∨
      ∃ report c ws m', i.printActions k.host w o m = ((.ok c, ws), m') ∧
        (o.request.resolve w.tool).1 = .ok report ∧
        c.exitCode = (if report.buildSucceeded then 0 else 1) ∧
        m.Written (i.outputName? o) (o.format.render report) m' := by
  unfold printActions
  cases hresolve : o.request.resolve w.tool with
  | mk result ws =>
    have hresult : (o.request.resolve w.tool).1 = result := congrArg Prod.fst hresolve
    cases result with
    | error e => exact .inl ⟨_, ws, m, rfl, .resolving hcommand hworkspace hresult, .inl rfl⟩
    | ok report =>
      dsimp only
      rw [bind_apply]
      rcases write_host k i o m (o.format.render report) with
        ⟨fault, name, m', hwrite, hname, hfault, hkept⟩ | ⟨m', hwrite, hm'⟩
      · rw [hwrite]
        exact .inl ⟨_, ws, m', rfl, .writing hcommand hworkspace hresult hname hfault,
          .inr ⟨o, name, hcommand, hname, hkept⟩⟩
      · rw [hwrite]
        refine .inr ?_
        cases hsucceeded : report.buildSucceeded with
        | true => exact ⟨report, .full, ws, m', rfl, rfl, by rw [hsucceeded]; rfl, hm'⟩
        | false => exact ⟨report, .partialBuild, _, m', rfl, rfl, by rw [hsucceeded]; rfl, hm'⟩

/-- A run reads the snapshot, and all that is written is written by its command. -/
theorem run_eq :
    i.run k.host m =
      match i.workspace k.parse (k.contents m i.snapshotName), i.command with
      | .error e, _ => ((.error e, []), m)
      | .ok _, .validate => ((.ok .full, []), m)
      | .ok w, .printAction o => i.printActions k.host w o m := by
  have hread : k.host.read i.snapshotName m = (k.contents m i.snapshotName, m) := rfl
  have hparse : k.host.parse = k.parse := rfl
  rw [run, bind_apply, hread, hparse]
  dsimp only
  cases i.workspace k.parse (k.contents m i.snapshotName) with
  | error e => rfl
  | ok w => cases i.command <;> rfl

/-- A run that fails has printed nothing, has changed nothing that stood on the disk, and has neither
made nor replaced the file for its report: all it may leave is a temporary file beside that one, if it
was not removed. One that printed actions has written the report of their resolution in the format that
was asked for: to the screen if no file is named, else to the file, and nothing else has changed. Its
exit code tells whether the build succeeded. -/
theorem run_allOrNothing :
    match i.run k.host m, i.command with
    | ((.error e, _), m'), command =>
      i.Fails k m e ∧ m'.printed = m.printed ∧
        (∀ q, m.disk.node? q ≠ none → m'.disk.node? q = m.disk.node? q) ∧
        (∀ o name p, command = .printAction o → i.outputName? o = some name →
          m.disk.vacancy name = .ok p → k.temporary m (Disk.parent name) ≠ Disk.last name →
          m'.disk.node? p = m.disk.node? p) ∧
        ((∀ m t, k.remains m t = false) → m' = m)
    | ((.ok c, _), m'), .validate => c = .full ∧ m' = m
    | ((.ok c, _), m'), .printAction o =>
      ∃ w report text, i.workspace k.parse (k.contents m i.snapshotName) = .ok w ∧
        (o.request.resolve w.tool).1 = .ok report ∧
        c.exitCode = (if report.buildSucceeded then 0 else 1) ∧
        (o.format = .text → text = Listing.render report.entries) ∧
        (o.format = .json → text = Json.render report.entries ++ "\n") ∧
        (o.output = none ∨ o.output = some "-" → m' = { m with printed := m.printed ++ text }) ∧
        ∀ name, o.output = some name → name ≠ "-" → m'.printed = m.printed ∧
          ∃ p, m.disk.Replaced (i.locate name) text m'.disk p := by
  rw [run_eq]
  cases hworkspace : i.workspace k.parse (k.contents m i.snapshotName) with
  | error e =>
    exact ⟨.loading hworkspace, rfl, fun _ _ => rfl, fun _ _ _ _ _ _ _ => rfl, fun _ => rfl⟩
  | ok w =>
    cases hcommand : i.command with
    | validate => exact ⟨rfl, rfl⟩
    | printAction o =>
      dsimp only
      rcases printActions_host k i o m hcommand hworkspace with
        ⟨e, ws, m', hprint, hfails, hleaves⟩ | ⟨report, c, ws, m', hprint, hreport, hc, hm'⟩
      · rw [hprint]
        refine ⟨hfails, ?_⟩
        rcases hleaves with rfl | ⟨o', name, hcommand', hname, hkept⟩
        · exact ⟨rfl, fun _ _ => rfl, fun _ _ _ _ _ _ _ => rfl, fun _ => rfl⟩
        · obtain rfl : o = o' := Command.printAction.inj (hcommand.symm.trans hcommand')
          refine ⟨hkept.printed, fun q => hkept.node?_of_used, ?_, hkept.eq_of_removes⟩
          rintro _ name' p ⟨⟩ hname' hp hne
          obtain rfl : name = name' := Option.some.inj (hname.symm.trans hname')
          exact hkept.node?_output hne hp
      · rw [hprint]
        refine ⟨w, report, o.format.render report, rfl, hreport, hc, ?_, ?_, fun hscreen => ?_,
          fun name hname hfile => ?_⟩
        · intro hformat
          rw [hformat]
          rfl
        · intro hformat
          rw [hformat]
          rfl
        · have hnone : i.outputName? o = none := by
            rcases hscreen with h | h <;> simp [outputName?, h]
          rwa [hnone] at hm'
        · have hsome : i.outputName? o = some (i.locate name) := by
            simp [outputName?, hname, hfile]
          rwa [hsome] at hm'

/-- The text of a snapshot of a build that failed, though the one file of its one target was made. -/
def failedBuild : String := "snapshot_version: 1.0.0
build: \x7bsuccess: false\x7d
actions: [\x7bmnemonic: C, outputs: o\x7d]
targets: [\x7blabel: //a, files_to_build: o, output_groups: \x7bfiles_to_compile: o\x7d\x7d]
"

/-- What is read of the text. -/
def failedSnapshot : Snapshot where
  version := ⟨1, 0, 0, [], []⟩
  build := { success := false }
  actions := [{ mnemonic := "C", outputs := .one "o" }]
  targets := [
    { label := "//a", filesToBuild := .one "o", outputGroups := [(Target.compiledGroup, .one "o")] }]

/-- A machine with the snapshot and an older report. -/
def reportedBefore : Machine where
  disk := {
    nodes := [
      (["work", "build", defaultSnapshot], .file failedBuild.toUTF8),
      (["work", "build", "report"], .file "older".toUTF8)]
    home := ["work"]
    homeName := "/work" }

/-- Asks for the actions of the target, whether or not its build succeeded. -/
def regardless : PrintOptions where
  names := ["//a"]
  keepGoing := true
  format := .json
  output := some "report"

/-- Prints the actions of the target to where the older report is. -/
def reportAgain : Invocation where
  snapshot := defaultSnapshot
  directory := some "build"
  command := .printAction regardless

/-- A disk that is full after some bytes of a temporary file, which then remains on it. -/
def fullDisk : Machine.Conditions where
  __ := Machine.Conditions.plain
  fill _ _ _ := some ("half".toUTF8, .other "No space left on device (os error 28)")
  remains _ _ := true

theorem read_reportedBefore :
    reportedBefore.disk.read reportAgain.snapshotName = .ok failedBuild :=
  Disk.read_eq_ok (p := ["work", "build", defaultSnapshot]) (by decide +kernel) rfl

theorem load_failedBuild :
    Snapshot.load reportAgain.snapshotName failedBuild = .ok failedSnapshot := by
  decide +kernel

theorem workspace_failedBuild :
    reportAgain.workspace Yaml.read (.ok failedBuild) =
      (Workspace.ofSnapshot failedSnapshot).mapError (.lowering reportAgain.snapshotName) :=
  reportAgain.workspace_of_load load_failedBuild

/-- The report of the failed build lists its one action. -/
theorem report_failedBuild {w : Workspace} {report : Report}
    (hw : reportAgain.workspace Yaml.read (.ok failedBuild) = .ok w)
    (hreport : (regardless.request.resolve w.tool).1 = .ok report) :
    report.entries.map (·.mnemonic) = ["C"] ∧ report.buildSucceeded = false := by
  have hresolved : (do
      let w ← (reportAgain.workspace Yaml.read (.ok failedBuild)).toOption
      let report ← (regardless.request.resolve w.tool).1.toOption
      return (report.entries.map (·.mnemonic), report.buildSucceeded)) = some (["C"], false) := by
    rw [workspace_failedBuild]
    decide +kernel
  rw [hw] at hresolved
  dsimp only [Except.toOption, bind, Option.bind] at hresolved
  rw [hreport] at hresolved
  exact Prod.mk.inj (Option.some.inj hresolved)

/-- The new report takes the place of the older one, which stays as it is on a full disk. -/
theorem run_allOrNothing_reportAgain :
    (∃ w report ws m', reportAgain.workspace Yaml.read (.ok failedBuild) = .ok w ∧
        (regardless.request.resolve w.tool).1 = .ok report ∧
        report.entries.map (·.mnemonic) = ["C"] ∧ report.buildSucceeded = false ∧
        reportAgain.run Machine.host reportedBefore = ((.ok .partialBuild, ws), m') ∧
        m'.printed = "" ∧
        m'.disk.read "build/report" = .ok (Json.render report.entries ++ "\n")) ∧
      ∃ fault ws m',
        reportAgain.run fullDisk.host reportedBefore = ((.error (.writing (.filling fault)), ws), m') ∧
        m'.printed = "" ∧
        m'.disk.node? ["work", "build", "report"] = some (.file "older".toUTF8) := by
  have hprinted : reportedBefore.printed = "" := rfl
  have holder : reportedBefore.disk.node? ["work", "build", "report"] =
      some (.file "older".toUTF8) := by
    decide +kernel
  have hcontents : Machine.Conditions.plain.contents reportedBefore reportAgain.snapshotName =
      .ok failedBuild := read_reportedBefore
  have hends : (reportAgain.run Machine.Conditions.plain.host reportedBefore).1.1 =
      .ok .partialBuild := by
    have hparse : Machine.Conditions.plain.parse = Yaml.read := rfl
    rw [run_eq, hcontents, hparse, workspace_failedBuild]
    decide +kernel
  have hcontents' : fullDisk.contents reportedBefore reportAgain.snapshotName = .ok failedBuild :=
    read_reportedBefore
  have hends' : (reportAgain.run fullDisk.host reportedBefore).1.1 =
      .error (.writing (.filling (.other "No space left on device (os error 28)"))) := by
    have hparse : fullDisk.parse = Yaml.read := rfl
    rw [run_eq, hcontents', hparse, workspace_failedBuild]
    decide +kernel
  -- as long as the machine is known, each step below would run the invocation on it
  generalize reportedBefore = m at hprinted holder hcontents hends hends' ⊢
  constructor
  · have hwritten := run_allOrNothing .plain reportAgain m
    rw [hcontents] at hwritten
    rw [Machine.Conditions.host_plain] at hends hwritten
    generalize reportAgain.run Machine.host m = outcome at hends hwritten ⊢
    obtain ⟨⟨result, ws⟩, m'⟩ := outcome
    obtain rfl : result = .ok .partialBuild := hends
    obtain ⟨w, report, text, hw, hreport, -, -, hjson, -, hfile⟩ := hwritten
    obtain ⟨hprinted', p, hreplaced⟩ := hfile "report" rfl (by decide)
    obtain ⟨hnamed, hfailed⟩ := report_failedBuild hw hreport
    have hread := hreplaced.read
    rw [hjson rfl] at hread
    exact ⟨w, report, ws, m', hw, hreport, hnamed, hfailed, rfl, hprinted'.trans hprinted, hread⟩
  · have hkept := run_allOrNothing fullDisk reportAgain m
    generalize reportAgain.run fullDisk.host m = outcome at hends' hkept ⊢
    obtain ⟨⟨result, ws⟩, m'⟩ := outcome
    obtain rfl : result = .error (.writing (.filling _)) := hends'
    obtain ⟨-, hprinted', hused, -⟩ := hkept
    refine ⟨_, ws, m', rfl, hprinted'.trans hprinted, ?_⟩
    rw [hused _ (holder ▸ Option.some_ne_none _), holder]

end Invocation

end Provenance
