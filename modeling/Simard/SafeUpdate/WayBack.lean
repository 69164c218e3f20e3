import Simard.Library.Machine
import Simard.SafeUpdate.Validate

/-! The way back from an upgrade. A rollback restores the backup with the last name, if it
is the binary that was backed up last; and every attempt at an update writes a backup,
under whatever time the clock shows, before it knows whether it will swap. -/
namespace Simard.SafeUpdate
open Simard.Library Action

def Restorable (paths : Paths) (host : Host) (image : Image) : Prop :=
  ∀ reason restart now, ∃ outcome host',
    call (doRollback noFaults paths reason restart now) host = (.ok outcome, host') ∧
      host'.installed = image

def Vouched (host : Host) (image : Image) : Prop :=
  match host.manifest with
  | none => True
  | some (.ok snapshot) => sha256Hex image = snapshot.sha256
  | some (.error _) => False

/-- The operations of a restore and of the note about it, reading the manifest apart. -/
def restoreSteps : List Io :=
  [.rollbackList, .rollbackRead, .rollbackMkdir, .rollbackWrite, .rollbackRename, .rollbackStat,
    .rollbackChmod]

def statusSteps : List Io := [.statusMkdir, .statusWrite, .statusRename]

def Host.manifestVersion (host : Host) : Option String :=
  match host.manifest with
  | some (.ok snapshot) => some snapshot.version
  | _ => none

def Host.rolledBack (reason : String) (restart : Option (Option String)) (now : Int)
    (image : Image) (host : Host) : Host :=
  { host with
    installed := image
    running := if restart = some none then image else host.running
    status := some (.ok (.rolledBack now reason host.manifestVersion)) }

section Rollback

variable {faults : Faults} {paths : Paths} {host : Host}

theorem readSnapshot_ok {step : Io} {found : Option BinarySnapshot} {host' : Host} :
    call (readSnapshot faults step paths) host = (.ok found, host') ↔
      host.manifest = found.map .ok ∧ (found ≠ none → faults step = none) ∧ host' = host := by
  unfold readSnapshot
  rw [call_get_bind]
  rcases host.manifest with _ | (e | snapshot)
  · cases found with
    | none => simp [eq_comm]
    | some found => simp
  · simp [io_bind_ok, call_check]
  · simp only [io_bind_ok, call_check, Prod.mk.injEq, Except.ok.injEq]
    cases found with
    | none => simp
    | some found =>
      simp [eq_comm]
      tauto

theorem verifiedBackup_ok {backup : String × Image} {host' : Host} :
    call (verifiedBackup faults paths) host = (.ok backup, host') ↔
      (faults .rollbackList = none ∧ faults .rollbackRead = none ∧
        (host.manifest ≠ none → faults .manifestRead = none)) ∧
      host.backups.greatest = some backup ∧ Vouched host backup.2 ∧ host' = host := by
  unfold verifiedBackup latestBackup Vouched
  rw [call_get_bind]
  cases faults .rollbackList with
  | some reason => simp
  | none =>
    cases host.backups.greatest with
    | none => simp
    | some found =>
      rw [call_check_ok, io_bind_ok, call_bind_ok]
      simp only [readSnapshot_ok]
      rcases hmanifest : host.manifest with _ | (e | snapshot)
      · constructor
        · rintro ⟨hread, _ | snapshot, _, ⟨hsame, -, rfl⟩, h⟩
          · cases h
            simp [hread]
          · cases hsame
        · rintro ⟨⟨-, hread, -⟩, ⟨⟩, -, rfl⟩
          exact ⟨hread, none, host', by simp, rfl⟩
      · simp
      · constructor
        · rintro ⟨hread, _ | found, _, ⟨⟨⟩, hmanifest', rfl⟩, h⟩
          dsimp only at h
          split at h
          next hsha =>
            cases h
            exact ⟨⟨trivial, hread, fun _ => hmanifest' nofun⟩, rfl, hsha, rfl⟩
          next => cases h
        · rintro ⟨⟨-, hread, hmanifest'⟩, ⟨⟩, hsha, rfl⟩
          refine ⟨hread, some snapshot, host', ⟨rfl, fun _ => hmanifest' nofun, rfl⟩, ?_⟩
          dsimp only at hsha ⊢
          rw [if_pos hsha]
          rfl

theorem restoreBackup_ok {path : String} {host' : Host} :
    call (restoreBackup faults paths) host = (.ok path, host') ↔
      (∀ step ∈ restoreSteps, faults step = none) ∧
      (host.manifest ≠ none → faults .manifestRead = none) ∧
      ∃ name image, host.backups.greatest = some (name, image) ∧ Vouched host image ∧
        path = paths.backupPath name ∧ host' = { host with installed := image } := by
  unfold restoreBackup restoreSteps
  rw [call_bind_ok]
  simp only [verifiedBackup_ok]
  constructor
  · rintro ⟨⟨name, image⟩, same, ⟨⟨hlist, hread, hmanifest⟩, hgreatest, hvouched, rfl⟩, h⟩
    simp only [io_bind_ok, call_modify_bind, call_pure] at h
    obtain ⟨hmkdir, hwrite, hrename, hstat, hchmod, ⟨⟩⟩ := h
    exact ⟨by simp [*], hmanifest, name, image, hgreatest, hvouched, rfl, rfl⟩
  · rintro ⟨hsteps, hmanifest, name, image, hgreatest, hvouched, rfl, rfl⟩
    simp only [List.forall_mem_cons] at hsteps
    obtain ⟨hlist, hread, hmkdir, hwrite, hrename, hstat, hchmod, -⟩ := hsteps
    refine ⟨(name, image), host, ⟨⟨hlist, hread, hmanifest⟩, hgreatest, hvouched, rfl⟩, ?_⟩
    simp only [io_bind_ok, call_modify_bind, call_pure]
    exact ⟨hmkdir, hwrite, hrename, hstat, hchmod, trivial⟩

theorem writeStatus_ok {status : UpgradeStatus} {host' : Host} :
    call (writeStatus faults paths status) host = (.ok (), host') ↔
      (∀ step ∈ statusSteps, faults step = none) ∧
        host' = { host with status := some (.ok status) } := by
  unfold writeStatus statusSteps
  dsimp only
  rw [io_bind_ok, io_bind_ok, io_bind_ok, call_modify]
  simp [eq_comm, and_assoc]

theorem call_tryRestart (restart : Option (Option String)) :
    call (tryRestart restart) host = (.ok restart.join,
      { host with running := if restart = some none then host.installed else host.running }) := by
  rcases restart with _ | (_ | warning) <;> rfl

theorem manifestVersion_of_read {found : Option BinarySnapshot}
    (h : host.manifest = found.map .ok) : host.manifestVersion = found.map (·.version) := by
  unfold Host.manifestVersion
  rw [h]
  cases found <;> rfl

theorem Vouched.read {image : Image} (h : Vouched host image) :
    ∃ found, host.manifest = Option.map .ok found := by
  unfold Vouched at h
  split at h
  next hmanifest => exact ⟨none, hmanifest⟩
  next snapshot hmanifest => exact ⟨some snapshot, hmanifest⟩
  next => exact h.elim

theorem doRollback_ok {reason : String} {restart : Option (Option String)} {now : Int}
    {outcome : RollbackOutcome} {host' : Host} :
    call (doRollback faults paths reason restart now) host = (.ok outcome, host') ↔
      (∀ step ∈ restoreSteps ++ statusSteps, faults step = none) ∧
      (host.manifest ≠ none → faults .manifestRead = none ∧ faults .manifestReread = none) ∧
      ∃ name image, host.backups.greatest = some (name, image) ∧ Vouched host image ∧
        outcome = ⟨paths.backupPath name, restart.join⟩ ∧
        host' = host.rolledBack reason restart now image := by
  unfold doRollback
  rw [call_bind_ok, List.forall_mem_append]
  simp only [restoreBackup_ok]
  constructor
  · rintro ⟨_, _, ⟨hrestore, hread, name, image, hgreatest, hvouched, rfl, rfl⟩, h⟩
    rw [call_bind, call_tryRestart] at h
    obtain ⟨found, _, hfound, h⟩ := call_bind_ok.mp h
    obtain ⟨hmanifest, hreread, rfl⟩ := readSnapshot_ok.mp hfound
    obtain ⟨_, _, hstatus, h⟩ := call_bind_ok.mp h
    obtain ⟨hsteps, rfl⟩ := writeStatus_ok.mp hstatus
    cases h
    dsimp only at hmanifest
    refine ⟨⟨hrestore, hsteps⟩, fun hsome => ⟨hread hsome, hreread ?_⟩, name, image, hgreatest,
      hvouched, rfl, ?_⟩
    · rintro rfl
      exact hsome hmanifest
    · rw [Host.rolledBack, manifestVersion_of_read hmanifest]
  · rintro ⟨⟨hrestore, hsteps⟩, hread, name, image, hgreatest, hvouched, rfl, rfl⟩
    refine ⟨_, _, ⟨hrestore, fun hsome => (hread hsome).1, name, image, hgreatest, hvouched, rfl,
      rfl⟩, ?_⟩
    obtain ⟨found, hfound⟩ := hvouched.read
    rw [call_bind, call_tryRestart]
    refine call_bind_ok.mpr ⟨found, _, readSnapshot_ok.mpr ⟨hfound, fun hsome => ?_, rfl⟩, ?_⟩
    · refine (hread ?_).2
      rw [hfound]
      simpa using hsome
    · refine call_bind_ok.mpr ⟨(), _, writeStatus_ok.mpr ⟨hsteps, rfl⟩, ?_⟩
      rw [Host.rolledBack, manifestVersion_of_read hfound]
      rfl

theorem doRollback_noFaults {reason : String} {restart : Option (Option String)} {now : Int}
    {outcome : RollbackOutcome} {host' : Host} :
    call (doRollback noFaults paths reason restart now) host = (.ok outcome, host') ↔
      ∃ name image, host.backups.greatest = some (name, image) ∧ Vouched host image ∧
        outcome = ⟨paths.backupPath name, restart.join⟩ ∧
        host' = host.rolledBack reason restart now image := by
  simp [doRollback_ok, noFaults]

theorem restorable_iff {image : Image} :
    Restorable paths host image ↔
      (∃ name, host.backups.greatest = some (name, image)) ∧ Vouched host image := by
  constructor
  · intro h
    obtain ⟨outcome, host', hcall, hinstalled⟩ := h "" none 0
    obtain ⟨name, image', hgreatest, hvouched, -, rfl⟩ := doRollback_noFaults.mp hcall
    cases hinstalled
    exact ⟨⟨name, hgreatest⟩, hvouched⟩
  · rintro ⟨⟨name, hgreatest⟩, hvouched⟩ reason restart now
    exact ⟨_, _, doRollback_noFaults.mpr ⟨name, image, hgreatest, hvouched, rfl, rfl⟩, rfl⟩

end Rollback

def Host.backedUp (paths : Paths) (stamp : String) (host : Host) : Host :=
  { host with
    backups := (host.backups.insert stamp host.installed).keepGreatest defaultBackupRetention
    manifest := some (.ok ⟨sha256Hex host.installed, readEmbeddedVersion host.installed,
      paths.backupPath stamp⟩) }

theorem pruneBackups_ok {faults : Faults} {paths : Paths} {retention : Nat} {host host' : Host}
    {u : Unit} :
    call (pruneBackups faults paths retention) host = (.ok u, host') ↔
      faults .backupsList = none ∧
      (host.backups.entries.length ≤ retention ∨ faults .backupPrune = none) ∧
      host' = { host with backups := host.backups.keepGreatest retention } := by
  unfold pruneBackups
  rw [io_bind_ok, call_get_bind]
  refine and_congr_right fun _ => ?_
  have hnone : (host.backups.entries.reverse.drop retention).head? = none ↔
      host.backups.entries.length ≤ retention := by
    rw [List.head?_eq_none_iff, List.drop_eq_nil_iff, List.length_reverse]
  split
  next hhead =>
    have hfew := hnone.mp hhead
    have hsame : host.backups.keepGreatest retention = host.backups := by
      unfold BTreeMap.keepGreatest
      rcases hbackups : host.backups with ⟨entries, ascending⟩
      rw [hbackups] at hfew
      congr 1
      rw [Nat.sub_eq_zero_of_le hfew, List.drop_zero]
    rw [hsame]
    simp [hfew, eq_comm (a := host)]
  next stamp image hhead =>
    have hmany : ¬ host.backups.entries.length ≤ retention := by
      rw [← hnone, hhead]
      nofun
    rw [io_bind_ok, call_set]
    simp [hmany, eq_comm]

/-- The operations of a backup, the removal of old ones apart. -/
def snapshotSteps : List Io :=
  [.binaryRead, .backupMkdir, .backupWrite, .backupStat, .backupChmod, .manifestMkdir,
    .manifestWrite, .backupsList]

theorem takeSnapshotOf_ok {faults : Faults} {paths : Paths} {stamp : String}
    {snapshot : BinarySnapshot} {host host' : Host} :
    call (takeSnapshotOf faults paths defaultBackupRetention stamp) host = (.ok snapshot, host') ↔
      (∀ step ∈ snapshotSteps, faults step = none) ∧
      ((host.backups.insert stamp host.installed).entries.length ≤ defaultBackupRetention ∨
        faults .backupPrune = none) ∧
      snapshot = ⟨sha256Hex host.installed, readEmbeddedVersion host.installed,
        paths.backupPath stamp⟩ ∧
      host' = host.backedUp paths stamp := by
  unfold takeSnapshotOf snapshotSteps Host.backedUp
  rw [io_bind_ok, call_get_bind, io_bind_ok, io_bind_ok, call_modify_bind, io_bind_ok, io_bind_ok,
    io_bind_ok, io_bind_ok, call_modify_bind, call_bind_ok]
  generalize sha256Hex host.installed = digest, readEmbeddedVersion host.installed = version
  simp only [pruneBackups_ok, call_pure, Prod.mk.injEq, Except.ok.injEq, List.forall_mem_cons]
  constructor
  · rintro ⟨hread, hmkdir, hwrite, hstat, hchmod, hmanifest, hnote, -, _, ⟨hlist, hprune, rfl⟩,
      rfl, rfl⟩
    exact ⟨⟨hread, hmkdir, hwrite, hstat, hchmod, hmanifest, hnote, hlist, by simp⟩,
      hprune, rfl, rfl⟩
  · rintro ⟨⟨hread, hmkdir, hwrite, hstat, hchmod, hmanifest, hnote, hlist, -⟩, hprune, rfl, rfl⟩
    exact ⟨hread, hmkdir, hwrite, hstat, hchmod, hmanifest, hnote, (), _,
      ⟨hlist, hprune, rfl⟩, rfl, rfl⟩

theorem call_takeSnapshot (paths : Paths) (stamp : String) (host : Host) :
    call (takeSnapshot noFaults paths stamp) host =
      (.ok ⟨sha256Hex host.installed, readEmbeddedVersion host.installed,
        paths.backupPath stamp⟩, host.backedUp paths stamp) := by
  unfold takeSnapshot
  rw [call_io_noFaults]
  exact takeSnapshotOf_ok.mpr ⟨fun _ _ => rfl, .inr rfl, rfl, rfl⟩

/-- The image an update installs, if it comes to the swap and there is a candidate. -/
def Attempt.installs (attempt : Attempt) : Option Image :=
  match attempt.test with
  | .ended code _ => if code = some 0 then attempt.candidate else none
  | _ => none

def Attempt.testFails (attempt : Attempt) : Bool :=
  match attempt.test with
  | .ended code _ => code ≠ some 0
  | _ => false

theorem run_noFaults (config : UpdateConfig) (attempt : Attempt) (host : Host) :
    let host' := (call (run config { attempt with faults := noFaults }) host).2
    let backedUp := host.backedUp config.paths attempt.stamp
    host'.backups = backedUp.backups ∧ host'.manifest = backedUp.manifest ∧
      match attempt.installs with
      | some image => host'.installed = image ∧ phase host' = some .execHandover
      | none => host'.installed = host.installed ∧
          phase host' = if attempt.testFails then some .pretestFailed else phase host := by
  obtain ⟨faults, candidate, test, handover, inFlight, now, stamp⟩ := attempt
  intro host' backedUp
  have hrun : host' = (call (afterDrain config ⟨noFaults, candidate, test, handover, inFlight, now,
      stamp⟩ ⟨inFlight.1, inFlight.2, 0⟩) { host with draining := true }).2 := rfl
  unfold afterDrain at hrun
  rw [call_bind, call_takeSnapshot] at hrun
  unfold Attempt.installs Attempt.testFails
  cases test with
  | notSpawned reason =>
    rw [hrun]
    exact ⟨rfl, rfl, rfl, rfl⟩
  | waitFailed reason =>
    rw [hrun]
    exact ⟨rfl, rfl, rfl, rfl⟩
  | timedOut =>
    rw [hrun]
    exact ⟨rfl, rfl, rfl, rfl⟩
  | ended code detail =>
    by_cases hcode : code = some 0
    · subst hcode
      cases candidate with
      | none =>
        rw [hrun]
        exact ⟨rfl, rfl, rfl, rfl⟩
      | some image =>
        cases handover <;>
        · rw [hrun]
          exact ⟨rfl, rfl, rfl, rfl⟩
    · dsimp only [runPretest] at hrun
      rw [call_bind, call_io_noFaults, call_check] at hrun
      simp only [hcode] at hrun
      rw [hrun]
      simp only [hcode, decide_false, Bool.not_false, ne_eq, not_false_eq_true, if_false,
        decide_true, if_true]
      exact ⟨rfl, rfl, rfl, rfl⟩

/-- The image of the last name, once one more backup is written. -/
def newestBackup (stamp : String) (host : Host) : Image :=
  match host.backups.greatest with
  | some (name, image) => if stamp < name then image else host.installed
  | none => host.installed

theorem greatest_backedUp (paths : Paths) (stamp : String) (host : Host) :
    ∃ name, (host.backedUp paths stamp).backups.greatest =
      some (name, newestBackup stamp host) := by
  rw [Host.backedUp, BTreeMap.greatest_keepGreatest (by decide), BTreeMap.greatest_insert]
  unfold newestBackup
  cases host.backups.greatest with
  | none => exact ⟨stamp, rfl⟩
  | some last =>
    dsimp only
    split
    · exact ⟨last.1, rfl⟩
    · exact ⟨stamp, rfl⟩

theorem restorable_backedUp {paths : Paths} {stamp : String} {host host' : Host} {image : Image}
    (hbackups : host'.backups = (host.backedUp paths stamp).backups)
    (hmanifest : host'.manifest = (host.backedUp paths stamp).manifest) :
    Restorable paths host' image ↔
      newestBackup stamp host = image ∧ sha256Hex image = sha256Hex host.installed := by
  obtain ⟨name, hgreatest⟩ := greatest_backedUp paths stamp host
  rw [restorable_iff, Vouched, hmanifest, hbackups, hgreatest]
  simp [Host.backedUp]

theorem restorable_congr {paths : Paths} {host host' : Host} {image : Image}
    (hkept : (host'.backups, host'.manifest) = (host.backups, host.manifest)) :
    Restorable paths host' image ↔ Restorable paths host image := by
  obtain ⟨hbackups, hmanifest⟩ := Prod.mk.inj hkept
  rw [restorable_iff, restorable_iff, Vouched, Vouched, hbackups, hmanifest]

theorem doRollback_keeps_backups (paths : Paths) (reason : String)
    (restart : Option (Option String)) (now : Int) :
    Keeps (fun host => (host.backups, host.manifest))
      (doRollback noFaults paths reason restart now) := by
  refine .bind (restoreBackup_keeps fun _ _ => rfl) fun _ => ?_
  refine .bind (tryRestart_keeps (fun _ => rfl) restart) fun _ => ?_
  refine .bind (fun _ => by rw [call_readSnapshot]) fun _ => ?_
  exact .bind (writeStatus_keeps (fun _ _ => rfl) _) fun _ => .pure _

theorem recordCycle_keeps_backups (paths : Paths) (now : Int) (items : Option Nat) :
    Keeps (fun host => (host.backups, host.manifest))
      (recordCycleWithParity noFaults paths now items) := by
  have hread : Keeps (fun host => (host.backups, host.manifest)) (readStatus noFaults paths) := by
    refine .bind .get fun _ => ?_
    split
    · exact .pure _
    · exact .bind keeps_io fun _ => .check _
  have hwrite (status : UpgradeStatus) : Keeps (fun host => (host.backups, host.manifest))
      (writeStatus noFaults paths status) := writeStatus_keeps (fun _ _ => rfl) status
  refine .bind hread fun status => ?_
  split
  · exact .pure _
  split
  · refine .bind hread fun status => ?_
    split <;> exact .pure _
  dsimp only
  split
  · exact .bind (hwrite _) fun _ => .pure _
  refine .bind keeps_io fun _ => ?_
  split
  · split
    · exact .bind (hwrite _) fun _ => .pure _
    · exact .bind (hwrite _) fun _ => .bind (unmarkDraining_keeps fun _ => rfl) fun _ => .pure _
  · exact .bind (hwrite _) fun _ => .pure _

/-- A host, with the image that was installed before its last swap until that swap is
validated. -/
structure Upgrades where
  host : Host
  target : Option Image

inductive UpgradeEvent where
  | update (attempt : Attempt)
  | record (now : Int) (items : Option Nat)
  | rollback (reason : String) (restart : Option (Option String)) (now : Int)

def upgrades (config : UpdateConfig) : Machine Upgrades UpgradeEvent where
  step s
    | .update attempt =>
        ⟨(call (run config { attempt with faults := noFaults }) s.host).2,
          if attempt.installs.isSome then some s.host.installed else s.target⟩
    | .record now items =>
        let host := (call (recordCycleWithParity noFaults config.paths now items) s.host).2
        let validated := phase s.host = some .execHandover ∧ phase host = some .validated
        ⟨host, if validated then none else s.target⟩
    | .rollback reason restart now =>
        ⟨(call (doRollback noFaults config.paths reason restart now) s.host).2, s.target⟩

/-- A rollback would succeed and bring that image back. -/
def Restores (paths : Paths) (s : Upgrades) : Prop :=
  ∀ image, s.target = some image → Restorable paths s.host image

/-- An attempt that fails before the swap leaves an upgrade in flight as it was. -/
def KeepsPhase (t : Machine.Transition Upgrades UpgradeEvent) : Prop :=
  ∀ attempt, t.event = .update attempt → attempt.installs = none → t.before.target ≠ none →
    phase t.before.host = some .execHandover → phase t.after.host = some .execHandover

/-- The backup of a swap has the last name, or the one that has holds the same image. An
attempt that fails before the swap of an upgrade that is not validated yet backs up the
image to go back to, not the new one, and does not fail the self-test while the upgrade is
in flight. -/
def KeepsWayBack (s : Upgrades) : UpgradeEvent → Prop
  | .update attempt =>
      match attempt.installs with
      | some _ => newestBackup attempt.stamp s.host = s.host.installed
      | none => ∀ image, s.target = some image →
          newestBackup attempt.stamp s.host = image ∧
            sha256Hex image = sha256Hex s.host.installed ∧
            (attempt.testFails → phase s.host ≠ some .execHandover)
  | .record _ _ => True
  | .rollback _ _ _ => True

theorem update_iff (config : UpdateConfig) (s : Upgrades) (attempt : Attempt) :
    Restores config.paths ((upgrades config).step s (.update attempt)) ∧
        KeepsPhase ⟨s, .update attempt, (upgrades config).step s (.update attempt)⟩ ↔
      KeepsWayBack s (.update attempt) := by
  obtain ⟨hbackups, hmanifest, hcase⟩ := run_noFaults config attempt s.host
  have hrestorable {image : Image} : Restorable config.paths
      (call (run config { attempt with faults := noFaults }) s.host).2 image ↔
        newestBackup attempt.stamp s.host = image ∧
          sha256Hex image = sha256Hex s.host.installed := restorable_backedUp hbackups hmanifest
  unfold KeepsWayBack Restores KeepsPhase
  simp only [upgrades]
  cases hinstalls : attempt.installs with
  | some new =>
    rw [hinstalls] at hcase
    constructor
    · rintro ⟨hrestores, -⟩
      exact (hrestorable.mp (hrestores _ rfl)).1
    · intro hnewest
      refine ⟨?_, ?_⟩
      · rintro image ⟨⟩
        exact hrestorable.mpr ⟨hnewest, rfl⟩
      · rintro _ ⟨⟩ hnone
        rw [hinstalls] at hnone
        cases hnone
  | none =>
    rw [hinstalls] at hcase
    obtain ⟨-, hphase⟩ := hcase
    constructor
    · rintro ⟨hrestores, hkeeps⟩ image htarget
      obtain ⟨hnewest, hsha⟩ := hrestorable.mp (hrestores image htarget)
      refine ⟨hnewest, hsha, fun hfails hexec => ?_⟩
      have hstill := hkeeps attempt rfl hinstalls (by rw [htarget]; nofun) hexec
      rw [hphase, if_pos hfails] at hstill
      cases hstill
    · intro hway
      refine ⟨fun image htarget => ?_, ?_⟩
      · obtain ⟨hnewest, hsha, -⟩ := hway image htarget
        exact hrestorable.mpr ⟨hnewest, hsha⟩
      · rintro _ ⟨⟩ - htarget hexec
        obtain ⟨image, himage⟩ := Option.ne_none_iff_exists'.mp htarget
        obtain ⟨-, -, hfails⟩ := hway image himage
        have hpasses : ¬ attempt.testFails := fun htest => hfails htest hexec
        rw [hphase, if_neg hpasses]
        exact hexec

theorem wayBack_step_iff {config : UpdateConfig} {s : Upgrades} (h : Restores config.paths s)
    (e : UpgradeEvent) :
    Restores config.paths ((upgrades config).step s e) ∧
        KeepsPhase ⟨s, e, (upgrades config).step s e⟩ ↔ KeepsWayBack s e := by
  cases e with
  | update attempt => exact update_iff config s attempt
  | record now items =>
    refine iff_of_true ⟨fun image htarget => ?_, nofun⟩ trivial
    simp only [upgrades] at htarget ⊢
    split at htarget
    · cases htarget
    · exact (restorable_congr (recordCycle_keeps_backups config.paths now items s.host)).mpr
        (h image htarget)
  | rollback reason restart now =>
    refine iff_of_true ⟨fun image htarget => ?_, nofun⟩ trivial
    exact (restorable_congr (doRollback_keeps_backups config.paths reason restart now s.host)).mpr
      (h image htarget)

/-- Throughout every run a rollback of an upgrade that is not validated would bring back
what was installed before it, and attempts that fail before their swap leave an upgrade in
flight alone, exactly if every attempt keeps the way back. -/
theorem way_back_kept_iff (config : UpdateConfig) (host : Host) (events : List UpgradeEvent) :
    (∀ t ∈ (upgrades config).trace ⟨host, none⟩ events,
        Restores config.paths t.after ∧ KeepsPhase t) ↔
      ∀ t ∈ (upgrades config).trace ⟨host, none⟩ events, KeepsWayBack t.before t.event := by
  have hstart : Restores config.paths ⟨host, none⟩ := fun _ htarget => by cases htarget
  exact (upgrades config).throughout_step_iff (P := Restores config.paths)
    (fun _ e h => wayBack_step_iff h e) hstart events

def goodCandidate : Attempt where
  faults := noFaults
  candidate := some [2]
  test := .ended (some 0) ""
  handover := none
  inFlight := (0, 0)
  now := 0
  stamp := "2025-01-01T00-00-00Z"

def badCandidate : Attempt :=
  { goodCandidate with
    candidate := some [3]
    test := .ended (some 1) "boom"
    now := 3600
    stamp := "2025-01-01T01-00-00Z" }

/-- After a swap and a failed attempt, a rollback keeps the new image, and the phase no
longer tells of the upgrade. -/
theorem failed_attempt_loses_way_back :
    let s := (upgrades defaultConfig).run ⟨.fresh [1], none⟩
      [.update goodCandidate, .update badCandidate]
    ¬ Restores homePaths s ∧
      (call (doRollback noFaults homePaths "operator-invoked rollback" none 0) s.host).2.installed =
        [2] ∧
      phase s.host = some .pretestFailed := by
  intro s
  have hrolled : (call (doRollback noFaults homePaths "operator-invoked rollback" none 0)
      s.host).2.installed = [2] := by decide +kernel
  refine ⟨fun h => ?_, hrolled, by decide⟩
  obtain ⟨outcome, host', hcall, hinstalled⟩ :=
    h [1] (by decide) "operator-invoked rollback" none 0
  rw [hcall, hinstalled] at hrolled
  cases hrolled

end Simard.SafeUpdate
