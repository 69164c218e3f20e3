import Simard.SafeUpdate.State

/-! Backups of the installed binary, and the rollback that restores the newest one. -/
namespace Simard.SafeUpdate
open Simard.Library Action

def defaultBackupRetention : Nat := 5

/-- Names sort like the times in them, so that the last name is the newest. -/
def latestBackup (faults : Faults) (host : Host) : Option (String × Image) :=
  match faults .rollbackList with
  | none => host.backups.greatest
  | some _ => none

def pruneBackups (faults : Faults) (paths : Paths) (retention : Nat) : HostAction Unit := do
  io faults .backupsList (.snapshotIo "read bin_dir" paths.binDir)
  let host ← get
  match (host.backups.entries.reverse.drop retention).head? with
  | none => return
  | some (stamp, _) =>
      io faults .backupPrune (.snapshotIo "prune" (paths.backupPath stamp))
      set { host with backups := host.backups.keepGreatest retention }

/-- Back the installed binary up under the time it is, and note what it was. -/
def takeSnapshotOf (faults : Faults) (paths : Paths) (retention : Nat) (stamp : String) :
    HostAction BinarySnapshot := do
  let path := paths.backupPath stamp
  io faults .binaryRead (.snapshotIo "read" paths.installPath)
  let bytes := (← get).installed
  io faults .backupMkdir (.snapshotIo "mkdir bin_dir" paths.binDir)
  io faults .backupWrite (.snapshotIo "write backup" path)
  modify fun host => { host with backups := host.backups.insert stamp bytes }
  io faults .backupStat (.snapshotIo "stat for chmod" path)
  io faults .backupChmod (.snapshotIo "chmod 0755" path)
  let snapshot : BinarySnapshot := ⟨sha256Hex bytes, readEmbeddedVersion bytes, path⟩
  io faults .manifestMkdir (.snapshotIo "mkdir state_dir" paths.stateDir)
  io faults .manifestWrite (.snapshotIo "write manifest" paths.manifestPath)
  modify fun host => { host with manifest := some (.ok snapshot) }
  pruneBackups faults paths retention
  return snapshot

def takeSnapshot (faults : Faults) (paths : Paths) (stamp : String) :
    HostAction BinarySnapshot := do
  io faults .currentExe (.snapshotIo "current_exe" "(current_exe)")
  takeSnapshotOf faults paths defaultBackupRetention stamp

def readSnapshot (faults : Faults) (step : Io) (paths : Paths) :
    HostAction (Option BinarySnapshot) := do
  match (← get).manifest with
  | none => return none
  | some content =>
      io faults step (.snapshotIo "read manifest" paths.manifestPath)
      check (match content with
        | .ok snapshot => .ok (some snapshot)
        | .error e => .error (.snapshotIo "parse manifest" paths.manifestPath e))

structure RollbackOutcome where
  backupUsed : String
  restartWarning : Option String
  deriving DecidableEq

def tryRestart : Option (Option String) → HostAction (Option String)
  | some none => do
      modify fun host => { host with running := host.installed }
      return none
  | some (some warning) => return some warning
  | none => return none

def verifiedBackup (faults : Faults) (paths : Paths) : HostAction (String × Image) := do
  let host ← get
  let (stamp, bytes) ← check (match latestBackup faults host with
    | some backup => .ok backup
    | none => .error (.rollbackBackupMissing paths.binDir "no simard.bak.* file present"))
  io faults .rollbackRead (.rollbackBackupMissing (paths.backupPath stamp))
  let snapshot ← readSnapshot faults .manifestRead paths
  check (match snapshot with
    | some snapshot =>
        if sha256Hex bytes = snapshot.sha256 then .ok () else .error .rollbackBackupCorrupt
    | none => .ok ())
  return (stamp, bytes)

def restoreBackup (faults : Faults) (paths : Paths) : HostAction String := do
  let (stamp, bytes) ← verifiedBackup faults paths
  let sibling := paths.installDir ++ "/.simard.rollback-" ++ toString paths.pid
  io faults .rollbackMkdir fun e => .rollbackRestoreFailed paths.installDir ("mkdir: " ++ e)
  io faults .rollbackWrite fun e => .rollbackRestoreFailed sibling ("write: " ++ e)
  io faults .rollbackRename fun e => .rollbackRestoreFailed paths.installPath ("rename: " ++ e)
  modify fun host => { host with installed := bytes }
  io faults .rollbackStat fun e => .rollbackRestoreFailed paths.installPath ("stat: " ++ e)
  io faults .rollbackChmod fun e => .rollbackRestoreFailed paths.installPath ("chmod: " ++ e)
  return paths.backupPath stamp

/-- Restore, restart and note it; `restart` is the outcome of the restart command, if one
is given. -/
def doRollback (faults : Faults) (paths : Paths) (reason : String)
    (restart : Option (Option String)) (now : Int) : HostAction RollbackOutcome := do
  let backup ← restoreBackup faults paths
  let warning ← tryRestart restart
  let restored ← readSnapshot faults .manifestReread paths
  writeStatus faults paths (.rolledBack now reason (restored.map (·.version)))
  return ⟨backup, warning⟩

section Backup

variable {γ : Type} {part : Host → γ} {faults : Faults} {paths : Paths}

theorem pruneBackups_keeps (h : ∀ host backups, part { host with backups := backups } = part host)
    (retention : Nat) : Keeps part (pruneBackups faults paths retention) := by
  refine .bind keeps_io fun _ host => ?_
  rw [call_get_bind]
  split
  · rfl
  · rw [call_bind]
    unfold io
    cases faults .backupPrune with
    | none => exact h host _
    | some reason => rfl

theorem takeSnapshotOf_keeps (h : ∀ host backups, part { host with backups := backups } = part host)
    (hmanifest : ∀ host manifest, part { host with manifest := manifest } = part host)
    (retention : Nat) (stamp : String) :
    Keeps part (takeSnapshotOf faults paths retention stamp) := by
  refine .bind keeps_io fun _ => .bind .get fun host => .bind keeps_io fun _ => ?_
  refine .bind keeps_io fun _ => .bind (.modifies fun host => h host _) fun _ => ?_
  refine .bind keeps_io fun _ => .bind keeps_io fun _ => ?_
  refine .bind keeps_io fun _ => .bind keeps_io fun _ => ?_
  refine .bind (.modifies fun host => hmanifest host _) fun _ => ?_
  exact .bind (pruneBackups_keeps h _) fun _ => .pure _

end Backup

section Rollback

variable {faults : Faults} {paths : Paths} {host : Host}

theorem call_readSnapshot (step : Io) :
    (call (readSnapshot faults step paths) host).2 = host := by
  unfold readSnapshot io
  rw [call_get_bind]
  split
  · rfl
  · cases faults step <;> rfl

theorem call_verifiedBackup : (call (verifiedBackup faults paths) host).2 = host := by
  unfold verifiedBackup
  rw [call_get_bind]
  cases latestBackup faults host with
  | none => rfl
  | some backup =>
    have hread : Keeps id (readSnapshot faults .manifestRead paths) := fun _ =>
      call_readSnapshot .manifestRead
    have hkeeps (found : String × Image) : Keeps id (do
        io faults .rollbackRead (.rollbackBackupMissing (paths.backupPath found.1))
        let snapshot ← readSnapshot faults .manifestRead paths
        check (match snapshot with
          | some snapshot =>
              if sha256Hex found.2 = snapshot.sha256 then .ok () else .error .rollbackBackupCorrupt
          | none => .ok ())
        return found) :=
      .bind keeps_io fun _ => .bind hread fun _ => .bind (.check _) fun _ => .pure _
    exact hkeeps backup host

theorem restoreBackup_keeps {γ : Type} {part : Host → γ}
    (h : ∀ host bytes, part { host with installed := bytes } = part host) :
    Keeps part (restoreBackup faults paths) := by
  have hverified : Keeps part (verifiedBackup faults paths) := fun _ =>
    congrArg part call_verifiedBackup
  refine .bind hverified fun found => ?_
  refine .bind keeps_io fun _ => .bind keeps_io fun _ => .bind keeps_io fun _ => ?_
  refine .bind (.modifies fun host => h host _) fun _ => ?_
  exact .bind keeps_io fun _ => .bind keeps_io fun _ => .pure _

theorem tryRestart_keeps {γ : Type} {part : Host → γ}
    (h : ∀ host, part { host with running := host.installed } = part host)
    (restart : Option (Option String)) : Keeps part (tryRestart restart) := by
  unfold tryRestart
  split
  · exact .bind (.modifies h) fun _ => .pure _
  · exact .pure _
  · exact .pure _

def RollsBack (host host' : Host) : Prop :=
  host'.status = host.status ∨
    ∃ status, host'.status = some (.ok status) ∧ status.phase = .rolledBack

instance : IsTrans Host RollsBack where
  trans := by
    rintro first second third hfirst (hsame | hrolled)
    · unfold RollsBack
      rw [hsame]
      exact hfirst
    · exact .inr hrolled

theorem doRollback_rollsBack (reason : String) (restart : Option (Option String)) (now : Int) :
    Leaves RollsBack (doRollback faults paths reason restart now) := by
  have hstatus {α : Type} {action : HostAction α} (h : Keeps Host.status action) :
      Leaves RollsBack action := h.leaves fun _ _ => .inl
  have hrestart : Keeps Host.status (tryRestart restart) := tryRestart_keeps (fun _ => rfl) restart
  have hread : Keeps Host.status (readSnapshot faults .manifestReread paths) := fun _ =>
    congrArg Host.status (call_readSnapshot .manifestReread)
  refine .bind (hstatus (restoreBackup_keeps fun _ _ => rfl)) fun backup => ?_
  refine .bind (hstatus hrestart) fun warning => .bind (hstatus hread) fun restored => ?_
  refine .bind ?_ fun _ => hstatus (.pure _)
  intro host
  rcases call_writeStatus faults paths (.rolledBack now reason (restored.map (·.version))) host with
    ⟨e, hfailed⟩ | hwritten
  · rw [hfailed]
    exact .inl rfl
  · rw [hwritten]
    exact .inr ⟨_, rfl, rfl⟩

end Rollback

end Simard.SafeUpdate
