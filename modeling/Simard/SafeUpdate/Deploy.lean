import Simard.SafeUpdate.Draining
import Simard.SafeUpdate.WayBack

/-! Self-deploy: a candidate built from merged source is gated, the binary backed up,
dispatch drained, the binary swapped, the daemon restarted and its health checked; a
failed restart and an unhealthy daemon are rolled back. -/
namespace Simard.SafeUpdate
open Simard.Library Action

/-- The probes of a health check, and the verdict. -/
structure SelfHealthReport where
  healthy : Bool
  versionAdvanced : Bool
  memoryIntact : Bool
  goalBoardIntact : Bool
  brainsLlmBacked : Bool
  noQuarantine : Bool
  deriving DecidableEq

def summarize (report : SelfHealthReport) : String :=
  let probes :=
    [(report.versionAdvanced, "version_advanced"), (report.memoryIntact, "memory_intact"),
    (report.goalBoardIntact, "goal_board_intact"), (report.brainsLlmBacked, "brains_llm_backed"),
    (report.noQuarantine, "no_quarantine")]
  let bad := (probes.filter (!·.1)).map (·.2)
  if bad.isEmpty then "all probes healthy" else ", ".intercalate bad

/-- What the steps of a deploy meet: the build, the candidate's self-test, the memory
store and its export, the orphans that are reaped, the restart and the health check. -/
structure DeployRun where
  faults : Faults
  build : Except SafeUpdateError Image
  gate : SelfTest
  pretestTimeoutSeconds : Nat
  store : Option String
  memoryExport : Option String
  stamp : String
  now : Int
  orphans : Except SafeUpdateError Nat
  restart : Option String
  health : Except String SelfHealthReport

structure SelfDeployOutcome where
  binaryBackup : String
  reapedOrphans : Nat
  health : SelfHealthReport
  deriving DecidableEq

namespace DeployRun

variable (deploy : DeployRun) (paths : Paths)

def gateCandidate : HostAction Unit := do
  let pretest ← runPretest deploy.faults paths deploy.pretestTimeoutSeconds deploy.gate
  check (if pretest.passed then .ok () else .error (.gateFailed "self-test" pretest.detail))

def failure {α : Type} (outcome : Option String) (error : String → SafeUpdateError) (a : α) :
    Except SafeUpdateError α :=
  match outcome with
  | none => .ok a
  | some reason => .error (error reason)

def takeBackup : HostAction String := do
  check (failure deploy.store .healthCheckFailed ())
  check (failure deploy.memoryExport (.backupFailed "memory") ())
  let snapshot ← mapError (fun e => .backupFailed "binary" e.display)
    (takeSnapshotOf deploy.faults paths defaultBackupRetention deploy.stamp)
  return snapshot.backupPath

def drain : HostAction Unit := markDraining deploy.faults paths

def undrain : HostAction Unit := unmarkDraining deploy.faults paths

def swap (candidate : Image) : HostAction Unit := do
  let _ ← atomicInstall deploy.faults paths (some candidate)

def restartDaemon : HostAction Unit := do
  check (failure deploy.restart .swapHandoverFailed ())
  modify fun host => { host with running := host.installed }

def healthCheck : HostAction SelfHealthReport :=
  check (match deploy.health with
    | .ok report => .ok report
    | .error e => .error (.healthCheckFailed e))

def rollback (reason : String) : HostAction Unit := do
  let _ ← doRollback deploy.faults paths reason none deploy.now

def rollbackThen (reason : String) : HostAction SelfDeployOutcome := do
  match ← Action.attempt (deploy.rollback paths reason) with
  | .ok _ => check (.error (.rolledBack reason))
  | .error e => check (.error
      (.rollbackFailed (reason ++ "; rollback also failed: " ++ SafeUpdateError.display e)))

def runAfterDrain (candidate : Image) (backup : String) : HostAction SelfDeployOutcome := do
  let reaped ← check deploy.orphans
  deploy.swap paths candidate
  match ← Action.attempt deploy.restartDaemon with
  | .error e => deploy.rollbackThen paths ("restart failed: " ++ SafeUpdateError.display e)
  | .ok _ =>
      let health ← deploy.healthCheck
      if !health.healthy then
        deploy.rollbackThen paths ("health check failed: " ++ summarize health)
      else return ⟨backup, reaped, health⟩

def prepare : HostAction (Image × String) := do
  let candidate ← check deploy.build
  deploy.gateCandidate paths
  let backup ← deploy.takeBackup paths
  deploy.drain paths
  return (candidate, backup)

def runSequence : HostAction SelfDeployOutcome := do
  let (candidate, backup) ← deploy.prepare paths
  let outcome ← Action.attempt (deploy.runAfterDrain paths candidate backup)
  let _ ← Action.attempt (deploy.undrain paths)
  check outcome

/-- The candidate is installed, runs and is healthy, or everything is as it was; unless
the rollback fails, which is an alert. -/
def Settled (host host' : Host) : Except SafeUpdateError SelfDeployOutcome → Prop
  | .ok outcome => deploy.build = .ok host'.installed ∧ deploy.restart = none ∧
      host'.running = host'.installed ∧ outcome.health.healthy = true
  | .error (.rollbackFailed _) => True
  | .error _ => host'.installed = host.installed ∧ host'.running = host.running

structure AllOrNothing (host : Host) : Prop where
  settled : deploy.Settled host (call (deploy.runSequence paths) host).2
    (call (deploy.runSequence paths) host).1
  reopened : ∀ prepared marked, call (deploy.prepare paths) host = (.ok prepared, marked) →
    (call (deploy.runSequence paths) host).2.draining = (deploy.faults .drainRemove).isSome

/-- Nothing stops the sequence before the swap window. -/
structure Prepared (host : Host) (candidate : Image) : Prop where
  built : deploy.build = .ok candidate
  gated : deploy.faults .pretestMkdir = none ∧ ∃ detail, deploy.gate = .ended (some 0) detail
  stored : deploy.store = none ∧ deploy.memoryExport = none
  backedUp : ∀ step ∈ snapshotSteps, deploy.faults step = none
  pruned : (host.backups.insert deploy.stamp host.installed).entries.length ≤
    defaultBackupRetention ∨ deploy.faults .backupPrune = none
  drained : deploy.faults .drainMkdir = none ∧ deploy.faults .drainWrite = none

section Prepare

variable {deploy paths}

theorem gateCandidate_ok {host host' : Host} {u : Unit} :
    call (deploy.gateCandidate paths) host = (.ok u, host') ↔
      (deploy.faults .pretestMkdir = none ∧ ∃ detail, deploy.gate = .ended (some 0) detail) ∧
        host' = host := by
  unfold gateCandidate runPretest
  rw [bind_assoc, io_bind_ok]
  cases deploy.gate with
  | notSpawned reason => simp
  | waitFailed reason => simp
  | timedOut => simp
  | ended code detail =>
    rw [call_check_ok, call_check]
    by_cases hcode : code = some 0
    · simp [hcode, eq_comm]
    · simp [hcode]

theorem takeBackup_ok {host host' : Host} {backup : String} :
    call (deploy.takeBackup paths) host = (.ok backup, host') ↔
      (deploy.store = none ∧ deploy.memoryExport = none) ∧
      (∀ step ∈ snapshotSteps, deploy.faults step = none) ∧
      ((host.backups.insert deploy.stamp host.installed).entries.length ≤ defaultBackupRetention ∨
        deploy.faults .backupPrune = none) ∧
      backup = paths.backupPath deploy.stamp ∧ host' = host.backedUp paths deploy.stamp := by
  unfold takeBackup failure
  cases deploy.store with
  | some reason => simp
  | none =>
    cases deploy.memoryExport with
    | some reason => simp
    | none =>
      rw [call_check_ok, call_check_ok, call_bind_ok]
      simp only [mapError_ok, takeSnapshotOf_ok, call_pure, Prod.mk.injEq, Except.ok.injEq]
      constructor
      · rintro ⟨_, _, ⟨hsteps, hprune, rfl, rfl⟩, rfl, rfl⟩
        exact ⟨⟨trivial, trivial⟩, hsteps, hprune, rfl, rfl⟩
      · rintro ⟨-, hsteps, hprune, rfl, rfl⟩
        exact ⟨_, _, ⟨hsteps, hprune, rfl, rfl⟩, rfl, rfl⟩

theorem markDraining_ok {faults : Faults} {host host' : Host} {u : Unit} :
    call (markDraining faults paths) host = (.ok u, host') ↔
      (faults .drainMkdir = none ∧ faults .drainWrite = none) ∧
        host' = { host with draining := true } := by
  unfold markDraining
  rw [io_bind_ok, io_bind_ok, call_modify]
  simp [eq_comm, and_assoc]

theorem prepare_ok {host host' : Host} {candidate : Image} {backup : String} :
    call (deploy.prepare paths) host = (.ok (candidate, backup), host') ↔
      deploy.Prepared host candidate ∧ backup = paths.backupPath deploy.stamp ∧
        host' = { host.backedUp paths deploy.stamp with draining := true } := by
  unfold prepare drain
  constructor
  · intro h
    obtain ⟨built, _, hbuilt, h⟩ := call_bind_ok.mp h
    obtain ⟨_, _, hgate, h⟩ := call_bind_ok.mp h
    obtain ⟨_, _, hbackup, h⟩ := call_bind_ok.mp h
    obtain ⟨_, _, hdrain, h⟩ := call_bind_ok.mp h
    cases h
    rw [call_check, Prod.mk.injEq] at hbuilt
    obtain ⟨hbuilt, rfl⟩ := hbuilt
    obtain ⟨hgated, rfl⟩ := gateCandidate_ok.mp hgate
    obtain ⟨hstored, hsteps, hpruned, rfl, rfl⟩ := takeBackup_ok.mp hbackup
    obtain ⟨hdrained, rfl⟩ := markDraining_ok.mp hdrain
    exact ⟨⟨hbuilt, hgated, hstored, hsteps, hpruned, hdrained⟩, rfl, rfl⟩
  · rintro ⟨⟨hbuilt, hgated, hstored, hsteps, hpruned, hdrained⟩, rfl, rfl⟩
    refine call_bind_ok.mpr ⟨candidate, host, by rw [call_check, hbuilt], ?_⟩
    refine call_bind_ok.mpr ⟨(), host, gateCandidate_ok.mpr ⟨hgated, rfl⟩, ?_⟩
    refine call_bind_ok.mpr ⟨_, _, takeBackup_ok.mpr ⟨hstored, hsteps, hpruned, rfl, rfl⟩, ?_⟩
    exact call_bind_ok.mpr ⟨(), _, markDraining_ok.mpr ⟨hdrained, rfl⟩, rfl⟩

theorem prepare_keeps :
    Keeps (fun host => (host.installed, host.running)) (deploy.prepare paths) := by
  have hbackup : Keeps (fun host => (host.installed, host.running))
      (takeSnapshotOf deploy.faults paths defaultBackupRetention deploy.stamp) :=
    takeSnapshotOf_keeps (fun _ _ => rfl) (fun _ _ => rfl) _ _
  refine .bind (.check _) fun candidate => ?_
  refine .bind (.bind (.bind keeps_io fun _ => .check _) fun _ => .check _) fun _ => ?_
  refine .bind (.bind (.check _) fun _ => .bind (.check _) fun _ => .bind ?_ fun _ => .pure _)
    fun _ => ?_
  · intro host
    rw [call_mapError]
    exact hbackup host
  · refine .bind (.bind keeps_io fun _ => .bind keeps_io fun _ => ?_) fun _ => .pure _
    exact .modifies fun _ => rfl

end Prepare

/-- The candidate comes to the install path, by rename or by copy. -/
def Replaces (faults : Faults) : Prop :=
  faults .swapMkdir = none ∧
    (faults .swapRename = none ∨ faults .swapCopy = none ∧ faults .swapRenameCopy = none)

/-- Nothing that a rollback does fails, and the newest backup has the digest of the one
just written. -/
def CanRollBack (host : Host) : Prop :=
  (∀ step ∈ restoreSteps ++ statusSteps ++ [.manifestRead, .manifestReread],
    deploy.faults step = none) ∧
  sha256Hex (newestBackup deploy.stamp host) = sha256Hex host.installed

/-- A swap that replaces the binary and fails after that, and a health check that fails to
answer, are not rolled back; a rollback restores the newest backup by name and does not
restart the daemon. Only a candidate that is the old image hides that. -/
def Mends (host : Host) (candidate : Image) : Prop :=
  if deploy.faults .swapStat = none ∧ deploy.faults .swapChmod = none then
    match deploy.restart, deploy.health with
    | some _, _ => deploy.CanRollBack host → newestBackup deploy.stamp host = host.installed
    | none, .error _ => candidate = host.installed ∧ candidate = host.running
    | none, .ok report => report.healthy = false → deploy.CanRollBack host →
        newestBackup deploy.stamp host = host.installed ∧ candidate = host.running
  else candidate = host.installed

/-- A candidate that gets to the install path mends what goes wrong from there on. -/
def Recovers (host : Host) : Prop :=
  ∀ candidate, deploy.Prepared host candidate → (∃ reaped, deploy.orphans = .ok reaped) →
    Replaces deploy.faults → deploy.Mends host candidate

section Settle

variable {deploy paths}

theorem settled_congr {host host' host'' : Host} {result : Except SafeUpdateError SelfDeployOutcome}
    (h : (host'.installed, host'.running) = (host''.installed, host''.running)) :
    deploy.Settled host host' result ↔ deploy.Settled host host'' result := by
  obtain ⟨hinstalled, hrunning⟩ := Prod.mk.inj h
  unfold Settled
  rw [hinstalled, hrunning]

theorem settled_of_kept {host host' : Host} (e : SafeUpdateError)
    (h : host'.installed = host.installed ∧ host'.running = host.running) :
    deploy.Settled host host' (.error e) := by
  cases e <;> first | exact h | trivial

theorem swap_cases (candidate : Image) (host : Host) :
    (¬ Replaces deploy.faults ∧
      ∃ reason, call (deploy.swap paths candidate) host = (.error (.swapFailed reason), host)) ∨
    (Replaces deploy.faults ∧
      ¬ (deploy.faults .swapStat = none ∧ deploy.faults .swapChmod = none) ∧
      ∃ reason, call (deploy.swap paths candidate) host =
        (.error (.swapFailed reason), { host with installed := candidate })) ∨
    (Replaces deploy.faults ∧ (deploy.faults .swapStat = none ∧ deploy.faults .swapChmod = none) ∧
      call (deploy.swap paths candidate) host =
        (.ok (), { host with installed := candidate })) := by
  unfold Replaces swap atomicInstall setExecutable io
  cases deploy.faults .swapMkdir with
  | some reason => exact .inl ⟨nofun, _, rfl⟩
  | none =>
    cases deploy.faults .swapRename with
    | none =>
      cases deploy.faults .swapStat with
      | some reason => exact .inr (.inl ⟨⟨rfl, .inl rfl⟩, nofun, _, rfl⟩)
      | none =>
        cases deploy.faults .swapChmod with
        | some reason => exact .inr (.inl ⟨⟨rfl, .inl rfl⟩, nofun, _, rfl⟩)
        | none => exact .inr (.inr ⟨⟨rfl, .inl rfl⟩, ⟨rfl, rfl⟩, rfl⟩)
    | some reason =>
      cases deploy.faults .swapCopy with
      | some reason => exact .inl ⟨by simp, _, rfl⟩
      | none =>
        cases deploy.faults .swapRenameCopy with
        | some reason => exact .inl ⟨by simp, _, rfl⟩
        | none =>
          cases deploy.faults .swapStat with
          | some reason => exact .inr (.inl ⟨⟨rfl, .inr ⟨rfl, rfl⟩⟩, nofun, _, rfl⟩)
          | none =>
            cases deploy.faults .swapChmod with
            | some reason => exact .inr (.inl ⟨⟨rfl, .inr ⟨rfl, rfl⟩⟩, nofun, _, rfl⟩)
            | none => exact .inr (.inr ⟨⟨rfl, .inr ⟨rfl, rfl⟩⟩, ⟨rfl, rfl⟩, rfl⟩)

theorem rollbackThen_settled {host host' : Host}
    (hbackups : host'.backups = (host.backedUp paths deploy.stamp).backups)
    (hmanifest : host'.manifest = (host.backedUp paths deploy.stamp).manifest) (reason : String) :
    deploy.Settled host (call (deploy.rollbackThen paths reason) host').2
        (call (deploy.rollbackThen paths reason) host').1 ↔
      (deploy.CanRollBack host → newestBackup deploy.stamp host = host.installed ∧
        host'.running = host.running) := by
  obtain ⟨name, hgreatest⟩ := greatest_backedUp paths deploy.stamp host
  have hok {outcome : RollbackOutcome} {host'' : Host} :
      call (doRollback deploy.faults paths reason none deploy.now) host' = (.ok outcome, host'') ↔
        deploy.CanRollBack host ∧ outcome = ⟨paths.backupPath name, none⟩ ∧
          host'' = host'.rolledBack reason none deploy.now (newestBackup deploy.stamp host) := by
    unfold CanRollBack
    rw [doRollback_ok]
    simp only [Vouched, hmanifest, hbackups, hgreatest, List.forall_mem_append]
    constructor
    · rintro ⟨hsteps, hread, _, _, ⟨⟩, hsha, rfl, rfl⟩
      exact ⟨⟨⟨hsteps, by simpa using hread (Option.some_ne_none _)⟩, hsha⟩, rfl, rfl⟩
    · rintro ⟨⟨⟨hsteps, hread⟩, hsha⟩, rfl, rfl⟩
      exact ⟨hsteps, fun _ => by simpa using hread, name, _, rfl, hsha, rfl, rfl⟩
  unfold rollbackThen rollback
  rw [call_attempt_bind, call_bind]
  rcases hcall : call (doRollback deploy.faults paths reason none deploy.now) host' with
    ⟨e | outcome, host''⟩
  · have hcannot : ¬ deploy.CanRollBack host := by
      intro hcan
      rw [hok.mpr ⟨hcan, rfl, rfl⟩] at hcall
      cases hcall
    exact iff_of_true trivial fun hcan => absurd hcan hcannot
  · obtain ⟨hcan, -, rfl⟩ := hok.mp hcall
    change (_ = _ ∧ _ = _) ↔ _
    simp [hcan, Host.rolledBack, call_check]

theorem call_restartDaemon (host : Host) :
    call deploy.restartDaemon host =
      match deploy.restart with
      | none => (.ok (), { host with running := host.installed })
      | some reason => (.error (.swapHandoverFailed reason), host) := by
  unfold restartDaemon failure
  cases deploy.restart <;> rfl

theorem runAfterDrain_settled {host host' : Host} {candidate : Image} (backup : String)
    (hbuilt : deploy.build = .ok candidate)
    (hhost' : host' = { host.backedUp paths deploy.stamp with draining := true }) :
    deploy.Settled host (call (deploy.runAfterDrain paths candidate backup) host').2
        (call (deploy.runAfterDrain paths candidate backup) host').1 ↔
      ((∃ reaped, deploy.orphans = .ok reaped) → Replaces deploy.faults →
        deploy.Mends host candidate) := by
  have hinstalled : host'.installed = host.installed := by rw [hhost']; rfl
  have hrunning : host'.running = host.running := by rw [hhost']; rfl
  have hbackups : host'.backups = (host.backedUp paths deploy.stamp).backups := by rw [hhost']
  have hmanifest : host'.manifest = (host.backedUp paths deploy.stamp).manifest := by rw [hhost']
  unfold runAfterDrain
  cases horphans : deploy.orphans with
  | error e =>
    refine iff_of_true (settled_of_kept e ⟨hinstalled, hrunning⟩) ?_
    rintro ⟨reaped, ⟨⟩⟩
  | ok reaped =>
    rw [call_check_ok, call_bind]
    rcases swap_cases candidate host' with
      ⟨hreplaces, reason, hswap⟩ | ⟨hreplaces, hexecutable, reason, hswap⟩ |
        ⟨hreplaces, hexecutable, hswap⟩
    · rw [hswap]
      exact iff_of_true ⟨hinstalled, hrunning⟩ fun _ hreplaced => absurd hreplaced hreplaces
    · rw [hswap]
      unfold Mends
      rw [if_neg hexecutable]
      change (candidate = host.installed ∧ host'.running = host.running) ↔ _
      simp [hrunning, hreplaces]
    · rw [hswap]
      simp only [Except.ok.injEq, exists_eq', forall_const, hreplaces]
      unfold Mends
      rw [if_pos hexecutable, call_attempt_bind, call_restartDaemon]
      cases hrestart : deploy.restart with
      | some reason =>
        let swapped := { host' with installed := candidate }
        have hrolled : deploy.Settled host _ _ ↔ _ := rollbackThen_settled (show swapped.backups = _
          from hbackups) hmanifest
            ("restart failed: " ++ (SafeUpdateError.swapHandoverFailed reason).display)
        refine hrolled.trans ?_
        simp [swapped, hrunning]
      | none =>
        unfold healthCheck
        cases deploy.health with
        | error e => exact Iff.rfl
        | ok report =>
          change deploy.Settled host (call (if (!report.healthy) = true then _ else _) _).2
            (call (if (!report.healthy) = true then _ else _) _).1 ↔ _
          cases hhealthy : report.healthy with
          | false =>
            let restarted := { host' with installed := candidate, running := candidate }
            have hrolled :=
              rollbackThen_settled (show restarted.backups = _ from hbackups) hmanifest
              ("health check failed: " ++ summarize report)
            exact hrolled.trans ⟨fun h _ => h, fun h => h hhealthy⟩
          | true =>
            refine iff_of_true ⟨hbuilt, hrestart, rfl, hhealthy⟩ fun hunhealthy => ?_
            rw [hhealthy] at hunhealthy
            cases hunhealthy

theorem rollbackThen_keeps_draining (reason : String) :
    Keeps Host.draining (deploy.rollbackThen paths reason) := by
  have hrollback : Keeps Host.draining (doRollback deploy.faults paths reason none deploy.now) := by
    refine .bind (restoreBackup_keeps fun _ _ => rfl) fun _ => ?_
    refine .bind (tryRestart_keeps (fun _ => rfl) none) fun _ => ?_
    refine .bind (fun _ => by rw [call_readSnapshot]) fun _ => ?_
    exact .bind (writeStatus_keeps (fun _ _ => rfl) _) fun _ => .pure _
  refine .bind (.attempt (.bind hrollback fun _ => .pure _)) fun result => ?_
  cases result <;> exact .check _

theorem runAfterDrain_keeps_draining (candidate : Image) (backup : String) :
    Keeps Host.draining (deploy.runAfterDrain paths candidate backup) := by
  refine .bind (.check _) fun reaped => ?_
  refine .bind (.bind (atomicInstall_keeps (fun _ _ => rfl) _) fun _ => .pure _) fun _ => ?_
  have hrestart : Keeps Host.draining deploy.restartDaemon :=
    .bind (.check _) fun _ => .modifies fun _ => rfl
  refine .bind (.attempt hrestart) fun result => ?_
  cases result with
  | error e => exact rollbackThen_keeps_draining _
  | ok _ =>
    refine .bind (.check _) fun health => ?_
    split
    · exact rollbackThen_keeps_draining _
    · exact .pure _

theorem call_runSequence_ok {host marked : Host} {candidate : Image} {backup : String}
    (h : call (deploy.prepare paths) host = (.ok (candidate, backup), marked)) :
    call (deploy.runSequence paths) host =
      ((call (deploy.runAfterDrain paths candidate backup) marked).1,
        (call (deploy.undrain paths)
          (call (deploy.runAfterDrain paths candidate backup) marked).2).2) := by
  unfold runSequence
  rw [call_bind, h]
  rfl

end Settle

/-- A deploy leaves the new binary installed, running and healthy or everything as it was,
and reopens dispatch, exactly if what goes wrong after the swap finds the old image in
place all the same. -/
theorem all_or_nothing_iff (host : Host) :
    deploy.AllOrNothing paths host ↔ deploy.Recovers host := by
  rcases hprepare : call (deploy.prepare paths) host with ⟨e | ⟨candidate, backup⟩, marked⟩
  · have hsequence : call (deploy.runSequence paths) host = (.error e, marked) := by
      unfold runSequence
      rw [call_bind, hprepare]
    refine iff_of_true ⟨?_, ?_⟩ ?_
    · have hkept : ((call (deploy.prepare paths) host).2.installed, _) = _ := prepare_keeps host
      rw [hprepare] at hkept
      rw [hsequence]
      exact settled_of_kept e (Prod.mk.inj hkept)
    · intro prepared marked' hok
      rw [hprepare] at hok
      cases hok
    · intro candidate hprepared
      rw [prepare_ok.mpr ⟨hprepared, rfl, rfl⟩] at hprepare
      cases hprepare
  · obtain ⟨hprepared, -, hmarked⟩ := prepare_ok.mp hprepare
    have hsettled := runAfterDrain_settled backup hprepared.built hmarked
    have hkeeps : Keeps (fun host => (host.installed, host.running)) (deploy.undrain paths) :=
      unmarkDraining_keeps fun _ => rfl
    have hundrained := hkeeps (call (deploy.runAfterDrain paths candidate backup) marked).2
    constructor
    · rintro ⟨hdone, -⟩ candidate' hprepared' horphans hreplaces
      have hsame : candidate' = candidate := by
        have := hprepared'.built.symm.trans hprepared.built
        injection this
      subst hsame
      rw [call_runSequence_ok hprepare] at hdone
      exact hsettled.mp ((settled_congr hundrained).mp hdone) horphans hreplaces
    · intro hrecovers
      refine ⟨?_, fun _ _ _ => ?_⟩
      · rw [call_runSequence_ok hprepare]
        exact (settled_congr hundrained).mpr
          (hsettled.mpr fun horphans hreplaces => hrecovers candidate hprepared horphans hreplaces)
      · rw [call_runSequence_ok hprepare]
        have hkept : (call (deploy.runAfterDrain paths candidate backup) marked).2.draining =
          marked.draining := runAfterDrain_keeps_draining candidate backup marked
        refine (draining_unmark deploy.faults paths _).trans ?_
        rw [hkept, hmarked, Bool.true_and]

end DeployRun

/-- A deploy whose daemon comes up and fails a probe. -/
def unhealthyDeploy : DeployRun where
  faults := noFaults
  build := .ok [2]
  gate := .ended (some 0) ""
  pretestTimeoutSeconds := 300
  store := none
  memoryExport := none
  stamp := "2025-01-01T00-00-00Z"
  now := 0
  orphans := .ok 0
  restart := none
  health := .ok ⟨false, true, false, true, true, true⟩

def uncheckedDeploy : DeployRun :=
  { unhealthyDeploy with health := .error "memory store unavailable" }

/-- The first is reported as rolled back with the candidate still running; the second is
not rolled back at all. -/
theorem candidate_left_running :
    ¬ unhealthyDeploy.AllOrNothing homePaths (.fresh [1]) ∧
      ¬ uncheckedDeploy.AllOrNothing homePaths (.fresh [1]) ∧
      (call (unhealthyDeploy.runSequence homePaths) (.fresh [1])).1 =
        .error (.rolledBack "health check failed: memory_intact") ∧
      (call (unhealthyDeploy.runSequence homePaths) (.fresh [1])).2.running = [2] ∧
      (call (uncheckedDeploy.runSequence homePaths) (.fresh [1])).2.installed = [2] := by
  have hrolled : (call (unhealthyDeploy.runSequence homePaths) (.fresh [1])).1 =
      .error (.rolledBack "health check failed: memory_intact") := by decide +kernel
  have hrunning : (call (unhealthyDeploy.runSequence homePaths) (.fresh [1])).2.running = [2] := by
    decide +kernel
  have hfailed : (call (uncheckedDeploy.runSequence homePaths) (.fresh [1])).1 =
      .error (.healthCheckFailed "memory store unavailable") := by decide
  have hinstalled :
      (call (uncheckedDeploy.runSequence homePaths) (.fresh [1])).2.installed = [2] := by
    decide
  refine ⟨fun h => ?_, fun h => ?_, hrolled, hrunning, hinstalled⟩
  · have hsettled := h.settled
    rw [hrolled] at hsettled
    have hsame := hsettled.2
    rw [hrunning] at hsame
    cases hsame
  · have hsettled := h.settled
    rw [hfailed] at hsettled
    have hsame := hsettled.1
    rw [hinstalled] at hsame
    cases hsame

end Simard.SafeUpdate
