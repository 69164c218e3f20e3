import Simard.Library.Machine
import Simard.SafeUpdate.Update

/-! The drain flag of an update that is given up. The update closes dispatch in its first
phase and opens it in none, so that every way out after the drain leaves it closed until
the daemon boots. -/
namespace Simard.SafeUpdate
open Simard.Library Action

section Keeps

variable (faults : Faults) (paths : Paths)

theorem takeSnapshot_keeps_draining (stamp : String) :
    Keeps Host.draining (takeSnapshot faults paths stamp) :=
  .bind keeps_io fun _ => takeSnapshotOf_keeps (fun _ _ => rfl) (fun _ _ => rfl) _ stamp

theorem runPretest_keeps_draining (seconds : Nat) (test : SelfTest) :
    Keeps Host.draining (runPretest faults paths seconds test) :=
  .bind keeps_io fun _ => .check _

theorem doSwap_keeps_draining (config : UpdateConfig) (candidate : Option Image)
    (handover : Option String) (snapshot : BinarySnapshot) (now : Int) :
    Keeps Host.draining (doSwap faults config candidate handover snapshot now) := by
  refine .bind (atomicInstall_keeps (fun _ _ => rfl) candidate) fun _ => .bind .get fun _ => ?_
  refine .bind (writeStatus_keeps (fun _ _ => rfl) _) fun _ => .bind (.check _) fun _ => ?_
  exact .bind (.modifies fun _ => rfl) fun _ => .pure _

end Keeps

theorem afterDrain_keeps_draining (config : UpdateConfig) (attempt : Attempt)
    (drain : DrainOutcome) : Keeps Host.draining (afterDrain config attempt drain) := by
  refine .bind (takeSnapshot_keeps_draining _ _ _) fun snapshot => ?_
  refine .bind (runPretest_keeps_draining _ _ _ _) fun pretest => ?_
  have hswap : Keeps Host.draining (do
      let renamed ← doSwap attempt.faults config attempt.candidate attempt.handover snapshot
        attempt.now
      return (⟨drain, snapshot, pretest, renamed⟩ : UpdateOutcome)) :=
    .bind (doSwap_keeps_draining _ _ _ _ _ _) fun _ => .pure _
  split
  · refine .bind (.attempt (writeStatus_keeps (fun _ _ => rfl) _)) fun _ => ?_
    exact .bind (.check _) fun _ => hswap
  · exact hswap

theorem draining_of_drained {config : UpdateConfig} {attempt : Attempt} {host : Host}
    {drain : DrainOutcome}
    (h : (call (drainToQuiescence attempt.faults config.paths attempt.inFlight) host).1 =
      .ok drain) : (call (run config attempt) host).2.draining = true := by
  have hmarked : (call (drainToQuiescence attempt.faults config.paths attempt.inFlight)
      host).2.draining = true := by
    revert h
    unfold drainToQuiescence markDraining io
    cases attempt.faults .drainMkdir with
    | some reason => nofun
    | none =>
      cases attempt.faults .drainWrite with
      | some reason => nofun
      | none => intro _; rfl
  unfold run
  rw [call_bind]
  rcases hcall : call (drainToQuiescence attempt.faults config.paths attempt.inFlight) host with
    ⟨result, marked⟩
  rw [hcall] at h hmarked
  cases h
  exact (afterDrain_keeps_draining config attempt drain marked).trans hmarked

def HandoverInFlight (host : Host) : Prop :=
  ∃ status, host.status = some (.ok status) ∧ status.phase = .execHandover

def StatusUnreadable (faults : Faults) (host : Host) : Prop :=
  match host.status with
  | none => False
  | some (.ok _) => (faults .statusRead).isSome
  | some (.error _) => True

def booted (paths : Paths) (faults : Faults) (host : Host) : Host :=
  (call (clearStaleDrainingFlagAtBoot faults paths) host).2

theorem call_readStatus (faults : Faults) (paths : Paths) (host : Host) :
    (call (readStatus faults paths) host).2 = host ∧
      match (call (readStatus faults paths) host).1 with
      | .ok none => host.status = none
      | .ok (some status) => host.status = some (.ok status) ∧ (faults .statusRead).isNone
      | .error _ => StatusUnreadable faults host := by
  unfold readStatus StatusUnreadable io
  rw [call_get_bind]
  rcases hstatus : host.status with _ | (e | status)
  · exact ⟨rfl, rfl⟩
  · cases faults .statusRead <;> exact ⟨rfl, trivial⟩
  · cases faults .statusRead with
    | none => exact ⟨rfl, rfl, rfl⟩
    | some reason => exact ⟨rfl, rfl⟩

theorem draining_unmark (faults : Faults) (paths : Paths) (host : Host) :
    (call (unmarkDraining faults paths) host).2.draining =
      (host.draining && (faults .drainRemove).isSome) := by
  unfold unmarkDraining io
  rw [call_get_bind]
  cases hdraining : host.draining with
  | false => exact hdraining
  | true => cases faults .drainRemove <;> first | rfl | exact hdraining

theorem shouldClear_iff (faults : Faults) (paths : Paths) (host : Host) :
    shouldClear (call (readStatus faults paths) host).1 = false ↔
      HandoverInFlight host ∨ StatusUnreadable faults host := by
  obtain ⟨-, hread⟩ := call_readStatus faults paths host
  unfold shouldClear
  rcases hresult : (call (readStatus faults paths) host).1 with e | (_ | status)
  · rw [hresult] at hread
    exact iff_of_true rfl (.inr hread)
  · rw [hresult] at hread
    simp only at hread
    simp [HandoverInFlight, StatusUnreadable, hread]
  · rw [hresult] at hread
    have hreadable : faults .statusRead = none := by simpa using hread.2
    simp [HandoverInFlight, StatusUnreadable, hread.1, hreadable]

theorem draining_booted (paths : Paths) (faults : Faults) (host : Host) :
    isDraining (booted paths faults host) = true ↔ isDraining host = true ∧
      (HandoverInFlight host ∨ StatusUnreadable faults host ∨ (faults .drainRemove).isSome) := by
  have hsame := (call_readStatus faults paths host).1
  have hclear := shouldClear_iff faults paths host
  unfold booted clearStaleDrainingFlagAtBoot
  rw [call_attempt_bind, hsame, call_get_bind, ← or_assoc, ← hclear]
  generalize shouldClear (call (readStatus faults paths) host).1 = clear
  unfold isDraining
  cases clear with
  | false => simp
  | true =>
    cases hdraining : host.draining with
    | false => simp [hdraining]
    | true =>
      rw [Bool.and_self, if_pos rfl, call_attempt_bind]
      change (call (unmarkDraining faults paths) host).2.draining = true ↔ _
      simp [draining_unmark, hdraining]

def updates (config : UpdateConfig) : Machine Host Attempt where
  step host attempt := (call (run config attempt) host).2

/-- Dispatch is open when the update returns; and after retries and a boot it is closed
only while an upgrade is in flight. -/
structure ReopensDispatch (config : UpdateConfig) (attempt : Attempt) (host : Host) : Prop where
  returns : ∀ e, (call (run config attempt) host).1 = .error e →
    isDraining (call (run config attempt) host).2 = false
  boots : ∀ (retries : List Attempt) (faults : Faults),
    let host' := booted config.paths faults
      ((updates config).run (call (run config attempt) host).2 retries)
    isDraining host' = true → HandoverInFlight host'

def failedTest : Attempt where
  faults := noFaults
  candidate := some [2]
  test := .ended (some 1) "boom"
  handover := none
  inFlight := (0, 0)
  now := 0
  stamp := "2025-01-01T00-00-00Z"

/-- An update that fails after the drain leaves dispatch closed, always; and a later boot
leaves it closed exactly if it was and an upgrade is in flight, or the status cannot be
read, or the flag cannot be removed. -/
theorem aborted_update_stays_closed (config : UpdateConfig) (attempt : Attempt) (host : Host)
    (drain : DrainOutcome) (e : SafeUpdateError)
    (hdrained : (call (drainToQuiescence attempt.faults config.paths attempt.inFlight) host).1 =
      .ok drain) (hfailed : (call (run config attempt) host).1 = .error e) :
    ¬ ReopensDispatch config attempt host ∧
    ∀ (retries : List Attempt) (faults : Faults),
      let retried := (updates config).run (call (run config attempt) host).2 retries
      (isDraining (booted config.paths faults retried) = true ↔ isDraining retried = true ∧
        (HandoverInFlight retried ∨ StatusUnreadable faults retried ∨
          (faults .drainRemove).isSome)) := by
  have hclosed := draining_of_drained hdrained
  refine ⟨fun h => ?_, fun retries faults => draining_booted _ _ _⟩
  have hopen := h.returns e hfailed
  rw [isDraining, hclosed] at hopen
  cases hopen

theorem failed_test_stays_closed :
    ¬ ReopensDispatch defaultConfig failedTest (.fresh [1]) :=
  (aborted_update_stays_closed defaultConfig failedTest (.fresh [1]) ⟨0, 0, 0⟩
    (.pretestSelfTestFailed (some 1) "boom") rfl (by decide)).1

/-- The daemon keeps running and refuses every engineer. -/
theorem failed_test_closes_dispatch :
    (call (run defaultConfig failedTest) (.fresh [1])).1 =
        .error (.pretestSelfTestFailed (some 1) "boom") ∧
      isDraining (call (run defaultConfig failedTest) (.fresh [1])).2 = true ∧
      ¬ ReopensDispatch defaultConfig failedTest (.fresh [1]) := by
  have hfailed : (call (run defaultConfig failedTest) (.fresh [1])).1 =
      .error (.pretestSelfTestFailed (some 1) "boom") := by decide
  have hclosed : isDraining (call (run defaultConfig failedTest) (.fresh [1])).2 = true := by
    decide
  refine ⟨hfailed, hclosed, fun h => ?_⟩
  rw [h.returns _ hfailed] at hclosed
  cases hclosed

end Simard.SafeUpdate
