import Simard.Library.Machine
import Simard.SafeUpdate.Validate

/-! The deadline of an upgrade. Only the incoming binary looks at the clock, when it
records a cycle; the watchdog looks at the phase. A binary that records nothing after
the deadline is therefore never rolled back. -/
namespace Simard.SafeUpdate
open Simard.Library Action

def UpgradeStatus.Records (status : UpgradeStatus) (now : Int) (items : Option Nat)
    (status' : UpgradeStatus) : Prop :=
  if status.phase ≠ .execHandover then status' = status
  else if status.startedAt + status.budget ≤ now then status'.phase = .validateTimeout
  else if min (status.validateCyclesSeen + 1) u32Max < status.requiredCycles then
    status' = { status with validateCyclesSeen := min (status.validateCyclesSeen + 1) u32Max }
  else if memoryParityVerdict status.preUpgradeItemCount items = .ok then
    status'.phase = .validated
  else status'.phase = .validateTimeout

theorem mode_eq_timeout {status : UpgradeStatus} :
    status.mode = .timeout ↔ status.phase = .validateTimeout := by
  unfold UpgradeStatus.mode
  split
  · split <;> simp_all
  all_goals simp_all

section Calls

variable (paths : Paths) {host : Host} {status : UpgradeStatus}
  (hstatus : host.status = some (.ok status))
include hstatus

theorem record_status (now : Int) (items : Option Nat) :
    ∃ status', (call (recordCycleWithParity noFaults paths now items) host).2.status =
      some (.ok status') ∧ status.Records now items status' := by
  unfold recordCycleWithParity UpgradeStatus.Records
  rw [call_readStatus_noFaults hstatus]
  dsimp only
  split
  next =>
    refine ⟨status, ?_, rfl⟩
    unfold enterValidationIfNeeded
    rw [call_readStatus_noFaults hstatus]
    exact hstatus
  split
  next hlate =>
    have hpast : status.startedAt + status.budget ≤ now := by omega
    simp only [if_pos hpast]
    exact ⟨_, rfl, rfl⟩
  next hearly =>
    have hbefore : ¬ status.startedAt + status.budget ≤ now := by omega
    simp only [if_neg hbefore, call_io_noFaults]
    split
    next hlast =>
      have hdone : ¬ min (status.validateCyclesSeen + 1) u32Max < status.requiredCycles :=
        Nat.not_lt.mpr hlast
      simp only [if_neg hdone]
      split
      next hshort =>
        have hnot : ¬ memoryParityVerdict status.preUpgradeItemCount items = .ok := by simp [hshort]
        simp only [if_neg hnot]
        exact ⟨_, rfl, rfl⟩
      next hparity =>
        have hreopened : Keeps Host.status (unmarkDraining noFaults paths >>= fun _ =>
            (pure .validated : HostAction ValidateMode)) :=
          .bind (unmarkDraining_keeps fun _ => rfl) fun _ => .pure _
        simp only [if_pos hparity, call_writeStatus_noFaults]
        exact ⟨_, hreopened _, rfl⟩
    next hmore =>
      have howed : min (status.validateCyclesSeen + 1) u32Max < status.requiredCycles :=
        Nat.not_le.mp hmore
      simp only [if_pos howed]
      exact ⟨_, rfl, rfl⟩

theorem call_enterValidation :
    call (enterValidationIfNeeded noFaults paths) host = (.ok status.mode, host) := by
  unfold enterValidationIfNeeded
  rw [call_readStatus_noFaults hstatus]
  rfl

theorem poll_idle (hphase : status.phase ≠ .validateTimeout) (restart : Option (Option String))
    (now : Int) : call (watchdogPoll noFaults paths restart now) host = (.ok none, host) := by
  unfold watchdogPoll
  rw [call_attempt_bind, call_enterValidation paths hstatus]
  split
  next hok => exact absurd (mode_eq_timeout.mp (Except.ok.inj hok)) hphase
  next => rfl

theorem poll_rollsBack (hphase : status.phase = .validateTimeout)
    (restart : Option (Option String)) (now : Int) :
    (∃ result, (call (watchdogPoll noFaults paths restart now) host).1 = .ok (some result)) ∧
      RollsBack host (call (watchdogPoll noFaults paths restart now) host).2 := by
  unfold watchdogPoll
  rw [call_attempt_bind, call_enterValidation paths hstatus, mode_eq_timeout.mpr hphase]
  exact ⟨⟨_, rfl⟩, doRollback_rollsBack _ restart now host⟩

end Calls

inductive ValidationEvent where
  | record (now : Int) (items : Option Nat)
  | poll (now : Int) (restart : Option (Option String))

namespace ValidationEvent

def time : ValidationEvent → Int
  | .record now _ => now
  | .poll now _ => now

end ValidationEvent

def validation (paths : Paths) : Machine Host ValidationEvent where
  step host
    | .record now items => (call (recordCycleWithParity noFaults paths now items) host).2
    | .poll now restart => (call (watchdogPoll noFaults paths restart now) host).2

def cycles : List ValidationEvent → List (Int × Option Nat)
  | [] => []
  | .record now items :: rest => (now, items) :: cycles rest
  | .poll _ _ :: rest => cycles rest

/-- The binary recorded the cycles it owed, or one too late. -/
def HeardFrom (required : Nat) (deadline : Int) (seen : List (Int × Option Nat)) : Prop :=
  required ≤ seen.length ∨ ∃ cycle ∈ seen, deadline ≤ cycle.1

def inTime (deadline : Int) (seen : List (Int × Option Nat)) : List (Int × Option Nat) :=
  seen.filter (·.1 < deadline)

/-- It recorded the cycles it owed in time, and the last of them saw no loss. -/
def Earned (required : Nat) (deadline : Int) (pre : Option Nat) (seen : List (Int × Option Nat)) :
    Prop :=
  required ≤ (inTime deadline seen).length ∧
    ∀ cycle, (inTime deadline seen)[required - 1]? = some cycle →
      memoryParityVerdict pre cycle.2 = .ok

section Stages

variable {required : Nat} {deadline : Int} {pre : Option Nat} {seen : List (Int × Option Nat)}

theorem HeardFrom.append (h : HeardFrom required deadline seen) (later : List (Int × Option Nat)) :
    HeardFrom required deadline (seen ++ later) := by
  rcases h with hall | ⟨cycle, hcycle, hlate⟩
  · left
    rw [List.length_append]
    omega
  · exact .inr ⟨cycle, List.mem_append_left _ hcycle, hlate⟩

theorem Earned.append (h : Earned required deadline pre seen) (hpos : 1 ≤ required)
    (later : List (Int × Option Nat)) : Earned required deadline pre (seen ++ later) := by
  obtain ⟨hall, hlast⟩ := h
  have happend : inTime deadline (seen ++ later) = inTime deadline seen ++ inTime deadline later :=
    List.filter_append ..
  unfold Earned
  rw [happend, List.length_append]
  refine ⟨by omega, fun cycle hcycle => hlast cycle ?_⟩
  rw [List.getElem?_append_left (by omega)] at hcycle
  exact hcycle

theorem Earned.heardFrom (h : Earned required deadline pre seen) :
    HeardFrom required deadline seen :=
  .inl (h.1.trans (List.length_filter_le _ _))

end Stages

/-- How far an upgrade has come after the cycles seen so far. -/
def Stage (start : UpgradeStatus) (seen : List (Int × Option Nat)) (host : Host) : Prop :=
  let deadline := start.startedAt + start.budget
  ∃ status, host.status = some (.ok status) ∧
    match status.phase with
    | .execHandover =>
        status = { start with validateCyclesSeen := seen.length } ∧
          seen.length < start.requiredCycles ∧ ∀ cycle ∈ seen, cycle.1 < deadline
    | .validated => Earned start.requiredCycles deadline start.preUpgradeItemCount seen
    | .validateTimeout => HeardFrom start.requiredCycles deadline seen
    | .rolledBack => HeardFrom start.requiredCycles deadline seen
    | _ => False

section Runs

variable (paths : Paths) {start : UpgradeStatus} {seen : List (Int × Option Nat)} {host : Host}

theorem stage_record (hphase : start.phase = .execHandover) (hpos : 1 ≤ start.requiredCycles)
    (hu32 : start.requiredCycles ≤ u32Max) (h : Stage start seen host) (now : Int)
    (items : Option Nat) :
    Stage start (seen ++ [(now, items)]) ((validation paths).step host (.record now items)) := by
  obtain ⟨status, hstatus, hstage⟩ := h
  obtain ⟨status', hstatus', hrecords⟩ := record_status paths hstatus now items
  refine ⟨status', hstatus', ?_⟩
  unfold UpgradeStatus.Records at hrecords
  by_cases hexec : status.phase = .execHandover
  · rw [if_neg (not_not.mpr hexec)] at hrecords
    rw [hexec] at hstage
    obtain ⟨rfl, hfew, hintime⟩ := hstage
    change if start.startedAt + start.budget ≤ now then _ else
      if min (seen.length + 1) u32Max < start.requiredCycles then
        status' = { start with validateCyclesSeen := min (seen.length + 1) u32Max } else
      if memoryParityVerdict start.preUpgradeItemCount items = .ok then _ else _ at hrecords
    split at hrecords
    next hlate =>
      rw [hrecords]
      exact .inr ⟨(now, items), List.mem_append_right _ (List.mem_singleton_self _), hlate⟩
    next hearly =>
      have hall : ∀ cycle ∈ seen ++ [(now, items)], cycle.1 < start.startedAt + start.budget := by
        intro cycle hcycle
        rcases List.mem_append.mp hcycle with hcycle | hcycle
        · exact hintime cycle hcycle
        · rw [List.mem_singleton.mp hcycle]
          exact Int.not_le.mp hearly
      split at hrecords
      next hmore =>
        have hcount : min (seen.length + 1) u32Max = seen.length + 1 := by omega
        rw [hcount] at hrecords hmore
        subst hrecords
        rw [List.length_append, List.length_singleton]
        change match start.phase with
          | .execHandover => _
          | .validated => _
          | .validateTimeout => _
          | .rolledBack => _
          | _ => _
        rw [hphase]
        exact ⟨rfl, hmore, hall⟩
      next hdone =>
        have hcount : seen.length + 1 = start.requiredCycles := by omega
        split at hrecords
        next hparity =>
          rw [hrecords]
          have hfilter : inTime (start.startedAt + start.budget) (seen ++ [(now, items)]) =
              seen ++ [(now, items)] :=
            List.filter_eq_self.mpr fun cycle hcycle => by simpa using hall cycle hcycle
          unfold Earned
          rw [hfilter, List.length_append, List.length_singleton]
          refine ⟨by omega, fun cycle hcycle => ?_⟩
          have hlast : start.requiredCycles - 1 = seen.length := by omega
          rw [hlast, List.getElem?_concat_length] at hcycle
          cases hcycle
          exact hparity
        next hshort =>
          rw [hrecords]
          left
          rw [List.length_append, List.length_singleton]
          omega
  · rw [if_pos hexec] at hrecords
    subst hrecords
    split at hstage
    next hexec' => exact absurd hexec' hexec
    next => exact hstage.append hpos _
    next => exact hstage.append _
    next => exact hstage.append _
    next => exact hstage.elim

theorem stage_poll (h : Stage start seen host) (now : Int) (restart : Option (Option String)) :
    Stage start seen ((validation paths).step host (.poll now restart)) := by
  obtain ⟨status, hstatus, hstage⟩ := h
  by_cases htimeout : status.phase = .validateTimeout
  · rw [htimeout] at hstage
    obtain ⟨-, hsame | ⟨rolled, hrolled, hphase⟩⟩ :=
      poll_rollsBack paths hstatus htimeout restart now
    · refine ⟨status, hsame.trans hstatus, ?_⟩
      rw [htimeout]
      exact hstage
    · refine ⟨rolled, hrolled, ?_⟩
      rw [hphase]
      exact hstage
  · have hidle := poll_idle paths hstatus htimeout restart now
    have hstep : (validation paths).step host (.poll now restart) = host := congrArg Prod.snd hidle
    rw [hstep]
    exact ⟨status, hstatus, hstage⟩

theorem stage_run (hphase : start.phase = .execHandover) (hpos : 1 ≤ start.requiredCycles)
    (hu32 : start.requiredCycles ≤ u32Max) (h : Stage start seen host)
    (events : List ValidationEvent) :
    Stage start (seen ++ cycles events) ((validation paths).run host events) := by
  induction events generalizing host seen with
  | nil =>
    rw [cycles, List.append_nil]
    exact h
  | cons e events ih =>
    cases e with
    | record now items =>
      have hnext := ih (stage_record paths hphase hpos hu32 h now items)
      rw [List.append_assoc] at hnext
      exact hnext
    | poll now restart => exact ih (stage_poll paths h now restart)

end Runs

/-- At a poll past the deadline an upgrade that is not validated is rolled back, if it has
not been before. -/
def RollsBackOverdue (paths : Paths) (deadline : Int) (host : Host)
    (events : List ValidationEvent) : Prop :=
  ∀ left now restart right, events = left ++ .poll now restart :: right → deadline ≤ now →
    let host' := (validation paths).run host left
    phase host' ≠ some .validated →
      phase host' = some .rolledBack ∨
        ∃ result, (call (watchdogPoll noFaults paths restart now) host').1 = .ok (some result)

/-- Before such a poll the binary has recorded the cycles it owed, or one too late. -/
def HeardFromOverdue (required : Nat) (start : Int) (budget : Nat)
    (events : List ValidationEvent) : Prop :=
  ∀ left now restart right, events = left ++ ValidationEvent.poll now restart :: right →
    start + budget ≤ now → HeardFrom required (start + asI64 budget) (cycles left)

section Overdue

variable {start : UpgradeStatus} {host : Host}

theorem stage_overdue (paths : Paths) {seen : List (Int × Option Nat)}
    (h : Stage start seen host) (now : Int)
    (restart : Option (Option String)) :
    (phase host ≠ some .validated → phase host = some .rolledBack ∨
      ∃ result, (call (watchdogPoll noFaults paths restart now) host).1 = .ok (some result)) ↔
    HeardFrom start.requiredCycles (start.startedAt + start.budget) seen := by
  obtain ⟨status, hstatus, hstage⟩ := h
  have hphase : phase host = some status.phase := by rw [phase, hstatus]
  rw [hphase]
  split at hstage
  next hexec =>
    have hidle := poll_idle paths hstatus (by rw [hexec]; decide) restart now
    obtain ⟨-, hfew, hintime⟩ := hstage
    refine iff_of_false (fun hacts => ?_) ?_
    · rcases hacts (by rw [hexec]; decide) with hrolled | ⟨result, hresult⟩
      · rw [hexec] at hrolled
        cases hrolled
      · rw [hidle] at hresult
        cases hresult
    · rintro (hall | ⟨cycle, hcycle, hlate⟩)
      · omega
      · have := hintime cycle hcycle
        omega
  next hvalid => exact iff_of_true (fun hnot => absurd (congrArg some hvalid) hnot) hstage.heardFrom
  next htimeout =>
    exact iff_of_true (fun _ => .inr (poll_rollsBack paths hstatus htimeout restart now).1) hstage
  next hrolled => exact iff_of_true (fun _ => .inl (congrArg some hrolled)) hstage
  next => exact hstage.elim

end Overdue

theorem asI64_le (n : Nat) : asI64 n ≤ n := by
  unfold asI64
  rw [Int.bmod_def]
  omega

theorem inTime_of_le {seen : List (Int × Option Nat)} (hclock : seen.Pairwise (·.1 ≤ ·.1))
    {early late : Int} (h : early ≤ late) : inTime early seen <+: inTime late seen := by
  unfold inTime
  induction seen with
  | nil => exact List.prefix_refl _
  | cons cycle rest ih =>
    obtain ⟨hfirst, hrest⟩ := List.pairwise_cons.mp hclock
    by_cases hearly : cycle.1 < early
    · have hlate : cycle.1 < late := by omega
      rw [List.filter_cons_of_pos (by simpa), List.filter_cons_of_pos (by simpa)]
      exact List.cons_prefix_cons.mpr ⟨rfl, ih hrest⟩
    · have hnone : (cycle :: rest).filter (·.1 < early) = [] := by
        rw [List.filter_eq_nil_iff]
        intro other hother
        rcases List.mem_cons.mp hother with rfl | hother
        · simpa using hearly
        · have hafter := hfirst other hother
          have hpast : ¬ other.1 < early := by omega
          simpa using hpast
      rw [hnone]
      exact List.nil_prefix

theorem Earned.of_le {required : Nat} {early late : Int} {pre : Option Nat}
    {seen : List (Int × Option Nat)} (h : Earned required early pre seen) (hpos : 1 ≤ required)
    (hclock : seen.Pairwise (·.1 ≤ ·.1)) (hle : early ≤ late) : Earned required late pre seen := by
  obtain ⟨hall, hlast⟩ := h
  obtain ⟨more, hmore⟩ := inTime_of_le hclock hle
  unfold Earned
  rw [← hmore, List.length_append]
  refine ⟨by omega, fun cycle hcycle => hlast cycle ?_⟩
  rw [List.getElem?_append_left (by omega)] at hcycle
  exact hcycle

theorem cycles_sublist (events : List ValidationEvent) :
    ((cycles events).map (·.1)).Sublist (events.map (·.time)) := by
  induction events with
  | nil => exact List.Sublist.refl _
  | cons e events ih =>
    cases e with
    | record now items => exact List.Sublist.cons_cons _ ih
    | poll now restart => exact List.Sublist.cons _ ih

theorem pairwise_cycles {events : List ValidationEvent}
    (h : (events.map (·.time)).Pairwise (· ≤ ·)) : (cycles events).Pairwise (·.1 ≤ ·.1) :=
  List.pairwise_map.mp (h.sublist (cycles_sublist events))

/-- After a swap, every poll past the deadline rolls back what is not validated exactly if
the binary was heard from before each of them; and it is validated only for cycles
recorded before the deadline, the last of which saw no loss. -/
theorem overdue_rolled_back_iff {faults : Faults} {config : UpdateConfig} {candidate : Option Image}
    {handover : Option String} {snapshot : BinarySnapshot} {start : Int} {host host' : Host}
    {renamed : Bool}
    (hswap : call (doSwap faults config candidate handover snapshot start) host =
      (.ok renamed, host')) (hcycles : 1 ≤ config.validateTimeoutCycles.toNat)
    (events : List ValidationEvent) (hclock : (start :: events.map (·.time)).Pairwise (· ≤ ·)) :
    (RollsBackOverdue config.paths (start + config.validateTimeoutSeconds) host' events ↔
      HeardFromOverdue config.validateTimeoutCycles.toNat start config.validateTimeoutSeconds
        events) ∧
    ∀ left right, events = left ++ right →
      phase ((validation config.paths).run host' left) = some .validated →
      Earned config.validateTimeoutCycles.toNat (start + config.validateTimeoutSeconds)
        config.preUpgradeItemCount (cycles left) := by
  obtain ⟨version, hstatus⟩ := status_doSwap hswap
  generalize hrow : UpgradeStatus.withPreUpgradeItemCount _ _ = row at hstatus
  have hrequired : row.requiredCycles = config.validateTimeoutCycles.toNat := by rw [← hrow]; rfl
  have hdeadline : row.startedAt + row.budget = start + asI64 config.validateTimeoutSeconds := by
    rw [← hrow]
    rfl
  have hpre : row.preUpgradeItemCount = config.preUpgradeItemCount := by rw [← hrow]; rfl
  have hphase : row.phase = .execHandover := by rw [← hrow]; rfl
  have hpos : 1 ≤ row.requiredCycles := by rw [hrequired]; exact hcycles
  have hu32 : row.requiredCycles ≤ u32Max := by
    rw [hrequired]
    exact Nat.le_of_lt_succ config.validateTimeoutCycles.toNat_lt
  have hfirst : Stage row [] host' := by
    refine ⟨row, hstatus, ?_⟩
    rw [hphase]
    refine ⟨?_, hpos, nofun⟩
    rw [← hrow]
    rfl
  have hstage (left : List ValidationEvent) :
      Stage row (cycles left) ((validation config.paths).run host' left) :=
    stage_run config.paths hphase hpos hu32 hfirst left
  have hoverdue (left : List ValidationEvent) (now : Int) (restart : Option (Option String)) :=
    stage_overdue config.paths (hstage left) now restart
  rw [hrequired, hdeadline] at hoverdue
  refine ⟨⟨fun h left now restart right hevents hlate => ?_,
    fun h left now restart right hevents hlate => ?_⟩, fun left right hevents hvalid => ?_⟩
  · exact (hoverdue left now restart).mp (h left now restart right hevents hlate)
  · exact (hoverdue left now restart).mpr (h left now restart right hevents hlate)
  · obtain ⟨status, hleft, hcase⟩ := hstage left
    rw [phase, hleft] at hvalid
    rw [Option.some_inj.mp hvalid, hrequired, hdeadline, hpre] at hcase
    have hordered : (left.map (·.time)).Pairwise (· ≤ ·) := by
      rw [hevents, List.map_append] at hclock
      exact (List.pairwise_append.mp (List.pairwise_cons.mp hclock).2).1
    have hbudget := asI64_le config.validateTimeoutSeconds
    exact Earned.of_le hcase hcycles (pairwise_cycles hordered) (by omega)

/-- A host right after a swap at time zero, with five cycles and ten minutes to go. -/
def swapped : Host :=
  (call (doSwap noFaults defaultConfig (some [2]) none ⟨"", "0.42.0", ""⟩ 0) (.fresh [1])).2

theorem late_cycle_rolled_back :
    RollsBackOverdue homePaths 600 swapped [.record 700 none, .poll 710 none] := by
  have hswap : call (doSwap noFaults defaultConfig (some [2]) none ⟨"", "0.42.0", ""⟩ 0)
      (.fresh [1]) = (.ok true, swapped) := Prod.ext rfl rfl
  refine (overdue_rolled_back_iff hswap (by decide) _ (by decide)).1.mpr ?_
  intro left now restart right hevents _
  rcases left with _ | ⟨first, _ | ⟨second, others⟩⟩
  · cases hevents
  · obtain ⟨rfl, -⟩ := List.cons.inj hevents
    exact .inr ⟨(700, none), List.mem_singleton_self _, by decide⟩
  · simp at hevents

/-- A binary that hangs before its first cycle is never rolled back. -/
theorem silent_binary_not_rolled_back :
    ¬ RollsBackOverdue homePaths 600 swapped [.poll 600 none] ∧
      phase ((validation homePaths).run swapped [.poll 600 none]) = some .execHandover := by
  have hidle : call (watchdogPoll noFaults homePaths none 600) swapped = (.ok none, swapped) := rfl
  refine ⟨fun h => ?_, rfl⟩
  have hphase : phase swapped = some .execHandover := rfl
  rcases h [] 600 none [] rfl (Int.le_refl _) (by rw [Machine.run_nil, hphase]; decide) with
    hrolled | ⟨result, hresult⟩
  · rw [Machine.run_nil, hphase] at hrolled
    cases hrolled
  · rw [Machine.run_nil, hidle] at hresult
    cases hresult

end Simard.SafeUpdate
