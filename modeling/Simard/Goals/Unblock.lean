import Simard.Goals.Livelock

/-! What an operator gets by unblocking a goal. The command edits the board; whether the
goal gets another guided engineer is remembered in the counters, which it leaves alone. -/
namespace Simard.Goals
open Simard.Library

def unblockedGoal (goal : ActiveGoal) : ActiveGoal :=
  { goal with status := .notStarted, wipRefs := goal.wipRefs.filter (!isQuarantineRef ·) }

/-- The status before, whether a quarantine marker was cleared, and the board after. -/
def handleUnblock (goalId : String) (board : GoalBoard) :
    Except String (GoalProgress × Bool × GoalBoard) :=
  match board.active.find? (·.id = goalId) with
  | none =>
    .error ("goal '" ++ goalId ++ "' not found on active board (no Blocked status to clear)")
  | some goal =>
      .ok (goal.status, isQuarantined goal,
        { board with active := updateFirst goalId unblockedGoal board.active })

/-- The daemon's state once it has read the board again. -/
def BreakerState.unblocked (s : BreakerState) (goalId : String) : BreakerState :=
  match handleUnblock goalId s.board with
  | .ok (_, _, board) => { s with board := board }
  | .error _ => s

theorem unblocked_eq (s : BreakerState) (x : String) {goal : ActiveGoal}
    (hgoal : s.goal? x = some goal) : s.unblocked x = s.modifyGoal x unblockedGoal := by
  unfold BreakerState.goal? at hgoal
  unfold BreakerState.unblocked handleUnblock
  rw [hgoal]
  rfl

/-- The first cycles all stall the goal for a reason no machine can resolve, and the
breaker resumes no entry of it. -/
structure StalledWindow (x : String) (goal : ActiveGoal) (first : BreakerState)
    (cycles : Nat → Cycle) (finding : Nat → NoProgressWhy) (threshold : Nat) : Prop where
  onBoard : first.goal? x = some goal
  ordinary : goal.isPerpetual = false
  stalls : ∀ n < threshold, Stalls x goal (cycles (n + 1)) (finding (n + 1))
  notResumed : ∀ n < threshold, ∀ other ∈ first.entries x,
    autoClears (cycles (n + 1)).evidence other = false

/-- The goal and its findings as they were at first, with this count and this many
engineers. -/
structure Paced (x : String) (first s : BreakerState) (count : Nat) (guided : Bool)
    (spawned : Nat) : Prop where
  entries : s.entries x = first.entries x
  count : s.tracker.counts x = count
  guided : s.tracker.guidedRetryUsed x = guided
  surfaced : s.tracker.surfacedFailures x = first.tracker.surfacedFailures x
  spawns : spawns x s = spawned

namespace Paced

variable {x : String} {first s s' : BreakerState} {count spawned : Nat} {guided : Bool}

theorem untouched (h : Paced x first s count guided spawned) (hu : Untouched x s s') :
    Paced x first s' count guided spawned where
  entries := hu.entries.trans h.entries
  count := hu.tracker.counts.trans h.count
  guided := hu.tracker.guided.trans h.guided
  surfaced := hu.tracker.surfaced.trans h.surfaced
  spawns := by rw [Goals.spawns, hu.calls]; exact h.spawns

theorem goal? {goal : ActiveGoal} (h : Paced x first s count guided spawned)
    (hgoal : first.goal? x = some goal) : s.goal? x = some goal := by
  rw [s.goal?_eq, h.entries, ← first.goal?_eq, hgoal]

theorem recordNoAction (h : Paced x first s count guided spawned) :
    Paced x first (s.track (·.recordNoAction x)) (count + 1) guided spawned where
  entries := h.entries
  count := by simp [BreakerState.track, NoProgressTracker.recordNoAction, h.count]
  guided := h.guided
  surfaced := h.surfaced
  spawns := h.spawns

theorem spawnEngineer (h : Paced x first s count guided spawned) (consecutive : Nat)
    (cls : NoProgressClass) (answers : Answers) (task : String) (why : NoProgressWhy) :
    Paced x first (applyResolutionSideEffects s x consecutive cls answers false
      (.spawnEngineer task why)) 0 true (spawned + 1) := by
  have hspawned : Paced x first ((s.call (.spawnEngineer x task)).track fun tracker =>
      (tracker.markGuidedRetry x).resetCount x) 0 true (spawned + 1) := by
    refine ⟨h.entries, ?_, ?_, h.surfaced, ?_⟩
    · simp [BreakerState.track, NoProgressTracker.resetCount]
    · simp [BreakerState.track, NoProgressTracker.resetCount, NoProgressTracker.markGuidedRetry,
        NoProgressTracker.guidedRetryUsed]
    · exact (spawns_call x task s).trans (by rw [h.spawns])
  rw [applyResolutionSideEffects]
  split
  · exact ⟨hspawned.entries, hspawned.count, hspawned.guided, hspawned.surfaced, hspawned.spawns⟩
  · exact hspawned

end Paced

section Window

variable {x : String} {goal : ActiveGoal} {first : BreakerState} {cycles : Nat → Cycle}
  {finding : Nat → NoProgressWhy} {threshold n count spawned : Nat} {guided : Bool}

theorem StalledWindow.own_step (h : StalledWindow x goal first cycles finding threshold)
    (hn : n < threshold)
    (hpaced : Paced x first (afterCycles threshold first cycles n) count guided spawned) :
    ∃ s outcome answers, Paced x first s count guided spawned ∧ s.goal? x = some goal ∧
      outcome.goalId = some x ∧ outcomeMadeNoProgress outcome = true ∧
      answers.investigate goal = .ok (finding (n + 1)) ∧
      (((investigatedStep threshold s outcome answers).goal? x).isSome →
        Untouched x (investigatedStep threshold s outcome answers)
          (afterCycles threshold first cycles (n + 1))) := by
  obtain ⟨s, outcome, answers, hbefore, hid, hstalled, hfinding, hafter⟩ :=
    cycle_split (h.stalls n hn) (s := afterCycles threshold first cycles n)
      (by rw [hpaced.entries]; exact h.notResumed n hn) threshold
  have hpaced' := hpaced.untouched hbefore
  exact ⟨s, outcome, answers, hpaced', hpaced'.goal? h.onBoard, hid, hstalled, hfinding, hafter⟩

theorem StalledWindow.counts (h : StalledWindow x goal first cycles finding threshold)
    (hn : n < threshold)
    {c : Nat} (hpaced : Paced x first (afterCycles threshold first cycles n) c guided spawned)
    (hbelow : c + 1 < threshold) :
    Paced x first (afterCycles threshold first cycles (n + 1)) (c + 1) guided spawned := by
  obtain ⟨s, outcome, answers, hs, hgoal, hid, hstalled, -, hafter⟩ := h.own_step hn hpaced
  have hstep := step_below_threshold answers hgoal h.ordinary hid hstalled
    (by rw [hs.count]; exact hbelow)
  rw [hstep] at hafter
  exact hs.recordNoAction.untouched (hafter (by rw [hs.recordNoAction.goal? h.onBoard]; rfl))

theorem StalledWindow.counts_on (h : StalledWindow x goal first cycles finding threshold)
    (hpaced : Paced x first (afterCycles threshold first cycles n) count guided spawned)
    (more : Nat) (hn : n + more ≤ threshold) (hbelow : more = 0 ∨ count + more < threshold) :
    Paced x first (afterCycles threshold first cycles (n + more)) (count + more) guided
      spawned := by
  induction more with
  | zero => exact hpaced
  | succ more ih =>
    have hbefore := ih (by omega) (by omega)
    exact h.counts (n := n + more) (c := count + more) (by omega) hbefore (by omega)

theorem StalledWindow.investigates (h : StalledWindow x goal first cycles finding threshold)
    (hn : n < threshold)
    (hpaced : Paced x first (afterCycles threshold first cycles n) count guided spawned)
    (hreached : threshold ≤ count + 1) :
    ∃ s answers, Paced x first s (count + 1) guided spawned ∧ s.goal? x = some goal ∧
      let resolved := applyResolutionSideEffects s x (count + 1) (finding (n + 1)).cls answers
        false (resolutionForStuck (count + 1) (finding (n + 1)) guided
          (first.tracker.surfacedFailures x))
      (resolved.goal? x).isSome →
        Untouched x resolved (afterCycles threshold first cycles (n + 1)) := by
  obtain ⟨s, outcome, answers, hs, hgoal, hid, hstalled, hfinding, hafter⟩ := h.own_step hn hpaced
  have hcount : threshold ≤ s.tracker.counts x + 1 := by rw [hs.count]; exact hreached
  have hstep := step_investigates hgoal h.ordinary hid hstalled hcount (h.stalls n hn).cls hfinding
  rw [hs.guided, hs.surfaced, hs.count] at hstep
  rw [hstep] at hafter
  exact ⟨s.track (·.recordNoAction x), answers, hs.recordNoAction, hgoal, hafter⟩

/-- Within the window one engineer is spawned, and the goal is neither parked nor is a
failure surfaced. -/
structure FreshWindow (x : String) (s : BreakerState) (cycles : Nat → Cycle) (threshold : Nat) :
    Prop where
  spawned : spawns x (afterCycles threshold s cycles threshold) = spawns x s + 1
  unparked : ∀ n ≤ threshold, (afterCycles threshold s cycles n).entries x = s.entries x
  unsurfaced : ∀ n ≤ threshold,
    (afterCycles threshold s cycles n).tracker.surfacedFailures x = s.tracker.surfacedFailures x

theorem StalledWindow.paced (h : StalledWindow x goal first cycles finding threshold)
    (hn : n ≤ threshold - 1 - first.tracker.counts x) :
    Paced x first (afterCycles threshold first cycles n) (first.tracker.counts x + n)
      (first.tracker.guidedRetryUsed x) (spawns x first) := by
  have hstart : Paced x first (afterCycles threshold first cycles 0) (first.tracker.counts x)
      (first.tracker.guidedRetryUsed x) (spawns x first) := ⟨rfl, rfl, rfl, rfl, rfl⟩
  have hpaced := h.counts_on hstart n (by omega) (by omega)
  rw [Nat.zero_add] at hpaced
  exact hpaced

theorem StalledWindow.fresh (h : StalledWindow x goal first cycles finding threshold)
    (hT : 1 ≤ threshold) (hguided : first.tracker.guidedRetryUsed x = false) :
    FreshWindow x first cycles threshold := by
  let last := threshold - 1 - first.tracker.counts x
  have hpaced := h.paced (Nat.le_refl last)
  obtain ⟨s, answers, hs, -, hafter⟩ := h.investigates (n := last) (by omega) hpaced (by omega)
  rw [hguided] at hs hafter
  have hspawned := hs.spawnEngineer (first.tracker.counts x + last + 1) (finding (last + 1)).cls
    answers (engineerTaskForWhy (finding (last + 1))) (finding (last + 1))
  have hnext := hspawned.untouched (hafter (by
    change ((applyResolutionSideEffects _ _ _ _ _ _ (.spawnEngineer _ _)).goal? x).isSome
    rw [hspawned.goal? h.onBoard]
    rfl))
  have hrest (m : Nat) (hm : last + 1 + m ≤ threshold) :=
    h.counts_on hnext m hm (by omega)
  have hall (n : Nat) (hn : n ≤ threshold) : ∃ count guided spawned,
      Paced x first (afterCycles threshold first cycles n) count guided spawned := by
    by_cases hearly : n ≤ last
    · exact ⟨_, _, _, h.paced hearly⟩
    · obtain ⟨m, rfl⟩ := Nat.exists_eq_add_of_lt (Nat.lt_of_not_le hearly)
      have hlater := hrest m (by omega)
      rw [Nat.add_right_comm] at hlater
      exact ⟨_, _, _, hlater⟩
  refine ⟨?_, ?_, ?_⟩
  · have hend := hrest (threshold - (last + 1)) (by omega)
    rw [show last + 1 + (threshold - (last + 1)) = threshold by omega] at hend
    exact hend.spawns
  · intro n hn
    obtain ⟨_, _, _, hn⟩ := hall n hn
    exact hn.entries
  · intro n hn
    obtain ⟨_, _, _, hn⟩ := hall n hn
    exact hn.surfaced

theorem resolution_spent {s : BreakerState} (hgoal : s.goal? x = some goal) (consecutive : Nat)
    (why : NoProgressWhy) (surfaced : Nat) (answers : Answers) :
    let resolved := applyResolutionSideEffects s x consecutive why.cls answers false
      (resolutionForStuck consecutive why true surfaced)
    (∃ parked reason, resolved.goal? x = some parked ∧ parked.status = .blocked reason) ∨
      resolved.goal? x = some goal ∧
        resolved.tracker.surfacedFailures x = s.tracker.surfacedFailures x + 1 := by
  intro resolved
  by_cases hevidence : why.evidence = []
  · by_cases hlimit : surfacedInvestigationFailureLimit ≤ surfaced
    · have hresolution : resolutionForStuck consecutive why true surfaced =
          .quarantineTerminal surfaced := by
        simp [resolutionForStuck, hevidence, hlimit]
      have hresolved : resolved = applyQuarantine s x consecutive why.cls surfaced answers := by
        simp only [resolved, hresolution, applyResolutionSideEffects]
      rw [hresolved]
      exact .inl (goal?_quarantine hgoal _ _ _ _)
    · have hresolution : resolutionForStuck consecutive why true surfaced =
          .surfaceInvestigationFailure why.cls (surfacedReason why.cls) := by
        simp [resolutionForStuck, hevidence, hlimit]
      refine .inr ⟨?_, ?_⟩
      · simp only [resolved, hresolution]
        exact hgoal
      · simp [resolved, hresolution, applyResolutionSideEffects, unblockIf, BreakerState.track,
          BreakerState.note, NoProgressTracker.resetCount, NoProgressTracker.recordSurfacedFailure]
  · have hresolution : resolutionForStuck consecutive why true surfaced =
        .escalate (noProgressBlockedReasonWithWhy consecutive why)
          (whyEscalationIssue consecutive why).1 (whyEscalationIssue consecutive why).2 := by
      simp [resolutionForStuck, hevidence]
    obtain ⟨parked, hparked, hstatus, -⟩ := goal?_escalate hgoal
      (noProgressBlockedReasonWithWhy consecutive why) (whyEscalationIssue consecutive why).1
      (whyEscalationIssue consecutive why).2 answers
    refine .inl ⟨parked, _, ?_, hstatus⟩
    simp only [resolved, hresolution]
    exact hparked

theorem StalledWindow.not_fresh (h : StalledWindow x goal first cycles finding threshold)
    (hT : 1 ≤ threshold) (hunblocked : goal.status = .notStarted)
    (hguided : first.tracker.guidedRetryUsed x = true) :
    ¬ FreshWindow x first cycles threshold := by
  intro hfresh
  let last := threshold - 1 - first.tracker.counts x
  have hpaced := h.paced (Nat.le_refl last)
  obtain ⟨s, answers, hs, hgoal, hafter⟩ := h.investigates (n := last) (by omega) hpaced (by omega)
  rw [hguided] at hafter
  rcases resolution_spent hgoal (first.tracker.counts x + last + 1) (finding (last + 1))
    (first.tracker.surfacedFailures x) answers with
    ⟨parked, reason, hparked, hblocked⟩ | ⟨hkept, hsurfaced⟩
  · have hnext := hafter (by rw [hparked]; rfl)
    have hsame := h.onBoard
    rw [first.goal?_eq, ← hfresh.unparked (last + 1) (by omega), hnext.entries,
      ← BreakerState.goal?_eq, hparked, Option.some.injEq] at hsame
    rw [hsame, hunblocked] at hblocked
    cases hblocked
  · have hnext := hafter (by rw [hkept]; rfl)
    have hsame := hfresh.unsurfaced (last + 1) (by omega)
    rw [hnext.tracker.surfaced, hsurfaced, hs.surfaced] at hsame
    omega

end Window

/-- The goal is no standing one, and is in quarantine only with its engineer spent. -/
structure Spent (x : String) (s : BreakerState) : Prop where
  ordinary : ∀ goal ∈ s.entries x, goal.isPerpetual = false
  unmarked : s.tracker.guidedRetryUsed x = false → ∀ goal ∈ s.entries x, isQuarantined goal = false

def NoProgressFor (x : String) (outcome : ActionOutcome) : Prop :=
  outcome.goalId = some x → outcome.success = true → outcomeMadeNoProgress outcome = true

namespace Spent

variable {x : String} {s s' : BreakerState}

theorem untouched (h : Spent x s) (hu : Untouched x s s') : Spent x s' := by
  refine ⟨?_, ?_⟩
  · rw [hu.entries]
    exact h.ordinary
  · rw [hu.entries, hu.tracker.guided]
    exact h.unmarked

theorem note (h : Spent x s) (f : NoProgressBreakerReport → NoProgressBreakerReport) :
    Spent x (s.note f) := ⟨h.ordinary, h.unmarked⟩

theorem call (h : Spent x s) (c : BreakerCall) : Spent x (s.call c) := ⟨h.ordinary, h.unmarked⟩

theorem track (h : Spent x s) {f : NoProgressTracker → NoProgressTracker}
    (hf : (f s.tracker).guidedRetryUsed x = false → s.tracker.guidedRetryUsed x = false) :
    Spent x (s.track f) := ⟨h.ordinary, fun hunspent => h.unmarked (hf hunspent)⟩

theorem resetCount (h : Spent x s) (goalId : String) : Spent x (s.track (·.resetCount goalId)) :=
  h.track id

theorem entries_modifyGoal (s : BreakerState) (x : String) {f : ActiveGoal → ActiveGoal}
    (hid : ∀ goal, (f goal).id = goal.id) :
    (s.modifyGoal x f).entries x = (s.entries x).modifyHead f := by
  have hfiltered := filter_updateFirst x x f hid s.board.active
  rw [if_pos rfl] at hfiltered
  exact hfiltered

theorem modifyGoal (h : Spent x s) {f : ActiveGoal → ActiveGoal}
    (hid : ∀ goal, (f goal).id = goal.id)
    (hperpetual : ∀ goal, (f goal).isPerpetual = goal.isPerpetual)
    (hmarked : s.tracker.guidedRetryUsed x = false → ∀ goal, isQuarantined (f goal) =
      isQuarantined goal) :
    Spent x (s.modifyGoal x f) := by
  have hmember (goal' : ActiveGoal) (hgoal' : goal' ∈ (s.modifyGoal x f).entries x) :
      ∃ goal ∈ s.entries x, goal' = goal ∨ goal' = f goal := by
    rw [entries_modifyGoal s x hid] at hgoal'
    cases hentries : s.entries x with
    | nil => simp [hentries] at hgoal'
    | cons first rest =>
      rw [hentries, List.modifyHead_cons, List.mem_cons] at hgoal'
      rcases hgoal' with rfl | hrest
      · exact ⟨first, List.mem_cons_self, .inr rfl⟩
      · exact ⟨goal', List.mem_cons_of_mem _ hrest, .inl rfl⟩
  refine ⟨?_, ?_⟩
  · intro goal' hgoal'
    obtain ⟨goal, hgoal, rfl | rfl⟩ := hmember goal' hgoal'
    · exact h.ordinary goal' hgoal
    · rw [hperpetual]
      exact h.ordinary goal hgoal
  · intro hunspent goal' hgoal'
    obtain ⟨goal, hgoal, rfl | rfl⟩ := hmember goal' hgoal'
    · exact h.unmarked hunspent goal' hgoal
    · rw [hmarked hunspent]
      exact h.unmarked hunspent goal hgoal

theorem setStatus (h : Spent x s) (status : GoalProgress) : Spent x (s.setStatus x status) :=
  h.modifyGoal (fun _ => rfl) (fun _ => rfl) fun _ _ => rfl

theorem isQuarantined_eq (goal : ActiveGoal) :
    isQuarantined goal = decide (0 < quarantineMarkers goal) := by
  rw [isQuarantined, quarantineMarkers, Bool.eq_iff_iff, List.any_eq_true, decide_eq_true_eq,
    List.countP_pos_iff]

theorem escalate (h : Spent x s) (blockedReason issueTitle issueBody : String) (answers : Answers) :
    Spent x (escalateWithTrackingIssue s x blockedReason issueTitle issueBody answers) := by
  unfold escalateWithTrackingIssue
  split
  · exact h
  split
  · exact h.setStatus _
  · refine (h.modifyGoal (f := escalatedGoal blockedReason _) (fun _ => rfl)
      (fun _ => rfl) ?_).call _
    intro _ goal
    rw [isQuarantined_eq, isQuarantined_eq, quarantineMarkers_escalatedGoal]

theorem deferred (h : Spent x s) (blockingRef : String) :
    Spent x (s.modifyGoal x (deferredGoal blockingRef)) := by
  refine h.modifyGoal (fun _ => rfl) (fun _ => rfl) fun _ goal => ?_
  unfold deferredGoal isQuarantined
  dsimp only
  split
  · rfl
  · have hdefer : isQuarantineRef (deferRef blockingRef) = false := by
      simp [isQuarantineRef, deferRef, dependencyWipKind, quarantineMarkerKind]
    simp [hdefer]

theorem quarantinedGoal_isPerpetual (goal : ActiveGoal) :
    (quarantinedGoal goal).isPerpetual = goal.isPerpetual := by
  unfold quarantinedGoal
  split <;> rfl

theorem escalate_tracker (s : BreakerState) (goalId blockedReason issueTitle issueBody : String)
    (answers : Answers) :
    (escalateWithTrackingIssue s goalId blockedReason issueTitle issueBody answers).tracker =
      s.tracker := by
  unfold escalateWithTrackingIssue
  split
  · rfl
  split <;> rfl

theorem resolution (h : Spent x s) (consecutive : Nat) (cls : NoProgressClass)
    (answers : Answers) {resolution : NoProgressResolution}
    (hlast : ∀ count, resolution = .quarantineTerminal count →
      s.tracker.guidedRetryUsed x = true) :
    Spent x (applyResolutionSideEffects s x consecutive cls answers false resolution) := by
  cases resolution with
  | «continue» => exact h
  | markDone =>
    rw [applyResolutionSideEffects]
    exact ((h.setStatus _).resetCount x).note _
  | drop reason =>
    have hnone : (s.dropGoal x).entries x = [] := by
      simp [BreakerState.entries, BreakerState.dropGoal]
    have hdropped : Spent x (s.dropGoal x) := by
      refine ⟨?_, ?_⟩ <;> simp [hnone]
    rw [applyResolutionSideEffects]
    exact (hdropped.resetCount x).note _
  | heal why =>
    change Spent x (applyHeal s x consecutive why answers false)
    unfold applyHeal
    split
    · exact h.resetCount x
    split
    · exact (h.resetCount x).note _
    · exact ((h.escalate _ _ _ answers).resetCount x).note _
  | defer blockingRef evidence =>
    rw [applyResolutionSideEffects]
    exact ((h.deferred blockingRef).resetCount x).note _
  | spawnEngineer task why =>
    have hspawned : Spent x ((s.call (.spawnEngineer x task)).track fun tracker =>
        (tracker.markGuidedRetry x).resetCount x) := by
      refine (h.call _).track ?_
      simp [NoProgressTracker.guidedRetryUsed, NoProgressTracker.resetCount,
        NoProgressTracker.markGuidedRetry]
    rw [applyResolutionSideEffects]
    split
    · exact hspawned.note _
    · exact hspawned
  | escalate blockedReason issueTitle issueBody =>
    rw [applyResolutionSideEffects]
    exact ((h.escalate _ _ _ answers).resetCount x).note _
  | surfaceInvestigationFailure cls reason =>
    have hsurfaced : Spent x (s.track (·.recordSurfacedFailure x)) := h.track id
    rw [applyResolutionSideEffects]
    exact (hsurfaced.resetCount x).note _
  | quarantineTerminal surfacedCount =>
    have hguided := hlast surfacedCount rfl
    have hescalated := h.escalate
      (noProgressBlockedReasonWithWhy consecutive ⟨cls, [surfacedEvidence x surfacedCount]⟩)
      (surfacedFailureEscalationIssue x cls surfacedCount).1
      (surfacedFailureEscalationIssue x cls surfacedCount).2 answers
    have hquarantined := hescalated.modifyGoal quarantinedGoal_id quarantinedGoal_isPerpetual (by
      rw [escalate_tracker, hguided]
      intro hunspent
      cases hunspent)
    rw [applyResolutionSideEffects, applyQuarantine]
    exact (hquarantined.track (f := fun tracker =>
      (tracker.clearSurfacedFailures x).resetCount x) id).note _

theorem guided_of_quarantineTerminal {consecutive surfaced count : Nat} {why : NoProgressWhy}
    {guided : Bool}
    (h : resolutionForWhy consecutive why guided surfaced = .quarantineTerminal count) :
    guided = true := by
  unfold resolutionForWhy resolutionForStuck at h
  cases guided with
  | true => rfl
  | false => split at h <;> simp at h

theorem investigatedStep (h : Spent x s) (threshold : Nat) {outcome : ActionOutcome}
    (houtcome : NoProgressFor x outcome) (answers : Answers) :
    Spent x (investigatedStep threshold s outcome answers) := by
  by_cases hown : outcome.goalId = some x
  · unfold Goals.investigatedStep screenOutcome
    rw [hown]
    dsimp only
    split
    next hprogress =>
      -- a success would have been no progress
      split
      next hsuccess => simp [houtcome hown hsuccess] at hprogress
      next => exact h
    next =>
      have hcounted : Spent x (s.track (·.recordNoAction x)) := h.track id
      cases hidle : applyStandingIdle s x with
      | some idled =>
        obtain ⟨goal, hgoal, hidle⟩ := Option.bind_eq_some_iff.mp hidle
        have hmem : goal ∈ s.entries x := by
          rw [s.goal?_eq] at hgoal
          exact List.mem_of_mem_head? hgoal
        have hnone := applyStandingIdle_eq_none hgoal (h.ordinary goal hmem)
        rw [applyStandingIdle, hgoal] at hnone
        cases hnone.symm.trans hidle
      | none =>
        dsimp only [Option.getD_none]
        split
        · exact hcounted
        split
        · exact hcounted.track id
        split
        · exact hcounted.note _
        · exact hcounted.resolution _ _ _ fun _ => guided_of_quarantineTerminal
  · exact h.untouched (Untouched.investigatedStep (fun hid => absurd hid hown) threshold answers)

theorem autoClear (h : Spent x s) (evidence : EvidenceSource) :
    Spent x (autoClear evidence s) := by
  have hguided (ids : List String) (t : NoProgressTracker) :
      (ids.foldl (·.resetCount ·) t).guidedRetryUsed x = t.guidedRetryUsed x := by
    induction ids generalizing t with
    | nil => rfl
    | cons id ids ih => exact ih _
  have hmarked (goal : ActiveGoal) : isQuarantined (resumedGoal goal) = isQuarantined goal := by
    unfold isQuarantined resumedGoal
    rw [List.any_filter]
    congr 1
    funext ref
    cases hquarantine : isQuarantineRef ref with
    | false => simp
    | true =>
      have hkind : ref.kind = quarantineMarkerKind := by
        simpa [isQuarantineRef] using (Bool.and_eq_true_iff.mp hquarantine).1
      have hdefer : isBreakerDeferRef ref = false := by
        simp only [isBreakerDeferRef, hkind, Bool.and_eq_false_iff]
        exact .inl (by decide)
      simp [hdefer]
  have hmember (goal' : ActiveGoal) (hgoal' : goal' ∈ (Goals.autoClear evidence s).entries x) :
      ∃ goal ∈ s.entries x, goal' = goal ∨ goal' = resumedGoal goal := by
    obtain ⟨hgoal', hid⟩ := List.mem_filter.mp hgoal'
    obtain ⟨goal, hgoal, rfl⟩ := List.mem_map.mp hgoal'
    split at hid
    · exact ⟨goal, List.mem_filter.mpr ⟨hgoal, hid⟩, by simp [*]⟩
    · exact ⟨goal, List.mem_filter.mpr ⟨hgoal, hid⟩, by simp [*]⟩
  refine ⟨?_, ?_⟩
  · intro goal' hgoal'
    obtain ⟨goal, hgoal, rfl | rfl⟩ := hmember goal' hgoal'
    · exact h.ordinary goal' hgoal
    · exact h.ordinary goal hgoal
  · intro hunspent goal' hgoal'
    have hunspent := (hguided _ _).symm.trans hunspent
    obtain ⟨goal, hgoal, rfl | rfl⟩ := hmember goal' hgoal'
    · exact h.unmarked hunspent goal' hgoal
    · rw [hmarked]
      exact h.unmarked hunspent goal hgoal

theorem pruneTracker (h : Spent x s) : Spent x (pruneTracker s) := by
  cases hgoal : s.goal? x with
  | some goal => exact h.untouched (.pruneTracker hgoal)
  | none =>
    have hnone : s.entries x = [] := by
      rw [s.goal?_eq] at hgoal
      exact List.head?_eq_none_iff.mp hgoal
    have hpruned : (Goals.pruneTracker s).entries x = [] := hnone
    refine ⟨?_, ?_⟩ <;> simp [hpruned]

theorem pass (h : Spent x s) (cycle : Cycle) (threshold : Nat)
    (houtcomes : ∀ outcome ∈ cycle.outcomes, NoProgressFor x outcome) :
    Spent x (applyNoProgressBreakerInvestigated s cycle.outcomes cycle.evidence cycle.answers
      threshold) := by
  apply pruneTracker
  unfold stepAll
  have hopened : Spent x s.opened := ⟨h.ordinary, h.unmarked⟩
  have hstart := hopened.autoClear cycle.evidence
  generalize Goals.autoClear cycle.evidence s.opened = s₀ at hstart
  have hitems : ∀ item ∈ cycle.outcomes.zipIdx, NoProgressFor x item.1 :=
    fun item hitem => houtcomes item.1 (List.fst_mem_of_mem_zipIdx hitem)
  generalize cycle.outcomes.zipIdx = items at hitems
  induction items generalizing s₀ with
  | nil => exact hstart
  | cons item rest ih =>
    rw [List.forall_mem_cons] at hitems
    exact ih _ (hstart.investigatedStep threshold hitems.1 (cycle.answers item.2)) hitems.2

theorem run (h : Spent x s) (threshold : Nat) (past : Nat → Cycle) (length : Nat)
    (hpast : ∀ n < length, ∀ outcome ∈ (past (n + 1)).outcomes, NoProgressFor x outcome) :
    Spent x (afterCycles threshold s past length) := by
  induction length with
  | zero => exact h
  | succ length ih =>
    have hbefore := ih fun n hn => hpast n (Nat.lt_succ_of_lt hn)
    exact hbefore.pass (past (length + 1)) threshold (hpast length (Nat.lt_succ_self length))

end Spent

theorem stalledWindow_unblocked {x : String} {goal : ActiveGoal} {ended : BreakerState}
    {cycles : Nat → Cycle} {threshold : Nat} {finding : Nat → NoProgressWhy}
    (hgoal : ended.goal? x = some goal) (hordinary : goal.isPerpetual = false)
    (hstalls : ∀ n < threshold, Stalls x (unblockedGoal goal) (cycles (n + 1)) (finding (n + 1)))
    (hothers : ∀ n < threshold, ∀ other ∈ (ended.entries x).tail,
      autoClears (cycles (n + 1)).evidence other = false) :
    StalledWindow x (unblockedGoal goal) (ended.unblocked x) cycles finding threshold := by
  rw [unblocked_eq ended x hgoal]
  refine ⟨?_, hordinary, hstalls, ?_⟩
  · rw [ended.goal?_modifyGoal x x unblockedGoal fun _ => rfl, if_pos rfl, hgoal]
    rfl
  · intro n hn other hother
    rw [Spent.entries_modifyGoal ended x (f := unblockedGoal) fun _ => rfl] at hother
    rw [ended.goal?_eq] at hgoal
    obtain ⟨rest, hentries⟩ := List.head?_eq_some_iff.mp hgoal
    rw [hentries, List.modifyHead_cons, List.mem_cons] at hother
    rcases hother with rfl | hrest
    · simp [autoClears, unblockedGoal]
    · exact hothers n hn other (by rw [hentries]; exact hrest)

/-- After any run of the breaker that ends with a goal in quarantine, unblocking it
opens a fresh window exactly if its guided engineer does not count as spent; and if the
run put it there, without progress in between, it does count as spent. -/
theorem unblock_fresh_window_iff (x : String) (goal : ActiveGoal) (start : BreakerState)
    (past cycles : Nat → Cycle) (length threshold : Nat) (finding : Nat → NoProgressWhy)
    (hT : 1 ≤ threshold)
    (hgoal : (afterCycles threshold start past length).goal? x = some goal)
    (hordinary : goal.isPerpetual = false) (hquarantined : isQuarantined goal = true)
    (hstalls : ∀ n < threshold, Stalls x (unblockedGoal goal) (cycles (n + 1)) (finding (n + 1)))
    (hothers : ∀ n < threshold,
      ∀ other ∈ ((afterCycles threshold start past length).entries x).tail,
      autoClears (cycles (n + 1)).evidence other = false) :
    (FreshWindow x ((afterCycles threshold start past length).unblocked x) cycles threshold ↔
      (afterCycles threshold start past length).tracker.guidedRetryUsed x = false) ∧
    ((∀ other ∈ start.entries x, other.isPerpetual = false ∧ isQuarantined other = false) →
      (∀ n < length, ∀ outcome ∈ (past (n + 1)).outcomes, NoProgressFor x outcome) →
      ¬ FreshWindow x ((afterCycles threshold start past length).unblocked x)
        cycles threshold) := by
  have hrun (hstart : Spent x start)
      (hpast : ∀ n < length, ∀ outcome ∈ (past (n + 1)).outcomes, NoProgressFor x outcome) :=
    hstart.run threshold past length hpast
  generalize afterCycles threshold start past length = ended at hgoal hothers hrun ⊢
  have hwindow := stalledWindow_unblocked hgoal hordinary hstalls hothers
  have htracker : (ended.unblocked x).tracker = ended.tracker := by
    rw [unblocked_eq ended x hgoal]
    rfl
  have hiff : FreshWindow x (ended.unblocked x) cycles threshold ↔
      ended.tracker.guidedRetryUsed x = false := by
    rw [← htracker]
    constructor
    · intro hfresh
      by_contra hspent
      exact hwindow.not_fresh hT rfl (Bool.eq_true_of_not_eq_false hspent) hfresh
    · exact hwindow.fresh hT
  refine ⟨hiff, fun hstart hpast hfresh => ?_⟩
  have hended := hrun ⟨fun other hother => (hstart other hother).1,
    fun _ other hother => (hstart other hother).2⟩ hpast
  have hmem : goal ∈ ended.entries x := by
    rw [ended.goal?_eq] at hgoal
    exact List.mem_of_mem_head? hgoal
  rw [hended.unmarked (hiff.mp hfresh) goal hmem] at hquarantined
  cases hquarantined

def forgottenPort : BreakerState :=
  ⟨⟨[{ ActiveGoal.new "port" "Port the parser" 1 with
    status := .blocked "unclear", wipRefs := [quarantineMarker] }], []⟩, .new, {}, []⟩

theorem unblock_fresh_window_port :
    FreshWindow "port" (forgottenPort.unblocked "port") (fun _ => stallCycle [] .none) 3 := by
  have hiff := unblock_fresh_window_iff "port" _ forgottenPort (fun _ => stallCycle [] .none)
    (fun _ => stallCycle [] .none) 0 3 (fun _ => ⟨.unclearCriteria, []⟩) (by decide) rfl
    (by decide) (by decide)
    (fun n _ => ⟨⟨[], _, [], rfl, rfl, by decide, by simp, rfl⟩, .inl rfl⟩)
    (by simp [afterCycles, forgottenPort, BreakerState.entries, ActiveGoal.new])
  exact hiff.1.mpr rfl

/-- A goal that stalls without end is quarantined by the fifteenth cycle; three more
after it was unblocked surface a failure and spawn nobody. -/
theorem unblocked_goal_not_retried :
    (((afterCycles 3 (boardOf []) (fun _ => stallCycle [] .none) 15).goal? "port").any fun goal =>
        isQuarantined goal && !goal.isPerpetual) = true ∧
      ¬ FreshWindow "port"
        ((afterCycles 3 (boardOf []) (fun _ => stallCycle [] .none) 15).unblocked "port")
        (fun _ => stallCycle [] .none) 3 := by
  refine ⟨by decide +kernel, fun h => ?_⟩
  exact absurd h.spawned (by decide +kernel)

end Simard.Goals
