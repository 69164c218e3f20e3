import Simard.Goals.TrackingIssues

/-! The end of a livelock. A goal that stalls cycle after cycle for a reason no
machine can resolve gets one guided engineer, then a few more investigations, and
is parked with the reason. -/
namespace Simard.Goals
open Simard.Library

theorem isNoProgressMarker_reasonWithWhy (consecutive : Nat) (why : NoProgressWhy) :
    isNoProgressMarker (noProgressBlockedReasonWithWhy consecutive why) = true := by
  rw [isNoProgressMarker, List.isPrefixOf_iff_prefix]
  simp only [noProgressBlockedReasonWithWhy, String.toList_append, List.append_assoc]
  exact List.prefix_append _ _

def reasonHead (consecutive : Nat) (cls : NoProgressClass) : List Char :=
  noProgressBlockedPrefix.toList ++ (toString consecutive).toList ++
    " consecutive no-action cycles; why=".toList ++ cls.token.toList

theorem toList_reasonWithWhy (consecutive : Nat) (why : NoProgressWhy) :
    (noProgressBlockedReasonWithWhy consecutive why).toList =
      reasonHead consecutive why.cls ++ ' ' :: (bracketedEvidence why).toList := by
  simp [noProgressBlockedReasonWithWhy, reasonHead]

theorem isBareNoProgressBlock_reasonWithWhy (consecutive : Nat) (why : NoProgressWhy) :
    isBareNoProgressBlock (noProgressBlockedReasonWithWhy consecutive why) = false := by
  have htoken : containsText why.cls.token.toList
      (noProgressBlockedReasonWithWhy consecutive why).toList = true := by
    rw [containsText_iff, toList_reasonWithWhy]
    exact ⟨_, _, rfl⟩
  have hmember : why.cls ∈ NoProgressClass.all := by cases why.cls <;> decide
  unfold isBareNoProgressBlock
  rw [Bool.and_eq_false_iff, Bool.not_eq_false', List.any_eq_true]
  exact .inr ⟨why.cls, hmember, htoken⟩

theorem paren_not_mem_reasonHead (consecutive : Nat) (cls : NoProgressClass) :
    '(' ∉ reasonHead consecutive cls := by
  have hdigits : '(' ∉ (toString consecutive).toList := by
    intro hmem
    change '(' ∈ consecutive.repr.toList at hmem
    rw [Nat.toList_repr] at hmem
    exact absurd (Nat.isDigit_of_mem_toDigits (by decide) (by decide) hmem) (by decide)
  have hstarts : '(' ∉ noProgressBlockedPrefix.toList := by decide
  have hmiddle : '(' ∉ " consecutive no-action cycles; why=".toList := by decide
  have htoken : '(' ∉ cls.token.toList := by cases cls <;> decide
  simp only [reasonHead, List.mem_append, not_or]
  exact ⟨⟨⟨hstarts, hdigits⟩, hmiddle⟩, htoken⟩

theorem needsReinvestigation_reasonWithWhy (consecutive : Nat) (why : NoProgressWhy) :
    needsReinvestigation (noProgressBlockedReasonWithWhy consecutive why) =
      containsText noEvidence.toList (bracketedEvidence why).toList := by
  have hhead : containsText noEvidence.toList (reasonHead consecutive why.cls) = false := by
    rw [Bool.eq_false_iff, ne_eq, containsText_iff]
    intro hinside
    exact paren_not_mem_reasonHead consecutive why.cls (hinside.subset (by decide))
  rw [needsReinvestigation, isBareNoProgressBlock_reasonWithWhy, isEvidencelessNoProgressBlock,
    isNoProgressMarker_reasonWithWhy, toList_reasonWithWhy, containsText_separated (by decide),
    hhead]
  simp

/-- An outcome that says nothing of the goal: another's, or a failure. -/
def Silent (x : String) (outcome : ActionOutcome) : Prop :=
  outcome.goalId = some x → outcome.success = false

namespace Untouched

variable {x : String} {s s' : BreakerState}

theorem standingIdle {goalId : String} (hne : x ≠ goalId)
    (h : applyStandingIdle s goalId = some s') : Untouched x s s' := by
  have hprogress : Untouched x s (s.track (·.recordProgress goalId)) :=
    refl.track _ (s.tracker.same_recordProgress hne)
  obtain ⟨goal, -, h⟩ := Option.bind_eq_some_iff.mp h
  obtain ⟨idle, -, h⟩ := Option.bind_eq_some_iff.mp h
  cases h
  cases idle
  · exact hprogress.note _
  · exact hprogress.note _
  · exact hprogress

theorem investigatedStep {outcome : ActionOutcome} (hsilent : Silent x outcome) (threshold : Nat)
    (answers : Answers) : Untouched x s (investigatedStep threshold s outcome answers) := by
  unfold Goals.investigatedStep screenOutcome
  split
  · exact refl
  next goalId hgoalId =>
    by_cases hne : x = goalId
    · -- a failure is neither progress nor a stall
      have hfailed := hsilent (hne ▸ hgoalId)
      simp only [outcomeMadeNoProgress, hfailed, Bool.false_and, Bool.not_false, if_true,
        Bool.false_eq_true, if_false]
      exact refl
    split
    · split
      · exact refl.track _ (s.tracker.same_recordProgress hne)
      · exact refl
    cases hidle : applyStandingIdle s goalId with
    | some idled => exact standingIdle hne hidle
    | none =>
      have hcounted : Untouched x s (s.track (·.recordNoAction goalId)) :=
        refl.track _ (s.tracker.same_recordNoAction hne)
      dsimp only [Option.getD_none]
      split
      · exact hcounted
      split
      · exact hcounted.resetCount hne
      split
      · exact hcounted.note _
      · exact hcounted.resolution hne _ _ _ _ _

theorem steps (threshold : Nat) (answers : Nat → Answers) (items : List (ActionOutcome × Nat))
    (hsilent : ∀ item ∈ items, Silent x item.1) :
    Untouched x s (items.foldl (fun s item =>
      Goals.investigatedStep threshold s item.1 (answers item.2)) s) := by
  induction items generalizing s with
  | nil => exact refl
  | cons item rest ih =>
    rw [List.forall_mem_cons] at hsilent
    exact (investigatedStep hsilent.1 threshold (answers item.2)).trans (ih hsilent.2)

theorem opened : Untouched x s s.opened := ⟨rfl, ⟨rfl, rfl, rfl⟩, rfl⟩

theorem pruneTracker {goal : ActiveGoal} (hgoal : s.goal? x = some goal) :
    Untouched x s (pruneTracker s) := by
  apply refl.track
  apply NoProgressTracker.same_retainGoals
  obtain ⟨hid, hmem⟩ : goal.id = x ∧ goal ∈ s.board.active :=
    ⟨by simpa using List.find?_some hgoal, List.mem_of_find?_eq_some hgoal⟩
  exact hid ▸ List.mem_map_of_mem hmem

theorem autoClear (evidence : EvidenceSource)
    (hkept : ∀ goal ∈ s.entries x, autoClears evidence goal = false) :
    Untouched x s (autoClear evidence s) := by
  have hcleared (ids : List String) (hids : x ∉ ids) (t : NoProgressTracker) :
      t.Same x (ids.foldl (·.resetCount ·) t) := by
    induction ids generalizing t with
    | nil => exact ⟨rfl, rfl, rfl⟩
    | cons id ids ih =>
      rw [List.mem_cons, not_or] at hids
      exact (t.same_resetCount hids.1).trans (ih hids.2 _)
  have hentry (goal : ActiveGoal) (hgoal : goal ∈ s.board.active) (hid : goal.id = x) :
      autoClears evidence goal = false :=
    hkept goal (by simp [BreakerState.entries, hgoal, hid])
  refine ⟨?_, hcleared _ ?_ _, rfl⟩
  · let cleared (goal : ActiveGoal) : ActiveGoal :=
      if autoClears evidence goal then resumedGoal goal else goal
    have hid (goal : ActiveGoal) : (cleared goal).id = goal.id := by
      unfold cleared
      split <;> rfl
    change (s.board.active.map cleared).filter (·.id = x) = s.entries x
    rw [List.filter_map]
    simp only [Function.comp_def, hid]
    refine (List.map_congr_left fun goal hgoal => ?_).trans (List.map_id _)
    simp [cleared, hkept goal hgoal]
  · simp only [List.mem_map, List.mem_filter, not_exists, not_and]
    rintro goal ⟨hgoal, hclears⟩ hid
    rw [hentry goal hgoal hid] at hclears
    cases hclears

end Untouched

structure Cycle where
  outcomes : List ActionOutcome
  evidence : EvidenceSource
  answers : Nat → Answers

/-- The state once the first `n` cycles have run; cycles count from one. -/
def afterCycles (threshold : Nat) (s : BreakerState) (cycles : Nat → Cycle) : Nat → BreakerState
  | 0 => s
  | n + 1 =>
      let cycle := cycles (n + 1)
      applyNoProgressBreakerInvestigated (afterCycles threshold s cycles n) cycle.outcomes
        cycle.evidence cycle.answers threshold

def isNoMachineClass (cls : NoProgressClass) : Prop := cls = .unclearCriteria ∨
    cls = .genuinelyStuck

/-- The cycle has one no-progress outcome for the goal and nothing else that counts,
and investigating the goal gives this finding. -/
structure Stalls (x : String) (goal : ActiveGoal) (cycle : Cycle) (finding : NoProgressWhy) :
    Prop where
  outcomes : ∃ before outcome after, cycle.outcomes = before ++ outcome :: after ∧
    outcome.goalId = some x ∧ outcomeMadeNoProgress outcome = true ∧
    (∀ other ∈ before ++ after, Silent x other) ∧
    (cycle.answers before.length).investigate goal = .ok finding
  cls : isNoMachineClass finding.cls

theorem cycle_split {x : String} {goal : ActiveGoal} {s : BreakerState} {cycle : Cycle}
    {finding : NoProgressWhy} (h : Stalls x goal cycle finding)
    (hkept : ∀ goal ∈ s.entries x, autoClears cycle.evidence goal = false) (threshold : Nat) :
    ∃ s₀ outcome answers, Untouched x s s₀ ∧ outcome.goalId = some x ∧
      outcomeMadeNoProgress outcome = true ∧ answers.investigate goal = .ok finding ∧
      (((investigatedStep threshold s₀ outcome answers).goal? x).isSome →
        Untouched x (investigatedStep threshold s₀ outcome answers)
          (applyNoProgressBreakerInvestigated s cycle.outcomes cycle.evidence cycle.answers
            threshold)) := by
  obtain ⟨before, outcome, after, houtcomes, hid, hstalled, hsilent, hfinding⟩ := h.outcomes
  rw [List.forall_mem_append] at hsilent
  let opened := autoClear cycle.evidence s.opened
  let stepped (s : BreakerState) (items : List (ActionOutcome × Nat)) : BreakerState :=
    items.foldl (fun s item => investigatedStep threshold s item.1 (cycle.answers item.2)) s
  have hsteps (s : BreakerState) (items : List ActionOutcome) (start : Nat)
      (hitems : ∀ item ∈ items, Silent x item) : Untouched x s (stepped s (items.zipIdx start)) :=
    Untouched.steps threshold cycle.answers (items.zipIdx start)
      fun item hitem => hitems item.1 (List.fst_mem_of_mem_zipIdx hitem)
  have hopened : Untouched x s opened := Untouched.opened.trans (.autoClear _ hkept)
  have hpass : applyNoProgressBreakerInvestigated s cycle.outcomes cycle.evidence cycle.answers
      threshold = pruneTracker (stepped
        (investigatedStep threshold (stepped opened (before.zipIdx 0)) outcome
          (cycle.answers before.length)) (after.zipIdx (before.length + 1))) := by
    unfold applyNoProgressBreakerInvestigated stepAll
    rw [houtcomes, List.zipIdx_append, List.foldl_append, List.zipIdx_cons, List.foldl_cons]
    simp only [Nat.zero_add]
    rfl
  refine ⟨stepped opened (before.zipIdx 0), outcome, cycle.answers before.length,
    hopened.trans (hsteps _ _ _ hsilent.1), hid, hstalled, hfinding, ?_⟩
  intro hsome
  obtain ⟨goal', hgoal'⟩ := Option.isSome_iff_exists.mp hsome
  have hrest := hsteps (investigatedStep threshold (stepped opened (before.zipIdx 0)) outcome
    (cycle.answers before.length)) after (before.length + 1) hsilent.2
  rw [hpass]
  exact hrest.trans (.pruneTracker (hrest.goal?.trans hgoal'))

section OwnStep

variable {x : String} {goal : ActiveGoal} {s : BreakerState} {outcome : ActionOutcome}
  {threshold : Nat} {answers : Answers} {finding : NoProgressWhy}

theorem applyStandingIdle_eq_none (hgoal : s.goal? x = some goal)
    (hperpetual : goal.isPerpetual = false) : applyStandingIdle s x = none := by
  have hclassify : classifyStandingIdle goal = none := by
    simp [classifyStandingIdle, isStandingResearchGoal, hperpetual]
  simp [applyStandingIdle, hgoal, hclassify]

theorem step_below_threshold (answers : Answers) (hgoal : s.goal? x = some goal)
    (hperpetual : goal.isPerpetual = false) (hid : outcome.goalId = some x)
    (hstalled : outcomeMadeNoProgress outcome = true)
    (hbelow : s.tracker.counts x + 1 < threshold) :
    investigatedStep threshold s outcome answers = s.track (·.recordNoAction x) := by
  simp [investigatedStep, screenOutcome, hid, hstalled, applyStandingIdle_eq_none hgoal hperpetual,
    BreakerState.track, NoProgressTracker.consecutive, NoProgressTracker.recordNoAction, hbelow]

theorem step_investigates (hgoal : s.goal? x = some goal) (hperpetual : goal.isPerpetual = false)
    (hid : outcome.goalId = some x) (hstalled : outcomeMadeNoProgress outcome = true)
    (hreached : threshold ≤ s.tracker.counts x + 1) (hcls : isNoMachineClass finding.cls)
    (hfinding : answers.investigate goal = .ok finding) :
    investigatedStep threshold s outcome answers =
      applyResolutionSideEffects (s.track (·.recordNoAction x)) x (s.tracker.counts x + 1)
        finding.cls answers false (resolutionForStuck (s.tracker.counts x + 1) finding
          (s.tracker.guidedRetryUsed x) (s.tracker.surfacedFailures x)) := by
  have hcount : (s.track (·.recordNoAction x)).tracker.consecutive x = s.tracker.counts x + 1 := by
    simp [BreakerState.track, NoProgressTracker.consecutive, NoProgressTracker.recordNoAction]
  have hstuck (consecutive : Nat) (guided : Bool) (surfaced : Nat) :
      resolutionForWhy consecutive finding guided surfaced =
        resolutionForStuck consecutive finding guided surfaced := by
    obtain hcls | hcls := hcls <;> simp [resolutionForWhy, hcls]
  have hsame : (s.track (·.recordNoAction x)).goal? x = some goal := hgoal
  simp only [investigatedStep, screenOutcome, hid, hstalled,
    applyStandingIdle_eq_none hgoal hperpetual, Bool.not_true, Bool.false_eq_true, if_false,
    Option.getD_none, hcount, Nat.not_lt.mpr hreached, hsame, hfinding, hstuck]
  rfl

theorem step_at_threshold (hgoal : s.goal? x = some goal) (hperpetual : goal.isPerpetual = false)
    (hid : outcome.goalId = some x) (hstalled : outcomeMadeNoProgress outcome = true)
    (hreached : s.tracker.counts x + 1 = threshold) (hcls : isNoMachineClass finding.cls)
    (hfinding : answers.investigate goal = .ok finding) :
    investigatedStep threshold s outcome answers =
      applyResolutionSideEffects (s.track (·.recordNoAction x)) x threshold finding.cls answers
        false (resolutionForStuck threshold finding (s.tracker.guidedRetryUsed x)
          (s.tracker.surfacedFailures x)) := by
  have hstep := step_investigates hgoal hperpetual hid hstalled (Nat.le_of_eq hreached.symm) hcls
    hfinding
  rw [hreached] at hstep
  exact hstep

end OwnStep

def isSpawn : BreakerCall → Bool
  | .spawnEngineer .. => true
  | .fileIssue .. => false

def spawns (x : String) (s : BreakerState) : Nat := (s.callsFor x).countP isSpawn

theorem spawns_call (x task : String) (s : BreakerState) :
    spawns x (s.call (.spawnEngineer x task)) = spawns x s + 1 := by
  have hcalls : (s.call (.spawnEngineer x task)).callsFor x =
      s.callsFor x ++ [.spawnEngineer x task] := by
    simp [BreakerState.callsFor, BreakerState.call, BreakerCall.goalId]
  rw [spawns, hcalls, List.countP_append]
  rfl

/-- The goal as it was at first, after this many investigations and this many more
cycles without an action: the first investigation spent its engineer, and each
later one surfaced a failure. -/
structure Climbing (x : String) (first s : BreakerState) (rung count : Nat) : Prop where
  entries : s.entries x = first.entries x
  count : s.tracker.counts x = count
  guided : s.tracker.guidedRetryUsed x = decide (1 ≤ rung)
  surfaced : s.tracker.surfacedFailures x = rung - 1
  spawns : spawns x s = min rung 1

namespace Climbing

variable {x : String} {first s s' : BreakerState} {rung count : Nat}

theorem untouched (h : Climbing x first s rung count) (hu : Untouched x s s') :
    Climbing x first s' rung count where
  entries := hu.entries.trans h.entries
  count := hu.tracker.counts.trans h.count
  guided := hu.tracker.guided.trans h.guided
  surfaced := hu.tracker.surfaced.trans h.surfaced
  spawns := by rw [Goals.spawns, hu.calls]; exact h.spawns

theorem goal? {goal : ActiveGoal} (h : Climbing x first s rung count)
    (hgoal : first.goal? x = some goal) : s.goal? x = some goal := by
  rw [s.goal?_eq, h.entries, ← first.goal?_eq, hgoal]

theorem recordNoAction (h : Climbing x first s rung count) :
    Climbing x first (s.track (·.recordNoAction x)) rung (count + 1) where
  entries := h.entries
  count := by simp [BreakerState.track, NoProgressTracker.recordNoAction, h.count]
  guided := h.guided
  surfaced := h.surfaced
  spawns := h.spawns

theorem spawnEngineer (h : Climbing x first s 0 count) (consecutive : Nat) (cls : NoProgressClass)
    (answers : Answers) (task : String) (why : NoProgressWhy) :
    Climbing x first (applyResolutionSideEffects s x consecutive cls answers false
      (.spawnEngineer task why)) 1 0 := by
  have hspawned : Climbing x first ((s.call (.spawnEngineer x task)).track fun tracker =>
      (tracker.markGuidedRetry x).resetCount x) 1 0 := by
    refine ⟨h.entries, ?_, ?_, h.surfaced, ?_⟩
    · simp [BreakerState.track, NoProgressTracker.resetCount]
    · simp [BreakerState.track, NoProgressTracker.resetCount, NoProgressTracker.markGuidedRetry,
        NoProgressTracker.guidedRetryUsed]
    · exact (spawns_call x task s).trans (by rw [h.spawns]; rfl)
  rw [applyResolutionSideEffects]
  split
  · exact ⟨hspawned.entries, hspawned.count, hspawned.guided, hspawned.surfaced, hspawned.spawns⟩
  · exact hspawned

theorem surface (h : Climbing x first s rung count) (hrung : 1 ≤ rung) (consecutive : Nat)
    (cls cls' : NoProgressClass) (answers : Answers) (reason : String) :
    Climbing x first (applyResolutionSideEffects s x consecutive cls answers false
      (.surfaceInvestigationFailure cls' reason)) (rung + 1) 0 := by
  refine ⟨h.entries, ?_, ?_, ?_, ?_⟩
  · simp [applyResolutionSideEffects, BreakerState.track, BreakerState.note,
      NoProgressTracker.resetCount]
  · exact h.guided.trans (by simp [hrung])
  · have hsurfaced := h.surfaced
    simp only [applyResolutionSideEffects, BreakerState.track, BreakerState.note, unblockIf,
      NoProgressTracker.resetCount, NoProgressTracker.recordSurfacedFailure, Bool.false_eq_true,
      if_false, Function.update_self]
    omega
  · exact h.spawns.trans (by omega)

end Climbing

def blockedReason? (x : String) (s : BreakerState) : Option String :=
  (s.goal? x).bind fun goal =>
    match goal.status with
    | .blocked reason => some reason
    | _ => none

def quarantineMarkers (goal : ActiveGoal) : Nat := goal.wipRefs.countP isQuarantineRef

/-- The goal is parked, with this reason and this many quarantine markers, and no
further engineer was spawned. -/
structure Parked (x : String) (s : BreakerState) (reason : String) (markers : Nat) : Prop where
  goal : ∃ goal, s.goal? x = some goal ∧ goal.status = .blocked reason ∧
    quarantineMarkers goal = markers
  spawns : spawns x s = 1

theorem Parked.untouched {x : String} {s s' : BreakerState} {reason : String} {markers : Nat}
    (h : Parked x s reason markers) (hu : Untouched x s s') : Parked x s' reason markers := by
  refine ⟨?_, by rw [Goals.spawns, hu.calls]; exact h.spawns⟩
  rw [hu.goal?]
  exact h.goal

theorem quarantineMarkers_escalatedGoal (blockedReason : String) (filed : Option FiledIssue)
    (goal : ActiveGoal) :
    quarantineMarkers (escalatedGoal blockedReason filed goal) = quarantineMarkers goal := by
  have hmarker : isQuarantineRef suppressionMarker = false := by decide
  cases filed with
  | none => simp [quarantineMarkers, escalatedGoal, hmarker]
  | some issue =>
    have htracking : isQuarantineRef (trackingRef issue) = false := by
      simp [isQuarantineRef, trackingRef, quarantineMarkerKind]
    have hkept : (goal.wipRefs.filter (!isSuppressionMarker ·)).countP isQuarantineRef =
        goal.wipRefs.countP isQuarantineRef := by
      rw [List.countP_filter]
      apply List.countP_congr
      intro ref _
      simp only [Bool.and_eq_true, Bool.not_eq_true', and_iff_left_iff_imp]
      intro hquarantine
      have hkind : ref.kind = quarantineMarkerKind := by
        simpa [isQuarantineRef] using (Bool.and_eq_true_iff.mp hquarantine).1
      rw [isSuppressionMarker, hkind]
      decide
    unfold quarantineMarkers escalatedGoal upgradeSuppressionMarkerToLink linkTrackingIssue
    dsimp only
    split
    · simpa [isSuppressionMarker_suppressionMarker] using hkept
    · simpa [isSuppressionMarker_suppressionMarker, htracking] using hkept

theorem quarantinedGoal_status (goal : ActiveGoal) :
    (quarantinedGoal goal).status = goal.status := by
  unfold quarantinedGoal
  split <;> rfl

section Parking

variable {x : String} {goal : ActiveGoal} {s : BreakerState}

theorem spawns_fileIssue (issueTitle issueBody : String) :
    spawns x (s.call (.fileIssue x issueTitle issueBody)) = spawns x s := by
  have hcalls : (s.call (.fileIssue x issueTitle issueBody)).callsFor x =
      s.callsFor x ++ [.fileIssue x issueTitle issueBody] := by
    simp [BreakerState.callsFor, BreakerState.call, BreakerCall.goalId]
  rw [spawns, hcalls, List.countP_append]
  rfl

theorem goal?_escalate (hgoal : s.goal? x = some goal)
    (blockedReason issueTitle issueBody : String) (answers : Answers) :
    ∃ parked, (escalateWithTrackingIssue s x blockedReason issueTitle issueBody answers).goal? x =
        some parked ∧
      parked.status = .blocked blockedReason ∧ quarantineMarkers parked =
        quarantineMarkers goal := by
  unfold escalateWithTrackingIssue
  rw [hgoal]
  dsimp only
  split
  · refine ⟨{ goal with status := .blocked blockedReason }, ?_, rfl, rfl⟩
    unfold BreakerState.setStatus
    rw [s.goal?_modifyGoal x x (fun goal => { goal with status := .blocked blockedReason })
      fun _ => rfl]
    simp [hgoal]
  · refine ⟨escalatedGoal blockedReason (answers.fileIssue issueTitle issueBody) goal, ?_, rfl,
      quarantineMarkers_escalatedGoal _ _ _⟩
    change (s.modifyGoal x (escalatedGoal blockedReason _)).goal? x = _
    rw [s.goal?_modifyGoal x x (escalatedGoal blockedReason _) fun _ => rfl]
    simp [hgoal]

theorem spawns_escalate (blockedReason issueTitle issueBody : String) (answers : Answers) :
    spawns x (escalateWithTrackingIssue s x blockedReason issueTitle issueBody answers) =
      spawns x s := by
  unfold escalateWithTrackingIssue
  split
  · rfl
  split
  · rfl
  · exact spawns_fileIssue issueTitle issueBody

theorem parked_escalate (hgoal : s.goal? x = some goal) (hspawns : spawns x s = 1)
    (blockedReason issueTitle issueBody : String) (answers : Answers) :
    Parked x (escalateWithTrackingIssue s x blockedReason issueTitle issueBody answers)
      blockedReason (quarantineMarkers goal) :=
  ⟨goal?_escalate hgoal _ _ _ _, (spawns_escalate _ _ _ _).trans hspawns⟩

theorem goal?_quarantine (hgoal : s.goal? x = some goal) (consecutive surfacedCount : Nat)
    (cls : NoProgressClass) (answers : Answers) :
    ∃ parked reason, (applyQuarantine s x consecutive cls surfacedCount answers).goal? x =
      some parked ∧ parked.status = .blocked reason := by
  obtain ⟨parked, hparked, hstatus, -⟩ := goal?_escalate hgoal
    (noProgressBlockedReasonWithWhy consecutive ⟨cls, [surfacedEvidence x surfacedCount]⟩)
    (surfacedFailureEscalationIssue x cls surfacedCount).1
    (surfacedFailureEscalationIssue x cls surfacedCount).2 answers
  refine ⟨quarantinedGoal parked, _, ?_, (quarantinedGoal_status parked).trans hstatus⟩
  refine (BreakerState.goal?_modifyGoal _ x x quarantinedGoal quarantinedGoal_id).trans ?_
  rw [if_pos rfl, hparked]
  rfl

theorem parked_quarantine (hgoal : s.goal? x = some goal) (hspawns : spawns x s = 1)
    (hfresh : quarantineMarkers goal = 0) (consecutive surfacedCount : Nat)
    (cls : NoProgressClass) (answers : Answers) :
    Parked x (applyQuarantine s x consecutive cls surfacedCount answers)
      (noProgressBlockedReasonWithWhy consecutive ⟨cls, [surfacedEvidence x surfacedCount]⟩) 1 := by
  obtain ⟨⟨parked, hparked, hstatus, hmarkers⟩, hspawns'⟩ := parked_escalate hgoal hspawns
    (noProgressBlockedReasonWithWhy consecutive ⟨cls, [surfacedEvidence x surfacedCount]⟩)
    (surfacedFailureEscalationIssue x cls surfacedCount).1
    (surfacedFailureEscalationIssue x cls surfacedCount).2 answers
  have hnone : isQuarantined parked = false := by
    rw [isQuarantined, List.any_eq_false]
    exact List.countP_eq_zero.mp (hmarkers.trans hfresh)
  have hquarantined : quarantinedGoal parked =
      { parked with wipRefs := parked.wipRefs ++ [quarantineMarker] } := by
    simp [quarantinedGoal, hnone]
  refine ⟨⟨quarantinedGoal parked, ?_, ?_, ?_⟩, hspawns'⟩
  · refine (BreakerState.goal?_modifyGoal _ x x quarantinedGoal quarantinedGoal_id).trans ?_
    rw [if_pos rfl, hparked]
    rfl
  · rw [hquarantined]
    exact hstatus
  · have hmarker : isQuarantineRef quarantineMarker = true := by decide
    unfold quarantineMarkers at hmarkers hfresh ⊢
    simp [hquarantined, hmarkers, hfresh, hmarker]

end Parking

/-- An ordinary goal, fresh to the breaker, that stalls in every cycle for a reason
no machine can resolve and is not one the breaker resumes on its own. -/
structure Livelock (x : String) (goal : ActiveGoal) (s : BreakerState) (cycles : Nat → Cycle)
    (finding : Nat → NoProgressWhy) : Prop where
  onBoard : s.goal? x = some goal
  ordinary : goal.isPerpetual = false
  notBlocked : ∀ reason, goal.status ≠ .blocked reason
  unmarked : goal.wipRefs.any isBreakerTrackingRef = false ∧ isQuarantined goal = false
  count : s.tracker.counts x = 0
  guided : s.tracker.guidedRetryUsed x = false
  surfaced : s.tracker.surfacedFailures x = 0
  calls : s.callsFor x = []
  stalls : ∀ n, 1 ≤ n → Stalls x goal (cycles n) (finding n)
  notResumed : ∀ n, ∀ goal ∈ s.entries x, autoClears (cycles n).evidence goal = false

section Bound

variable {x : String} {goal : ActiveGoal} {first : BreakerState} {cycles : Nat → Cycle}
  {finding : Nat → NoProgressWhy} {threshold n rung count : Nat}

theorem Livelock.own_step (h : Livelock x goal first cycles finding)
    (hclimbing : Climbing x first (afterCycles threshold first cycles n) rung count) :
    ∃ s outcome answers, Climbing x first s rung count ∧ s.goal? x = some goal ∧
      outcome.goalId = some x ∧ outcomeMadeNoProgress outcome = true ∧
      answers.investigate goal = .ok (finding (n + 1)) ∧
      (((investigatedStep threshold s outcome answers).goal? x).isSome →
        Untouched x (investigatedStep threshold s outcome answers)
          (afterCycles threshold first cycles (n + 1))) := by
  obtain ⟨s, outcome, answers, hbefore, hid, hstalled, hfinding, hafter⟩ :=
    cycle_split (h.stalls (n + 1) (Nat.le_add_left 1 n))
      (s := afterCycles threshold first cycles n)
      (by rw [hclimbing.entries]; exact h.notResumed (n + 1)) threshold
  have hclimbing' := hclimbing.untouched hbefore
  exact ⟨s, outcome, answers, hclimbing', hclimbing'.goal? h.onBoard, hid,
    hstalled, hfinding, hafter⟩

theorem Livelock.climbs_count (h : Livelock x goal first cycles finding)
    (hclimbing : Climbing x first (afterCycles threshold first cycles n) rung count)
    (hbelow : count + 1 < threshold) :
    Climbing x first (afterCycles threshold first cycles (n + 1)) rung (count + 1) := by
  obtain ⟨s, outcome, answers, hs, hgoal, hid, hstalled, -, hafter⟩ := h.own_step hclimbing
  have hstep := step_below_threshold answers hgoal h.ordinary hid hstalled
    (by rw [hs.count]; exact hbelow)
  rw [hstep] at hafter
  exact hs.recordNoAction.untouched (hafter (by rw [hs.recordNoAction.goal? h.onBoard]; rfl))

def resolved (s : BreakerState) (x : String) (threshold rung : Nat) (why : NoProgressWhy)
    (answers : Answers) : BreakerState :=
  applyResolutionSideEffects s x threshold why.cls answers false
    (resolutionForStuck threshold why (1 ≤ rung) (rung - 1))

theorem Livelock.own_investigation (h : Livelock x goal first cycles finding)
    (hclimbing : Climbing x first (afterCycles threshold first cycles n) rung count)
    (hreached : count + 1 = threshold) :
    ∃ s answers, Climbing x first s rung (count + 1) ∧ s.goal? x = some goal ∧
      (((resolved s x threshold rung (finding (n + 1)) answers).goal? x).isSome →
        Untouched x (resolved s x threshold rung (finding (n + 1)) answers)
          (afterCycles threshold first cycles (n + 1))) := by
  obtain ⟨s, outcome, answers, hs, hgoal, hid, hstalled, hfinding, hafter⟩ := h.own_step hclimbing
  have hcount : s.tracker.counts x + 1 = threshold := by rw [hs.count, hreached]
  have hstep := step_at_threshold hgoal h.ordinary hid hstalled hcount
    (h.stalls (n + 1) (Nat.le_add_left 1 n)).cls hfinding
  rw [hs.guided, hs.surfaced] at hstep
  rw [hstep] at hafter
  exact ⟨s.track (·.recordNoAction x), answers, hs.recordNoAction, hgoal, hafter⟩

theorem Livelock.climbs_rung (h : Livelock x goal first cycles finding)
    (hclimbing : Climbing x first (afterCycles threshold first cycles n) rung count)
    (hreached : count + 1 = threshold)
    (hopen : rung = 0 ∨ rung ≤ surfacedInvestigationFailureLimit ∧
      (finding (n + 1)).evidence = []) :
    Climbing x first (afterCycles threshold first cycles (n + 1)) (rung + 1) 0 := by
  obtain ⟨s, answers, hs, hgoal, hafter⟩ := h.own_investigation hclimbing hreached
  have hnext : Climbing x first (resolved s x threshold rung (finding (n + 1)) answers)
      (rung + 1) 0 := by
    unfold resolved resolutionForStuck
    by_cases hzero : rung = 0
    · subst hzero
      exact hs.spawnEngineer _ _ _ _ _
    · obtain ⟨hlimit, hempty⟩ := hopen.resolve_left hzero
      have hpositive : 1 ≤ rung := Nat.one_le_iff_ne_zero.mpr hzero
      have hbelow : ¬ surfacedInvestigationFailureLimit ≤ rung - 1 := by omega
      simp only [decide_eq_true hpositive, hempty, List.isEmpty_nil, if_true, if_neg hbelow]
      exact hs.surface hpositive _ _ _ _ _
  exact hnext.untouched (hafter (by rw [hnext.goal? h.onBoard]; rfl))

theorem Livelock.quarantineMarkers (h : Livelock x goal first cycles finding) :
    quarantineMarkers goal = 0 :=
  List.countP_eq_zero.mpr (List.any_eq_false.mp h.unmarked.2)

theorem Livelock.parks_with_evidence (h : Livelock x goal first cycles finding)
    (hclimbing : Climbing x first (afterCycles threshold first cycles n) rung count)
    (hreached : count + 1 = threshold) (hrung : 1 ≤ rung)
    (hevidence : (finding (n + 1)).evidence ≠ []) :
    Parked x (afterCycles threshold first cycles (n + 1))
      (noProgressBlockedReasonWithWhy threshold (finding (n + 1))) 0 := by
  obtain ⟨s, answers, hs, hgoal, hafter⟩ := h.own_investigation hclimbing hreached
  have hspawns : spawns x s = 1 := hs.spawns.trans (by omega)
  have hparked : Parked x (resolved s x threshold rung (finding (n + 1)) answers)
      (noProgressBlockedReasonWithWhy threshold (finding (n + 1))) 0 := by
    rw [resolved, resolutionForStuck, decide_eq_true hrung, if_pos rfl,
      if_neg (by simpa using hevidence), ← h.quarantineMarkers]
    obtain ⟨hparked, hspawned⟩ := parked_escalate hgoal hspawns
      (noProgressBlockedReasonWithWhy threshold (finding (n + 1)))
      (whyEscalationIssue threshold (finding (n + 1))).1
      (whyEscalationIssue threshold (finding (n + 1))).2 answers
    exact ⟨hparked, hspawned⟩
  obtain ⟨parked, hparkedGoal, -⟩ := hparked.goal
  exact hparked.untouched (hafter (by rw [hparkedGoal]; rfl))

theorem Livelock.parks_at_limit (h : Livelock x goal first cycles finding)
    (hclimbing : Climbing x first (afterCycles threshold first cycles n) rung count)
    (hreached : count + 1 = threshold) (hrung : rung = surfacedInvestigationFailureLimit + 1)
    (hevidence : (finding (n + 1)).evidence = []) :
    Parked x (afterCycles threshold first cycles (n + 1))
      (noProgressBlockedReasonWithWhy threshold ⟨(finding (n + 1)).cls,
        [surfacedEvidence x surfacedInvestigationFailureLimit]⟩) 1 := by
  obtain ⟨s, answers, hs, hgoal, hafter⟩ := h.own_investigation hclimbing hreached
  have hspawns : spawns x s = 1 := hs.spawns.trans (by omega)
  have hparked : Parked x (resolved s x threshold rung (finding (n + 1)) answers)
      (noProgressBlockedReasonWithWhy threshold ⟨(finding (n + 1)).cls,
        [surfacedEvidence x surfacedInvestigationFailureLimit]⟩) 1 := by
    rw [resolved, resolutionForStuck, hrung, Nat.add_sub_cancel,
      decide_eq_true (Nat.le_add_left 1 _), hevidence]
    exact parked_quarantine hgoal hspawns h.quarantineMarkers _ _ _ _
  obtain ⟨parked, hparkedGoal, -⟩ := hparked.goal
  exact hparked.untouched (hafter (by rw [hparkedGoal]; rfl))

theorem Livelock.climbs_within (h : Livelock x goal first cycles finding)
    (hrung : Climbing x first (afterCycles threshold first cycles n) rung 0) :
    ∀ count < threshold,
      Climbing x first (afterCycles threshold first cycles (n + count)) rung count := by
  intro count hcount
  induction count with
  | zero => exact hrung
  | succ count ih => exact h.climbs_count (ih (by omega)) hcount

theorem Livelock.climbs (h : Livelock x goal first cycles finding) (rung : Nat)
    (hT : 1 ≤ threshold) (hlimit : rung ≤ surfacedInvestigationFailureLimit + 1)
    (hempty : ∀ j, 2 ≤ j → j ≤ rung → (finding (j * threshold)).evidence = []) :
    ∀ count < threshold,
      Climbing x first (afterCycles threshold first cycles (rung * threshold + count)) rung
        count := by
  apply h.climbs_within
  induction rung with
  | zero =>
    rw [Nat.zero_mul]
    exact ⟨rfl, h.count, h.guided.trans rfl, h.surfaced,
      by simp [spawns, afterCycles, h.calls]⟩
  | succ rung ih =>
    have hbefore := h.climbs_within (ih (by omega) fun j hj hle => hempty j hj (by omega))
      (threshold - 1) (by omega)
    have hnext : rung * threshold + (threshold - 1) + 1 = (rung + 1) * threshold := by
      rw [Nat.add_mul, Nat.one_mul]
      omega
    rw [← hnext]
    apply h.climbs_rung hbefore (by omega)
    by_cases hzero : rung = 0
    · exact .inl hzero
    · rw [hnext]
      exact .inr ⟨by omega, hempty (rung + 1) (by omega) (Nat.le_refl _)⟩

theorem exists_last (finding : Nat → NoProgressWhy) (threshold : Nat) :
    ∃ k, 2 ≤ k ∧ k ≤ surfacedInvestigationFailureLimit + 2 ∧
      (∀ j, 2 ≤ j → j < k → (finding (j * threshold)).evidence = []) ∧
      ((finding (k * threshold)).evidence ≠ [] ∨ k = surfacedInvestigationFailureLimit + 2) := by
  by_cases hfound : ∃ k, 2 ≤ k ∧ k < surfacedInvestigationFailureLimit + 2 ∧
      (finding (k * threshold)).evidence ≠ []
  · obtain ⟨hlow, hhigh, hevidence⟩ := Nat.find_spec hfound
    refine ⟨Nat.find hfound, hlow, hhigh.le, ?_, .inl hevidence⟩
    intro j hj hlt
    by_contra hsome
    exact Nat.find_min hfound hlt ⟨hj, hlt.trans hhigh, hsome⟩
  · refine ⟨surfacedInvestigationFailureLimit + 2, by omega, Nat.le_refl _, ?_, .inr rfl⟩
    intro j hj hlt
    by_contra hsome
    exact hfound ⟨j, hj, hlt, hsome⟩

theorem Livelock.before_last (h : Livelock x goal first cycles finding) (hT : 1 ≤ threshold)
    {k : Nat} (hk : k ≤ surfacedInvestigationFailureLimit + 2)
    (hempty : ∀ j, 2 ≤ j → j < k → (finding (j * threshold)).evidence = [])
    (hn : n < k * threshold) :
    blockedReason? x (afterCycles threshold first cycles n) = none ∧
      spawns x (afterCycles threshold first cycles n) = if n < threshold then 0 else 1 := by
  have hrung : n / threshold < k := Nat.div_lt_of_lt_mul (by rwa [Nat.mul_comm] at hn)
  have hclimbing := h.climbs (n / threshold) hT (by omega)
    (fun j hj hle => hempty j hj (by omega)) (n % threshold) (Nat.mod_lt n hT)
  rw [Nat.div_add_mod'] at hclimbing
  constructor
  · rw [blockedReason?, hclimbing.goal? h.onBoard, Option.bind_some]
    split
    · exact absurd ‹_› (h.notBlocked _)
    · rfl
  · rw [hclimbing.spawns]
    split
    · rw [Nat.div_eq_of_lt ‹_›]
      rfl
    · have hpositive := Nat.div_pos (Nat.le_of_not_lt ‹_›) hT
      omega

/-- The run ends: the engineer is spawned at the first investigation and at no other,
and the goal is parked at the first later one with evidence, or quarantined once the
failures have reached their limit; the reason it gets stands unless its own evidence
says otherwise. -/
theorem livelock_bounded (x : String) (goal : ActiveGoal) (s : BreakerState)
    (cycles : Nat → Cycle) (finding : Nat → NoProgressWhy) (threshold : Nat) (hT : 1 ≤ threshold)
    (h : Livelock x goal s cycles finding) :
    ∃ k, 2 ≤ k ∧ k ≤ 5 ∧
      (∀ n < k * threshold, blockedReason? x (afterCycles threshold s cycles n) = none ∧
        spawns x (afterCycles threshold s cycles n) = if n < threshold then 0 else 1) ∧
      (∀ j, 2 ≤ j → j < k → (finding (j * threshold)).evidence = []) ∧
      ∃ parked why, (afterCycles threshold s cycles (k * threshold)).goal? x = some parked ∧
        parked.status = .blocked (noProgressBlockedReasonWithWhy threshold why) ∧
        spawns x (afterCycles threshold s cycles (k * threshold)) = 1 ∧
        ((finding (k * threshold)).evidence ≠ [] ∧ why = finding (k * threshold) ∨
          k = surfacedInvestigationFailureLimit + 2 ∧ (finding (k * threshold)).evidence = [] ∧
            why = ⟨(finding (k * threshold)).cls,
              [surfacedEvidence x surfacedInvestigationFailureLimit]⟩ ∧
            quarantineMarkers parked = 1) ∧
        isNoProgressMarker (noProgressBlockedReasonWithWhy threshold why) = true ∧
        (containsText noEvidence.toList (bracketedEvidence why).toList = false →
          needsReinvestigation (noProgressBlockedReasonWithWhy threshold why) = false) := by
  obtain ⟨k, hlow, hhigh, hempty, hlast⟩ := exists_last finding threshold
  refine ⟨k, hlow, hhigh, fun n hn => h.before_last hT hhigh hempty hn, hempty, ?_⟩
  have hclimbing := h.climbs (k - 1) hT (by omega)
    (fun j hj hle => hempty j hj (by omega)) (threshold - 1) (by omega)
  have hend : (k - 1) * threshold + (threshold - 1) + 1 = k * threshold := by
    obtain ⟨m, rfl⟩ : ∃ m, k = m + 1 := ⟨k - 1, by omega⟩
    rw [Nat.add_sub_cancel, Nat.add_mul, Nat.one_mul]
    omega
  have hreason (why : NoProgressWhy) :
      isNoProgressMarker (noProgressBlockedReasonWithWhy threshold why) = true ∧
        (containsText noEvidence.toList (bracketedEvidence why).toList = false →
          needsReinvestigation (noProgressBlockedReasonWithWhy threshold why) = false) :=
    ⟨isNoProgressMarker_reasonWithWhy _ _,
      fun hnone => (needsReinvestigation_reasonWithWhy _ _).trans hnone⟩
  by_cases hevidence : (finding (k * threshold)).evidence = []
  · have hlimit := hlast.resolve_left (not_not.mpr hevidence)
    obtain ⟨⟨parked, hparked, hstatus, hmarkers⟩, hspawns⟩ :=
      h.parks_at_limit hclimbing (by omega) (by omega) (by rw [hend]; exact hevidence)
    rw [hend] at hparked hstatus hspawns
    exact ⟨parked, _, hparked, hstatus, hspawns, .inr ⟨hlimit, hevidence, rfl, hmarkers⟩, hreason _⟩
  · obtain ⟨⟨parked, hparked, hstatus, -⟩, hspawns⟩ :=
      h.parks_with_evidence hclimbing (by omega) (by omega) (by rw [hend]; exact hevidence)
    rw [hend] at hparked hstatus hspawns
    exact ⟨parked, _, hparked, hstatus, hspawns, .inl ⟨hevidence, rfl⟩, hreason _⟩

end Bound

/-- A cycle whose one outcome is a stall of the goal, investigated with this evidence;
the goal's upstream is in this state. -/
def stallCycle (evidence : List Evidence) (upstream : DependencyState) : Cycle where
  outcomes := [⟨some "port", true, "typed no-action committed: outcome=deferred"⟩]
  evidence := { unverified with dependencyGoalState := fun _ => .ok upstream }
  answers _ :=
    { investigate := fun _ => .ok ⟨.unclearCriteria, evidence⟩
      heal := fun _ _ => .error "offline"
      spawnEngineer := fun _ _ => true
      fileIssue := fun _ _ => none }

theorem livelock_bounded_port :
    ∃ k, 2 ≤ k ∧ k ≤ 5 ∧
      (afterCycles 3 (boardOf []) (fun _ => stallCycle [] .none) (k * 3)).goal? "port" ≠
        (boardOf []).goal? "port" := by
  have hlock : Livelock "port" { ActiveGoal.new "port" "Port the parser" 1 with wipRefs := [] }
      (boardOf []) (fun _ => stallCycle [] .none) (fun _ => ⟨.unclearCriteria, []⟩) := by
    refine ⟨rfl, by decide, by simp [ActiveGoal.new], by decide, rfl, rfl, rfl, rfl, ?_, ?_⟩
    · intro n _
      exact ⟨⟨[], _, [], rfl, rfl, by decide, by simp, rfl⟩, .inl rfl⟩
    · intro n goal hgoal
      rw [List.mem_singleton.mp hgoal]
      rfl
  obtain ⟨k, hlow, hhigh, -, -, parked, why, hparked, hstatus, -⟩ :=
    livelock_bounded "port" _ (boardOf []) _ _ 3 (by decide) hlock
  refine ⟨k, hlow, hhigh, ?_⟩
  rw [hparked]
  rintro hsame
  cases hsame
  cases hstatus

def pausedPort : BreakerState :=
  ⟨⟨[{ ActiveGoal.new "port" "Port the parser" 1 with
    status := .paused, wipRefs := [deferRef "upstream"] }], []⟩, .new, {}, []⟩

def landingCycle (n : Nat) : Cycle :=
  stallCycle [⟨"issue", "#1", "open"⟩] (if n = 2 then .resolved "upstream" else .pending "upstream")

/-- Evidence whose kind reads like the end of an empty list. -/
def misread : List Evidence := [⟨"(none)]", "report", "open"⟩]

/-- A paused goal resumed in the middle of a window starts its count over, and is
parked in the fifth cycle for a threshold of two; and a reason may look as if it had
no evidence although none of it says so. -/
theorem livelock_off_the_bound :
    ((pausedPort.goal? "port").all fun goal => !goal.isPerpetual && goal.status = .paused &&
        !goal.wipRefs.any isBreakerTrackingRef && !isQuarantined goal) = true ∧
      (∀ n ≤ 4, blockedReason? "port" (afterCycles 2 pausedPort landingCycle n) = none) ∧
      (blockedReason? "port" (afterCycles 2 pausedPort landingCycle 5)).isSome = true ∧
      (misread.all fun evidence =>
        !containsText noEvidence.toList evidence.render.toList) = true ∧
      (blockedReason? "port" (afterCycles 1 (boardOf []) (fun _ => stallCycle misread .none)
        2)).map needsReinvestigation = some true := by
  have hparked : blockedReason? "port"
      (afterCycles 1 (boardOf []) (fun _ => stallCycle misread .none) 2) =
        some (noProgressBlockedReasonWithWhy 1 ⟨.unclearCriteria, misread⟩) := rfl
  refine ⟨by decide, by decide, by decide, by decide, ?_⟩
  rw [hparked, Option.map_some, needsReinvestigation_reasonWithWhy]
  decide

end Simard.Goals
