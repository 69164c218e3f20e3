import Simard.Goals.NoProgress

/-! The no-progress breaker at work on the board. Each pass takes the outcomes of a
cycle, or the goals already parked without a reason, and drives the goals that
stall down the ladder; what it asks of the world is answered call by call. -/
namespace Simard.Goals
open Simard.Library

def startsWith (prefixText text : String) : Bool := prefixText.toList.isPrefixOf text.toList

def dependencyWipKind : String := "dependency"

def deferLabelPrefix : String := "[no-progress-defer] "

def isBreakerDeferRef (ref : WipRef) : Bool :=
  eqIgnoreAsciiCase ref.kind dependencyWipKind && startsWith deferLabelPrefix ref.label

def trackingLabelPrefix : String := "[no-progress-tracking] "

def suppressionMarkerKind : String := "ooda-breaker-marker"

def suppressionMarkerRefId : String := "ooda-breaker"

def isSuppressionMarker (ref : WipRef) : Bool := eqIgnoreAsciiCase ref.kind suppressionMarkerKind

def isBreakerTrackingRef (ref : WipRef) : Bool :=
  isSuppressionMarker ref ||
    (eqIgnoreAsciiCase ref.kind "issue" && startsWith trackingLabelPrefix ref.label)

def suppressionMarker : WipRef :=
  ⟨suppressionMarkerKind, suppressionMarkerRefId, trackingLabelPrefix ++ "ooda-breaker (unlinked)",
    none⟩

structure FiledIssue where
  number : String
  url : Option String
  deriving DecidableEq

def trimHash (text : String) : List Char := text.toList.dropWhile (· = '#')

def referencesIssue (filed : FiledIssue) (ref : WipRef) : Bool :=
  eqIgnoreAsciiCase ref.kind "issue" && trimHash ref.refId = trimHash filed.number

def trackingRef (filed : FiledIssue) : WipRef :=
  let num := String.ofList (trimHash filed.number)
  ⟨"issue", num, trackingLabelPrefix ++ "#" ++ num, filed.url⟩

def linkTrackingIssue (filed : FiledIssue) (refs : List WipRef) : List WipRef :=
  if refs.any (referencesIssue filed) then refs else refs ++ [trackingRef filed]

def upgradeSuppressionMarkerToLink (filed : FiledIssue) (refs : List WipRef) : List WipRef :=
  linkTrackingIssue filed (refs.filter (!isSuppressionMarker ·))

structure NoProgressBreakerReport where
  markedDone : List String := []
  dropped : List String := []
  escalated : List String := []
  healed : List String := []
  deferred : List String := []
  engineerSpawned : List String := []
  autoCleared : List String := []
  investigationErrors : List String := []
  reinvestigated : List String := []
  perpetualIdled : List String := []
  researchIdleFaults : List String := []
  quarantined : List String := []

/-- What was asked of the world, and for which goal. -/
inductive BreakerCall where
  | spawnEngineer (goalId task : String)
  | fileIssue (goalId title body : String)
  deriving DecidableEq

/-- The board and counters of a cycle, the report so far and the calls made. -/
structure BreakerState where
  board : GoalBoard
  tracker : NoProgressTracker
  report : NoProgressBreakerReport
  calls : List BreakerCall

/-- How the world answers one call of each kind. -/
structure Answers where
  investigate : ActiveGoal → Except String NoProgressWhy
  heal : ActiveGoal → NoProgressWhy → Except String Unit
  spawnEngineer : String → String → Bool
  fileIssue : String → String → Option FiledIssue

def updateFirst (goalId : String) (f : ActiveGoal → ActiveGoal) : List ActiveGoal → List ActiveGoal
  | [] => []
  | goal :: rest =>
      if goal.id = goalId then f goal :: rest else goal :: updateFirst goalId f rest

namespace BreakerState

def goal? (s : BreakerState) (goalId : String) : Option ActiveGoal :=
  s.board.active.find? (·.id = goalId)

def modifyGoal (s : BreakerState) (goalId : String) (f : ActiveGoal → ActiveGoal) : BreakerState :=
  { s with board := { s.board with active := updateFirst goalId f s.board.active } }

def setStatus (s : BreakerState) (goalId : String) (status : GoalProgress) : BreakerState :=
  s.modifyGoal goalId fun goal => { goal with status := status }

def dropGoal (s : BreakerState) (goalId : String) : BreakerState :=
  { s with
    board := ⟨s.board.active.filter (·.id ≠ goalId), s.board.backlog.filter (·.id ≠ goalId)⟩ }

def track (s : BreakerState) (f : NoProgressTracker → NoProgressTracker) : BreakerState :=
  { s with tracker := f s.tracker }

def note (s : BreakerState) (f : NoProgressBreakerReport → NoProgressBreakerReport) :
    BreakerState :=
  { s with report := f s.report }

def opened (s : BreakerState) : BreakerState := { s with report := {} }

def call (s : BreakerState) (c : BreakerCall) : BreakerState := { s with calls := s.calls ++ [c] }

end BreakerState

def researchDescriptionMarkers : List String :=
  ["cognition", "recall", "distillation", "reasoner", "memory", "consolidation", "retrieval",
    "embedding"]

def descriptionMarksResearch (description : String) : Bool :=
  researchDescriptionMarkers.any fun phrase =>
    containsPhraseOnWordBoundary phrase.toList (asciiLowercase description) false

def isStandingResearchGoal (goal : ActiveGoal) : Bool :=
  goal.isPerpetual && descriptionMarksResearch goal.description

def liveKinds : List String := ["pr", "branch", "session", "engineer"]

def hasLiveInFlightRef (goal : ActiveGoal) : Bool :=
  goal.wipRefs.any fun ref =>
    liveKinds.any (eqIgnoreAsciiCase (String.ofList (trim ref.kind.toList)) ·)

inductive StandingIdle where
  | benignExempt
  | researchFault
  | researchInFlight
  deriving DecidableEq

def classifyStandingIdle (goal : ActiveGoal) : Option StandingIdle :=
  if isStandingResearchGoal goal then
    some (if hasLiveInFlightRef goal then .researchInFlight else .researchFault)
  else if goal.isPerpetual then some .benignExempt
  else none

/-- An idle standing goal starts over on every count and is never resolved. -/
def applyStandingIdle (s : BreakerState) (goalId : String) : Option BreakerState := do
  let goal ← s.goal? goalId
  let idle ← classifyStandingIdle goal
  let s := s.track (·.recordProgress goalId)
  return match idle with
  | .benignExempt => s.note fun r => { r with perpetualIdled := r.perpetualIdled ++ [goalId] }
  | .researchFault => s.note fun r =>
    { r with researchIdleFaults := r.researchIdleFaults ++ [goalId] }
  | .researchInFlight => s

/-- The goal once it is parked: marked before the issue is filed, and the marker
replaced by the link if one comes back. -/
def escalatedGoal (blockedReason : String) (filed : Option FiledIssue) (goal : ActiveGoal) :
    ActiveGoal :=
  let marked := goal.wipRefs ++ [suppressionMarker]
  { goal with
    status := .blocked blockedReason
    wipRefs :=
      match filed with
      | some filed => upgradeSuppressionMarkerToLink filed marked
      | none => marked }

def escalateWithTrackingIssue (s : BreakerState)
    (goalId blockedReason issueTitle issueBody : String)
    (answers : Answers) : BreakerState :=
  match s.goal? goalId with
  | none => s
  | some goal =>
      if goal.wipRefs.any isBreakerTrackingRef then s.setStatus goalId (.blocked blockedReason)
      else
        (s.modifyGoal goalId
          (escalatedGoal blockedReason (answers.fileIssue issueTitle issueBody))).call
          (.fileIssue goalId issueTitle issueBody)

def deferRef (blockingRef : String) : WipRef :=
  ⟨dependencyWipKind, blockingRef, deferLabelPrefix ++ blockingRef, none⟩

def deferredGoal (blockingRef : String) (goal : ActiveGoal) : ActiveGoal :=
  { goal with
    status := .paused
    wipRefs :=
      if goal.wipRefs.any isBreakerDeferRef then goal.wipRefs
      else goal.wipRefs ++ [deferRef blockingRef] }

def quarantinedGoal (goal : ActiveGoal) : ActiveGoal :=
  if isQuarantined goal then goal
  else { goal with wipRefs := goal.wipRefs ++ [quarantineMarker] }

def surfacedEvidence (goalId : String) (surfacedCount : Nat) : Evidence :=
  ⟨"re-investigation", goalId, toString surfacedCount ++
    " consecutive evidence-less investigations"⟩

def unblockIf (unblock : Bool) (goalId : String) (s : BreakerState) : BreakerState :=
  if unblock then s.setStatus goalId .notStarted else s

def applyHeal (s : BreakerState) (goalId : String) (consecutive : Nat) (why : NoProgressWhy)
    (answers : Answers) (unblock : Bool) : BreakerState :=
  match s.goal? goalId with
  | none => s.track (·.resetCount goalId)
  | some goal =>
      match answers.heal goal why with
      | .ok () =>
          (unblockIf unblock goalId (s.track (·.resetCount goalId))).note fun r =>
            { r with healed := r.healed ++ [goalId] }
      | .error err =>
          let whyErr := { why with evidence := why.evidence ++ [⟨"clone-error", goalId, err⟩] }
          let s := escalateWithTrackingIssue s goalId
            (noProgressBlockedReasonWithWhy consecutive whyErr)
            ("OODA no-progress breaker: precondition heal failed for '" ++ goalId ++ "'")
            ("Healing the MISSING-PRECONDITION for goal `" ++ goalId ++ "` failed: " ++ err ++
              "\n\nThe goal has been Blocked with the WHY attached.") answers
          (s.track (·.resetCount goalId)).note fun r =>
          { r with escalated := r.escalated ++ [goalId] }

def applyQuarantine (s : BreakerState) (goalId : String) (consecutive : Nat)
    (cls : NoProgressClass) (surfacedCount : Nat) (answers : Answers) : BreakerState :=
  let why : NoProgressWhy := ⟨cls, [surfacedEvidence goalId surfacedCount]⟩
  let issue := surfacedFailureEscalationIssue goalId cls surfacedCount
  let s := escalateWithTrackingIssue s goalId (noProgressBlockedReasonWithWhy consecutive why)
    issue.1 issue.2 answers
  ((s.modifyGoal goalId quarantinedGoal).track fun tracker =>
    (tracker.clearSurfacedFailures goalId).resetCount goalId).note fun r =>
      { r with quarantined := r.quarantined ++ [goalId] }

/-- One resolution carried out. A goal that was parked already is unblocked by the
rungs that let it try again. -/
def applyResolutionSideEffects (s : BreakerState) (goalId : String) (consecutive : Nat)
    (cls : NoProgressClass) (answers : Answers) (unblock : Bool) :
    NoProgressResolution → BreakerState
  | .continue => s
  | .markDone =>
      ((s.setStatus goalId .completed).track (·.resetCount goalId)).note fun r =>
        { r with markedDone := r.markedDone ++ [goalId] }
  | .drop _ =>
      ((s.dropGoal goalId).track (·.resetCount goalId)).note fun r =>
        { r with dropped := r.dropped ++ [goalId] }
  | .heal why => applyHeal s goalId consecutive why answers unblock
  | .defer blockingRef _ =>
      ((s.modifyGoal goalId (deferredGoal blockingRef)).track (·.resetCount goalId)).note fun r =>
        { r with deferred := r.deferred ++ [goalId] }
  | .spawnEngineer task _ =>
      let s := (s.call (.spawnEngineer goalId task)).track fun tracker =>
        (tracker.markGuidedRetry goalId).resetCount goalId
      let s := unblockIf unblock goalId s
      if answers.spawnEngineer goalId task then
        s.note fun r => { r with engineerSpawned := r.engineerSpawned ++ [goalId] }
      else s
  | .escalate blockedReason issueTitle issueBody =>
      ((escalateWithTrackingIssue s goalId blockedReason issueTitle issueBody answers).track
        (·.resetCount goalId)).note fun r => { r with escalated := r.escalated ++ [goalId] }
  | .surfaceInvestigationFailure _ _ =>
      ((unblockIf unblock goalId (s.track (·.recordSurfacedFailure goalId))).track
        (·.resetCount goalId)).note fun r =>
          { r with investigationErrors := r.investigationErrors ++ [goalId] }
  | .quarantineTerminal surfacedCount =>
      applyQuarantine s goalId consecutive cls surfacedCount answers

structure ActionOutcome where
  goalId : Option String
  success : Bool
  detail : String

def outcomeMadeNoProgress (outcome : ActionOutcome) : Bool :=
  outcome.success && startsWith "typed no-action committed: outcome=" outcome.detail

def pruneTracker (s : BreakerState) : BreakerState :=
  s.track (·.retainGoals (s.board.active.map (·.id)))

def applyBaseResolution (s : BreakerState) (goalId : String) (answers : Answers) :
    NoProgressResolution → BreakerState
  | .markDone =>
      (s.setStatus goalId .completed).note fun r =>
      { r with markedDone := r.markedDone ++ [goalId] }
  | .drop _ => (s.dropGoal goalId).note fun r => { r with dropped := r.dropped ++ [goalId] }
  | .escalate blockedReason issueTitle issueBody =>
      (escalateWithTrackingIssue s goalId blockedReason issueTitle issueBody answers).note fun r =>
        { r with escalated := r.escalated ++ [goalId] }
  | _ => s

/-- What both breakers do with an outcome before they differ: no goal, progress and
failures need no breaker, and idle standing goals are exempt. -/
def screenOutcome (s : BreakerState) (outcome : ActionOutcome)
    (stalled : String → BreakerState) : BreakerState :=
  match outcome.goalId with
  | none => s
  | some goalId =>
      if !outcomeMadeNoProgress outcome then
        if outcome.success then s.track (·.recordProgress goalId) else s
      else (applyStandingIdle s goalId).getD (stalled goalId)

def breakerStep (evidence : EvidenceSource) (threshold : Nat) (s : BreakerState)
    (outcome : ActionOutcome) (answers : Answers) : BreakerState :=
  screenOutcome s outcome fun goalId =>
    match s.goal? goalId with
    | none => s.track (·.recordProgress goalId)
    | some goal =>
        let (resolution, tracker) :=
          s.tracker.recordAndResolve goalId threshold (verifyStuckGoal evidence goal)
        applyBaseResolution { s with tracker := tracker } goalId answers resolution

/-- Run a step over a list, each item with its own answers. -/
def stepAll {α : Type} (step : BreakerState → α → Answers → BreakerState) (answers : Nat → Answers)
    (s : BreakerState) (items : List α) : BreakerState :=
  items.zipIdx.foldl (fun s item => step s item.1 (answers item.2)) s

theorem stepAll_invariant {α : Type} {step : BreakerState → α → Answers → BreakerState}
    {P : BreakerState → Prop} (items : List α)
    (hstep : ∀ s, ∀ item ∈ items, ∀ answers, P s → P (step s item answers))
    (answers : Nat → Answers) {s : BreakerState} (h : P s) :
    P (stepAll step answers s items) := by
  unfold stepAll
  have hindexed : ∀ item ∈ items.zipIdx, item.1 ∈ items := fun _ => List.fst_mem_of_mem_zipIdx
  generalize items.zipIdx = indexed at hindexed ⊢
  induction indexed generalizing s with
  | nil => exact h
  | cons item rest ih =>
    rw [List.forall_mem_cons] at hindexed
    exact ih (hstep s item.1 hindexed.1 (answers item.2) h) hindexed.2

def applyNoProgressBreakerWithThreshold (s : BreakerState) (outcomes : List ActionOutcome)
    (evidence : EvidenceSource) (answers : Nat → Answers) (threshold : Nat) : BreakerState :=
  pruneTracker (stepAll (breakerStep evidence threshold) answers s.opened outcomes)

/-- A goal the breaker paused, whose upstream has landed. -/
def autoClears (evidence : EvidenceSource) (goal : ActiveGoal) : Bool :=
  goal.status = .paused && goal.wipRefs.any isBreakerDeferRef &&
    match evidence.dependencyGoalState goal with
    | .ok (.resolved _) => true
    | _ => false

def resumedGoal (goal : ActiveGoal) : ActiveGoal :=
  { goal with status := .notStarted, wipRefs := goal.wipRefs.filter (!isBreakerDeferRef ·) }

def autoClear (evidence : EvidenceSource) (s : BreakerState) : BreakerState :=
  let cleared := (s.board.active.filter (autoClears evidence)).map (·.id)
  { s with
    board := { s.board with
      active := s.board.active.map fun goal =>
        if autoClears evidence goal then resumedGoal goal else goal }
    tracker := cleared.foldl (·.resetCount ·) s.tracker
    report := { s.report with autoCleared := s.report.autoCleared ++ cleared } }

/-- At the threshold the stall is investigated once; a failed investigation leaves
the count as it is. -/
def investigatedStep (threshold : Nat) (s : BreakerState) (outcome : ActionOutcome)
    (answers : Answers) : BreakerState :=
  screenOutcome s outcome fun goalId =>
    let s := s.track (·.recordNoAction goalId)
    let consecutive := s.tracker.consecutive goalId
    if consecutive < threshold then s
    else
      match s.goal? goalId with
      | none => s.track (·.resetCount goalId)
      | some goal =>
          match answers.investigate goal with
          | .error _ =>
              s.note fun r => { r with investigationErrors := r.investigationErrors ++ [goalId] }
          | .ok why =>
              applyResolutionSideEffects s goalId consecutive why.cls answers false
                (resolutionForWhy consecutive why (s.tracker.guidedRetryUsed goalId)
                  (s.tracker.surfacedFailures goalId))

def applyNoProgressBreakerInvestigated (s : BreakerState) (outcomes : List ActionOutcome)
    (evidence : EvidenceSource) (answers : Nat → Answers) (threshold : Nat) : BreakerState :=
  pruneTracker (stepAll (investigatedStep threshold) answers (autoClear evidence s.opened) outcomes)

/-- The goals parked without a reason, standing ones apart. -/
def bareBlockedIds (board : GoalBoard) : List String :=
  board.active.filterMap fun goal =>
    if goal.isPerpetual then none
    else
      match goal.status with
      | .blocked reason => if needsReinvestigation reason then some goal.id else none
      | _ => none

/-- A class that was acted on before is not acted on again: the goal gets its
reason, or another try if there is none to give. -/
def applyReinvestigatedBefore (s : BreakerState) (goalId : String) (threshold : Nat)
    (why : NoProgressWhy) : BreakerState :=
  if why.evidence.isEmpty then
    (s.setStatus goalId .notStarted).note fun r =>
      { r with investigationErrors := r.investigationErrors ++ [goalId] }
  else s.setStatus goalId (.blocked (noProgressBlockedReasonWithWhy threshold why))

def reinvestigateStep (threshold : Nat) (s : BreakerState) (goalId : String) (answers : Answers) :
    BreakerState :=
  if s.board.active.any fun goal => goal.id = goalId && isQuarantined goal then s
  else
    match s.goal? goalId with
    | none => s
    | some goal =>
        match answers.investigate goal with
        | .error _ =>
            s.note fun r => { r with investigationErrors := r.investigationErrors ++ [goalId] }
        | .ok why =>
            let s := s.note fun r => { r with reinvestigated := r.reinvestigated ++ [goalId] }
            if s.tracker.reinvestigated goalId why.cls then
              applyReinvestigatedBefore s goalId threshold why
            else
              let resolution := resolutionForWhy threshold why (s.tracker.guidedRetryUsed goalId)
                (s.tracker.surfacedFailures goalId)
              let s := applyResolutionSideEffects s goalId threshold why.cls answers true resolution
              if resolution.isTerminal then s.track (·.markReinvestigated goalId why.cls) else s

def reinvestigateBareBlockedGoals (s : BreakerState) (answers : Nat → Answers) (threshold : Nat) :
    BreakerState :=
  pruneTracker (stepAll (reinvestigateStep threshold) answers s.opened (bareBlockedIds s.board))

def BreakerCall.goalId : BreakerCall → String
  | spawnEngineer goalId _ => goalId
  | fileIssue goalId _ _ => goalId

namespace BreakerState

def entries (s : BreakerState) (goalId : String) : List ActiveGoal :=
  s.board.active.filter (·.id = goalId)

theorem goal?_eq (s : BreakerState) (goalId : String) : s.goal? goalId = (s.entries goalId).head? :=
  List.head?_filter.symm

def callsFor (s : BreakerState) (goalId : String) : List BreakerCall :=
  s.calls.filter (·.goalId = goalId)

end BreakerState

/-- Two trackers that remember the same of a goal. -/
structure NoProgressTracker.Same (goalId : String) (t t' : NoProgressTracker) : Prop where
  counts : t'.counts goalId = t.counts goalId
  guided : t'.guidedRetryUsed goalId = t.guidedRetryUsed goalId
  surfaced : t'.surfacedFailures goalId = t.surfacedFailures goalId

namespace NoProgressTracker

variable {x goalId : String} (t : NoProgressTracker)

theorem same_recordNoAction (h : x ≠ goalId) : Same x t (t.recordNoAction goalId) :=
  ⟨by simp [recordNoAction, h], rfl, rfl⟩

theorem same_resetCount (h : x ≠ goalId) : Same x t (t.resetCount goalId) :=
  ⟨by simp [resetCount, h], rfl, rfl⟩

theorem same_markGuidedRetry (h : x ≠ goalId) : Same x t (t.markGuidedRetry goalId) :=
  ⟨rfl, by simp [markGuidedRetry, guidedRetryUsed, h], rfl⟩

theorem same_recordSurfacedFailure (h : x ≠ goalId) :
    Same x t (t.recordSurfacedFailure goalId) :=
  ⟨rfl, rfl, by simp [recordSurfacedFailure, h]⟩

theorem same_clearSurfacedFailures (h : x ≠ goalId) :
    Same x t (t.clearSurfacedFailures goalId) :=
  ⟨rfl, rfl, by simp [clearSurfacedFailures, h]⟩

theorem same_recordProgress (h : x ≠ goalId) : Same x t (t.recordProgress goalId) :=
  ⟨by simp [recordProgress, h], by simp [recordProgress, guidedRetryUsed, h],
    by simp [recordProgress, h]⟩

theorem same_retainGoals {live : List String} (h : x ∈ live) : Same x t (t.retainGoals live) :=
  ⟨by simp [retainGoals, h], by simp [retainGoals, guidedRetryUsed, h], by simp [retainGoals, h]⟩

variable {t} in
theorem Same.trans {t' t'' : NoProgressTracker} (h : Same x t t') (h' : Same x t' t'') :
    Same x t t'' :=
  ⟨h'.counts.trans h.counts, h'.guided.trans h.guided, h'.surfaced.trans h.surfaced⟩

end NoProgressTracker

structure Untouched (goalId : String) (s s' : BreakerState) : Prop where
  entries : s'.entries goalId = s.entries goalId
  tracker : s.tracker.Same goalId s'.tracker
  calls : s'.callsFor goalId = s.callsFor goalId

theorem mem_updateFirst {goalId : String} {f : ActiveGoal → ActiveGoal} {l : List ActiveGoal}
    {goal : ActiveGoal} (h : goal ∈ updateFirst goalId f l) :
    goal ∈ l ∨ ∃ old ∈ l, old.id = goalId ∧ goal = f old := by
  induction l with
  | nil => cases h
  | cons first rest ih =>
    rw [updateFirst] at h
    split at h
    next hfirst =>
      rcases List.mem_cons.mp h with rfl | hrest
      · exact .inr ⟨first, List.mem_cons_self, hfirst, rfl⟩
      · exact .inl (List.mem_cons_of_mem _ hrest)
    next =>
      rcases List.mem_cons.mp h with rfl | hrest
      · exact .inl List.mem_cons_self
      · rcases ih hrest with hkept | ⟨old, hold, hid, rfl⟩
        · exact .inl (List.mem_cons_of_mem _ hkept)
        · exact .inr ⟨old, List.mem_cons_of_mem _ hold, hid, rfl⟩

theorem ids_updateFirst (goalId : String) {f : ActiveGoal → ActiveGoal}
    (hid : ∀ goal, (f goal).id = goal.id) (l : List ActiveGoal) :
    (updateFirst goalId f l).map (·.id) = l.map (·.id) := by
  induction l with
  | nil => rfl
  | cons first rest ih =>
    rw [updateFirst]
    split
    · simp [hid]
    · simp [ih]

theorem filter_updateFirst (goalId x : String) (f : ActiveGoal → ActiveGoal)
    (hid : ∀ goal, (f goal).id = goal.id) (l : List ActiveGoal) :
    (updateFirst goalId f l).filter (·.id = x) =
      if x = goalId then (l.filter (·.id = x)).modifyHead f else l.filter (·.id = x) := by
  induction l with
  | nil => simp [updateFirst]
  | cons goal rest ih =>
    unfold updateFirst
    by_cases hgoal : goal.id = goalId
    · rw [if_pos hgoal]
      by_cases hx : x = goalId
      · simp [hx, hid, hgoal]
      · simp [hid, hgoal, hx, Ne.symm hx]
    · rw [if_neg hgoal]
      by_cases hx : x = goalId
      · simp only [hx, if_true] at ih ⊢
        simp [hgoal, ih]
      · simp only [hx, if_false] at ih ⊢
        simp [List.filter_cons, ih]

theorem BreakerState.goal?_modifyGoal (s : BreakerState) (goalId x : String)
    (f : ActiveGoal → ActiveGoal) (hid : ∀ goal, (f goal).id = goal.id) :
    (s.modifyGoal goalId f).goal? x = if x = goalId then (s.goal? x).map f else s.goal? x := by
  have hentries := filter_updateFirst goalId x f hid s.board.active
  rw [goal?_eq, goal?_eq]
  change ((updateFirst goalId f s.board.active).filter (·.id = x)).head? = _
  rw [hentries]
  split
  · exact List.head?_modifyHead
  · rfl

theorem BreakerState.goal?_dropGoal (s : BreakerState) (goalId x : String) :
    (s.dropGoal goalId).goal? x = if x = goalId then none else s.goal? x := by
  unfold goal? dropGoal
  rw [List.find?_filter]
  split
  next h => simp [h]
  next h =>
    congr 1
    funext goal
    by_cases hgoal : goal.id = x <;> simp [hgoal, h]

theorem quarantinedGoal_id (goal : ActiveGoal) : (quarantinedGoal goal).id = goal.id := by
  unfold quarantinedGoal
  split <;> rfl

namespace Untouched

variable {x goalId : String} {s s' s'' : BreakerState}

theorem refl : Untouched x s s := ⟨rfl, ⟨rfl, rfl, rfl⟩, rfl⟩

theorem trans (h : Untouched x s s') (h' : Untouched x s' s'') : Untouched x s s'' :=
  ⟨h'.entries.trans h.entries, h.tracker.trans h'.tracker, h'.calls.trans h.calls⟩

theorem goal? (h : Untouched x s s') : s'.goal? x = s.goal? x := by
  rw [s'.goal?_eq, s.goal?_eq, h.entries]

theorem note (h : Untouched x s s') (f : NoProgressBreakerReport → NoProgressBreakerReport) :
    Untouched x s (s'.note f) :=
  ⟨h.entries, h.tracker, h.calls⟩

theorem track (h : Untouched x s s') (f : NoProgressTracker → NoProgressTracker)
    (hf : s'.tracker.Same x (f s'.tracker)) : Untouched x s (s'.track f) :=
  ⟨h.entries, h.tracker.trans hf, h.calls⟩

theorem resetCount (h : Untouched x s s') (hne : x ≠ goalId) :
    Untouched x s (s'.track (·.resetCount goalId)) :=
  h.track _ (s'.tracker.same_resetCount hne)

theorem modifyGoal (h : Untouched x s s') (f : ActiveGoal → ActiveGoal)
    (hid : ∀ goal, (f goal).id = goal.id) (hne : x ≠ goalId) :
    Untouched x s (s'.modifyGoal goalId f) := by
  refine ⟨?_, h.tracker, h.calls⟩
  have hsame := filter_updateFirst goalId x f hid s'.board.active
  rw [if_neg hne] at hsame
  exact hsame.trans h.entries

theorem setStatus (h : Untouched x s s') (status : GoalProgress) (hne : x ≠ goalId) :
    Untouched x s (s'.setStatus goalId status) :=
  h.modifyGoal _ (fun _ => rfl) hne

theorem dropGoal (h : Untouched x s s') (hne : x ≠ goalId) :
    Untouched x s (s'.dropGoal goalId) := by
  refine ⟨?_, h.tracker, h.calls⟩
  rw [← h.entries]
  unfold BreakerState.entries BreakerState.dropGoal
  rw [List.filter_filter]
  apply List.filter_congr
  intro goal _
  by_cases hx : goal.id = x <;> simp [hx, hne]

theorem call (h : Untouched x s s') {c : BreakerCall} (hne : x ≠ c.goalId) :
    Untouched x s (s'.call c) := by
  refine ⟨h.entries, h.tracker, ?_⟩
  rw [← h.calls]
  simp [BreakerState.callsFor, BreakerState.call, Ne.symm hne]

theorem unblockIf (h : Untouched x s s') (unblock : Bool) (hne : x ≠ goalId) :
    Untouched x s (unblockIf unblock goalId s') := by
  unfold Goals.unblockIf
  split
  · exact h.setStatus _ hne
  · exact h

theorem escalate (h : Untouched x s s') (hne : x ≠ goalId)
    (blockedReason issueTitle issueBody : String) (answers : Answers) :
    Untouched x s
      (escalateWithTrackingIssue s' goalId blockedReason issueTitle issueBody answers) := by
  unfold escalateWithTrackingIssue
  split
  · exact h
  split
  · exact h.setStatus _ hne
  · exact (h.modifyGoal (escalatedGoal blockedReason _) (fun _ => rfl) hne).call
      (c := .fileIssue goalId issueTitle issueBody) hne

theorem resolution (h : Untouched x s s') (hne : x ≠ goalId) (consecutive : Nat)
    (cls : NoProgressClass) (answers : Answers) (unblock : Bool)
    (resolution : NoProgressResolution) :
    Untouched x s
      (applyResolutionSideEffects s' goalId consecutive cls answers unblock resolution) := by
  cases resolution with
  | «continue» => exact h
  | markDone =>
    rw [applyResolutionSideEffects]
    exact ((h.setStatus _ hne).resetCount hne).note _
  | drop reason =>
    rw [applyResolutionSideEffects]
    exact ((h.dropGoal hne).resetCount hne).note _
  | heal why =>
    change Untouched x s (applyHeal s' goalId consecutive why answers unblock)
    unfold applyHeal
    split
    · exact h.resetCount hne
    split
    · exact ((h.resetCount hne).unblockIf unblock hne).note _
    · exact ((h.escalate hne _ _ _ answers).resetCount hne).note _
  | defer blockingRef evidence =>
    rw [applyResolutionSideEffects]
    exact ((h.modifyGoal (deferredGoal blockingRef) (fun _ => rfl) hne).resetCount hne).note _
  | spawnEngineer task why =>
    have hspawned := ((h.call (c := .spawnEngineer goalId task) hne).track
      (fun tracker => (tracker.markGuidedRetry goalId).resetCount goalId)
      ((s'.tracker.same_markGuidedRetry hne).trans
        (NoProgressTracker.same_resetCount _ hne))).unblockIf unblock hne
    rw [applyResolutionSideEffects]
    split
    · exact hspawned.note _
    · exact hspawned
  | escalate blockedReason issueTitle issueBody =>
    rw [applyResolutionSideEffects]
    exact ((h.escalate hne _ _ _ answers).resetCount hne).note _
  | surfaceInvestigationFailure cls reason =>
    have hsurfaced := h.track (·.recordSurfacedFailure goalId)
      (s'.tracker.same_recordSurfacedFailure hne)
    rw [applyResolutionSideEffects]
    exact ((hsurfaced.unblockIf unblock hne).resetCount hne).note _
  | quarantineTerminal surfacedCount =>
    rw [applyResolutionSideEffects]
    unfold applyQuarantine
    exact (((h.escalate hne _ _ _ answers).modifyGoal quarantinedGoal
      quarantinedGoal_id hne).track _
      ((NoProgressTracker.same_clearSurfacedFailures _ hne).trans
        (NoProgressTracker.same_resetCount _ hne))).note _

end Untouched

end Simard.Goals
