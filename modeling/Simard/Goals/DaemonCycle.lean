import Simard.Goals.BoardIds
import Simard.Goals.Handoffs
import Simard.Goals.Housekeeping
import Simard.Goals.Snapshot

/-! A cycle of the daemon over the goal board. It works on a board of its own, which is the stored
one or a snapshot from memory; the goals that were active before and are nowhere afterwards are
tombstoned when the board is committed. -/
namespace Simard.Goals
open Simard.Library

def isNewlyDone (evidence : EvidenceSource) (goal : ActiveGoal) : Bool :=
  goal.status ≠ .completed && (evaluate evidence goal).isComplete

/-- Every active goal is put to the gate, and the ids of those that pass are returned. -/
def sweepDoneGoals (evidence : EvidenceSource) (board : GoalBoard) : GoalBoard × List String :=
  ({ board with
      active := board.active.map fun goal =>
        if isNewlyDone evidence goal then { goal with status := .completed } else goal },
    (board.active.filter (isNewlyDone evidence)).map (·.id))

/-- What is committed: the board, what the gate took off it, and what is to be tombstoned. -/
structure Closing where
  board : GoalBoard
  newlyDone : List String
  tombstones : List String

def closeCycle (preCycleActiveIds : List String) (evidence : Option EvidenceSource)
    (board : GoalBoard) : Closing :=
  let (swept, newlyDone) :=
    match evidence with
    | some evidence => sweepDoneGoals evidence board
    | none => (board, [])
  let kept := { swept with active := swept.active.filter (·.id ∉ newlyDone) }
  let departed := preCycleActiveIds.filter fun id => id ∉ activeIds kept ∧ id ∉ backlogIds kept
  ⟨kept, newlyDone, departed ++ newlyDone⟩

inductive BreakerPass where
  | withThreshold (outcomes : List ActionOutcome) (evidence : EvidenceSource)
      (answers : Nat → Answers) (threshold : Nat)
  | investigated (outcomes : List ActionOutcome) (evidence : EvidenceSource)
      (answers : Nat → Answers) (threshold : Nat)
  | reinvestigate (answers : Nat → Answers) (threshold : Nat)

def BreakerPass.run (s : BreakerState) : BreakerPass → BreakerState
  | .withThreshold outcomes evidence answers threshold =>
      applyNoProgressBreakerWithThreshold s outcomes evidence answers threshold
  | .investigated outcomes evidence answers threshold =>
      applyNoProgressBreakerInvestigated s outcomes evidence answers threshold
  | .reinvestigate answers threshold => reinvestigateBareBlockedGoals s answers threshold

def runPasses (s : BreakerState) : List BreakerPass → BreakerState × List String
  | [] => (s, [])
  | pass :: rest =>
      let passed := pass.run s
      let (last, dropped) := runPasses passed rest
      (last, passed.report.dropped ++ dropped)

/-- What a cycle is given once its actions are done. Without evidence there are no passes, the gate
is off, and nothing is swept. -/
structure CycleInput where
  passes : List BreakerPass
  gateEnabled : Bool
  archiving : EvidenceSource
  sweeping : Option EvidenceSource
  cycleCount : Nat

def cycleStart (files : BoardFiles) : GoalBoard :=
  healStaleNoProgressBlocks (filterTombstoned files.state.board files.tombstones)

def commitClosing (files : BoardFiles) (closing : Closing) (tracker : NoProgressTracker)
    (cycleCount : Nat) : BoardFiles :=
  ((commitCycle closing.board tracker cycleCount closing.tombstones).exec BoardFiles.answer files).2

def openState (files : BoardFiles) : BreakerState :=
  ⟨cycleStart files, files.state.noProgress, {}, []⟩

def closingOf (files : BoardFiles) (input : CycleInput) : Closing :=
  let passed := (runPasses (openState files) input.passes).1
  let archived := (archiveCompletedEvidenceAware input.gateEnabled input.archiving passed.board).1
  closeCycle (activeIds (cycleStart files)) input.sweeping (promoteFromBacklog archived)

def daemonCycle (files : BoardFiles) (input : CycleInput) : BoardFiles :=
  commitClosing files (closingOf files input) (runPasses (openState files) input.passes).1.tracker
    input.cycleCount

/-- A change of active goals in place. -/
structure GoalEdit where
  apply : Nat → ActiveGoal → ActiveGoal
  keepsId : ∀ i goal, (apply i goal).id = goal.id

def GoalEdit.on (edit : GoalEdit) (board : GoalBoard) : GoalBoard :=
  { board with active := board.active.mapIdx edit.apply }

/-- What a cycle finds at its start, and what is done to the goals in place: standing markers, the
actions, and the verification of outcomes. -/
structure OpeningInput where
  reseed : Bool
  snapshot : Except String GoalBoard
  live : Finset String
  seeds : List SeedGoal
  handoffs : HandoffDir
  markStanding : GoalEdit
  act : GoalEdit
  verify : GoalEdit

namespace OodaCycle

def isPlaceholderDescription (description : String) : Bool :=
  let text := (trim description.toList).flatMap toLowercase
  let word := trim (text.drop 4)
  "goal".toList.isPrefixOf text && !word.isEmpty && word.length ≤ 4 && word.all (·.isAlphanum)

def goalIntegritySuspect (goal : ActiveGoal) : Option String :=
  let bytes := goal.id.utf8ByteSize
  if bytes < 5 then
    some ("goal '" ++ goal.id ++ "' has suspiciously short id (len " ++ toString bytes ++ ")")
  else if isPlaceholderDescription goal.description then
    some ("goal '" ++ goal.id ++ "' has placeholder description '" ++ goal.description ++ "'")
  else none

/-- Stricter than the check of a save: ids must have five bytes too. -/
def boardIntegritySuspect (board : GoalBoard) : Option String :=
  board.active.findSome? goalIntegritySuspect

end OodaCycle

/-- The marker file empties the board; a snapshot with active goals replaces it unless it looks
like a leaked fixture. -/
def loadedBoard (input : OpeningInput) (board : GoalBoard) : GoalBoard :=
  if input.reseed then .new
  else
    match input.snapshot with
    | .error _ => board
    | .ok snapshot =>
        if snapshot.active.isEmpty then board
        else if (OodaCycle.boardIntegritySuspect snapshot).isSome then board
        else snapshot

def openedBoard (input : OpeningInput) (tombstones : Finset String)
    (board : GoalBoard) : GoalBoard :=
  let swept := sweepStaleAssignmentsWithSessions input.live (loadedBoard input board)
  let seeded := (seedBoardFromSeedGoals input.seeds swept).2
  (checkMeetingHandoffs tombstones input.handoffs (input.markStanding.on seeded)).1.board

/-- How a cycle ends: what it took off the board and why, what its corruption guard reports, and
what is committed. -/
structure CycleReport where
  dropped : List String
  archived : List String
  vanished : List String
  tracker : NoProgressTracker
  closing : Closing

def runCycle (files : BoardFiles) (opening : OpeningInput) (input : CycleInput) : CycleReport :=
  let opened := openedBoard opening files.tombstones (cycleStart files)
  let (passed, dropped) :=
    runPasses { openState files with board := opening.act.on opened } input.passes
  let (kept, archived, _) := archiveCompletedEvidenceAware input.gateEnabled input.archiving
    (opening.verify.on passed.board)
  let archivedIds := archived.map (·.id)
  let curated := promoteFromBacklog kept
  let vanished := (activeIds opened).filter fun id =>
    id ∉ activeIds curated ∧ id ∉ archivedIds ∧ id ∉ dropped
  ⟨dropped, archivedIds, vanished, passed.tracker,
    closeCycle (activeIds (cycleStart files)) input.sweeping curated⟩

def committedBoard (files : BoardFiles) (opening : OpeningInput) (input : CycleInput) : GoalBoard :=
  let report := runCycle files opening input
  (commitClosing files report.closing report.tracker input.cycleCount).state.board

/-- A goal leaves both lists when it is dropped, and is reported then; nothing else leaves. -/
structure Sheds (s s' : BreakerState) : Prop where
  active : (activeIds s'.board).Sublist (activeIds s.board)
  backlog : (backlogIds s'.board).Sublist (backlogIds s.board)
  activeLeft : ∀ id ∈ activeIds s.board, id ∈ activeIds s'.board ∨ id ∈ s'.report.dropped
  backlogLeft : ∀ id ∈ backlogIds s.board, id ∈ backlogIds s'.board ∨ id ∈ s'.report.dropped
  reported : ∀ id ∈ s.report.dropped, id ∈ s'.report.dropped
  known : ∀ id ∈ s'.report.dropped, id ∈ s.report.dropped ∨ id ∈ activeIds s.board

namespace Sheds

variable {s s' s'' : BreakerState}

theorem of_ids (hactive : activeIds s'.board = activeIds s.board)
    (hbacklog : backlogIds s'.board = backlogIds s.board)
    (hdropped : s'.report.dropped = s.report.dropped) : Sheds s s' where
  active := hactive ▸ List.Sublist.refl _
  backlog := hbacklog ▸ List.Sublist.refl _
  activeLeft _ hid := .inl (hactive ▸ hid)
  backlogLeft _ hid := .inl (hbacklog ▸ hid)
  reported _ hid := hdropped ▸ hid
  known _ hid := .inl (hdropped ▸ hid)

theorem refl : Sheds s s := of_ids rfl rfl rfl

theorem trans (h : Sheds s s') (h' : Sheds s' s'') : Sheds s s'' where
  active := h'.active.trans h.active
  backlog := h'.backlog.trans h.backlog
  activeLeft id hid := by
    rcases h.activeLeft id hid with hkept | hdropped
    · exact h'.activeLeft id hkept
    · exact .inr (h'.reported id hdropped)
  backlogLeft id hid := by
    rcases h.backlogLeft id hid with hkept | hdropped
    · exact h'.backlogLeft id hkept
    · exact .inr (h'.reported id hdropped)
  reported id hid := h'.reported id (h.reported id hid)
  known id hid := by
    rcases h'.known id hid with hdropped | hlisted
    · exact h.known id hdropped
    · exact .inr (h.active.subset hlisted)

theorem track (h : Sheds s s') (f : NoProgressTracker → NoProgressTracker) : Sheds s (s'.track f) :=
  h.trans (of_ids rfl rfl rfl)

theorem call (h : Sheds s s') (c : BreakerCall) : Sheds s (s'.call c) :=
  h.trans (of_ids rfl rfl rfl)

theorem pruneTracker (h : Sheds s s') : Sheds s (pruneTracker s') := h.track _

theorem note (h : Sheds s s') (f : NoProgressBreakerReport → NoProgressBreakerReport)
    (hf : (f s'.report).dropped = s'.report.dropped) : Sheds s (s'.note f) :=
  h.trans (of_ids rfl rfl hf)

theorem modifyGoal (h : Sheds s s') (goalId : String) {f : ActiveGoal → ActiveGoal}
    (hid : ∀ goal, (f goal).id = goal.id) : Sheds s (s'.modifyGoal goalId f) :=
  h.trans (of_ids (ids_updateFirst goalId hid _) rfl rfl)

theorem setStatus (h : Sheds s s') (goalId : String) (status : GoalProgress) :
    Sheds s (s'.setStatus goalId status) :=
  h.modifyGoal goalId fun _ => rfl

theorem unblockIf (h : Sheds s s') (unblock : Bool) (goalId : String) :
    Sheds s (unblockIf unblock goalId s') := by
  unfold Goals.unblockIf
  split
  · exact h.setStatus _ _
  · exact h

theorem drop (h : Sheds s s') {goalId : String} (hlisted : goalId ∈ activeIds s'.board) :
    Sheds s ((s'.dropGoal goalId).note fun r => { r with dropped := r.dropped ++ [goalId] }) := by
  refine h.trans ⟨?_, ?_, ?_, ?_, fun id => List.mem_append_left _, ?_⟩
  · exact List.filter_sublist.map _
  · exact List.filter_sublist.map _
  · intro id hid
    obtain ⟨goal, hgoal, rfl⟩ := List.mem_map.mp hid
    by_cases hdropped : goal.id = goalId
    · exact .inr (List.mem_append_right _ (List.mem_singleton.mpr hdropped))
    · exact .inl (List.mem_map_of_mem (List.mem_filter.mpr ⟨hgoal, decide_eq_true hdropped⟩))
  · intro id hid
    obtain ⟨item, hitem, rfl⟩ := List.mem_map.mp hid
    by_cases hdropped : item.id = goalId
    · exact .inr (List.mem_append_right _ (List.mem_singleton.mpr hdropped))
    · exact .inl (List.mem_map_of_mem (List.mem_filter.mpr ⟨hitem, decide_eq_true hdropped⟩))
  · intro id hid
    rcases List.mem_append.mp hid with hbefore | hdropped
    · exact .inl hbefore
    · exact .inr (List.mem_singleton.mp hdropped ▸ hlisted)

theorem escalate (h : Sheds s s') (goalId blockedReason issueTitle issueBody : String)
    (answers : Answers) :
    Sheds s (escalateWithTrackingIssue s' goalId blockedReason issueTitle issueBody answers) := by
  unfold escalateWithTrackingIssue
  split
  · exact h
  split
  · exact h.setStatus _ _
  · exact (h.modifyGoal goalId (f := escalatedGoal blockedReason _) fun _ => rfl).call _

theorem resolution (h : Sheds s s') {goalId : String} (hlisted : goalId ∈ activeIds s'.board)
    (consecutive : Nat) (cls : NoProgressClass) (answers : Answers) (unblock : Bool)
    (resolution : NoProgressResolution) :
    Sheds s (applyResolutionSideEffects s' goalId consecutive cls answers unblock resolution) := by
  cases resolution with
  | «continue» => exact h
  | markDone =>
    rw [applyResolutionSideEffects]
    exact ((h.setStatus _ _).track _).note _ rfl
  | drop reason =>
    rw [applyResolutionSideEffects]
    exact (h.drop hlisted).trans (of_ids rfl rfl rfl)
  | heal why =>
    change Sheds s (applyHeal s' goalId consecutive why answers unblock)
    unfold applyHeal
    split
    · exact h.track _
    split
    · exact ((h.track _).unblockIf unblock goalId).note _ rfl
    · exact ((h.escalate goalId _ _ _ answers).track _).note _ rfl
  | defer blockingRef evidence =>
    rw [applyResolutionSideEffects]
    exact ((h.modifyGoal goalId (f := deferredGoal blockingRef) fun _ => rfl).track _).note _ rfl
  | spawnEngineer task why =>
    have hspawned := ((h.call (.spawnEngineer goalId task)).track fun tracker =>
      (tracker.markGuidedRetry goalId).resetCount goalId).unblockIf unblock goalId
    rw [applyResolutionSideEffects]
    split
    · exact hspawned.note _ rfl
    · exact hspawned
  | escalate blockedReason issueTitle issueBody =>
    rw [applyResolutionSideEffects]
    exact ((h.escalate goalId _ _ _ answers).track _).note _ rfl
  | surfaceInvestigationFailure cls reason =>
    rw [applyResolutionSideEffects]
    exact (((h.track _).unblockIf unblock goalId).track _).note _ rfl
  | quarantineTerminal surfacedCount =>
    rw [applyResolutionSideEffects]
    unfold applyQuarantine
    refine (((h.escalate goalId _ _ _ answers).modifyGoal goalId quarantinedGoal_id).track _).note
      _ ?_
    rfl

theorem screen {outcome : ActionOutcome} {stalled : String → BreakerState}
    (h : ∀ goalId, Sheds s (stalled goalId)) : Sheds s (screenOutcome s outcome stalled) := by
  unfold screenOutcome
  split
  · exact refl
  next goalId _ =>
    split
    · split
      · exact refl.track _
      · exact refl
    · cases hidle : applyStandingIdle s goalId with
      | none => exact h goalId
      | some idled =>
        obtain ⟨goal, -, hidle⟩ := Option.bind_eq_some_iff.mp hidle
        obtain ⟨idle, -, hidle⟩ := Option.bind_eq_some_iff.mp hidle
        cases hidle
        cases idle <;> exact of_ids rfl rfl rfl

end Sheds

theorem mem_activeIds_of_goal? {s : BreakerState} {goal : ActiveGoal} {goalId : String}
    (h : s.goal? goalId = some goal) : goalId ∈ activeIds s.board := by
  have hid : goal.id = goalId := by simpa using List.find?_some h
  exact hid ▸ List.mem_map_of_mem (List.mem_of_find?_eq_some h)

section Steps

variable (s : BreakerState) (answers : Answers)

theorem sheds_baseResolution {goalId : String} (hlisted : goalId ∈ activeIds s.board)
    (resolution : NoProgressResolution) :
    Sheds s (applyBaseResolution s goalId answers resolution) := by
  unfold applyBaseResolution
  split
  · exact (Sheds.refl.setStatus goalId _).note _ rfl
  · exact Sheds.refl.drop hlisted
  · exact (Sheds.refl.escalate goalId _ _ _ answers).note _ rfl
  · exact .refl

theorem sheds_breakerStep (evidence : EvidenceSource) (threshold : Nat) (outcome : ActionOutcome) :
    Sheds s (breakerStep evidence threshold s outcome answers) := by
  apply Sheds.screen
  intro goalId
  split
  · exact Sheds.refl.track _
  next goal hgoal =>
    rcases s.tracker.recordAndResolve goalId threshold (verifyStuckGoal evidence goal) with
      ⟨resolution, tracker⟩
    have hcounted : Sheds s { s with tracker := tracker } := Sheds.refl.track fun _ => tracker
    have hlisted := mem_activeIds_of_goal? hgoal
    exact hcounted.trans
      (sheds_baseResolution { s with tracker := tracker } answers hlisted resolution)

theorem sheds_investigatedStep (threshold : Nat) (outcome : ActionOutcome) :
    Sheds s (investigatedStep threshold s outcome answers) := by
  apply Sheds.screen
  intro goalId
  have hcounted : Sheds s (s.track (·.recordNoAction goalId)) := Sheds.refl.track _
  dsimp only
  split
  · exact hcounted
  split
  · exact hcounted.track _
  next goal hgoal =>
    split
    · exact hcounted.note _ rfl
    · exact hcounted.resolution (mem_activeIds_of_goal? hgoal) _ _ _ _ _

theorem sheds_reinvestigateStep (threshold : Nat) (goalId : String) :
    Sheds s (reinvestigateStep threshold s goalId answers) := by
  unfold reinvestigateStep
  split
  · exact .refl
  split
  · exact .refl
  next goal hgoal =>
    split
    · exact Sheds.refl.note _ rfl
    next why _ =>
      have hnoted : Sheds s
          (s.note fun r => { r with reinvestigated := r.reinvestigated ++ [goalId] }) :=
        Sheds.refl.note _ rfl
      dsimp only
      split
      · unfold applyReinvestigatedBefore
        split
        · exact (hnoted.setStatus _ _).note _ rfl
        · exact hnoted.setStatus _ _
      · have hresolved := hnoted.resolution (mem_activeIds_of_goal? hgoal) threshold why.cls answers
          true (resolutionForWhy threshold why (s.tracker.guidedRetryUsed goalId)
            (s.tracker.surfacedFailures goalId))
        split
        · exact hresolved.track _
        · exact hresolved

theorem sheds_autoClear (evidence : EvidenceSource) : Sheds s (autoClear evidence s) := by
  refine .of_ids ?_ rfl rfl
  simp only [activeIds, autoClear, List.map_map]
  apply List.map_congr_left
  intro goal _
  dsimp only [Function.comp_apply]
  split <;> rfl

theorem sheds_stepAll {α : Type} {step : BreakerState → α → Answers → BreakerState}
    (hstep : ∀ s item answers, Sheds s (step s item answers)) (answers : Nat → Answers)
    (items : List α) : Sheds s (stepAll step answers s items) :=
  stepAll_invariant (P := Sheds s) items
    (fun later item _ answers h => h.trans (hstep later item answers)) answers .refl

theorem sheds_pass (pass : BreakerPass) : Sheds s.opened (pass.run s) := by
  cases pass with
  | withThreshold outcomes evidence answers threshold =>
    have hsteps := sheds_stepAll s.opened
      (fun s outcome answers => sheds_breakerStep s answers evidence threshold outcome)
        answers outcomes
    exact hsteps.pruneTracker
  | investigated outcomes evidence answers threshold =>
    have hsteps := sheds_stepAll (autoClear evidence s.opened)
      (fun s outcome answers => sheds_investigatedStep s answers threshold outcome) answers outcomes
    exact ((sheds_autoClear s.opened evidence).trans hsteps).pruneTracker
  | reinvestigate answers threshold =>
    have hsteps := sheds_stepAll s.opened
      (fun s goalId answers => sheds_reinvestigateStep s answers threshold goalId) answers
      (bareBlockedIds s.board)
    exact hsteps.pruneTracker

end Steps

/-- What a board lost from one state to another, and to which list of dropped goals. -/
structure Shed (before after : GoalBoard) (dropped : List String) : Prop where
  active : (activeIds after).Sublist (activeIds before)
  backlog : (backlogIds after).Sublist (backlogIds before)
  activeLeft : ∀ id ∈ activeIds before, id ∈ activeIds after ∨ id ∈ dropped
  backlogLeft : ∀ id ∈ backlogIds before, id ∈ backlogIds after ∨ id ∈ dropped
  known : ∀ id ∈ dropped, id ∈ activeIds before

theorem shed_runPasses (s : BreakerState) (passes : List BreakerPass) :
    Shed s.board (runPasses s passes).1.board (runPasses s passes).2 := by
  induction passes generalizing s with
  | nil => exact ⟨.refl _, .refl _, fun _ => .inl, fun _ => .inl, nofun⟩
  | cons pass rest ih =>
    have hfirst := sheds_pass s pass
    have hrest := ih (pass.run s)
    refine ⟨hrest.active.trans hfirst.active, hrest.backlog.trans hfirst.backlog, ?_, ?_, ?_⟩
    · intro id hid
      rcases hfirst.activeLeft id hid with hkept | hdropped
      · exact (hrest.activeLeft id hkept).imp_right (List.mem_append_right _)
      · exact .inr (List.mem_append_left _ hdropped)
    · intro id hid
      rcases hfirst.backlogLeft id hid with hkept | hdropped
      · exact (hrest.backlogLeft id hkept).imp_right (List.mem_append_right _)
      · exact .inr (List.mem_append_left _ hdropped)
    · intro id hid
      rcases List.mem_append.mp hid with hnow | hlater
      · exact (hfirst.known id hnow).resolve_left List.not_mem_nil
      · exact hfirst.active.subset (hrest.known id hlater)

def ActiveGoal.renewed (goal : ActiveGoal) : ActiveGoal :=
  if hasDominantProgress goal then goal.rollToNewCycle else goal

/-- Each goal is kept under its id or archived, and standing ones are kept. -/
inductive Archives : List ActiveGoal → List ActiveGoal → List ActiveGoal → Prop
  | nil : Archives [] [] []
  | keep {goal kept : ActiveGoal} {before retained archived : List ActiveGoal}
      (hid : kept.id = goal.id) (hstanding : goal.isPerpetual → kept = goal.renewed)
      (hrest : Archives before retained archived) :
      Archives (goal :: before) (kept :: retained) archived
  | archive {goal : ActiveGoal} {before retained archived : List ActiveGoal}
      (hfinite : goal.isPerpetual = false) (hrest : Archives before retained archived) :
      Archives (goal :: before) retained (goal :: archived)

theorem archiveGoal_cases (source : EvidenceSource) (pass : Archival) (goal : ActiveGoal) :
    (∃ kept, kept.id = goal.id ∧ (goal.isPerpetual → kept = goal.renewed) ∧
      (archiveGoal source pass goal).retained = pass.retained ++ [kept] ∧
      (archiveGoal source pass goal).archived = pass.archived) ∨
    (goal.isPerpetual = false ∧ (archiveGoal source pass goal).retained = pass.retained ∧
      (archiveGoal source pass goal).archived = pass.archived ++ [goal]) := by
  unfold archiveGoal
  split
  next hstanding =>
    refine .inl ⟨goal.renewed, ?_, fun _ => rfl, rfl, rfl⟩
    unfold ActiveGoal.renewed
    split <;> rfl
  next hfinite =>
    split
    next => exact .inl ⟨goal, rfl, fun h => absurd h hfinite, rfl, rfl⟩
    next =>
      split
      next => exact .inr ⟨Bool.eq_false_iff.mpr hfinite, rfl, rfl⟩
      next missing _ =>
        dsimp only
        refine .inl ⟨_, ?_, fun h => absurd h hfinite, rfl, rfl⟩
        rfl

theorem archives_foldl (source : EvidenceSource) (goals : List ActiveGoal) (pass : Archival) :
    ∃ retained archived, Archives goals retained archived ∧
      (goals.foldl (archiveGoal source) pass).retained = pass.retained ++ retained ∧
      (goals.foldl (archiveGoal source) pass).archived = pass.archived ++ archived := by
  induction goals generalizing pass with
  | nil => exact ⟨[], [], .nil, (List.append_nil _).symm, (List.append_nil _).symm⟩
  | cons goal rest ih =>
    obtain ⟨retained, archived, hrest, hretained, harchived⟩ := ih (archiveGoal source pass goal)
    rw [List.foldl_cons, hretained, harchived]
    obtain ⟨kept, hid, hstanding, hpass, hsame⟩ | ⟨hfinite, hsame, hpass⟩ :=
      archiveGoal_cases source pass goal
    · refine ⟨kept :: retained, archived, .keep hid hstanding hrest, ?_, by rw [hsame]⟩
      rw [hpass, List.append_assoc, List.singleton_append]
    · refine ⟨retained, goal :: archived, .archive hfinite hrest, by rw [hsame], ?_⟩
      rw [hpass, List.append_assoc, List.singleton_append]

theorem archives_archiveCompleted (goals : List ActiveGoal) (backlog : List BacklogItem) :
    Archives goals (archiveCompleted ⟨goals, backlog⟩).1.active
      (archiveCompleted ⟨goals, backlog⟩).2 := by
  unfold archiveCompleted
  dsimp only
  induction goals with
  | nil => exact .nil
  | cons goal rest ih =>
    rw [List.filterMap_cons, List.filter_cons]
    cases hterminal : goal.status.isTerminal with
    | false =>
      have hrenewed : goal.renewed = goal := by
        rw [ActiveGoal.renewed, hasDominantProgress, hterminal]
        rfl
      exact .keep rfl (fun _ => hrenewed.symm) ih
    | true =>
      cases hstanding : goal.isPerpetual with
      | true =>
        have hrenewed : goal.renewed = goal.rollToNewCycle := by
          rw [ActiveGoal.renewed, hasDominantProgress, hterminal]
          rfl
        exact .keep rfl (fun _ => hrenewed.symm) ih
      | false => exact .archive hstanding ih

theorem archives_evidenceAware (gateEnabled : Bool) (source : EvidenceSource) (board : GoalBoard) :
    Archives board.active (archiveCompletedEvidenceAware gateEnabled source board).1.active
      (archiveCompletedEvidenceAware gateEnabled source board).2.1 := by
  unfold archiveCompletedEvidenceAware
  split
  · obtain ⟨retained, archived, harchives, hretained, harchived⟩ :=
      archives_foldl source board.active ⟨[], [], []⟩
    unfold archiveCompletedWithEvidence
    dsimp only
    rw [hretained, harchived]
    exact harchives
  · exact archives_archiveCompleted board.active board.backlog

@[simp] theorem backlog_evidenceAware (gateEnabled : Bool) (source : EvidenceSource)
    (board : GoalBoard) :
    (archiveCompletedEvidenceAware gateEnabled source board).1.backlog = board.backlog := by
  unfold archiveCompletedEvidenceAware
  split <;> rfl

namespace Archives

variable {before retained archived : List ActiveGoal}

theorem sublist (h : Archives before retained archived) :
    (retained.map (·.id)).Sublist (before.map (·.id)) := by
  induction h with
  | nil => exact .slnil
  | keep hid hstanding hrest ih =>
    rw [List.map_cons, List.map_cons, hid]
    exact ih.cons_cons _
  | archive hfinite hrest ih => exact ih.cons _

theorem left (h : Archives before retained archived) :
    ∀ id ∈ before.map (·.id), id ∈ retained.map (·.id) ∨ id ∈ archived.map (·.id) := by
  induction h with
  | nil => exact nofun
  | keep hid hstanding hrest ih =>
    simp only [List.map_cons, List.mem_cons, hid]
    intro id hlisted
    rcases hlisted with rfl | hlater
    · exact .inl (.inl rfl)
    · exact (ih id hlater).imp_left .inr
  | archive hfinite hrest ih =>
    simp only [List.map_cons, List.mem_cons]
    intro id hlisted
    rcases hlisted with rfl | hlater
    · exact .inr (.inl rfl)
    · exact (ih id hlater).imp_right .inr

theorem known (h : Archives before retained archived) :
    ∀ id ∈ archived.map (·.id), id ∈ before.map (·.id) := by
  induction h with
  | nil => exact nofun
  | keep hid hstanding hrest ih => exact fun id hid => List.mem_cons_of_mem _ (ih id hid)
  | archive hfinite hrest ih =>
    intro id hlisted
    rcases List.mem_cons.mp hlisted with rfl | hlater
    · exact List.mem_cons_self
    · exact List.mem_cons_of_mem _ (ih id hlater)

end Archives

theorem shed_archive (gateEnabled : Bool) (source : EvidenceSource) (board : GoalBoard) :
    Shed board (archiveCompletedEvidenceAware gateEnabled source board).1
      ((archiveCompletedEvidenceAware gateEnabled source board).2.1.map (·.id)) := by
  have harchives := archives_evidenceAware gateEnabled source board
  refine ⟨harchives.sublist, ?_, harchives.left, ?_, harchives.known⟩
  · rw [backlogIds, backlog_evidenceAware]
    exact .refl _
  · intro id hid
    rw [backlogIds, backlog_evidenceAware]
    exact .inl hid

end Simard.Goals
