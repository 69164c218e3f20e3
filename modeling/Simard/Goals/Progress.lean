import Simard.Goals.Curation
import Simard.Library.Machine

/-! The progress of a goal. A raise is put to a checker of evidence, and recorded in memory once it
is on the board; a parent's progress is the rounded mean of its children's. -/
namespace Simard.Goals
open Simard.Library Action

def progressToPercent (progress : GoalProgress) (current : Nat) : Nat :=
  match progress with
  | .proposed => 0
  | .notStarted => 0
  | .inProgress percent => percent
  | .blocked _ => current
  | .paused => current
  | .completed => 100

def pct : GoalProgress → Nat
  | .completed => 100
  | .inProgress percent => percent
  | _ => 0

theorem progressToPercent_zero (progress : GoalProgress) :
    progressToPercent progress 0 = pct progress := by
  cases progress <;> rfl

def variantLabel : GoalProgress → String
  | .proposed => "proposed"
  | .notStarted => "not-started"
  | .inProgress _ => "in-progress"
  | .blocked _ => "blocked"
  | .paused => "paused"
  | .completed => "completed"

inductive EvidenceDecision where
  | accept (reason : String)
  | reject (reason : String)
  deriving DecidableEq

/-- The texts and fields of an audit episode; only a rejected raise names its `since`. -/
structure ProgressEpisode where
  content : String
  kind : String
  goalId : String
  oldPercent : Nat
  newPercent : Nat
  reason : String
  since : Option Int
  recordedAt : Int
  deriving DecidableEq

/-- A proposal, and how checker, memory and clock answer. -/
structure ProgressCall where
  goalId : String
  proposed : GoalProgress
  check : ActiveGoal → Nat → Nat → Int → EvidenceDecision
  searchEpisodesStartingWith : String → Nat → Except SimardError (List (String × Int))
  storeEpisode : ProgressEpisode → Except SimardError Unit
  processStart : Int
  now : Int

namespace ProgressCall

variable (c : ProgressCall)

def acceptedPrefix : String := "goal progress accepted:"

/-- The last update, else the latest accepted episode that mentions the goal, else the start of the
process; never after now. -/
def since (goal : ActiveGoal) : Int :=
  let found :=
    match goal.lastProgressUpdateAt with
    | some last => last
    | none =>
        let hits :=
          match c.searchEpisodesStartingWith acceptedPrefix 64 with
          | .ok hits => hits
          | .error _ => []
        ((hits.filter fun hit => containsText c.goalId.toList hit.1.toList).map (·.2)).max?.getD
          c.processStart
  if c.now < found then c.now else found

def oldPercent (goal : ActiveGoal) : Nat := progressToPercent goal.status 0

def newPercent (goal : ActiveGoal) : Nat := progressToPercent c.proposed (oldPercent goal)

def isBypass (goal : ActiveGoal) : Bool :=
  (match c.proposed with
    | .blocked _ | .notStarted | .proposed | .paused => true
    | _ => false) || c.newPercent goal ≤ oldPercent goal

def bypassReason (goal : ActiveGoal) : String :=
  match c.proposed with
  | .blocked _ => "bypass: blocked"
  | .notStarted => "bypass: not-started"
  | .proposed => "bypass: proposed"
  | .paused => "bypass: paused"
  | raise =>
      if c.newPercent goal < oldPercent goal then "bypass: non-increase (decrease)"
      else "bypass: non-increase (" ++ variantLabel raise ++ ")"

def step (goal : ActiveGoal) : String :=
  toString (oldPercent goal) ++ "%->" ++ toString (c.newPercent goal) ++ "% on " ++ c.goalId

def acceptedEpisode (goal : ActiveGoal) (reason : String) : ProgressEpisode where
  content := acceptedPrefix ++ " " ++ c.step goal ++ "\n  -- evidence: " ++ reason
  kind := "progress_accepted"
  goalId := c.goalId
  oldPercent := oldPercent goal
  newPercent := c.newPercent goal
  reason := reason
  since := none
  recordedAt := c.now

def rejectedEpisode (goal : ActiveGoal) (reason : String) : ProgressEpisode where
  content := "brain hallucination detected: rejected progress " ++ c.step goal ++
    "\n  -- reviewer rationale: " ++ reason
  kind := "progress_rejected"
  goalId := c.goalId
  oldPercent := oldPercent goal
  newPercent := c.newPercent goal
  reason := reason
  since := some (c.since goal)
  recordedAt := c.now

end ProgressCall

def findActive (goalId : String) (board : GoalBoard) : Except SimardError ActiveGoal :=
  match board.active.find? (·.id = goalId) with
  | some goal => .ok goal
  | none => .error (.invalidGoalRecord "goal_id" ("active goal '" ++ goalId ++ "' not found"))

def stamp (goalId : String) (now : Int) (board : GoalBoard) : GoalBoard :=
  { board with
    active := updateFirst goalId (fun goal => { goal with lastProgressUpdateAt := some now })
      board.active }

def updateGoalProgressWithEvidence (c : ProgressCall) : BoardAction EvidenceDecision := do
  let goal ← check (findActive c.goalId (← get))
  if c.isBypass goal then
    updateGoalProgress c.goalId c.proposed
    return .accept (c.bypassReason goal)
  else
    match c.check goal (ProgressCall.oldPercent goal) (c.newPercent goal) (c.since goal) with
    | .accept reason =>
        updateGoalProgress c.goalId c.proposed
        modify (stamp c.goalId c.now)
        check (c.storeEpisode (c.acceptedEpisode goal reason))
        return .accept reason
    | .reject reason =>
        check (c.storeEpisode (c.rejectedEpisode goal reason))
        return .reject reason

def withStatus (goalId : String) (progress : GoalProgress) (board : GoalBoard) : GoalBoard :=
  { board with
    active := updateFirst goalId (fun goal => { goal with status := progress }) board.active }

namespace ProgressCall

variable (c : ProgressCall) (board : GoalBoard)

def asksAbout : Option ActiveGoal :=
  (board.active.find? (·.id = c.goalId)).filter fun goal => !c.isBypass goal

def answer (goal : ActiveGoal) : EvidenceDecision :=
  c.check goal (oldPercent goal) (c.newPercent goal) (c.since goal)

/-- What the checker is asked: the goal, the old and the new percent, and since when. -/
def consultation : Option (ActiveGoal × Nat × Nat × Int) :=
  (c.asksAbout board).map fun goal => (goal, oldPercent goal, c.newPercent goal, c.since goal)

def acceptedPercent : Option Nat :=
  match c.asksAbout board with
  | some goal =>
      match c.answer goal with
      | .accept _ => some (c.newPercent goal)
      | .reject _ => none
  | none => none

end ProgressCall

section Updates

variable {c : ProgressCall} {board : GoalBoard} {goal : ActiveGoal}

theorem updateGoalProgress_found {goalId : String}
    (hfound : board.active.find? (·.id = goalId) = some goal) (progress : GoalProgress) :
    call (updateGoalProgress goalId progress) board =
      match validatePercent "progress.percent" progress with
      | .ok () => (.ok (), withStatus goalId progress board)
      | .error e => (.error e, board) := by
  have hactive : goalId ∈ activeIds board := by
    have hid : goal.id = goalId := by simpa using List.find?_some hfound
    exact List.mem_map.mpr ⟨goal, List.mem_of_find?_eq_some hfound, hid⟩
  unfold updateGoalProgress
  cases validatePercent "progress.percent" progress with
  | error e => rfl
  | ok =>
    rw [call_check_ok, call_get_bind, if_pos hactive]
    rfl

theorem asksAbout_eq_some : c.asksAbout board = some goal ↔
    board.active.find? (·.id = c.goalId) = some goal ∧ c.isBypass goal = false := by
  rw [ProgressCall.asksAbout, Option.filter_eq_some_iff, Bool.not_eq_true']

theorem isBypass_of_asksAbout (hasks : c.asksAbout board = none)
    (hfound : board.active.find? (·.id = c.goalId) = some goal) : c.isBypass goal := by
  by_contra hasked
  rw [Bool.not_eq_true] at hasked
  rw [asksAbout_eq_some.mpr ⟨hfound, hasked⟩] at hasks
  cases hasks

theorem update_missing (hfound : board.active.find? (·.id = c.goalId) = none) :
    Refuses (updateGoalProgressWithEvidence c) board := by
  refine ⟨.invalidGoalRecord "goal_id" ("active goal '" ++ c.goalId ++ "' not found"), ?_⟩
  rw [updateGoalProgressWithEvidence, call_get_bind, findActive, hfound, call_check_error]

theorem update_bypass (hfound : board.active.find? (·.id = c.goalId) = some goal)
    (hbypass : c.isBypass goal) :
    call (updateGoalProgressWithEvidence c) board =
      match validatePercent "progress.percent" c.proposed with
      | .ok () => (.ok (.accept (c.bypassReason goal)), withStatus c.goalId c.proposed board)
      | .error e => (.error e, board) := by
  rw [updateGoalProgressWithEvidence, call_get_bind, findActive, hfound]
  dsimp only
  rw [call_check_ok, if_pos hbypass, call_bind, updateGoalProgress_found hfound]
  cases validatePercent "progress.percent" c.proposed <;> rfl

theorem update_rejected (hasks : c.asksAbout board = some goal) {reason : String}
    (hanswer : c.answer goal = .reject reason) :
    call (updateGoalProgressWithEvidence c) board =
      ((c.storeEpisode (c.rejectedEpisode goal reason)).map fun _ => .reject reason, board) := by
  obtain ⟨hfound, hbypass⟩ := asksAbout_eq_some.mp hasks
  have hcheck : c.check goal (ProgressCall.oldPercent goal) (c.newPercent goal) (c.since goal) =
      .reject reason := hanswer
  rw [updateGoalProgressWithEvidence, call_get_bind, findActive, hfound]
  dsimp only
  rw [call_check_ok, if_neg (Bool.eq_false_iff.mp hbypass), hcheck]
  dsimp only
  cases c.storeEpisode (c.rejectedEpisode goal reason) <;> rfl

theorem update_accepted (hasks : c.asksAbout board = some goal) {reason : String}
    (hanswer : c.answer goal = .accept reason) :
    call (updateGoalProgressWithEvidence c) board =
      match validatePercent "progress.percent" c.proposed with
      | .ok () =>
          ((c.storeEpisode (c.acceptedEpisode goal reason)).map fun _ => .accept reason,
            stamp c.goalId c.now (withStatus c.goalId c.proposed board))
      | .error e => (.error e, board) := by
  obtain ⟨hfound, hbypass⟩ := asksAbout_eq_some.mp hasks
  have hcheck : c.check goal (ProgressCall.oldPercent goal) (c.newPercent goal) (c.since goal) =
      .accept reason := hanswer
  rw [updateGoalProgressWithEvidence, call_get_bind, findActive, hfound]
  dsimp only
  rw [call_check_ok, if_neg (Bool.eq_false_iff.mp hbypass), hcheck]
  dsimp only
  rw [call_bind, updateGoalProgress_found hfound]
  cases validatePercent "progress.percent" c.proposed with
  | error e => rfl
  | ok =>
    dsimp only
    rw [call_modify_bind]
    cases c.storeEpisode (c.acceptedEpisode goal reason) <;> rfl

end Updates

theorem withStatus_ne {c : ProgressCall} {board : GoalBoard} {goal : ActiveGoal}
    (hasks : c.asksAbout board = some goal) (now : Int) :
    stamp c.goalId now (withStatus c.goalId c.proposed board) ≠ board := by
  obtain ⟨hfound, hbypass⟩ := asksAbout_eq_some.mp hasks
  intro hsame
  have hentries := congrArg (fun b : GoalBoard => b.active.filter (·.id = c.goalId)) hsame
  dsimp only [stamp, withStatus] at hentries
  rw [filter_updateFirst, filter_updateFirst, if_pos rfl, if_pos rfl] at hentries
  · have hhead : (board.active.filter (·.id = c.goalId)).head? = some goal := by
      rw [List.head?_filter, hfound]
    cases hown : board.active.filter (·.id = c.goalId) with
    | nil => simp [hown] at hhead
    | cons first rest =>
      rw [hown] at hentries hhead
      obtain rfl : first = goal := Option.some.inj hhead
      have hstatus : c.proposed = first.status :=
        congrArg ActiveGoal.status (List.cons.inj hentries).1
      -- a status the goal already has is no raise
      rw [ProgressCall.isBypass, Bool.or_eq_false_iff] at hbypass
      have hraise : ¬ progressToPercent c.proposed (progressToPercent first.status 0) ≤
          progressToPercent first.status 0 := of_decide_eq_false hbypass.2
      rw [← hstatus] at hraise
      have hkind := hbypass.1
      revert hkind hraise
      cases c.proposed <;> simp [progressToPercent]
  · exact fun _ => rfl
  · exact fun _ => rfl

/-- A failed update leaves the board as it was, and a retry asks the checker the same, exactly if it
is not the record of an accepted raise that failed. -/
theorem failed_update_unchanged_iff (c : ProgressCall) (board : GoalBoard) :
    (∀ e board', call (updateGoalProgressWithEvidence c) board = (.error e, board') →
        board' = board ∧ c.consultation board' = c.consultation board) ↔
      ∀ goal reason, c.asksAbout board = some goal → c.answer goal = .accept reason →
        validatePercent "progress.percent" c.proposed = .ok () →
        c.storeEpisode (c.acceptedEpisode goal reason) = .ok () := by
  constructor
  · intro h goal reason hasks hanswer hvalid
    have hcall := update_accepted hasks hanswer
    rw [hvalid] at hcall
    cases hstore : c.storeEpisode (c.acceptedEpisode goal reason) with
    | ok => rfl
    | error e =>
      rw [hstore] at hcall
      exact absurd (h e _ hcall).1 (withStatus_ne hasks c.now)
  · intro h e board' hfailed
    suffices hsame : board' = board by
      rw [hsame]
      exact ⟨rfl, rfl⟩
    cases hasks : c.asksAbout board with
    | none =>
      cases hfound : board.active.find? (·.id = c.goalId) with
      | none =>
        obtain ⟨e', hrefused⟩ := update_missing hfound
        rw [hrefused] at hfailed
        exact (Prod.mk.inj hfailed).2.symm
      | some goal =>
        have hbypass := isBypass_of_asksAbout hasks hfound
        rw [update_bypass hfound hbypass] at hfailed
        split at hfailed
        · cases hfailed
        · exact (Prod.mk.inj hfailed).2.symm
    | some goal =>
      cases hanswer : c.answer goal with
      | reject reason =>
        rw [update_rejected hasks hanswer] at hfailed
        exact (Prod.mk.inj hfailed).2.symm
      | accept reason =>
        rw [update_accepted hasks hanswer] at hfailed
        split at hfailed
        next hvalid =>
          rw [h goal reason hasks hanswer hvalid] at hfailed
          cases (Prod.mk.inj hfailed).1
        next => exact (Prod.mk.inj hfailed).2.symm

/-- A raise the checker accepts while nothing can be stored. -/
def unstorable : ProgressCall where
  goalId := "g"
  proposed := .inProgress 50
  check := fun _ _ _ _ => .accept "tests"
  searchEpisodesStartingWith := fun _ _ => .ok []
  storeEpisode := fun _ => .error (.memory "disk full")
  processStart := 0
  now := 7

theorem failed_update_raises :
    ¬ ∀ e board', call (updateGoalProgressWithEvidence unstorable) ⟨[.new "g" "" 1], []⟩ =
        (.error e, board') →
      board' = ⟨[.new "g" "" 1], []⟩ ∧
        unstorable.consultation board' = unstorable.consultation ⟨[.new "g" "" 1], []⟩ := by
  intro h
  have hsame := (h (.memory "disk full") _ rfl).1
  revert hsame
  decide

/-- The board, and for which percents a checker was asked and accepted, the latest first. -/
structure Gated where
  board : GoalBoard
  accepted : List (String × Nat)

def progressMachine : Machine Gated ProgressCall where
  step s c :=
    ⟨(call (updateGoalProgressWithEvidence c) s.board).2,
      match c.acceptedPercent s.board with
      | some percent => (c.goalId, percent) :: s.accepted
      | none => s.accepted⟩

/-- The most a goal may stand at: where it began, or the best percent accepted for it. -/
def ceiling (accepted : List (String × Nat)) (initial : ActiveGoal) : Nat :=
  ((accepted.filter (·.1 = initial.id)).map (·.2)).foldr max (pct initial.status)

def Earned (accepted : List (String × Nat)) (initial goal : ActiveGoal) : Prop :=
  goal.id = initial.id ∧ pct goal.status ≤ ceiling accepted initial

theorem ceiling_le_cons (entry : String × Nat) (accepted : List (String × Nat))
    (initial : ActiveGoal) : ceiling accepted initial ≤ ceiling (entry :: accepted) initial := by
  unfold ceiling
  by_cases hown : entry.1 = initial.id
  · rw [List.filter_cons_of_pos (by simpa using hown)]
    exact Nat.le_max_right _ _
  · rw [List.filter_cons_of_neg (by simpa using hown)]

theorem le_ceiling_cons (percent : Nat) (accepted : List (String × Nat)) (initial : ActiveGoal) :
    percent ≤ ceiling ((initial.id, percent) :: accepted) initial := by
  rw [ceiling, List.filter_cons_of_pos (by simp)]
  exact Nat.le_max_left _ _

theorem forall₂_updateFirst {R : ActiveGoal → ActiveGoal → Prop} {goalId : String}
    {f : ActiveGoal → ActiveGoal} {start goals : List ActiveGoal} (h : List.Forall₂ R start goals)
    (hf : ∀ initial goal, goals.find? (·.id = goalId) = some goal → R initial goal →
      R initial (f goal)) : List.Forall₂ R start (updateFirst goalId f goals) := by
  induction h with
  | nil => exact .nil
  | @cons initial goal start goals hfirst hrest ih =>
    rw [updateFirst]
    by_cases hgoal : goal.id = goalId
    · rw [if_pos hgoal]
      exact .cons (hf initial goal (by simp [hgoal]) hfirst) hrest
    · rw [if_neg hgoal]
      refine .cons hfirst (ih fun initial' goal' hfound => hf initial' goal' ?_)
      rw [List.find?_cons_of_neg (by simpa using hgoal)]
      exact hfound

theorem pct_le_newPercent (c : ProgressCall) (goal : ActiveGoal) :
    pct c.proposed ≤ c.newPercent goal := by
  unfold ProgressCall.newPercent
  cases c.proposed <;> simp [pct, progressToPercent]

theorem pct_le_of_isBypass {c : ProgressCall} {goal : ActiveGoal} (h : c.isBypass goal) :
    pct c.proposed ≤ pct goal.status := by
  rw [ProgressCall.isBypass, Bool.or_eq_true] at h
  rcases h with hkind | hless
  · revert hkind
    cases c.proposed <;> simp [pct]
  · rw [← progressToPercent_zero goal.status]
    exact (pct_le_newPercent c goal).trans (of_decide_eq_true hless)

theorem earned_withStatus {accepted : List (String × Nat)} {start : List ActiveGoal}
    {board : GoalBoard} {goalId : String} {progress : GoalProgress}
    (h : List.Forall₂ (Earned accepted) start board.active)
    (hprogress : ∀ initial goal, board.active.find? (·.id = goalId) = some goal →
      Earned accepted initial goal → pct progress ≤ ceiling accepted initial) :
    List.Forall₂ (Earned accepted) start (withStatus goalId progress board).active :=
  forall₂_updateFirst h fun initial goal hfound hearned =>
    ⟨hearned.1, hprogress initial goal hfound hearned⟩

theorem earned_stamp {accepted : List (String × Nat)} {start : List ActiveGoal}
    {board : GoalBoard} {goalId : String} {now : Int}
    (h : List.Forall₂ (Earned accepted) start board.active) :
    List.Forall₂ (Earned accepted) start (stamp goalId now board).active :=
  forall₂_updateFirst h fun _ _ _ hearned => hearned

theorem earned_step {start : List ActiveGoal} (s : Gated) (c : ProgressCall)
    (h : List.Forall₂ (Earned s.accepted) start s.board.active) :
    List.Forall₂ (Earned (progressMachine.step s c).accepted) start
      (progressMachine.step s c).board.active := by
  cases hasks : c.asksAbout s.board with
  | none =>
    have hnone : c.acceptedPercent s.board = none := by rw [ProgressCall.acceptedPercent, hasks]
    simp only [progressMachine, hnone]
    cases hfound : s.board.active.find? (·.id = c.goalId) with
    | none =>
      obtain ⟨e, hrefused⟩ := update_missing hfound
      rw [hrefused]
      exact h
    | some goal =>
      have hbypass := isBypass_of_asksAbout hasks hfound
      rw [update_bypass hfound hbypass]
      split
      · refine earned_withStatus h fun initial goal' hfound' hearned => ?_
        obtain rfl : goal = goal' := Option.some.inj (hfound.symm.trans hfound')
        exact (pct_le_of_isBypass hbypass).trans hearned.2
      · exact h
  | some goal =>
    cases hanswer : c.answer goal with
    | reject reason =>
      have hnone : c.acceptedPercent s.board = none := by
        rw [ProgressCall.acceptedPercent, hasks]
        simp only [hanswer]
      simp only [progressMachine, hnone]
      rw [update_rejected hasks hanswer]
      exact h
    | accept reason =>
      have hsome : c.acceptedPercent s.board = some (c.newPercent goal) := by
        rw [ProgressCall.acceptedPercent, hasks]
        simp only [hanswer]
      have hgrown : List.Forall₂ (Earned ((c.goalId, c.newPercent goal) :: s.accepted)) start
          s.board.active := h.imp fun initial goal' hearned =>
        ⟨hearned.1, hearned.2.trans (ceiling_le_cons _ _ _)⟩
      simp only [progressMachine, hsome]
      rw [update_accepted hasks hanswer]
      split
      · refine earned_stamp (earned_withStatus hgrown fun initial goal' hfound' hearned => ?_)
        -- the percent just accepted is this goal's
        have hid : goal'.id = c.goalId := by simpa using List.find?_some hfound'
        have hraise := le_ceiling_cons (c.newPercent goal) s.accepted initial
        rw [← hearned.1, hid] at hraise
        exact (pct_le_newPercent c goal).trans hraise
      · exact hgrown

theorem rejected_unchanged {c : ProgressCall} {board : GoalBoard} {reason : String}
    (h : (call (updateGoalProgressWithEvidence c) board).1 = .ok (.reject reason)) :
    (call (updateGoalProgressWithEvidence c) board).2 = board := by
  cases hasks : c.asksAbout board with
  | none =>
    cases hfound : board.active.find? (·.id = c.goalId) with
    | none =>
      obtain ⟨e, hrefused⟩ := update_missing hfound
      rw [hrefused]
    | some goal =>
      have hbypass := isBypass_of_asksAbout hasks hfound
      rw [update_bypass hfound hbypass] at h
      split at h <;> cases h
  | some goal =>
    cases hanswer : c.answer goal with
    | reject reason' => rw [update_rejected hasks hanswer]
    | accept reason' =>
      rw [update_accepted hasks hanswer] at h
      split at h
      · cases hstore : c.storeEpisode (c.acceptedEpisode goal reason') with
        | ok => rw [hstore] at h; cases h
        | error e => rw [hstore] at h; cases h
      · cases h

/-- However updates follow each other, no goal stands above where it began and what a checker
accepted for it; a rejected update leaves the board as it was. -/
theorem progress_earned (start : GoalBoard) (calls : List ProgressCall) :
    List.Forall₂ (Earned (progressMachine.run ⟨start, []⟩ calls).accepted) start.active
        (progressMachine.run ⟨start, []⟩ calls).board.active ∧
      ∀ t ∈ progressMachine.trace ⟨start, []⟩ calls, ∀ reason,
        (call (updateGoalProgressWithEvidence t.event) t.before.board).1 = .ok (.reject reason) →
        t.after.board = t.before.board := by
  constructor
  · refine progressMachine.invariant_run
      (P := fun s => List.Forall₂ (Earned s.accepted) start.active s.board.active)
        earned_step ?_ calls
    exact List.forall₂_same.mpr fun goal _ => ⟨rfl, Nat.le_refl _⟩
  · intro t ht reason hrejected
    obtain ⟨_, _, -, -, hafter⟩ := progressMachine.mem_trace ht
    rw [hafter]
    exact rejected_unchanged hrejected

def blockedReasons (children : List ActiveGoal) : List String :=
  children.filterMap fun child =>
    match child.status with
    | .blocked reason => some reason
    | _ => none

def roundedMean (sum count : Nat) : Nat := (2 * sum + count) / (2 * count)

/-- The sum is taken in 32 bits. -/
def rollupParentProgress (children : List ActiveGoal) : Option GoalProgress :=
  if children.isEmpty then none
  else
    let blocked := blockedReasons children
    if !blocked.isEmpty then
      some (.blocked (toString blocked.length ++ " child goal(s) blocked: " ++
        "; ".intercalate blocked))
    else if children.all (·.status = .completed) then some .completed
    else
      let sum := (children.map fun child => pct child.status).sum % 2 ^ 32
      some (.inProgress (roundedMean sum children.length))

def GoalProgress.isBlocked : GoalProgress → Bool
  | .blocked _ => true
  | _ => false

/-- A parent is done only if all children are, blocked exactly if one is, and otherwise between the
least and the most advanced of them. -/
structure RolledUp (children : List ActiveGoal) (status : GoalProgress) : Prop where
  terminal : status.isTerminal → ∀ child ∈ children, child.status.isTerminal
  blocked : status.isBlocked ↔ ∃ child ∈ children, child.status.isBlocked
  between : (∀ child ∈ children, ¬ child.status.isBlocked) →
    (∃ child ∈ children, pct child.status ≤ pct status) ∧
      ∃ child ∈ children, pct status ≤ pct child.status

def totalPercent (children : List ActiveGoal) : Nat :=
  (children.map fun child => pct child.status).sum

section Parents

variable {children : List ActiveGoal}

theorem blockedReasons_eq_nil :
    blockedReasons children = [] ↔ ∀ child ∈ children, ¬ child.status.isBlocked := by
  rw [blockedReasons, List.filterMap_eq_nil_iff]
  refine forall₂_congr fun child _ => ?_
  cases child.status <;> simp [GoalProgress.isBlocked]

theorem rollup_blocked (hblocked : ∃ child ∈ children, child.status.isBlocked) :
    ∃ reason, rollupParentProgress children = some (.blocked reason) := by
  obtain ⟨child, hchild, hown⟩ := hblocked
  have hsome : blockedReasons children ≠ [] := fun hnone =>
    blockedReasons_eq_nil.mp hnone child hchild hown
  rw [rollupParentProgress, if_neg (by simpa using List.ne_nil_of_mem hchild)]
  exact ⟨_, if_pos (by simpa using hsome)⟩

theorem rollup_completed (hne : children ≠ [])
    (hall : ∀ child ∈ children, child.status = .completed) :
    rollupParentProgress children = some .completed := by
  have hnone : blockedReasons children = [] := blockedReasons_eq_nil.mpr fun child hchild => by
    simp [hall child hchild, GoalProgress.isBlocked]
  rw [rollupParentProgress, if_neg (by simpa using hne)]
  dsimp only
  rw [hnone, if_neg (by decide), if_pos (by simpa using hall)]

theorem rollup_mean (hne : children ≠ []) (hnone : ∀ child ∈ children, ¬ child.status.isBlocked)
    (hopen : ¬ ∀ child ∈ children, child.status = .completed) :
    rollupParentProgress children =
      some (.inProgress (roundedMean (totalPercent children % 2 ^ 32) children.length)) := by
  rw [rollupParentProgress, if_neg (by simpa using hne)]
  dsimp only
  rw [blockedReasons_eq_nil.mpr hnone, if_neg (by decide), if_neg (by simpa using hopen)]
  rfl

theorem roundedMean_lt_iff {sum count bound : Nat} (hcount : 0 < count) :
    roundedMean sum count < bound ↔ 2 * sum + count < bound * (2 * count) :=
  Nat.div_lt_iff_lt_mul (by omega)

theorem le_roundedMean_iff {sum count bound : Nat} (hcount : 0 < count) :
    bound ≤ roundedMean sum count ↔ bound * (2 * count) ≤ 2 * sum + count :=
  Nat.le_div_iff_mul_le (by omega)

theorem exists_pct_le_mean (hne : children ≠ []) :
    ∃ child ∈ children, pct child.status ≤ roundedMean (totalPercent children) children.length := by
  by_contra hall
  push Not at hall
  have hcount : 0 < children.length := List.length_pos_iff.mpr hne
  have hsum := List.card_nsmul_le_sum (children.map fun child => pct child.status)
    (roundedMean (totalPercent children) children.length + 1) (by simpa using hall)
  rw [List.length_map, smul_eq_mul] at hsum
  have hmean := (roundedMean_lt_iff hcount).mp
    (Nat.lt_succ_self (roundedMean (totalPercent children) children.length))
  unfold totalPercent at *
  nlinarith

theorem exists_mean_le_pct (hne : children ≠ []) {sum : Nat} (hsum : sum ≤ totalPercent children) :
    ∃ child ∈ children, roundedMean sum children.length ≤ pct child.status := by
  by_contra hall
  push Not at hall
  have hcount : 0 < children.length := List.length_pos_iff.mpr hne
  obtain ⟨mean, hmean⟩ := Nat.exists_eq_succ_of_ne_zero
    (Nat.ne_of_gt (Nat.zero_lt_of_lt (hall _ (List.head_mem hne))))
  rw [hmean] at hall
  have htotal := List.sum_le_card_nsmul (children.map fun child => pct child.status) mean
    (by simpa [Nat.lt_succ_iff] using hall)
  rw [List.length_map, smul_eq_mul] at htotal
  have hless := (le_roundedMean_iff hcount).mp (Nat.le_of_eq hmean.symm)
  unfold totalPercent at hsum
  rw [Nat.succ_eq_add_one] at hless
  nlinarith

/-- Where no child is blocked and one is unfinished: the mean does not round up to a hundred unless
all are done, and does not fall below every child by losing the upper bits of the sum. -/
structure MeanFits (children : List ActiveGoal) : Prop where
  below : (∀ child ∈ children, child.status.isTerminal) ∨
    2 * (totalPercent children % 2 ^ 32) < 199 * children.length
  above : totalPercent children < 2 ^ 32 ∨ ∃ child ∈ children,
    pct child.status * (2 * children.length) ≤
      2 * (totalPercent children % 2 ^ 32) + children.length

theorem rolledUp_mean_iff (hne : children ≠ [])
    (hnone : ∀ child ∈ children, ¬ child.status.isBlocked) :
    RolledUp children
        (.inProgress (roundedMean (totalPercent children % 2 ^ 32) children.length)) ↔
      MeanFits children := by
  have hcount : 0 < children.length := List.length_pos_iff.mpr hne
  have hless := @roundedMean_lt_iff (totalPercent children % 2 ^ 32) children.length 100 hcount
  constructor
  · intro h
    constructor
    · refine or_iff_not_imp_left.mpr fun hopen => ?_
      have hmean : ¬ 100 ≤ roundedMean (totalPercent children % 2 ^ 32) children.length := by
        intro hdone
        exact hopen (h.terminal (decide_eq_true hdone))
      have hsum := hless.mp (Nat.lt_of_not_le hmean)
      omega
    · obtain ⟨child, hchild, hle⟩ := (h.between hnone).1
      exact .inr ⟨child, hchild, (le_roundedMean_iff hcount).mp hle⟩
  · intro h
    refine ⟨fun hdone => ?_, ?_, fun _ => ⟨?_, ?_⟩⟩
    · rcases h.below with hall | hsum
      · exact hall
      · have hmean := hless.mpr (by omega)
        exact absurd (of_decide_eq_true hdone) (Nat.not_le.mpr hmean)
    · constructor
      · intro hblocked
        cases hblocked
      · rintro ⟨child, hchild, hblocked⟩
        exact absurd hblocked (hnone child hchild)
    · rcases h.above with hfits | ⟨child, hchild, hle⟩
      · rw [Nat.mod_eq_of_lt hfits]
        exact exists_pct_le_mean hne
      · exact ⟨child, hchild, (le_roundedMean_iff hcount).mpr hle⟩
    · exact exists_mean_le_pct hne (Nat.mod_le _ _)

/-- What is rolled up is sound exactly if some child is blocked, all are completed, or the mean
fits. -/
theorem rolledUp_iff (hne : children ≠ []) :
    (∃ status, rollupParentProgress children = some status ∧ RolledUp children status) ↔
      (∃ child ∈ children, child.status.isBlocked) ∨
        (∀ child ∈ children, child.status = .completed) ∨ MeanFits children := by
  by_cases hblocked : ∃ child ∈ children, child.status.isBlocked
  · obtain ⟨reason, hrolled⟩ := rollup_blocked hblocked
    refine iff_of_true ⟨_, hrolled, fun hdone => ?_, iff_of_true rfl hblocked, fun hnone => ?_⟩
      (.inl hblocked)
    · cases hdone
    · obtain ⟨child, hchild, hown⟩ := hblocked
      exact absurd hown (hnone child hchild)
  · have hnone : ∀ child ∈ children, ¬ child.status.isBlocked := fun child hchild hown =>
      hblocked ⟨child, hchild, hown⟩
    rw [or_iff_right hblocked]
    by_cases hall : ∀ child ∈ children, child.status = .completed
    · refine iff_of_true ⟨_, rollup_completed hne hall, fun _ child hchild => ?_, ?_, fun _ => ?_⟩
        (.inl hall)
      · rw [hall child hchild]
        rfl
      · exact iff_of_false nofun hblocked
      · have hfirst := hall _ (List.head_mem hne)
        exact ⟨⟨_, List.head_mem hne, by rw [hfirst]⟩, ⟨_, List.head_mem hne, by rw [hfirst]⟩⟩
    · rw [or_iff_right hall, rollup_mean hne hnone hall, ← rolledUp_mean_iff hne hnone]
      simp

end Parents

def childAt (status : GoalProgress) : ActiveGoal :=
  { ActiveGoal.new "c" "" 1 with status := status }

theorem rolledUp_halfway :
    ∃ status, rollupParentProgress [childAt .completed, childAt (.inProgress 50)] = some status ∧
      RolledUp [childAt .completed, childAt (.inProgress 50)] status := by
  refine (rolledUp_iff (by simp)).mpr (.inr (.inr ⟨.inr ?_, .inl ?_⟩))
  · decide
  · decide

theorem rolledUp_early :
    (∀ child ∈ [childAt .completed, childAt (.inProgress 99)], pct child.status ≤ 100) ∧
      ¬ ∃ status, rollupParentProgress [childAt .completed, childAt (.inProgress 99)] =
        some status ∧
        RolledUp [childAt .completed, childAt (.inProgress 99)] status := by
  refine ⟨by decide, ?_⟩
  rintro ⟨status, hrolled, hsound⟩
  have hdone : rollupParentProgress [childAt .completed, childAt (.inProgress 99)] =
      some (.inProgress 100) := by decide
  obtain rfl : GoalProgress.inProgress 100 = status := Option.some.inj (hdone.symm.trans hrolled)
  have hopen := hsound.terminal rfl (childAt (.inProgress 99)) (by simp)
  cases hopen

end Simard.Goals
