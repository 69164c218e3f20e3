import Simard.Goals.Breaker
import Simard.Goals.Coverage
import Simard.Library.Semaphore

/-! One round of goals that are advanced at the same time. Every action has a thread of its own; a
thread takes a permit, looks at its goal under the lock of the state and claims it, runs the goal's
session without a lock, and gives the permit back, also if the session panics. The caller starts the
threads and waits for them in order. -/
namespace Simard.Ooda
open Simard.Library Simard.Goals
open Simard.Goals.Coverage (PlannedAction)

def brainFailureBlockedPrefix : String := "🔒 [OODA-SAFEGUARD] OODA brain failing for "

def brainFailureBlockedSuffix : String := " consecutive cycles; needs human review"

def isBrainFailureMarker (reason : String) : Bool :=
  brainFailureBlockedPrefix.toList.isPrefixOf reason.toList &&
    containsText brainFailureBlockedSuffix.toList reason.toList

structure ActionOutcome where
  action : PlannedAction
  success : Bool
  detail : String
  deriving DecidableEq

/-- What the threads share under the lock of the state. -/
structure OodaState where
  active : List ActiveGoal
  goalFailureCounts : String → Option Nat

namespace OodaState

variable (state : OodaState)

def goal? (goalId : String) : Option ActiveGoal := state.active.find? (·.id = goalId)

/-- A goal that was blocked because the brain failed starts again. -/
def recover (goalId : String) : OodaState where
  active := updateFirst goalId (fun goal => { goal with status := .notStarted }) state.active
  goalFailureCounts := Function.update state.goalFailureCounts goalId none

end OodaState

/-- What comes of looking at a goal: an outcome, or the goal may be claimed. -/
inductive Inspection where
  | refused (success : Bool) (detail : String)
  | claimable (goal : ActiveGoal) (state : OodaState)

def inspect (state : OodaState) (goalId : String) : Inspection :=
  match state.goal? goalId with
  | none => .refused false ("goal '" ++ goalId ++ "' not found on active board")
  | some goal =>
      if goal.assignedTo.isSome then
        .refused true ("advance skipped: goal '" ++ goalId ++ "' already has a subordinate")
      else
        match goal.status with
        | .blocked reason =>
            if isBrainFailureMarker reason then .claimable goal (state.recover goalId)
            else .refused false ("goal '" ++ goalId ++ "' is blocked: " ++ reason)
        | .completed => .refused true ("goal '" ++ goalId ++ "' is already completed")
        | .proposed =>
            .refused false ("goal '" ++ goalId ++
              "' is still proposed — accept it before advancing")
        | .paused =>
            .refused false ("goal '" ++ goalId ++ "' is paused — resume it before advancing")
        | .notStarted => .claimable goal state
        | .inProgress _ => .claimable goal state

/-- What a session does to the state, each time under its lock, and its outcome, which a session
that panics does not have. -/
structure Script where
  edits : List (OodaState → OodaState)
  ending : Option ActionOutcome

/-- Where a thread stands. Behind the semaphore it reads its goal's id, waits for the lock of the
state and looks at the goal, waits for the lock of the claims and claims it, runs the session, and
gives the permit back. -/
inductive Stage where
  | unspawned
  | acquiring
  | testing
  | sleeping
  | woken
  | admitted
  | looking (goalId : String)
  | inspecting (goalId : String)
  | claiming (goalId : String) (board : List ActiveGoal) (found : ActiveGoal)
  | inserting (goalId : String) (board : List ActiveGoal) (found : ActiveGoal)
  | session (edits : List (OodaState → OodaState))
  | editing (edit : OodaState → OodaState) (rest : List (OodaState → OodaState))
  | returning (result : Option ActionOutcome)
  | releasing (result : Option ActionOutcome)
  | finished (result : Option ActionOutcome)

namespace Stage

def gate : Stage → SemaphoreGate
  | .unspawned | .finished _ => .outside
  | .acquiring => .acquiring
  | .testing => .testing
  | .sleeping => .sleeping
  | .woken => .woken
  | .returning _ => .returning
  | .releasing _ => .releasing
  | _ => .inside

def holdsState : Stage → Bool
  | .inspecting _ | .claiming .. | .inserting .. | .editing .. => true
  | _ => false

def holdsClaims : Stage → Bool
  | .inserting .. => true
  | _ => false

end Stage

/-- A session that was started: the board its goal was looked up on, the goal as it stood there, and
as it was given to the session. -/
structure StartedSession where
  thread : Nat
  goalId : String
  board : List ActiveGoal
  found : ActiveGoal
  given : ActiveGoal

/-- What a round is called with, and what its sessions will do. -/
structure RoundSetup where
  actions : List PlannedAction
  maxConcurrency : Nat
  state : OodaState
  scripts : Nat → Script

structure Round where
  spawned : Nat
  joined : Nat
  stages : Nat → Stage
  permits : Nat
  permitsLock : Option Nat
  stateLock : Option Nat
  claimsLock : Option Nat
  state : OodaState
  claims : List String
  results : Nat → Option ActionOutcome
  written : List Nat
  sessions : List StartedSession

/-- What happens next: the caller starts a thread or is done waiting for one, a thread goes on, or a
sleeper wakes without a reason. A thread that gives its permit back wakes a sleeper. -/
inductive Move where
  | spawn
  | join
  | thread (k : Nat) (notified : Option Nat)
  | wake (k : Nat)

namespace Round

def init (setup : RoundSetup) : Round where
  spawned := 0
  joined := 0
  stages := fun _ => .unspawned
  permits := max setup.maxConcurrency 1
  permitsLock := none
  stateLock := none
  claimsLock := none
  state := setup.state
  claims := []
  results := fun _ => none
  written := []
  sessions := []

variable (round : Round)

def moved (k : Nat) (stage : Stage) : Round :=
  { round with stages := Function.update round.stages k stage }

def advance (setup : RoundSetup) (k : Nat) (action : PlannedAction) (notified : Option Nat) :
    Option Round :=
  match round.stages k with
  | .unspawned | .sleeping | .finished _ => none
  | .acquiring | .woken =>
      if round.permitsLock = none then some { round.moved k .testing with permitsLock := some k }
      else none
  | .testing =>
      if round.permits = 0 then some { round.moved k .sleeping with permitsLock := none }
      else some { round.moved k .admitted with permits := round.permits - 1, permitsLock := none }
  | .admitted =>
      match action.goalId with
      | none =>
          some
            (round.moved k (.returning (some ⟨action, false, "advance-goal requires a goal_id"⟩)))
      | some goalId => some (round.moved k (.looking goalId))
  | .looking goalId =>
      if round.stateLock = none then
        some { round.moved k (.inspecting goalId) with stateLock := some k }
      else none
  | .inspecting goalId =>
      match inspect round.state goalId with
      | .refused success detail => some
          { round.moved k (.returning (some ⟨action, success, detail⟩)) with stateLock := none }
      | .claimable goal state => some
          { round.moved k (.claiming goalId round.state.active goal) with state := state }
  | .claiming goalId board found =>
      if round.claimsLock = none then
        some { round.moved k (.inserting goalId board found) with claimsLock := some k }
      else none
  | .inserting goalId board found =>
      if goalId ∈ round.claims then
        some { round.moved k (.returning (some ⟨action, true, "advance skipped: goal '" ++ goalId ++
            "' already claimed by a concurrent dispatch this round"⟩)) with
          claimsLock := none
          stateLock := none }
      else
        some { round.moved k (.session (setup.scripts k).edits) with
          claimsLock := none
          stateLock := none
          claims := round.claims ++ [goalId]
          sessions := round.sessions ++
            [⟨k, goalId, board, found, (round.state.goal? goalId).getD found⟩] }
  | .session [] => some (round.moved k (.returning (setup.scripts k).ending))
  | .session (edit :: rest) =>
      if round.stateLock = none then
        some { round.moved k (.editing edit rest) with stateLock := some k }
      else none
  | .editing edit rest => some
      { round.moved k (.session rest) with stateLock := none, state := edit round.state }
  | .returning result =>
      if round.permitsLock = none then
        some { round.moved k (.releasing result) with permitsLock := some k }
      else none
  | .releasing result =>
      match notified with
      | none =>
          if ∀ j < setup.actions.length, (round.stages j).gate ≠ .sleeping then
            some { round.moved k (.finished result) with
              permits := round.permits + 1
              permitsLock := none }
          else none
      | some j =>
          if j < setup.actions.length ∧ (round.stages j).gate = .sleeping then
            some { (round.moved k (.finished result)).moved j .woken with
              permits := round.permits + 1
              permitsLock := none }
          else none

def outcomeOf (action : PlannedAction) (result : Option ActionOutcome) : ActionOutcome :=
  result.getD ⟨action, false, "advance-goal dispatch thread panicked"⟩

def step (setup : RoundSetup) : Move → Option Round
  | .spawn =>
      if round.spawned < setup.actions.length then
        some { round.moved round.spawned .acquiring with spawned := round.spawned + 1 }
      else none
  | .join =>
      match setup.actions[round.joined]?, round.stages round.joined with
      | some action, .finished result =>
          if round.spawned = setup.actions.length then
            some { round with
              joined := round.joined + 1
              results := Function.update round.results round.joined (some (outcomeOf action result))
              written := round.written ++ [round.joined] }
          else none
      | _, _ => none
  | .thread k notified => (setup.actions[k]?).bind fun action =>
    round.advance setup k action notified
  | .wake k =>
      if k < setup.actions.length ∧ (round.stages k).gate = .sleeping then
        some (round.moved k .woken)
      else none

/-- The round after so many moves, if each of them can be made. -/
def run (setup : RoundSetup) (moves : List Move) : Option Round :=
  moves.foldlM (fun round move => round.step setup move) (init setup)

end Round

end Simard.Ooda
