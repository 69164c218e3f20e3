import Simard.Library.Text

/-! The goal board: active goals with their progress and references, the scored
backlog, and the marks that make a goal standing. -/
namespace Simard.Goals
open Simard.Library

def maxActiveGoals : Nat := 20

inductive GoalProgress where
  | proposed
  | notStarted
  | inProgress (percent : Nat)
  | blocked (reason : String)
  | paused
  | completed
  deriving DecidableEq

def GoalProgress.isTerminal : GoalProgress → Bool
  | .completed => true
  | .inProgress percent => 100 ≤ percent
  | _ => false

/-- A reference to work in progress: `pr`, `issue`, `branch`, `session` or
`engineer`, by number or name. -/
structure WipRef where
  kind : String
  refId : String
  label : String
  url : Option String
  deriving DecidableEq

structure ActiveGoal where
  id : String
  description : String
  priority : Nat
  status : GoalProgress
  assignedTo : Option String
  repo : Option String
  currentActivity : Option String
  wipRefs : List WipRef
  lastProgressUpdateAt : Option Int
  parentGoalId : Option String
  priorityExplicit : Bool
  labels : List String
  deriving DecidableEq

structure BacklogItem where
  id : String
  description : String
  source : String
  score : ℚ
  deriving DecidableEq

structure GoalBoard where
  active : List ActiveGoal
  backlog : List BacklogItem
  deriving DecidableEq

def GoalBoard.new : GoalBoard := ⟨[], []⟩

def GoalBoard.activeSlotsRemaining (board : GoalBoard) : Nat :=
  maxActiveGoals - board.active.length

def standingMarkerPrefix : String := "[standing] "

def standingSentinel : String := "[standing]"

def standingDescriptionMarkers : List String :=
  ["standing perpetual", "perpetual/standing", "standing/perpetual", "standing goal",
    "perpetual goal"]

/-- The phrase occurs where no letter or digit stands right before it. -/
def containsPhraseOnWordBoundary (phrase : List Char) : List Char → (prevIsWord : Bool) → Bool
  | [], prevIsWord => phrase.isEmpty && !prevIsWord
  | c :: rest, prevIsWord =>
      (phrase.isPrefixOf (c :: rest) && !prevIsWord) ||
        containsPhraseOnWordBoundary phrase rest c.isAlphanum

def descriptionMarksStanding (description : String) : Bool :=
  let lower := asciiLowercase description
  containsText standingSentinel.toList lower ||
    standingDescriptionMarkers.any fun phrase =>
      containsPhraseOnWordBoundary phrase.toList lower false

namespace ActiveGoal

def new (id description : String) (priority : Nat) : ActiveGoal where
  id := id
  description := description
  priority := priority
  status := .notStarted
  assignedTo := none
  repo := none
  currentActivity := none
  wipRefs := []
  lastProgressUpdateAt := none
  parentGoalId := none
  priorityExplicit := false
  labels := []

def isPerpetual (goal : ActiveGoal) : Bool := descriptionMarksStanding goal.description

/-- A finished standing goal starts over instead of ending. -/
def rollToNewCycle (goal : ActiveGoal) : ActiveGoal :=
  { goal with
    status := .notStarted
    assignedTo := none
    wipRefs := []
    currentActivity := some "standing goal — finished a unit of work; rolled to a fresh cycle" }

@[simp] theorem rollToNewCycle_id (goal : ActiveGoal) : goal.rollToNewCycle.id = goal.id := rfl

@[simp] theorem isPerpetual_rollToNewCycle (goal : ActiveGoal) :
    goal.rollToNewCycle.isPerpetual = goal.isPerpetual := rfl

end ActiveGoal

example : (ActiveGoal.new "g" "Improve understanding goals" 1).isPerpetual = false := by decide

example : (ActiveGoal.new "g" "A STANDING goal" 1).isPerpetual = true := by decide

end Simard.Goals
