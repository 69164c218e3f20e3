import Simard.Goals.BoardStore
import Simard.Goals.PullRequests
import Simard.Goals.TrackingIssues

/-! What the daemon does to the board around its cycles: assignments to sessions that
are gone are taken back, references to them are dropped, and a standing goal parked by
an older daemon is put back to work. -/
namespace Simard.Goals
open Simard.Library

def trimmed (text : String) : String := String.ofList (trim text.toList)

def deadSessionKinds : List String := ["session", "branch", "engineer"]

def isDeadSessionRef (ref : WipRef) : Bool :=
  deadSessionKinds.any (eqIgnoreAsciiCase (trimmed ref.kind) ·)

def namesLiveSession (live : Finset String) (ref : WipRef) : Bool :=
  (eqIgnoreAsciiCase (trimmed ref.kind) "session" ||
    eqIgnoreAsciiCase (trimmed ref.kind) "engineer") && trimmed ref.refId ∈ live

def sessionIsLive (live : Finset String) (goal : ActiveGoal) : Bool :=
  (goal.assignedTo.any fun session => trimmed session ∈ live) ||
    goal.wipRefs.any (namesLiveSession live)

def isStaleAssignment (live : Finset String) (goal : ActiveGoal) : Bool :=
  goal.assignedTo.any (· ∉ live)

def unassigned (live : Finset String) (goal : ActiveGoal) : ActiveGoal :=
  if isStaleAssignment live goal then { goal with assignedTo := none, status := .notStarted }
  else goal

def sweptGoal (live : Finset String) (goal : ActiveGoal) : ActiveGoal :=
  let goal := unassigned live goal
  if sessionIsLive live goal then goal
  else { goal with wipRefs := goal.wipRefs.filter (!isDeadSessionRef ·) }

theorem sweptGoal_id (live : Finset String) (goal : ActiveGoal) :
    (sweptGoal live goal).id = goal.id := by
  unfold sweptGoal unassigned
  dsimp only
  split <;> split <;> rfl

/-- Without any live session there is no telling which are gone. -/
def sweepStaleAssignmentsWithSessions (live : Finset String) (board : GoalBoard) : GoalBoard :=
  if live = ∅ then board else { board with active := board.active.map (sweptGoal live) }

def isStaleNoProgressBlock (goal : ActiveGoal) : Bool :=
  goal.isPerpetual &&
    match goal.status with
    | .blocked reason => isNoProgressMarker reason
    | _ => false

def healedGoal (goal : ActiveGoal) : ActiveGoal :=
  if isStaleNoProgressBlock goal then { goal with status := .notStarted } else goal

def healStaleNoProgressBlocks (board : GoalBoard) : GoalBoard :=
  { board with active := board.active.map healedGoal }

structure Housekeeping where
  cycle : BreakerState
  reports : List NoProgressBreakerReport

namespace Housekeeping

def board (s : Housekeeping) : GoalBoard := s.cycle.board

def withBoard (s : Housekeeping) (board : GoalBoard) : Housekeeping :=
  { s with cycle := { s.cycle with board := board } }

def passed (s : Housekeeping) (cycle : BreakerState) : Housekeeping :=
  ⟨cycle, cycle.report :: s.reports⟩

end Housekeeping

inductive HousekeepingEvent where
  | sweep (live : Finset String)
  | investigated (outcomes : List ActionOutcome) (evidence : EvidenceSource)
      (answers : Nat → Answers) (threshold : Nat)
  | reinvestigate (answers : Nat → Answers) (threshold : Nat)
  | prunePrs (repoOf : ActiveGoal → String) (openByRepo : String → Option (Nat → Bool))
  | heal
  | commit (persisted : PersistentGoalState) (cycleCount : Nat) (tombstones : Finset String)
      (pins : DoneGatePins)

def housekeeping : Machine Housekeeping HousekeepingEvent where
  step s
    | .sweep live => s.withBoard (sweepStaleAssignmentsWithSessions live s.board)
    | .investigated outcomes evidence answers threshold =>
        s.passed (applyNoProgressBreakerInvestigated s.cycle outcomes evidence answers threshold)
    | .reinvestigate answers threshold =>
        s.passed (reinvestigateBareBlockedGoals s.cycle answers threshold)
    | .prunePrs repoOf openByRepo =>
        s.withBoard (pruneMergedPrRefsScoped repoOf openByRepo s.board).1
    | .heal => s.withBoard (healStaleNoProgressBlocks s.board)
    | .commit persisted cycleCount tombstones pins =>
        s.withBoard (persisted.commit s.board s.cycle.tracker cycleCount tombstones pins).board

end Simard.Goals
