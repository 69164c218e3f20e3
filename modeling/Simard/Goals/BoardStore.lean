import Simard.Goals.CompletionGate
import Simard.Goals.GoalSlug
import Simard.Goals.NoProgress
import Simard.Goals.Reconcile
import Simard.Library.Program

/-! The goal board on disk: one file for the board and its counters, changed under a
lock, and beside it the tombstones of goals that are gone and the finish lines that
operators pinned, each read and written on its own. Operators and the daemon are
programs over these files. -/
namespace Simard.Goals
open Simard.Library

def doneWhenMarker : String := "\n\nDone when: "

structure DoneGatePin where
  pr : Option String
  issue : Option String
  criteria : Option String
  deriving DecidableEq

/-- Put a reference in front of the others of its kind, or of all if there is none. -/
def upsertFirstRef (refs : List WipRef) (kind num label : String) : List WipRef :=
  let kept := refs.filter fun ref => !(eqIgnoreAsciiCase ref.kind kind && ref.refId = num)
  kept.insertIdx ((kept.findIdx? (eqIgnoreAsciiCase ·.kind kind)).getD 0) ⟨kind, num, label, none⟩

def beforeText (needle : List Char) : List Char → List Char
  | [] => []
  | c :: rest => if needle.isPrefixOf (c :: rest) then [] else c :: beforeText needle rest

namespace DoneGatePin

def anchor (pin : DoneGatePin) : String :=
  match pin.pr, pin.issue with
  | some p, some i => "PR #" ++ p ++ " is merged and issue #" ++ i ++ " is closed"
  | some p, none => "PR #" ++ p ++ " is merged"
  | none, some i => "issue #" ++ i ++ " is closed"
  | none, none => "its linked work lands"

def finishLine (pin : DoneGatePin) : String :=
  match pin.criteria with
  | some text => text ++ " (certified automatically when " ++ pin.anchor ++ ")"
  | none => "Certified automatically when " ++ pin.anchor ++ "."

/-- The goal with the pinned references in front and the pinned finish line at the end
of its description. -/
def applyTo (pin : DoneGatePin) (goal : ActiveGoal) : ActiveGoal :=
  let refs := (pin.pr.map fun pr => upsertFirstRef goal.wipRefs "pr" pr ("PR #" ++ pr)).getD
    goal.wipRefs
  let refs :=
    (pin.issue.map fun issue => upsertFirstRef refs "issue" issue ("issue #" ++ issue)).getD refs
  let base := String.ofList (beforeText doneWhenMarker.toList goal.description.toList)
  { goal with wipRefs := refs, description := base ++ doneWhenMarker ++ pin.finishLine }

end DoneGatePin

abbrev DoneGatePins := BTreeMap String DoneGatePin

def applyDoneGatePins (pins : DoneGatePins) (board : GoalBoard) : GoalBoard :=
  { board with
    active := board.active.map fun goal =>
      ((pins.get? goal.id).map fun pin => pin.applyTo goal).getD goal }

@[simp] theorem listings_applyDoneGatePins (pins : DoneGatePins) (board : GoalBoard) :
    listings (applyDoneGatePins pins board) = listings board := by
  have hid (goal : ActiveGoal) :
      (((pins.get? goal.id).map fun pin => pin.applyTo goal).getD goal).id = goal.id := by
    cases pins.get? goal.id <;> rfl
  simp [listings, activeIds, backlogIds, applyDoneGatePins, hid]

structure PersistentGoalState where
  board : GoalBoard
  noProgress : NoProgressTracker
  cycleCount : Nat

structure BoardFiles where
  state : PersistentGoalState
  tombstones : Finset String
  pins : DoneGatePins

def filterTombstoned (board : GoalBoard) (tombstones : Finset String) : GoalBoard :=
  ⟨board.active.filter (·.id ∉ tombstones), board.backlog.filter (·.id ∉ tombstones)⟩

inductive CompleteOutcome where
  | reopened
  | completed
  | absent
  deriving DecidableEq

def removeFrom (ids : List String) (board : GoalBoard) : GoalBoard :=
  ⟨board.active.filter (·.id ∉ ids), board.backlog.filter (·.id ∉ ids)⟩

def rollFirst (goalId : String) : List ActiveGoal → List ActiveGoal
  | [] => []
  | goal :: rest =>
      if goal.id = goalId then goal.rollToNewCycle :: rest else goal :: rollFirst goalId rest

def completeOn (goalId : String) (board : GoalBoard) : CompleteOutcome × GoalBoard :=
  if (board.active.find? (·.id = goalId)).any (·.isPerpetual) then
    (.reopened, { board with active := rollFirst goalId board.active })
  else
    let kept := removeFrom [goalId] board
    let before := board.active.length + board.backlog.length
    (if before ≠ kept.active.length + kept.backlog.length then .completed else .absent, kept)

def addTo (goal : ActiveGoal) (board : GoalBoard) : Except String GoalBoard :=
  if board.active.any (·.id = goal.id) then
    .error ("goal '" ++ goal.id ++ "' is already active")
  else if maxActiveGoals ≤ board.active.length then
    .error ("board is at capacity (" ++ toString maxActiveGoals ++
      "); demote or remove a goal first")
  else .ok { board with active := board.active ++ [goal] }

/-- The daemon's cycle over what is stored: operators' edits stay, tombstoned goals go,
pins are put back on, and the cycle number never falls. -/
def PersistentGoalState.commit (state : PersistentGoalState) (inFlight : GoalBoard)
    (tracker : NoProgressTracker) (cycleCount : Nat) (tombstones : Finset String)
    (pins : DoneGatePins) : PersistentGoalState where
  board := applyDoneGatePins pins (reconcile state.board inFlight tombstones)
  noProgress := tracker
  cycleCount := max state.cycleCount cycleCount

/-- One locked change of the store, or one read or write of a file beside it. -/
inductive StoreCmd where
  | addGoal (goal : ActiveGoal)
  | removeGoals (ids : List String)
  | completeGoal (goalId : String)
  | commitBoard (inFlight : GoalBoard) (tracker : NoProgressTracker) (cycleCount : Nat)
      (tombstones : Finset String) (pins : DoneGatePins)
  | loadTombstones
  | saveTombstones (tombstones : Finset String)
  | loadDoneGatePins
  | saveDoneGatePins (pins : DoneGatePins)

abbrev StoreAns : StoreCmd → Type
  | .addGoal _ => Except String Unit
  | .removeGoals _ => Unit
  | .completeGoal _ => CompleteOutcome
  | .commitBoard .. => GoalBoard
  | .loadTombstones => Finset String
  | .saveTombstones _ => Unit
  | .loadDoneGatePins => DoneGatePins
  | .saveDoneGatePins _ => Unit

namespace BoardFiles

def withBoard (files : BoardFiles) (board : GoalBoard) : BoardFiles :=
  { files with state := { files.state with board := board } }

def answer (files : BoardFiles) : (cmd : StoreCmd) → StoreAns cmd × BoardFiles
  | .addGoal goal =>
      match addTo goal files.state.board with
      | .ok board => (.ok (), files.withBoard board)
      | .error message => (.error message, files)
  | .removeGoals ids => ((), files.withBoard (removeFrom ids files.state.board))
  | .completeGoal goalId =>
      let (outcome, board) := completeOn goalId files.state.board
      (outcome, files.withBoard board)
  | .commitBoard inFlight tracker cycleCount tombstones pins =>
      let state := files.state.commit inFlight tracker cycleCount tombstones pins
      (state.board, { files with state := state })
  | .loadTombstones => (files.tombstones, files)
  | .saveTombstones tombstones => ((), { files with tombstones := tombstones })
  | .loadDoneGatePins => (files.pins, files)
  | .saveDoneGatePins pins => ((), { files with pins := pins })

end BoardFiles

abbrev StoreProgram := Program StoreCmd StoreAns

def ask (cmd : StoreCmd) : StoreProgram (StoreAns cmd) := .perform cmd

def tombstoneGoals (ids : List String) : StoreProgram Unit := do
  let tombstones ← ask .loadTombstones
  ask (.saveTombstones (tombstones ∪ ids.toFinset))

def clearDoneGatePins (ids : List String) : StoreProgram Unit :=
  if ids.isEmpty then pure ()
  else do
    let pins ← ask .loadDoneGatePins
    let kept := pins.retain (· ∉ ids)
    if kept.entries.length ≠ pins.entries.length then ask (.saveDoneGatePins kept)
    else pure ()

/-- What of this cycle is to be tombstoned, first; then the board, over what is stored
by now and without what is tombstoned by now. -/
def commitCycle (inFlight : GoalBoard) (tracker : NoProgressTracker) (cycleCount : Nat)
    (newTombstones : List String) : StoreProgram GoalBoard := do
  if newTombstones.isEmpty then pure ()
  else do
    tombstoneGoals newTombstones
    clearDoneGatePins newTombstones
  let tombstones ← ask .loadTombstones
  let pins ← ask .loadDoneGatePins
  ask (.commitBoard inFlight tracker cycleCount tombstones pins)

def sourceOperator : String := "source:operator"

def maxRepoSlugLen : Nat := 64

def validateCheckoutSlug (slug : String) : Except String Unit :=
  match checkName "repo slug" maxRepoSlugLen slug with
  | .ok () => .ok ()
  | .error help => .error ("invalid value for configuration 'goal.repo': " ++ help)

def requestedGoal (priorityText description : String) (repo : Option String) (standing : Bool) :
    Except String ActiveGoal := do
  let priority ←
    match parseUnsigned 32 priorityText.toList with
    | none => throw ("invalid priority '" ++ priorityText ++ "': must be 1-7")
    | some priority =>
        if priority = 0 || 7 < priority then
          throw ("priority must be 1-7, got " ++ toString priority)
        else pure priority
  match repo with
  | some slug => validateCheckoutSlug slug
  | none => pure ()
  return { ActiveGoal.new (goalSlug description)
      (if standing then standingMarkerPrefix ++ description else description) priority with
    repo := repo
    labels := [sourceOperator] }

/-- A finished call, with what it was asked and what it returned. -/
inductive StoreReply where
  | added (goal : ActiveGoal)
  | removed (ids : List String)
  | completed (goalId : String) (outcome : CompleteOutcome)
  | committed (newTombstones : List String) (board : GoalBoard)
  | refused (message : String)
  deriving DecidableEq

def handleAdd (priorityText description : String) (repo : Option String) (standing : Bool) :
    StoreProgram StoreReply :=
  match requestedGoal priorityText description repo standing with
  | .error message => pure (.refused message)
  | .ok goal => do
      let added ← ask (.addGoal goal)
      match added with
      | .error message => return .refused message
      | .ok () => return .added goal

def handleRemove (ids : List String) : StoreProgram StoreReply :=
  if ids.isEmpty then
    pure (.refused "usage: simard goal remove <id> [<id>...]; at least one id is required")
  else do
    ask (.removeGoals ids)
    tombstoneGoals ids
    return .removed ids

def handleComplete (goalId : String) : StoreProgram StoreReply := do
  let outcome ← ask (.completeGoal goalId)
  match outcome with
  | .reopened => pure ()
  | .completed => tombstoneGoals [goalId]
  | .absent => tombstoneGoals [goalId]
  return .completed goalId outcome

inductive StoreJob where
  | add (priorityText description : String) (repo : Option String) (standing : Bool)
  | remove (ids : List String)
  | complete (goalId : String)
  | commit (inFlight : GoalBoard) (tracker : NoProgressTracker) (cycleCount : Nat)
      (newTombstones : List String)

def StoreJob.program : StoreJob → StoreProgram StoreReply
  | .add priorityText description repo standing =>
      handleAdd priorityText description repo standing
  | .remove ids => handleRemove ids
  | .complete goalId => handleComplete goalId
  | .commit inFlight tracker cycleCount newTombstones => do
      let board ← commitCycle inFlight tracker cycleCount newTombstones
      return .committed newTombstones board

def StoreReply.tombstoned : StoreReply → List String
  | .added _ => []
  | .removed ids => ids
  | .completed _ .reopened => []
  | .completed goalId _ => [goalId]
  | .committed newTombstones _ => newTombstones
  | .refused _ => []

end Simard.Goals
