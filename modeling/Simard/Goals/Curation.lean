import Simard.Engineers.Worktrees
import Simard.Goals.BoardStore
import Simard.Goals.Breaker
import Simard.Library.Action
import Simard.Library.Store

/-! Curation of the goal board: how goals come onto it, move between the active list and
the backlog, are split into children, and leave. Every operation changes the board in
place and may refuse. -/
namespace Simard.Goals
open Simard.Library Action

inductive SimardError where
  | invalidGoalRecord (field reason : String)
  | memory (reason : String)
  deriving DecidableEq

abbrev BoardAction := Action GoalBoard SimardError

def invalid (field reason : String) : Except SimardError Unit :=
  .error (.invalidGoalRecord field reason)

def requiredField (field value : String) : Except SimardError Unit :=
  if trim value.toList = [] then invalid field "value cannot be empty" else .ok ()

def validatePriority (field : String) (priority : Nat) : Except SimardError Unit :=
  if priority = 0 then invalid field "priority must be at least 1" else .ok ()

def validatePercent (field : String) : GoalProgress → Except SimardError Unit
  | .inProgress percent =>
      if 100 < percent then invalid field "progress percent cannot exceed 100" else .ok ()
  | _ => .ok ()

def validateActiveGoal (goal : ActiveGoal) : Except SimardError Unit := do
  requiredField "active_goal.id" goal.id
  requiredField "active_goal.description" goal.description
  validatePriority "active_goal.priority" goal.priority
  validatePercent "active_goal.status" goal.status

def validateBacklogItem (item : BacklogItem) : Except SimardError Unit := do
  requiredField "backlog_item.id" item.id
  requiredField "backlog_item.description" item.description
  requiredField "backlog_item.source" item.source

def requireSlot (action : String) (board : GoalBoard) : Except SimardError Unit :=
  if maxActiveGoals ≤ board.active.length then
    invalid "active" (action ++ " — board is at capacity (" ++ toString maxActiveGoals ++ ")")
  else .ok ()

def sourceOoda : String := "source:ooda"

def sourceOverseer : String := "source:overseer"

def sourceMeeting : String := "source:meeting"

def sourceSeed : String := "source:seed"

def sourceDecomposition : String := "source:decomposition"

def addLabel (labels : List String) (raw : String) : List String :=
  let tag := trim raw.toList
  if tag = [] || String.ofList tag ∈ labels then labels else labels ++ [String.ofList tag]

def sourceForBacklog (source : String) : String :=
  if "operator:".toList.isPrefixOf source.toList then sourceOperator
  else if "meeting:".toList.isPrefixOf source.toList then sourceMeeting
  else if "overseer:".toList.isPrefixOf source.toList then sourceOverseer
  else sourceOoda

def addActiveGoal (goal : ActiveGoal) : BoardAction Unit := do
  check (validateActiveGoal goal)
  let board ← get
  check (requireSlot "cannot add active goal" board)
  check (if goal.id ∈ activeIds board then
      invalid "active_goal.id" ("goal '" ++ goal.id ++ "' is already active")
    else .ok ())
  set { board with active := board.active ++ [goal] }

def addBacklogItem (item : BacklogItem) : BoardAction Unit := do
  check (validateBacklogItem item)
  let board ← get
  check (if item.id ∈ backlogIds board then
      invalid "backlog_item.id" ("backlog item '" ++ item.id ++ "' already exists")
    else .ok ())
  set { board with backlog := board.backlog ++ [item] }

def promotedGoal (priority : Nat) (assignedTo : Option String) (item : BacklogItem) : ActiveGoal :=
  { ActiveGoal.new item.id item.description priority with
    assignedTo := assignedTo
    labels := [sourceForBacklog item.source] }

def findItem (backlogId : String) (board : GoalBoard) : Except SimardError (Nat × BacklogItem) :=
  match board.backlog.zipIdx.find? (·.1.id = backlogId) with
  | some (item, position) => .ok (position, item)
  | none => .error
      (.invalidGoalRecord "backlog_id" ("backlog item '" ++ backlogId ++ "' not found"))

def promoteToActive (backlogId : String) (priority : Nat) (assignedTo : Option String) :
    BoardAction Unit := do
  check (validatePriority "priority" priority)
  let board ← get
  check (requireSlot "cannot promote" board)
  let (position, item) ← check (findItem backlogId board)
  check (validateActiveGoal (promotedGoal priority assignedTo item))
  set (⟨board.active ++ [promotedGoal priority assignedTo item],
    board.backlog.eraseIdx position⟩ : GoalBoard)

/-- Best scores first, otherwise in the order they stood. -/
def sortBacklog (board : GoalBoard) : GoalBoard :=
  { board with backlog := board.backlog.mergeSort fun a b => b.score ≤ a.score }

/-- Promote the first item again and again; every promotion takes one away. -/
def promoteLoop : (fuel : Nat) → GoalBoard → GoalBoard
  | 0, board => board
  | fuel + 1, board =>
      match board.backlog with
      | [] => board
      | item :: _ =>
          if 0 < board.activeSlotsRemaining then
            match call (promoteToActive item.id 3 none) board with
            | (.ok (), promoted) => promoteLoop fuel promoted
            | (.error _, board) => board
          else board

def promoteFromBacklog (board : GoalBoard) : GoalBoard :=
  promoteLoop board.backlog.length (sortBacklog board)

def updateGoalProgress (goalId : String) (progress : GoalProgress) : BoardAction Unit := do
  check (validatePercent "progress.percent" progress)
  let board ← get
  check (if goalId ∈ activeIds board then .ok ()
    else invalid "goal_id" ("active goal '" ++ goalId ++ "' not found"))
  set { board with
    active := updateFirst goalId (fun goal => { goal with status := progress }) board.active }

structure SubGoalProposal where
  description : String
  doneCriterion : String
  dependsOn : List Nat
  deriving DecidableEq

abbrev PrioritizationSignals := List (String × List String)

def nanosPerWeek : Int := 7 * 86400 * 1000000000

def maxStalenessBonus : Int := 2

def signalScore (goal : ActiveGoal) (dependents : Nat) (hasUnmetDeps : Bool) (now : Int) : Int :=
  3 * dependents + (if hasUnmetDeps then 1 else 0) + (if goal.wipRefs.isEmpty then 0 else 1) +
    (match goal.status with
      | .blocked _ | .inProgress _ => 2
      | .paused => -1
      | .completed => -3
      | .notStarted | .proposed => 0) +
    (if goal.isPerpetual then -2 else 0) +
    (match goal.lastProgressUpdateAt with
      | some last => min (max (now - last) 0 / nanosPerWeek) maxStalenessBonus
      | none => 0)

def scoreToPriority (score : Int) : Nat :=
  if 6 ≤ score then 1 else if 3 ≤ score then 2 else if 0 ≤ score then 3
  else if -2 ≤ score then 4 else 5

/-- New priorities from the signals, but for those an operator chose. -/
def prioritize (goals : List ActiveGoal) (signals : PrioritizationSignals) (now : Int) :
    List ActiveGoal :=
  goals.map fun goal =>
    if goal.priorityExplicit then goal
    else
      let dependents := (signals.flatMap (·.2)).count goal.id
      { goal with
        priority := scoreToPriority
          (signalScore goal dependents (signals.any (·.1 = goal.id)) now) }

def blockers (childIds : List String) (childId : String) (proposal : SubGoalProposal) :
    List String :=
  (proposal.dependsOn.filterMap (childIds[·]?)).filter (· ≠ childId)

def siblingDependencySignals (children : List (String × SubGoalProposal)) :
    PrioritizationSignals :=
  children.filterMap fun child =>
    let waitsFor := blockers (children.map (·.1)) child.1 child.2
    if waitsFor.isEmpty then none else some (child.1, waitsFor)

inductive GoalEdgeType where
  | decomposesInto
  | dependsOn
  deriving DecidableEq

/-- What is written into the goal graph. -/
inductive GraphWrite where
  | node (id description : String) (doneCriterion : Option String) (labels : List String)
  | edge (source target : String) (type : GoalEdgeType)
  deriving DecidableEq

def validGoalId (field id : String) : Except SimardError Unit :=
  match Engineers.validateGoalId id with
  | .ok () => .ok ()
  | .error reason => invalid field reason

def writeGraph (store : GraphWrite → Except SimardError Unit) : GraphWrite → Except SimardError Unit
  | .node id description doneCriterion labels => store (.node id description doneCriterion labels)
  | .edge source target type => do
      validGoalId "goal_edge.from" source
      validGoalId "goal_edge.to" target
      if source = target then
        invalid "goal_edge" ("self-edge is not allowed: " ++ source ++ " -> " ++ target)
      else store (.edge source target type)

def minSubgoals : Nat := 2

def maxSubgoals : Nat := 6

def childId (goalId : String) (n : Nat) : String := goalId ++ "-c" ++ toString (n + 1)

def childWrites (parent : ActiveGoal) (labels childIds : List String)
    (child : String × SubGoalProposal) : List GraphWrite :=
  [.node child.1 child.2.description (some child.2.doneCriterion) labels,
    .edge parent.id child.1 .decomposesInto] ++
    (blockers childIds child.1 child.2).map fun other => .edge child.1 other .dependsOn

inductive ChildPlacement where
  | board
  | backlog
  deriving DecidableEq

structure DecomposeOutcome where
  parentId : String
  childIds : List String
  placement : ChildPlacement
  deriving DecidableEq

/-- The children of a goal, as the board or the backlog takes them in. -/
structure Decomposition where
  parent : ActiveGoal
  children : List (String × SubGoalProposal)
  labels : List String

namespace Decomposition

def childIds (split : Decomposition) : List String := split.children.map (·.1)

def placement (split : Decomposition) (board : GoalBoard) : ChildPlacement :=
  if board.active.length - 1 + split.children.length ≤ maxActiveGoals then .board else .backlog

def goals (split : Decomposition) (now : Int) : List ActiveGoal :=
  prioritize
    (split.children.map fun child =>
      { ActiveGoal.new child.1 child.2.description split.parent.priority with
        repo := split.parent.repo
        parentGoalId := some split.parent.id
        labels := split.labels })
    (siblingDependencySignals split.children) now

def items (split : Decomposition) : List BacklogItem :=
  split.children.map fun child =>
    ⟨child.1, child.2.description, "decompose:" ++ split.parent.id, split.parent.priority⟩

/-- The children in place of their parent, which goes to the backlog; or, where they do
not all fit, the children in the backlog and the parent where it was. -/
def place (split : Decomposition) (now : Int) (board : GoalBoard) : GoalBoard :=
  match split.placement board with
  | .board =>
      ⟨board.active.filter (·.id ≠ split.parent.id) ++ split.goals now,
        board.backlog ++ [⟨split.parent.id, split.parent.description, "decompose-parent", 0⟩]⟩
  | .backlog => { board with backlog := board.backlog ++ split.items }

end Decomposition

abbrev GoalDecomposer := ActiveGoal → Nat → Except SimardError (List SubGoalProposal)

/-- What a goal splits into, with everything checked that can be before the graph is
written. -/
def proposeChildren (decomposer : GoalDecomposer) (goalId : String) (maxChildren : Nat)
    (board : GoalBoard) : Except SimardError Decomposition := do
  let parent ←
    match board.active.find? (·.id = goalId) with
    | some parent => pure parent
    | none => throw (.invalidGoalRecord "goal_id"
        ("goal '" ++ goalId ++ "' is not on the active board; cannot decompose"))
  let effectiveMax := min (max maxChildren minSubgoals) maxSubgoals
  let proposals := (← decomposer parent effectiveMax).take effectiveMax
  if proposals.length < minSubgoals then
    throw (.invalidGoalRecord "sub_goals" ("decomposition of '" ++ goalId ++ "' produced " ++
      toString proposals.length ++ " sub-goal(s); a real decomposition needs at least " ++
      toString minSubgoals))
  let children := proposals.zipIdx.map fun proposal => (childId goalId proposal.2, proposal.1)
  validGoalId "goal_id" goalId
  children.forM fun child => validGoalId "child_goal_id" child.1
  return ⟨parent, children, addLabel parent.labels sourceDecomposition⟩

def graphWrites (split : Decomposition) : List GraphWrite :=
  .node split.parent.id split.parent.description none split.parent.labels ::
    split.children.flatMap (childWrites split.parent split.labels split.childIds)

def decomposeGoal (store : GraphWrite → Except SimardError Unit) (goalId : String)
    (decomposer : GoalDecomposer) (maxChildren : Nat) (now : Int) :
    BoardAction DecomposeOutcome := do
  let board ← get
  let split ← check (proposeChildren decomposer goalId maxChildren board)
  check ((graphWrites split).forM (writeGraph store))
  set (split.place now board)
  return ⟨goalId, split.childIds, split.placement board⟩

/-- A seed says whether its goal is standing, and whether that was declared or is only the
default. -/
structure SeedGoal where
  priority : Nat
  title : String
  description : String
  repo : Option String
  standing : Bool
  standingExplicit : Bool
  deriving DecidableEq

def ActiveGoal.markStanding (goal : ActiveGoal) : ActiveGoal :=
  if goal.isPerpetual then goal
  else { goal with description := standingMarkerPrefix ++ goal.description }

def seededGoal (seed : SeedGoal) : ActiveGoal :=
  let goal := { ActiveGoal.new (goalSlug seed.title) seed.description seed.priority with
    repo := seed.repo
    labels := [sourceSeed] }
  if seed.standing then goal.markStanding else goal

/-- Fill a board without active goals; the number of goals added comes with it. -/
def seedBoardFromSeedGoals (seeds : List SeedGoal) (board : GoalBoard) : Nat × GoalBoard :=
  if board.active.isEmpty then
    (seeds.length, { board with active := board.active ++ seeds.map seededGoal })
  else (0, board)

def handleDemote (goalId : String) : Action GoalBoard String Unit := do
  let board ← get
  let (goal, position) ← check
    (match board.active.zipIdx.find? (·.1.id = goalId) with
    | some found => .ok found
    | none => .error ("goal '" ++ goalId ++ "' not found on active board"))
  set (⟨board.active.eraseIdx position,
    board.backlog ++ [⟨goal.id, goal.description, "operator:demote", 1 / 2⟩]⟩ : GoalBoard)

def Does {ε α : Type} (action : Action GoalBoard ε α) (board : GoalBoard) (a : α)
    (board' : GoalBoard) : Prop :=
  call action board = (.ok a, board')

def Refuses {ε α : Type} (action : Action GoalBoard ε α) (board : GoalBoard) : Prop :=
  ∃ e, call action board = (.error e, board)

theorem requireSlot_ok {action : String} {board : GoalBoard} :
    requireSlot action board = .ok () ↔ board.active.length < maxActiveGoals := by
  unfold requireSlot invalid
  split <;> simp_all

section Calls

variable {board : GoalBoard}

theorem addActiveGoal_call (goal : ActiveGoal) :
    Refuses (addActiveGoal goal) board ∧
        (validateActiveGoal goal = .ok () → board.active.length < maxActiveGoals →
          goal.id ∈ activeIds board) ∨
      Does (addActiveGoal goal) board () { board with active := board.active ++ [goal] } ∧
        validateActiveGoal goal = .ok () ∧ board.active.length < maxActiveGoals ∧
        goal.id ∉ activeIds board := by
  unfold Refuses Does addActiveGoal
  cases hvalid : validateActiveGoal goal with
  | error e => exact .inl ⟨⟨e, rfl⟩, nofun⟩
  | ok =>
    cases hslot : requireSlot "cannot add active goal" board with
    | error e =>
      refine .inl ⟨⟨e, ?_⟩, fun _ hroom => ?_⟩
      · rw [call_check_ok, call_get_bind, hslot, call_check_error]
      · rw [requireSlot_ok.mpr hroom] at hslot
        cases hslot
    | ok =>
      rw [call_check_ok, call_get_bind, hslot, call_check_ok]
      split
      next hactive => exact .inl ⟨⟨_, rfl⟩, fun _ _ => hactive⟩
      next hnew => exact .inr ⟨rfl, rfl, requireSlot_ok.mp hslot, hnew⟩

theorem addBacklogItem_call (item : BacklogItem) :
    Refuses (addBacklogItem item) board ∧
        (validateBacklogItem item = .ok () → item.id ∈ backlogIds board) ∨
      Does (addBacklogItem item) board () { board with backlog := board.backlog ++ [item] } ∧
        validateBacklogItem item = .ok () ∧ item.id ∉ backlogIds board := by
  unfold Refuses Does addBacklogItem
  cases hvalid : validateBacklogItem item with
  | error e => exact .inl ⟨⟨e, rfl⟩, nofun⟩
  | ok =>
    rw [call_check_ok, call_get_bind]
    split
    next hlisted => exact .inl ⟨⟨_, rfl⟩, fun _ => hlisted⟩
    next hnew => exact .inr ⟨rfl, rfl, hnew⟩

theorem findItem_ok {backlogId : String} {position : Nat} {item : BacklogItem}
    (h : findItem backlogId board = .ok (position, item)) :
    board.backlog[position]? = some item ∧ item.id = backlogId := by
  unfold findItem at h
  split at h
  next found hfound =>
    cases h
    have hmem := List.mem_of_find?_eq_some hfound
    exact ⟨List.mk_mem_zipIdx_iff_getElem?.mp hmem, by simpa using List.find?_some hfound⟩
  next => cases h

theorem validatePriority_of_valid {goal : ActiveGoal} (h : validateActiveGoal goal = .ok ()) :
    goal.priority ≠ 0 := by
  unfold validateActiveGoal at h
  obtain ⟨_, -, h⟩ := bind_eq_ok.mp h
  obtain ⟨_, -, h⟩ := bind_eq_ok.mp h
  obtain ⟨_, hpriority, -⟩ := bind_eq_ok.mp h
  intro hzero
  rw [validatePriority, if_pos hzero] at hpriority
  cases hpriority

theorem promoteToActive_call (backlogId : String) (priority : Nat) (assignedTo : Option String) :
    Refuses (promoteToActive backlogId priority assignedTo) board ∧
        (∀ position item, board.active.length < maxActiveGoals →
          findItem backlogId board = .ok (position, item) →
          validateActiveGoal (promotedGoal priority assignedTo item) ≠ .ok ()) ∨
      ∃ position item, findItem backlogId board = .ok (position, item) ∧
        board.active.length < maxActiveGoals ∧
        validateActiveGoal (promotedGoal priority assignedTo item) = .ok () ∧
        Does (promoteToActive backlogId priority assignedTo) board ()
          ⟨board.active ++ [promotedGoal priority assignedTo item],
            board.backlog.eraseIdx position⟩ := by
  unfold Refuses Does promoteToActive
  cases hpriority : validatePriority "priority" priority with
  | error e =>
    refine .inl ⟨⟨e, rfl⟩, fun position item _ _ hvalid => ?_⟩
    have hpositive : priority ≠ 0 := validatePriority_of_valid hvalid
    rw [validatePriority, if_neg hpositive] at hpriority
    cases hpriority
  | ok =>
    rw [call_check_ok, call_get_bind]
    cases hslot : requireSlot "cannot promote" board with
    | error e =>
      refine .inl ⟨⟨e, rfl⟩, fun _ _ hroom => ?_⟩
      rw [requireSlot_ok.mpr hroom] at hslot
      cases hslot
    | ok =>
      rw [call_check_ok]
      cases hfound : findItem backlogId board with
      | error e => exact .inl ⟨⟨e, rfl⟩, nofun⟩
      | ok found =>
        obtain ⟨position, item⟩ := found
        rw [call_check_ok]
        cases hvalid : validateActiveGoal (promotedGoal priority assignedTo item) with
        | error e =>
          refine .inl ⟨⟨e, ?_⟩, ?_⟩
          · dsimp only
            rw [hvalid, call_check_error]
          · rintro _ _ - ⟨⟩ hok
            rw [hvalid] at hok
            cases hok
        | ok =>
          refine .inr ⟨position, item, rfl, requireSlot_ok.mp hslot, hvalid, ?_⟩
          dsimp only
          rw [hvalid, call_check_ok]
          rfl

theorem updateGoalProgress_call (goalId : String) (progress : GoalProgress) :
    Refuses (updateGoalProgress goalId progress) board ∨
      Does (updateGoalProgress goalId progress) board ()
        { board with
          active := updateFirst goalId (fun goal => { goal with status := progress })
            board.active } := by
  unfold Refuses Does updateGoalProgress
  cases validatePercent "progress.percent" progress with
  | error e => exact .inl ⟨e, rfl⟩
  | ok =>
    rw [call_check_ok, call_get_bind]
    split
    · exact .inr rfl
    · exact .inl ⟨_, rfl⟩

theorem decomposeGoal_call (store : GraphWrite → Except SimardError Unit) (goalId : String)
    (decomposer : GoalDecomposer) (maxChildren : Nat) (now : Int) :
    Refuses (decomposeGoal store goalId decomposer maxChildren now) board ∧
        (∀ split, proposeChildren decomposer goalId maxChildren board = .ok split →
          (graphWrites split).forM (writeGraph store) ≠ .ok ()) ∨
      ∃ split, proposeChildren decomposer goalId maxChildren board = .ok split ∧
        (graphWrites split).forM (writeGraph store) = .ok () ∧
        Does (decomposeGoal store goalId decomposer maxChildren now) board
          ⟨goalId, split.childIds, split.placement board⟩ (split.place now board) := by
  unfold Refuses Does decomposeGoal
  rw [call_get_bind]
  cases hsplit : proposeChildren decomposer goalId maxChildren board with
  | error e => exact .inl ⟨⟨e, rfl⟩, fun _ hsplit => by cases hsplit⟩
  | ok split =>
    rw [call_check_ok]
    cases hwrites : (graphWrites split).forM (writeGraph store) with
    | error e =>
      refine .inl ⟨⟨e, rfl⟩, ?_⟩
      rintro _ ⟨⟩ hwritten
      rw [hwrites] at hwritten
      cases hwritten
    | ok => exact .inr ⟨split, rfl, hwrites, rfl⟩

theorem handleDemote_call (goalId : String) :
    Refuses (handleDemote goalId) board ∨
      ∃ position goal, board.active[position]? = some goal ∧ goal.id = goalId ∧
        Does (handleDemote goalId) board ()
          ⟨board.active.eraseIdx position,
            board.backlog ++ [⟨goal.id, goal.description, "operator:demote", 1 / 2⟩]⟩ := by
  unfold Refuses Does handleDemote
  rw [call_get_bind]
  split
  next found hfound =>
    have hmem := List.mem_of_find?_eq_some hfound
    refine .inr ⟨found.2, found.1, List.mk_mem_zipIdx_iff_getElem?.mp hmem, ?_, rfl⟩
    simpa using List.find?_some hfound
  next => exact .inl ⟨_, rfl⟩

def isPromotable (item : BacklogItem) : Bool :=
  validateActiveGoal (promotedGoal 3 none item) = .ok ()

def promotable (board : GoalBoard) : List BacklogItem :=
  (board.backlog.takeWhile isPromotable).take board.activeSlotsRemaining

theorem promote_first {item : BacklogItem} {rest : List BacklogItem}
    (hbacklog : board.backlog = item :: rest) (hslot : 0 < board.activeSlotsRemaining) :
    if isPromotable item then
      Does (promoteToActive item.id 3 none) board ()
        ⟨board.active ++ [promotedGoal 3 none item], rest⟩
    else Refuses (promoteToActive item.id 3 none) board := by
  have hfound : findItem item.id board = .ok (0, item) := by
    simp [findItem, hbacklog, List.zipIdx_cons]
  have hroom : requireSlot "cannot promote" board = .ok () := by
    apply requireSlot_ok.mpr
    unfold GoalBoard.activeSlotsRemaining at hslot
    omega
  have hcall : call (promoteToActive item.id 3 none) board =
      call (check (validateActiveGoal (promotedGoal 3 none item)) >>= fun _ =>
        (set (⟨board.active ++ [promotedGoal 3 none item], board.backlog.eraseIdx 0⟩ :
          GoalBoard) : BoardAction Unit)) board := by
    unfold promoteToActive
    have hpriority : validatePriority "priority" 3 = .ok () := rfl
    rw [hpriority, call_check_ok, call_get_bind, hroom, call_check_ok, hfound, call_check_ok]
  unfold isPromotable Does Refuses
  rw [hcall, hbacklog]
  cases hvalid : validateActiveGoal (promotedGoal 3 none item) with
  | error e => exact ⟨e, rfl⟩
  | ok => exact rfl

theorem promoteLoop_eq (fuel : Nat) (hfuel : board.backlog.length ≤ fuel) :
    promoteLoop fuel board =
      ⟨board.active ++ (promotable board).map (promotedGoal 3 none),
        board.backlog.drop (promotable board).length⟩ := by
  induction fuel generalizing board with
  | zero =>
    have hnone : board.backlog = [] := List.eq_nil_of_length_eq_zero (Nat.le_zero.mp hfuel)
    obtain ⟨active, backlog⟩ := board
    cases hnone
    simp [promoteLoop, promotable]
  | succ fuel ih =>
    cases hbacklog : board.backlog with
    | nil =>
      obtain ⟨active, backlog⟩ := board
      cases hbacklog
      simp [promoteLoop, promotable]
    | cons item rest =>
      have hself : (⟨board.active, item :: rest⟩ : GoalBoard) = board := by rw [← hbacklog]
      rw [promoteLoop, hbacklog]
      dsimp only
      split
      next hslot =>
        have hfirst := promote_first hbacklog hslot
        split at hfirst
        next hvalid =>
          rw [hfirst]
          have hnext : promotable board = item ::
              promotable ⟨board.active ++ [promotedGoal 3 none item], rest⟩ := by
            obtain ⟨slots, hslots⟩ := Nat.exists_eq_succ_of_ne_zero (Nat.ne_of_gt hslot)
            have hless : GoalBoard.activeSlotsRemaining
                ⟨board.active ++ [promotedGoal 3 none item], rest⟩ = slots := by
              unfold GoalBoard.activeSlotsRemaining at hslots ⊢
              rw [List.length_append, List.length_singleton]
              omega
            rw [promotable, promotable, hbacklog, hless, hslots,
              List.takeWhile_cons_of_pos hvalid, List.take_succ_cons]
          rw [hbacklog, List.length_cons] at hfuel
          dsimp only
          rw [ih (Nat.le_of_succ_le_succ hfuel), hnext]
          simp
        next hinvalid =>
          obtain ⟨e, hrefused⟩ := hfirst
          have hnone : promotable board = [] := by
            rw [promotable, hbacklog, List.takeWhile_cons_of_neg hinvalid, List.take_nil]
          rw [hrefused, hnone]
          simp [hself]
      next hfull =>
        have hnone : promotable board = [] := by
          rw [promotable, Nat.eq_zero_of_not_pos hfull, List.take_zero]
        rw [hnone]
        simp [hself]

theorem promoteFromBacklog_eq (board : GoalBoard) :
    promoteFromBacklog board =
      ⟨board.active ++ (promotable (sortBacklog board)).map (promotedGoal 3 none),
        (sortBacklog board).backlog.drop (promotable (sortBacklog board)).length⟩ := by
  unfold promoteFromBacklog
  rw [promoteLoop_eq]
  · rfl
  · simp [sortBacklog]

theorem promotable_take (board : GoalBoard) :
    promotable board = board.backlog.take (promotable board).length := by
  have hstarts : promotable board <+: board.backlog :=
    (List.take_prefix _ _).trans (List.takeWhile_prefix _)
  exact List.prefix_iff_eq_take.mp hstarts

end Calls

end Simard.Goals
