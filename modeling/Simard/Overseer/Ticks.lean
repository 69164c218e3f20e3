import Simard.Library.Machine
import Simard.Overseer.Guardrails
import Simard.Overseer.NotifyRail
import Simard.Overseer.Recipes

/-! Overseer ticks in the daemon. A tick builds a new Overseer, gates what it decided on and
acts on what was admitted; the recipe runs, the notifier's rail, the clock and what has been done
outlive it, the Overseer's gates do not. -/
namespace Simard.Overseer
open Simard.Library

inductive RiskClass where
  | routine
  | mergeAuthority
  | highRisk
  deriving DecidableEq

/-- The interventions with a gate or a launch of their own; of the others only their class
and whether they cost matter here. -/
inductive Intervention where
  | launchRecipe (brief : RecipeBrief)
  | whisper (note : List Char)
  | unblockGoal (goalId reason : List Char)
  | escalateBlockedGoal (goalId reason why problem nextStep : List Char)
  | reworkPr (repo : List Char) (pr : Nat) (concernPath : List Char)
  | flagWorkstreamGaps
  | other (risk : RiskClass) (costBearing : Bool)
  deriving DecidableEq

namespace Intervention

def classify : Intervention → RiskClass
  | .other risk _ => risk
  | _ => .routine

def isCostBearing : Intervention → Bool
  | .launchRecipe _ | .reworkPr _ _ _ => true
  | .other _ costBearing => costBearing
  | _ => false

def coverage : Intervention → Option RecipeBrief
  | .launchRecipe brief =>
      if brief.sequenceGroup = some workstreamCoverageGroup then some brief else none
  | _ => none

end Intervention

structure AutonomyGate where
  allowHighRisk : Bool
  allowVerifyMerge : Bool

def AutonomyGate.admits (autonomy : AutonomyGate) (iv : Intervention) : Bool :=
  match iv.classify with
  | .routine => true
  | .mergeAuthority => autonomy.allowVerifyMerge
  | .highRisk => autonomy.allowHighRisk

def budgetAdmits (dailyBudgetUsd spentTodayUsd : ℚ) : Bool :=
  !(0 < dailyBudgetUsd && dailyBudgetUsd ≤ spentTodayUsd)

/-- What the environment sets for every tick. -/
structure OverseerConfig where
  text : TextOps
  identityConfigured : Bool
  whisperEnabled : Bool
  whisperSink : Bool
  notifier : Bool
  notifyDedupSecs : UInt64
  hashOrder : HashOrder
  goalHealthEnabled : Bool
  mergeQueueReasoner : Bool
  mergeQueueEveryN : Nat
  autonomy : AutonomyGate
  dailyBudgetUsd : ℚ
  backoffBaseSecs : Int
  backoffMultiplier : Int
  backoffMaxSecs : Int

/-- What an Overseer remembers within its tick. -/
structure ActingOverseer where
  gapScanEnabled : Bool
  whisperGate : WhisperGate
  blockedGoalGate : WhisperGate
  coverageBackoff : BackoffGate
  inflightInvestigations : List Char → Option UInt64
  sequencer : ConflictSequencer
  mergeQueueTick : Nat
  mergeReasoningDisabledNotified : Bool

def maxLaunchesPerCycle : Nat := 2

namespace OverseerConfig

variable (config : OverseerConfig)

def buildOverseer (gapScanEnabled : Bool) : ActingOverseer where
  gapScanEnabled := gapScanEnabled
  whisperGate := .new 900 5
  blockedGoalGate := .withBackoff 900 14400 20
  coverageBackoff := .new config.backoffBaseSecs config.backoffMultiplier config.backoffMaxSecs
  inflightInvestigations := fun _ => none
  sequencer := ⟨[]⟩
  mergeQueueTick := 0
  mergeReasoningDisabledNotified := false

/-- What holds an intervention back before its cost is looked at. -/
def heldBy (overseer : ActingOverseer) (iv : Intervention) (now : Int) : Option String :=
  match iv with
  | .whisper _ =>
      if config.whisperEnabled then none
      else some "held: whisper disabled (SIMARD_OVERSEER_WHISPER)"
  | .unblockGoal _ _ | .escalateBlockedGoal _ _ _ _ _ =>
      if config.goalHealthEnabled then none
      else some "held: goal-board health disabled (SIMARD_OVERSEER_GOAL_HEALTH)"
  | .flagWorkstreamGaps =>
      if overseer.gapScanEnabled then none
      else some "held: gap-scan disabled (SIMARD_OVERSEER_GAP_SCAN)"
  | .launchRecipe brief =>
      if !overseer.gapScanEnabled && iv.coverage.isSome then
        some "held: gap-scan disabled (SIMARD_OVERSEER_GAP_SCAN)"
      else if (overseer.inflightInvestigations (recipeDedupKey brief)).isSome then
        some "held: an investigation for this signature is already in flight"
      else if iv.coverage.isSome &&
          overseer.coverageBackoff.peek (recipeDedupKey brief) now = .suppress then
        some "held: an equivalent coverage was launched recently (backoff window)"
      else none
  | .reworkPr _ _ _ | .other _ _ => none

def sequenceGroupOf : Intervention → Option (List Char)
  | .launchRecipe brief => brief.sequenceGroup
  | _ => none

/-- Whether the intervention is admitted, with the Overseer and the number of launches
after it. -/
def gate (overseer : ActingOverseer) (iv : Intervention) (spentTodayUsd : Option ℚ) (launches : Nat)
    (now : Int) : Bool × ActingOverseer × Nat :=
  if (config.heldBy overseer iv now).isSome || !config.autonomy.admits iv then
    (false, overseer, launches)
  else if !iv.isCostBearing then (true, overseer, launches)
  else if maxLaunchesPerCycle ≤ launches ||
      spentTodayUsd.any (fun spent => !budgetAdmits config.dailyBudgetUsd spent) then
    (false, overseer, launches)
  else
    match overseer.sequencer.admits (sequenceGroupOf iv) with
    | none => (false, overseer, launches)
    | some sequencer => (true, { overseer with sequencer := sequencer }, launches + 1)

end OverseerConfig

inductive DeedKind where
  | whisper (signature : List Char)
  | unblock (goalId : List Char)
  | coverage (key : List Char)
  | alert
  | reasoningEnabled
  deriving DecidableEq

/-- Something that took effect, in which tick and when. -/
structure Deed where
  tick : Nat
  time : Int
  kind : DeedKind
  deriving DecidableEq

/-- What an act meets: whether the sink, the board and the launcher succeed, and the time
that passes between an unblock and the note that follows it. -/
structure ActWorld where
  delivers : Bool
  unblocks : Bool
  spawn : SpawnWorld
  carveSecs : Nat

/-- The daemon and what it has going: the clock, the number of the tick with its Overseer,
the interventions it has still to act on and the launches it planned, and what outlives it. -/
structure Daemon where
  clock : Int
  tick : Nat
  overseer : ActingOverseer
  plan : List Intervention
  launches : Nat
  recipes : RecipeRuns
  rail : NotifyDedup
  reasoningDisabled : Bool
  deeds : List Deed

/-- What happens: time passes, a child ends, the operator sets the reasoning scope, something else
is pushed to the operator; a tick begins, looks at the merge queue, gates an intervention or acts
on the next one. -/
inductive DaemonEvent where
  | wait (secs : Nat)
  | childExits (child : Nat)
  | setReasoning (disabled : Bool)
  | push (kind signature : String)
  | begin (gapScanEnabled : Bool)
  | observeMergeQueue
  | gate (iv : Intervention) (spentTodayUsd : Option ℚ)
  | act (world : ActWorld)

def noteSignature (note : List Char) : List Char :=
  ([' '].intercalate (splitWhitespace note)).map Char.toLower

def carveNote (goalId : List Char) : List Char :=
  "Overseer steering note for goal ".toList ++ goalId ++
    ": this standing goal was auto-unblocked ".toList ++
    "after a no-progress false-park. Carve ONE bounded, shippable sub-goal from it and ".toList ++
    "ship that next, rather than re-attempting the whole standing goal at once.".toList

def shouldObserve (enabled : Bool) (everyN tickIndex : Nat) : Bool :=
  enabled && tickIndex % max everyN 1 = 0

namespace Daemon

def init (config : OverseerConfig) (clock : Int) : Daemon :=
  ⟨clock, 0, config.buildOverseer false, [], 0, .init, ⟨[]⟩, false, []⟩

variable (config : OverseerConfig) (daemon : Daemon)

def does (kind : DeedKind) : Daemon :=
  { daemon with deeds := daemon.deeds ++ [⟨daemon.tick, daemon.clock, kind⟩] }

def actWhisper (world : ActWorld) (note : List Char) : Daemon :=
  if !config.identityConfigured then daemon
  else
    match daemon.overseer.whisperGate.peek (noteSignature note) daemon.clock with
    | .deliver =>
        if config.whisperSink && world.delivers then
          let gate := daemon.overseer.whisperGate.commit (noteSignature note) daemon.clock
          { daemon with overseer := { daemon.overseer with whisperGate := gate } }.does
            (.whisper (noteSignature note))
        else daemon
    | _ => daemon

def unblockSignature (goalId : List Char) : List Char := "unblock:".toList ++ goalId

def actUnblockGoal (world : ActWorld) (goalId : List Char) : Daemon :=
  if !config.identityConfigured then daemon
  else
    match daemon.overseer.blockedGoalGate.peek (unblockSignature goalId) daemon.clock with
    | .deliver =>
        if world.unblocks then
          let gate := daemon.overseer.blockedGoalGate.commit (unblockSignature goalId) daemon.clock
          let unblocked := { daemon with
            overseer := { daemon.overseer with blockedGoalGate := gate } }.does (.unblock goalId)
          let later := { unblocked with clock := unblocked.clock + world.carveSecs }
          if config.whisperEnabled && config.whisperSink then
            later.actWhisper config world (carveNote goalId)
          else later
        else daemon
    | _ => daemon

def launch (world : ActWorld) (brief : RecipeBrief) (goal : Option (List Char)) :
    Bool × Daemon :=
  match daemon.recipes.spawn config.text world.spawn brief goal with
  | (.error _, recipes) => (false, { daemon with recipes := recipes })
  | (.ok handle, recipes) =>
      let inflight := Function.update daemon.overseer.inflightInvestigations (recipeDedupKey brief)
        (some handle)
      (true, { daemon with
        recipes := recipes
        overseer := { daemon.overseer with inflightInvestigations := inflight } })

def actLaunchRecipe (world : ActWorld) (brief : RecipeBrief) : Daemon :=
  if brief.sequenceGroup = some workstreamCoverageGroup then
    if !config.identityConfigured then daemon
    else
      match daemon.launch config world brief none with
      | (false, launched) => launched
      | (true, launched) =>
          let backoff :=
            launched.overseer.coverageBackoff.commit (recipeDedupKey brief) launched.clock
          let armed := { launched with
            overseer := { launched.overseer with coverageBackoff := backoff } }
          -- a run that is handed back is no launch
          if launched.recipes.children.length = daemon.recipes.children.length then armed
          else armed.does (.coverage (recipeDedupKey brief))
  else (daemon.launch config world brief none).2

def actEscalateBlockedGoal (world : ActWorld) (goalId : List Char) (brief : RecipeBrief) : Daemon :=
  if !config.identityConfigured then daemon
  else if (daemon.overseer.inflightInvestigations (recipeDedupKey brief)).isSome then daemon
  else (daemon.launch config world brief (some goalId)).2

def actReworkPr (world : ActWorld) (brief : RecipeBrief) : Daemon :=
  if !config.identityConfigured then daemon
  else (daemon.launch config world brief none).2

def act (world : ActWorld) : Intervention → Daemon
  | .launchRecipe brief => daemon.actLaunchRecipe config world brief
  | .whisper note => daemon.actWhisper config world note
  | .unblockGoal goalId _ => daemon.actUnblockGoal config world goalId
  | .escalateBlockedGoal goalId reason why problem nextStep =>
      daemon.actEscalateBlockedGoal config world goalId
        (escalationBrief goalId reason why problem nextStep)
  | .reworkPr repo pr concernPath =>
      daemon.actReworkPr config world (reworkBrief repo pr concernPath)
  | .flagWorkstreamGaps | .other _ _ => daemon

def notify (kind signature : String) : Bool × Daemon :=
  let sent :=
    daemon.rail.notifyAt config.hashOrder config.notifyDedupSecs kind signature daemon.clock
  (sent.1, { daemon with rail := sent.2 })

/-- A disabled reasoning scope is told to the operator once per Overseer, if the rail lets the alert
through; the latch is set either way. -/
def observeMergeQueue : Daemon :=
  if !config.mergeQueueReasoner then daemon
  else
    let tick := daemon.overseer.mergeQueueTick
    let counted := { daemon with overseer := { daemon.overseer with mergeQueueTick := tick + 1 } }
    if !daemon.overseer.gapScanEnabled then counted
    else if !shouldObserve true config.mergeQueueEveryN tick then counted
    else if !daemon.reasoningDisabled then counted
    else if daemon.overseer.mergeReasoningDisabledNotified then counted
    else
      let latched := { counted with
        overseer := { counted.overseer with mergeReasoningDisabledNotified := true } }
      if config.notifier then
        let sent := latched.notify config "merge-reasoning-disabled" mergeReasoningDisabledSignature
        if sent.1 then sent.2.does .alert else sent.2
      else latched

def step : DaemonEvent → Daemon
  | .wait secs => { daemon with clock := daemon.clock + secs }
  | .childExits child => { daemon with recipes := daemon.recipes.exit child }
  | .setReasoning disabled =>
      if disabled then { daemon with reasoningDisabled := true }
      else { daemon with reasoningDisabled := false }.does .reasoningEnabled
  | .push kind signature => (daemon.notify config kind signature).2
  | .begin gapScanEnabled =>
      { daemon with
        tick := daemon.tick + 1
        overseer := config.buildOverseer gapScanEnabled
        plan := []
        launches := 0 }
  | .observeMergeQueue => daemon.observeMergeQueue config
  | .gate iv spentTodayUsd =>
      match config.gate daemon.overseer iv spentTodayUsd daemon.launches daemon.clock with
      | (admitted, overseer, launches) =>
          { daemon with
            overseer := overseer
            launches := launches
            plan := if admitted then daemon.plan ++ [iv] else daemon.plan }
  | .act world =>
      match daemon.plan with
      | [] => daemon
      | iv :: rest => { daemon with plan := rest }.act config world iv

end Daemon

def daemonMachine (config : OverseerConfig) : Machine Daemon DaemonEvent :=
  ⟨Daemon.step config⟩

end Simard.Overseer
