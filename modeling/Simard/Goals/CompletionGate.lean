import Simard.Goals.Board

/-! The done-gate: a goal is complete only with a merged pull request, a closed
issue and, for a change to the daemon itself, a deploy. Anything short of that
keeps the goal active with what is missing noted on it. -/
namespace Simard.Goals
open Simard.Library

def eqIgnoreAsciiCase (s t : String) : Bool := asciiLowercase s = asciiLowercase t

def containsLowercase (text : String) (needle : String) : Bool :=
  containsText needle.toList (asciiLowercase text)

/-- The state of a goal's declared upstream. -/
inductive DependencyState where
  | none
  | pending (blockingRef : String)
  | resolved (blockingRef : String)
  deriving DecidableEq

/-- Where evidence comes from; a lookup may fail with a reason. -/
structure EvidenceSource where
  anyPrMerged : ActiveGoal → Except String Bool
  issueClosed : ActiveGoal → Except String Bool
  isDeployed : ActiveGoal → Except String Bool
  repoPresent : ActiveGoal → Except String Bool := fun _ => .ok true
  dependencyGoalState : ActiveGoal → Except String DependencyState := fun _ => .ok .none

structure CompletionEvidence where
  prMerged : Bool
  issueClosed : Bool
  selfAffecting : Bool
  deployed : Bool
  deriving DecidableEq

inductive MissingEvidence where
  | prNotMerged
  | issueOpen
  | notDeployed
  | couldNotVerify (detail : String)
  deriving DecidableEq

def MissingEvidence.label : MissingEvidence → String
  | prNotMerged => "PR not merged"
  | issueOpen => "issue still open"
  | notDeployed => "merged but not deployed"
  | couldNotVerify detail => "could not verify: " ++ detail

inductive CompletionVerdict where
  | complete (evidence : CompletionEvidence)
  | blocked (evidence : CompletionEvidence) (missing : List MissingEvidence)
  deriving DecidableEq

def CompletionVerdict.isComplete : CompletionVerdict → Bool
  | complete _ => true
  | blocked .. => false

def routesToSimard (goal : ActiveGoal) : Bool :=
  match goal.repo with
  | none => true
  | some slug => eqIgnoreAsciiCase slug "Simard"

def isDocsOnly (goal : ActiveGoal) : Bool :=
  containsLowercase goal.description "docs-only" ||
    containsLowercase goal.description "documentation-only"

def mentionsCargo (ref : WipRef) : Bool :=
  containsLowercase ref.label "cargo.toml" ||
    (ref.url.map fun url => containsLowercase url "cargo.toml").getD false

def bumpsSimardPin (goal : ActiveGoal) : Bool :=
  (containsLowercase goal.description "cargo.toml" &&
    (containsLowercase goal.description "bump" || containsLowercase goal.description "pin" ||
      containsLowercase goal.description "dependency")) ||
  goal.wipRefs.any mentionsCargo

def isSelfAffecting (goal : ActiveGoal) : Bool :=
  !isDocsOnly goal && (routesToSimard goal || bumpsSimardPin goal)

def blockedCouldNotVerify (selfAffecting : Bool) (detail : String) : CompletionVerdict :=
  .blocked ⟨false, false, selfAffecting, !selfAffecting⟩ [.couldNotVerify detail]

def verdictOf (evidence : CompletionEvidence) : CompletionVerdict :=
  let missing :=
    (if evidence.prMerged then [] else [MissingEvidence.prNotMerged]) ++
    (if evidence.issueClosed then [] else [.issueOpen]) ++
    (if evidence.selfAffecting && !evidence.deployed then [.notDeployed] else [])
  if missing.isEmpty then .complete evidence else .blocked evidence missing

def evaluate (source : EvidenceSource) (goal : ActiveGoal) : CompletionVerdict :=
  let selfAffecting := isSelfAffecting goal
  let verdict : Except String CompletionVerdict := do
    let prMerged ← source.anyPrMerged goal
    let issueClosed ← source.issueClosed goal
    let deployed ← if selfAffecting then source.isDeployed goal else pure true
    return verdictOf ⟨prMerged, issueClosed, selfAffecting, deployed⟩
  match verdict with
  | .ok verdict => verdict
  | .error detail => blockedCouldNotVerify selfAffecting detail

theorem verdictOf_isComplete (evidence : CompletionEvidence) :
    (verdictOf evidence).isComplete =
      (evidence.prMerged && evidence.issueClosed &&
        (!evidence.selfAffecting || evidence.deployed)) := by
  obtain ⟨prMerged, issueClosed, selfAffecting, deployed⟩ := evidence
  cases prMerged <;> cases issueClosed <;> cases selfAffecting <;> cases deployed <;> rfl

theorem evaluate_isComplete (source : EvidenceSource) (goal : ActiveGoal) :
    (evaluate source goal).isComplete ↔
      source.anyPrMerged goal = .ok true ∧ source.issueClosed goal = .ok true ∧
        (isSelfAffecting goal → source.isDeployed goal = .ok true) := by
  unfold evaluate
  cases hpr : source.anyPrMerged goal with
  | error detail => simp [bind, Except.bind, blockedCouldNotVerify, CompletionVerdict.isComplete]
  | ok prMerged =>
    cases hissue : source.issueClosed goal with
    | error detail => simp [bind, Except.bind, blockedCouldNotVerify, CompletionVerdict.isComplete]
    | ok issueClosed =>
      by_cases hself : isSelfAffecting goal
      · cases hdeployed : source.isDeployed goal with
        | error detail =>
          simp [bind, Except.bind, hself, blockedCouldNotVerify, CompletionVerdict.isComplete]
        | ok deployed =>
          simp [bind, Except.bind, pure, Except.pure, hself, verdictOf_isComplete, and_assoc]
      · simp [bind, Except.bind, pure, Except.pure, hself, verdictOf_isComplete]

def isCompleteCandidate (goal : ActiveGoal) : Bool := !goal.isPerpetual && goal.status.isTerminal

def hasDominantProgress (goal : ActiveGoal) : Bool := goal.status.isTerminal

def renderMissing (missing : List MissingEvidence) : String :=
  "; ".intercalate (missing.map MissingEvidence.label)

structure Archival where
  retained : List ActiveGoal
  archived : List ActiveGoal
  blocked : List (ActiveGoal × List MissingEvidence)

/-- One goal of the archive pass. A standing goal whose unit of work is finished
starts over; others leave when the gate certifies them. -/
def archiveGoal (source : EvidenceSource) (pass : Archival) (goal : ActiveGoal) : Archival :=
  if goal.isPerpetual then
    let kept := if hasDominantProgress goal then goal.rollToNewCycle else goal
    { pass with retained := pass.retained ++ [kept] }
  else if !isCompleteCandidate goal then { pass with retained := pass.retained ++ [goal] }
  else
    match evaluate source goal with
    | .complete _ => { pass with archived := pass.archived ++ [goal] }
    | .blocked _ missing =>
        let annotated := { goal with
          currentActivity :=
            some ("completion blocked — missing evidence: " ++ renderMissing missing) }
        { pass with
          retained := pass.retained ++ [annotated]
          blocked := pass.blocked ++ [(annotated, missing)] }

def archiveCompletedWithEvidence (source : EvidenceSource) (board : GoalBoard) :
    GoalBoard × List ActiveGoal × List (ActiveGoal × List MissingEvidence) :=
  let pass := board.active.foldl (archiveGoal source) ⟨[], [], []⟩
  ({ board with active := pass.retained }, pass.archived, pass.blocked)

def archiveCompleted (board : GoalBoard) : GoalBoard × List ActiveGoal :=
  let retained := board.active.filterMap fun goal =>
    if !goal.status.isTerminal then some goal
    else if goal.isPerpetual then some goal.rollToNewCycle
    else none
  let archived := board.active.filter fun goal => goal.status.isTerminal && !goal.isPerpetual
  ({ board with active := retained }, archived)

/-- The archive pass of a cycle; a switch turns the gate off. -/
def archiveCompletedEvidenceAware (gateEnabled : Bool) (source : EvidenceSource)
    (board : GoalBoard) :
    GoalBoard × List ActiveGoal × List (ActiveGoal × List MissingEvidence) :=
  if gateEnabled then archiveCompletedWithEvidence source board
  else
    let (board, archived) := archiveCompleted board
    (board, archived, [])

end Simard.Goals
