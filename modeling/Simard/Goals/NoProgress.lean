import Simard.Goals.CompletionGate

/-! The policy of the no-progress breaker: why a goal stalls, which rung of the
ladder a classified stall takes, and the per-goal counters that drive it. -/
namespace Simard.Goals
open Simard.Library

inductive NoProgressClass where
  | alreadyComplete
  | obsolete
  | missingPrecondition
  | upstreamDependency
  | unclearCriteria
  | genuinelyStuck
  deriving DecidableEq

namespace NoProgressClass

def all : List NoProgressClass :=
  [alreadyComplete, obsolete, missingPrecondition, upstreamDependency, unclearCriteria,
    genuinelyStuck]

def token : NoProgressClass → String
  | alreadyComplete => "ALREADY-COMPLETE"
  | obsolete => "OBSOLETE"
  | missingPrecondition => "MISSING-PRECONDITION"
  | upstreamDependency => "UPSTREAM-DEPENDENCY"
  | unclearCriteria => "UNCLEAR-CRITERIA"
  | genuinelyStuck => "GENUINELY-STUCK"

end NoProgressClass

/-- An artifact and its observed state. -/
structure Evidence where
  kind : String
  reference : String
  state : String
  deriving DecidableEq

def Evidence.render (evidence : Evidence) : String :=
  evidence.kind ++ " " ++ evidence.reference ++ " (" ++ evidence.state ++ ")"

structure NoProgressWhy where
  cls : NoProgressClass
  evidence : List Evidence
  deriving DecidableEq

namespace NoProgressWhy

def renderEvidence (why : NoProgressWhy) : String :=
  if why.evidence.isEmpty then "(none)" else ", ".intercalate (why.evidence.map Evidence.render)

def blockingRef (why : NoProgressWhy) : String :=
  match why.evidence with
  | first :: _ => if trim first.reference.toList = [] then first.render else first.reference
  | [] => "unknown-upstream"

end NoProgressWhy

def noProgressBreakerThreshold : Nat := 3

def surfacedInvestigationFailureLimit : Nat := 3

def noProgressBlockedPrefix : String :=
  "🔒 [OODA-SAFEGUARD] OODA goal made no shippable progress for "

def noProgressBlockedSuffix : String := " consecutive no-action cycles; needs human review"

def isNoProgressMarker (reason : String) : Bool :=
  noProgressBlockedPrefix.toList.isPrefixOf reason.toList

def isBareNoProgressBlock (reason : String) : Bool :=
  isNoProgressMarker reason &&
    !NoProgressClass.all.any fun cls => containsText cls.token.toList reason.toList

def noEvidence : String := "evidence=[(none)]"

def isEvidencelessNoProgressBlock (reason : String) : Bool :=
  isNoProgressMarker reason && containsText noEvidence.toList reason.toList

def needsReinvestigation (reason : String) : Bool :=
  isBareNoProgressBlock reason || isEvidencelessNoProgressBlock reason

def noProgressBlockedReason (consecutive : Nat) : String :=
  noProgressBlockedPrefix ++ toString consecutive ++ noProgressBlockedSuffix

def bracketedEvidence (why : NoProgressWhy) : String := "evidence=[" ++ why.renderEvidence ++ "]"

def noProgressBlockedReasonWithWhy (consecutive : Nat) (why : NoProgressWhy) : String :=
  noProgressBlockedPrefix ++ toString consecutive ++ " consecutive no-action cycles; why=" ++
    why.cls.token ++ " " ++ bracketedEvidence why

inductive StuckGoalDisposition where
  | done
  | obsolete (reason : String)
  | unresolved
  deriving DecidableEq

def obsolescenceMarkers : List String :=
  ["out of scope", "out-of-scope", "superseded", "tracked elsewhere", "obsolete", "wontfix",
    "won't fix", "no longer needed"]

def markerIn (text : String) : Option String :=
  obsolescenceMarkers.find? (containsLowercase text ·)

def issueObsolescence (ref : WipRef) : Option String :=
  if eqIgnoreAsciiCase ref.kind "issue" then
    (markerIn ref.label).map fun m =>
      "out-of-scope issue #" ++ ref.refId ++ " filed ('" ++ m ++ "')"
  else none

def obsolescenceReason (goal : ActiveGoal) : Option String :=
  match goal.currentActivity.bind markerIn with
  | some m => some ("goal marked '" ++ m ++ "' (tracked elsewhere)")
  | none => goal.wipRefs.findSome? issueObsolescence

def verifyStuckGoal (source : EvidenceSource) (goal : ActiveGoal) : StuckGoalDisposition :=
  match evaluate source goal with
  | .complete _ => .done
  | .blocked .. =>
      match obsolescenceReason goal with
      | some reason => .obsolete reason
      | none => .unresolved

def escalationIssue (goalId : String) (consecutive : Nat) : String × String :=
  ("OODA no-progress breaker: goal '" ++ goalId ++ "' stuck (" ++ toString consecutive ++
      " no-action cycles)",
    "The OODA daemon produced **no shippable action** on goal `" ++ goalId ++ "` for " ++
      toString consecutive ++ " consecutive cycles (repeated `NO ACTION` / \"I'll verify " ++
      "concretely…\" responses).\n\nThe no-progress breaker ran the done-gate once: the goal is " ++
      "neither verifiably complete (no merged PR + closed issue + deploy) nor obsolete (no " ++
      "out-of-scope / tracked-elsewhere signal), so it has been marked Blocked pending human " ++
      "review.\n\nInspect the goal's `wip_refs` and the relevant PR/issue, then either supply " ++
      "the missing completion evidence, mark the goal out of scope, or re-scope " ++
      "it.\n\nTriggered by the deterministic safeguard in " ++
      "`src/goal_curation/no_progress_breaker.rs` (Fix 3).")

def whyEscalationIssue (consecutive : Nat) (why : NoProgressWhy) : String × String :=
  ("OODA no-progress breaker: goal stuck after guided retry (" ++ why.cls.token ++ ")",
    "The OODA daemon produced **no shippable action** for " ++ toString consecutive ++
      " consecutive cycles and a guided engineer retry did not resolve it.\n\nRoot cause: **" ++
      why.cls.token ++ "**\nEvidence: " ++ why.renderEvidence ++ "\n\nThe goal has been marked " ++
      "Blocked with the WHY attached (never a bare \"needs human review\"). Inspect the " ++
      "evidence above and either supply the missing completion evidence, re-scope the goal with " ++
      "measurable done-criteria, or mark it out of scope.\n\nTriggered by the root-cause " ++
      "safeguard in `src/goal_curation/no_progress_breaker.rs` (issue #16).")

def clarification : NoProgressClass → String
  | .unclearCriteria =>
      "The goal's done-criteria are **not expressed as anything the done-gate can " ++
      "machine-check**, so the daemon can never certify it complete and its re-investigation " ++
      "produced no evidence every cycle."
  | _ =>
      "The daemon found **no machine-resolvable cause** across repeated independent " ++
      "investigations, and each produced no evidence."

def surfacedFailureEscalationIssue (goalId : String) (cls : NoProgressClass)
    (surfacedFailures : Nat) : String × String :=
  ("OODA no-progress breaker: goal '" ++ goalId ++ "' has unmeasurable done-criteria (" ++
      cls.token ++ ")",
    "The OODA no-progress breaker re-investigated goal `" ++ goalId ++ "` **" ++
      toString surfacedFailures ++ " consecutive times** and each investigation classified it **" ++
      cls.token ++ "** while producing **no supporting evidence**. To avoid an unbounded " ++
      "evidence-less re-investigation livelock (which makes no shippable progress and never " ++
      "reaches a human), the goal has now been Blocked and surfaced for human triage.\n\n" ++
      clarification cls ++ "\n\n**Action — make the done-criteria measurable.** Re-scope the " ++
      "goal so completion is machine-verifiable, e.g. one of:\n- a specific issue the daemon " ++
      "can observe as `CLOSED`,\n- a specific PR the daemon can observe as `MERGED`,\n- a " ++
      "specific file/command whose presence or output the done-gate can " ++
      "check.\n\nAlternatively, drop the goal if it is out of scope. The block reason carries " ++
      "the re-investigation count as evidence (never a bare `evidence=[(none)]`).\n\nTriggered " ++
      "by the surfaced-failure bound in `src/goal_curation/no_progress_breaker.rs` " ++
      "(`SURFACED_INVESTIGATION_FAILURE_LIMIT`).")

def engineerTaskForWhy (why : NoProgressWhy) : String :=
  "Prior OODA cycles stalled with no shippable progress. Diagnosed root cause: why=" ++
    why.cls.token ++ " evidence=[" ++ why.renderEvidence ++
      "]. Investigate and fix this specific " ++
    "WHY (clarify and make the done-criteria measurable if they are unclear), then advance the " ++
    "goal."

inductive NoProgressResolution where
  | continue
  | markDone
  | drop (reason : String)
  | heal (why : NoProgressWhy)
  | defer (blockingRef : String) (evidence : List Evidence)
  | spawnEngineer (task : String) (why : NoProgressWhy)
  | escalate (blockedReason issueTitle issueBody : String)
  | surfaceInvestigationFailure (cls : NoProgressClass) (reason : String)
  | quarantineTerminal (surfacedCount : Nat)
  deriving DecidableEq

def NoProgressResolution.isTerminal : NoProgressResolution → Bool
  | .continue => false
  | surfaceInvestigationFailure .. => false
  | _ => true

def resolveNoProgress (goalId : String) (consecutive threshold : Nat)
    (disposition : StuckGoalDisposition) : NoProgressResolution :=
  if consecutive < threshold then .continue
  else
    match disposition with
    | .done => .markDone
    | .obsolete reason => .drop reason
    | .unresolved =>
        let issue := escalationIssue goalId consecutive
        .escalate (noProgressBlockedReason consecutive) issue.1 issue.2

def surfacedReason (cls : NoProgressClass) : String :=
  "independent investigation of a stalled goal classified " ++ cls.token ++ " but produced no " ++
    "supporting evidence at the terminal rung — refusing to park it with an empty-evidence " ++
    "block; surfaced for retry"

/-- The last rungs, for a stall no machine can resolve: one guided engineer, then a
block with the reason, which evidence-less findings reach only after the limit. -/
def resolutionForStuck (consecutive : Nat) (why : NoProgressWhy) (guidedRetryUsed : Bool)
    (surfacedFailures : Nat) : NoProgressResolution :=
  if guidedRetryUsed then
    if why.evidence.isEmpty then
      if surfacedInvestigationFailureLimit ≤ surfacedFailures then
        .quarantineTerminal surfacedFailures
      else .surfaceInvestigationFailure why.cls (surfacedReason why.cls)
    else
      let issue := whyEscalationIssue consecutive why
      .escalate (noProgressBlockedReasonWithWhy consecutive why) issue.1 issue.2
  else .spawnEngineer (engineerTaskForWhy why) why

def resolutionForWhy (consecutive : Nat) (why : NoProgressWhy) (guidedRetryUsed : Bool)
    (surfacedFailures : Nat) : NoProgressResolution :=
  match why.cls with
  | .alreadyComplete => .markDone
  | .obsolete => .drop ("obsolete: " ++ why.renderEvidence)
  | .missingPrecondition => .heal why
  | .upstreamDependency => .defer why.blockingRef why.evidence
  | .unclearCriteria => resolutionForStuck consecutive why guidedRetryUsed surfacedFailures
  | .genuinelyStuck => resolutionForStuck consecutive why guidedRetryUsed surfacedFailures

def quarantineMarkerKind : String := "ooda-breaker-quarantine"

def quarantineMarkerRefId : String := "ooda-breaker-quarantine::terminal-sentinel"

def quarantineMarker : WipRef :=
  ⟨quarantineMarkerKind, quarantineMarkerRefId,
    "OODA breaker terminal quarantine (UNCLEAR-CRITERIA after guided retry)", none⟩

def isQuarantineRef (ref : WipRef) : Bool :=
  ref.kind = quarantineMarkerKind && ref.refId = quarantineMarkerRefId

def isQuarantined (goal : ActiveGoal) : Bool := goal.wipRefs.any isQuarantineRef

/-- What is remembered of each goal: no-action cycles in a row, whether its guided
engineer is spent, the classes it was re-investigated for, and the evidence-less
findings in a row. A goal without an entry counts zero. -/
structure NoProgressTracker where
  counts : String → Nat
  guidedRetries : Finset String
  reinvestigatedFor : Finset (String × String)
  surfacedFailures : String → Nat

namespace NoProgressTracker

def new : NoProgressTracker := ⟨fun _ => 0, ∅, ∅, fun _ => 0⟩

def consecutive (tracker : NoProgressTracker) (goalId : String) : Nat := tracker.counts goalId

def recordNoAction (tracker : NoProgressTracker) (goalId : String) : NoProgressTracker :=
  { tracker with counts := Function.update tracker.counts goalId (tracker.counts goalId + 1) }

def resetCount (tracker : NoProgressTracker) (goalId : String) : NoProgressTracker :=
  { tracker with counts := Function.update tracker.counts goalId 0 }

def clearSurfacedFailures (tracker : NoProgressTracker) (goalId : String) : NoProgressTracker :=
  { tracker with surfacedFailures := Function.update tracker.surfacedFailures goalId 0 }

def recordSurfacedFailure (tracker : NoProgressTracker) (goalId : String) : NoProgressTracker :=
  { tracker with
    surfacedFailures :=
      Function.update tracker.surfacedFailures goalId (tracker.surfacedFailures goalId + 1) }

def markGuidedRetry (tracker : NoProgressTracker) (goalId : String) : NoProgressTracker :=
  { tracker with guidedRetries := insert goalId tracker.guidedRetries }

def guidedRetryUsed (tracker : NoProgressTracker) (goalId : String) : Bool :=
  goalId ∈ tracker.guidedRetries

def markReinvestigated (tracker : NoProgressTracker) (goalId : String) (cls : NoProgressClass) :
    NoProgressTracker :=
  { tracker with reinvestigatedFor := insert (goalId, cls.token) tracker.reinvestigatedFor }

def reinvestigated (tracker : NoProgressTracker) (goalId : String) (cls : NoProgressClass) : Bool :=
  (goalId, cls.token) ∈ tracker.reinvestigatedFor

def recordProgress (tracker : NoProgressTracker) (goalId : String) : NoProgressTracker where
  counts := Function.update tracker.counts goalId 0
  guidedRetries := tracker.guidedRetries.erase goalId
  reinvestigatedFor := tracker.reinvestigatedFor.filter (·.1 ≠ goalId)
  surfacedFailures := Function.update tracker.surfacedFailures goalId 0

def retainGoals (tracker : NoProgressTracker) (live : List String) : NoProgressTracker where
  counts := fun id => if id ∈ live then tracker.counts id else 0
  guidedRetries := tracker.guidedRetries.filter (· ∈ live)
  reinvestigatedFor := tracker.reinvestigatedFor.filter (·.1 ∈ live)
  surfacedFailures := fun id => if id ∈ live then tracker.surfacedFailures id else 0

/-- Count the cycle and decide; a terminal decision clears the count. -/
def recordAndResolve (tracker : NoProgressTracker) (goalId : String) (threshold : Nat)
    (disposition : StuckGoalDisposition) : NoProgressResolution × NoProgressTracker :=
  let tracker := tracker.recordNoAction goalId
  let resolution := resolveNoProgress goalId (tracker.consecutive goalId) threshold disposition
  (resolution, if resolution.isTerminal then tracker.resetCount goalId else tracker)

end NoProgressTracker

end Simard.Goals
