import Simard.Library.Transcript
import Simard.Merging.PrVerify

/-! The merge of a pull request: its author is checked, its snapshot and its diff are
verified, its checks are polled until they are green, and then it is viewed again, judged and
merged, and the operator is told. Everything the outside answers is a command. -/
namespace Simard.Merging
open Simard.Library

structure CheckRollupEntry where
  name : String
  state : String
  deriving DecidableEq

/-- What a view of a pull request shows. -/
structure PrSnapshot where
  body : String
  mergeable : String
  reviewDecision : String
  checks : List CheckRollupEntry
  baseRefName : String
  labels : List String
  isDraft : Option Bool
  deriving DecidableEq

inductive Verdict where
  | ready
  | notReady
  | unclear
  deriving DecidableEq

structure Blocker where
  sectionName : String
  severity : String
  observation : String

structure JudgeOutcome where
  verdict : Verdict
  rationale : String
  blockers : List Blocker

def JudgeOutcome.summary (outcome : JudgeOutcome) : String :=
  match outcome.verdict with
  | .ready => "merge-readiness-judge: ready — " ++ outcome.rationale
  | .notReady =>
      let parts := outcome.blockers.map fun b =>
        b.sectionName ++ " (" ++ b.severity ++ "): " ++ b.observation
      if parts = [] then "merge-readiness-judge: not_ready — " ++ outcome.rationale
      else "merge-readiness-judge: not_ready — " ++ outcome.rationale ++ "; blockers: " ++
        "; ".intercalate parts
  | .unclear => "merge-readiness-judge: unclear — " ++ outcome.rationale

inductive OverseerError where
  | capability (what detail : String)
  | recursion (subject : String)
  | notMergeReady (pr : Nat) (reason : String)
  deriving DecidableEq

def OverseerError.display : OverseerError → String
  | .capability what detail => "capability " ++ what ++ " failed: " ++ detail
  | .recursion subject => "anti-recursion: refused own " ++ subject
  | .notMergeReady pr reason =>
      "PR #" ++ toString pr ++ " is not merge-ready yet: " ++ reason

structure MergeNotification where
  problem : String
  prTitle : String
  prUrl : String
  repo : String
  autonomous : Bool

def isPassingState (state : String) : Bool :=
  state = "SUCCESS" || state = "NEUTRAL" || state = "SKIPPED"

def evaluateObjectiveGates (snapshot : PrSnapshot) (baseAllowlist : List String) :
    Except String Unit :=
  if snapshot.baseRefName ∉ baseAllowlist then
    .error ("PR base branch '" ++ snapshot.baseRefName ++ "' is not in the merge allow-list (" ++
      ", ".intercalate baseAllowlist ++
        "). Re-target this PR to an allowed base and rebase before " ++
      "retrying: `gh pr edit <PR> --base " ++ baseAllowlist.headD "main" ++ "` followed by `git " ++
      "rebase origin/" ++ baseAllowlist.headD "main" ++ "`.")
  else if snapshot.mergeable ≠ "MERGEABLE" then
    .error ("PR mergeable status is '" ++ snapshot.mergeable ++ "' (expected 'MERGEABLE')")
  else
    match snapshot.checks.find? fun check => !isPassingState check.state with
    | some check =>
        .error ("CI check '" ++ check.name ++ "' has state '" ++ check.state ++
          "' (expected SUCCESS/NEUTRAL/SKIPPED)")
    | none =>
        match snapshot.isDraft with
        | some false => .ok ()
        | some true =>
            .error "PR is a draft (isDraft=true); a draft can never be merged — mark it ready first"
        | none =>
            .error
              ("PR draft state is unknown (isDraft absent from `gh pr view`); failing closed " ++
              "(treated as draft) rather than risk merging a draft")

def creativeIdeaPrLabel : String := "creative-idea-needs-human-review"

def creativeIdeaOwner : String := "rysweet"

inductive CheckClass where
  | passing
  | pending
  | failed
  deriving DecidableEq

def classifyState (state : String) : CheckClass :=
  if state = "SUCCESS" || state = "NEUTRAL" || state = "SKIPPED" then .passing
  else if state = "PENDING" || state = "QUEUED" || state = "IN_PROGRESS" || state = "WAITING" ||
      state = "REQUESTED" || state = "EXPECTED" then .pending
  else .failed

/-- Whose work the Overseer takes for its own. -/
structure RecursionGuard where
  authorLogin : String

def subjectPr (repo : String) (pr : Nat) (author : String) : String :=
  "Pr \x7b repo: " ++ quoted repo ++ ", pr: " ++ toString pr ++ ", author: " ++ quoted author ++
    " \x7d"

/-- A guard without an identity refuses; one with an identity refuses its own work. -/
def RecursionGuard.admits (guard : RecursionGuard) (repo : String) (pr : Nat) (author : String) :
    Except OverseerError Unit :=
  if guard.authorLogin = "" then
    .error (.recursion ("unconfigured-identity: " ++ subjectPr repo pr author))
  else if author = guard.authorLogin then .error (.recursion (subjectPr repo pr author))
  else .ok ()

def eqIgnoreAsciiCase (a b : String) : Bool := asciiLowercase a = asciiLowercase b

inductive MergeCmd where
  | author
  | viewPr
  | diff
  | sleep (secs : Nat)
  | judge (snapshot : PrSnapshot)
  | squashMerge
  | title
  | notify (notification : MergeNotification)

/-- What each command is answered; an error of `gh` or of the judge is its text, and the
notifier tells whether it dispatched. -/
def MergeAns : MergeCmd → Type
  | .author => Except OverseerError String
  | .viewPr => Except String PrSnapshot
  | .diff => Except OverseerError (List Char)
  | .sleep _ => Unit
  | .judge _ => Except String JudgeOutcome
  | .squashMerge => Except String Unit
  | .title => Except OverseerError String
  | .notify _ => Bool

abbrev MergeM := Fallible OverseerError MergeCmd MergeAns

structure PollConfig where
  maxAttempts : Nat
  intervalSecs : Nat

structure MergePrOps where
  baseAllowlist : List String
  poll : PollConfig
  recursion : Option RecursionGuard
  automergeAuthor : Option String
  toLowercase : List Char → List Char

structure VerifyReport where
  ready : Bool
  checks : List CheckItem

inductive MergeOutcome where
  | merged (pr : Nat) (repo : String)
  | refused (pr : Nat) (reason : String)

namespace MergePrOps

variable (ops : MergePrOps) (repo : String) (pr : Nat)

def viewPr (what : String) : MergeM PrSnapshot :=
  Fallible.attempt .viewPr fun
    | .error e => .error (.capability what e)
    | .ok snapshot => .ok snapshot

def authorRefusal (author : String) : Except OverseerError Unit :=
  match ops.recursion.elim (.ok ()) (fun guard => guard.admits repo pr author) with
  | .error e => .error (.capability "merge.recursion" e.display)
  | .ok () =>
      if ops.automergeAuthor.any fun expected => !eqIgnoreAsciiCase author expected then
        .error (.capability "merge.author"
          ("refusing to merge " ++ repo ++ "#" ++ toString pr ++ ": author " ++ quoted author ++
            " does not match the configured autonomous-merge identity (fail-closed)"))
      else .ok ()

def checkAuthor : MergeM Unit :=
  if ops.recursion.isSome || ops.automergeAuthor.isSome then
    Fallible.attempt .author fun
      | .error e => .error e
      | .ok author => ops.authorRefusal repo pr author
  else pure ()

def objectiveCheck (snapshot : PrSnapshot) : CheckItem :=
  match evaluateObjectiveGates snapshot ops.baseAllowlist with
  | .ok () => ⟨"objective gates (CI green + mergeable + base allow-list)", true, "ok".toList⟩
  | .error reason =>
      ⟨"objective gates (CI green + mergeable + base allow-list)", false, reason.toList⟩

def verify : MergeM VerifyReport := do
  let snapshot ← viewPr "verify.view_pr"
  let diff ← Fallible.attempt .diff id
  let checks := ops.objectiveCheck snapshot :: runDiffScans ops.toLowercase diff
  return ⟨checks.all CheckItem.passed, checks⟩

/-- What a snapshot says about the checks: they are green, or some are still pending. -/
def pollVerdict (snapshot : PrSnapshot) : Except OverseerError Bool :=
  if snapshot.baseRefName ∉ ops.baseAllowlist then
    .error (.capability "poll" ("base branch '" ++ snapshot.baseRefName ++ "' not in allow-list"))
  else
    match snapshot.checks.find? fun check => classifyState check.state = .failed with
    | some check =>
        .error (.capability "poll"
          ("check '" ++ check.name ++ "' is '" ++ check.state ++ "' — escalating, not merging"))
    | none =>
        if snapshot.checks.any fun check => classifyState check.state = .pending then .ok false
        else if snapshot.mergeable = "MERGEABLE" then .ok true
        else
          .error (.capability "poll" ("PR not mergeable (status '" ++ snapshot.mergeable ++ "')"))

def pollOnce : MergeM Bool :=
  Fallible.attempt .viewPr fun
    | .error e => .error (.capability "poll.view_pr" e)
    | .ok snapshot => ops.pollVerdict snapshot

def pollUntilGreen : Nat → MergeM Unit
  | 0 => do
      let green ← ops.pollOnce
      if green then pure ()
      else
        throw (.capability "poll" "required checks still pending after max attempts — escalating")
  | attempts + 1 => do
      let green ← ops.pollOnce
      if green then pure ()
      else do
        Fallible.attempt (.sleep ops.poll.intervalSecs) fun _ => .ok ()
        pollUntilGreen attempts

def mergePrIfMergeReadyWithJudge : MergeM MergeOutcome := do
  let snapshot ← viewPr "merge"
  if creativeIdeaPrLabel ∈ snapshot.labels then
    return .refused pr ("PR carries the merge-blocking label `" ++ creativeIdeaPrLabel ++
      "` — a creative-idea PR awaiting human review (@" ++ creativeIdeaOwner ++ "); skipped.")
  else
    match evaluateObjectiveGates snapshot ops.baseAllowlist with
    | .error reason => return .refused pr reason
    | .ok () => do
        let outcome ← Fallible.attempt (.judge snapshot) fun
          | .error e => .error (.capability "merge" e)
          | .ok outcome => .ok outcome
        if outcome.verdict = .ready then do
          Fallible.attempt .squashMerge fun
            | .error e => .error (.capability "merge" e)
            | .ok () => .ok ()
          return .merged pr repo
        else return .refused pr outcome.summary

def notification (title : String) : MergeNotification where
  problem := "Merged: \"" ++ title ++
    "\". It passed every check and review, so Simard merged it " ++
    "for you."
  prTitle := title
  prUrl := "https://github.com/" ++ repo ++ "/pull/" ++ toString pr
  repo := repo
  autonomous := true

/-- The operator is told under the title, or the number where the title cannot be had. -/
def announce : MergeM Unit := do
  let title ← Fallible.attempt .title fun
    | .error _ => .ok ("PR #" ++ toString pr)
    | .ok title => .ok title
  Fallible.attempt (.notify (notification repo pr title)) fun _ => .ok ()

def merge : MergeM Unit := do
  ops.checkAuthor repo pr
  let report ← ops.verify
  if !report.ready then
    let failed := (report.checks.filter fun check => !check.passed).map CheckItem.name
    throw (.capability "merge.verify"
      ("pr-verify not satisfied; failing: " ++ ", ".intercalate failed))
  else do
    ops.pollUntilGreen ops.poll.maxAttempts
    let outcome ← ops.mergePrIfMergeReadyWithJudge repo pr
    match outcome with
    | .merged _ _ => announce repo pr
    | .refused pr reason => throw (.notMergeReady pr reason)

end MergePrOps

end Simard.Merging
