import Simard.Library.Action
import Simard.Library.Ansi
import Simard.Library.Machine
import Simard.Library.Sha256
import Simard.SupplyChain.IgnoreFiles

/-! The supply-chain steward: a scheduled scan decides for each advisory between a bump, a
justified ignore and an escalation, files the tracking issue and opens the pull request. The open
issue is what a later scan knows of an earlier one. -/
namespace Simard.SupplyChain
open Simard.Library Action

inductive PatchStatus where
  | none
  | fixed (requirement : String)
  deriving DecidableEq

structure Advisory where
  id : String
  crateName : String
  installed : String
  patched : PatchStatus
  title : String
  url : String
  deriving DecidableEq

structure RemediationContext where
  resolvablePatch : Option String
  behindGitDep : Bool
  alreadyIgnored : Bool
  deriving DecidableEq

inductive Decision where
  | bump (crateName installed target : String)
  | justifiedIgnore (advisoryId crateName reason : String)
  | escalate (advisoryId reason : String)
  | noAction
  deriving DecidableEq

def decide (advisory : Advisory) (ctx : RemediationContext) : Decision :=
  match advisory.patched with
  | .none =>
      if ctx.alreadyIgnored then .noAction
      else .justifiedIgnore advisory.id advisory.crateName
        (advisory.id ++ " in " ++ advisory.crateName ++
          ": no fixed upstream release is available; " ++
          "not reachable in Simard's usage — tracked for remediation")
  | .fixed _ =>
      if ctx.behindGitDep then
        .escalate advisory.id (advisory.id ++ ": a patched version exists but " ++
          advisory.crateName ++ " is reached only behind a first-party git dependency; the bump " ++
          "belongs in that upstream repo, not Simard's Cargo.lock")
      else
        match ctx.resolvablePatch with
        | some target => .bump advisory.crateName advisory.installed target
        | none =>
          .escalate advisory.id (advisory.id ++ ": a patched version exists but no version " ++
            "satisfying the advisory resolves against Cargo.lock's constraints")

theorem decide_bump {advisory : Advisory} {ctx : RemediationContext}
    {crateName installed target : String}
    (h : decide advisory ctx = .bump crateName installed target) :
    crateName = advisory.crateName ∧ installed = advisory.installed := by
  unfold decide at h
  split at h
  · split at h <;> cases h
  · split at h
    · cases h
    · split at h
      · injection h with hcrate hinstalled
        exact ⟨hcrate.symm, hinstalled.symm⟩
      · cases h

def isAsciiHexDigit (c : Char) : Bool :=
  c.isDigit || ('a' ≤ c && c ≤ 'f') || ('A' ≤ c && c ≤ 'F')

def uuidHyphenOffsets : List Nat := [8, 13, 18, 23]

def isUuidAt (text : List Char) : Bool :=
  36 ≤ text.length &&
    (text.take 36).zipIdx.all fun (c, off) =>
      if uuidHyphenOffsets.contains off then c = '-' else isAsciiHexDigit c

/-- Every identifier of the form `8-4-4-4-12` becomes `<UUID>`; the number counts down the
characters of the one that is being skipped. -/
def redactUuids : Nat → List Char → List Char
  | _, [] => []
  | 0, c :: rest =>
      if isUuidAt (c :: rest) then "<UUID>".toList ++ redactUuids 35 rest else c ::
        redactUuids 0 rest
  | skipped + 1, _ :: rest => redactUuids skipped rest

def isIsoTimestamp (t : List Char) : Bool :=
  19 ≤ (String.ofList t).utf8ByteSize && (t.take 4).all Char.isDigit && t[4]? = some '-' &&
    ((t.drop 5).take 2).all Char.isDigit && t[7]? = some '-' &&
    ((t.drop 8).take 2).all Char.isDigit && t[10]? = some 'T'

def redactToken (t : List Char) : List Char :=
  if t.head? = some '/' then "<PATH>".toList
  else if ["run-", "Run-", "RUN-"].any fun s => s.toList.isPrefixOf t then "<RUNID>".toList
  else if isIsoTimestamp t then "<TS>".toList
  else if 7 ≤ t.length && t.all isAsciiHexDigit then "<HEX>".toList
  else redactUuids 0 t

def normalizeForSignature (msg : String) : List Char :=
  [' '].intercalate ((splitWhitespace (stripAnsi msg.toList)).map redactToken)

def failureSignature (failureKind errorText : String) : String :=
  let digest := Sha256.digest
    (utf8 (failureKind.toList ++ '\n' :: normalizeForSignature errorText))
  String.ofList (hexLower (digest.take 8))

def signatureFor (advisory : Advisory) : String :=
  failureSignature advisory.id advisory.crateName

structure GhIssue where
  number : Nat
  url : String
  title : String
  body : String
  deriving DecidableEq

structure PrSpec where
  branch : String
  title : String
  body : String
  labels : List String
  deriving DecidableEq

/-- The checkout: the crate that was updated since the scan base, and the two ignore files. -/
structure Worktree where
  updated : Option (String × String)
  deny : List Char
  audit : List Char
  deriving DecidableEq

/-- A tracking issue, with the advisory it was filed for. -/
structure Tracker where
  advisory : Advisory
  issue : GhIssue
  deriving DecidableEq

structure PullRequest where
  spec : PrSpec
  commit : Worktree
  deriving DecidableEq

/-- The open issues of the repository, those of others and those of the steward, the pull requests
the steward opened, and its checkout. -/
structure Site where
  others : List GhIssue
  trackers : List Tracker
  pulls : List PullRequest
  tree : Worktree
  deriving DecidableEq

def Site.openIssues (site : Site) : List GhIssue := site.others ++ site.trackers.map (·.issue)

def carries (signature : String) (issue : GhIssue) : Bool :=
  containsText ("stewardship-signature: " ++ signature).toList issue.body.toList

def findExisting (issues : List GhIssue) (signature : String) : Option GhIssue :=
  issues.find? (carries signature)

/-- The tools around the steward: the issue search, the reader of the ignore files, and the lower
case of a text. -/
structure Tools where
  searchIssues : String → List GhIssue → List GhIssue
  finds : ∀ signature issues issue, carries signature issue →
    (issue ∈ searchIssues signature issues ↔ issue ∈ issues)
  ignoredIds : List Char → String → Bool
  toLowercase : String → String

/-- How the creation of an issue or a pull request ends: done, done but reported as a failure, or
not done. -/
inductive Reply where
  | done (number : Nat) (url : String)
  | lost (number : Nat) (url reason : String)
  | refused (reason : String)
  deriving DecidableEq

def Reply.happened : Reply → Bool
  | .done _ _ => true
  | .lost _ _ _ => true
  | .refused _ => false

structure Answers where
  search : Except String Unit
  createIssue : Reply
  resetToScanBase : Except String Unit
  cargoUpdatePrecise : Except String Unit
  readDeny : Except String Unit
  writeDeny : Except String Unit
  readAudit : Except String Unit
  writeAudit : Except String Unit
  hasCiTriggerToken : Bool
  openRemediationPr : Reply
  selfMergeIfGreen : Except String Bool

inductive StewardError where
  | remediationFailed (reason : String)
  | suppressionWithoutTracker (advisoryId : String)
  deriving DecidableEq

inductive RemediationOutcome where
  | openedBumpPr (prNumber : Nat) (url : String) (merged : Bool)
  | filedJustifiedIgnore (advisoryId issueUrl : String) (prNumber : Nat) (prUrl : String)
  | escalated (advisoryId issueUrl : String)
  | skipped (advisoryId reason : String)
  deriving DecidableEq

abbrev StewardAction := Action Site StewardError

def labels (needsCiTrigger : Bool) : List String :=
  "supply-chain" :: if needsCiTrigger then ["needs-CI-trigger"] else []

def issueBody (signature : String) (advisory : Advisory) (action : String) : String :=
  "filed-by: simard-supply-chain-steward\n" ++ ("stewardship-signature: " ++ signature) ++
    ("\nadvisory: " ++ advisory.id ++ "\ncrate: " ++ advisory.crateName ++ "\ninstalled: " ++
      advisory.installed ++ "\n\n## " ++ advisory.title ++ "\n" ++ advisory.url ++
      "\n\n## Action\n" ++ action ++ "\n")

def bumpNote (crateName target : String) : String :=
  "A patched version is available; opening a minimal bump PR (`cargo update -p " ++ crateName ++
    " --precise " ++ target ++ "`)."

def ignoreNote : String :=
  "No fixed upstream release exists; adding a justified, tracked ignore to deny.toml and " ++
  ".cargo/audit.toml."

def escalationNote (reason : String) : String :=
  "Escalation — a fix exists but cannot be auto-applied here: " ++ reason

def prBody (advisory : Advisory) (target issueUrl : String) (canTrigger : Bool) : String :=
  "Proactive supply-chain remediation for **" ++ advisory.id ++ "** (" ++ advisory.crateName ++
    " → " ++ target ++ ").\n\nTracking issue: " ++ issueUrl ++ "\n\nApplied: `cargo update -p " ++
    advisory.crateName ++ " --precise " ++ target ++ "`.\n\n" ++
    (if canTrigger then
      "This PR was opened with a CI-triggering token and self-merges once every required check " ++
      "is green."
    else
      "No CI-triggering bot token was configured, so this PR is labelled `needs-CI-trigger` and " ++
      "will NOT self-merge — re-trigger CI and merge manually.") ++
    "\n"

def ignorePrBody (advisory : Advisory) (issueUrl : String) (canTrigger : Bool) : String :=
  "Proactive supply-chain remediation for **" ++ advisory.id ++ "** (" ++ advisory.crateName ++
    ").\n\nNo fixed upstream release exists, so a justified, tracked ignore is added " ++
    "to `deny.toml` and `.cargo/audit.toml` (kept in sync).\n\nTracking issue: " ++ issueUrl ++
    "\n\n" ++
    (if canTrigger then
      "This PR was opened with a CI-triggering token; review the justification and merge once " ++
      "every required check is green. It is NOT self-merged — a security suppression stays " ++
      "under human review."
    else
      "No CI-triggering bot token was configured, so this PR is labelled `needs-CI-trigger`: " ++
      "re-trigger CI, review the justification, and merge manually. It is never self-merged.") ++
    "\n"

section Steps

variable (tools : Tools) (answers : Answers)

def branchName (advisoryId : String) : String :=
  "chore/advisory-" ++ tools.toLowercase advisoryId

def report {α : Type} (outcome : Except String α) : StewardAction α :=
  check (outcome.mapError .remediationFailed)

def createIssue (advisory : Advisory) (title body : String) : StewardAction GhIssue :=
  match answers.createIssue with
  | .done number url => do
      let issue : GhIssue := ⟨number, url, title, body⟩
      modify fun site => { site with trackers := site.trackers ++ [⟨advisory, issue⟩] }
      return issue
  | .lost number url reason => do
      modify fun site =>
        { site with trackers := site.trackers ++ [⟨advisory, ⟨number, url, title, body⟩⟩] }
      report (.error reason)
  | .refused reason => report (.error reason)

def resetToScanBase (base : Worktree) : StewardAction Unit := do
  report answers.resetToScanBase
  modify fun site => { site with tree := base }

def cargoUpdatePrecise (crateName target : String) : StewardAction Unit := do
  report answers.cargoUpdatePrecise
  modify fun site => { site with tree := { site.tree with updated := some (crateName, target) } }

def editIgnores (editDeny editAudit : List Char → Except String (List Char)) :
    StewardAction Unit := do
  report answers.readDeny
  let deny ← report (editDeny (← get).tree.deny)
  report answers.writeDeny
  modify fun site => { site with tree := { site.tree with deny } }
  report answers.readAudit
  let audit ← report (editAudit (← get).tree.audit)
  report answers.writeAudit
  modify fun site => { site with tree := { site.tree with audit } }

def removeIgnore (id : String) : StewardAction Unit :=
  editIgnores answers (fun deny => .ok (removeIgnoreEntry deny id))
    fun audit => .ok (removeIgnoreEntry audit id)

def addJustifiedIgnore (id reason trackingUrl : String) : StewardAction Unit := do
  if (trim trackingUrl.toList).isEmpty then check (.error (.suppressionWithoutTracker id))
  else
    let fullReason := if containsText trackingUrl.toList reason.toList then reason
      else reason ++ " Tracked: " ++ trackingUrl
    editIgnores answers (fun deny => insertDenyIgnore tools.ignoredIds deny id fullReason)
      fun audit => insertAuditIgnore tools.ignoredIds audit id fullReason

def openRemediationPr (spec : PrSpec) : StewardAction (Nat × String) :=
  match answers.openRemediationPr with
  | .done number url => do
      modify fun site => { site with pulls := site.pulls ++ [⟨spec, site.tree⟩] }
      return (number, url)
  | .lost _ _ reason => do
      modify fun site => { site with pulls := site.pulls ++ [⟨spec, site.tree⟩] }
      report (.error reason)
  | .refused reason => report (.error reason)

def bumpSpec (advisory : Advisory) (crateName target issueUrl : String) (canTrigger : Bool) :
    PrSpec where
  branch := branchName tools advisory.id
  title := "chore(deps): " ++ advisory.id ++ " — bump " ++ crateName ++ " to " ++ target
  body := prBody advisory target issueUrl canTrigger
  labels := labels (!canTrigger)

def executeBump (advisory : Advisory) (signature crateName installed target : String)
    (base : Worktree) : StewardAction RemediationOutcome := do
  let issue ← createIssue answers advisory
    ("[supply-chain] " ++ advisory.id ++ ": bump " ++ crateName ++ " " ++
      installed ++ " → " ++ target)
    (issueBody signature advisory (bumpNote crateName target))
  resetToScanBase answers base
  cargoUpdatePrecise answers crateName target
  removeIgnore answers advisory.id
  let (number, url) ← openRemediationPr answers
    (bumpSpec tools advisory crateName target issue.url answers.hasCiTriggerToken)
  let merged ← if answers.hasCiTriggerToken then report answers.selfMergeIfGreen else pure false
  return .openedBumpPr number url merged

def executeJustifiedIgnore (advisory : Advisory) (signature advisoryId crateName reason : String)
    (base : Worktree) : StewardAction RemediationOutcome := do
  let issue ← createIssue answers advisory
    ("[supply-chain] " ++ advisoryId ++ ": no upstream fix for " ++ crateName ++
      " — justified ignore")
    (issueBody signature advisory ignoreNote)
  if (trim issue.url.toList).isEmpty then check (.error (.suppressionWithoutTracker advisoryId))
  else
    resetToScanBase answers base
    addJustifiedIgnore tools answers advisoryId reason issue.url
    let (number, url) ← openRemediationPr answers {
      branch := branchName tools advisoryId
      title := "chore(deps): " ++ advisoryId ++ " — justified ignore for " ++ crateName
      body := ignorePrBody advisory issue.url answers.hasCiTriggerToken
      labels := labels (!answers.hasCiTriggerToken) }
    return .filedJustifiedIgnore advisoryId issue.url number url

def executeEscalate (advisory : Advisory) (signature advisoryId reason : String) :
    StewardAction RemediationOutcome := do
  let issue ← createIssue answers advisory
    ("[supply-chain] " ++ advisoryId ++ ": manual remediation required")
    (issueBody signature advisory (escalationNote reason))
  return .escalated advisoryId issue.url

def carryOut (decision : Decision) (advisory : Advisory) (base : Worktree) :
    StewardAction RemediationOutcome :=
  let signature := signatureFor advisory
  match decision with
  | .noAction =>
      return .skipped advisory.id "already mitigated: justified ignore with no upstream fix"
  | .bump crateName installed target =>
      executeBump tools answers advisory signature crateName installed target base
  | .justifiedIgnore advisoryId crateName reason =>
      executeJustifiedIgnore tools answers advisory signature advisoryId crateName reason base
  | .escalate advisoryId reason => executeEscalate answers advisory signature advisoryId reason

def execute (decision : Decision) (advisory : Advisory) (base : Worktree) :
    StewardAction RemediationOutcome := do
  let signature := signatureFor advisory
  report answers.search
  match findExisting (tools.searchIssues signature (← get).openIssues) signature with
  | some issue =>
      return .skipped advisory.id ("tracking issue already open: " ++ issue.url)
  | none => carryOut tools answers decision advisory base

end Steps

/-- One advisory's turn in a scan: what the audit reports of it, what the driver resolved, the
commit the scan started from, and how the steps end. -/
structure Turn where
  advisory : Advisory
  context : RemediationContext
  base : Worktree
  answers : Answers

def Turn.decision (turn : Turn) : Decision := decide turn.advisory turn.context

/-- Scans take their advisories in turn; between the turns other issues may be opened. Whatever a
turn returns, the scan goes on with the next. -/
inductive SiteEvent where
  | turn (turn : Turn)
  | issueOpened (issue : GhIssue)

def remediate (tools : Tools) (turn : Turn) : StewardAction RemediationOutcome :=
  execute tools turn.answers turn.decision turn.advisory turn.base

def Site.step (tools : Tools) (site : Site) : SiteEvent → Site
  | .turn turn => (call (remediate tools turn) site).2
  | .issueOpened issue => { site with others := site.others ++ [issue] }

def siteMachine (tools : Tools) : Machine Site SiteEvent := ⟨Site.step tools⟩

theorem siteMachine_turn (tools : Tools) (site : Site) (turn : Turn) :
    (siteMachine tools).step site (.turn turn) = (call (remediate tools turn) site).2 := rfl

end Simard.SupplyChain
