import Simard.Library.BTreeSet
import Simard.Library.Text

/-! The vocabulary of the typed outcome ledger: actions, evidence, requests,
terminal outcomes, the authenticated actor and the capability policy, with the
checks that guard them. -/
namespace Simard.TypedOoda
open Simard.Library

inductive CapabilityErrorCode where
  | invalidArgument
  | invalidIdentifier
  | payloadTooLarge
  | unauthenticated
  | permissionDenied
  | authorizationScopeViolation
  | admissionRejected
  | stateTransitionRejected
  | idempotencyConflict
  | requestConflict
  | terminalAlreadyRecorded
  | staleLease
  | mutationCapExhausted
  | indeterminateExecution
  | persistenceFailed
  deriving DecidableEq

structure CapabilityError where
  code : CapabilityErrorCode
  message : String
  deriving DecidableEq

abbrev CapabilityResult := Except CapabilityError

def ensure (condition : Bool) (code : CapabilityErrorCode) (message : String) :
    CapabilityResult Unit :=
  if condition then .ok () else .error ⟨code, message⟩

structure OpaqueBytes where
  asBytes : List UInt8
  deriving DecidableEq

def OpaqueBytes.ofText (s : String) : OpaqueBytes :=
  ⟨s.toList.flatMap String.utf8EncodeChar⟩

structure RepositoryRef where
  owner : String
  name : String
  deriving DecidableEq

/-- A bare name belongs to the default owner; an absent slug is the default
repository; an owner-qualified slug is split at its first slash. -/
def RepositoryRef.fromGoalSlug : Option String → RepositoryRef
  | none => ⟨"rysweet", "Simard"⟩
  | some value =>
      match splitOnce '/' value with
      | some (owner, name) => ⟨owner, name⟩
      | none => ⟨"rysweet", value⟩

inductive BaseType where
  | copilot
  | rustyClawd
  deriving DecidableEq

inductive ActionKind where
  | spawnEngineer
  | fileIssue
  | requestMerge
  | requestDeploy
  deriving DecidableEq

structure SpawnEngineerAction where
  task : OpaqueBytes
  repository : RepositoryRef
  baseType : BaseType
  requestedPermissions : BTreeSet String
  claimKey : String
  deriving DecidableEq

structure FileIssueAction where
  repository : RepositoryRef
  title : OpaqueBytes
  body : OpaqueBytes
  labels : List String
  deriving DecidableEq

structure PullRequestRef where
  repository : RepositoryRef
  number : Nat
  deriving DecidableEq

structure RequestMergeAction where
  pullRequest : PullRequestRef
  expectedHeadSha : String
  strategy : String
  deriving DecidableEq

structure ArtifactRef where
  digest : String
  sourceCommit : String
  deriving DecidableEq

structure EnvironmentRef where
  name : String
  deriving DecidableEq

inductive BackupPolicy where
  | verifiedFull
  deriving DecidableEq

structure RequestDeployAction where
  artifact : ArtifactRef
  environment : EnvironmentRef
  backupPolicy : BackupPolicy
  deriving DecidableEq

inductive Action where
  | spawnEngineer (value : SpawnEngineerAction)
  | fileIssue (value : FileIssueAction)
  | requestMerge (value : RequestMergeAction)
  | requestDeploy (value : RequestDeployAction)
  deriving DecidableEq

namespace Action

def kind : Action → ActionKind
  | .spawnEngineer _ => .spawnEngineer
  | .fileIssue _ => .fileIssue
  | .requestMerge _ => .requestMerge
  | .requestDeploy _ => .requestDeploy

def repository : Action → Option RepositoryRef
  | .spawnEngineer value => some value.repository
  | .fileIssue value => some value.repository
  | .requestMerge value => some value.pullRequest.repository
  | .requestDeploy _ => none

/-- The actions a worker may run only with a server-issued approval. -/
def privileged : Action → Bool
  | .requestMerge _ => true
  | .requestDeploy _ => true
  | _ => false

end Action

inductive EvidenceRef where
  | commit (repository : RepositoryRef) (sha : String)
  | checkRun (repository : RepositoryRef) (checkId : Nat) (conclusion : String)
  | issue (repository : RepositoryRef) (number : Nat)
  | engineerRun (sessionId claimKey : String)
  deriving DecidableEq

inductive BlockerRef where
  | goal (goalId : String)
  | credential (name : String)
  | authorization (capability : String)
  | resource (resource : String)
  | operator (identity : String)
  | external (provider reference : String)
  deriving DecidableEq

inductive RetryPolicy where
  | never
  | afterGoal (goalId : String)
  | afterSignal (provider signalId : String)
  | afterTime (unixMillis : Int)
  deriving DecidableEq

structure CompletionRef where
  criterionId : String
  verificationEvidence : List EvidenceRef
  deriving DecidableEq

structure TerminalRequestIdentity where
  requestId : String
  sessionId : String
  cycleId : String
  goalId : String
  deriving DecidableEq

structure RecordActionRequest where
  identity : TerminalRequestIdentity
  action : Action
  rawSemantic : OpaqueBytes
  evidence : List EvidenceRef
  deriving DecidableEq

structure RecordNoActionRequest where
  identity : TerminalRequestIdentity
  reason : OpaqueBytes
  rawSemantic : OpaqueBytes
  evidence : List EvidenceRef
  deriving DecidableEq

structure RecordBlockedRequest where
  identity : TerminalRequestIdentity
  reason : OpaqueBytes
  blocker : BlockerRef
  retry : RetryPolicy
  rawSemantic : OpaqueBytes
  evidence : List EvidenceRef
  deriving DecidableEq

structure RecordCompletedRequest where
  identity : TerminalRequestIdentity
  summary : OpaqueBytes
  completion : CompletionRef
  rawSemantic : OpaqueBytes
  evidence : List EvidenceRef
  deriving DecidableEq

structure RecordProgressRequest where
  identity : TerminalRequestIdentity
  percent : Nat
  summary : OpaqueBytes
  evidence : List EvidenceRef
  deriving DecidableEq

structure ProcessExecRequest where
  identity : TerminalRequestIdentity
  program : String
  args : List String
  workingDirectory : String
  deriving DecidableEq

inductive ProcessExecutionStatus where
  | reserved
  | running
  | completed
  | failed
  | indeterminate
  deriving DecidableEq

structure ProcessExecutionRecord where
  executionId : String
  requestId : String
  sessionId : String
  cycleId : String
  goalId : String
  status : ProcessExecutionStatus
  exitCode : Option Int
  stdout : List UInt8
  stderr : List UInt8
  deriving DecidableEq

structure AdmissionSnapshot where
  concurrentEngineers : Nat
  diskUsedPercent : Nat
  activeClaims : BTreeSet String
  policyRevision : String
  deriving DecidableEq

structure AdmissionDecision where
  policyRevision : String
  deriving DecidableEq

inductive TerminalKind where
  | action
  | noAction
  | blocked
  | completed
  deriving DecidableEq

structure ActionOutcomePayload where
  action : Action
  admission : AdmissionDecision
  deriving DecidableEq

structure NoActionOutcomePayload where
  reason : OpaqueBytes
  deriving DecidableEq

structure BlockedOutcomePayload where
  reason : OpaqueBytes
  blocker : BlockerRef
  retry : RetryPolicy
  deriving DecidableEq

structure CompletedOutcomePayload where
  summary : OpaqueBytes
  completion : CompletionRef
  deriving DecidableEq

inductive TypedOutcomePayload where
  | action (value : ActionOutcomePayload)
  | noAction (value : NoActionOutcomePayload)
  | blocked (value : BlockedOutcomePayload)
  | completed (value : CompletedOutcomePayload)
  deriving DecidableEq

def TypedOutcomePayload.kind : TypedOutcomePayload → TerminalKind
  | .action _ => .action
  | .noAction _ => .noAction
  | .blocked _ => .blocked
  | .completed _ => .completed

def TypedOutcomePayload.action? : TypedOutcomePayload → Option Action
  | .action value => some value.action
  | _ => none

structure TerminalOutcome where
  outcomeId : String
  requestId : String
  sessionId : String
  actorIdentity : String
  repository : Option RepositoryRef
  goalId : String
  cycleId : String
  kind : TerminalKind
  payload : TypedOutcomePayload
  rawSemantic : OpaqueBytes
  evidence : List EvidenceRef
  recordedAtUnixMillis : Int
  deriving DecidableEq

structure ProgressRecord where
  progressId : String
  requestId : String
  sessionId : String
  actorIdentity : String
  goalId : String
  cycleId : String
  percent : Nat
  summary : OpaqueBytes
  evidence : List EvidenceRef
  recordedAtUnixMillis : Int
  deriving DecidableEq

inductive CapabilityGrant where
  | recordAction (kind : ActionKind)
  | recordNoAction
  | recordBlocked
  | recordCompleted
  | recordProgress
  | processExec
  | directMerge
  | directDeploy
  deriving DecidableEq

namespace CapabilityGrant

def rank : CapabilityGrant → Nat
  | .recordAction .spawnEngineer => 0
  | .recordAction .fileIssue => 1
  | .recordAction .requestMerge => 2
  | .recordAction .requestDeploy => 3
  | .recordNoAction => 4
  | .recordBlocked => 5
  | .recordCompleted => 6
  | .recordProgress => 7
  | .processExec => 8
  | .directMerge => 9
  | .directDeploy => 10

theorem rank_injective : Function.Injective rank := by
  intro a b h
  cases a with
  | recordAction k =>
    cases b with
    | recordAction l => cases k <;> cases l <;> first | rfl | cases h
    | _ => cases k <;> cases h
  | _ =>
    cases b with
    | recordAction l => cases l <;> cases h
    | _ => first | rfl | cases h

instance : LinearOrder CapabilityGrant := LinearOrder.lift' rank rank_injective

def debug : CapabilityGrant → String
  | .recordAction .spawnEngineer => "RecordAction(SpawnEngineer)"
  | .recordAction .fileIssue => "RecordAction(FileIssue)"
  | .recordAction .requestMerge => "RecordAction(RequestMerge)"
  | .recordAction .requestDeploy => "RecordAction(RequestDeploy)"
  | .recordNoAction => "RecordNoAction"
  | .recordBlocked => "RecordBlocked"
  | .recordCompleted => "RecordCompleted"
  | .recordProgress => "RecordProgress"
  | .processExec => "ProcessExec"
  | .directMerge => "DirectMerge"
  | .directDeploy => "DirectDeploy"

end CapabilityGrant

structure AuthenticatedToolContext where
  actorIdentity : String
  sessionId : String
  grants : BTreeSet CapabilityGrant
  boundRepository : Option RepositoryRef
  boundCycleId : Option String
  boundGoalId : Option String
  boundWorkingDirectory : Option String
  engineerPermissions : BTreeSet String
  observeOnly : Bool
  deriving DecidableEq

namespace AuthenticatedToolContext

def new (actorIdentity sessionId : String) (grants : List CapabilityGrant) :
    AuthenticatedToolContext where
  actorIdentity := actorIdentity
  sessionId := sessionId
  grants := BTreeSet.ofList grants
  boundRepository := none
  boundCycleId := none
  boundGoalId := none
  boundWorkingDirectory := none
  engineerPermissions := ∅
  observeOnly := false

def allows (actor : AuthenticatedToolContext) (grant : CapabilityGrant) : Bool :=
  actor.grants.contains grant

end AuthenticatedToolContext

structure CapabilityPolicy where
  revision : String
  grants : BTreeSet CapabilityGrant
  maxSemanticPayloadBytes : Nat
  maxConcurrentEngineers : Nat
  maxDiskUsedPercent : Nat
  allowedRepositories : List RepositoryRef
  allowedRepositoryOwners : BTreeSet String
  allowedEngineerPermissions : BTreeSet String
  allowedDeploymentEnvironments : BTreeSet String
  processExecMutationsPerCycle : Nat
  deriving DecidableEq

def copilotEngineerPermissions : List String :=
  ["repo_read", "repo_write", "process_exec", "github_issue_write", "github_pr_write"]

namespace CapabilityPolicy

def new (revision : String) : CapabilityPolicy where
  revision := revision
  grants := BTreeSet.ofList [.recordAction .spawnEngineer, .recordAction .fileIssue,
    .recordAction .requestMerge, .recordAction .requestDeploy, .recordNoAction,
    .recordBlocked, .recordCompleted, .recordProgress, .processExec]
  maxSemanticPayloadBytes := 1024 * 1024
  maxConcurrentEngineers := 8
  maxDiskUsedPercent := 90
  allowedRepositories := [⟨"rysweet", "Simard"⟩]
  allowedRepositoryOwners := BTreeSet.ofList ["rysweet"]
  allowedEngineerPermissions := BTreeSet.ofList copilotEngineerPermissions
  allowedDeploymentEnvironments := BTreeSet.ofList ["production"]
  processExecMutationsPerCycle := 8

def allows (policy : CapabilityPolicy) (grant : CapabilityGrant) : Bool :=
  policy.grants.contains grant

end CapabilityPolicy

def isIdentifierChar (c : Char) : Bool :=
  c.isAlphanum || c = '-' || c = '_' || c = '.' || c = '/' || c = ':'

def isIdentifier (value : String) : Bool :=
  !value.toList.isEmpty && value.utf8ByteSize ≤ 128 && value.toList.all isIdentifierChar

def validateIdentifier (name value : String) : CapabilityResult Unit :=
  ensure (isIdentifier value) .invalidIdentifier
    (name ++ " must be 1..=128 safe ASCII characters")

def validateRepository (repository : RepositoryRef) : CapabilityResult Unit := do
  validateIdentifier "repository owner" repository.owner
  validateIdentifier "repository name" repository.name

def isHexDigit (c : Char) : Bool :=
  c.isDigit || ('a' ≤ c && c ≤ 'f') || ('A' ≤ c && c ≤ 'F')

def validateSha (sha : String) : CapabilityResult Unit :=
  ensure (sha.utf8ByteSize = 40 && sha.toList.all isHexDigit) .invalidArgument
    "commit SHA must contain exactly 40 hexadecimal characters"

def validateEvidenceItem : EvidenceRef → CapabilityResult Unit
  | .commit repository sha => do
      validateRepository repository
      validateSha sha
  | .checkRun repository checkId conclusion => do
      validateRepository repository
      ensure (checkId != 0 && conclusion != "") .invalidArgument
        "check evidence requires a nonzero id and conclusion"
  | .issue repository number => do
      validateRepository repository
      ensure (number != 0) .invalidArgument "issue number must be nonzero"
  | .engineerRun sessionId claimKey => do
      validateIdentifier "engineer session id" sessionId
      validateIdentifier "claim key" claimKey

def validateEvidence (evidence : List EvidenceRef) : CapabilityResult Unit := do
  ensure (decide evidence.Nodup) .invalidArgument "duplicate evidence reference"
  evidence.forM validateEvidenceItem

end Simard.TypedOoda
