import Simard.Library.Serde
import Simard.TypedOoda.Types

/-! The JSON form of the ledger's vocabulary. Field and variant names are those
on the wire; `OpaqueBytes` travels as canonical padded base64. Every codec reads
back what it wrote, so a stored document determines its record. -/
namespace Simard.TypedOoda
open Simard.Library

instance : Serde OpaqueBytes where
  toJson bytes := .obj [("encoding", .str "base64"),
    ("data", .str (String.ofList (Base64.encode bytes.asBytes)))]
  fromJson document := do
    let encoding : String ← document.get "encoding"
    let data : String ← document.get "data"
    if encoding = "base64" then
      let decoded ← Base64.decode data.toList
      if Base64.encode decoded = data.toList then some ⟨decoded⟩ else none
    else none
  fromJson_toJson bytes := by simp

instance : Serde RepositoryRef where
  toJson r := .obj [("owner", toJson r.owner), ("name", toJson r.name)]
  fromJson document := do some ⟨← document.get "owner", ← document.get "name"⟩
  fromJson_toJson r := by simp

instance : Serde BaseType where
  toJson
    | .copilot => .str "copilot"
    | .rustyClawd => .str "rusty_clawd"
  fromJson
    | .str "copilot" => some .copilot
    | .str "rusty_clawd" => some .rustyClawd
    | _ => none
  fromJson_toJson value := by cases value <;> rfl

instance : Serde ActionKind where
  toJson
    | .spawnEngineer => .str "spawn_engineer"
    | .fileIssue => .str "file_issue"
    | .requestMerge => .str "request_merge"
    | .requestDeploy => .str "request_deploy"
  fromJson
    | .str "spawn_engineer" => some .spawnEngineer
    | .str "file_issue" => some .fileIssue
    | .str "request_merge" => some .requestMerge
    | .str "request_deploy" => some .requestDeploy
    | _ => none
  fromJson_toJson value := by cases value <;> rfl

instance : Variant SpawnEngineerAction where
  fields a := [("task", toJson a.task), ("repository", toJson a.repository),
    ("base_type", toJson a.baseType), ("requested_permissions", toJson a.requestedPermissions),
    ("claim_key", toJson a.claimKey)]
  read document := do
    some ⟨← document.get "task", ← document.get "repository", ← document.get "base_type",
      ← document.get "requested_permissions", ← document.get "claim_key"⟩
  read_fields a := by simp
  read_tagged kind a := by simp

instance : Variant FileIssueAction where
  fields a := [("repository", toJson a.repository), ("title", toJson a.title),
    ("body", toJson a.body), ("labels", toJson a.labels)]
  read document := do
    some ⟨← document.get "repository", ← document.get "title", ← document.get "body",
      ← document.get "labels"⟩
  read_fields a := by simp
  read_tagged kind a := by simp

instance : Serde PullRequestRef where
  toJson a := .obj [("repository", toJson a.repository), ("number", toJson a.number)]
  fromJson document := do some ⟨← document.get "repository", ← document.get "number"⟩
  fromJson_toJson a := by simp

instance : Variant RequestMergeAction where
  fields a := [("pull_request", toJson a.pullRequest),
    ("expected_head_sha", toJson a.expectedHeadSha), ("strategy", toJson a.strategy)]
  read document := do
    some ⟨← document.get "pull_request", ← document.get "expected_head_sha",
      ← document.get "strategy"⟩
  read_fields a := by simp
  read_tagged kind a := by simp

instance : Serde ArtifactRef where
  toJson a := .obj [("digest", toJson a.digest), ("source_commit", toJson a.sourceCommit)]
  fromJson document := do some ⟨← document.get "digest", ← document.get "source_commit"⟩
  fromJson_toJson a := by simp

instance : Serde EnvironmentRef where
  toJson a := .obj [("name", toJson a.name)]
  fromJson document := do some ⟨← document.get "name"⟩
  fromJson_toJson a := by simp

instance : Serde BackupPolicy where
  toJson | .verifiedFull => .str "verified_full"
  fromJson
    | .str "verified_full" => some .verifiedFull
    | _ => none
  fromJson_toJson value := by cases value; rfl

instance : Variant RequestDeployAction where
  fields a := [("artifact", toJson a.artifact), ("environment", toJson a.environment),
    ("backup_policy", toJson a.backupPolicy)]
  read document := do
    some ⟨← document.get "artifact", ← document.get "environment",
      ← document.get "backup_policy"⟩
  read_fields a := by simp
  read_tagged kind a := by simp

instance : Serde Action where
  toJson
    | .spawnEngineer a => tagged "spawn_engineer" a
    | .fileIssue a => tagged "file_issue" a
    | .requestMerge a => tagged "request_merge" a
    | .requestDeploy a => tagged "request_deploy" a
  fromJson document := byKind document fun
    | "spawn_engineer" => (Variant.read document).map .spawnEngineer
    | "file_issue" => (Variant.read document).map .fileIssue
    | "request_merge" => (Variant.read document).map .requestMerge
    | "request_deploy" => (Variant.read document).map .requestDeploy
    | _ => none
  fromJson_toJson a := by cases a <;> simp

instance : Serde EvidenceRef where
  toJson
    | .commit repository sha => .obj [("kind", .str "commit"),
        ("repository", toJson repository), ("sha", toJson sha)]
    | .checkRun repository checkId conclusion => .obj [("kind", .str "check_run"),
        ("repository", toJson repository), ("check_id", toJson checkId),
        ("conclusion", toJson conclusion)]
    | .issue repository number => .obj [("kind", .str "issue"),
        ("repository", toJson repository), ("number", toJson number)]
    | .engineerRun sessionId claimKey => .obj [("kind", .str "engineer_run"),
        ("session_id", toJson sessionId), ("claim_key", toJson claimKey)]
  fromJson document := byKind document fun
    | "commit" => do some (.commit (← document.get "repository") (← document.get "sha"))
    | "check_run" => do
        some (.checkRun (← document.get "repository") (← document.get "check_id")
          (← document.get "conclusion"))
    | "issue" => do some (.issue (← document.get "repository") (← document.get "number"))
    | "engineer_run" => do
        some (.engineerRun (← document.get "session_id") (← document.get "claim_key"))
    | _ => none
  fromJson_toJson a := by cases a <;> simp

instance : Serde BlockerRef where
  toJson
    | .goal goalId => .obj [("kind", .str "goal"), ("goal_id", toJson goalId)]
    | .credential name => .obj [("kind", .str "credential"), ("name", toJson name)]
    | .authorization capability => .obj [("kind", .str "authorization"),
        ("capability", toJson capability)]
    | .resource resource => .obj [("kind", .str "resource"), ("resource", toJson resource)]
    | .operator identity => .obj [("kind", .str "operator"), ("identity", toJson identity)]
    | .external provider reference => .obj [("kind", .str "external"),
        ("provider", toJson provider), ("reference", toJson reference)]
  fromJson document := byKind document fun
    | "goal" => do some (.goal (← document.get "goal_id"))
    | "credential" => do some (.credential (← document.get "name"))
    | "authorization" => do some (.authorization (← document.get "capability"))
    | "resource" => do some (.resource (← document.get "resource"))
    | "operator" => do some (.operator (← document.get "identity"))
    | "external" => do
        some (.external (← document.get "provider") (← document.get "reference"))
    | _ => none
  fromJson_toJson a := by cases a <;> simp

instance : Serde RetryPolicy where
  toJson
    | .never => .obj [("kind", .str "never")]
    | .afterGoal goalId => .obj [("kind", .str "after_goal"), ("goal_id", toJson goalId)]
    | .afterSignal provider signalId => .obj [("kind", .str "after_signal"),
        ("provider", toJson provider), ("signal_id", toJson signalId)]
    | .afterTime unixMillis => .obj [("kind", .str "after_time"),
        ("unix_millis", toJson unixMillis)]
  fromJson document := byKind document fun
    | "never" => some .never
    | "after_goal" => do some (.afterGoal (← document.get "goal_id"))
    | "after_signal" => do
        some (.afterSignal (← document.get "provider") (← document.get "signal_id"))
    | "after_time" => do some (.afterTime (← document.get "unix_millis"))
    | _ => none
  fromJson_toJson a := by cases a <;> simp

instance : Serde CompletionRef where
  toJson a := .obj [("criterion_id", toJson a.criterionId),
    ("verification_evidence", toJson a.verificationEvidence)]
  fromJson document := do
    some ⟨← document.get "criterion_id", ← document.get "verification_evidence"⟩
  fromJson_toJson a := by simp

instance : Serde TerminalRequestIdentity where
  toJson a := .obj [("request_id", toJson a.requestId), ("session_id", toJson a.sessionId),
    ("cycle_id", toJson a.cycleId), ("goal_id", toJson a.goalId)]
  fromJson document := do
    some ⟨← document.get "request_id", ← document.get "session_id",
      ← document.get "cycle_id", ← document.get "goal_id"⟩
  fromJson_toJson a := by simp

instance : Serde RecordActionRequest where
  toJson a := .obj [("identity", toJson a.identity), ("action", toJson a.action),
    ("raw_semantic", toJson a.rawSemantic), ("evidence", toJson a.evidence)]
  fromJson document := do
    some ⟨← document.get "identity", ← document.get "action", ← document.get "raw_semantic",
      ← document.get "evidence"⟩
  fromJson_toJson a := by simp

instance : Serde RecordNoActionRequest where
  toJson a := .obj [("identity", toJson a.identity), ("reason", toJson a.reason),
    ("raw_semantic", toJson a.rawSemantic), ("evidence", toJson a.evidence)]
  fromJson document := do
    some ⟨← document.get "identity", ← document.get "reason", ← document.get "raw_semantic",
      ← document.get "evidence"⟩
  fromJson_toJson a := by simp

instance : Serde RecordBlockedRequest where
  toJson a := .obj [("identity", toJson a.identity), ("reason", toJson a.reason),
    ("blocker", toJson a.blocker), ("retry", toJson a.retry),
    ("raw_semantic", toJson a.rawSemantic), ("evidence", toJson a.evidence)]
  fromJson document := do
    some ⟨← document.get "identity", ← document.get "reason", ← document.get "blocker",
      ← document.get "retry", ← document.get "raw_semantic", ← document.get "evidence"⟩
  fromJson_toJson a := by simp

instance : Serde RecordCompletedRequest where
  toJson a := .obj [("identity", toJson a.identity), ("summary", toJson a.summary),
    ("completion", toJson a.completion), ("raw_semantic", toJson a.rawSemantic),
    ("evidence", toJson a.evidence)]
  fromJson document := do
    some ⟨← document.get "identity", ← document.get "summary", ← document.get "completion",
      ← document.get "raw_semantic", ← document.get "evidence"⟩
  fromJson_toJson a := by simp

instance : Serde RecordProgressRequest where
  toJson a := .obj [("identity", toJson a.identity), ("percent", toJson a.percent),
    ("summary", toJson a.summary), ("evidence", toJson a.evidence)]
  fromJson document := do
    some ⟨← document.get "identity", ← document.get "percent", ← document.get "summary",
      ← document.get "evidence"⟩
  fromJson_toJson a := by simp

instance : Serde ProcessExecRequest where
  toJson a := .obj [("identity", toJson a.identity), ("program", toJson a.program),
    ("args", toJson a.args), ("working_directory", toJson a.workingDirectory)]
  fromJson document := do
    some ⟨← document.get "identity", ← document.get "program", ← document.get "args",
      ← document.get "working_directory"⟩
  fromJson_toJson a := by simp

instance : Serde CapabilityGrant where
  toJson
    | .recordAction kind => .obj [("record_action", toJson kind)]
    | .recordNoAction => .str "record_no_action"
    | .recordBlocked => .str "record_blocked"
    | .recordCompleted => .str "record_completed"
    | .recordProgress => .str "record_progress"
    | .processExec => .str "process_exec"
    | .directMerge => .str "direct_merge"
    | .directDeploy => .str "direct_deploy"
  fromJson
    | .str "record_no_action" => some .recordNoAction
    | .str "record_blocked" => some .recordBlocked
    | .str "record_completed" => some .recordCompleted
    | .str "record_progress" => some .recordProgress
    | .str "process_exec" => some .processExec
    | .str "direct_merge" => some .directMerge
    | .str "direct_deploy" => some .directDeploy
    | document => (document.get "record_action").map .recordAction
  fromJson_toJson a := by cases a <;> simp

instance : Serde ProcessExecutionStatus where
  toJson
    | .reserved => .str "reserved"
    | .running => .str "running"
    | .completed => .str "completed"
    | .failed => .str "failed"
    | .indeterminate => .str "indeterminate"
  fromJson
    | .str "reserved" => some .reserved
    | .str "running" => some .running
    | .str "completed" => some .completed
    | .str "failed" => some .failed
    | .str "indeterminate" => some .indeterminate
    | _ => none
  fromJson_toJson value := by cases value <;> rfl

instance : Serde ProcessExecutionRecord where
  toJson a := .obj [("execution_id", toJson a.executionId), ("request_id", toJson a.requestId),
    ("session_id", toJson a.sessionId), ("cycle_id", toJson a.cycleId),
    ("goal_id", toJson a.goalId), ("status", toJson a.status),
    ("exit_code", toJson a.exitCode), ("stdout", toJson a.stdout), ("stderr", toJson a.stderr)]
  fromJson document := do
    some ⟨← document.get "execution_id", ← document.get "request_id",
      ← document.get "session_id", ← document.get "cycle_id", ← document.get "goal_id",
      ← document.get "status", ← document.getOption "exit_code", ← document.get "stdout",
      ← document.get "stderr"⟩
  fromJson_toJson a := by simp

instance : Serde AdmissionDecision where
  toJson a := .obj [("policy_revision", toJson a.policyRevision)]
  fromJson document := do some ⟨← document.get "policy_revision"⟩
  fromJson_toJson a := by simp

instance : Serde TerminalKind where
  toJson
    | .action => .str "action"
    | .noAction => .str "no_action"
    | .blocked => .str "blocked"
    | .completed => .str "completed"
  fromJson
    | .str "action" => some .action
    | .str "no_action" => some .noAction
    | .str "blocked" => some .blocked
    | .str "completed" => some .completed
    | _ => none
  fromJson_toJson value := by cases value <;> rfl

instance : Variant ActionOutcomePayload where
  fields a := [("action", toJson a.action), ("admission", toJson a.admission)]
  read document := do some ⟨← document.get "action", ← document.get "admission"⟩
  read_fields a := by simp
  read_tagged kind a := by simp

instance : Variant NoActionOutcomePayload where
  fields a := [("reason", toJson a.reason)]
  read document := do some ⟨← document.get "reason"⟩
  read_fields a := by simp
  read_tagged kind a := by simp

instance : Variant BlockedOutcomePayload where
  fields a := [("reason", toJson a.reason), ("blocker", toJson a.blocker),
    ("retry", toJson a.retry)]
  read document := do
    some ⟨← document.get "reason", ← document.get "blocker", ← document.get "retry"⟩
  read_fields a := by simp
  read_tagged kind a := by simp

instance : Variant CompletedOutcomePayload where
  fields a := [("summary", toJson a.summary), ("completion", toJson a.completion)]
  read document := do some ⟨← document.get "summary", ← document.get "completion"⟩
  read_fields a := by simp
  read_tagged kind a := by simp

instance : Serde TypedOutcomePayload where
  toJson
    | .action a => tagged "action" a
    | .noAction a => tagged "no_action" a
    | .blocked a => tagged "blocked" a
    | .completed a => tagged "completed" a
  fromJson document := byKind document fun
    | "action" => (Variant.read document).map .action
    | "no_action" => (Variant.read document).map .noAction
    | "blocked" => (Variant.read document).map .blocked
    | "completed" => (Variant.read document).map .completed
    | _ => none
  fromJson_toJson a := by cases a <;> simp

instance : Serde.Present RepositoryRef := ⟨fun _ h => nomatch h⟩

instance : Serde TerminalOutcome where
  toJson a := .obj [("outcome_id", toJson a.outcomeId), ("request_id", toJson a.requestId),
    ("session_id", toJson a.sessionId), ("actor_identity", toJson a.actorIdentity),
    ("repository", toJson a.repository), ("goal_id", toJson a.goalId),
    ("cycle_id", toJson a.cycleId), ("kind", toJson a.kind), ("payload", toJson a.payload),
    ("raw_semantic", toJson a.rawSemantic), ("evidence", toJson a.evidence),
    ("recorded_at_unix_millis", toJson a.recordedAtUnixMillis)]
  fromJson document := do
    some ⟨← document.get "outcome_id", ← document.get "request_id",
      ← document.get "session_id", ← document.get "actor_identity",
      ← document.getOption "repository", ← document.get "goal_id", ← document.get "cycle_id",
      ← document.get "kind", ← document.get "payload", ← document.get "raw_semantic",
      ← document.get "evidence", ← document.get "recorded_at_unix_millis"⟩
  fromJson_toJson a := by simp

instance : Serde ProgressRecord where
  toJson a := .obj [("progress_id", toJson a.progressId), ("request_id", toJson a.requestId),
    ("session_id", toJson a.sessionId), ("actor_identity", toJson a.actorIdentity),
    ("goal_id", toJson a.goalId), ("cycle_id", toJson a.cycleId), ("percent", toJson a.percent),
    ("summary", toJson a.summary), ("evidence", toJson a.evidence),
    ("recorded_at_unix_millis", toJson a.recordedAtUnixMillis)]
  fromJson document := do
    some ⟨← document.get "progress_id", ← document.get "request_id",
      ← document.get "session_id", ← document.get "actor_identity", ← document.get "goal_id",
      ← document.get "cycle_id", ← document.get "percent", ← document.get "summary",
      ← document.get "evidence", ← document.get "recorded_at_unix_millis"⟩
  fromJson_toJson a := by simp

end Simard.TypedOoda
