import Simard.Library.Action
import Simard.Library.Lines
import Simard.Library.Machine

/-! The runtime kernel: a session is prepared, run through the selected base type, reflected upon
and persisted. What the session writes is buffered until the kernel persists; a failed run marks
the session the kernel remembers. -/
namespace Simard.Runtime
open Simard.Library Action

inductive RuntimeState where
  | initializing
  | ready
  | active
  | reflecting
  | persisting
  | failed
  | stopping
  | stopped
  deriving DecidableEq

def RuntimeState.canTransitionTo : RuntimeState → RuntimeState → Bool
  | .initializing, next => next = .ready || next = .stopping || next = .failed
  | .ready, next => next = .active || next = .stopping || next = .failed
  | .active, next => next = .reflecting || next = .stopping || next = .failed
  | .reflecting, next => next = .persisting || next = .stopping || next = .failed
  | .persisting, next => next = .ready || next = .stopping || next = .failed
  | .failed, next => next = .stopping
  | .stopping, next => next = .stopped
  | .stopped, _ => false

inductive SessionPhase where
  | intake
  | preparation
  | planning
  | execution
  | reflection
  | summarize
  | persistence
  | complete
  | failed
  deriving DecidableEq

def SessionPhase.canTransitionTo (phase next : SessionPhase) : Bool :=
  match phase, next with
  | .intake, .preparation => true
  | .preparation, .planning => true
  | .planning, .execution => true
  | .execution, .reflection => true
  | .reflection, .summarize => true
  | .summarize, .persistence => true
  | .reflection, .persistence => true
  | .persistence, .complete => true
  | _, .failed => true
  | _, _ => false

structure SessionRecord where
  id : String
  objective : String
  phase : SessionPhase
  evidenceIds : List String
  memoryKeys : List String
  deriving DecidableEq

inductive RuntimeError where
  | runtimeStopped (action : String)
  | runtimeFailed (action : String)
  | invalidRuntimeTransition (state next : RuntimeState)
  | invalidSessionTransition (phase next : SessionPhase)
  | invalidHandoffSnapshot (field reason : String)
  | invalidGoalRecord (field reason : String)
  | baseTypeSessionCleanupFailed (baseType action reason cleanupReason : String)
  | port (reason : String)
  deriving DecidableEq

namespace SessionRecord

def advance (session : SessionRecord) (next : SessionPhase) : Except RuntimeError SessionRecord :=
  if session.phase.canTransitionTo next then .ok { session with phase := next }
  else .error (.invalidSessionTransition session.phase next)

def attachEvidence (session : SessionRecord) (evidenceId : String) : SessionRecord :=
  { session with evidenceIds := session.evidenceIds ++ [evidenceId] }

def attachMemory (session : SessionRecord) (memoryKey : String) : SessionRecord :=
  { session with memoryKeys := session.memoryKeys ++ [memoryKey] }

end SessionRecord

def renderMetadata (chars words lines : Nat) : String :=
  "objective-metadata(chars=" ++ toString chars ++ ", words=" ++ toString words ++ ", lines=" ++
    toString lines ++ ")"

def objectiveMetadata (objective : String) : String :=
  renderMetadata objective.toList.length (splitWhitespace objective.toList).length
    (lines objective.toList).length

/-- The counts of a rendered objective as they are read, segment by segment. -/
structure MetadataCounts where
  chars : Option Nat
  words : Option Nat
  lines : Option Nat

def MetadataCounts.read (counts : MetadataCounts) (segment : String) : Option MetadataCounts := do
  let (key, value) ← splitOnce '=' segment
  let value ← parseUnsigned 64 value.toList
  if key = "chars" && counts.chars.isNone then return { counts with chars := some value }
  else if key = "words" && counts.words.isNone then return { counts with words := some value }
  else if key = "lines" && counts.lines.isNone then return { counts with lines := some value }
  else none

def normalizeObjectiveMetadata (value : String) : Option String := do
  let opened ← stripPrefix "objective-metadata(".toList value.toList
  let closed ← stripPrefix [')'] opened.reverse
  let segments := (String.ofList closed.reverse).splitOn ", "
  let counts ← segments.foldlM MetadataCounts.read ⟨none, none, none⟩
  return renderMetadata (← counts.chars) (← counts.words) (← counts.lines)

def SessionRecord.redactedForHandoff (session : SessionRecord) : SessionRecord :=
  { session with
    objective := (normalizeObjectiveMetadata session.objective).getD
      (objectiveMetadata session.objective) }

inductive MemoryScope where
  | sessionScratch
  | sessionSummary
  | decision
  | project
  | benchmark
  | untagged
  deriving DecidableEq

structure MemoryRecord where
  key : String
  scope : MemoryScope
  value : String
  sessionId : String
  recordedIn : SessionPhase
  deriving DecidableEq

inductive EvidenceSource where
  | runtime
  | baseType (id : String)
  deriving DecidableEq

structure EvidenceRecord where
  id : String
  sessionId : String
  phase : SessionPhase
  detail : String
  source : EvidenceSource
  deriving DecidableEq

inductive GoalStatus where
  | proposed
  | active
  | paused
  | completed
  deriving DecidableEq

structure GoalUpdate where
  slug : String
  title : String
  rationale : String
  status : GoalStatus
  priority : Nat

structure GoalRecord where
  slug : String
  title : String
  rationale : String
  status : GoalStatus
  priority : Nat
  ownerIdentity : String
  sourceSessionId : String
  updatedIn : SessionPhase
  deriving DecidableEq

def requiredGoalField (field value : String) : Except RuntimeError String :=
  let trimmed := trim value.toList
  if trimmed.isEmpty then .error (.invalidGoalRecord field "value cannot be empty")
  else .ok (String.ofList trimmed)

def GoalRecord.fromUpdate (update : GoalUpdate) (ownerIdentity sourceSessionId : String)
    (updatedIn : SessionPhase) : Except RuntimeError GoalRecord := do
  let ownerIdentity ← requiredGoalField "owner_identity" ownerIdentity
  let slug ← requiredGoalField "slug" update.slug
  let title ← requiredGoalField "title" update.title
  let rationale ← requiredGoalField "rationale" update.rationale
  return { slug, title, rationale, status := update.status, priority := update.priority,
           ownerIdentity, sourceSessionId, updatedIn }

/-- The record with the same key is replaced, or the record added. -/
def upsert {α : Type} (key : α → String) (records : List α) (record : α) : List α :=
  match records.findIdx? fun existing => key existing = key record with
  | some i => records.set i record
  | none => records ++ [record]

/-- A list that drops its oldest records when there are more than a number of them (zero for no
limit), or a file that has each key once. -/
inductive MemoryBackend where
  | inMemory (maxCapacity : Nat)
  | keyed

def enforceCapacity {α : Type} (maxCapacity : Nat) (records : List α) : List α :=
  if 0 < maxCapacity ∧ maxCapacity < records.length then records.drop (records.length - maxCapacity)
  else records

def MemoryBackend.put : MemoryBackend → List MemoryRecord → MemoryRecord → List MemoryRecord
  | .inMemory maxCapacity, records, record => enforceCapacity maxCapacity (records ++ [record])
  | .keyed, records, record => upsert (·.key) records record

inductive EvidenceBackend where
  | inMemory
  | keyed

def EvidenceBackend.record :
    EvidenceBackend → List EvidenceRecord → EvidenceRecord → List EvidenceRecord
  | .inMemory, records, record => records ++ [record]
  | .keyed, records, record => upsert (·.id) records record

structure Stores where
  memory : List MemoryRecord
  evidence : List EvidenceRecord
  goals : List GoalRecord
  deriving DecidableEq

/-- How a write to a store ends; one that fails may have been done. -/
inductive PutReply where
  | done
  | failed (reason : String) (stored : Bool)

/-- What the kernel was asked for: the identity, the base type, and the scope of summaries. -/
structure RuntimeRequest where
  name : String
  selectedBaseType : String
  summaryScope : MemoryScope
  deriving DecidableEq

structure RuntimeKernel where
  request : RuntimeRequest
  state : RuntimeState
  lastSession : Option SessionRecord
  entered : List RuntimeState
  deriving DecidableEq

/-- The kernel and the stores behind its ports. -/
structure Host where
  kernel : RuntimeKernel
  stores : Stores
  deriving DecidableEq

structure Backends where
  memory : MemoryBackend
  evidence : EvidenceBackend

abbrev KernelAction := Action Host RuntimeError

def ask {α : Type} (answer : Except String α) : KernelAction α := check (answer.mapError .port)

def transition (next : RuntimeState) : KernelAction Unit := do
  let host ← get
  if host.kernel.state.canTransitionTo next then
    modify fun host => { host with
      kernel := { host.kernel with state := next, entered := host.kernel.entered ++ [next] } }
  else check (.error (.invalidRuntimeTransition host.kernel.state next))

def rememberSession (session : SessionRecord) : KernelAction Unit :=
  modify fun host => { host with
    kernel := { host.kernel with lastSession := some session } }

def ensureAvailable (action : String) : KernelAction Unit := do
  check (match (← get).kernel.state with
    | .stopped => .error (.runtimeStopped action)
    | .stopping => .error (.runtimeStopped action)
    | .failed => .error (.runtimeFailed action)
    | _ => .ok ())

def write (reply : PutReply) (store : Stores → Stores) : KernelAction Unit :=
  match reply with
  | .done => modify fun host => { host with stores := store host.stores }
  | .failed reason stored => do
      modify fun host =>
        { host with stores := if stored then store host.stores else host.stores }
      check (.error (.port reason))

section Ports

variable (backends : Backends)

def putMemory (reply : PutReply) (record : MemoryRecord) : KernelAction Unit :=
  write reply fun stores => { stores with memory := backends.memory.put stores.memory record }

def recordEvidence (reply : PutReply) (record : EvidenceRecord) : KernelAction Unit :=
  write reply fun stores =>
    { stores with evidence := backends.evidence.record stores.evidence record }

def putGoal (reply : PutReply) (record : GoalRecord) : KernelAction Unit :=
  write reply fun stores => { stores with goals := upsert (·.slug) stores.goals record }

/-- The records of a list are put one after the other; the number counts the writes. -/
def putMemories (replies : Nat → PutReply) : Nat → List MemoryRecord → KernelAction Unit
  | _, [] => pure ()
  | index, record :: rest => do
      putMemory backends (replies index) record
      putMemories replies (index + 1) rest

def recordEvidences (replies : Nat → PutReply) : Nat → List EvidenceRecord → KernelAction Unit
  | _, [] => pure ()
  | index, record :: rest => do
      recordEvidence backends (replies index) record
      recordEvidences replies (index + 1) rest

end Ports

structure BaseTypeOutcome where
  plan : String
  executionSummary : String
  evidence : List String

structure AdditionalRecord where
  keySuffix : String
  scope : MemoryScope
  value : String

/-- What the consolidation at the end of a session meets; the snapshot only where there is a
directory for it. -/
structure Consolidation where
  persistence : Except String Unit
  operations : Except String Unit
  snapshot : Option (Except String Unit)

/-- The session id the run is given, and what the ports answer; writes are answered in the order
in which they are made. -/
structure RunAnswers where
  sessionId : String
  planTurn : Except String Unit
  openSession : Except String Unit
  openTurn : Except String Unit
  runTurn : Except String BaseTypeOutcome
  close : Except String Unit
  reflectionSummary : Except String String
  snapshot : Except String Unit
  putMemory : Nat → PutReply
  recordEvidence : Nat → PutReply
  persistenceSummary : Except String String
  additionalMemoryRecords : Except String (List AdditionalRecord)
  goalUpdates : Except String (List GoalUpdate)
  putGoal : Nat → PutReply
  consolidation : Option Consolidation

structure PendingWrites where
  memoryRecords : List MemoryRecord
  evidenceRecords : List EvidenceRecord

structure SessionOutcome where
  session : SessionRecord
  plan : String
  executionSummary : String
  reflection : String
  deriving DecidableEq

section Phases

variable (backends : Backends) (answers : RunAnswers)

def newSession (objective : String) : KernelAction SessionRecord := do
  let session : SessionRecord := ⟨answers.sessionId, objective, .intake, [], []⟩
  rememberSession session
  return session

def scratchRecord (session : SessionRecord) : MemoryRecord where
  key := session.id ++ "-scratch"
  scope := .sessionScratch
  value := objectiveMetadata session.objective
  sessionId := session.id
  recordedIn := .preparation

def persistSessionScratch (session : SessionRecord) :
    KernelAction (SessionRecord × PendingWrites) := do
  let session ← check (session.advance .preparation)
  let record := scratchRecord session
  let session := session.attachMemory record.key
  rememberSession session
  return (session, ⟨[record], []⟩)

/-- The turn's own failure comes first, unless closing failed too. -/
def closeTurn (baseType : String) : Except String BaseTypeOutcome → Except String Unit →
    Except RuntimeError BaseTypeOutcome
  | .ok outcome, .ok _ => .ok outcome
  | .error error, .ok _ => .error (.port error)
  | .ok _, .error closeError => .error (.port closeError)
  | .error error, .error closeError =>
      .error (.baseTypeSessionCleanupFailed baseType "run_turn" error closeError)

def runSelectedBaseTypeSession (session : SessionRecord) :
    KernelAction (SessionRecord × BaseTypeOutcome) := do
  let session ← check (session.advance .planning)
  ask answers.planTurn
  ask answers.openSession
  ask answers.openTurn
  let baseType := (← get).kernel.request.selectedBaseType
  let outcome ← check (closeTurn baseType answers.runTurn answers.close)
  return (session, outcome)

def evidenceRecord (baseType : String) (session : SessionRecord) (detail : String) (index : Nat) :
    EvidenceRecord where
  id := session.id ++ "-evidence-" ++ toString (index + 1)
  sessionId := session.id
  phase := .execution
  detail := detail
  source := .baseType baseType

def executionEvidence (baseType : String) (session : SessionRecord) (evidence : List String) :
    List EvidenceRecord :=
  evidence.zipIdx.map fun detail => evidenceRecord baseType session detail.1 detail.2

def recordExecutionEvidence (session : SessionRecord) (outcome : BaseTypeOutcome)
    (pending : PendingWrites) : KernelAction (SessionRecord × PendingWrites) := do
  let session ← check (session.advance .execution)
  let baseType := (← get).kernel.request.selectedBaseType
  let records := executionEvidence baseType session outcome.evidence
  let session := records.foldl (fun session record => session.attachEvidence record.id) session
  rememberSession session
  return (session, { pending with evidenceRecords := pending.evidenceRecords ++ records })

def buildReflection (session : SessionRecord) : KernelAction (SessionRecord × String) := do
  transition .reflecting
  let session ← check (session.advance .reflection)
  let summary ← ask answers.reflectionSummary
  ask answers.snapshot
  return (session, summary)

def putGoals (owner sessionId : String) : Nat → List GoalUpdate → KernelAction Unit
  | _, [] => pure ()
  | index, update :: rest => do
      let record ← check (GoalRecord.fromUpdate update owner sessionId .persistence)
      putGoal (answers.putGoal index) record
      putGoals owner sessionId (index + 1) rest

def summaryRecord (scope : MemoryScope) (session : SessionRecord) (summary : String) :
    MemoryRecord where
  key := session.id ++ "-summary"
  scope := scope
  value := summary
  sessionId := session.id
  recordedIn := .persistence

def additionalRecord (session : SessionRecord) (record : AdditionalRecord) : MemoryRecord where
  key := session.id ++ "-" ++ record.keySuffix
  scope := record.scope
  value := record.value
  sessionId := session.id
  recordedIn := .persistence

/-- The buffered records first, then the summary, what the program adds, and its goals. -/
def persistSessionSummary (session : SessionRecord) (pending : PendingWrites) :
    KernelAction SessionRecord := do
  transition .persisting
  let session ← check (session.advance .persistence)
  putMemories backends answers.putMemory 0 pending.memoryRecords
  recordEvidences backends answers.recordEvidence 0 pending.evidenceRecords
  let summary ← ask answers.persistenceSummary
  let request := (← get).kernel.request
  let record := summaryRecord request.summaryScope session summary
  putMemories backends answers.putMemory pending.memoryRecords.length [record]
  let session := session.attachMemory record.key
  let additional := (← ask answers.additionalMemoryRecords).map (additionalRecord session)
  putMemories backends answers.putMemory (pending.memoryRecords.length + 1) additional
  let session := additional.foldl (fun session record => session.attachMemory record.key) session
  putGoals answers request.name session.id 0 (← ask answers.goalUpdates)
  rememberSession session
  return session

def consolidate : KernelAction Unit :=
  match answers.consolidation with
  | none => pure ()
  | some consolidation => do
      ask consolidation.persistence
      ask consolidation.operations
      match consolidation.snapshot with
      | none => pure ()
      | some saved => ask saved

def completeSession (session : SessionRecord) (outcome : BaseTypeOutcome) (reflection : String) :
    KernelAction SessionOutcome := do
  let session ← check (session.advance .complete)
  rememberSession session
  transition .ready
  return ⟨session, outcome.plan, outcome.executionSummary, reflection⟩

def executeSession (objective : String) : KernelAction SessionOutcome := do
  transition .active
  let session ← newSession answers objective
  let (session, pending) ← persistSessionScratch session
  let (session, outcome) ← runSelectedBaseTypeSession answers session
  let (session, pending) ← recordExecutionEvidence session outcome pending
  let (session, reflection) ← buildReflection answers session
  let session ← persistSessionSummary backends answers session pending
  consolidate answers
  completeSession session outcome reflection

end Phases

def markLastSessionFailed : KernelAction Unit :=
  modify fun host => { host with
    kernel := { host.kernel with
      lastSession := host.kernel.lastSession.map fun session =>
        { session with phase := .failed } } }

def run (backends : Backends) (answers : RunAnswers) (objective : String) :
    KernelAction SessionOutcome := do
  ensureAvailable "run"
  match ← attempt (executeSession backends answers objective) with
  | .ok outcome => return outcome
  | .error error =>
      let state := (← get).kernel.state
      if state = .stopped || state = .stopping then check (.error error)
      else
        markLastSessionFailed
        let _ ← attempt (transition .failed)
        check (.error error)

def start (loads : List (Except String Unit)) : KernelAction Unit := do
  ensureAvailable "start"
  loads.forM ask
  transition .ready

def stop : KernelAction Unit := do
  let state := (← get).kernel.state
  if state = .stopped || state = .stopping then check (.error (.runtimeStopped "stop"))
  else
    transition .stopping
    transition .stopped

structure HandoffSnapshot where
  identityName : String
  selectedBaseType : String
  session : Option SessionRecord
  memoryRecords : List MemoryRecord
  evidenceRecords : List EvidenceRecord

/-- The checks of the request against the ports, the writes, and the handoff store. -/
structure HandoffAnswers where
  compose : Except String Unit
  putMemory : Nat → PutReply
  recordEvidence : Nat → PutReply
  save : Except String Unit

def composed (request : RuntimeRequest) : RuntimeKernel := ⟨request, .initializing, none, []⟩

def checkHandoff (request : RuntimeRequest) (snapshot : HandoffSnapshot) :
    Except RuntimeError Unit :=
  if snapshot.identityName ≠ request.name then
    .error
      (.invalidHandoffSnapshot "identity_name" ("snapshot identity '" ++ snapshot.identityName ++
      "' does not match request identity '" ++ request.name ++ "'"))
  else if snapshot.selectedBaseType ≠ request.selectedBaseType then
    .error (.invalidHandoffSnapshot "selected_base_type" ("snapshot base type '" ++
      snapshot.selectedBaseType ++ "' does not match request base type '" ++
      request.selectedBaseType ++ "'"))
  else .ok ()

/-- The records are stored and the session remembered before the snapshot is saved. -/
def composeFromHandoff (backends : Backends) (request : RuntimeRequest) (snapshot : HandoffSnapshot)
    (answers : HandoffAnswers) : KernelAction Unit := do
  check (checkHandoff request snapshot)
  ask answers.compose
  putMemories backends answers.putMemory 0 snapshot.memoryRecords
  recordEvidences backends answers.recordEvidence 0 snapshot.evidenceRecords
  modify fun host => { host with
    kernel := { host.kernel with lastSession := snapshot.session.map (·.redactedForHandoff) } }
  ask answers.save

/-- The stores, and the kernel that was composed last. -/
structure World where
  stores : Stores
  kernel : Option RuntimeKernel

inductive KernelCall where
  | compose (request : RuntimeRequest) (checks : Except String Unit)
  | composeFromHandoff (request : RuntimeRequest) (snapshot : HandoffSnapshot)
      (answers : HandoffAnswers)
  | start (loads : List (Except String Unit))
  | run (objective : String) (answers : RunAnswers)
  | stop

def World.apply {α : Type} (world : World) (action : KernelAction α) : World :=
  match world.kernel with
  | none => world
  | some kernel =>
      let host := (call action ⟨kernel, world.stores⟩).2
      ⟨host.stores, some host.kernel⟩

def World.step (backends : Backends) (world : World) : KernelCall → World
  | .compose request checks =>
      match checks with
      | .ok _ => { world with kernel := some (composed request) }
      | .error _ => world
  | .composeFromHandoff request snapshot answers =>
      match call (Runtime.composeFromHandoff backends request snapshot answers)
          ⟨composed request, world.stores⟩ with
      | (.ok _, host) => ⟨host.stores, some host.kernel⟩
      | (.error _, host) => { world with stores := host.stores }
  | .start loads => world.apply (Runtime.start loads)
  | .run objective answers => world.apply (Runtime.run backends answers objective)
  | .stop => world.apply Runtime.stop

def World.initial (stores : Stores) : World := ⟨stores, none⟩

def kernelMachine (backends : Backends) : Machine World KernelCall := ⟨World.step backends⟩

end Simard.Runtime
