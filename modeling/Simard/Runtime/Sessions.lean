import Simard.Library.Triples
import Simard.Runtime.Kernel

/-! How sessions are recorded. Until the kernel persists, a run writes nothing to the stores; a
run that returns has stored what its session lists; and a failed run marks the session that is
remembered, which is its own if the kernel was started. -/
namespace Simard.Runtime
open Simard.Library Action

def RuntimeKernel.EnteredSince (base kernel : RuntimeKernel) (state : RuntimeState) : Prop :=
  state ∈ kernel.entered.drop base.entered.length

/-- A run is under way, or has failed: the kernel remembers its session, and the stores are as
they were or the kernel has been persisting. -/
structure Underway (base : Host) (id : String) (host : Host) : Prop where
  session : ∃ session, host.kernel.lastSession = some session ∧ session.id = id
  entered : base.kernel.entered <+: host.kernel.entered
  stores : host.stores = base.stores ∨ base.kernel.EnteredSince host.kernel .persisting

/-- Before the kernel persists. -/
structure Stage (base : Host) (id : String) (state : RuntimeState) (host : Host) : Prop where
  state : host.kernel.state = state
  session : ∃ session, host.kernel.lastSession = some session ∧ session.id = id
  entered : base.kernel.entered <+: host.kernel.entered
  stores : host.stores = base.stores

theorem Stage.underway {base host : Host} {id : String} {state : RuntimeState}
    (h : Stage base id state host) : Underway base id host :=
  ⟨h.session, h.entered, .inl h.stores⟩

def Host.enter (host : Host) (next : RuntimeState) : Host :=
  { host with kernel := { host.kernel with
      state := next
      entered := host.kernel.entered ++ [next] } }

theorem call_transition (host : Host) (next : RuntimeState) :
    call (transition next) host =
      if host.kernel.state.canTransitionTo next then (.ok (), host.enter next)
      else (.error (.invalidRuntimeTransition host.kernel.state next), host) := by
  change call (if _ then _ else _ : KernelAction Unit) host = _
  split <;> rfl

section Rules

variable {base : Host} {id : String} {P : Host → Prop} {E : Host → Prop}

theorem meets_ask {α : Type} {answer : Except String α} (h : ∀ host, P host → E host) :
    Meets P (ask answer) (fun a host => answer = .ok a ∧ P host) E := by
  apply Meets.check
  · intro a host hanswer hhost
    cases answer with
    | error reason => cases hanswer
    | ok b =>
      cases hanswer
      exact ⟨rfl, hhost⟩
  · exact h

theorem meets_transition {Q : Host → Prop} (state : RuntimeState) {next : RuntimeState}
    (hstate : ∀ host, P host → host.kernel.state = state) (hnext : state.canTransitionTo next)
    (h : ∀ host, P host → Q (host.enter next)) : Meets P (transition next) (fun _ => Q) E := by
  intro host hhost
  rw [call_transition, hstate host hhost, if_pos hnext]
  exact h host hhost

theorem Stage.enter {state next : RuntimeState} {host : Host} (h : Stage base id state host) :
    Stage base id next (host.enter next) where
  state := rfl
  session := h.session
  entered := h.entered.trans (List.prefix_append _ _)
  stores := h.stores

theorem Stage.remember {state : RuntimeState} {host : Host} (h : Stage base id state host)
    {session : SessionRecord} (hid : session.id = id) :
    Stage base id state
      { host with kernel := { host.kernel with lastSession := some session } } where
  state := h.state
  session := ⟨session, rfl, hid⟩
  entered := h.entered
  stores := h.stores

end Rules

theorem SessionRecord.advance_eq {session : SessionRecord} {next : SessionPhase}
    (h : session.phase.canTransitionTo next) :
    session.advance next = .ok { session with phase := next } := if_pos h

theorem foldl_attachEvidence (records : List EvidenceRecord) (session : SessionRecord) :
    records.foldl (fun session record => session.attachEvidence record.id) session =
      { session with evidenceIds := session.evidenceIds ++ records.map (·.id) } := by
  induction records generalizing session with
  | nil => rw [List.map_nil, List.append_nil]; rfl
  | cons record records ih =>
    rw [List.foldl_cons, ih, SessionRecord.attachEvidence, List.append_assoc]
    rfl

theorem foldl_attachMemory (records : List MemoryRecord) (session : SessionRecord) :
    records.foldl (fun session record => session.attachMemory record.key) session =
      { session with memoryKeys := session.memoryKeys ++ records.map (·.key) } := by
  induction records generalizing session with
  | nil => rw [List.map_nil, List.append_nil]; rfl
  | cons record records ih =>
    rw [List.foldl_cons, ih, SessionRecord.attachMemory, List.append_assoc]
    rfl

section Phases

variable {base : Host} {id objective : String} {backends : Backends} {answers : RunAnswers}
  {session : SessionRecord}

theorem meets_persistSessionScratch :
    Meets (Stage base id .active) (persistSessionScratch ⟨id, objective, .intake, [], []⟩)
      (fun result host => result = (⟨id, objective, .preparation, [], [id ++ "-scratch"]⟩,
          ⟨[scratchRecord ⟨id, objective, .preparation, [], []⟩], []⟩) ∧
        Stage base id .active host)
      (Underway base id) := fun _ h => ⟨rfl, h.remember rfl⟩

theorem meets_runSelectedBaseTypeSession (hphase : session.phase = .preparation) :
    Meets (Stage base id .active) (runSelectedBaseTypeSession answers session)
      (fun result host => result.1 = { session with phase := .planning } ∧
        Stage base id .active host)
      (Underway base id) := by
  unfold runSelectedBaseTypeSession
  rw [SessionRecord.advance_eq (by rw [hphase]; rfl)]
  refine (meets_ask fun _ h => h.underway).bind fun _ => Meets.given fun _ => ?_
  refine (meets_ask fun _ h => h.underway).bind fun _ => Meets.given fun _ => ?_
  refine (meets_ask fun _ h => h.underway).bind fun _ => Meets.given fun _ => ?_
  refine Meets.get_bind fun host h => ?_
  have hclose : Meets (· = host) (check (closeTurn host.kernel.request.selectedBaseType
      answers.runTurn answers.close)) (fun _ => Stage base id .active) (Underway base id) := by
    apply Meets.check
    · rintro _ _ - rfl
      exact h
    · rintro _ rfl
      exact h.underway
  exact hclose.bind fun outcome => Meets.pure _ fun host h => ⟨rfl, h⟩

theorem meets_recordExecutionEvidence (hphase : session.phase = .planning) (hid : session.id = id)
    (outcome : BaseTypeOutcome) (pending : PendingWrites) :
    Meets (Stage base id .active) (recordExecutionEvidence session outcome pending)
      (fun result host => (∃ records : List EvidenceRecord,
        (∀ record ∈ records, record.sessionId = id) ∧
        result = ({ session with
          phase := .execution
          evidenceIds := session.evidenceIds ++ records.map (·.id) },
          { pending with evidenceRecords := pending.evidenceRecords ++ records })) ∧
        Stage base id .active host)
      (Underway base id) := by
  intro host h
  unfold recordExecutionEvidence
  rw [SessionRecord.advance_eq (by rw [hphase]; rfl)]
  refine ⟨⟨executionEvidence host.kernel.request.selectedBaseType
    { session with phase := .execution } outcome.evidence, ?_, ?_⟩, h.remember ?_⟩
  · intro record hrecord
    obtain ⟨detail, -, rfl⟩ := List.mem_map.mp hrecord
    exact hid
  · rw [foldl_attachEvidence]
  · rw [foldl_attachEvidence]
    exact hid

theorem meets_buildReflection (hphase : session.phase = .execution) :
    Meets (Stage base id .active) (buildReflection answers session)
      (fun result host => result.1 = { session with phase := .reflection } ∧
        Stage base id .reflecting host)
      (Underway base id) := by
  unfold buildReflection
  refine (meets_transition _ (fun _ h => h.state) rfl fun _ h => h.enter).bind fun _ => ?_
  rw [SessionRecord.advance_eq (by rw [hphase]; rfl)]
  refine (meets_ask fun _ h => h.underway).bind fun summary => Meets.given fun _ => ?_
  refine (meets_ask fun _ h => h.underway).bind fun _ => Meets.given fun _ => ?_
  exact Meets.pure _ fun host h => ⟨rfl, h⟩

end Phases

/-- While the kernel persists, with the memory and evidence records there are by now. -/
structure Writing (base : Host) (id : String) (memory : List MemoryRecord)
    (evidence : List EvidenceRecord) (host : Host) : Prop where
  state : host.kernel.state = .persisting
  session : ∃ session, host.kernel.lastSession = some session ∧ session.id = id
  entered : base.kernel.entered <+: host.kernel.entered
  persisting : base.kernel.EnteredSince host.kernel .persisting
  memory : host.stores.memory = memory
  evidence : host.stores.evidence = evidence

section Writes

variable {base : Host} {id : String} {memory : List MemoryRecord} {evidence : List EvidenceRecord}
  {backends : Backends}

theorem Writing.underway {host : Host} (h : Writing base id memory evidence host) :
    Underway base id host := ⟨h.session, h.entered, .inr h.persisting⟩

theorem Stage.persist {host : Host} {state : RuntimeState} (h : Stage base id state host) :
    Writing base id base.stores.memory base.stores.evidence (host.enter .persisting) where
  state := rfl
  session := h.session
  entered := h.entered.trans (List.prefix_append _ _)
  persisting := by
    unfold RuntimeKernel.EnteredSince
    rw [Host.enter, List.drop_append_of_le_length h.entered.length_le]
    exact List.mem_append_right _ List.mem_cons_self
  memory := congrArg Stores.memory h.stores
  evidence := congrArg Stores.evidence h.stores

theorem meets_write {Q : Host → Prop} (reply : PutReply) {store : Stores → Stores}
    (h : ∀ host, Writing base id memory evidence host →
      Q { host with stores := store host.stores }) :
    Meets (Writing base id memory evidence) (write reply store) (fun _ => Q)
      (Underway base id) := by
  intro host hhost
  cases reply with
  | done => exact h host hhost
  | failed reason stored =>
    exact ⟨hhost.session, hhost.entered, .inr hhost.persisting⟩

theorem meets_putMemories (replies : Nat → PutReply) (index : Nat) (records : List MemoryRecord) :
    Meets (Writing base id memory evidence) (putMemories backends replies index records)
      (fun _ => Writing base id (records.foldl backends.memory.put memory) evidence)
      (Underway base id) := by
  induction records generalizing memory index with
  | nil => exact Meets.pure _ fun _ h => h
  | cons record records ih =>
    have hput : Meets (Writing base id memory evidence) (putMemory backends (replies index) record)
        (fun _ => Writing base id (backends.memory.put memory record) evidence)
        (Underway base id) :=
      meets_write _ fun host h =>
        { h with memory := congrArg (backends.memory.put · record) h.memory }
    exact hput.bind fun _ => ih (index + 1)

theorem meets_recordEvidences (replies : Nat → PutReply) (index : Nat)
    (records : List EvidenceRecord) :
    Meets (Writing base id memory evidence) (recordEvidences backends replies index records)
      (fun _ => Writing base id memory (records.foldl backends.evidence.record evidence))
      (Underway base id) := by
  induction records generalizing evidence index with
  | nil => exact Meets.pure _ fun _ h => h
  | cons record records ih =>
    have hput : Meets (Writing base id memory evidence)
        (recordEvidence backends (replies index) record)
        (fun _ => Writing base id memory (backends.evidence.record evidence record))
        (Underway base id) :=
      meets_write _ fun host h =>
        { h with evidence := congrArg (backends.evidence.record · record) h.evidence }
    exact hput.bind fun _ => ih (index + 1)

theorem meets_putGoals (answers : RunAnswers) (owner sessionId : String) (index : Nat)
    (updates : List GoalUpdate) :
    Meets (Writing base id memory evidence) (putGoals answers owner sessionId index updates)
      (fun _ => Writing base id memory evidence) (Underway base id) := by
  induction updates generalizing index with
  | nil => exact Meets.pure _ fun _ h => h
  | cons update updates ih =>
    refine Meets.bind (Meets.check (fun _ _ _ h => h) fun _ h => h.underway) fun record => ?_
    refine Meets.bind ?_ fun _ => ih (index + 1)
    exact meets_write _ fun host h => { h with }

/-- The session has been persisted: its records were put after those there were. -/
structure Persisted (base : Host) (backends : Backends) (answers : RunAnswers)
    (session : SessionRecord) (host : Host) : Prop where
  state : host.kernel.state = .persisting
  id : session.id = answers.sessionId
  phase : session.phase = .persistence
  entered : base.kernel.entered <+: host.kernel.entered
  persisting : base.kernel.EnteredSince host.kernel .persisting
  remembered : host.kernel.lastSession = some session
  memory : ∃ (records : List MemoryRecord) (additional : List AdditionalRecord),
    answers.additionalMemoryRecords = .ok additional ∧
    records.length = additional.length + 2 ∧ session.memoryKeys = records.map (·.key) ∧
    (∀ record ∈ records, record.sessionId = session.id) ∧
    host.stores.memory = records.foldl backends.memory.put base.stores.memory
  evidence : ∃ records : List EvidenceRecord, session.evidenceIds = records.map (·.id) ∧
    (∀ record ∈ records, record.sessionId = session.id) ∧
    host.stores.evidence = records.foldl backends.evidence.record base.stores.evidence

end Writes

theorem meets_persistSessionSummary {base : Host} {backends : Backends} {answers : RunAnswers}
    {session : SessionRecord} {pending : PendingWrites} (hphase : session.phase = .reflection)
    (hid : session.id = answers.sessionId) (hlength : pending.memoryRecords.length = 1)
    (hkeys : session.memoryKeys = pending.memoryRecords.map (·.key))
    (hmemory : ∀ record ∈ pending.memoryRecords, record.sessionId = session.id)
    (hids : session.evidenceIds = pending.evidenceRecords.map (·.id))
    (hevidence : ∀ record ∈ pending.evidenceRecords, record.sessionId = session.id) :
    Meets (Stage base answers.sessionId .reflecting)
      (persistSessionSummary backends answers session pending)
      (fun session host => Persisted base backends answers session host)
      (Underway base answers.sessionId) := by
  unfold persistSessionSummary
  refine (meets_transition _ (fun _ h => h.state) rfl fun _ h => h.persist).bind fun _ => ?_
  rw [SessionRecord.advance_eq (by rw [hphase]; rfl)]
  refine (meets_putMemories _ _ _).bind fun _ => (meets_recordEvidences _ _ _).bind fun _ => ?_
  refine (meets_ask fun _ h => h.underway).bind fun summary => Meets.given fun _ => ?_
  refine Meets.get_bind fun host h => ?_
  have hstart : ∀ host', host' = host → Writing base answers.sessionId
      (pending.memoryRecords.foldl backends.memory.put base.stores.memory)
      (pending.evidenceRecords.foldl backends.evidence.record base.stores.evidence) host' := by
    rintro _ rfl
    exact h
  refine ((meets_putMemories _ _ _).imp hstart (fun _ _ h => h) fun _ h => h).bind fun _ => ?_
  refine (meets_ask fun _ h => h.underway).bind fun additional => Meets.given fun hadditional => ?_
  refine (meets_putMemories _ _ _).bind fun _ => ?_
  rw [foldl_attachMemory]
  refine (meets_ask fun _ h => h.underway).bind fun updates => Meets.given fun _ => ?_
  refine (meets_putGoals _ _ _ _ _).bind fun _ => ?_
  intro host' hwritten
  change Persisted base backends answers _ _
  exact {
    state := hwritten.state
    id := hid
    phase := rfl
    entered := hwritten.entered
    persisting := hwritten.persisting
    remembered := rfl
    memory := by
      refine ⟨pending.memoryRecords ++
        [summaryRecord host.kernel.request.summaryScope
          { session with phase := .persistence } summary] ++
        additional.map (additionalRecord session), additional, hadditional, ?_, ?_, ?_, ?_⟩
      · rw [List.length_append, List.length_append, List.length_map, hlength]
        exact Nat.add_comm 2 additional.length
      · rw [List.map_append, List.map_append, ← hkeys]
        rfl
      · intro record hrecord
        rcases List.mem_append.mp hrecord with hrecord | hrecord
        · rcases List.mem_append.mp hrecord with hrecord | hrecord
          · exact hmemory record hrecord
          · rw [List.mem_singleton.mp hrecord]
            rfl
        · obtain ⟨_, -, rfl⟩ := List.mem_map.mp hrecord
          rfl
      · rw [List.foldl_append, List.foldl_append]
        exact hwritten.memory
    evidence := ⟨pending.evidenceRecords, hids, hevidence, hwritten.evidence⟩ }

/-- The run has returned: its session is complete, and what it lists was stored. -/
structure Completed (base : Host) (backends : Backends) (answers : RunAnswers)
    (outcome : SessionOutcome) (host : Host) : Prop where
  state : host.kernel.state = .ready
  id : outcome.session.id = answers.sessionId
  phase : outcome.session.phase = .complete
  remembered : host.kernel.lastSession = some outcome.session
  memory : ∃ (records : List MemoryRecord) (additional : List AdditionalRecord),
    answers.additionalMemoryRecords = .ok additional ∧
    records.length = additional.length + 2 ∧ outcome.session.memoryKeys = records.map (·.key) ∧
    (∀ record ∈ records, record.sessionId = outcome.session.id) ∧
    host.stores.memory = records.foldl backends.memory.put base.stores.memory
  evidence : ∃ records : List EvidenceRecord, outcome.session.evidenceIds = records.map (·.id) ∧
    (∀ record ∈ records, record.sessionId = outcome.session.id) ∧
    host.stores.evidence = records.foldl backends.evidence.record base.stores.evidence

section Sessions

variable {base : Host} {backends : Backends} {answers : RunAnswers}

theorem Persisted.underway {session : SessionRecord} {host : Host}
    (h : Persisted base backends answers session host) : Underway base answers.sessionId host :=
  ⟨⟨session, h.remembered, h.id⟩, h.entered, .inr h.persisting⟩

theorem meets_consolidate (session : SessionRecord) :
    Meets (Persisted base backends answers session) (consolidate answers)
      (fun _ => Persisted base backends answers session) (Underway base answers.sessionId) := by
  have hask (answer : Except String Unit) :
      Meets (Persisted base backends answers session) (ask answer)
        (fun _ => Persisted base backends answers session) (Underway base answers.sessionId) :=
    (meets_ask fun _ h => h.underway).imp (fun _ h => h) (fun _ _ h => h.2) fun _ h => h
  unfold consolidate
  split
  · exact Meets.pure _ fun _ h => h
  · refine (hask _).bind fun _ => (hask _).bind fun _ => ?_
    split
    · exact Meets.pure _ fun _ h => h
    · exact hask _

theorem meets_completeSession (session : SessionRecord) (outcome : BaseTypeOutcome)
    (reflection : String) :
    Meets (Persisted base backends answers session) (completeSession session outcome reflection)
      (Completed base backends answers) (Underway base answers.sessionId) := by
  intro host h
  unfold completeSession
  rw [SessionRecord.advance_eq (by rw [h.phase]; rfl)]
  have htransition : Meets (· = { host with kernel := { host.kernel with
      lastSession := some { session with phase := .complete } } }) (transition .ready)
      (fun _ host => Completed base backends answers
        ⟨{ session with phase := .complete }, outcome.plan,
          outcome.executionSummary, reflection⟩ host)
      (Underway base answers.sessionId) := by
    refine meets_transition .persisting ?_ rfl ?_
    · rintro _ rfl
      exact h.state
    · rintro _ rfl
      exact ⟨rfl, h.id, rfl, rfl, h.memory, h.evidence⟩
  exact (htransition.bind fun _ => Meets.pure _ fun _ h => h) _ rfl

theorem meets_executeSession (hready : base.kernel.state = .ready) (objective : String) :
    Meets (· = base) (executeSession backends answers objective) (Completed base backends answers)
      (Underway base answers.sessionId) := by
  unfold executeSession
  have hbegin : Meets (· = base) (transition .active) (fun _ => (· = base.enter .active))
      (Underway base answers.sessionId) := by
    refine meets_transition .ready ?_ rfl ?_
    · rintro _ rfl
      exact hready
    · rintro _ rfl
      rfl
  have hnew : Meets (· = base.enter .active) (newSession answers objective)
      (fun session host => session = ⟨answers.sessionId, objective, .intake, [], []⟩ ∧
        Stage base answers.sessionId .active host)
      (Underway base answers.sessionId) := by
    rintro _ rfl
    exact ⟨rfl, rfl, ⟨_, rfl, rfl⟩, List.prefix_append _ _, rfl⟩
  refine hbegin.bind fun _ => hnew.bind fun session => Meets.given ?_
  rintro rfl
  refine meets_persistSessionScratch.bind fun scratch => Meets.given ?_
  rintro rfl
  refine Meets.bind (meets_runSelectedBaseTypeSession rfl) fun ⟨planned, outcome⟩ => Meets.given ?_
  rintro rfl
  refine Meets.bind (meets_recordExecutionEvidence ?_ ?_ _ _) fun executed => Meets.given ?_
  · rfl
  · rfl
  rintro ⟨records, hrecords, rfl⟩
  refine Meets.bind (meets_buildReflection rfl) fun ⟨reflected, reflection⟩ => Meets.given ?_
  rintro rfl
  refine Meets.bind (meets_persistSessionSummary ?_ ?_ ?_ ?_ ?_ ?_ ?_) fun session => ?_
  · rfl
  · rfl
  · rfl
  · rfl
  · intro record hrecord
    rw [List.mem_singleton.mp hrecord]
    rfl
  · rfl
  · exact hrecords
  exact (meets_consolidate session).bind fun _ => meets_completeSession session _ _

end Sessions

theorem mem_upsert_self {α : Type} (key : α → String) (records : List α) (record : α) :
    record ∈ upsert key records record := by
  unfold upsert
  split
  · next i hi =>
    obtain ⟨hlt, -, -⟩ := List.findIdx?_eq_some_iff_getElem.mp hi
    exact List.mem_set hlt record
  · exact List.mem_append_right _ List.mem_cons_self

theorem mem_upsert_of_mem {α : Type} (key : α → String) {records : List α} (record : α) {kept : α}
    (h : kept ∈ records) :
    ∃ now ∈ upsert key records record, key now = key kept ∧ (now = kept ∨ now = record) := by
  unfold upsert
  split
  · next i hi =>
    obtain ⟨hlt, hkey, -⟩ := List.findIdx?_eq_some_iff_getElem.mp hi
    obtain ⟨j, hj, rfl⟩ := List.getElem_of_mem h
    by_cases hij : i = j
    · subst hij
      exact ⟨record, List.mem_set hlt record, (of_decide_eq_true hkey).symm, .inr rfl⟩
    · refine ⟨records[j], ?_, rfl, .inl rfl⟩
      exact List.mem_iff_getElem.mpr ⟨j, by rwa [List.length_set], List.getElem_set_ne hij _⟩
  · exact ⟨kept, List.mem_append_left _ h, rfl, .inl rfl⟩

theorem foldl_upsert_holds {α : Type} {key owner : α → String} {id : String} (records : List α)
    (before : List α) (howner : ∀ record ∈ records, owner record = id) :
    ∀ record ∈ records, ∃ now ∈ records.foldl (upsert key) before,
      key now = key record ∧ owner now = id := by
  induction records using List.reverseRecOn with
  | nil => nofun
  | append_singleton records last ih =>
    rw [List.forall_mem_append] at howner
    have hlast : owner last = id := howner.2 last List.mem_cons_self
    rw [List.foldl_append, List.foldl_cons, List.foldl_nil]
    intro record hrecord
    rcases List.mem_append.mp hrecord with hrecord | hrecord
    · obtain ⟨now, hnow, hkey, hid⟩ := ih howner.1 record hrecord
      obtain ⟨later, hlater, hsame, hwhich⟩ := mem_upsert_of_mem key last hnow
      refine ⟨later, hlater, hsame.trans hkey, ?_⟩
      rcases hwhich with rfl | rfl
      · exact hid
      · exact hlast
    · rw [List.mem_singleton.mp hrecord]
      exact ⟨last, mem_upsert_self key _ last, rfl, hlast⟩

theorem suffix_foldl_enforceCapacity {α : Type} {maxCapacity : Nat} (records before : List α)
    (h : maxCapacity = 0 ∨ records.length ≤ maxCapacity) :
    records <:+ records.foldl (fun all record => enforceCapacity maxCapacity (all ++ [record]))
      before := by
  induction records using List.reverseRecOn with
  | nil => exact List.nil_suffix
  | append_singleton records last ih =>
    rw [List.length_append, List.length_singleton] at h
    obtain ⟨older, holder⟩ := ih (by omega)
    rw [List.foldl_append, List.foldl_cons, List.foldl_nil, ← holder, List.append_assoc]
    unfold enforceCapacity
    split
    · rw [List.drop_append_of_le_length]
      · exact List.suffix_append _ _
      · rw [List.length_append, List.length_append, List.length_singleton]
        omega
    · exact List.suffix_append _ _

def MemoryBackend.Fits : MemoryBackend → Nat → Prop
  | .inMemory maxCapacity, count => maxCapacity = 0 ∨ count ≤ maxCapacity
  | .keyed, _ => True

theorem MemoryBackend.holds (backend : MemoryBackend) {id : String} {records : List MemoryRecord}
    (before : List MemoryRecord) (hfits : backend.Fits records.length)
    (howner : ∀ record ∈ records, record.sessionId = id) :
    ∀ record ∈ records, ∃ now ∈ records.foldl backend.put before,
      now.key = record.key ∧ now.sessionId = id := by
  cases backend with
  | inMemory maxCapacity =>
    intro record hrecord
    refine ⟨record, ?_, rfl, howner record hrecord⟩
    exact (suffix_foldl_enforceCapacity records before hfits).mem hrecord
  | keyed => exact foldl_upsert_holds records before howner

theorem EvidenceBackend.holds (backend : EvidenceBackend) {id : String}
    {records : List EvidenceRecord} (before : List EvidenceRecord)
    (howner : ∀ record ∈ records, record.sessionId = id) :
    ∀ record ∈ records, ∃ now ∈ records.foldl backend.record before,
      now.id = record.id ∧ now.sessionId = id := by
  cases backend with
  | inMemory =>
    intro record hrecord
    refine ⟨record, ?_, rfl, howner record hrecord⟩
    -- a list without a limit
    exact (suffix_foldl_enforceCapacity records before (.inl rfl)).mem hrecord
  | keyed => exact foldl_upsert_holds records before howner

def RuntimeState.closed : RuntimeState → Bool
  | .stopped => true
  | .stopping => true
  | .failed => true
  | _ => false

def Host.failRun (host : Host) : Host :=
  if host.kernel.state = .stopped || host.kernel.state = .stopping then host
  else (call (transition .failed) { host with kernel := { host.kernel with
      lastSession := host.kernel.lastSession.map fun session =>
        { session with phase := .failed } } }).2

section Run

variable {backends : Backends} {answers : RunAnswers} {objective : String} {host : Host}

theorem call_ensureAvailable_of_closed {α : Type} {action : String} (next : Unit → KernelAction α)
    (h : host.kernel.state.closed) :
    ∃ error, call (ensureAvailable action >>= next) host = (.error error, host) := by
  obtain ⟨⟨request, state, lastSession, entered⟩, stores⟩ := host
  cases state with
  | stopped => exact ⟨_, rfl⟩
  | stopping => exact ⟨_, rfl⟩
  | failed => exact ⟨_, rfl⟩
  | _ => cases h

theorem call_ensureAvailable_of_open {α : Type} {action : String} (next : Unit → KernelAction α)
    (h : host.kernel.state.closed = false) :
    call (ensureAvailable action >>= next) host = call (next ()) host := by
  obtain ⟨⟨request, state, lastSession, entered⟩, stores⟩ := host
  cases state with
  | stopped => cases h
  | stopping => cases h
  | failed => cases h
  | _ => rfl

theorem call_run_of_open (h : host.kernel.state.closed = false) :
    call (run backends answers objective) host =
      match call (executeSession backends answers objective) host with
      | (.ok outcome, after) => (.ok outcome, after)
      | (.error error, after) => (.error error, after.failRun) := by
  unfold run
  rw [call_ensureAvailable_of_open _ h, call_attempt_bind]
  rcases call (executeSession backends answers objective) host with ⟨result, after⟩
  cases result with
  | ok outcome => rfl
  | error error =>
    unfold Host.failRun
    dsimp only
    rw [call_get_bind]
    split
    · rfl
    · rfl

theorem call_executeSession_of_unready (h : host.kernel.state ≠ .ready) :
    call (executeSession backends answers objective) host =
      (.error (.invalidRuntimeTransition host.kernel.state .active), host) := by
  unfold executeSession
  rw [call_bind, call_transition, if_neg]
  obtain ⟨⟨request, state, lastSession, entered⟩, stores⟩ := host
  cases state with
  | ready => exact absurd rfl h
  | _ => nofun

theorem call_run_of_unready (hopen : host.kernel.state.closed = false)
    (hready : host.kernel.state ≠ .ready) :
    call (run backends answers objective) host =
      (.error (.invalidRuntimeTransition host.kernel.state .active), host.failRun) := by
  rw [call_run_of_open hopen, call_executeSession_of_unready hready]

theorem stores_failRun : host.failRun.stores = host.stores := by
  unfold Host.failRun
  split
  · rfl
  · rw [call_transition]
    split <;> rfl

theorem entered_failRun : host.kernel.entered <+: host.failRun.kernel.entered := by
  unfold Host.failRun
  split
  · exact List.prefix_refl _
  · rw [call_transition]
    split
    · exact List.prefix_append _ _
    · exact List.prefix_refl _

theorem RuntimeKernel.EnteredSince.failRun {base : RuntimeKernel} {state : RuntimeState}
    (h : base.EnteredSince host.kernel state) : base.EnteredSince host.failRun.kernel state :=
  (entered_failRun.drop _).mem h

theorem lastSession_failRun : host.failRun.kernel.lastSession = host.kernel.lastSession ∨
    host.failRun.kernel.lastSession =
      host.kernel.lastSession.map fun session => { session with phase := .failed } := by
  unfold Host.failRun
  split
  · exact .inl rfl
  · rw [call_transition]
    split
    · exact .inr rfl
    · exact .inr rfl

end Run

end Simard.Runtime
