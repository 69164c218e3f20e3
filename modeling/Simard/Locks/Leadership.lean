import Simard.Locks.LeaderSemaphore

/-! Who leads, over whole runs. Calls of any number of processes interleave command by
command; a process leads from a call that gave it the semaphore to one that took it away.
Neither the read and the write of a call nor the temporary file are protected from other
calls, and a release takes the generation with it. -/
namespace Simard.Locks
open Simard.Library

/-- What a call that returns does to the processes that take themselves for leaders. Only
a refusal to acquire tells a process that it does not lead. -/
def leadersAfter (leaders : List UInt32) :
    SemaphoreCall × SimardResult (Option LeaderState) → List UInt32
  | (.tryAcquire myPid, .ok _) => leaders.insert myPid
  | (.tryAcquire myPid, .error e) => if e.isRefusal then leaders.filter (· ≠ myPid) else leaders
  | (.transfer fromPid toPid, .ok _) => (leaders.filter (· ≠ fromPid)).insert toPid
  | (.release myPid, .ok _) => leaders.filter (· ≠ myPid)
  | _ => leaders

def leaders (log : List (SemaphoreCall × SimardResult (Option LeaderState))) : List UInt32 :=
  log.foldl leadersAfter []

@[simp] theorem leaders_append (log : List (SemaphoreCall × SimardResult (Option LeaderState)))
    (entry : SemaphoreCall × SimardResult (Option LeaderState)) :
    leaders (log ++ [entry]) = leadersAfter (leaders log) entry := by
  simp [leaders]

/-- A record of another process carries a higher generation. -/
def Rises (earlier later : LeaderState) : Prop :=
  earlier.pid ≠ later.pid → earlier.generation < later.generation

instance : DecidableRel Rises := fun _ _ => inferInstanceAs (Decidable (_ → _))

/-- How far a call has come: what it read, and whether it found that record's process gone
or silent; what it wrote to the temporary file; how it ended. -/
inductive SemaphoreStage where
  | fresh
  | seen (record : Option LeaderState) (lapsed : Bool)
  | written (record : Option LeaderState) (lapsed : Bool) (text : List Char)
  | published
  | removed
  | failed

/-- The record a call may put in place of the one it read. -/
def Proposes (record : Option LeaderState) (lapsed : Bool) (state : LeaderState) :
    SemaphoreCall → Prop
  | .tryAcquire myPid =>
      state.pid = myPid ∧
        match record with
        | none => state.generation = 1
        | some existing =>
            (existing.pid = myPid ∧ state.generation = existing.generation) ∨
              (lapsed ∧ state.generation = existing.generation + 1)
  | .heartbeat myPid =>
      ∃ existing, record = some existing ∧ existing.pid = myPid ∧ state.pid = myPid ∧
        state.generation = existing.generation
  | .transfer fromPid toPid =>
      ∃ existing, record = some existing ∧ existing.pid = fromPid ∧ state.pid = toPid ∧
        state.generation = existing.generation + 1
  | .release _ => False

def semaphoreAllowed (call : SemaphoreCall) : SemaphoreStage → SemaphoreCmd → Prop
  | .fresh, .readToString => True
  | .seen record _, .isPidAlive pid => ∃ existing, record = some existing ∧ existing.pid = pid
  | .seen record _, .isStale state => record = some state
  | .seen _ _, .epochNow => True
  | .seen record lapsed, .writeTmp text =>
      ∃ state : LeaderState, text = state.toJson ∧ Proposes record lapsed state call
  | .seen record _, .removeFile =>
      ∃ existing, record = some existing ∧ call = .release existing.pid
  | .written record lapsed text, .rename =>
      ∃ state : LeaderState, text = state.toJson ∧ Proposes record lapsed state call
  | _, _ => False

def semaphoreNext : SemaphoreStage → (cmd : SemaphoreCmd) → cmd.Ans → SemaphoreStage
  | .fresh, .readToString, .ok contents => .seen (contents.bind LeaderState.fromJson) false
  | .seen record _, .isPidAlive _, alive => .seen record (!alive)
  | .seen record _, .isStale _, stale => .seen record stale
  | .seen record lapsed, .epochNow, _ => .seen record lapsed
  | .seen record lapsed, .writeTmp text, .ok () => .written record lapsed text
  | .written _ _ _, .rename, .ok () => .published
  | .seen _ _, .removeFile, _ => .removed
  | _, _, _ => .failed

def semaphoreProtocol (call : SemaphoreCall) :
    Protocol SemaphoreCmd SemaphoreCmd.Ans SemaphoreStage :=
  ⟨semaphoreAllowed call, semaphoreNext⟩

/-- How a call ends: it succeeds if it put a record in place or removed one; it acquires or
transfers by nothing else; and a release that succeeds removed the file or did not own it. -/
def semaphorePost (call : SemaphoreCall) (stage : SemaphoreStage)
    (value : SimardResult (Option LeaderState)) : Prop :=
  stage ≠ .fresh ∧ (stage = .published ∨ stage = .removed → ∃ state, value = .ok state) ∧
    ∀ state, value = .ok state →
      match call with
      | .tryAcquire _ | .transfer _ _ => stage = .published
      | .heartbeat _ => True
      | .release myPid => stage = .removed ∨
          ∃ record lapsed, stage = .seen record lapsed ∧ ∀ existing ∈ record, existing.pid ≠ myPid

section Follows

variable {call : SemaphoreCall} {α β : Type}

theorem follows_andThen {mid : SemaphoreStage → SimardResult α → Prop}
    {post : SemaphoreStage → SimardResult β → Prop} {stage : SemaphoreStage}
    {op : SemaphoreOp (SimardResult α)} {next : α → SemaphoreOp (SimardResult β)}
    (hop : op.Follows (semaphoreProtocol call) mid stage)
    (hok : ∀ later value, mid later (.ok value) →
      (next value).Follows (semaphoreProtocol call) post later)
    (herror : ∀ later e, mid later (.error e) → post later (.error e)) :
    (andThen op next).Follows (semaphoreProtocol call) post stage := by
  apply hop.bind
  intro later result hresult
  cases result with
  | ok value => exact hok later value hresult
  | error e => exact herror later e hresult

def ReadEnds (stage : SemaphoreStage) : SimardResult (Option LeaderState) → Prop
  | .ok record => stage = .seen record false
  | .error _ => stage = .failed

theorem follows_readState : readState.Follows (semaphoreProtocol call) ReadEnds .fresh := by
  refine ⟨trivial, ?_⟩
  intro contents
  cases contents with
  | ok contents => rfl
  | error reason => rfl

def WriteEnds (stage : SemaphoreStage) : SimardResult α → Prop
  | .ok _ => stage = .published
  | .error _ => stage = .failed

theorem follows_writeState {record : Option LeaderState} {lapsed : Bool} {state : LeaderState}
    (h : Proposes record lapsed state call) :
    (writeState state).Follows (semaphoreProtocol call) WriteEnds (.seen record lapsed) := by
  refine ⟨⟨state, rfl, h⟩, ?_⟩
  intro written
  cases written with
  | error fault => rfl
  | ok written =>
    refine ⟨⟨state, rfl, h⟩, ?_⟩
    intro renamed
    cases renamed with
    | error reason => rfl
    | ok renamed => rfl

theorem follows_record {seen : Option LeaderState} {lapsed : Bool} {pid : UInt32}
    {generation : UInt64} (h : ∀ now, Proposes seen lapsed ⟨pid, generation, now⟩ call) :
    (record pid generation).Follows (semaphoreProtocol call) WriteEnds (.seen seen lapsed) := by
  refine ⟨trivial, ?_⟩
  intro now
  apply follows_andThen (follows_writeState (h now))
  · intro later value hlater
    exact hlater
  · intro later e hlater
    exact hlater

end Follows

/-- An operation that hands out the semaphore ends well exactly if it put a record in
place. -/
def HandsOut {α : Type} (stage : SemaphoreStage) (value : SimardResult α) : Prop :=
  stage ≠ .fresh ∧ stage ≠ .removed ∧ (stage = .published ↔ ∃ state, value = .ok state)

theorem WriteEnds.handsOut {α : Type} {stage : SemaphoreStage} {value : SimardResult α}
    (h : WriteEnds stage value) : HandsOut stage value := by
  cases value with
  | ok state => simp [HandsOut, show stage = .published from h]
  | error e => simp [HandsOut, show stage = .failed from h]

theorem handsOut_seen {α : Type} (seen : Option LeaderState) (lapsed : Bool) (e : SimardError) :
    HandsOut (.seen seen lapsed) (.error e : SimardResult α) := by
  simp [HandsOut]

theorem handsOut_failed {α : Type} (e : SimardError) :
    HandsOut .failed (.error e : SimardResult α) := by
  simp [HandsOut]

theorem follows_tryAcquire (myPid : UInt32) :
    (tryAcquire myPid).Follows (semaphoreProtocol (.tryAcquire myPid)) HandsOut .fresh := by
  have hrecord (seen : Option LeaderState) (lapsed : Bool) (generation : UInt64)
      (h : ∀ now, Proposes seen lapsed ⟨myPid, generation, now⟩ (.tryAcquire myPid)) :
      (record myPid generation).Follows (semaphoreProtocol (.tryAcquire myPid)) HandsOut
        (.seen seen lapsed) :=
    (follows_record h).mono fun _ _ => WriteEnds.handsOut
  apply follows_andThen follows_readState
  · rintro stage seen rfl
    cases seen with
    | none => exact hrecord none false 1 fun now => ⟨rfl, rfl⟩
    | some existing =>
      dsimp only
      by_cases hown : existing.pid = myPid
      · rw [if_pos hown]
        exact hrecord _ _ _ fun now => ⟨rfl, .inl ⟨hown, rfl⟩⟩
      · rw [if_neg hown]
        refine ⟨⟨existing, rfl, rfl⟩, ?_⟩
        intro alive
        cases alive with
        | false => exact hrecord (some existing) true _ fun now => ⟨rfl, .inr ⟨rfl, rfl⟩⟩
        | true =>
          refine ⟨rfl, ?_⟩
          intro stale
          cases stale with
          | true => exact hrecord (some existing) true _ fun now => ⟨rfl, .inr ⟨rfl, rfl⟩⟩
          | false => exact handsOut_seen _ _ _
  · rintro stage e rfl
    exact handsOut_failed e

theorem follows_transfer (fromPid toPid : UInt32) :
    (transfer fromPid toPid).Follows (semaphoreProtocol (.transfer fromPid toPid)) HandsOut
      .fresh := by
  apply follows_andThen follows_readState
  · rintro stage seen rfl
    cases seen with
    | none => exact handsOut_seen _ _ _
    | some current =>
      dsimp only
      by_cases hown : current.pid = fromPid
      · rw [if_neg (not_not.mpr hown)]
        apply (follows_record _).mono fun _ _ => WriteEnds.handsOut
        intro now
        exact ⟨current, rfl, hown, rfl, rfl⟩
      · rw [if_pos hown]
        exact handsOut_seen _ _ _
  · rintro stage e rfl
    exact handsOut_failed e

def Refreshes (stage : SemaphoreStage) (value : SimardResult Unit) : Prop :=
  stage ≠ .fresh ∧ stage ≠ .removed ∧ (stage = .published → value = .ok ())

theorem follows_heartbeat (myPid : UInt32) :
    (heartbeat myPid).Follows (semaphoreProtocol (.heartbeat myPid)) Refreshes .fresh := by
  apply follows_andThen follows_readState
  · rintro stage seen rfl
    cases seen with
    | none => simp [Refreshes]
    | some existing =>
      dsimp only
      by_cases hown : existing.pid = myPid
      · rw [if_pos hown]
        refine ⟨trivial, ?_⟩
        intro now
        apply (follows_writeState _).mono
        · intro stage value h
          obtain ⟨hfresh, hremoved, hpublished⟩ := h.handsOut
          refine ⟨hfresh, hremoved, fun hstage => ?_⟩
          obtain ⟨written, hvalue⟩ := hpublished.mp hstage
          exact hvalue
        · exact ⟨existing, rfl, hown, hown, rfl⟩
      · rw [if_neg hown]
        simp [Refreshes]
  · rintro stage e rfl
    simp [Refreshes]

/-- A release that succeeds removed the file or did not own it. -/
def LetsGo (myPid : UInt32) (stage : SemaphoreStage) (value : SimardResult Unit) : Prop :=
  (stage = .failed ∧ ∃ e, value = .error e) ∨ (stage = .removed ∧ value = .ok ()) ∨
    ∃ record lapsed, stage = .seen record lapsed ∧ ∀ existing ∈ record, existing.pid ≠ myPid

theorem follows_release (myPid : UInt32) :
    (release myPid).Follows (semaphoreProtocol (.release myPid)) (LetsGo myPid) .fresh := by
  apply follows_andThen follows_readState
  · rintro stage seen rfl
    cases seen with
    | none => exact .inr (.inr ⟨none, false, rfl, by simp⟩)
    | some existing =>
      dsimp only
      by_cases hown : existing.pid = myPid
      · rw [if_pos hown]
        refine ⟨⟨existing, rfl, by rw [hown]⟩, ?_⟩
        intro removed
        exact .inr (.inl ⟨rfl, rfl⟩)
      · rw [if_neg hown]
        exact .inr (.inr ⟨some existing, false, rfl, by simpa using hown⟩)
  · rintro stage e rfl
    exact .inl ⟨rfl, e, rfl⟩

theorem HandsOut.ok {stage : SemaphoreStage} {state : LeaderState}
    (h : HandsOut stage (.ok state)) : stage ≠ .fresh ∧ stage = .published :=
  ⟨h.1, h.2.2.mpr ⟨state, rfl⟩⟩

theorem HandsOut.error {α : Type} {stage : SemaphoreStage} {e : SimardError}
    (h : HandsOut stage (.error e : SimardResult α)) (call : SemaphoreCall) :
    semaphorePost call stage (.error e) := by
  refine ⟨h.1, ?_, fun _ heq => nomatch heq⟩
  rintro (hpublished | hremoved)
  · obtain ⟨state, hstate⟩ := h.2.2.mp hpublished
    cases hstate
  · exact absurd hremoved h.2.1

theorem follows_program (call : SemaphoreCall) :
    call.program.Follows (semaphoreProtocol call) (semaphorePost call) .fresh := by
  cases call with
  | tryAcquire myPid =>
    apply follows_andThen (follows_tryAcquire myPid)
    · intro stage state h
      exact ⟨h.ok.1, fun _ => ⟨_, rfl⟩, fun _ _ => h.ok.2⟩
    · intro stage e h
      exact h.error _
  | transfer fromPid toPid =>
    apply follows_andThen (follows_transfer fromPid toPid)
    · intro stage state h
      exact ⟨h.ok.1, fun _ => ⟨_, rfl⟩, fun _ _ => h.ok.2⟩
    · intro stage e h
      exact h.error _
  | heartbeat myPid =>
    apply follows_andThen (follows_heartbeat myPid)
    · intro stage state h
      exact ⟨h.1, fun _ => ⟨_, rfl⟩, fun _ _ => trivial⟩
    · rintro stage e ⟨hfresh, hremoved, hpublished⟩
      refine ⟨hfresh, ?_, fun _ heq => nomatch heq⟩
      rintro (hstage | hstage)
      · exact nomatch hpublished hstage
      · exact absurd hstage hremoved
  | release myPid =>
    apply follows_andThen (follows_release myPid)
    · rintro stage value (⟨-, e, herror⟩ | ⟨rfl, -⟩ | ⟨seen, lapsed, rfl, hother⟩)
      · cases herror
      · exact ⟨by rintro ⟨⟩, fun _ => ⟨_, rfl⟩, fun _ _ => .inl rfl⟩
      · exact ⟨by rintro ⟨⟩, fun _ => ⟨_, rfl⟩, fun _ _ => .inr ⟨seen, lapsed, rfl, hother⟩⟩
    · rintro stage e (⟨rfl, -⟩ | ⟨-, hvalue⟩ | ⟨seen, lapsed, rfl, -⟩)
      · exact (handsOut_failed (α := Unit) e).error _
      · cases hvalue
      · exact (handsOut_seen (α := Unit) seen lapsed e).error _

/-- What is taken for granted: every process named in a call is alive, and no record is
found to be stale. -/
def lively (alive : UInt32 → Bool) (staleSecs : UInt64) :
    Calls.Condition SemaphoreFiles SemaphoreCall SemaphoreWorld SemaphoreCmd SemaphoreStage where
  admits
    | .tryAcquire myPid | .heartbeat myPid | .release myPid => alive myPid
    | .transfer fromPid toPid => alive fromPid && alive toPid
  permits files world _ _ cmd :=
    match cmd with
    | .isStale state => !(semaphoreAnswer alive staleSecs files world (.isStale state)).1
    | _ => true

/-- A rename puts in place what its own call wrote, over the leader and generation that
call read; where it read no record, no other process was ever recorded; and a generation
that must grow is not the last one. -/
def replaces (files : SemaphoreFiles) (seen : Option LeaderState) (text : List Char) : Bool :=
  files.tmp = some text &&
    files.record.map (fun r => (r.pid, r.generation)) = seen.map (fun r => (r.pid, r.generation)) &&
    (LeaderState.fromJson text).all fun state =>
      match seen with
      | none => files.records.getLast?.all fun last => last.pid = state.pid
      | some existing => existing.pid = state.pid || existing.generation.toNat + 1 < 2 ^ 64

/-- No call is disturbed by another: a rename that takes place replaces what its call
decided on, and a remove that takes place removes a record of its own process. -/
def undisturbed :
    Calls.Condition SemaphoreFiles SemaphoreCall SemaphoreWorld SemaphoreCmd SemaphoreStage where
  admits _ := true
  permits files world _ stage cmd :=
    world.fault.isSome ||
      match stage, cmd with
      | .written seen _ text, .rename => files.tmp.isNone || replaces files seen text
      | .seen (some existing) _, .removeFile => files.record.all fun r => r.pid = existing.pid
      | _, _ => true

/-- The leader is the process on record, it is alive, and the records rise. -/
structure Sound (alive : UInt32 → Bool) (files : SemaphoreFiles)
    (log : List (SemaphoreCall × SimardResult (Option LeaderState))) : Prop where
  onRecord : ∀ pid ∈ leaders log, ∃ r, files.record = some r ∧ r.pid = pid
  living : ∀ pid ∈ leaders log, alive pid
  last : ∀ r, files.record = some r → ∃ l, files.records.getLast? = some l ∧ l.pid = r.pid ∧
    l.generation = r.generation
  rising : files.records.IsChain Rises

def FoundGone (alive : UInt32 → Bool) : SemaphoreStage → Prop
  | .seen seen lapsed | .written seen lapsed _ =>
      lapsed = true → ∀ existing, seen = some existing → alive existing.pid = false
  | _ => True

section Steps

variable {alive : UInt32 → Bool} {files : SemaphoreFiles}
  {log : List (SemaphoreCall × SimardResult (Option LeaderState))}

theorem Sound.shrink (h : Sound alive files log) {files' : SemaphoreFiles}
    {log' : List (SemaphoreCall × SimardResult (Option LeaderState))}
    (hlock : files'.lock = files.lock) (hrecords : files'.records = files.records)
    (hleaders : leaders log' ⊆ leaders log) : Sound alive files' log' := by
  have hrecord : files'.record = files.record := congrArg (·.bind LeaderState.fromJson) hlock
  refine ⟨?_, ?_, ?_, ?_⟩
  · intro pid hpid
    rw [hrecord]
    exact h.onRecord pid (hleaders hpid)
  · intro pid hpid
    exact h.living pid (hleaders hpid)
  · rw [hrecord, hrecords]
    exact h.last
  · rw [hrecords]
    exact h.rising

theorem leadersAfter_subset {call : SemaphoreCall} {value : SimardResult (Option LeaderState)}
    {stage : SemaphoreStage} (hpost : semaphorePost call stage value)
    (hstage : stage ≠ .published) (known : List UInt32) :
    leadersAfter known (call, value) ⊆ known := by
  cases value with
  | error e =>
    cases call with
    | tryAcquire myPid =>
      dsimp only [leadersAfter]
      split
      · exact List.filter_sublist.subset
      · exact List.Subset.refl known
    | heartbeat myPid => exact List.Subset.refl known
    | transfer fromPid toPid => exact List.Subset.refl known
    | release myPid => exact List.Subset.refl known
  | ok state =>
    cases call with
    | tryAcquire myPid => exact absurd (hpost.2.2 state rfl) hstage
    | heartbeat myPid => exact List.Subset.refl known
    | transfer fromPid toPid => exact absurd (hpost.2.2 state rfl) hstage
    | release myPid => exact List.filter_sublist.subset

theorem Sound.leads (h : Sound alive files log) {seen : Option LeaderState} {pid : UInt32}
    (hseen : files.record.map (fun r => (r.pid, r.generation)) =
      seen.map (fun r => (r.pid, r.generation))) (hpid : pid ∈ leaders log) :
    ∃ existing, seen = some existing ∧ existing.pid = pid := by
  obtain ⟨r, hrecord, hleads⟩ := h.onRecord pid hpid
  rw [hrecord] at hseen
  cases seen with
  | none => cases hseen
  | some existing =>
    simp only [Option.map_some, Option.some.injEq, Prod.mk.injEq] at hseen
    exact ⟨existing, rfl, hseen.1 ▸ hleads⟩

theorem Proposes.next {seen : Option LeaderState} {lapsed : Bool} {state existing : LeaderState}
    {call : SemaphoreCall} (h : Proposes seen lapsed state call) (hseen : seen = some existing)
    (hother : existing.pid ≠ state.pid) : state.generation = existing.generation + 1 := by
  subst hseen
  cases call with
  | tryAcquire myPid =>
    obtain ⟨hpid, ⟨hown, -⟩ | ⟨-, hnext⟩⟩ := h
    · exact absurd (hown.trans hpid.symm) hother
    · exact hnext
  | heartbeat myPid =>
    obtain ⟨_, hsome, hown, hpid, -⟩ := h
    cases hsome
    exact absurd (hown.trans hpid.symm) hother
  | transfer fromPid toPid =>
    obtain ⟨_, hsome, -, -, hnext⟩ := h
    cases hsome
    exact hnext
  | release myPid => exact h.elim

theorem Proposes.leads {seen : Option LeaderState} {lapsed : Bool} {state : LeaderState}
    {call : SemaphoreCall} (hproposes : Proposes seen lapsed state call)
    (hgone : FoundGone alive (.seen seen lapsed)) (h : Sound alive files log)
    (hseen : files.record.map (fun r => (r.pid, r.generation)) =
      seen.map (fun r => (r.pid, r.generation))) (value : Option LeaderState) {pid : UInt32}
    (hpid : pid ∈ leadersAfter (leaders log) (call, .ok value)) : pid = state.pid := by
  cases call with
  | tryAcquire myPid =>
    obtain ⟨hstate, hgeneration⟩ := hproposes
    rcases List.mem_insert_iff.mp hpid with hpid | hpid
    · rw [hpid, hstate]
    · obtain ⟨existing, rfl, hleads⟩ := h.leads hseen hpid
      rcases hgeneration with ⟨hown, -⟩ | ⟨rfl, -⟩
      · rw [← hleads, hown, hstate]
      · -- the process on record was found gone, yet every leader is alive
        have hliving := h.living pid hpid
        rw [← hleads, hgone rfl existing rfl] at hliving
        cases hliving
  | heartbeat myPid =>
    obtain ⟨existing, rfl, hown, hstate, -⟩ := hproposes
    obtain ⟨_, hsome, hleads⟩ := h.leads hseen hpid
    cases hsome
    rw [← hleads, hown, hstate]
  | transfer fromPid toPid =>
    obtain ⟨existing, rfl, hown, hstate, -⟩ := hproposes
    rcases List.mem_insert_iff.mp hpid with hpid | hpid
    · rw [hpid, hstate]
    · obtain ⟨hpid, hother⟩ := List.mem_filter.mp hpid
      obtain ⟨_, hsome, hleads⟩ := h.leads hseen hpid
      cases hsome
      exact absurd (hleads.symm.trans hown) (by simpa using hother)
  | release myPid => exact hproposes.elim

theorem Sound.rises (h : Sound alive files log) {seen : Option LeaderState} {lapsed : Bool}
    {state last : LeaderState} {call : SemaphoreCall} (hproposes : Proposes seen lapsed state call)
    (hreplaces : replaces files seen state.toJson) (hlast : files.records.getLast? = some last) :
    Rises last state := by
  intro hother
  simp only [replaces, LeaderState.fromJson_toJson, Bool.and_eq_true, decide_eq_true_eq,
    Option.all_some] at hreplaces
  obtain ⟨⟨-, hseen⟩, hchange⟩ := hreplaces
  cases seen with
  | none =>
    rw [hlast] at hchange
    exact absurd (of_decide_eq_true hchange) hother
  | some existing =>
    cases hrecord : files.record with
    | none =>
      rw [hrecord] at hseen
      cases hseen
    | some r =>
      rw [hrecord] at hseen
      simp only [Option.map_some, Option.some.injEq, Prod.mk.injEq] at hseen
      obtain ⟨l, hl, hpid, hgeneration⟩ := h.last r hrecord
      rw [hlast] at hl
      cases hl
      have hold : existing.pid ≠ state.pid := by
        rw [← hseen.1, ← hpid]
        exact hother
      simp only [hold, decide_false, Bool.false_or, decide_eq_true_eq] at hchange
      rw [hproposes.next rfl hold, hgeneration, hseen.2, UInt64.lt_iff_toNat_lt, UInt64.toNat_add]
      change existing.generation.toNat < (existing.generation.toNat + 1) % 2 ^ 64
      rw [Nat.mod_eq_of_lt hchange]
      exact Nat.lt_succ_self _

theorem Sound.rename (h : Sound alive files log) {seen : Option LeaderState} {lapsed : Bool}
    {state : LeaderState} {call : SemaphoreCall} {staleSecs : UInt64}
    (hadmitted : (lively alive staleSecs).admits call)
    (hproposes : Proposes seen lapsed state call) (hgone : FoundGone alive (.seen seen lapsed))
    (hreplaces : replaces files seen state.toJson) (value : Option LeaderState) :
    Sound alive ⟨some state.toJson, none, files.records ++ [state]⟩
      (log ++ [(call, .ok value)]) := by
  have hseen : files.record.map (fun r => (r.pid, r.generation)) =
      seen.map (fun r => (r.pid, r.generation)) := by
    simp only [replaces, Bool.and_eq_true, decide_eq_true_eq] at hreplaces
    exact hreplaces.1.2
  have hrecord : (⟨some state.toJson, none, files.records ++ [state]⟩ : SemaphoreFiles).record =
      some state := LeaderState.fromJson_toJson state
  have hleads (pid : UInt32) (hpid : pid ∈ leaders (log ++ [(call, .ok value)])) :
      pid = state.pid := by
    rw [leaders_append] at hpid
    exact hproposes.leads hgone h hseen value hpid
  refine ⟨?_, ?_, ?_, ?_⟩
  · intro pid hpid
    exact ⟨state, hrecord, (hleads pid hpid).symm⟩
  · intro pid hpid
    rw [leaders_append] at hpid
    cases call with
    | tryAcquire myPid =>
      rcases List.mem_insert_iff.mp hpid with rfl | hpid
      · exact hadmitted
      · exact h.living pid hpid
    | heartbeat myPid => exact h.living pid hpid
    | transfer fromPid toPid =>
      rcases List.mem_insert_iff.mp hpid with rfl | hpid
      · exact (Bool.and_eq_true_iff.mp hadmitted).2
      · exact h.living pid (List.mem_of_mem_filter hpid)
    | release myPid => exact hproposes.elim
  · intro r hr
    rw [hrecord] at hr
    cases hr
    exact ⟨state, by simp, rfl, rfl⟩
  · rw [List.isChain_append]
    refine ⟨h.rising, List.isChain_singleton state, ?_⟩
    intro last hlast next hnext
    cases hnext
    exact h.rises hproposes hreplaces hlast

theorem Sound.remove (h : Sound alive files log) {myPid : UInt32}
    (hown : files.record.all fun r => r.pid = myPid) (value : Option LeaderState) :
    Sound alive { files with lock := none } (log ++ [(.release myPid, .ok value)]) := by
  have hnone (pid : UInt32) : pid ∉ leaders (log ++ [(.release myPid, .ok value)]) := by
    rw [leaders_append]
    intro hpid
    obtain ⟨hpid, hother⟩ := List.mem_filter.mp hpid
    obtain ⟨r, hrecord, hleads⟩ := h.onRecord pid hpid
    rw [hrecord, Option.all_some, decide_eq_true_eq, hleads] at hown
    exact absurd hown (by simpa using hother)
  refine ⟨?_, ?_, ?_, h.rising⟩
  · intro pid hpid
    exact absurd hpid (hnone pid)
  · intro pid hpid
    exact absurd hpid (hnone pid)
  · intro r hr
    cases hr

end Steps

def SemaphoreCmd.leavesLock : SemaphoreCmd → Bool
  | .rename | .removeFile => false
  | _ => true

theorem semaphoreAnswer_leavesLock {alive : UInt32 → Bool} {staleSecs : UInt64}
    {files : SemaphoreFiles} {world : SemaphoreWorld} {cmd : SemaphoreCmd} (h : cmd.leavesLock) :
    (semaphoreAnswer alive staleSecs files world cmd).2.lock = files.lock ∧
      (semaphoreAnswer alive staleSecs files world cmd).2.records = files.records := by
  cases cmd with
  | readToString => cases hfault : world.fault <;> simp [semaphoreAnswer, hfault]
  | isPidAlive pid => exact ⟨rfl, rfl⟩
  | isStale state => exact ⟨rfl, rfl⟩
  | epochNow => exact ⟨rfl, rfl⟩
  | writeTmp json =>
    cases hfault : world.fault with
    | none => simp [semaphoreAnswer, hfault]
    | some fault =>
      obtain ⟨fault, reason⟩ := fault
      cases fault <;> simp [semaphoreAnswer, hfault]
  | rename => cases h
  | removeFile => cases h

theorem semaphoreNext_ne_published {stage : SemaphoreStage} {cmd : SemaphoreCmd}
    (h : cmd.leavesLock) (answer : cmd.Ans) : semaphoreNext stage cmd answer ≠ .published := by
  unfold semaphoreNext
  split <;> first | (rintro ⟨⟩; done) | cases h

theorem semaphoreAllowed_last {call : SemaphoreCall} {stage : SemaphoreStage} {cmd : SemaphoreCmd}
    (hallowed : semaphoreAllowed call stage cmd) (hlock : ¬ cmd.leavesLock) (answer : cmd.Ans)
    (later : SemaphoreCmd) : ¬ semaphoreAllowed call (semaphoreNext stage cmd answer) later := by
  intro hlater
  cases cmd with
  | rename =>
    cases stage with
    | written seen lapsed text =>
      cases answer with
      | ok renamed => exact hlater
      | error reason => exact hlater
    | _ => exact hallowed
  | removeFile =>
    cases stage with
    | seen seen lapsed => exact hlater
    | _ => exact hallowed
  | _ => exact hlock rfl

theorem semaphore_rules (alive : UInt32 → Bool) (staleSecs : UInt64) :
    Calls.Rules (semaphoreHost alive staleSecs) semaphoreProtocol .fresh semaphorePost
      ((lively alive staleSecs).both undisturbed) (FoundGone alive) (Sound alive) where
  program := follows_program
  unfinished call value h := h.1 rfl
  begins := trivial
  learns files world call stage cmd h := by
    have hallowed : semaphoreAllowed call stage cmd := h.allowed
    have hbelief := h.belief
    change FoundGone alive
      (semaphoreNext stage cmd (semaphoreAnswer alive staleSecs files world cmd).1)
    cases stage with
    | fresh =>
      cases cmd with
      | readToString =>
        cases hfault : world.fault with
        | none =>
          simp only [semaphoreAnswer, hfault, semaphoreNext]
          exact fun hlapsed => nomatch hlapsed
        | some fault =>
          simp only [semaphoreAnswer, hfault, semaphoreNext]
          trivial
      | _ => exact False.elim hallowed
    | seen seen lapsed =>
      cases cmd with
      | isPidAlive pid =>
        intro hgone existing hseen
        obtain ⟨_, hsome, hpid⟩ := hallowed
        rw [hseen] at hsome
        cases hsome
        rw [hpid]
        exact Bool.not_eq_true' _ |>.mp hgone
      | isStale state =>
        have hfresh : (!(semaphoreAnswer alive staleSecs files world (.isStale state)).1) = true :=
          (Bool.and_eq_true_iff.mp h.permitted).1
        intro hstale
        rw [show (semaphoreAnswer alive staleSecs files world (.isStale state)).1 = true
          from hstale] at hfresh
        cases hfresh
      | epochNow => exact hbelief
      | writeTmp text =>
        cases hanswer : (semaphoreAnswer alive staleSecs files world (.writeTmp text)).1 with
        | ok written => exact hbelief
        | error fault => trivial
      | removeFile => trivial
      | readToString => exact False.elim hallowed
      | rename => exact False.elim hallowed
    | written seen lapsed text =>
      cases cmd with
      | rename =>
        cases hanswer : (semaphoreAnswer alive staleSecs files world .rename).1 with
        | ok renamed => trivial
        | error reason => trivial
      | _ => exact False.elim hallowed
    | published => exact False.elim hallowed
    | removed => exact False.elim hallowed
    | failed => exact False.elim hallowed
  goesOn files world call stage cmd log h hsound hlater := by
    by_cases hlock : cmd.leavesLock
    · obtain ⟨hsame, hrecords⟩ := @semaphoreAnswer_leavesLock alive staleSecs files world cmd hlock
      exact hsound.shrink hsame hrecords (List.Subset.refl _)
    · obtain ⟨later, hlater⟩ := hlater
      exact absurd hlater (semaphoreAllowed_last h.allowed hlock _ later)
  returns files world call stage cmd log value h hsound hpost := by
    have hallowed : semaphoreAllowed call stage cmd := h.allowed
    have hpermitted := (Bool.and_eq_true_iff.mp h.permitted).2
    change semaphorePost call
      (semaphoreNext stage cmd (semaphoreAnswer alive staleSecs files world cmd).1) value at hpost
    change Sound alive (semaphoreAnswer alive staleSecs files world cmd).2 _
    -- a call that ends without a record in place makes no leader
    have hquiet (hstage : semaphoreNext stage cmd
          (semaphoreAnswer alive staleSecs files world cmd).1 ≠ .published)
        (hlock : (semaphoreAnswer alive staleSecs files world cmd).2.lock = files.lock)
        (hrecords : (semaphoreAnswer alive staleSecs files world cmd).2.records = files.records) :
        Sound alive (semaphoreAnswer alive staleSecs files world cmd).2
          (log ++ [(call, value)]) := by
      apply hsound.shrink hlock hrecords
      rw [leaders_append]
      exact leadersAfter_subset hpost hstage (leaders log)
    by_cases hlock : cmd.leavesLock
    · obtain ⟨hsame, hrecords⟩ := @semaphoreAnswer_leavesLock alive staleSecs files world cmd hlock
      exact hquiet (semaphoreNext_ne_published hlock _) hsame hrecords
    · cases cmd with
      | rename =>
        cases stage with
        | written seen lapsed text =>
          obtain ⟨state, rfl, hproposes⟩ := hallowed
          cases hfault : world.fault with
          | some fault =>
            apply hquiet <;> simp [semaphoreAnswer, hfault, semaphoreNext]
          | none =>
            cases htmp : files.tmp with
            | none => apply hquiet <;> simp [semaphoreAnswer, hfault, htmp, semaphoreNext]
            | some text =>
              have hreplaces : replaces files seen state.toJson := by
                simpa [undisturbed, hfault, htmp] using hpermitted
              have htext : text = state.toJson := by
                have hsame := (Bool.and_eq_true_iff.mp (Bool.and_eq_true_iff.mp hreplaces).1).1
                rw [htmp] at hsame
                exact Option.some.inj (of_decide_eq_true hsame)
              subst htext
              simp only [semaphoreAnswer, hfault, htmp, semaphoreNext,
                LeaderState.fromJson_toJson, Option.toList_some] at hpost ⊢
              obtain ⟨result, rfl⟩ := hpost.2.1 (.inl rfl)
              exact hsound.rename (Bool.and_eq_true_iff.mp h.admitted).1 hproposes h.belief
                hreplaces result
        | _ => exact False.elim hallowed
      | removeFile =>
        cases stage with
        | seen seen lapsed =>
          obtain ⟨existing, rfl, rfl⟩ := hallowed
          cases hfault : world.fault with
          | some fault =>
            apply hquiet <;> simp [semaphoreAnswer, hfault, semaphoreNext]
          | none =>
            cases hfile : files.lock with
            | none => apply hquiet <;> simp [semaphoreAnswer, hfault, hfile, semaphoreNext]
            | some text =>
              have hown : files.record.all fun r => r.pid = existing.pid := by
                simpa [undisturbed, hfault] using hpermitted
              simp only [semaphoreAnswer, hfault, hfile, semaphoreNext] at hpost ⊢
              obtain ⟨result, rfl⟩ := hpost.2.1 (.inr rfl)
              exact hsound.remove hown result
        | _ => exact False.elim hallowed
      | _ => exact absurd rfl hlock

def LedByOne (calls : SemaphoreCalls) : Prop :=
  ∀ p ∈ leaders calls.finished, ∀ q ∈ leaders calls.finished, p = q

def GenerationsRise (calls : SemaphoreCalls) : Prop :=
  calls.shared.records.IsChain Rises

instance (calls : SemaphoreCalls) : Decidable (GenerationsRise calls) :=
  inferInstanceAs (Decidable (List.IsChain _ _))

section Runs

variable (alive : UInt32 → Bool) (staleSecs : UInt64) (lock tmp : Option (List Char))
  (events : List SemaphoreEvent)

def semaphoreRun : SemaphoreCalls :=
  (Calls.machine (semaphoreHost alive staleSecs)).run (Calls.init (.init lock tmp)) events

def SemaphoreMeets
    (condition : Calls.Condition SemaphoreFiles SemaphoreCall SemaphoreWorld SemaphoreCmd
      SemaphoreStage) : Bool :=
  condition.meets (semaphoreHost alive staleSecs) semaphoreProtocol .fresh
    (Calls.init (.init lock tmp)) events

/-- While no call disturbs another, at most one process leads and the generation rises with
every change of the leader. -/
theorem one_leader_undisturbed
    (hlively : SemaphoreMeets alive staleSecs lock tmp events (lively alive staleSecs))
    (hundisturbed : SemaphoreMeets alive staleSecs lock tmp events undisturbed) :
    LedByOne (semaphoreRun alive staleSecs lock tmp events) ∧
      GenerationsRise (semaphoreRun alive staleSecs lock tmp events) := by
  have hinit : Sound alive (.init lock tmp) [] := by
    refine ⟨?_, ?_, ?_, ?_⟩
    · intro pid hpid
      cases hpid
    · intro pid hpid
      cases hpid
    · intro r hr
      change lock.bind LeaderState.fromJson = some r at hr
      exact ⟨r, by simp [SemaphoreFiles.init, hr], rfl, rfl⟩
    · cases hr : lock.bind LeaderState.fromJson with
      | none => simp [SemaphoreFiles.init, hr]
      | some r => simp [SemaphoreFiles.init, hr]
  have hsound := (semaphore_rules alive staleSecs).run hinit events
    (Calls.Condition.both_meets hlively hundisturbed)
  refine ⟨?_, hsound.rising⟩
  intro p hp q hq
  obtain ⟨r, hr, rfl⟩ := hsound.onRecord p hp
  obtain ⟨r', hr', rfl⟩ := hsound.onRecord q hq
  rw [hr] at hr'
  cases hr'
  rfl

end Runs

/-- Let a call carry out its next commands, all at one time and without a fault. -/
def proceed (index : Nat) (times : Nat) (now : UInt64) : List SemaphoreEvent :=
  List.replicate times (.advance index ⟨now, none⟩)

/-- Process 1 acquires and hands over to process 2, which beats once and lets go. -/
def handover : List SemaphoreEvent :=
  .start (.tryAcquire 1) :: proceed 0 4 100 ++ .start (.transfer 1 2) :: proceed 1 4 110 ++
    .start (.heartbeat 2) :: proceed 2 4 120 ++ .start (.release 2) :: proceed 3 2 130

theorem handover_led_by_one :
    LedByOne (semaphoreRun (fun _ => true) 60 none none handover) ∧
      GenerationsRise (semaphoreRun (fun _ => true) 60 none none handover) :=
  one_leader_undisturbed _ _ _ _ _ (by decide) (by decide)

/-- Two calls that both read before either writes both acquire. -/
def race : List SemaphoreEvent :=
  [.start (.tryAcquire 1), .start (.tryAcquire 2)] ++ proceed 0 1 100 ++ proceed 1 1 100 ++
    proceed 0 3 100 ++ proceed 1 3 100

/-- A leader lets go and another process acquires. -/
def succession : List SemaphoreEvent :=
  .start (.tryAcquire 1) :: proceed 0 4 100 ++ .start (.release 1) :: proceed 1 2 110 ++
    .start (.tryAcquire 2) :: proceed 2 4 120

theorem two_leaders_and_same_generation :
    ¬ (∀ alive staleSecs lock tmp events,
      SemaphoreMeets alive staleSecs lock tmp events (lively alive staleSecs) →
        LedByOne (semaphoreRun alive staleSecs lock tmp events)) ∧
    ¬ (∀ alive staleSecs lock tmp events,
      SemaphoreMeets alive staleSecs lock tmp events (lively alive staleSecs) →
        GenerationsRise (semaphoreRun alive staleSecs lock tmp events)) := by
  constructor
  · intro h
    have hleaders : leaders (semaphoreRun (fun _ => true) 60 none none race).finished = [2, 1] := by
      decide
    have hone := h (fun _ => true) 60 none none race (by decide)
    unfold LedByOne at hone
    rw [hleaders] at hone
    exact absurd (hone 1 (by decide) 2 (by decide)) (by decide)
  · intro h
    exact absurd (h (fun _ => true) 60 none none succession (by decide)) (by decide)

end Simard.Locks
