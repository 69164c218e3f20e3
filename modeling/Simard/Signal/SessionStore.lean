import Simard.Library.BTreeMap
import Simard.Library.Bytes
import Simard.Signal.Continuity

/-! The files behind the conversations: one for each session with all of its turns, and one that
says which session of an operator is the active one. They lie in one directory, and a session may be
named like the index. -/
namespace Simard.Signal
open Simard.Library

structure ConversationMessage where
  role : Role
  content : String
  timestamp : String
  deriving DecidableEq

structure OperatorIndex where
  schemaVersion : Nat
  operators : BTreeMap String String

structure SignalSession where
  schemaVersion : Nat
  operator : String
  sessionId : String
  createdAt : String
  updatedAt : String
  history : List ConversationMessage

inductive StoredFile where
  | index (index : OperatorIndex)
  | session (session : SignalSession)

inductive StoreError where
  | invalidSessionId (value : String)
  | deserialize (file : String)
  | io
  deriving DecidableEq

/-- The files of the directory, by their names without the ending `.json`. -/
structure SessionDir where
  file : String → Option StoredFile

def SessionDir.write (dir : SessionDir) (name : String) (file : StoredFile) : SessionDir :=
  ⟨Function.update dir.file name (some file)⟩

def schemaVersion : Nat := 1

def operatorsIndex : String := "operators"

def validateSessionId (id : String) : Bool :=
  let bytes := utf8 id.toList
  bytes.length ≠ 0 && bytes.length ≤ 64 && bytes.all fun b =>
    let c := Char.ofNat b.toNat
    c.isAlphanum || c = '_' || c = '-'

def readSessionFile (dir : SessionDir) (id : String) : Except StoreError (Option SignalSession) :=
  match dir.file id with
  | none => .ok none
  | some (.session session) => .ok (some session)
  | some (.index _) => .error (.deserialize id)

/-- A session has the one field that is required of an index; the others are passed over. -/
def readOperatorIndex (dir : SessionDir) : OperatorIndex :=
  match dir.file operatorsIndex with
  | some (.index index) => index
  | some (.session session) => ⟨session.schemaVersion, .empty⟩
  | none => ⟨schemaVersion, .empty⟩

def operatorOwning (dir : SessionDir) (id : String) : String :=
  (((readOperatorIndex dir).operators.entries.find? fun entry => entry.2 = id).map Prod.fst).getD ""

def appendTurnAt (dir : SessionDir) (id : String) (message : ConversationMessage) (works : Bool) :
    Except StoreError SessionDir :=
  if !validateSessionId id then .error (.invalidSessionId id)
  else if !works then .error .io
  else do
    let found ← readSessionFile dir id
    let session := found.getD
      { schemaVersion := schemaVersion, operator := operatorOwning dir id, sessionId := id
        createdAt := message.timestamp, updatedAt := message.timestamp, history := [] }
    return dir.write id (.session { session with
      updatedAt := message.timestamp, history := session.history ++ [message] })

def loadSessionAt (dir : SessionDir) (id : String) : Except StoreError (Option SignalSession) :=
  if !validateSessionId id then .error (.invalidSessionId id) else readSessionFile dir id

def activeSessionFor (dir : SessionDir) (operator : String) : Option String :=
  (readOperatorIndex dir).operators.get? operator

def setActiveSession (dir : SessionDir) (operator id : String) (works : Bool) :
    Except StoreError SessionDir :=
  if !validateSessionId id then .error (.invalidSessionId id)
  else if !works then .error .io
  else
    let index := readOperatorIndex dir
    .ok (dir.write operatorsIndex
      (.index { index with operators := index.operators.insert operator id }))

inductive StoreCall where
  | append (id : String) (message : ConversationMessage) (works : Bool)
  | setActive (operator id : String) (works : Bool)

def StoreCall.answer (dir : SessionDir) : StoreCall → Except StoreError SessionDir
  | .append id message works => appendTurnAt dir id message works
  | .setActive operator id works => setActiveSession dir operator id works

def storeMachine : Machine SessionDir StoreCall where
  step dir call := ((call.answer dir).toOption).getD dir

/-- The active session of each operator, and the turns of each session. -/
structure Conversations where
  active : String → Option String
  turns : String → List ConversationMessage

def StoreCall.answered : StoreCall → Bool
  | .append id _ works => validateSessionId id && works
  | .setActive _ id works => validateSessionId id && works

def Conversations.take (c : Conversations) (call : StoreCall) : Conversations :=
  match call.answered, call with
  | true, .append id message _ =>
      { c with turns := Function.update c.turns id (c.turns id ++ [message]) }
  | true, .setActive operator id _ =>
    { c with active := Function.update c.active operator (some id) }
  | false, _ => c

def conversations : Machine Conversations StoreCall where
  step := Conversations.take

/-- What the file of a session holds: its turns, from the first to the last. -/
structure Holds (id : String) (turns : List ConversationMessage)
    (session : SignalSession) : Prop where
  named : session.sessionId = id
  history : session.history = turns
  created : turns.head?.map ConversationMessage.timestamp = some session.createdAt
  updated : turns.getLast?.map ConversationMessage.timestamp = some session.updatedAt

/-- The file of a session that is not named like the index, and its turns. -/
inductive Kept (id : String) : Option StoredFile → List ConversationMessage → Prop where
  | absent : Kept id none []
  | present {turns : List ConversationMessage} {session : SignalSession} :
      Holds id turns session → Kept id (some (.session session)) turns

structure Refines (dir : SessionDir) (c : Conversations) : Prop where
  active : ∀ operator, activeSessionFor dir operator = c.active operator
  kept : ∀ id, id ≠ operatorsIndex → Kept id (dir.file id) (c.turns id)
  unread : (∃ index, dir.file operatorsIndex = some (.index index)) ↔ ∃ operator,
    (c.active operator).isSome

theorem file_write_self (dir : SessionDir) (name : String) (file : StoredFile) :
    (dir.write name file).file name = some file :=
  Function.update_self _ _ _

theorem file_write_of_ne (dir : SessionDir) {name other : String} (file : StoredFile)
    (h : other ≠ name) : (dir.write name file).file other = dir.file other :=
  Function.update_of_ne h _ _

theorem holds_append {id : String} {turns : List ConversationMessage} {session : SignalSession}
    (h : Holds id turns session) (message : ConversationMessage) :
    Holds id (turns ++ [message]) { session with
      updatedAt := message.timestamp, history := session.history ++ [message] } := by
  refine ⟨h.named, by rw [h.history], ?_, ?_⟩
  · cases turns with
    | nil => cases h.created
    | cons first rest => exact h.created
  · rw [List.getLast?_concat]
    rfl

theorem appendTurnAt_kept {dir : SessionDir} {id : String} {turns : List ConversationMessage}
    (hkept : Kept id (dir.file id) turns) (hvalid : validateSessionId id = true)
    (message : ConversationMessage) : ∃ file, appendTurnAt dir id message true =
      .ok (dir.write id file) ∧ Kept id (some file) (turns ++ [message]) := by
  unfold appendTurnAt readSessionFile
  rw [hvalid]
  generalize dir.file id = file at hkept ⊢
  cases hkept with
  | absent => exact ⟨_, rfl, .present ⟨rfl, rfl, rfl, rfl⟩⟩
  | present hholds => exact ⟨_, rfl, .present (holds_append hholds message)⟩

theorem activeSessionFor_of_no_index {dir : SessionDir}
    (h : ¬∃ index, dir.file operatorsIndex = some (.index index)) (operator : String) :
    activeSessionFor dir operator = none := by
  unfold activeSessionFor readOperatorIndex
  cases hfile : dir.file operatorsIndex with
  | none => rfl
  | some file =>
    cases file with
    | index index => exact absurd ⟨index, hfile⟩ h
    | session session => rfl

theorem step_append_operators (dir : SessionDir) (message : ConversationMessage) :
    storeMachine.step dir (.append operatorsIndex message true) = dir ∨
      (¬∃ index, dir.file operatorsIndex = some (.index index)) ∧ ∃ session,
        storeMachine.step dir (.append operatorsIndex message true) =
          dir.write operatorsIndex (.session session) := by
  have hvalid : validateSessionId operatorsIndex = true := by decide +kernel
  change (appendTurnAt dir operatorsIndex message true).toOption.getD dir = dir ∨ _ ∧ ∃ session,
    (appendTurnAt dir operatorsIndex message true).toOption.getD dir = _
  unfold appendTurnAt readSessionFile
  rw [hvalid]
  cases hfile : dir.file operatorsIndex with
  | none =>
    refine Or.inr ⟨?_, _, rfl⟩
    rintro ⟨index, hindex⟩
    cases hindex
  | some file =>
    cases file with
    | index index => exact Or.inl rfl
    | session session =>
      refine Or.inr ⟨?_, _, rfl⟩
      rintro ⟨index, hindex⟩
      cases hindex

theorem step_unanswered {call : StoreCall} (h : call.answered = false) (dir : SessionDir)
    (c : Conversations) : storeMachine.step dir call = dir ∧ conversations.step c call = c := by
  refine ⟨?_, ?_⟩
  · cases call with
    | append id message works =>
      change (appendTurnAt dir id message works).toOption.getD dir = dir
      unfold appendTurnAt
      split
      · rfl
      next hvalid =>
        rw [Bool.not_eq_true, Bool.not_eq_false'] at hvalid
        rw [StoreCall.answered, hvalid, Bool.true_and] at h
        rw [h]
        rfl
    | setActive operator id works =>
      change (setActiveSession dir operator id works).toOption.getD dir = dir
      unfold setActiveSession
      split
      · rfl
      next hvalid =>
        rw [Bool.not_eq_true, Bool.not_eq_false'] at hvalid
        rw [StoreCall.answered, hvalid, Bool.true_and] at h
        rw [h]
        rfl
  · change c.take call = c
    unfold Conversations.take
    rw [h]

variable {dir : SessionDir} {c : Conversations}

theorem Refines.append (h : Refines dir c) {id : String} (hvalid : validateSessionId id = true)
    (message : ConversationMessage) : Refines (storeMachine.step dir (.append id message true))
      { c with turns := Function.update c.turns id (c.turns id ++ [message]) } := by
  by_cases hname : id = operatorsIndex
  · have hturns : ∀ other, other ≠ operatorsIndex →
        Function.update c.turns id (c.turns id ++ [message]) other = c.turns other :=
          fun other hother =>
      Function.update_of_ne (hname ▸ hother) _ _
    subst hname
    rcases step_append_operators dir message with hsame | ⟨hindex, session, hstep⟩
    · rw [hsame]
      refine ⟨h.active, fun other hother => ?_, h.unread⟩
      dsimp only
      rw [hturns other hother]
      exact h.kept other hother
    · rw [hstep]
      have hgone : ¬∃ index, (dir.write operatorsIndex (.session session)).file operatorsIndex =
          some (.index index) := by
        rw [file_write_self]
        rintro ⟨index, heq⟩
        cases heq
      refine ⟨fun operator => ?_, fun other hother => ?_, ?_⟩
      · rw [activeSessionFor_of_no_index hgone, ← h.active, activeSessionFor_of_no_index hindex]
      · dsimp only
        rw [hturns other hother, file_write_of_ne _ _ hother]
        exact h.kept other hother
      · rw [← h.unread]
        exact iff_of_false hgone hindex
  · obtain ⟨file, happend, hkept⟩ := appendTurnAt_kept (h.kept id hname) hvalid message
    have hstep : storeMachine.step dir (.append id message true) = dir.write id file := by
      change (appendTurnAt dir id message true).toOption.getD dir = _
      rw [happend]
      rfl
    rw [hstep]
    have hindex : (dir.write id file).file operatorsIndex = dir.file operatorsIndex :=
      file_write_of_ne dir file (Ne.symm hname)
    refine ⟨fun operator => ?_, fun other hother => ?_, ?_⟩
    · rw [← h.active]
      unfold activeSessionFor readOperatorIndex
      rw [hindex]
    · by_cases hsame : other = id
      · subst hsame
        dsimp only
        rw [file_write_self, Function.update_self]
        exact hkept
      · dsimp only
        rw [file_write_of_ne _ _ hsame, Function.update_of_ne hsame]
        exact h.kept other hother
    · rw [hindex]
      exact h.unread

theorem Refines.setActive (h : Refines dir c) (operator : String) {id : String}
    (hvalid : validateSessionId id = true) :
      Refines (storeMachine.step dir (.setActive operator id true))
      { c with active := Function.update c.active operator (some id) } := by
  have hstep : storeMachine.step dir (.setActive operator id true) = dir.write operatorsIndex
      (.index { readOperatorIndex dir with
        operators := (readOperatorIndex dir).operators.insert operator id }) := by
    change (setActiveSession dir operator id true).toOption.getD dir = _
    unfold setActiveSession
    rw [hvalid]
    rfl
  rw [hstep]
  refine ⟨fun other => ?_, fun other hother => ?_, ?_⟩
  · unfold activeSessionFor
    rw [readOperatorIndex, file_write_self]
    dsimp only
    rw [BTreeMap.get?_insert, Function.update_apply, ← h.active other]
    rfl
  · rw [file_write_of_ne _ _ hother]
    exact h.kept other hother
  · refine iff_of_true ⟨_, file_write_self _ _ _⟩ ⟨operator, ?_⟩
    dsimp only
    rw [Function.update_self]
    rfl

theorem Refines.step (h : Refines dir c) (call : StoreCall) :
    Refines (storeMachine.step dir call) (conversations.step c call) := by
  cases hanswered : call.answered with
  | false =>
    obtain ⟨hdir, hc⟩ := step_unanswered hanswered dir c
    rwa [hdir, hc]
  | true =>
    cases call with
    | append id message works =>
      rw [StoreCall.answered, Bool.and_eq_true] at hanswered
      obtain ⟨hvalid, rfl⟩ := hanswered
      have htake : conversations.step c (.append id message true) =
          { c with turns := Function.update c.turns id (c.turns id ++ [message]) } := by
        change c.take _ = _
        unfold Conversations.take
        rw [StoreCall.answered, hvalid]
        rfl
      rw [htake]
      exact h.append hvalid message
    | setActive operator id works =>
      rw [StoreCall.answered, Bool.and_eq_true] at hanswered
      obtain ⟨hvalid, rfl⟩ := hanswered
      have htake : conversations.step c (.setActive operator id true) =
          { c with active := Function.update c.active operator (some id) } := by
        change c.take _ = _
        unfold Conversations.take
        rw [StoreCall.answered, hvalid]
        rfl
      rw [htake]
      exact h.setActive operator hvalid

theorem refines_run (calls : List StoreCall) : Refines (storeMachine.run ⟨fun _ => none⟩ calls)
    (conversations.run ⟨fun _ => none, fun _ => []⟩ calls) := by
  induction calls using List.reverseRecOn with
  | nil =>
    refine ⟨fun _ => rfl, fun id _ => .absent, iff_of_false ?_ ?_⟩
    · rintro ⟨index, hindex⟩
      cases hindex
    · rintro ⟨operator, hoperator⟩
      cases hoperator
  | append_singleton calls call ih =>
    rw [Machine.run_append, Machine.run_append]
    exact ih.step call

/-- Whatever is called in whatever order and whichever calls fail, the active session of an operator
is the last one that was set for it, and the file of a session has exactly the turns that were
appended to it, in their order; only a session named `operators` cannot be read any more once there
is an index. -/
theorem sessions_read_back (calls : List StoreCall) :
    let dir := storeMachine.run ⟨fun _ => none⟩ calls
    let c := conversations.run ⟨fun _ => none, fun _ => []⟩ calls
    (∀ operator, activeSessionFor dir operator = c.active operator) ∧
    (∀ id, validateSessionId id = true → id ≠ operatorsIndex →
      (c.turns id = [] ∧ loadSessionAt dir id = .ok none ∨
        ∃ session, Holds id (c.turns id) session ∧ loadSessionAt dir id = .ok (some session))) ∧
    (loadSessionAt dir operatorsIndex = .error (.deserialize operatorsIndex) ↔
      ∃ operator, (c.active operator).isSome) := by
  intro dir c
  have hrefines : Refines dir c := refines_run calls
  refine ⟨hrefines.active, fun id hvalid hname => ?_, ?_⟩
  · have hkept := hrefines.kept id hname
    unfold loadSessionAt readSessionFile
    rw [hvalid]
    generalize dir.file id = file at hkept ⊢
    generalize c.turns id = turns at hkept
    cases hkept with
    | absent => exact Or.inl ⟨rfl, rfl⟩
    | present hholds => exact Or.inr ⟨_, hholds, rfl⟩
  · rw [← hrefines.unread]
    have hvalid : validateSessionId operatorsIndex = true := by decide +kernel
    unfold loadSessionAt readSessionFile
    rw [hvalid]
    cases hfile : dir.file operatorsIndex with
    | none => exact iff_of_false (fun h => by cases h) (by rintro ⟨index, hindex⟩; cases hindex)
    | some file =>
      cases file with
      | index index => exact iff_of_true rfl ⟨index, rfl⟩
      | session session =>
        exact iff_of_false (fun h => by cases h) (by rintro ⟨index, hindex⟩; cases hindex)

end Simard.Signal
