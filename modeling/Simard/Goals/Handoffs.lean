import Simard.Goals.Curation
import Simard.Library.BTreeMap
import Simard.Library.Machine

/-! The directory of meeting handoffs. Meetings and the overseer leave handoffs in it;
the curator turns the oldest ones into goals, and the whisper drain reads the overseer's
notes out of theirs. Both mark what they have read with the same flag. -/
namespace Simard.Goals
open Simard.Library

structure ActionItem where
  description : String
  owner : String
  priority : Nat
  deriving DecidableEq

structure HandoffArtifact where
  kind : String
  uriOrPath : String
  deriving DecidableEq

/-- Decisions and open questions by their texts. -/
structure MeetingHandoff where
  topic : String
  closedAt : String
  decisions : List String
  actionItems : List ActionItem
  openQuestions : List String
  processed : Bool
  themes : List String
  nextOwner : Option String
  artifacts : List HandoffArtifact
  deriving DecidableEq

abbrev HandoffDir := BTreeMap String (Option MeetingHandoff)

def meetingHandoffFilename : String := "meeting_handoff.json"

def isTimestampedName (name : String) : Bool :=
  "handoff-".toList.isPrefixOf name.toList && ".json".toList.isSuffixOf name.toList

def handoffFile (handoff : MeetingHandoff) : String :=
  let spell := fun c : Char => if c = ':' then '-' else if c = '+' then '_' else c
  "handoff-" ++ String.ofList (handoff.closedAt.toList.map spell) ++ ".json"

def writeMeetingHandoff (handoff : MeetingHandoff) (dir : HandoffDir) : HandoffDir :=
  dir.insert (handoffFile handoff) (some handoff)

def markProcessed (name : String) (handoff : MeetingHandoff) (dir : HandoffDir) : HandoffDir :=
  dir.insert name (some { handoff with processed := true })

def isHandoffName (name : String) : Bool :=
  isTimestampedName name || name = meetingHandoffFilename

def pendingFile (file : String × Option MeetingHandoff) : Option (String × MeetingHandoff) :=
  match file with
  | (name, some handoff) =>
      if isHandoffName name && !handoff.processed then some (name, handoff) else none
  | (_, none) => none

def pending (dir : HandoffDir) : List (String × MeetingHandoff) := dir.entries.filterMap pendingFile

def findOldestUnprocessedHandoff (dir : HandoffDir) : Option (String × MeetingHandoff) :=
  (pending dir).head?

def batchHandoffLimit : Nat := 10

namespace MeetingHandoff

def ownerSuffix (handoff : MeetingHandoff) : String :=
  match handoff.nextOwner with
  | some owner => " owner=" ++ owner
  | none => ""

def artifactSuffix (handoff : MeetingHandoff) : String :=
  if handoff.artifacts.isEmpty then ""
  else " artifacts=[" ++
    "; ".intercalate (handoff.artifacts.map fun artifact =>
      artifact.kind ++ "=" ++ artifact.uriOrPath) ++ "]"

def source (handoff : MeetingHandoff) : String :=
  "meeting:" ++ handoff.topic ++ handoff.ownerSuffix ++ handoff.artifactSuffix

def isEmpty (handoff : MeetingHandoff) : Bool :=
  handoff.decisions.isEmpty && handoff.actionItems.isEmpty

end MeetingHandoff

/-- The board with the number of goals and items put on it. -/
structure Ingest where
  board : GoalBoard
  created : Nat

def Ingest.knows (ingest : Ingest) (tombstones : Finset String) (id : String) : Bool :=
  id ∈ listings ingest.board || id ∈ tombstones

/-- A decision becomes an active goal, or a backlog item where there is no room. -/
def ingestDecision (tombstones : Finset String) (handoff : MeetingHandoff) (ingest : Ingest)
    (decision : String × Nat) : Ingest :=
  let (text, i) := decision
  let goalId := goalSlug text
  let description := "[meeting] " ++ text
  let board := ingest.board
  if ingest.knows tombstones goalId then ingest
  else if board.active.length < maxActiveGoals then
    let goal := { ActiveGoal.new goalId description (min (i + 1) 5) with
      assignedTo := handoff.nextOwner
      labels := [sourceMeeting] }
    ⟨{ board with active := board.active ++ [goal] }, ingest.created + 1⟩
  else
    let item := ⟨goalId, description, handoff.source, 1 - min ((i : ℚ) / 10) (9 / 10)⟩
    ⟨{ board with backlog := board.backlog ++ [item] }, ingest.created + 1⟩

def ingestActionItem (tombstones : Finset String) (handoff : MeetingHandoff) (ingest : Ingest)
    (item : ActionItem) : Ingest :=
  let itemId := goalSlug item.description
  let board := ingest.board
  if item.priority < 2 then ingest
  else if ingest.knows tombstones itemId then ingest
  else
    let description := "[action] " ++ item.description ++ " (owner: " ++ item.owner ++ ")"
    ⟨{ board with backlog := board.backlog ++
        [⟨itemId, description, handoff.source, min ((item.priority : ℚ) / 5) 1⟩] },
      ingest.created + 1⟩

def ingestHandoff (tombstones : Finset String) (handoff : MeetingHandoff)
    (ingest : Ingest) : Ingest :=
  let ingest := handoff.decisions.zipIdx.foldl (ingestDecision tombstones handoff) ingest
  handoff.actionItems.foldl (ingestActionItem tombstones handoff) ingest

/-- Up to so many handoffs, oldest first; an empty one is only marked. -/
def ingestLoop (tombstones : Finset String) :
    (batch : Nat) → HandoffDir → Ingest → Ingest × HandoffDir
  | 0, dir, ingest => (ingest, dir)
  | batch + 1, dir, ingest =>
      match findOldestUnprocessedHandoff dir with
      | none => (ingest, dir)
      | some (name, handoff) =>
          if handoff.isEmpty then
            ingestLoop tombstones batch (markProcessed name handoff dir) ingest
          else
            ingestLoop tombstones batch (markProcessed name handoff dir)
              (ingestHandoff tombstones handoff ingest)

def checkMeetingHandoffs (tombstones : Finset String) (dir : HandoffDir) (board : GoalBoard) :
    Ingest × HandoffDir :=
  ingestLoop tombstones batchHandoffLimit dir ⟨board, 0⟩

def whisperTheme : String := "overseer-whisper"

def drainFile (state : List String × HandoffDir) (name : String) : List String × HandoffDir :=
  match state.2.get? name with
  | some (some handoff) =>
      if handoff.processed || whisperTheme ∉ handoff.themes then state
      else (state.1 ++ handoff.openQuestions, markProcessed name handoff state.2)
  | _ => state

def drainOverseerWhispers (dir : HandoffDir) : List String × HandoffDir :=
  ((dir.entries.map Prod.fst).filter isTimestampedName).foldl drainFile ([], dir)

def MeetingHandoff.read (handoff : MeetingHandoff) : MeetingHandoff :=
  { handoff with processed := true }

section Pending

variable {dir : HandoffDir}

theorem pendingFile_eq_some {file : String × Option MeetingHandoff} {name : String}
    {handoff : MeetingHandoff} :
    pendingFile file = some (name, handoff) ↔
      file = (name, some handoff) ∧ isHandoffName name ∧ handoff.processed = false := by
  obtain ⟨name', _ | found⟩ := file
  · simp [pendingFile]
  · simp only [pendingFile, Option.ite_none_right_eq_some, Option.some_inj, Prod.mk.injEq,
      Bool.and_eq_true, Bool.not_eq_true']
    constructor
    · rintro ⟨hwaits, rfl, rfl⟩
      exact ⟨⟨rfl, rfl⟩, hwaits⟩
    · rintro ⟨⟨rfl, rfl⟩, hwaits⟩
      exact ⟨hwaits, rfl, rfl⟩

theorem mem_pending {name : String} {handoff : MeetingHandoff} :
    (name, handoff) ∈ pending dir ↔
      dir.get? name = some (some handoff) ∧ isHandoffName name ∧ handoff.processed = false := by
  unfold pending
  rw [List.mem_filterMap, BTreeMap.get?_eq_some]
  constructor
  · rintro ⟨file, hfile, hpending⟩
    obtain ⟨rfl, hwaits⟩ := pendingFile_eq_some.mp hpending
    exact ⟨hfile, hwaits⟩
  · rintro ⟨hfile, hwaits⟩
    exact ⟨_, hfile, pendingFile_eq_some.mpr ⟨rfl, hwaits⟩⟩

theorem pending_markProcessed {name : String} {handoff : MeetingHandoff}
    {rest : List (String × MeetingHandoff)} (h : pending dir = (name, handoff) :: rest) :
    pending (markProcessed name handoff dir) = rest := by
  obtain ⟨before, file, after, hentries, hbefore, hfile, hafter⟩ := List.filterMap_eq_cons_iff.mp h
  obtain ⟨rfl, -⟩ := pendingFile_eq_some.mp hfile
  unfold pending markProcessed
  rw [BTreeMap.entries_insert_of_mem hentries, List.filterMap_append, List.filterMap_cons,
    List.filterMap_eq_nil_iff.mpr hbefore]
  simpa [pendingFile] using hafter

theorem get?_markProcessed (name : String) (handoff : MeetingHandoff) (name' : String) :
    (markProcessed name handoff dir).get? name' =
      if name' = name then some (some handoff.read) else dir.get? name' :=
  BTreeMap.get?_insert dir name name' _

theorem get?_ingestLoop (tombstones : Finset String) (batch : Nat) (ingest : Ingest)
    (name : String) :
    (ingestLoop tombstones batch dir ingest).2.get? name =
      if name ∈ ((pending dir).take batch).map Prod.fst then
        (dir.get? name).map (Option.map MeetingHandoff.read)
      else dir.get? name := by
  induction batch generalizing dir ingest with
  | zero => simp [ingestLoop]
  | succ batch ih =>
    rw [ingestLoop, findOldestUnprocessedHandoff]
    cases hpending : pending dir with
    | nil => simp
    | cons file rest =>
      obtain ⟨oldest, handoff⟩ := file
      have hget : dir.get? oldest = some (some handoff) :=
        (mem_pending.mp (hpending ▸ List.mem_cons_self)).1
      have hrest (ingest : Ingest) :
          (ingestLoop tombstones batch (markProcessed oldest handoff dir) ingest).2.get? name =
            if name ∈ (((oldest, handoff) :: rest).take (batch + 1)).map Prod.fst then
              (dir.get? name).map (Option.map MeetingHandoff.read)
            else dir.get? name := by
        rw [ih, pending_markProcessed hpending, get?_markProcessed, List.take_succ_cons,
          List.map_cons]
        by_cases hname : name = oldest
        · subst hname
          have hread : handoff.read.read = handoff.read := rfl
          simp [hget, hread]
        · simp [hname]
      rw [List.head?_cons]
      dsimp only
      split
      · exact hrest ingest
      · exact hrest (ingestHandoff tombstones handoff ingest)

end Pending

/-- The whispers a drain reads, oldest name first. -/
def drainable (dir : HandoffDir) (name : String) : Option MeetingHandoff :=
  match dir.get? name with
  | some (some handoff) =>
      if handoff.processed || whisperTheme ∉ handoff.themes then none else some handoff
  | _ => none

def drained (dir : HandoffDir) : List (String × MeetingHandoff) :=
  ((dir.entries.map Prod.fst).filter isTimestampedName).filterMap fun name =>
    (drainable dir name).map fun handoff => (name, handoff)

section Drained

variable {dir : HandoffDir}

theorem drainable_eq_some {name : String} {handoff : MeetingHandoff} :
    drainable dir name = some handoff ↔ dir.get? name = some (some handoff) ∧
      handoff.processed = false ∧ whisperTheme ∈ handoff.themes := by
  unfold drainable
  split
  next found hget =>
    rw [hget]
    split
    next hskip =>
      constructor
      · nofun
      · rintro ⟨⟨⟩, hwaits, htheme⟩
        simp [hwaits, htheme] at hskip
    next hreads =>
      constructor
      · rintro ⟨⟩
        exact ⟨rfl, by simpa using hreads⟩
      · rintro ⟨⟨⟩, -⟩
        rfl
  next hother =>
    constructor
    · nofun
    · rintro ⟨hget, -⟩
      exact absurd hget (hother handoff)

theorem drainFile_eq (notes : List String) (name : String) :
    drainFile (notes, dir) name =
      match drainable dir name with
      | some handoff => (notes ++ handoff.openQuestions, markProcessed name handoff dir)
      | none => (notes, dir) := by
  unfold drainFile drainable
  dsimp only
  split
  next => split <;> rfl
  next => rfl

theorem foldl_drainFile {names : List String} (hnodup : names.Nodup) (notes : List String) :
    (names.foldl drainFile (notes, dir)).1 = notes ++
        names.flatMap (fun name => ((drainable dir name).map (·.openQuestions)).getD []) ∧
      ∀ name, (names.foldl drainFile (notes, dir)).2.get? name =
        if name ∈ names ∧ (drainable dir name).isSome then
          (dir.get? name).map (Option.map MeetingHandoff.read)
        else dir.get? name := by
  induction names generalizing dir notes with
  | nil => simp
  | cons first rest ih =>
    obtain ⟨hfirst, hrest⟩ := List.nodup_cons.mp hnodup
    rw [List.foldl_cons, drainFile_eq]
    cases hdrainable : drainable dir first with
    | none =>
      obtain ⟨hnotes, hget⟩ := @ih dir hrest notes
      refine ⟨by simp [hnotes, hdrainable], fun name => ?_⟩
      rw [hget name]
      by_cases hname : name = first
      · simp [hname, hdrainable, hfirst]
      · simp [hname]
    | some handoff =>
      obtain ⟨hnotes, hget⟩ := @ih (markProcessed first handoff dir) hrest
        (notes ++ handoff.openQuestions)
      have hothers (name : String) (hname : name ≠ first) :
          (markProcessed first handoff dir).get? name = dir.get? name := by
        rw [get?_markProcessed, if_neg hname]
      have hsame (name : String) (hname : name ≠ first) :
          drainable (markProcessed first handoff dir) name = drainable dir name := by
        rw [drainable, hothers name hname, drainable]
      constructor
      · rw [hnotes, List.flatMap_cons, hdrainable, List.append_assoc]
        congr 2
        apply List.flatMap_congr
        intro name hname
        rw [hsame name (fun heq => hfirst (heq ▸ hname))]
      · intro name
        rw [hget name]
        by_cases hname : name = first
        · subst hname
          simp [hfirst, hdrainable, get?_markProcessed, (drainable_eq_some.mp hdrainable).1]
        · simp [hname, hothers name hname, hsame name hname]

theorem nodup_timestamped : ((dir.entries.map Prod.fst).filter isTimestampedName).Nodup :=
  dir.nodup_keys.filter _

theorem notes_drainOverseerWhispers (dir : HandoffDir) :
    (drainOverseerWhispers dir).1 = (drained dir).flatMap (·.2.openQuestions) := by
  unfold drainOverseerWhispers drained
  rw [(foldl_drainFile nodup_timestamped []).1, List.nil_append]
  induction (dir.entries.map Prod.fst).filter isTimestampedName with
  | nil => rfl
  | cons name rest ih =>
    rw [List.flatMap_cons, List.filterMap_cons, ih]
    cases drainable dir name <;> simp

theorem mem_drained {name : String} {handoff : MeetingHandoff} :
    (name, handoff) ∈ drained dir ↔ isTimestampedName name ∧ drainable dir name = some handoff := by
  unfold drained
  simp only [List.mem_filterMap, List.mem_filter, Option.map_eq_some_iff, Prod.mk.injEq,
    exists_eq_right_right]
  constructor
  · rintro ⟨⟨-, hstamped⟩, hdrainable⟩
    exact ⟨hstamped, hdrainable⟩
  · rintro ⟨hstamped, hdrainable⟩
    have hentry := BTreeMap.get?_eq_some.mp (drainable_eq_some.mp hdrainable).1
    exact ⟨⟨List.mem_map_of_mem (f := Prod.fst) hentry, hstamped⟩, hdrainable⟩

theorem get?_drainOverseerWhispers (name : String) :
    (drainOverseerWhispers dir).2.get? name =
      if name ∈ (drained dir).map Prod.fst then
        (dir.get? name).map (Option.map MeetingHandoff.read)
      else dir.get? name := by
  have hnames : name ∈ (dir.entries.map Prod.fst).filter isTimestampedName ∧
      (drainable dir name).isSome ↔ name ∈ (drained dir).map Prod.fst := by
    constructor
    · rintro ⟨hname, hsome⟩
      obtain ⟨handoff, hdrainable⟩ := Option.isSome_iff_exists.mp hsome
      have hdrained := mem_drained.mpr ⟨(List.mem_filter.mp hname).2, hdrainable⟩
      exact List.mem_map_of_mem (f := Prod.fst) hdrained
    · intro hmem
      obtain ⟨⟨name', handoff⟩, hdrained, rfl⟩ := List.mem_map.mp hmem
      obtain ⟨hstamped, hdrainable⟩ := mem_drained.mp hdrained
      have hentry := BTreeMap.get?_eq_some.mp (drainable_eq_some.mp hdrainable).1
      exact ⟨List.mem_filter.mpr ⟨List.mem_map_of_mem (f := Prod.fst) hentry, hstamped⟩,
        Option.isSome_of_eq_some hdrainable⟩
  unfold drainOverseerWhispers
  rw [(foldl_drainFile nodup_timestamped []).2 name]
  simp only [hnames]

end Drained

inductive MailboxEvent where
  | arrive (handoff : MeetingHandoff)
  | curate (tombstones : Finset String) (board : GoalBoard)
  | drain

def mailbox : Machine HandoffDir MailboxEvent where
  step dir
    | .arrive handoff => writeMeetingHandoff handoff dir
    | .curate tombstones board => (checkMeetingHandoffs tombstones dir board).2
    | .drain => (drainOverseerWhispers dir).2

/-- Advice only: nothing in it can become a goal. -/
def MeetingHandoff.IsWhisper (handoff : MeetingHandoff) : Prop :=
  whisperTheme ∈ handoff.themes ∧ handoff.decisions = [] ∧ handoff.actionItems = []

def Unread (dir : HandoffDir) (name : String) (handoff : MeetingHandoff) : Prop :=
  dir.get? name = some (some handoff) ∧ handoff.IsWhisper ∧ handoff.processed = false

def isRead (dir : HandoffDir) (name : String) : Bool :=
  match dir.get? name with
  | some (some handoff) => handoff.processed
  | _ => false

def MailboxEvent.replaces (name : String) : MailboxEvent → Bool
  | .arrive handoff => handoffFile handoff = name
  | _ => false

def returns (name : String) (t : Machine.Transition HandoffDir MailboxEvent) : Bool :=
  match t.event with
  | .drain => name ∈ (drained t.before).map Prod.fst
  | _ => false

/-- From any point of a run on, an unread whisper is returned by one drain once its file
is marked, by none before; and its file is not written over. -/
structure NoWhisperLost (dir : HandoffDir) (events : List MailboxEvent) : Prop where
  returned : ∀ left middle right, events = left ++ (middle ++ right) → ∀ name handoff,
    Unread (mailbox.run dir left) name handoff → (∀ e ∈ middle, e.replaces name = false) →
    (mailbox.trace (mailbox.run dir left) middle).countP (returns name) =
      if isRead (mailbox.run (mailbox.run dir left) middle) name then 1 else 0
  kept : ∀ left new right, events = left ++ MailboxEvent.arrive new :: right → ∀ handoff,
    ¬ Unread (mailbox.run dir left) (handoffFile new) handoff

/-- Whispers are not among the handoffs curation reads next, nor written over. -/
def SparesWhispers (dir : HandoffDir) : MailboxEvent → Prop
  | .arrive new => ∀ handoff, ¬ Unread dir (handoffFile new) handoff
  | .curate _ _ => ∀ file ∈ (pending dir).take batchHandoffLimit, ¬ file.2.IsWhisper
  | .drain => True

section Delivery

variable {dir : HandoffDir} {name : String} {handoff : MeetingHandoff}

theorem get?_arrive {new : MeetingHandoff} (hname : handoffFile new ≠ name) :
    (mailbox.step dir (.arrive new)).get? name = dir.get? name := by
  change (dir.insert (handoffFile new) (some new)).get? name = dir.get? name
  rw [BTreeMap.get?_insert, if_neg hname.symm]

theorem read_step {e : MailboxEvent} (hread : dir.get? name = some (some handoff))
    (hprocessed : handoff.processed) (hname : e.replaces name = false) :
    (mailbox.step dir e).get? name = some (some handoff) ∧
      returns name ⟨dir, e, mailbox.step dir e⟩ = false := by
  have hsame : handoff.read = handoff := by
    obtain ⟨topic, closedAt, decisions, actionItems, openQuestions, processed, themes, nextOwner,
      artifacts⟩ := handoff
    cases hprocessed
    rfl
  cases e with
  | arrive new =>
    have hother : handoffFile new ≠ name := by simpa [MailboxEvent.replaces] using hname
    exact ⟨(get?_arrive hother).trans hread, rfl⟩
  | curate tombstones board =>
    refine ⟨?_, rfl⟩
    change (ingestLoop tombstones batchHandoffLimit dir ⟨board, 0⟩).2.get? name = _
    rw [get?_ingestLoop, hread]
    simp [hsame]
  | drain =>
    have hskipped : name ∉ (drained dir).map Prod.fst := by
      intro hmem
      obtain ⟨⟨name', found⟩, hdrained, rfl⟩ := List.mem_map.mp hmem
      obtain ⟨hget, hwaits, -⟩ := drainable_eq_some.mp (mem_drained.mp hdrained).2
      rw [hread] at hget
      cases hget
      rw [hprocessed] at hwaits
      cases hwaits
    refine ⟨?_, by simpa [returns] using hskipped⟩
    change (drainOverseerWhispers dir).2.get? name = _
    rw [get?_drainOverseerWhispers, if_neg hskipped, hread]

theorem read_run {events : List MailboxEvent} (hread : dir.get? name = some (some handoff))
    (hprocessed : handoff.processed) (hname : ∀ e ∈ events, e.replaces name = false) :
    (mailbox.trace dir events).countP (returns name) = 0 ∧
      (mailbox.run dir events).get? name = some (some handoff) := by
  induction events generalizing dir with
  | nil => exact ⟨rfl, hread⟩
  | cons e events ih =>
    obtain ⟨hstep, hreturns⟩ := read_step hread hprocessed (hname e List.mem_cons_self)
    obtain ⟨hcount, hget⟩ := ih hstep fun e' he' => hname e' (List.mem_cons_of_mem _ he')
    refine ⟨?_, hget⟩
    rw [Machine.trace, List.countP_cons, hcount, hreturns]
    rfl

theorem unread_step {e : MailboxEvent} (h : Unread dir name handoff)
    (hspares : SparesWhispers dir e) (hname : e.replaces name = false) :
    Unread (mailbox.step dir e) name handoff ∧
        returns name ⟨dir, e, mailbox.step dir e⟩ = false ∨
      (mailbox.step dir e).get? name = some (some handoff.read) ∧
        returns name ⟨dir, e, mailbox.step dir e⟩ = true := by
  obtain ⟨hget, hwhisper, hwaits⟩ := h
  cases e with
  | arrive new =>
    have hother : handoffFile new ≠ name := by simpa [MailboxEvent.replaces] using hname
    exact .inl ⟨⟨(get?_arrive hother).trans hget, hwhisper, hwaits⟩, rfl⟩
  | curate tombstones board =>
    have hspared : name ∉ ((pending dir).take batchHandoffLimit).map Prod.fst := by
      intro hmem
      obtain ⟨⟨name', found⟩, htaken, rfl⟩ := List.mem_map.mp hmem
      have hfound := (mem_pending.mp (List.mem_of_mem_take htaken)).1
      rw [hget] at hfound
      cases hfound
      exact hspares _ htaken hwhisper
    refine .inl ⟨⟨?_, hwhisper, hwaits⟩, rfl⟩
    change (ingestLoop tombstones batchHandoffLimit dir ⟨board, 0⟩).2.get? name = _
    rw [get?_ingestLoop, if_neg hspared, hget]
  | drain =>
    have hreturns : returns name ⟨dir, .drain, mailbox.step dir .drain⟩ =
        decide (name ∈ (drained dir).map Prod.fst) := rfl
    have hstep : (mailbox.step dir .drain).get? name =
        if name ∈ (drained dir).map Prod.fst then some (some handoff.read)
        else some (some handoff) := by
      change (drainOverseerWhispers dir).2.get? name = _
      rw [get?_drainOverseerWhispers, hget]
      rfl
    rw [hreturns, Unread, hstep]
    by_cases hdrained : name ∈ (drained dir).map Prod.fst
    · right
      simp [hdrained]
    · left
      simp [hdrained, hwhisper, hwaits]

theorem unread_run {events : List MailboxEvent} (h : Unread dir name handoff)
    (hspares : ∀ t ∈ mailbox.trace dir events, SparesWhispers t.before t.event)
    (hname : ∀ e ∈ events, e.replaces name = false) :
    (mailbox.trace dir events).countP (returns name) =
      if isRead (mailbox.run dir events) name then 1 else 0 := by
  induction events generalizing dir with
  | nil =>
    have hunread : isRead dir name = false := by simp [isRead, h.1, h.2.2]
    rw [mailbox.run_nil, hunread]
    rfl
  | cons e events ih =>
    rw [Machine.trace, List.forall_mem_cons] at hspares
    have hlater : ∀ e' ∈ events, e'.replaces name = false := fun e' he' =>
      hname e' (List.mem_cons_of_mem _ he')
    rw [Machine.trace, List.countP_cons, mailbox.run_cons]
    rcases unread_step h hspares.1 (hname e List.mem_cons_self) with
      ⟨hunread, hreturns⟩ | ⟨hread, hreturns⟩
    · rw [ih hunread hspares.2 hlater, hreturns]
      rfl
    · obtain ⟨hcount, hget⟩ := read_run hread rfl hlater
      have hisRead : isRead (mailbox.run (mailbox.step dir e) events) name = true := by
        simp [isRead, hget, MeetingHandoff.read]
      rw [hcount, hreturns, hisRead]
      rfl

theorem curated_lost {tombstones : Finset String} {board : GoalBoard}
    {file : String × MeetingHandoff} (hfile : file ∈ (pending dir).take batchHandoffLimit) :
    isRead (mailbox.step dir (.curate tombstones board)) file.1 = true := by
  obtain ⟨name, handoff⟩ := file
  have hget := (mem_pending.mp (List.mem_of_mem_take hfile)).1
  have hstep : (mailbox.step dir (.curate tombstones board)).get? name =
      some (some handoff.read) := by
    change (ingestLoop tombstones batchHandoffLimit dir ⟨board, 0⟩).2.get? name = _
    rw [get?_ingestLoop, if_pos (List.mem_map_of_mem (f := Prod.fst) hfile), hget]
    rfl
  simp [isRead, hstep, MeetingHandoff.read]

end Delivery

/-- In every run every whisper is delivered once exactly if none is ever among the
handoffs that curation reads next, nor written over while unread. -/
theorem no_whisper_lost_iff (dir : HandoffDir) (events : List MailboxEvent) :
    (NoWhisperLost dir events ↔
      ∀ t ∈ mailbox.trace dir events, SparesWhispers t.before t.event) ∧
    ∀ dir, (drainOverseerWhispers dir).1 = (drained dir).flatMap (·.2.openQuestions) := by
  refine ⟨⟨fun h t ht => ?_, fun h => ⟨?_, ?_⟩⟩, notes_drainOverseerWhispers⟩
  · obtain ⟨left, right, hevents, hbefore, -⟩ := mailbox.mem_trace ht
    rw [hbefore]
    cases hevent : t.event with
    | arrive new => exact h.kept left new right (hevent ▸ hevents)
    | drain => trivial
    | curate tombstones board =>
      rintro ⟨name, handoff⟩ hfile hwhisper
      obtain ⟨hget, -, hwaits⟩ := mem_pending.mp (List.mem_of_mem_take hfile)
      have hcount :=
        h.returned left [.curate tombstones board] right (hevent ▸ hevents) name handoff
        ⟨hget, hwhisper, hwaits⟩ (by simp [MailboxEvent.replaces])
      rw [mailbox.run_cons, mailbox.run_nil, curated_lost hfile] at hcount
      cases hcount
  · rintro left middle right rfl name handoff hunread hname
    apply unread_run hunread _ hname
    intro t ht
    apply h
    rw [mailbox.trace_append]
    exact List.mem_append_right _ (mailbox.trace_prefix ht)
  · rintro left new right rfl
    have hlast : (⟨mailbox.run dir left, .arrive new, mailbox.step (mailbox.run dir left)
        (.arrive new)⟩ : Machine.Transition HandoffDir MailboxEvent) ∈
        mailbox.trace dir (left ++ .arrive new :: right) := by
      rw [mailbox.trace_append]
      exact List.mem_append_right _ List.mem_cons_self
    exact h _ hlast

/-- Curation at the start of a cycle marks a whisper that no drain has read. -/
theorem whisper_curated_away :
    let whisper : MeetingHandoff :=
      { topic := "overseer whisper (loop_detected)"
        closedAt := "2025-01-01T00:00:00+00:00"
        decisions := []
        actionItems := []
        openQuestions := ["take the smallest next step"]
        processed := false
        themes := [whisperTheme]
        nextOwner := some "ooda-observe"
        artifacts := [] }
    ¬ NoWhisperLost .empty [.arrive whisper, .curate ∅ .new, .drain] := by
  intro whisper h
  have hcount := h.returned [.arrive whisper] [.curate ∅ .new, .drain] [] rfl (handoffFile whisper)
    whisper ⟨by decide, ⟨List.mem_singleton_self _, rfl, rfl⟩, rfl⟩ (by decide)
  revert hcount
  decide

end Simard.Goals
