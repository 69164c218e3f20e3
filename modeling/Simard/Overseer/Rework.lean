import Simard.Library.Machine
import Simard.Library.Sha256
import Simard.Library.Store
import Simard.Library.Text

/-! The rework loop. A verdict that holds a pull request back and says what to change makes a
rework, a number of times at most; how often, for what last and what is to change is kept in
files. A file is found by the repository and the number of the pull request, and the name of
its directory joins the repository's two parts. -/
namespace Simard.Overseer
open Simard.Library

abbrev StatePath := List (List Char)

def badComponent (comp : List Char) : Bool :=
  comp = [] || comp = ".".toList || comp = "..".toList ||
    comp.any (fun c => c = '/' || c = '\\') || comp.any isWhitespace

def validateRepoSlug (repo : String) : Except String (List Char × List Char) :=
  if repo.toList.contains '\x00' then .error ("repo " ++ quoted repo ++ " contains a NUL byte")
  else
    match repo.toList.splitOn '/' with
    | [owner, name] =>
        match [owner, name].find? badComponent with
        | some comp => .error ("repo " ++ quoted repo ++ " has an invalid path component " ++
            quoted (String.ofList comp))
        | none => .ok (owner, name)
    | _ => .error ("repo " ++ quoted repo ++ " must be exactly <owner>/<name> (one '/')")

/-- A file of a pull request: its directory is named after the repository. -/
def prPath (dirs : List String) (extension : String) (repo : String) (pr : Nat) :
    Except String StatePath :=
  (validateRepoSlug repo).map fun parts =>
    dirs.map String.toList ++ [parts.1 ++ "__".toList ++ parts.2,
      Nat.toDigits 10 pr ++ extension.toList]

def recordPath : String → Nat → Except String StatePath := prPath ["merge_verdicts"] ".json"

def attemptStatePath : String → Nat → Except String StatePath :=
  prPath ["overseer", "rework_attempts"] ".json"

def concernFilePath : String → Nat → Except String StatePath :=
  prPath ["overseer", "rework_concerns"] ".txt"

inductive VerdictKind where
  | merge
  | hold
  deriving DecidableEq

structure MergeVerdictRecord where
  schemaVersion : Nat
  pr : Nat
  repo : String
  verdict : VerdictKind
  runToken : String
  reworkable : Option Bool
  concern : Option String
  deriving DecidableEq

structure AttemptState where
  schemaVersion : Nat
  attempts : Nat
  lastDispatchKey : Option String
  deriving DecidableEq

def schemaVersion : Nat := 1

def attemptSchemaVersion : Nat := 1

/-- The files below the state root, with what their text parses to. -/
structure ReworkDisk where
  verdicts : StatePath → Option (Except String MergeVerdictRecord)
  attempts : StatePath → Option (Except String AttemptState)
  concerns : StatePath → Option (List Char)

def ReworkDisk.empty : ReworkDisk := ⟨fun _ => none, fun _ => none, fun _ => none⟩

/-- Why a file cannot be read or written, where it cannot. -/
structure ReworkFaults where
  verdictRead : Option String
  attemptsRead : Option String
  concernWrite : Option String
  attemptsWrite : Option String

def ReworkFaults.none : ReworkFaults := ⟨.none, .none, .none, .none⟩

inductive ReadOutcome where
  | found (rec : MergeVerdictRecord)
  | missing
  | mismatch (reason : String)

namespace ReworkDisk

variable (disk : ReworkDisk)

/-- The verdict file of a pull request, written or removed. -/
def setRecord (repo : String) (pr : Nat) (fault : Option String)
    (file : Option (Except String MergeVerdictRecord)) : ReworkDisk :=
  match recordPath repo pr, fault with
  | .ok path, none => { disk with verdicts := Function.update disk.verdicts path file }
  | _, _ => disk

def writeRecord (rec : MergeVerdictRecord) (fault : Option String) : ReworkDisk :=
  disk.setRecord rec.repo rec.pr fault (some (.ok rec))

def deleteRecord (repo : String) (pr : Nat) (fault : Option String) : ReworkDisk :=
  disk.setRecord repo pr fault none

def readVerified (repo : String) (pr : Nat) (expectedRunToken : String) (fault : Option String) :
    ReadOutcome :=
  match recordPath repo pr with
  | .error reason => .mismatch reason
  | .ok path =>
      match fault, disk.verdicts path with
      | some reason, _ => .mismatch reason
      | none, none => .missing
      | none, some (.error reason) => .mismatch ("malformed record json: " ++ reason)
      | none, some (.ok rec) =>
          if rec.schemaVersion ≠ schemaVersion then
            .mismatch ("unknown schema_version " ++ toString rec.schemaVersion ++ " (expected " ++
              toString schemaVersion ++ ")")
          else if rec.repo ≠ repo ∨ rec.pr ≠ pr then
            .mismatch ("record identity (repo=" ++ quoted rec.repo ++ ", pr=" ++ toString rec.pr ++
              ") disagrees with key (repo=" ++ quoted repo ++ ", pr=" ++ toString pr ++ ")")
          else if rec.runToken ≠ expectedRunToken then
            .mismatch ("run_token mismatch (record token does not match this run's token " ++
              quoted expectedRunToken ++ ")")
          else .found rec

def readAttemptState (repo : String) (pr : Nat) (fault : Option String) :
    Except String (Option AttemptState) :=
  match attemptStatePath repo pr with
  | .error reason => .error reason
  | .ok path =>
      match fault, disk.attempts path with
      | some reason, _ => .error reason
      | none, none => .ok none
      | none, some (.error reason) => .error ("malformed attempt state json: " ++ reason)
      | none, some (.ok state) =>
          if state.schemaVersion ≠ attemptSchemaVersion then
            .error ("unknown attempt-state schema_version " ++ toString state.schemaVersion)
          else .ok (some state)

def writeAttemptState (repo : String) (pr attempts : Nat) (dispatchKey : String)
    (fault : Option String) : Except String ReworkDisk :=
  match attemptStatePath repo pr, fault with
  | .error reason, _ => .error reason
  | .ok _, some reason => .error reason
  | .ok path, none =>
      let state : AttemptState := ⟨attemptSchemaVersion, attempts, some dispatchKey⟩
      .ok { disk with attempts := Function.update disk.attempts path (some (.ok state)) }

def writeConcernFile (repo : String) (pr : Nat) (concern : List Char) (fault : Option String) :
    Except String (StatePath × ReworkDisk) :=
  match concernFilePath repo pr, fault with
  | .error reason, _ => .error reason
  | .ok _, some reason => .error reason
  | .ok path, none =>
      .ok (path, { disk with concerns := Function.update disk.concerns path (some concern) })

end ReworkDisk

inductive ReworkOutcome where
  | rework (concernPath : StatePath)
  | escalate (reason : String)
  | skip (reason : String)
  deriving DecidableEq

def ReworkOutcome.isRework : ReworkOutcome → Bool
  | .rework _ => true
  | _ => false

structure ReworkCall where
  repo : String
  pr : Nat
  prAuthor : String
  runToken : String
  overseerAuthorLogin : Option String
  faults : ReworkFaults

def dispatchKey (runToken : String) (concern : List Char) : String :=
  sha256Hex (utf8 runToken.toList ++ [0] ++ utf8 concern)

def escalateReason (repo : String) (pr : Nat) (concern : List Char) (why : String) : String :=
  "Autonomous rework of " ++ repo ++ "#" ++ toString pr ++ " handed off to a human: " ++ why ++
    ". Outstanding concern: " ++ String.ofList concern

/-- What the verdict asks to be changed, or why there is nothing to do. -/
def reworkConcern (outcome : ReadOutcome) : Except String (List Char) :=
  match outcome with
  | .missing => .error "no merge verdict recorded for this run"
  | .mismatch reason => .error ("verdict not usable (fail-closed): " ++ reason)
  | .found rec =>
      if rec.verdict ≠ .hold then .error "verdict is not a hold; nothing to rework"
      else if rec.reworkable ≠ some true then
        .error "hold is not marked reworkable by the judge (fail-closed)"
      else
        match rec.concern.map fun text => trim text.toList with
        | none | some [] => .error "reworkable hold carries no concern to act on"
        | some concern => .ok concern

/-- Without an identity of its own the Overseer cannot tell that a pull request is not its
own. -/
def foreignAuthor (prAuthor : String) (overseerAuthorLogin : Option String) : Except String Unit :=
  match overseerAuthorLogin.map fun login => trim login.toList with
  | none | some [] =>
      .error "unconfigured Overseer identity — cannot prove the PR is foreign (fail-closed)"
  | some overseer =>
      if prAuthor.toList = overseer then
        .error "refusing to rework the Overseer's own PR (recursion guard)"
      else .ok ()

def ReworkDisk.pollRework (disk : ReworkDisk) (maxAttempts : Nat) (call : ReworkCall) :
    ReworkOutcome × ReworkDisk :=
  match reworkConcern
    (disk.readVerified call.repo call.pr call.runToken call.faults.verdictRead) with
  | .error reason => (.skip reason, disk)
  | .ok concern =>
    match foreignAuthor call.prAuthor call.overseerAuthorLogin with
    | .error reason => (.skip reason, disk)
    | .ok () =>
      match disk.readAttemptState call.repo call.pr call.faults.attemptsRead with
      | .error reason => (.escalate (escalateReason call.repo call.pr concern
          ("corrupt rework attempt state (" ++ reason ++ ")")), disk)
      | .ok state =>
        let key := dispatchKey call.runToken concern
        let attempts := (state.map AttemptState.attempts).getD 0
        if state.bind AttemptState.lastDispatchKey = some key then
          (.skip "identical rework already dispatched (in-flight dedup)", disk)
        else if maxAttempts ≤ attempts then
          (.escalate (escalateReason call.repo call.pr concern
            ("rework attempt cap (" ++ toString maxAttempts ++ ") reached")), disk)
        else
          match disk.writeConcernFile call.repo call.pr concern call.faults.concernWrite with
          | .error reason => (.skip
              ("could not stage the rework concern file (retry next tick): " ++ reason), disk)
          | .ok (path, staged) =>
            match staged.writeAttemptState call.repo call.pr (attempts + 1) key
                call.faults.attemptsWrite with
            | .error reason => (.skip
                ("could not persist rework attempt state (retry next tick): " ++ reason), staged)
            | .ok counted => (.rework path, counted)

/-- A poll, or a verdict that is written or deleted between polls. -/
inductive ReworkEvent where
  | poll (call : ReworkCall)
  | write (rec : MergeVerdictRecord) (fault : Option String)
  | delete (repo : String) (pr : Nat) (fault : Option String)

def ReworkEvent.subject : ReworkEvent → String × Nat
  | .poll call => (call.repo, call.pr)
  | .write rec _ => (rec.repo, rec.pr)
  | .delete repo pr _ => (repo, pr)

def fileAt {α : Type} (files : StatePath → Option α) (path : Except String StatePath) : Option α :=
  path.toOption.bind files

def ReworkDisk.concernOf (disk : ReworkDisk) (repo : String) (pr : Nat) : Option (List Char) :=
  fileAt disk.concerns (concernFilePath repo pr)

/-- A poll that was made, its outcome, and the concern file it left. -/
structure PollEntry where
  call : ReworkCall
  outcome : ReworkOutcome
  concern : Option (List Char)

def PollEntry.subject (entry : PollEntry) : String × Nat := (entry.call.repo, entry.call.pr)

structure ReworkRun where
  disk : ReworkDisk
  log : List PollEntry

namespace ReworkRun

def step (maxAttempts : Nat) (s : ReworkRun) : ReworkEvent → ReworkRun
  | .poll call =>
      let (outcome, disk) := s.disk.pollRework maxAttempts call
      ⟨disk, s.log ++ [⟨call, outcome, disk.concernOf call.repo call.pr⟩]⟩
  | .write rec fault => ⟨s.disk.writeRecord rec fault, s.log⟩
  | .delete repo pr fault => ⟨s.disk.deleteRecord repo pr fault, s.log⟩

end ReworkRun

def reworkMachine (maxAttempts : Nat) : Machine ReworkRun ReworkEvent :=
  ⟨ReworkRun.step maxAttempts⟩

def reworkRun (maxAttempts : Nat) (disk : ReworkDisk) (events : List ReworkEvent) : ReworkRun :=
  (reworkMachine maxAttempts).run ⟨disk, []⟩ events

def ownEntries (subject : String × Nat) (log : List PollEntry) : List PollEntry :=
  log.filter fun entry => entry.subject = subject

def reworksOf (subject : String × Nat) (log : List PollEntry) : List PollEntry :=
  (ownEntries subject log).filter fun entry => entry.outcome.isRework

structure ReworkPromise (maxAttempts : Nat) (disk : ReworkDisk) (events : List ReworkEvent)
    (repo : String) (pr : Nat) : Prop where
  bounded : (reworksOf (repo, pr) (reworkRun maxAttempts disk events).log).length ≤ maxAttempts
  distinct : (reworksOf (repo, pr) (reworkRun maxAttempts disk events).log).IsChain fun a b =>
    (a.call.runToken, a.concern) ≠ (b.call.runToken, b.concern)
  -- the run of its own events only
  outcomes : ownEntries (repo, pr) (reworkRun maxAttempts disk events).log =
    (reworkRun maxAttempts disk (events.filter fun e => e.subject = (repo, pr))).log
  content : (reworkRun maxAttempts disk events).disk.concernOf repo pr =
    (reworkRun maxAttempts disk
      (events.filter fun e => e.subject = (repo, pr))).disk.concernOf repo pr

def repoDir (repo : String) : Option (List Char) :=
  (validateRepoSlug repo).toOption.map fun parts => parts.1 ++ "__".toList ++ parts.2

theorem fileAt_update {α : Type} (files : StatePath → Option α) (path : StatePath)
    (v : Option α) (at' : Except String StatePath) :
    fileAt (Function.update files path v) at' =
      if at' = .ok path then v else fileAt files at' := by
  cases at' with
  | error e => rfl
  | ok other =>
    by_cases h : other = path
    · subst h
      simp [fileAt, Except.toOption]
    · simp [fileAt, Except.toOption, h]

theorem prPath_inj {dirs : List String} {extension repo repo' : String} {pr pr' : Nat}
    {path : StatePath} (h : prPath dirs extension repo pr = .ok path)
    (h' : prPath dirs extension repo' pr' = .ok path) :
      repoDir repo = repoDir repo' ∧ pr = pr' := by
  obtain ⟨parts, hparts, hpath⟩ := map_eq_ok.mp h
  obtain ⟨parts', hparts', hpath'⟩ := map_eq_ok.mp h'
  have hsame := List.append_cancel_left (hpath.trans hpath'.symm)
  obtain ⟨hdir, hfile⟩ := List.cons.inj hsame
  have hdigits := List.append_cancel_right (List.cons.inj hfile).1
  refine ⟨?_, ?_⟩
  · simp only [repoDir, hparts, hparts', Except.toOption, Option.map_some, hdir]
  · have hread := congrArg parseDigits hdigits
    rw [parseDigits_toDigits, parseDigits_toDigits] at hread
    exact Option.some.inj hread

/-- What the disk holds of a pull request. -/
structure PrFiles where
  verdict : Option (Except String MergeVerdictRecord)
  attempts : Option (Except String AttemptState)
  concern : Option (List Char)

namespace ReworkDisk

variable {disk disk' : ReworkDisk} {repo repo' : String} {pr pr' : Nat}

def files (disk : ReworkDisk) (repo : String) (pr : Nat) : PrFiles where
  verdict := fileAt disk.verdicts (recordPath repo pr)
  attempts := fileAt disk.attempts (attemptStatePath repo pr)
  concern := fileAt disk.concerns (concernFilePath repo pr)

theorem readVerified_congr (h : disk.files repo pr = disk'.files repo pr) (token : String)
    (fault : Option String) :
    disk.readVerified repo pr token fault = disk'.readVerified repo pr token fault := by
  have hverdict := congrArg PrFiles.verdict h
  cases hpath : recordPath repo pr with
  | error reason => simp only [readVerified, hpath]
  | ok path =>
    simp only [files, fileAt, hpath, Except.toOption, Option.bind_some] at hverdict
    simp only [readVerified, hpath, hverdict]

theorem readAttemptState_congr (h : disk.files repo pr = disk'.files repo pr)
    (fault : Option String) :
    disk.readAttemptState repo pr fault = disk'.readAttemptState repo pr fault := by
  have hattempts := congrArg PrFiles.attempts h
  cases hpath : attemptStatePath repo pr with
  | error reason => simp only [readAttemptState, hpath]
  | ok path =>
    simp only [files, fileAt, hpath, Except.toOption, Option.bind_some] at hattempts
    simp only [readAttemptState, hpath, hattempts]

/-- The disk with a concern written to its path, and with the attempts counted. -/
def staged (disk : ReworkDisk) (path : StatePath) (concern : List Char) : ReworkDisk :=
  { disk with concerns := Function.update disk.concerns path (some concern) }

def counted (disk : ReworkDisk) (path : StatePath) (state : AttemptState) : ReworkDisk :=
  { disk with attempts := Function.update disk.attempts path (some (.ok state)) }

theorem files_staged (path : StatePath) (concern : List Char) :
    (disk.staged path concern).files repo pr = if concernFilePath repo pr = .ok path then
      { disk.files repo pr with concern := some concern } else disk.files repo pr := by
  simp only [files, staged, fileAt_update]
  split <;> rfl

theorem files_counted (path : StatePath) (state : AttemptState) :
    (disk.counted path state).files repo pr = if attemptStatePath repo pr = .ok path then
      { disk.files repo pr with attempts := some (.ok state) } else disk.files repo pr := by
  simp only [files, counted, fileAt_update]
  split <;> rfl

def writeTarget (path : Except String StatePath) (fault : Option String) :
    Except String StatePath :=
  match path, fault with
  | .error reason, _ => .error reason
  | .ok _, some reason => .error reason
  | .ok path, none => .ok path

theorem writeTarget_eq_ok {path : Except String StatePath} {fault : Option String}
    {target : StatePath} (h : writeTarget path fault = .ok target) : path = .ok target := by
  cases path with
  | error reason => cases h
  | ok path =>
    cases fault with
    | none => exact h
    | some reason => cases h

theorem writeConcernFile_eq (concern : List Char) (fault : Option String) :
    disk.writeConcernFile repo pr concern fault =
      (writeTarget (concernFilePath repo pr) fault).map fun path =>
        (path, disk.staged path concern) := by
  unfold writeConcernFile writeTarget
  cases concernFilePath repo pr <;> cases fault <;> rfl

theorem writeAttemptState_eq (attempts : Nat) (key : String) (fault : Option String) :
    disk.writeAttemptState repo pr attempts key fault =
      (writeTarget (attemptStatePath repo pr) fault).map fun path =>
        disk.counted path ⟨attemptSchemaVersion, attempts, some key⟩ := by
  unfold writeAttemptState writeTarget
  cases attemptStatePath repo pr <;> cases fault <;> rfl

/-- What a poll does: nothing to the disk, or it stages a concern and stops there, or it makes
a rework and counts it. -/
inductive Polled (disk : ReworkDisk) (maxAttempts : Nat) (call : ReworkCall) :
    ReworkOutcome × ReworkDisk → Prop where
  | idle {outcome : ReworkOutcome} (hidle : outcome.isRework = false) :
      Polled disk maxAttempts call (outcome, disk)
  | stopped {reason : String} {concern : List Char} {path : StatePath}
      (hpath : concernFilePath call.repo call.pr = .ok path) :
      Polled disk maxAttempts call (.skip reason, disk.staged path concern)
  | reworked {concern : List Char} {state : Option AttemptState} {path statePath : StatePath}
      (hpath : concernFilePath call.repo call.pr = .ok path)
      (hstatePath : attemptStatePath call.repo call.pr = .ok statePath)
      (hstate : disk.readAttemptState call.repo call.pr call.faults.attemptsRead = .ok state)
      (hfresh : state.bind AttemptState.lastDispatchKey ≠ some (dispatchKey call.runToken concern))
      (hroom : (state.map AttemptState.attempts).getD 0 < maxAttempts) :
      Polled disk maxAttempts call (.rework path, (disk.staged path concern).counted statePath
        ⟨attemptSchemaVersion, (state.map AttemptState.attempts).getD 0 + 1,
          some (dispatchKey call.runToken concern)⟩)

theorem pollRework_cases (disk : ReworkDisk) (maxAttempts : Nat) (call : ReworkCall) :
    Polled disk maxAttempts call (disk.pollRework maxAttempts call) := by
  unfold pollRework
  split
  · exact .idle rfl
  split
  · exact .idle rfl
  split
  · exact .idle rfl
  next state hstate =>
    dsimp only
    split
    · exact .idle rfl
    next hfresh =>
    split
    · exact .idle rfl
    next hroom =>
    rw [writeConcernFile_eq]
    cases hpath : writeTarget (concernFilePath call.repo call.pr) call.faults.concernWrite with
    | error reason => exact .idle rfl
    | ok path =>
      dsimp only [Except.map]
      rw [writeAttemptState_eq]
      cases hstatePath : writeTarget (attemptStatePath call.repo call.pr)
          call.faults.attemptsWrite with
      | error reason => exact .stopped (writeTarget_eq_ok hpath)
      | ok statePath =>
        exact .reworked (writeTarget_eq_ok hpath) (writeTarget_eq_ok hstatePath) hstate hfresh
          (Nat.lt_of_not_le hroom)

theorem pollRework_congr (maxAttempts : Nat) (call : ReworkCall)
    (h : disk.files call.repo call.pr = disk'.files call.repo call.pr) :
    (disk.pollRework maxAttempts call).1 = (disk'.pollRework maxAttempts call).1 ∧
      (disk.pollRework maxAttempts call).2.files call.repo call.pr =
        (disk'.pollRework maxAttempts call).2.files call.repo call.pr := by
  unfold pollRework
  rw [readVerified_congr h, readAttemptState_congr h]
  split
  · exact ⟨rfl, h⟩
  split
  · exact ⟨rfl, h⟩
  split
  · exact ⟨rfl, h⟩
  dsimp only
  split
  · exact ⟨rfl, h⟩
  split
  · exact ⟨rfl, h⟩
  rw [writeConcernFile_eq, writeConcernFile_eq]
  cases writeTarget (concernFilePath call.repo call.pr) call.faults.concernWrite with
  | error reason => exact ⟨rfl, h⟩
  | ok path =>
    dsimp only [Except.map]
    rw [writeAttemptState_eq, writeAttemptState_eq]
    cases writeTarget (attemptStatePath call.repo call.pr) call.faults.attemptsWrite with
    | error reason =>
      refine ⟨rfl, ?_⟩
      dsimp only [Except.map]
      rw [files_staged, files_staged, h]
    | ok statePath =>
      refine ⟨rfl, ?_⟩
      dsimp only [Except.map]
      rw [files_counted, files_counted, files_staged, files_staged, h]

def Shared (repo : String) (pr : Nat) (repo' : String) (pr' : Nat) : Prop :=
  repoDir repo = repoDir repo' ∧ pr = pr'

theorem files_staged_other {path : StatePath} {concern : List Char}
    (hpath : concernFilePath repo' pr' = .ok path) (hother : ¬Shared repo pr repo' pr') :
    (disk.staged path concern).files repo pr = disk.files repo pr := by
  have hne : concernFilePath repo pr ≠ .ok path := fun hsame => hother (prPath_inj hsame hpath)
  rw [files_staged, if_neg hne]

theorem files_counted_other {path : StatePath} {state : AttemptState}
    (hpath : attemptStatePath repo' pr' = .ok path) (hother : ¬Shared repo pr repo' pr') :
    (disk.counted path state).files repo pr = disk.files repo pr := by
  have hne : attemptStatePath repo pr ≠ .ok path := fun hsame => hother (prPath_inj hsame hpath)
  rw [files_counted, if_neg hne]

theorem pollRework_files_other (maxAttempts : Nat) (call : ReworkCall)
    (hother : ¬Shared repo pr call.repo call.pr) :
    (disk.pollRework maxAttempts call).2.files repo pr = disk.files repo pr := by
  generalize hresult : disk.pollRework maxAttempts call = result
  have hcases := pollRework_cases disk maxAttempts call
  rw [hresult] at hcases
  cases hcases with
  | idle => rfl
  | stopped hpath => exact files_staged_other hpath hother
  | reworked hpath hstatePath =>
    rw [files_counted_other hstatePath hother, files_staged_other hpath hother]

theorem files_update_verdicts (path : StatePath)
    (file : Option (Except String MergeVerdictRecord)) :
    ReworkDisk.files { disk with verdicts := Function.update disk.verdicts path file } repo pr =
      if recordPath repo pr = .ok path then { disk.files repo pr with verdict := file }
      else disk.files repo pr := by
  simp only [files, fileAt_update]
  split <;> rfl

theorem files_setRecord_other (fault : Option String)
    (file : Option (Except String MergeVerdictRecord)) (hother : ¬Shared repo pr repo' pr') :
    (disk.setRecord repo' pr' fault file).files repo pr = disk.files repo pr := by
  unfold setRecord
  split
  next path hpath =>
    have hne : recordPath repo pr ≠ .ok path := fun hsame => hother (prPath_inj hsame hpath)
    rw [files_update_verdicts, if_neg hne]
  · rfl

theorem files_setRecord_congr (fault : Option String)
    (file : Option (Except String MergeVerdictRecord))
    (h : disk.files repo pr = disk'.files repo pr) :
    (disk.setRecord repo' pr' fault file).files repo pr =
      (disk'.setRecord repo' pr' fault file).files repo pr := by
  unfold setRecord
  split
  · rw [files_update_verdicts, files_update_verdicts, h]
  · exact h

theorem files_setRecord_attempts (fault : Option String)
    (file : Option (Except String MergeVerdictRecord)) :
    ((disk.setRecord repo' pr' fault file).files repo pr).attempts =
      (disk.files repo pr).attempts := by
  unfold setRecord
  split <;> rfl

theorem readAttemptState_of_file {fault : Option String} {found : Option AttemptState}
    {state : AttemptState} (hread : disk.readAttemptState repo pr fault = .ok found)
    (hfile : (disk.files repo pr).attempts = some (.ok state)) : found = some state := by
  unfold readAttemptState at hread
  split at hread
  · cases hread
  next path hpath =>
    simp only [files, fileAt, hpath, Except.toOption, Option.bind_some] at hfile
    rw [hfile] at hread
    cases fault with
    | some reason => cases hread
    | none =>
      dsimp only at hread
      split at hread
      · cases hread
      · exact (Except.ok.inj hread).symm

end ReworkDisk

section View

variable (maxAttempts : Nat) (repo : String) (pr : Nat)

def ownView (s : ReworkRun) : PrFiles × List PollEntry :=
  (s.disk.files repo pr, ownEntries (repo, pr) s.log)

@[simp] theorem ownEntries_append (subject : String × Nat) (log : List PollEntry)
    (entry : PollEntry) : ownEntries subject (log ++ [entry]) =
      ownEntries subject log ++ if entry.subject = subject then [entry] else [] := by
  simp [ownEntries, List.filter_append, List.filter_singleton]

theorem ownView_step_own {s s' : ReworkRun} {e : ReworkEvent} (he : e.subject = (repo, pr))
    (h : ownView repo pr s = ownView repo pr s') :
    ownView repo pr (s.step maxAttempts e) = ownView repo pr (s'.step maxAttempts e) := by
  obtain ⟨hfiles, hlog⟩ := Prod.mk.inj h
  cases e with
  | poll call =>
    obtain ⟨rfl, rfl⟩ := Prod.mk.inj he
    obtain ⟨houtcome, hafter⟩ := ReworkDisk.pollRework_congr maxAttempts call hfiles
    have hconcern := congrArg PrFiles.concern hafter
    refine Prod.ext hafter ?_
    simp only [ownView, ReworkRun.step, ownEntries_append, hlog, houtcome]
    rw [show (s.disk.pollRework maxAttempts call).2.concernOf call.repo call.pr =
      (s'.disk.pollRework maxAttempts call).2.concernOf call.repo call.pr from hconcern]
  | write rec fault => exact Prod.ext (ReworkDisk.files_setRecord_congr fault _ hfiles) hlog
  | delete repo' pr' fault => exact Prod.ext (ReworkDisk.files_setRecord_congr fault _ hfiles) hlog

theorem ownView_step_other {s : ReworkRun} {e : ReworkEvent}
    (hother : ¬ReworkDisk.Shared repo pr e.subject.1 e.subject.2) :
    ownView repo pr (s.step maxAttempts e) = ownView repo pr s := by
  have hne : e.subject ≠ (repo, pr) := by
    intro heq
    rw [heq] at hother
    exact hother ⟨rfl, rfl⟩
  cases e with
  | poll call =>
    refine Prod.ext (ReworkDisk.pollRework_files_other maxAttempts call hother) ?_
    have hentry : PollEntry.subject ⟨call, (s.disk.pollRework maxAttempts call).1,
      (s.disk.pollRework maxAttempts call).2.concernOf call.repo call.pr⟩ ≠ (repo, pr) := hne
    simp only [ownView, ReworkRun.step, ownEntries_append, if_neg hentry, List.append_nil]
  | write rec fault => exact Prod.ext (ReworkDisk.files_setRecord_other fault _ hother) rfl
  | delete repo' pr' fault => exact Prod.ext (ReworkDisk.files_setRecord_other fault _ hother) rfl

/-- What a step does for a pull request: it leaves its reworks and its attempts as they are,
or it makes a rework for something new and counts it. -/
inductive Advanced (s s' : ReworkRun) : Prop where
  | same (hlog : reworksOf (repo, pr) s'.log = reworksOf (repo, pr) s.log)
      (hattempts : (s'.disk.files repo pr).attempts = (s.disk.files repo pr).attempts)
  | rework {entry : PollEntry} {concern : List Char} {state : Option AttemptState}
      {fault : Option String}
      (hlog : reworksOf (repo, pr) s'.log = reworksOf (repo, pr) s.log ++ [entry])
      (hconcern : entry.concern = some concern)
      (hstate : s.disk.readAttemptState repo pr fault = .ok state)
      (hfresh : state.bind AttemptState.lastDispatchKey ≠
        some (dispatchKey entry.call.runToken concern))
      (hroom : (state.map AttemptState.attempts).getD 0 < maxAttempts)
      (hattempts : (s'.disk.files repo pr).attempts = some (.ok ⟨attemptSchemaVersion,
        (state.map AttemptState.attempts).getD 0 + 1,
        some (dispatchKey entry.call.runToken concern)⟩))

/-- An event for the pull request, or for one that does not share its files. -/
def Apart (e : ReworkEvent) : Prop :=
  e.subject = (repo, pr) ∨ ¬ReworkDisk.Shared repo pr e.subject.1 e.subject.2

variable {maxAttempts repo pr}

theorem reworksOf_append (log : List PollEntry) (entry : PollEntry) :
    reworksOf (repo, pr) (log ++ [entry]) = reworksOf (repo, pr) log ++
      if entry.subject = (repo, pr) ∧ entry.outcome.isRework = true then [entry] else [] := by
  unfold reworksOf
  rw [ownEntries_append, List.filter_append]
  by_cases hsubject : entry.subject = (repo, pr)
  · simp [hsubject, List.filter_singleton]
  · simp [hsubject]

theorem advanced_poll (s : ReworkRun) (call : ReworkCall) :
    Advanced maxAttempts call.repo call.pr s (s.step maxAttempts (.poll call)) := by
  generalize hresult : s.disk.pollRework maxAttempts call = result
  have hcases := s.disk.pollRework_cases maxAttempts call
  rw [hresult] at hcases
  have hstep : s.step maxAttempts (.poll call) = ⟨result.2, s.log ++
      [⟨call, result.1, result.2.concernOf call.repo call.pr⟩]⟩ := by
    simp only [ReworkRun.step, hresult]
  rw [hstep]
  cases hcases with
  | idle hidle => exact .same (by simp [reworksOf_append, hidle]) rfl
  | stopped hpath => exact .same (by simp [reworksOf_append, ReworkOutcome.isRework]) rfl
  | @reworked concern state path statePath hpath hstatePath hstate hfresh hroom =>
    generalize hcounted : (s.disk.staged path concern).counted statePath _ = disk
    have hfiles : disk.files call.repo call.pr = ⟨(s.disk.files call.repo call.pr).verdict,
        some (.ok ⟨attemptSchemaVersion, (state.map AttemptState.attempts).getD 0 + 1,
          some (dispatchKey call.runToken concern)⟩), some concern⟩ := by
      rw [← hcounted, ReworkDisk.files_counted, ReworkDisk.files_staged, if_pos hstatePath,
        if_pos hpath]
    have hconcern : disk.concernOf call.repo call.pr = some concern :=
      congrArg PrFiles.concern hfiles
    have hlog : reworksOf (call.repo, call.pr) (s.log ++
        [⟨call, .rework path, disk.concernOf call.repo call.pr⟩]) =
        reworksOf (call.repo, call.pr) s.log ++ [⟨call, .rework path, some concern⟩] := by
      rw [reworksOf_append, hconcern, if_pos ⟨rfl, rfl⟩]
    exact .rework hlog rfl hstate hfresh hroom (congrArg PrFiles.attempts hfiles)

theorem advanced_step (s : ReworkRun) {e : ReworkEvent} (he : Apart repo pr e) :
    Advanced maxAttempts repo pr s (s.step maxAttempts e) := by
  rcases he with hown | hother
  · cases e with
    | poll call =>
      obtain ⟨rfl, rfl⟩ := Prod.mk.inj hown
      exact advanced_poll s call
    | write rec fault => exact .same rfl (ReworkDisk.files_setRecord_attempts fault _)
    | delete repo' pr' fault => exact .same rfl (ReworkDisk.files_setRecord_attempts fault _)
  · obtain ⟨hfiles, hlog⟩ := Prod.mk.inj (ownView_step_other maxAttempts repo pr (s := s) hother)
    exact .same (congrArg (List.filter _) hlog) (congrArg PrFiles.attempts hfiles)

/-- The reworks of a pull request so far, by its attempt state. -/
structure Counted (maxAttempts : Nat) (repo : String) (pr : Nat) (s : ReworkRun) : Prop where
  bounded : (reworksOf (repo, pr) s.log).length ≤ maxAttempts
  distinct : (reworksOf (repo, pr) s.log).IsChain fun a b =>
    (a.call.runToken, a.concern) ≠ (b.call.runToken, b.concern)
  last : ∀ entry ∈ (reworksOf (repo, pr) s.log).getLast?, ∃ state concern,
    (s.disk.files repo pr).attempts = some (.ok state) ∧
      (reworksOf (repo, pr) s.log).length ≤ state.attempts ∧ entry.concern = some concern ∧
      state.lastDispatchKey = some (dispatchKey entry.call.runToken concern)

theorem counted_start (disk : ReworkDisk) : Counted maxAttempts repo pr ⟨disk, []⟩ :=
  ⟨Nat.zero_le _, List.IsChain.nil, nofun⟩

theorem Counted.read {s : ReworkRun} (h : Counted maxAttempts repo pr s) {fault : Option String}
    {state : Option AttemptState} (hstate : s.disk.readAttemptState repo pr fault = .ok state)
    {token : String} {concern : List Char}
    (hfresh : state.bind AttemptState.lastDispatchKey ≠ some (dispatchKey token concern)) :
    (reworksOf (repo, pr) s.log).length ≤ (state.map AttemptState.attempts).getD 0 ∧
      ∀ entry ∈ (reworksOf (repo, pr) s.log).getLast?,
        (entry.call.runToken, entry.concern) ≠ (token, some concern) := by
  cases hlast : (reworksOf (repo, pr) s.log).getLast? with
  | none =>
    rw [List.getLast?_eq_none_iff.mp hlast]
    exact ⟨Nat.zero_le _, nofun⟩
  | some entry =>
    obtain ⟨counted, before, hfile, hle, hbefore, hkey⟩ := h.last entry hlast
    rw [ReworkDisk.readAttemptState_of_file hstate hfile] at hfresh ⊢
    refine ⟨hle, ?_⟩
    rintro other hother heq
    obtain rfl := Option.some.inj hother
    obtain ⟨htoken, hsame⟩ := Prod.mk.inj heq
    rw [hbefore] at hsame
    rw [Option.bind_some, hkey, htoken, Option.some.inj hsame] at hfresh
    exact hfresh rfl

theorem Counted.advanced {s s' : ReworkRun} (h : Counted maxAttempts repo pr s)
    (hstep : Advanced maxAttempts repo pr s s') : Counted maxAttempts repo pr s' := by
  cases hstep with
  | same hlog hattempts =>
    obtain ⟨hbounded, hdistinct, hlast⟩ := h
    constructor
    · rwa [hlog]
    · rwa [hlog]
    · rwa [hlog, hattempts]
  | @rework entry concern state fault hlog hconcern hstate hfresh hroom hattempts =>
    obtain ⟨hle, hother⟩ := h.read hstate hfresh
    constructor
    · rw [hlog, List.length_append, List.length_singleton]
      omega
    · rw [hlog, List.isChain_append]
      refine ⟨h.distinct, List.IsChain.singleton _, ?_⟩
      rintro last hlast next hnext
      obtain rfl := Option.some.inj hnext
      rw [hconcern]
      exact hother last hlast
    · rw [hlog]
      rintro last hlast
      rw [List.getLast?_concat] at hlast
      obtain rfl := Option.some.inj hlast
      refine ⟨_, concern, hattempts, ?_, hconcern, rfl⟩
      rw [List.length_append, List.length_singleton]
      exact Nat.succ_le_succ hle

theorem counted_run {events : List ReworkEvent} (hevents : ∀ e ∈ events, Apart repo pr e)
    {s : ReworkRun} (h : Counted maxAttempts repo pr s) :
    Counted maxAttempts repo pr ((reworkMachine maxAttempts).run s events) := by
  induction events generalizing s with
  | nil => exact h
  | cons e events ih =>
    rw [List.forall_mem_cons] at hevents
    exact ih hevents.2 (h.advanced (advanced_step s hevents.1))

theorem ownEntries_run {events : List ReworkEvent} (hevents : ∀ e ∈ events, e.subject = (repo, pr))
    {s : ReworkRun} (h : ownEntries (repo, pr) s.log = s.log) :
    ownEntries (repo, pr) ((reworkMachine maxAttempts).run s events).log =
      ((reworkMachine maxAttempts).run s events).log := by
  induction events generalizing s with
  | nil => exact h
  | cons e events ih =>
    rw [List.forall_mem_cons] at hevents
    refine ih hevents.2 ?_
    cases e with
    | poll call =>
      simp only [reworkMachine, ReworkRun.step, ownEntries_append, h]
      exact congrArg (s.log ++ ·) (if_pos hevents.1)
    | write rec fault => exact h
    | delete repo' pr' fault => exact h

theorem reworkPromise_of_apart (disk : ReworkDisk) {events : List ReworkEvent}
    (hevents : ∀ e ∈ events, Apart repo pr e) : ReworkPromise maxAttempts disk events repo pr := by
  have hcounted : Counted maxAttempts repo pr (reworkRun maxAttempts disk events) :=
    counted_run hevents (counted_start disk)
  have hview : ownView repo pr (reworkRun maxAttempts disk events) =
      ownView repo pr (reworkRun maxAttempts disk
        (events.filter fun e => e.subject = (repo, pr))) := by
    refine (reworkMachine maxAttempts).view_run_filter (ownView repo pr)
      (fun e => e.subject = (repo, pr)) ?_ rfl ?_
    · intro s s' e hown
      exact ownView_step_own maxAttempts repo pr (of_decide_eq_true hown)
    · intro e he hforeign s
      have hother := (hevents e he).resolve_left (of_decide_eq_false hforeign)
      exact ownView_step_other maxAttempts repo pr hother
  obtain ⟨hfiles, hlog⟩ := Prod.mk.inj hview
  refine ⟨hcounted.bounded, hcounted.distinct, ?_, congrArg PrFiles.concern hfiles⟩
  refine hlog.trans (ownEntries_run ?_ rfl)
  intro e he
  exact of_decide_eq_true (List.mem_filter.mp he).2

end View

def reworkVerdict (repo : String) (pr : Nat) : MergeVerdictRecord :=
  ⟨schemaVersion, pr, repo, .hold, "t1", some true, some "add a test"⟩

def reworkPoll (repo : String) (pr : Nat) : ReworkCall :=
  ⟨repo, pr, "simard-bot", "t1", some "overseer", .none⟩

/-- Two verdicts for pull requests of one directory, and a poll for the first. -/
def crossedVerdicts (repo other : String) : List ReworkEvent :=
  [.write (reworkVerdict repo 1) none, .write (reworkVerdict other 1) none,
    .poll (reworkPoll repo 1)]

theorem prPath_of_repoDir {dirs : List String} {extension repo : String} {dir : List Char}
    (h : repoDir repo = some dir) (pr : Nat) : prPath dirs extension repo pr =
      .ok (dirs.map String.toList ++ [dir, Nat.toDigits 10 pr ++ extension.toList]) := by
  obtain ⟨parts, hparts, rfl⟩ := Option.map_eq_some_iff.mp h
  cases hslug : validateRepoSlug repo with
  | error reason =>
    rw [hslug] at hparts
    cases hparts
  | ok found =>
    rw [hslug] at hparts
    obtain rfl := Option.some.inj hparts
    simp [prPath, hslug, Except.map]

theorem verdict_setRecord {disk : ReworkDisk} {repo other : String} {dir : List Char}
    (hrepo : repoDir repo = some dir) (hother : repoDir other = some dir) (pr : Nat)
    (file : Option (Except String MergeVerdictRecord)) :
    ((disk.setRecord other pr none file).files repo pr).verdict = file := by
  unfold ReworkDisk.setRecord recordPath
  rw [prPath_of_repoDir hother]
  dsimp only
  rw [ReworkDisk.files_update_verdicts, recordPath, prPath_of_repoDir hrepo, if_pos rfl]

theorem readVerified_of_file {disk : ReworkDisk} {repo : String} {dir : List Char} {pr : Nat}
    {rec : MergeVerdictRecord} (hdir : repoDir repo = some dir)
    (hfile : (disk.files repo pr).verdict = some (.ok rec))
    (hschema : rec.schemaVersion = schemaVersion)
    (hpr : rec.pr = pr) :
    if rec.repo = repo then disk.readVerified repo pr rec.runToken none = .found rec
    else ∃ reason, disk.readVerified repo pr rec.runToken none = .mismatch reason := by
  have hpath : recordPath repo pr = .ok _ := prPath_of_repoDir hdir pr
  simp only [ReworkDisk.files, fileAt, hpath, Except.toOption, Option.bind_some] at hfile
  simp only [ReworkDisk.readVerified, hpath, hfile, hschema, hpr]
  by_cases hrepo : rec.repo = repo
  · simp [hrepo]
  · simp [hrepo]

theorem crossed_outcome {repo other : String} {dir : List Char} (hne : other ≠ repo)
    (hrepo : repoDir repo = some dir) (hother : repoDir other = some dir) (maxAttempts : Nat) :
    ∃ reason, (ownEntries (repo, 1) (reworkRun maxAttempts .empty
      (crossedVerdicts repo other)).log).map PollEntry.outcome = [.skip reason] := by
  generalize hdisk : (ReworkDisk.empty.writeRecord (reworkVerdict repo 1) none).writeRecord
    (reworkVerdict other 1) none = disk
  have hfile : (disk.files repo 1).verdict = some (.ok (reworkVerdict other 1)) := by
    rw [← hdisk]
    exact verdict_setRecord hrepo hother 1 _
  have hread := readVerified_of_file hrepo hfile rfl rfl
  rw [if_neg (show (reworkVerdict other 1).repo ≠ repo from hne)] at hread
  obtain ⟨reason, hread⟩ := hread
  have hlog : (ownEntries (repo, 1) (reworkRun maxAttempts .empty
      (crossedVerdicts repo other)).log).map PollEntry.outcome =
        [(disk.pollRework maxAttempts (reworkPoll repo 1)).1] := by
    rw [← hdisk]
    simp [reworkRun, crossedVerdicts, reworkMachine, ReworkRun.step, ownEntries, PollEntry.subject,
      reworkPoll]
  have hpoll : (disk.pollRework maxAttempts (reworkPoll repo 1)).1 =
      .skip ("verdict not usable (fail-closed): " ++ reason) := by
    unfold ReworkDisk.pollRework
    rw [show disk.readVerified (reworkPoll repo 1).repo (reworkPoll repo 1).pr
      (reworkPoll repo 1).runToken (reworkPoll repo 1).faults.verdictRead = _ from hread]
    rfl
  exact ⟨_, hlog.trans (congrArg ([·]) hpoll)⟩

theorem uncrossed_outcome {repo other : String} {dir : List Char} (hne : other ≠ repo)
    (hrepo : repoDir repo = some dir) (maxAttempts : Nat) (reason : String) :
    (reworkRun maxAttempts .empty
      ((crossedVerdicts repo other).filter fun e => e.subject = (repo, 1))).log.map
      PollEntry.outcome ≠ [.skip reason] := by
  generalize hdisk : ReworkDisk.empty.writeRecord (reworkVerdict repo 1) none = disk
  have hfile : (disk.files repo 1).verdict = some (.ok (reworkVerdict repo 1)) := by
    rw [← hdisk]
    exact verdict_setRecord hrepo hrepo 1 _
  have hread := readVerified_of_file hrepo hfile rfl rfl
  rw [if_pos (show (reworkVerdict repo 1).repo = repo from rfl)] at hread
  have hlog : (reworkRun maxAttempts .empty
      ((crossedVerdicts repo other).filter fun e => e.subject = (repo, 1))).log.map
        PollEntry.outcome = [(disk.pollRework maxAttempts (reworkPoll repo 1)).1] := by
    rw [← hdisk]
    simp [reworkRun, crossedVerdicts, ReworkEvent.subject, reworkVerdict, reworkPoll, hne,
      reworkMachine, ReworkRun.step]
  have htrim : trim "add a test".toList = "add a test".toList := by decide
  have hconcern : reworkConcern (.found (reworkVerdict repo 1)) = .ok "add a test".toList := by
    simp only [reworkConcern, reworkVerdict, Option.map_some, htrim]
    rfl
  have hforeign : foreignAuthor "simard-bot" (some "overseer") = .ok () := by decide
  have hattempts : disk.readAttemptState repo 1 none = .ok none := by
    have hpath : attemptStatePath repo 1 = .ok _ := prPath_of_repoDir hrepo 1
    have hnone : disk.attempts = fun _ => none := by
      rw [← hdisk]
      unfold ReworkDisk.writeRecord ReworkDisk.setRecord
      split <;> rfl
    simp only [ReworkDisk.readAttemptState, hpath, hnone]
  have hpath : concernFilePath repo 1 = .ok _ := prPath_of_repoDir hrepo 1
  have hstatePath : attemptStatePath repo 1 = .ok _ := prPath_of_repoDir hrepo 1
  intro hskip
  have hpoll := List.singleton_inj.mp (hlog.symm.trans hskip)
  simp only [ReworkDisk.pollRework, reworkPoll, ReworkFaults.none] at hpoll
  rw [show disk.readVerified repo 1 "t1" none = _ from hread, hconcern, hforeign,
    hattempts] at hpoll
  simp only [Option.bind_none, Option.map_none, Option.getD_none, ReworkDisk.writeConcernFile,
    ReworkDisk.writeAttemptState, hpath, hstatePath] at hpoll
  split at hpoll
  next hkey => cases hkey
  · split at hpoll <;> cases hpoll

/-- Rework is bounded and independent for every pull request of some repositories exactly
where no two of them have one directory. -/
theorem reworkPromise_iff_injOn (maxAttempts : Nat) (repos : Set String)
    (hvalid : ∀ repo ∈ repos, ∃ parts, validateRepoSlug repo = .ok parts) :
    (∀ disk events, (∀ e ∈ events, (ReworkEvent.subject e).1 ∈ repos) → ∀ repo ∈ repos, ∀ pr,
        ReworkPromise maxAttempts disk events repo pr) ↔ Set.InjOn repoDir repos := by
  constructor
  · intro hpromise repo hrepo other hother hdir
    by_contra hne
    obtain ⟨parts, hparts⟩ := hvalid repo hrepo
    have hrepoDir : repoDir repo = some (parts.1 ++ "__".toList ++ parts.2) := by
      simp [repoDir, hparts, Except.toOption]
    have hevents : ∀ e ∈ crossedVerdicts repo other, e.subject.1 ∈ repos := by
      simp [crossedVerdicts, ReworkEvent.subject, reworkVerdict, reworkPoll, hrepo, hother]
    have hkept := (hpromise .empty _ hevents repo hrepo 1).outcomes
    obtain ⟨reason, hcrossed⟩ :=
      crossed_outcome (Ne.symm hne) hrepoDir (hdir ▸ hrepoDir) maxAttempts
    apply uncrossed_outcome (Ne.symm hne) hrepoDir maxAttempts reason
    rw [← hkept, ← hcrossed]
  · intro hinj disk events hevents repo hrepo pr
    apply reworkPromise_of_apart
    intro e he
    rw [Apart, or_iff_not_imp_right, not_not]
    intro hshared
    exact Prod.ext (hinj (hevents e he) hrepo hshared.1.symm) hshared.2.symm

theorem two_repos_promise :
    ReworkPromise 3 .empty (crossedVerdicts "rysweet/Simard" "rysweet/notes")
      "rysweet/Simard" 1 := by
  have hvalid : ∀ repo ∈ ({"rysweet/Simard", "rysweet/notes"} : Set String),
      ∃ parts, validateRepoSlug repo = .ok parts := by
    rintro repo (rfl | rfl)
    · exact ⟨("rysweet".toList, "Simard".toList), by decide⟩
    · exact ⟨("rysweet".toList, "notes".toList), by decide⟩
  have hinj : Set.InjOn repoDir {"rysweet/Simard", "rysweet/notes"} := by
    refine Set.injOn_pair.mpr fun hdir => absurd hdir ?_
    decide
  have hevents : ∀ e ∈ crossedVerdicts "rysweet/Simard" "rysweet/notes",
      e.subject.1 ∈ ({"rysweet/Simard", "rysweet/notes"} : Set String) := by
    simp [crossedVerdicts, ReworkEvent.subject, reworkVerdict, reworkPoll]
  exact (reworkPromise_iff_injOn 3 _ hvalid).mpr hinj .empty _ hevents _ (.inl rfl) 1

/-- Two repositories with one directory: the verdict of the one is overwritten by that of the
other. -/
theorem shared_directory_breaks_promise :
    validateRepoSlug "a__b/c" = .ok ("a__b".toList, "c".toList) ∧
      validateRepoSlug "a/b__c" = .ok ("a".toList, "b__c".toList) ∧
      ¬ReworkPromise 3 .empty (crossedVerdicts "a__b/c" "a/b__c") "a__b/c" 1 := by
  refine ⟨by decide, by decide, ?_⟩
  have hrepo : repoDir "a__b/c" = some "a__b__c".toList := by decide
  have hother : repoDir "a/b__c" = some "a__b__c".toList := by decide
  have hne : "a/b__c" ≠ "a__b/c" := by decide
  intro hpromise
  obtain ⟨reason, hcrossed⟩ := crossed_outcome hne hrepo hother 3
  apply uncrossed_outcome hne hrepo 3 reason
  rw [← hpromise.outcomes, ← hcrossed]

end Simard.Overseer
