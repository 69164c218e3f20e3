import Simard.Library.Calls
import Simard.Library.Text

/-! The leader semaphore: a lock file that names the leading process, its generation and
its last heartbeat. Every operation reads the file first and decides on what it read; a
record is put in place by writing a temporary file, the same one for every process, and
renaming it. -/
namespace Simard.Locks
open Simard.Library

structure LeaderState where
  pid : UInt32
  generation : UInt64
  heartbeatEpoch : UInt64
  deriving DecidableEq

namespace LeaderState

def toJson (state : LeaderState) : List Char :=
  "\x7b\"pid\":".toList ++ (Nat.toDigits 10 state.pid.toNat ++ (",\"generation\":".toList ++
    (Nat.toDigits 10 state.generation.toNat ++ (",\"heartbeat_epoch\":".toList ++
      (Nat.toDigits 10 state.heartbeatEpoch.toNat ++ "\x7d".toList)))))

end LeaderState

/-- The digits after the first place where the quoted key and a colon stand. A number that
runs to the end of the text is none. -/
def extractU64 (json : List Char) (key : String) : Option UInt64 := do
  let start ← afterFirst ('"' :: (key.toList ++ ['"', ':'])) json
  let rest := trimStart start
  if rest.all Char.isDigit then none
  else (parseUnsigned 64 (rest.takeWhile Char.isDigit)).map UInt64.ofNat

def LeaderState.fromJson (s : List Char) : Option LeaderState := do
  let pid ← extractU64 s "pid"
  let generation ← extractU64 s "generation"
  let heartbeatEpoch ← extractU64 s "heartbeat_epoch"
  some ⟨pid.toUInt32, generation, heartbeatEpoch⟩

theorem extractU64_of_afterFirst {json : List Char} {key : String} {n : UInt64} {stop : Char}
    {rest : List Char} (hstop : stop.isDigit = false)
    (h : afterFirst ('"' :: (key.toList ++ ['"', ':'])) json =
      some (Nat.toDigits 10 n.toNat ++ stop :: rest)) : extractU64 json key = some n := by
  have hdigit (c : Char) (hc : c ∈ Nat.toDigits 10 n.toNat) : c.isDigit :=
    Nat.isDigit_of_mem_toDigits (by decide) (by decide) hc
  have hsolid : trimStart (Nat.toDigits 10 n.toNat ++ stop :: rest) =
      Nat.toDigits 10 n.toNat ++ stop :: rest := by
    cases hdigits : Nat.toDigits 10 n.toNat with
    | nil => exact absurd hdigits Nat.toDigits_ne_nil
    | cons c digits =>
      have hc := hdigit c (by rw [hdigits]; exact List.mem_cons_self)
      have hspace : isWhitespace c = false := by
        simp only [Char.isDigit, Bool.and_eq_true, decide_eq_true_eq] at hc
        have hlow : 48 ≤ c.toNat := hc.1
        have hhigh : c.toNat ≤ 57 := hc.2
        simp only [isWhitespace, Bool.or_eq_false_iff, Bool.and_eq_false_iff,
          decide_eq_false_iff_not]
        omega
      simp [trimStart, hspace]
  have htake : (Nat.toDigits 10 n.toNat ++ stop :: rest).takeWhile Char.isDigit =
      Nat.toDigits 10 n.toNat := by
    rw [List.takeWhile_append_of_pos hdigit, List.takeWhile_cons_of_neg (by simp [hstop]),
      List.append_nil]
  have hends : (Nat.toDigits 10 n.toNat ++ stop :: rest).all Char.isDigit = false := by
    simp [hstop]
  unfold extractU64
  rw [h]
  simp only [Option.bind_eq_bind, Option.bind_some, hsolid, hends, Bool.false_eq_true, if_false,
    htake, @parseUnsigned_toDigits 64 _ n.toNat_lt, Option.map_some, UInt64.ofNat_toNat]

theorem afterFirst_digits (needle : List Char) (n : Nat) (rest : List Char) :
    afterFirst ('"' :: needle) (Nat.toDigits 10 n ++ rest) = afterFirst ('"' :: needle) rest := by
  apply afterFirst_skip
  intro hquote
  have hdigit := @Nat.isDigit_of_mem_toDigits 10 n '"' (by decide) (by decide) hquote
  exact absurd hdigit (by decide)

@[simp] theorem LeaderState.fromJson_toJson (state : LeaderState) :
    fromJson state.toJson = some state := by
  have hpid : extractU64 state.toJson "pid" = some state.pid.toUInt64 := by
    refine @extractU64_of_afterFirst _ _ _ ',' ("\"generation\":".toList ++
      (Nat.toDigits 10 state.generation.toNat ++ (",\"heartbeat_epoch\":".toList ++
        (Nat.toDigits 10 state.heartbeatEpoch.toNat ++ ['\x7d'])))) (by decide) ?_
    unfold toJson
    simp [afterFirst, stripPrefix, List.isPrefixOf]
  have hgeneration : extractU64 state.toJson "generation" = some state.generation := by
    refine @extractU64_of_afterFirst _ _ _ ',' ("\"heartbeat_epoch\":".toList ++
      (Nat.toDigits 10 state.heartbeatEpoch.toNat ++ ['\x7d'])) (by decide) ?_
    unfold toJson
    simp [afterFirst, stripPrefix, List.isPrefixOf, afterFirst_digits]
  have hheartbeat : extractU64 state.toJson "heartbeat_epoch" = some state.heartbeatEpoch := by
    refine @extractU64_of_afterFirst _ _ _ '\x7d' [] (by decide) ?_
    unfold toJson
    simp [afterFirst, stripPrefix, List.isPrefixOf, afterFirst_digits]
  unfold fromJson
  rw [hpid, hgeneration, hheartbeat]
  simp

inductive SemaphorePath where
  | lockFile
  | tempFile
  | directory
  deriving DecidableEq

inductive SimardError where
  | rpcCallFailed (endpoint method reason : String)
  | persistentStoreIo (store action : String) (path : SemaphorePath) (reason : String)
  deriving DecidableEq

def SimardError.isRefusal : SimardError → Bool
  | .rpcCallFailed .. => true
  | .persistentStoreIo .. => false

/-- How far a write of the temporary file came: without its directory, without the file,
or with a part of the text in it. -/
inductive WriteFault where
  | createDirAll
  | create
  | writeAll (kept : Nat)

def WriteFault.action : WriteFault → String
  | .createDirAll => "create directory"
  | .create | .writeAll _ => "write"

def WriteFault.path : WriteFault → SemaphorePath
  | .createDirAll => .directory
  | .create | .writeAll _ => .tempFile

inductive SemaphoreCmd where
  | readToString
  | isPidAlive (pid : UInt32)
  | isStale (state : LeaderState)
  | epochNow
  | writeTmp (json : List Char)
  | rename
  | removeFile

abbrev SemaphoreCmd.Ans : SemaphoreCmd → Type
  | .readToString => Except String (Option (List Char))
  | .isPidAlive _ => Bool
  | .isStale _ => Bool
  | .epochNow => UInt64
  | .writeTmp _ => Except (WriteFault × String) Unit
  | .rename => Except String Unit
  | .removeFile => Except String Unit

abbrev SimardResult (α : Type) := Except SimardError α

abbrev SemaphoreOp (α : Type) := Program SemaphoreCmd SemaphoreCmd.Ans α

def andThen {α β : Type} (op : SemaphoreOp (SimardResult α))
    (next : α → SemaphoreOp (SimardResult β)) : SemaphoreOp (SimardResult β) := do
  match ← op with
  | .ok value => next value
  | .error e => .done (.error e)

@[simp] def perform (cmd : SemaphoreCmd) : SemaphoreOp cmd.Ans := Program.perform cmd

def readState : SemaphoreOp (SimardResult (Option LeaderState)) := do
  let contents : Except String (Option (List Char)) ← perform .readToString
  match contents with
  | .ok contents => .done (.ok (contents.bind LeaderState.fromJson))
  | .error reason =>
      .done (.error (.persistentStoreIo "leader-semaphore" "read" .lockFile reason))

def writeState (state : LeaderState) : SemaphoreOp (SimardResult Unit) := do
  let written : Except (WriteFault × String) Unit ← perform (.writeTmp state.toJson)
  match written with
  | .error (fault, reason) =>
      .done (.error (.persistentStoreIo "leader-semaphore" fault.action fault.path reason))
  | .ok () =>
      let renamed : Except String Unit ← perform .rename
      match renamed with
      | .error reason =>
          .done (.error (.persistentStoreIo "leader-semaphore" "rename" .lockFile reason))
      | .ok () => .done (.ok ())

def record (pid : UInt32) (generation : UInt64) : SemaphoreOp (SimardResult LeaderState) := do
  let now : UInt64 ← perform .epochNow
  let state : LeaderState := ⟨pid, generation, now⟩
  andThen (writeState state) fun _ => .done (.ok state)

def refused (method reason : String) : SimardError :=
  .rpcCallFailed "leader-semaphore" method reason

/-- The addition wraps at 64 bits, as it does in a release build. -/
def tryAcquire (myPid : UInt32) : SemaphoreOp (SimardResult LeaderState) :=
  andThen readState fun
    | some existing =>
        if existing.pid = myPid then record myPid existing.generation
        else do
          let alive : Bool ← perform (.isPidAlive existing.pid)
          let stale : Bool ← if alive then perform (.isStale existing) else .done false
          if alive && !stale then
            .done (.error (refused "try_acquire"
              s!"leadership held by pid {existing.pid} (gen {existing.generation})"))
          else record myPid (existing.generation + 1)
    | none => record myPid 1

def release (myPid : UInt32) : SemaphoreOp (SimardResult Unit) :=
  andThen readState fun
    | some state =>
        if state.pid = myPid then do
          let _ ← perform .removeFile
          .done (.ok ())
        else .done (.ok ())
    | none => .done (.ok ())

def heartbeat (myPid : UInt32) : SemaphoreOp (SimardResult Unit) :=
  andThen readState fun
    | some state =>
        if state.pid = myPid then do
          let now : UInt64 ← perform .epochNow
          writeState { state with heartbeatEpoch := now }
        else .done (.ok ())
    | none => .done (.ok ())

def transfer (fromPid toPid : UInt32) : SemaphoreOp (SimardResult LeaderState) :=
  andThen readState fun
    | none => .done (.error (refused "transfer" "no leader state to transfer from"))
    | some current =>
        if current.pid ≠ fromPid then
          .done (.error (refused "transfer"
            s!"caller pid {fromPid} does not own semaphore (owner: {current.pid})"))
        else record toPid (current.generation + 1)

/-- The two files, and every record the lock file has shown so far, the oldest first. -/
structure SemaphoreFiles where
  lock : Option (List Char)
  tmp : Option (List Char)
  records : List LeaderState

namespace SemaphoreFiles

def record (files : SemaphoreFiles) : Option LeaderState :=
  files.lock.bind LeaderState.fromJson

def init (lock tmp : Option (List Char)) : SemaphoreFiles :=
  ⟨lock, tmp, (lock.bind LeaderState.fromJson).toList⟩

end SemaphoreFiles

/-- What a command meets: the clock, and why its file operation fails if it does, for a
write of the temporary file with how far it comes. -/
structure SemaphoreWorld where
  now : UInt64
  fault : Option (WriteFault × String)

/-- How commands act. Which processes are alive does not change; a rename needs the
temporary file and takes it away. -/
def semaphoreAnswer (alive : UInt32 → Bool) (staleSecs : UInt64) (files : SemaphoreFiles)
    (world : SemaphoreWorld) : (cmd : SemaphoreCmd) → cmd.Ans × SemaphoreFiles
  | .readToString =>
      match world.fault with
      | some (_, reason) => (.error reason, files)
      | none => (.ok files.lock, files)
  | .isPidAlive pid => (alive pid, files)
  | .isStale state =>
      (decide (staleSecs.toNat < world.now.toNat - state.heartbeatEpoch.toNat), files)
  | .epochNow => (world.now, files)
  | .writeTmp json =>
      match world.fault with
      | some (.writeAll kept, reason) =>
          (.error (.writeAll kept, reason), { files with tmp := some (json.take kept) })
      | some fault => (.error fault, files)
      | none => (.ok (), { files with tmp := some json })
  | .rename =>
      match world.fault, files.tmp with
      | some (_, reason), _ => (.error reason, files)
      | none, none => (.error "No such file or directory (os error 2)", files)
      | none, some text =>
          (.ok (), ⟨some text, none, files.records ++ (LeaderState.fromJson text).toList⟩)
  | .removeFile =>
      match world.fault, files.lock with
      | some (_, reason), _ => (.error reason, files)
      | none, none => (.error "No such file or directory (os error 2)", files)
      | none, some _ => (.ok (), { files with lock := none })

inductive SemaphoreCall where
  | tryAcquire (myPid : UInt32)
  | heartbeat (myPid : UInt32)
  | transfer (fromPid toPid : UInt32)
  | release (myPid : UInt32)

def SemaphoreCall.program : SemaphoreCall → SemaphoreOp (SimardResult (Option LeaderState))
  | .tryAcquire myPid => andThen (Locks.tryAcquire myPid) fun state => .done (.ok (some state))
  | .heartbeat myPid => andThen (Locks.heartbeat myPid) fun _ => .done (.ok none)
  | .transfer fromPid toPid =>
      andThen (Locks.transfer fromPid toPid) fun state => .done (.ok (some state))
  | .release myPid => andThen (Locks.release myPid) fun _ => .done (.ok none)

def semaphoreHost (alive : UInt32 → Bool) (staleSecs : UInt64) :
    Pool.Host SemaphoreFiles SemaphoreCall SemaphoreWorld SemaphoreCmd SemaphoreCmd.Ans
      (SimardResult (Option LeaderState)) :=
  ⟨SemaphoreCall.program, semaphoreAnswer alive staleSecs⟩

abbrev SemaphoreCalls :=
  Calls SemaphoreFiles SemaphoreCall SemaphoreCmd SemaphoreCmd.Ans
    (SimardResult (Option LeaderState))

abbrev SemaphoreEvent := Pool.Event SemaphoreCall SemaphoreWorld

end Simard.Locks
