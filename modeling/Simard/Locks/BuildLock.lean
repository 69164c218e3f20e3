import Simard.Library.Pool
import Simard.Library.Text

/-! The build lock: a file that stands while a build runs. Acquiring it clears a stale
file away, looks whether one is there and writes one; dropping the guard removes whatever
file is at the path. -/
namespace Simard.Locks
open Simard.Library

def staleThresholdSecs : Nat := 600

inductive BuildLockError where
  | persistentStoreIo (store action : String) (reason : String)
  | commandTimeout (action : String) (timeoutSecs : Nat)

/-- The guard of one acquisition, told apart from others by the number of its write. -/
structure BuildLockGuard where
  acquisition : Nat
  deriving DecidableEq

inductive BuildLockCmd where
  | pathExists
  | age
  | readToString
  | procExists (pid : Nat)
  | removeFile
  | write (pid : Nat)
  | elapsed
  | dropGuard (guard : BuildLockGuard)

/-- A write answers with its number, a failed one with whether the directory was missing. -/
abbrev BuildLockCmd.Ans : BuildLockCmd → Type
  | .pathExists => Bool
  | .age => Except String Nat
  | .readToString => Except String (List Char)
  | .procExists _ => Bool
  | .removeFile => Except String Unit
  | .write _ => Except (Bool × String) Nat
  | .elapsed => Nat
  | .dropGuard _ => Unit

abbrev BuildLockOp (α : Type) := Program BuildLockCmd BuildLockCmd.Ans α

def issue (cmd : BuildLockCmd) : BuildLockOp cmd.Ans := Program.perform cmd

def buildLockIo (action reason : String) : BuildLockError :=
  .persistentStoreIo "build_lock" action reason

def holderPid (content : List Char) : Option Nat := do
  let line ← (lines content).find? fun line => "pid=".toList.isPrefixOf line
  let pid ← stripPrefix "pid=".toList line
  parseUnsigned 32 pid

def removeStale (action : String) : BuildLockOp (Except BuildLockError Unit) := do
  let removed : Except String Unit ← issue .removeFile
  match removed with
  | .ok () => .done (.ok ())
  | .error reason => .done (.error (buildLockIo action reason))

/-- Remove a lock file that is too old, or whose process is gone. -/
def reapStale : BuildLockOp (Except BuildLockError Unit) := do
  let there : Bool ← issue .pathExists
  if there then
    let age : Except String Nat ← issue .age
    match age with
    | .error reason => .done (.error (buildLockIo "stat" reason))
    | .ok age =>
        if staleThresholdSecs * 10 ^ 9 < age then removeStale "reap_stale"
        else
          let content : Except String (List Char) ← issue .readToString
          match content with
          | .error _ => .done (.ok ())
          | .ok content =>
              match holderPid content with
              | none => .done (.ok ())
              | some pid =>
                  let alive : Bool ← issue (.procExists pid)
                  if alive then .done (.ok ()) else removeStale "reap_dead_holder"
  else .done (.ok ())

def writeLockFile (pid : Nat) : BuildLockOp (Except BuildLockError Nat) := do
  let written : Except (Bool × String) Nat ← issue (.write pid)
  match written with
  | .ok acquisition => .done (.ok acquisition)
  | .error (missing, reason) =>
      .done (.error (buildLockIo (if missing then "mkdir" else "write") reason))

def BuildLock.tryAcquire (pid : Nat) :
    BuildLockOp (Except BuildLockError (Option BuildLockGuard)) := do
  let reaped : Except BuildLockError Unit ← reapStale
  match reaped with
  | .error e => .done (.error e)
  | .ok () =>
      let there : Bool ← issue .pathExists
      if there then .done (.ok none)
      else
        let written : Except BuildLockError Nat ← writeLockFile pid
        match written with
        | .error e => .done (.error e)
        | .ok acquisition => .done (.ok (some ⟨acquisition⟩))

def BuildLock.currentHolder : BuildLockOp (Option (List Char)) := do
  let content : Except String (List Char) ← issue .readToString
  .done content.toOption

/-- Poll until the lock is acquired or the time is up. A process is followed for a number
of rounds, after which it is still polling and holds nothing. -/
def BuildLock.acquire (pid timeout : Nat) :
    Nat → BuildLockOp (Except BuildLockError (Option BuildLockGuard))
  | 0 => .done (.ok none)
  | rounds + 1 => do
      let tried : Except BuildLockError (Option BuildLockGuard) ← BuildLock.tryAcquire pid
      match tried with
      | .error e => .done (.error e)
      | .ok (some guard) => .done (.ok (some guard))
      | .ok none =>
          let elapsed : Nat ← issue .elapsed
          if timeout ≤ elapsed then
            let holder : Option (List Char) ← BuildLock.currentHolder
            .done (.error (.commandTimeout ("acquire cargo build lock (held by " ++
              (holder.map String.ofList).getD "unknown" ++ ")") (timeout / 10 ^ 9)))
          else BuildLock.acquire pid timeout rounds

/-- One use of the lock by a process: a single attempt, or an acquisition with its timeout
and the number of rounds it is followed for. -/
structure BuildJob where
  pid : Nat
  wait : Option (Nat × Nat)

/-- Acquire; with a guard, build for as long as it takes and drop the guard. -/
def BuildJob.program (job : BuildJob) : BuildLockOp Unit := do
  let acquired : Except BuildLockError (Option BuildLockGuard) ←
    match job.wait with
    | none => BuildLock.tryAcquire job.pid
    | some (timeout, rounds) => BuildLock.acquire job.pid timeout rounds
  match acquired with
  | .ok (some guard) => issue (.dropGuard guard)
  | _ => .done ()

structure LockFile where
  content : List Char
  modified : Nat
  acquisition : Nat

/-- The lock file and how many writes there were. -/
structure BuildLockDir where
  lock : Option LockFile
  writes : Nat

/-- Why a file operation fails, for a write with how much of the text it leaves: nothing
without the directory or the file. -/
inductive BuildLockFault where
  | missing (reason : String)
  | blocked (reason : String)
  | cut (kept : Nat) (reason : String)

def BuildLockFault.reason : BuildLockFault → String
  | .missing reason | .blocked reason | .cut _ reason => reason

/-- What a command meets: the clock in nanoseconds, the time since the call began, what
the written text says besides the process, and a fault if there is one. -/
structure BuildLockWorld where
  now : Nat
  elapsed : Nat
  host : List Char
  started : List Char
  fault : Option BuildLockFault

def lockInfo (pid : Nat) (world : BuildLockWorld) : List Char :=
  "pid=".toList ++ Nat.toDigits 10 pid ++ "\nhost=".toList ++ world.host ++
    "\nstarted=".toList ++ world.started ++ "\n".toList

namespace BuildLockDir

variable (dir : BuildLockDir) (world : BuildLockWorld)

/-- A write replaces what is there; the file is told apart by the number of the write. -/
def put (text : List Char) : BuildLockDir :=
  ⟨some ⟨text, world.now, dir.writes⟩, dir.writes + 1⟩

def remove : Except String Unit × BuildLockDir :=
  match world.fault, dir.lock with
  | some fault, _ => (.error fault.reason, dir)
  | none, none => (.error "No such file or directory (os error 2)", dir)
  | none, some _ => (.ok (), { dir with lock := none })

/-- How commands act; `proc` says which processes there are. A file that cannot be looked
at does not exist, and one from the future has no age. -/
def answer (proc : Nat → Bool) : (cmd : BuildLockCmd) → cmd.Ans × BuildLockDir
  | .pathExists => (world.fault.isNone && dir.lock.isSome, dir)
  | .age =>
      match world.fault, dir.lock with
      | some fault, _ => (.error fault.reason, dir)
      | none, none => (.error "No such file or directory (os error 2)", dir)
      | none, some file => (.ok (world.now - file.modified), dir)
  | .readToString =>
      match world.fault, dir.lock with
      | some fault, _ => (.error fault.reason, dir)
      | none, none => (.error "No such file or directory (os error 2)", dir)
      | none, some file => (.ok file.content, dir)
  | .procExists pid => (proc pid, dir)
  | .removeFile => dir.remove world
  | .write pid =>
      match world.fault with
      | none => (.ok dir.writes, dir.put world (lockInfo pid world))
      | some (.cut kept reason) =>
          (.error (false, reason), dir.put world ((lockInfo pid world).take kept))
      | some (.missing reason) => (.error (true, reason), dir)
      | some (.blocked reason) => (.error (false, reason), dir)
  | .elapsed => (world.elapsed, dir)
  | .dropGuard _ => ((), (dir.remove world).2)

end BuildLockDir

def buildLockHost (proc : Nat → Bool) :
    Pool.Host BuildLockDir BuildJob BuildLockWorld BuildLockCmd BuildLockCmd.Ans Unit :=
  ⟨BuildJob.program, fun dir world => dir.answer world proc⟩

abbrev BuildPool := Pool BuildLockDir BuildLockCmd BuildLockCmd.Ans Unit

abbrev BuildEvent := Pool.Event BuildJob BuildLockWorld

def guardOf : BuildLockOp Unit → Option BuildLockGuard
  | .step (.dropGuard guard) _ => some guard
  | _ => none

def BuildPool.guard (pool : BuildPool) (index : Nat) : Option BuildLockGuard :=
  (pool.threads[index]?).bind fun thread => guardOf thread.program

def guardProtocol : Protocol BuildLockCmd BuildLockCmd.Ans (Option BuildLockGuard) where
  allowed held cmd :=
    match held, cmd with
    | some guard, cmd => cmd = .dropGuard guard
    | none, .dropGuard _ => False
    | none, _ => True
  next held cmd answer :=
    match cmd, answer with
    | .write _, .ok acquisition => some ⟨acquisition⟩
    | .dropGuard _, _ => none
    | _, _ => held

theorem guardOf_of_follows {program : BuildLockOp Unit} {held : Option BuildLockGuard}
    (h : program.Follows guardProtocol (fun held _ => held = none) held) :
    guardOf program = held := by
  cases program with
  | done value => exact (show held = none from h).symm
  | step cmd next =>
    obtain ⟨hallowed, -⟩ := h
    cases held with
    | some guard =>
      cases (show cmd = .dropGuard guard from hallowed)
      rfl
    | none =>
      cases cmd with
      | dropGuard guard => exact hallowed.elim
      | _ => rfl

theorem follows_removeStale (action : String) :
    (removeStale action).Follows guardProtocol (fun held _ => held = none) none := by
  refine ⟨trivial, ?_⟩
  intro removed
  cases removed with
  | ok removed => rfl
  | error reason => rfl

theorem follows_reapStale :
    reapStale.Follows guardProtocol (fun held _ => held = none) none := by
  refine ⟨trivial, ?_⟩
  intro there
  cases there with
  | false => rfl
  | true =>
    refine ⟨trivial, ?_⟩
    intro age
    cases age with
    | error reason => rfl
    | ok age =>
      dsimp only [Program.bind]
      split
      · exact follows_removeStale _
      · refine ⟨trivial, ?_⟩
        intro content
        cases content with
        | error reason => rfl
        | ok content =>
          dsimp only [Program.bind]
          split
          · rfl
          · refine ⟨trivial, ?_⟩
            intro alive
            cases alive with
            | true => rfl
            | false => exact follows_removeStale _

def Returns (held : Option BuildLockGuard) :
    Except BuildLockError (Option BuildLockGuard) → Prop
  | .ok guard => held = guard
  | .error _ => held = none

theorem follows_tryAcquireLock (pid : Nat) :
    (BuildLock.tryAcquire pid).Follows guardProtocol Returns none := by
  apply follows_reapStale.bind
  rintro held reaped rfl
  cases reaped with
  | error e => rfl
  | ok reaped =>
    refine ⟨trivial, ?_⟩
    intro there
    cases there with
    | true => rfl
    | false =>
      refine ⟨trivial, ?_⟩
      intro written
      cases written with
      | ok acquisition => rfl
      | error fault => rfl

theorem follows_acquire (pid timeout rounds : Nat) :
    (BuildLock.acquire pid timeout rounds).Follows guardProtocol Returns none := by
  induction rounds with
  | zero => rfl
  | succ rounds ih =>
    apply (follows_tryAcquireLock pid).bind
    intro held tried htried
    cases tried with
    | error e => exact htried
    | ok guard =>
      cases (show held = guard from htried)
      cases held with
      | some guard => rfl
      | none =>
        refine ⟨trivial, ?_⟩
        intro elapsed
        dsimp only [Program.bind]
        split
        · refine ⟨trivial, ?_⟩
          intro content
          rfl
        · exact ih

theorem follows_buildJob (job : BuildJob) :
    job.program.Follows guardProtocol (fun held _ => held = none) none := by
  have hdrop (held : Option BuildLockGuard)
      (acquired : Except BuildLockError (Option BuildLockGuard)) (h : Returns held acquired) :
      Program.Follows guardProtocol (fun held _ => held = none) held
        (match acquired with
        | .ok (some guard) => issue (.dropGuard guard)
        | _ => .done ()) := by
    cases acquired with
    | error e => exact h
    | ok guard =>
      cases (show held = guard from h)
      cases held with
      | none => rfl
      | some guard => exact ⟨rfl, fun _ => rfl⟩
  unfold BuildJob.program
  cases job.wait with
  | none => exact (follows_tryAcquireLock job.pid).bind hdrop
  | some wait => exact (follows_acquire job.pid wait.1 wait.2).bind hdrop

/-- Whoever has a guard is alone, and the lock file is the one it wrote. -/
def Exclusive (pool : BuildPool) : Prop :=
  ∀ index guard, pool.guard index = some guard →
    (∃ file, pool.shared.lock = some file ∧ file.acquisition = guard.acquisition) ∧
    ∀ other, (pool.guard other).isSome → other = index

/-- The event does not go against a guard that exists: a file is written only where none
is, and the file that is reaped is of no guard that exists. -/
def orderly (pool : BuildPool) (event : BuildEvent) : Bool :=
  match pool.issued event with
  | some (world, .write _) =>
      match world.fault with
      | some (.missing _) | some (.blocked _) => true
      | _ => pool.shared.lock.isNone
  | some (world, .removeFile) =>
      world.fault.isSome || pool.threads.all fun thread =>
        (guardOf thread.program).all fun guard =>
          pool.shared.lock.all fun file => file.acquisition ≠ guard.acquisition
  | _ => true

theorem guard_start (pool : BuildPool) (job : BuildJob) (index : Nat) :
    BuildPool.guard { pool with threads := pool.threads ++ [⟨job.program, []⟩] } index =
      pool.guard index := by
  unfold BuildPool.guard
  rw [List.getElem?_append]
  split
  · rfl
  next hindex =>
    rw [List.getElem?_eq_none (Nat.le_of_not_lt hindex)]
    cases hfresh : [(⟨job.program, []⟩ : Thread BuildLockCmd BuildLockCmd.Ans Unit)][
        index - pool.threads.length]? with
    | none => rfl
    | some thread =>
      rw [List.mem_singleton.mp (List.mem_of_getElem? hfresh)]
      exact guardOf_of_follows (follows_buildJob job)

theorem Exclusive.same {pool pool' : BuildPool} (h : Exclusive pool)
    (hlock : pool'.shared.lock = pool.shared.lock)
    (hguard : ∀ index, pool'.guard index = pool.guard index) : Exclusive pool' := by
  intro index guard hindex
  rw [hguard] at hindex
  obtain ⟨hfile, halone⟩ := h index guard hindex
  rw [hlock]
  refine ⟨hfile, ?_⟩
  intro other hother
  rw [hguard] at hother
  exact halone other hother

theorem Exclusive.unlocked {pool : BuildPool} (h : Exclusive pool) (hlock : pool.shared.lock = none)
    (index : Nat) : pool.guard index = none := by
  cases hguard : pool.guard index with
  | none => rfl
  | some guard =>
    obtain ⟨⟨file, hfile, -⟩, -⟩ := h index guard hguard
    rw [hlock] at hfile
    cases hfile

theorem exclusive_of_none {pool : BuildPool} (h : ∀ index, pool.guard index = none) :
    Exclusive pool := by
  intro index guard hguard
  rw [h] at hguard
  cases hguard

theorem Exclusive.reaped {pool : BuildPool} (h : Exclusive pool)
    (hreaped : pool.threads.all fun thread => (guardOf thread.program).all fun guard =>
      pool.shared.lock.all fun file => file.acquisition ≠ guard.acquisition) (index : Nat) :
    pool.guard index = none := by
  cases hguard : pool.guard index with
  | none => rfl
  | some guard =>
    obtain ⟨⟨_, hfile, hown⟩, -⟩ := h index guard hguard
    obtain ⟨thread, hthread, hheld⟩ := Option.bind_eq_some_iff.mp hguard
    have hother := List.all_eq_true.mp hreaped thread (List.mem_of_getElem? hthread)
    rw [hheld, hfile] at hother
    exact absurd hown (by simpa using hother)

section Step

variable {proc : Nat → Bool} {pool : BuildPool}

theorem guard_advance {index : Nat} {world : BuildLockWorld} {cmd : BuildLockCmd}
    {next : cmd.Ans → BuildLockOp Unit} {past : List (Exchange BuildLockCmd BuildLockCmd.Ans)}
    (hfollowing : Pool.Following guardProtocol none (fun held _ => held = none) pool)
    (hthread : pool.threads[index]? = some ⟨.step cmd next, past⟩) (other : Nat) :
    BuildPool.guard ⟨(pool.shared.answer world proc cmd).2, pool.threads.set index
        ⟨next (pool.shared.answer world proc cmd).1,
          past ++ [⟨cmd, (pool.shared.answer world proc cmd).1⟩]⟩⟩ other =
      if other = index then
        guardProtocol.next (pool.guard index) cmd (pool.shared.answer world proc cmd).1
      else pool.guard other := by
  have hfollows := hfollowing _ (List.mem_of_getElem? hthread)
  obtain ⟨hindex, -⟩ := List.getElem?_eq_some_iff.mp hthread
  unfold BuildPool.guard
  by_cases hother : other = index
  · subst hother
    rw [if_pos rfl, List.getElem?_set_self hindex, hthread]
    have hheld := guardOf_of_follows hfollows
    have hnext := guardOf_of_follows (hfollows.2 (pool.shared.answer world proc cmd).1)
    exact hnext.trans (congrArg (guardProtocol.next · cmd _) hheld.symm)
  · rw [if_neg hother, List.getElem?_set_ne (Ne.symm hother)]

def BuildLockCmd.looks : BuildLockCmd → Bool
  | .removeFile | .write _ | .dropGuard _ => false
  | _ => true

theorem answer_looks (dir : BuildLockDir) (world : BuildLockWorld) {cmd : BuildLockCmd}
    (h : cmd.looks) : (dir.answer world proc cmd).2 = dir := by
  cases cmd with
  | removeFile => cases h
  | write pid => cases h
  | dropGuard guard => cases h
  | pathExists => rfl
  | procExists pid => rfl
  | elapsed => rfl
  | age => cases hfault : world.fault <;> cases hlock :
    dir.lock <;> simp [BuildLockDir.answer, hfault, hlock]
  | readToString =>
    cases hfault : world.fault <;> cases hlock :
      dir.lock <;> simp [BuildLockDir.answer, hfault, hlock]

theorem exclusive_advance {index : Nat} {world : BuildLockWorld} {cmd : BuildLockCmd}
    {next : cmd.Ans → BuildLockOp Unit} {past : List (Exchange BuildLockCmd BuildLockCmd.Ans)}
    (hfollowing : Pool.Following guardProtocol none (fun held _ => held = none) pool)
    (hthread : pool.threads[index]? = some ⟨.step cmd next, past⟩)
    (horderly : orderly pool (.advance index world)) (h : Exclusive pool) :
    Exclusive ⟨(pool.shared.answer world proc cmd).2, pool.threads.set index
      ⟨next (pool.shared.answer world proc cmd).1,
        past ++ [⟨cmd, (pool.shared.answer world proc cmd).1⟩]⟩⟩ := by
  have hguard := @guard_advance proc pool index world cmd next past hfollowing hthread
  have hunmoved (hnext : guardProtocol.next (pool.guard index) cmd
        (pool.shared.answer world proc cmd).1 = pool.guard index) (other : Nat) :
      BuildPool.guard ⟨(pool.shared.answer world proc cmd).2, pool.threads.set index
        ⟨next (pool.shared.answer world proc cmd).1,
          past ++ [⟨cmd, (pool.shared.answer world proc cmd).1⟩]⟩⟩ other = pool.guard other := by
    rw [hguard, hnext]
    split
    next hother => rw [hother]
    next => rfl
  have hissued : pool.issued (.advance index world : BuildEvent) = some (world, cmd) := by
    simp [Pool.issued, hthread]
  unfold orderly at horderly
  rw [hissued] at horderly
  cases cmd with
  | removeFile =>
    cases hfault : world.fault with
    | some fault =>
      refine h.same ?_ (hunmoved rfl)
      simp [BuildLockDir.answer, BuildLockDir.remove, hfault]
    | none =>
      cases hlock : pool.shared.lock with
      | none =>
        refine h.same ?_ (hunmoved rfl)
        simp [BuildLockDir.answer, BuildLockDir.remove, hfault, hlock]
      | some file =>
        apply exclusive_of_none
        intro other
        rw [hunmoved rfl]
        exact h.reaped (by simpa [hfault] using horderly) other
  | write pid =>
    cases hfault : world.fault with
    | none =>
      have hnone := h.unlocked (by simpa [hfault] using horderly)
      have hanswer : pool.shared.answer world proc (.write pid) =
          (.ok pool.shared.writes, pool.shared.put world (lockInfo pid world)) := by
        simp only [BuildLockDir.answer, hfault]
      rw [hanswer] at hguard ⊢
      have howner (holder : Nat) (guard : BuildLockGuard)
          (hholder : BuildPool.guard ⟨pool.shared.put world (lockInfo pid world),
            pool.threads.set index ⟨next (.ok pool.shared.writes),
              past ++ [⟨.write pid, .ok pool.shared.writes⟩]⟩⟩ holder = some guard) :
          holder = index ∧ guard = ⟨pool.shared.writes⟩ := by
        rw [hguard] at hholder
        split at hholder
        next heq => exact ⟨heq, (Option.some.inj hholder).symm⟩
        next =>
          rw [hnone] at hholder
          cases hholder
      intro holder guard hholder
      obtain ⟨rfl, rfl⟩ := howner holder guard hholder
      refine ⟨⟨_, rfl, rfl⟩, ?_⟩
      intro other hother
      obtain ⟨guard, hother⟩ := Option.isSome_iff_exists.mp hother
      exact (howner other guard hother).1
    | some fault =>
      cases fault with
      | cut kept reason =>
        apply exclusive_of_none
        intro other
        rw [hunmoved (by simp [BuildLockDir.answer, hfault, guardProtocol])]
        exact h.unlocked (by simpa [hfault] using horderly) other
      | missing reason =>
        apply h.same _ (hunmoved (by simp [BuildLockDir.answer, hfault, guardProtocol]))
        simp [BuildLockDir.answer, hfault]
      | blocked reason =>
        apply h.same _ (hunmoved (by simp [BuildLockDir.answer, hfault, guardProtocol]))
        simp [BuildLockDir.answer, hfault]
  | dropGuard guard =>
    have hheld : pool.guard index = some guard := by
      unfold BuildPool.guard
      rw [hthread]
      rfl
    apply exclusive_of_none
    intro other
    rw [hguard]
    split
    · rfl
    next hother =>
      cases hgone : pool.guard other with
      | none => rfl
      | some _ => exact absurd ((h index guard hheld).2 other (by rw [hgone]; rfl)) hother
  | pathExists | age | readToString | procExists pid | elapsed =>
    refine h.same ?_ (hunmoved rfl)
    exact congrArg BuildLockDir.lock (answer_looks pool.shared world rfl)

end Step

theorem exclusive_step (proc : Nat → Bool) (pool : BuildPool) (event : BuildEvent)
    (horderly : orderly pool event)
    (h : Pool.Following guardProtocol none (fun held _ => held = none) pool ∧ Exclusive pool) :
    Pool.Following guardProtocol none (fun held _ => held = none)
        ((buildLockHost proc).step pool event) ∧
      Exclusive ((buildLockHost proc).step pool event) := by
  refine ⟨(buildLockHost proc).following_step follows_buildJob pool event h.1, ?_⟩
  rcases (buildLockHost proc).step_cases pool event with
    ⟨job, rfl, hstep⟩ | ⟨-, hstep⟩ | ⟨index, world, cmd, next, past, rfl, hthread, -, hstep⟩
  · rw [hstep]
    exact h.2.same rfl (guard_start pool job)
  · rw [hstep]
    exact h.2
  · rw [hstep]
    exact exclusive_advance h.1 hthread horderly h.2

def OneGuard (pool : BuildPool) : Prop :=
  ∀ i j, (pool.guard i).isSome → (pool.guard j).isSome → i = j

def dropsOwn (t : Machine.Transition BuildPool BuildEvent) : Bool :=
  match t.before.issued t.event with
  | some (world, .dropGuard guard) =>
      world.fault.isSome || t.before.shared.lock.all fun file =>
        file.acquisition = guard.acquisition
  | _ => true

theorem Exclusive.oneGuard {pool : BuildPool} (h : Exclusive pool) : OneGuard pool := by
  intro i j hi hj
  obtain ⟨guard, hguard⟩ := Option.isSome_iff_exists.mp hj
  exact (h j guard hguard).2 i hi

theorem Exclusive.dropsOwn {t : Machine.Transition BuildPool BuildEvent}
    (h : Exclusive t.before) : dropsOwn t := by
  unfold Locks.dropsOwn
  split
  next world guard hissued =>
    obtain ⟨index, next, past, -, hthread⟩ := Pool.issued_eq_some hissued
    have hheld : t.before.guard index = some guard := by
      unfold BuildPool.guard
      rw [hthread]
      rfl
    obtain ⟨⟨file, hfile, hown⟩, -⟩ := h index guard hheld
    simp [hfile, hown]
  next => rfl

/-- While files are written only where none is and no reaped file belongs to a guard that
exists, at most one guard exists and every drop removes its own file. -/
theorem one_guard_orderly (proc : Nat → Bool) (dir : BuildLockDir) (events : List BuildEvent)
    (horderly : ∀ t ∈ (buildLockHost proc).machine.trace (Pool.init dir) events,
      orderly t.before t.event) :
    OneGuard ((buildLockHost proc).machine.run (Pool.init dir) events) ∧
      ∀ t ∈ (buildLockHost proc).machine.trace (Pool.init dir) events, dropsOwn t := by
  have hstep (pool : BuildPool) (event : BuildEvent) (hok : orderly pool event)
      (h : Pool.Following guardProtocol none (fun held _ => held = none) pool ∧ Exclusive pool) :=
    exclusive_step proc pool event hok h
  have hinit : Pool.Following guardProtocol none (fun held _ => held = none)
      (Pool.init dir : BuildPool) ∧ Exclusive (Pool.init dir : BuildPool) :=
    ⟨Pool.following_init dir, exclusive_of_none fun _ => rfl⟩
  constructor
  · exact ((buildLockHost proc).machine.invariant_run_of hstep hinit events horderly).2.oneGuard
  · intro t ht
    exact ((buildLockHost proc).machine.invariant_trace_of hstep hinit horderly ht).2.dropsOwn

/-- Let a process carry out its next commands, at one time and without a fault. -/
def runFor (index times now : Nat) : List BuildEvent :=
  List.replicate times (.advance index ⟨now, 0, [], [], none⟩)

/-- A process builds and drops its guard, then another one builds. -/
def turns : List BuildEvent :=
  .start ⟨1, none⟩ :: runFor 0 4 0 ++ .start ⟨2, some (10 ^ 9, 3)⟩ :: runFor 1 3 (5 * 10 ^ 9)

theorem turns_one_guard :
    OneGuard ((buildLockHost fun _ => true).machine.run (Pool.init ⟨none, 0⟩) turns) ∧
      ∀ t ∈ (buildLockHost fun _ => true).machine.trace (Pool.init ⟨none, 0⟩) turns, dropsOwn t :=
  one_guard_orderly _ _ _ (List.all_eq_true.mp (by decide))

def present (proc : Nat → Bool) (events : List BuildEvent) : Bool :=
  events.all fun
    | .start job => proc job.pid
    | .advance .. => true

/-- Two processes that both look before either writes both get a guard. -/
def buildRace : List BuildEvent :=
  [.start ⟨1, none⟩, .start ⟨2, none⟩] ++ runFor 0 2 0 ++ runFor 1 2 0 ++
    runFor 0 1 0 ++ runFor 1 1 0

theorem race_shares_lock :
    ¬ (∀ proc dir events, present proc events →
      OneGuard ((buildLockHost proc).machine.run (Pool.init dir) events)) ∧
    ¬ (∀ proc dir events, present proc events →
      ∀ t ∈ (buildLockHost proc).machine.trace (Pool.init dir) events, dropsOwn t) := by
  constructor
  · intro h
    have hone := h (fun _ => true) ⟨none, 0⟩ buildRace (by decide)
    exact absurd (hone 0 1 (by decide) (by decide)) (by decide)
  · intro h
    have howns := h (fun _ => true) ⟨none, 0⟩ (buildRace ++ runFor 0 1 0) (by decide)
    exact absurd (List.all_eq_true.mpr howns) (by decide)

/-- While a build of more than ten minutes runs, another process reaps its lock. -/
def longBuild : List BuildEvent :=
  .start ⟨1, none⟩ :: runFor 0 3 0 ++ .start ⟨2, none⟩ :: runFor 1 5 (601 * 10 ^ 9)

example : ¬ OneGuard ((buildLockHost fun _ => true).machine.run (Pool.init ⟨none, 0⟩) longBuild) :=
  fun hone => absurd (hone 0 1 (by decide) (by decide)) (by decide)

end Simard.Locks
