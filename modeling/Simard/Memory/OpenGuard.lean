import Simard.Library.Machine

/-! The guard on opening the cognitive store. The first handle of a process takes a file lock and
later ones share it, found through a registry of weak references; the last to be dropped gives the
lock back and clears its entry. Any number of opens and drops, in any number of processes, run
step by step between one another, and a process may die at any point. -/
namespace Simard.Memory
open Simard.Library

/-- An open file description on the lock file of a directory, with the process that has it. -/
structure LockFd (δ : Type) where
  pid : Nat
  dir : δ
  number : Nat
  deriving DecidableEq

/-- Where a call of `open` is, and later the handle it returned. -/
inductive Place (δ : Type) where
  /-- Creating the state root. -/
  | start
  /-- Looking for a lock of this process. -/
  | fast
  /-- Opening the lock file. -/
  | opening
  /-- Looking again, at the head of the loop. -/
  | trying (file : LockFd δ)
  /-- Nothing found, the registry still locked. -/
  | inside (file : LockFd δ)
  /-- The file lock taken, the registry still locked. -/
  | locked (file : LockFd δ)
  /-- The file lock is held elsewhere. -/
  | waiting (file : LockFd δ)
  /-- With a guard, opening the store. -/
  | guarded (lock : LockFd δ)
  /-- The handle is out. -/
  | live (lock : LockFd δ)
  /-- The store is closed, the guard not yet dropped. -/
  | closed (lock : LockFd δ)
  /-- The last reference is gone, the file lock not yet given back. -/
  | releasing (lock : LockFd δ)
  /-- The file lock is given back, the registry not yet cleared. -/
  | cleaning (lock : LockFd δ)
  | gone
  deriving DecidableEq

namespace Place

variable {δ : Type}

def shares : Place δ → Option (LockFd δ)
  | guarded lock | live lock | closed lock => some lock
  | _ => none

/-- A file that no one else knows of: not yet published, or no longer referenced. -/
def owns : Place δ → Option (LockFd δ)
  | trying file | inside file | locked file | waiting file => some file
  | releasing lock | cleaning lock => some lock
  | _ => none

def keeps : Place δ → Option (LockFd δ)
  | locked lock | guarded lock | live lock | closed lock | releasing lock => some lock
  | _ => none

def registering : Place δ → Option (LockFd δ)
  | inside file | locked file => some file
  | _ => none

end Place

structure Opener (ρ δ : Type) where
  pid : Nat
  root : ρ
  place : Place δ

/-- The file locks by directory, and of each process the registry, who is in it and the openers. -/
structure OpenHost (ρ δ : Type) where
  openers : List (Opener ρ δ)
  flock : δ → Option (LockFd δ)
  registry : Nat → δ → Option (LockFd δ)
  mutex : Nat → Option Nat
  nextFd : Nat

inductive OpenEvent (ρ : Type) where
  | begin (pid : Nat) (root : ρ)
  /-- The opener at an index takes its next step; what may fail does so unless `ok`. -/
  | advance (index : Nat) (ok : Bool)
  | die (pid : Nat)

namespace OpenHost

variable {ρ δ : Type} [DecidableEq δ] (canonicalize : ρ → δ) (host : OpenHost ρ δ)

def empty : OpenHost ρ δ := ⟨[], fun _ => none, fun _ _ => none, fun _ => none, 0⟩

def upgrades (lock : LockFd δ) : Bool :=
  host.openers.any (·.place.shares = some lock)

def move (index : Nat) (opener : Opener ρ δ) (place : Place δ) : OpenHost ρ δ :=
  { host with openers := host.openers.set index { opener with place } }

def setFlock (dir : δ) (holder : Option (LockFd δ)) : OpenHost ρ δ :=
  { host with flock := Function.update host.flock dir holder }

def setEntry (pid : Nat) (dir : δ) (entry : Option (LockFd δ)) : OpenHost ρ δ :=
  { host with
    registry := Function.update host.registry pid (Function.update (host.registry pid) dir entry) }

def setMutex (pid : Nat) (inside : Option Nat) : OpenHost ρ δ :=
  { host with mutex := Function.update host.mutex pid inside }

def liveLockFor (pid : Nat) (dir : δ) : Option (LockFd δ) × OpenHost ρ δ :=
  match host.registry pid dir with
  | some lock =>
      if host.upgrades lock then (some lock, host) else (none, host.setEntry pid dir none)
  | none => (none, host)

/-- One step of an opener. A step that needs the registry waits for whoever is in it. -/
def advance (index : Nat) (ok : Bool) (opener : Opener ρ δ) : OpenHost ρ δ :=
  let pid := opener.pid
  let dir := canonicalize opener.root
  match opener.place with
  | .start => host.move index opener (if ok then .fast else .gone)
  | .fast =>
      if (host.mutex pid).isSome then host
      else
        match host.liveLockFor pid dir with
        | (some lock, host) => host.move index opener (.guarded lock)
        | (none, host) => host.move index opener .opening
  | .opening =>
      if ok then
        { host.move index opener (.trying ⟨pid, dir, host.nextFd⟩) with nextFd := host.nextFd + 1 }
      else host.move index opener .gone
  | .trying file =>
      if (host.mutex pid).isSome then host
      else
        match host.liveLockFor pid dir with
        | (some lock, host) => host.move index opener (.guarded lock)
        | (none, host) => (host.setMutex pid (some index)).move index opener (.inside file)
  | .inside file =>
      match host.flock dir with
      | none =>
          if ok then (host.setFlock dir (some file)).move index opener (.locked file)
          else (host.setMutex pid none).move index opener .gone
      | some _ => (host.setMutex pid none).move index opener (if ok then .waiting file else .gone)
  | .locked file =>
      ((host.setEntry pid dir (some file)).setMutex pid none).move index opener (.guarded file)
  | .waiting file => host.move index opener (if ok then .trying file else .gone)
  | .guarded lock => host.move index opener (if ok then .live lock else .closed lock)
  | .live lock => host.move index opener (.closed lock)
  | .closed lock =>
      let dropped := host.move index opener .gone
      if dropped.upgrades lock then dropped else host.move index opener (.releasing lock)
  | .releasing lock =>
      (if host.flock dir = some lock then host.setFlock dir none else host).move index opener
        (.cleaning lock)
  | .cleaning _ =>
      if (host.mutex pid).isSome then host
      else (host.liveLockFor pid dir).2.move index opener .gone
  | .gone => host

/-- The kernel closes what the process had open; its registry dies with it. -/
def die (pid : Nat) : OpenHost ρ δ where
  openers := host.openers.map fun opener =>
    if opener.pid = pid then { opener with place := .gone } else opener
  flock dir := (host.flock dir).filter (·.pid ≠ pid)
  registry := Function.update host.registry pid fun _ => none
  mutex := Function.update host.mutex pid none
  nextFd := host.nextFd

def step : OpenEvent ρ → OpenHost ρ δ
  | .begin pid root => { host with openers := host.openers ++ [⟨pid, root, .start⟩] }
  | .advance index ok =>
      match host.openers[index]? with
      | some opener => host.advance canonicalize index ok opener
      | none => host
  | .die pid => host.die pid

end OpenHost

def openMachine {ρ δ : Type} [DecidableEq δ] (canonicalize : ρ → δ) :
    Machine (OpenHost ρ δ) (OpenEvent ρ) := ⟨OpenHost.step canonicalize⟩

end Simard.Memory
