import Simard.Memory.OpenHeld

/-! What the open guard promises along every run: a store is open in one process at most, a
process that has it open shares it at once, and the lock is given back when the last handle of
the process has closed the store, never earlier. -/
namespace Simard.Memory
open Simard.Library

namespace Place

variable {δ : Type}

/-- Where an open can be that finds the lock of its own process, and afterwards its handle. -/
def unhindered (lock : LockFd δ) : Place δ → Prop
  | start | fast | gone => True
  | guarded found | live found | closed found => found = lock
  | _ => False

def seeking : Place δ → Bool
  | start | fast | opening | trying _ | waiting _ => true
  | _ => false

end Place

namespace OpenHost

variable {ρ δ : Type} [DecidableEq δ] {canonicalize : ρ → δ} {host : OpenHost ρ δ} {index : Nat}
  {opener : Opener ρ δ}

theorem liveLockFor_openers (pid : Nat) (dir : δ) :
    (host.liveLockFor pid dir).2.openers = host.openers := by
  unfold liveLockFor
  split
  · split <;> rfl
  · rfl

theorem advance_openers (canonicalize : ρ → δ)
    (hi : host.openers[index]? = some opener) (ok : Bool) :
    ∃ place, (host.advance canonicalize index ok opener).openers =
      host.openers.set index { opener with place } := by
  have hsame : host.openers = host.openers.set index { opener with place := opener.place } := by
    obtain ⟨hlt, rfl⟩ := List.getElem?_eq_some_iff.mp hi
    exact (List.set_getElem_self hlt).symm
  have hfound := host.liveLockFor_openers opener.pid (canonicalize opener.root)
  unfold OpenHost.advance
  cases hplace : opener.place with
  | fast =>
    dsimp only
    split
    · exact ⟨_, hsame⟩
    · rw [← hfound]
      split <;> next heq => exact ⟨_, by rw [heq]; rfl⟩
  | trying file =>
    dsimp only
    split
    · exact ⟨_, hsame⟩
    · rw [← hfound]
      split <;> next heq => exact ⟨_, by rw [heq]; rfl⟩
  | opening =>
    dsimp only
    split <;> exact ⟨_, rfl⟩
  | inside file =>
    dsimp only
    split
    · split <;> exact ⟨_, rfl⟩
    · exact ⟨_, rfl⟩
  | closed lock =>
    dsimp only
    split <;> exact ⟨_, rfl⟩
  | releasing lock =>
    dsimp only
    split <;> exact ⟨_, rfl⟩
  | cleaning lock =>
    dsimp only
    split
    · exact ⟨_, hsame⟩
    · rw [← hfound]
      exact ⟨_, rfl⟩
  | gone => exact ⟨_, hsame⟩
  | start => exact ⟨_, rfl⟩
  | locked file => exact ⟨_, rfl⟩
  | waiting file => exact ⟨_, rfl⟩
  | guarded lock => exact ⟨_, rfl⟩
  | live lock => exact ⟨_, rfl⟩

theorem step_advance (hi : host.openers[index]? = some opener) (ok : Bool) :
    host.step canonicalize (.advance index ok) = host.advance canonicalize index ok opener := by
  simp only [step, hi]

omit [DecidableEq δ] in
theorem move_getElem?_self (hi : host.openers[index]? = some opener) (place : Place δ) :
    (host.move index opener place).openers[index]? = some { opener with place } := by
  simp only [move, List.getElem?_set_self', hi]
  rfl

omit [DecidableEq δ] in
theorem Held.shared_eq (hheld : host.Held canonicalize) {i j : Nat} {handle other : Opener ρ δ}
    {lock found : LockFd δ} (hi : host.openers[i]? = some handle)
    (hshares : handle.place.shares = some lock) (hj : host.openers[j]? = some other)
    (hother : other.place.shares = some found)
    (hdir : canonicalize other.root = canonicalize handle.root) : found = lock := by
  have hlock := hheld.kept hi (Place.keeps_of_shares hshares)
  have hfound := hheld.kept hj (Place.keeps_of_shares hother)
  rw [(hheld.file hi (Place.names_of_shares hshares)).2.1] at hlock
  rw [(hheld.file hj (Place.names_of_shares hother)).2.1, hdir, hlock] at hfound
  exact (Option.some.inj hfound).symm

theorem Held.liveLockFor_shared (hheld : host.Held canonicalize) {i : Nat}
    {handle : Opener ρ δ} {lock : LockFd δ} (hi : host.openers[i]? = some handle)
    (hshares : handle.place.shares = some lock) :
    host.liveLockFor handle.pid (canonicalize handle.root) = (some lock, host) := by
  have hentry := hheld.entered hi hshares
  obtain ⟨hpid, hdir, -⟩ := hheld.file hi (Place.names_of_shares hshares)
  rw [hpid, hdir] at hentry
  have hlive : host.upgrades lock := upgrades_iff.mpr ⟨i, handle, hi, hshares⟩
  unfold liveLockFor
  rw [hentry]
  exact if_pos hlive

theorem Held.fast_guarded (hheld : host.Held canonicalize) {j : Nat} {handle : Opener ρ δ}
    {lock : LockFd δ} (hj : host.openers[j]? = some handle)
    (hshares : handle.place.shares = some lock) (hpid : opener.pid = handle.pid)
    (hdir : canonicalize opener.root = canonicalize handle.root) (hplace : opener.place = .fast)
    (hfree : host.mutex opener.pid = none) (ok : Bool) :
    host.advance canonicalize index ok opener = host.move index opener (.guarded lock) := by
  unfold OpenHost.advance
  rw [hplace]
  dsimp only
  rw [hfree, hpid, hdir, hheld.liveLockFor_shared hj hshares]
  rfl

theorem Held.unhindered_step (hheld : host.Held canonicalize) {j : Nat} {handle : Opener ρ δ}
    {lock : LockFd δ} (hj : host.openers[j]? = some handle) (hlive : handle.place = .live lock)
    (hi : host.openers[index]? = some opener) (hpid : opener.pid = handle.pid)
    (hdir : canonicalize opener.root = canonicalize handle.root)
    (hplace : opener.place.unhindered lock) (event : OpenEvent ρ) :
    ∃ place : Place δ, place.unhindered lock ∧
      (host.step canonicalize event).openers[index]? = some { opener with place } := by
  have hshares : handle.place.shares = some lock := by rw [hlive]; rfl
  cases event with
  | begin pid root =>
    refine ⟨opener.place, hplace, ?_⟩
    exact (List.getElem?_append_left (List.getElem?_eq_some_iff.mp hi).1).trans hi
  | die pid =>
    simp only [OpenHost.step, OpenHost.die, List.getElem?_map, hi, Option.map_some]
    split
    · exact ⟨.gone, trivial, rfl⟩
    · exact ⟨opener.place, hplace, rfl⟩
  | advance k ok =>
    by_cases hk : k = index
    · subst hk
      rw [step_advance hi]
      cases hopener : opener.place with
      | start =>
        unfold OpenHost.advance
        rw [hopener]
        refine ⟨_, ?_, move_getElem?_self hi _⟩
        cases ok <;> trivial
      | fast =>
        by_cases hfree : host.mutex opener.pid = none
        · rw [hheld.fast_guarded hj hshares hpid hdir hopener hfree]
          exact ⟨.guarded lock, rfl, move_getElem?_self hi _⟩
        · unfold OpenHost.advance
          rw [hopener]
          dsimp only
          rw [if_pos (Option.isSome_iff_ne_none.mpr hfree)]
          exact ⟨opener.place, hplace, hi⟩
      | gone =>
        unfold OpenHost.advance
        rw [hopener]
        exact ⟨opener.place, hplace, hi⟩
      | guarded found =>
        rw [hopener] at hplace
        unfold OpenHost.advance
        rw [hopener]
        refine ⟨_, ?_, move_getElem?_self hi _⟩
        cases ok <;> exact hplace
      | live found =>
        rw [hopener] at hplace
        unfold OpenHost.advance
        rw [hopener]
        exact ⟨.closed found, hplace, move_getElem?_self hi _⟩
      | closed found =>
        -- the handle still shares the lock, so this one is not the last
        rw [hopener] at hplace
        obtain rfl : found = lock := hplace
        have hne : j ≠ k := by
          rintro rfl
          rw [hj, Option.some.injEq] at hi
          rw [← hi, hlive] at hopener
          cases hopener
        have hlast : (host.move k opener .gone).upgrades found :=
          (upgrades_dropped hi).mpr ⟨j, handle, hj, hne, hshares⟩
        unfold OpenHost.advance
        rw [hopener]
        dsimp only
        rw [if_pos hlast]
        exact ⟨.gone, trivial, move_getElem?_self hi _⟩
      | opening => rw [hopener] at hplace; exact hplace.elim
      | trying file => rw [hopener] at hplace; exact hplace.elim
      | inside file => rw [hopener] at hplace; exact hplace.elim
      | locked file => rw [hopener] at hplace; exact hplace.elim
      | waiting file => rw [hopener] at hplace; exact hplace.elim
      | releasing file => rw [hopener] at hplace; exact hplace.elim
      | cleaning file => rw [hopener] at hplace; exact hplace.elim
    · refine ⟨opener.place, hplace, ?_⟩
      cases hmoving : host.openers[k]? with
      | none =>
        simp only [OpenHost.step, hmoving]
        exact hi
      | some moving =>
        obtain ⟨place, hopeners⟩ := advance_openers canonicalize hmoving ok
        rw [step_advance hmoving, hopeners, List.getElem?_set_ne hk]
        exact hi

theorem Held.unhindered_run (hheld : host.Held canonicalize) {j : Nat} {handle : Opener ρ δ}
    {lock : LockFd δ} (hi : host.openers[index]? = some opener) (hpid : opener.pid = handle.pid)
    (hdir : canonicalize opener.root = canonicalize handle.root)
    (hplace : opener.place.unhindered lock) {later : List (OpenEvent ρ)}
    (hstays : ∀ t ∈ (openMachine canonicalize).trace host later,
      t.before.openers[j]? = some { handle with place := .live lock }) :
    ∃ place : Place δ, place.unhindered lock ∧
      ((openMachine canonicalize).run host later).openers[index]? =
        some { opener with place } := by
  induction later generalizing host opener with
  | nil => exact ⟨opener.place, hplace, hi⟩
  | cons event later ih =>
    rw [Machine.trace, List.forall_mem_cons] at hstays
    obtain ⟨place, hnext, hi'⟩ := hheld.unhindered_step hstays.1 rfl hi hpid hdir hplace event
    have hrun := ih (hheld.step event) hi' hpid hdir hnext hstays.2
    exact hrun

theorem Held.kept_step (hheld : host.Held canonicalize) {lock : LockFd δ}
    (hlive : host.upgrades lock) {event : OpenEvent ρ} (halive : event ≠ .die lock.pid) :
    ∃ (i : Nat) (keeper : Opener ρ δ), (host.step canonicalize event).openers[i]? = some keeper ∧
      keeper.place.keeps = some lock := by
  obtain ⟨j, sharer, hj, hshares⟩ := upgrades_iff.mp hlive
  have hkeeps := Place.keeps_of_shares hshares
  cases event with
  | begin pid root =>
    refine ⟨j, sharer, ?_, hkeeps⟩
    exact (List.getElem?_append_left (List.getElem?_eq_some_iff.mp hj).1).trans hj
  | die pid =>
    have howner := (hheld.file hj (Place.names_of_shares hshares)).1
    have hspared : sharer.pid ≠ pid := by
      rintro rfl
      exact halive (howner ▸ rfl)
    refine ⟨j, sharer, ?_, hkeeps⟩
    simp only [OpenHost.step, OpenHost.die, List.getElem?_map, hj, Option.map_some,
      if_neg hspared]
  | advance k ok =>
    cases hmoving : host.openers[k]? with
    | none => exact ⟨j, sharer, by simp only [OpenHost.step, hmoving]; exact hj, hkeeps⟩
    | some moving =>
      rw [step_advance hmoving]
      by_cases hk : k = j
      · subst hk
        rw [hj, Option.some.injEq] at hmoving
        subst hmoving
        unfold OpenHost.advance
        cases hplace : sharer.place with
        | guarded found =>
          rw [hplace] at hshares
          refine ⟨k, _, move_getElem?_self hj _, ?_⟩
          cases ok <;> exact hshares
        | live found =>
          rw [hplace] at hshares
          exact ⟨k, _, move_getElem?_self hj _, hshares⟩
        | closed found =>
          rw [hplace] at hshares
          obtain rfl : found = lock := Option.some.inj hshares
          dsimp only
          split
          · next hother =>
            obtain ⟨i, keeper, hi, hshared⟩ := upgrades_iff.mp hother
            exact ⟨i, keeper, hi, Place.keeps_of_shares hshared⟩
          · exact ⟨k, _, move_getElem?_self hj _, rfl⟩
        | _ => rw [hplace] at hshares; cases hshares
      · obtain ⟨place, hopeners⟩ := advance_openers canonicalize hmoving ok
        exact ⟨j, sharer, by rw [hopeners, List.getElem?_set_ne hk]; exact hj, hkeeps⟩

theorem Held.released_after (hheld : host.Held canonicalize) {dir : δ} {lock : LockFd δ}
    {event : OpenEvent ρ} (hflock : host.flock dir = some lock)
    (hlost : (host.step canonicalize event).flock dir ≠ some lock) :
    event = .die lock.pid ∨ ¬ host.upgrades lock := by
  by_contra hneither
  rw [not_or, not_not] at hneither
  obtain ⟨i, keeper, hi, hkeeps⟩ := hheld.kept_step hneither.2 hneither.1
  have hkept := (hheld.step event).kept hi hkeeps
  rw [(hheld.holder hflock).1] at hkept
  exact hlost hkept

theorem Held.mutex_freed (hheld : host.Held canonicalize) {pid : Nat}
    (hmutex : host.mutex pid = some index) (ok ok' : Bool) :
    ((openMachine canonicalize).run host [.advance index ok, .advance index ok']).mutex pid =
      none := by
  obtain ⟨opener, file, hi, rfl, hregistering⟩ := hheld.inside hmutex
  simp only [Machine.run_cons, Machine.run_nil, openMachine, step_advance hi]
  cases hplace : opener.place with
  | inside inner =>
    simp only [OpenHost.advance, hplace]
    split <;> cases ok <;> simp [OpenHost.step, OpenHost.advance, move, setMutex, setFlock,
      List.getElem?_set_self', hi]
  | locked inner =>
    simp only [OpenHost.advance, hplace]
    cases ok' <;> simp [OpenHost.step, OpenHost.advance, move, setMutex, setEntry,
      List.getElem?_set_self', hi]
  | _ => rw [hplace] at hregistering; cases hregistering

def Idle (host : OpenHost ρ δ) (dir : δ) : Prop :=
  ∀ (i : Nat) (opener : Opener ρ δ) (lock : LockFd δ), host.openers[i]? = some opener →
    opener.place.keeps = some lock → lock.dir ≠ dir

omit [DecidableEq δ] in
theorem Held.flock_idle (hheld : host.Held canonicalize) {dir : δ} (hidle : host.Idle dir) :
    host.flock dir = none := by
  cases hflock : host.flock dir with
  | none => rfl
  | some lock =>
    obtain ⟨hdir, i, keeper, hi, hkeeps⟩ := hheld.holder hflock
    exact absurd hdir (hidle i keeper lock hi hkeeps)

omit [DecidableEq δ] in
theorem Idle.set {next : OpenHost ρ δ} {dir : δ} (hidle : host.Idle dir) {place : Place δ}
    (hopeners : next.openers = host.openers.set index { opener with place })
    (hkeeps : place.keeps = none) : next.Idle dir := by
  intro i other lock hi hother
  rw [hopeners, List.getElem?_set] at hi
  split at hi
  · split at hi
    · cases hi
      rw [hkeeps] at hother
      cases hother
    · cases hi
  · exact hidle i other lock hi hother

theorem Held.liveLockFor_idle (hheld : host.Held canonicalize) (pid : Nat) {dir : δ}
    (hidle : host.Idle dir) : ∃ next, host.liveLockFor pid dir = (none, next) ∧
      next.openers = host.openers ∧ next.mutex = host.mutex := by
  obtain ⟨lock, -, hentry, hlive⟩ | ⟨next, hfound, -, hopeners, -, hmutex, -⟩ :=
    liveLockFor_cases hheld pid dir
  · obtain ⟨i, sharer, hi, hshares⟩ := upgrades_iff.mp hlive
    exact absurd (hheld.entry hentry).2 (hidle i sharer lock hi (Place.keeps_of_shares hshares))
  · exact ⟨next, hfound, hopeners, hmutex⟩

/-- The opener becomes a live handle by steps of its own. -/
def Succeeds (canonicalize : ρ → δ) (host : OpenHost ρ δ) (index : Nat)
    (opener : Opener ρ δ) : Prop :=
  ∃ (steps : Nat) (lock : LockFd δ),
    ((openMachine canonicalize).run host
      (List.replicate steps (.advance index true))).openers[index]? =
      some { opener with place := .live lock }

theorem Succeeds.of_step
    (h : (host.step canonicalize (.advance index true)).Succeeds canonicalize index opener) :
    host.Succeeds canonicalize index opener := by
  obtain ⟨steps, lock, hsteps⟩ := h
  exact ⟨steps + 1, lock, hsteps⟩

theorem succeeds_guarded (opener : Opener ρ δ) {lock : LockFd δ}
    (hi : host.openers[index]? = some opener)
    (hplace : opener.place = .guarded lock) : host.Succeeds canonicalize index opener := by
  refine ⟨1, lock, ?_⟩
  change (host.step canonicalize (.advance index true)).openers[index]? = _
  simp only [step_advance hi, advance, hplace, if_true]
  exact move_getElem?_self hi _

theorem succeeds_locked (opener : Opener ρ δ) {file : LockFd δ}
    (hi : host.openers[index]? = some opener)
    (hplace : opener.place = .locked file) : host.Succeeds canonicalize index opener := by
  apply Succeeds.of_step
  simp only [step_advance hi, advance, hplace]
  exact succeeds_guarded { opener with place := .guarded file }
    (move_getElem?_self hi _) rfl

theorem Held.succeeds_inside (hheld : host.Held canonicalize) (opener : Opener ρ δ)
    {file : LockFd δ} (hi : host.openers[index]? = some opener)
    (hplace : opener.place = .inside file)
    (hidle : host.Idle (canonicalize opener.root)) : host.Succeeds canonicalize index opener := by
  apply Succeeds.of_step
  simp only [step_advance hi, OpenHost.advance, hplace, hheld.flock_idle hidle, if_true]
  exact succeeds_locked { opener with place := .locked file }
    (move_getElem?_self hi _) rfl

theorem Held.succeeds_trying (hheld : host.Held canonicalize) (opener : Opener ρ δ)
    {file : LockFd δ} (hi : host.openers[index]? = some opener)
    (hplace : opener.place = .trying file)
    (hfree : host.mutex opener.pid = none) (hidle : host.Idle (canonicalize opener.root)) :
    host.Succeeds canonicalize index opener := by
  have hheld' := hheld.step (.advance index true)
  apply Succeeds.of_step
  obtain ⟨next, hfound, hopeners, hmutex⟩ := hheld.liveLockFor_idle opener.pid hidle
  simp only [step_advance hi, OpenHost.advance, hplace, hfree, hfound, Option.isSome_none,
    Bool.false_eq_true, if_false] at hheld' ⊢
  refine hheld'.succeeds_inside { opener with place := .inside file }
    (move_getElem?_self (hopeners ▸ hi) _) rfl ?_
  exact hidle.set (congrArg (·.set index { opener with place := .inside file }) hopeners) rfl

theorem Held.succeeds_opening (hheld : host.Held canonicalize) (opener : Opener ρ δ)
    (hi : host.openers[index]? = some opener) (hplace : opener.place = .opening)
    (hfree : host.mutex opener.pid = none) (hidle : host.Idle (canonicalize opener.root)) :
    host.Succeeds canonicalize index opener := by
  have hheld' := hheld.step (.advance index true)
  apply Succeeds.of_step
  simp only [step_advance hi, OpenHost.advance, hplace, if_true] at hheld' ⊢
  exact hheld'.succeeds_trying
    { opener with place := .trying ⟨opener.pid, canonicalize opener.root, host.nextFd⟩ }
    (move_getElem?_self hi _) rfl hfree (hidle.set rfl rfl)

theorem Held.succeeds_fast (hheld : host.Held canonicalize) (opener : Opener ρ δ)
    (hi : host.openers[index]? = some opener) (hplace : opener.place = .fast)
    (hfree : host.mutex opener.pid = none) (hidle : host.Idle (canonicalize opener.root)) :
    host.Succeeds canonicalize index opener := by
  have hheld' := hheld.step (.advance index true)
  apply Succeeds.of_step
  obtain ⟨next, hfound, hopeners, hmutex⟩ := hheld.liveLockFor_idle opener.pid hidle
  simp only [step_advance hi, OpenHost.advance, hplace, hfree, hfound, Option.isSome_none,
    Bool.false_eq_true, if_false] at hheld' ⊢
  refine hheld'.succeeds_opening { opener with place := .opening }
    (move_getElem?_self (hopeners ▸ hi) _) rfl ?_ ?_
  · exact (congrFun hmutex opener.pid).trans hfree
  · exact hidle.set (congrArg (·.set index { opener with place := .opening }) hopeners) rfl

theorem Held.succeeds (hheld : host.Held canonicalize) (hi : host.openers[index]? = some opener)
    (hplace : opener.place.seeking) (hfree : host.mutex opener.pid = none)
    (hidle : host.Idle (canonicalize opener.root)) : host.Succeeds canonicalize index opener := by
  cases hopener : opener.place with
  | start =>
    have hheld' := hheld.step (.advance index true)
    apply Succeeds.of_step
    simp only [step_advance hi, OpenHost.advance, hopener, if_true] at hheld' ⊢
    exact hheld'.succeeds_fast { opener with place := .fast }
      (move_getElem?_self hi _) rfl hfree (hidle.set rfl rfl)
  | fast => exact hheld.succeeds_fast opener hi hopener hfree hidle
  | opening => exact hheld.succeeds_opening opener hi hopener hfree hidle
  | trying file => exact hheld.succeeds_trying opener hi hopener hfree hidle
  | waiting file =>
    have hheld' := hheld.step (.advance index true)
    apply Succeeds.of_step
    simp only [step_advance hi, OpenHost.advance, hopener, if_true] at hheld' ⊢
    exact hheld'.succeeds_trying { opener with place := .trying file }
      (move_getElem?_self hi _) rfl hfree (hidle.set rfl rfl)
  | _ => rw [hopener] at hplace; cases hplace

theorem Held.dropped_last (hheld : host.Held canonicalize) {lock : LockFd δ}
    (hi : host.openers[index]? = some opener) (hplace : opener.place = .live lock)
    (hlast : ∀ (j : Nat) (other : Opener ρ δ), host.openers[j]? = some other → j ≠ index →
      other.place.shares ≠ some lock) :
    ((openMachine canonicalize).run host (List.replicate 3 (.advance index true))).flock
      (canonicalize opener.root) = none := by
  have hkept := hheld.kept hi (show _ = some lock by rw [hplace]; rfl)
  rw [(hheld.file hi (show _ = some lock by rw [hplace]; rfl)).2.1] at hkept
  change (((host.step canonicalize (.advance index true)).step canonicalize
    (.advance index true)).step canonicalize (.advance index true)).flock _ = none
  have hclosed : host.step canonicalize (.advance index true) =
      host.move index opener (.closed lock) := by
    simp only [step_advance hi, OpenHost.advance, hplace]
  have hi' := move_getElem?_self hi (.closed lock)
  have hreleasing : (host.move index opener (.closed lock)).step canonicalize
      (.advance index true) = (host.move index opener (.closed lock)).move index
        { opener with place := .closed lock } (.releasing lock) := by
    simp only [step_advance hi', OpenHost.advance]
    rw [if_neg]
    rw [upgrades_dropped hi']
    rintro ⟨j, other, hj, hne, hshares⟩
    exact hlast j other ((List.getElem?_set_ne hne.symm).symm.trans hj) hne hshares
  rw [hclosed, hreleasing, step_advance (move_getElem?_self hi' _)]
  simp only [OpenHost.advance, move, hkept, if_true, setFlock, Function.update_self]

/-- What an opener shares its process holds, and no other process shares anything of the
directory. -/
structure Exclusive (canonicalize : ρ → δ) (host : OpenHost ρ δ) : Prop where
  held {i : Nat} {handle : Opener ρ δ} {lock : LockFd δ} : host.openers[i]? = some handle →
    handle.place.shares = some lock → lock.pid = handle.pid ∧
      host.flock (canonicalize handle.root) = some lock
  alone {i j : Nat} {handle other : Opener ρ δ} {lock found : LockFd δ} :
    host.openers[i]? = some handle → handle.place.shares = some lock →
      host.openers[j]? = some other → other.place.shares = some found →
        canonicalize other.root = canonicalize handle.root → other.pid = handle.pid

/-- While a handle stays out, an open of its process never waits for the file lock: it looks the
lock up, as soon as the registry is free, and has it. -/
structure Prompt (canonicalize : ρ → δ) (host : OpenHost ρ δ) : Prop where
  found {i j : Nat} {handle opener : Opener ρ δ} {lock : LockFd δ} :
    host.openers[j]? = some handle → handle.place.shares = some lock →
      host.openers[i]? = some opener → opener.pid = handle.pid →
        canonicalize opener.root = canonicalize handle.root → opener.place = .fast →
          host.mutex opener.pid = none → ∀ ok,
            (host.step canonicalize (.advance i ok)).openers[i]? =
              some { opener with place := .guarded lock }
  freed {pid i : Nat} : host.mutex pid = some i → ∀ ok ok',
    ((openMachine canonicalize).run host [.advance i ok, .advance i ok']).mutex pid = none
  unhindered {i j : Nat} {handle opener : Opener ρ δ} {lock : LockFd δ} :
    host.openers[i]? = some opener → opener.place = .start → opener.pid = handle.pid →
      canonicalize opener.root = canonicalize handle.root → ∀ later,
        (∀ t ∈ (openMachine canonicalize).trace host later,
          t.before.openers[j]? = some { handle with place := .live lock }) →
        ∃ place : Place δ, place.unhindered lock ∧
          ((openMachine canonicalize).run host later).openers[i]? = some { opener with place }

/-- The last handle that is dropped gives the lock back. A process without a handle does not have
it, and an open anywhere succeeds when nobody counts on it. -/
structure Released (canonicalize : ρ → δ) (host : OpenHost ρ δ) : Prop where
  dropped {i : Nat} {handle : Opener ρ δ} {lock : LockFd δ} :
    host.openers[i]? = some handle → handle.place = .live lock →
      (∀ (j : Nat) (other : Opener ρ δ), host.openers[j]? = some other → j ≠ i →
        other.place.shares ≠ some lock) →
      ((openMachine canonicalize).run host (List.replicate 3 (.advance i true))).flock
        (canonicalize handle.root) = none
  vacated {pid : Nat} {dir : δ} {lock : LockFd δ} :
    (∀ (i : Nat) (opener : Opener ρ δ), host.openers[i]? = some opener → opener.pid = pid →
      canonicalize opener.root = dir → opener.place.keeps = none) →
    host.flock dir = some lock → lock.pid ≠ pid
  succeeds {i : Nat} {opener : Opener ρ δ} : host.openers[i]? = some opener →
    opener.place.seeking → host.mutex opener.pid = none →
      host.Idle (canonicalize opener.root) → host.Succeeds canonicalize i opener

omit [DecidableEq δ] in
theorem Held.exclusive (hheld : host.Held canonicalize) : host.Exclusive canonicalize where
  held {i handle lock} hi hshares := by
    obtain ⟨hpid, hdir, -⟩ := hheld.file hi (Place.names_of_shares hshares)
    refine ⟨hpid, ?_⟩
    rw [← hdir]
    exact hheld.kept hi (Place.keeps_of_shares hshares)
  alone hi hshares hj hother hdir := by
    obtain rfl := hheld.shared_eq hi hshares hj hother hdir
    rw [← (hheld.file hi (Place.names_of_shares hshares)).1]
    exact (hheld.file hj (Place.names_of_shares hother)).1.symm

theorem Held.prompt (hheld : host.Held canonicalize) : host.Prompt canonicalize where
  found hj hshares hi hpid hdir hplace hfree ok := by
    rw [step_advance hi, hheld.fast_guarded hj hshares hpid hdir hplace hfree]
    exact move_getElem?_self hi _
  freed hmutex ok ok' := hheld.mutex_freed hmutex ok ok'
  unhindered hi hplace hpid hdir later hstays :=
    hheld.unhindered_run hi hpid hdir (by rw [hplace]; trivial) hstays

theorem Held.released (hheld : host.Held canonicalize) : host.Released canonicalize where
  dropped hi hplace hlast := hheld.dropped_last hi hplace hlast
  vacated {pid dir lock} hnone hflock := by
    rintro rfl
    obtain ⟨hdir, i, keeper, hi, hkeeps⟩ := hheld.holder hflock
    obtain ⟨hpid, hroot, -⟩ := hheld.file hi (Place.names_of_keeps hkeeps)
    rw [hnone i keeper hi hpid.symm (hroot.symm.trans hdir)] at hkeeps
    cases hkeeps
  succeeds hi hplace hfree hidle := hheld.succeeds hi hplace hfree hidle

/-- In every interleaving of opens, drops and deaths of processes, under any spelling of the
roots. -/
theorem store_open_in_one_process (canonicalize : ρ → δ) (events : List (OpenEvent ρ)) :
    let host := (openMachine canonicalize).run empty events
    host.Exclusive canonicalize ∧ host.Prompt canonicalize ∧ host.Released canonicalize ∧
      ∀ event dir lock, host.flock dir = some lock →
        (host.step canonicalize event).flock dir ≠ some lock →
          event = .die lock.pid ∨ ∀ opener ∈ host.openers, opener.place.shares ≠ some lock := by
  have hheld : ((openMachine canonicalize).run empty events).Held canonicalize :=
    (openMachine canonicalize).invariant_run (fun _ event h => h.step event)
      (held_empty canonicalize) events
  refine ⟨hheld.exclusive, hheld.prompt, hheld.released, ?_⟩
  intro event dir lock hflock hlost
  refine (hheld.released_after hflock hlost).imp_right ?_
  intro hdead opener hmem hshares
  obtain ⟨i, hi⟩ := List.mem_iff_getElem?.mp hmem
  exact hdead (upgrades_iff.mpr ⟨i, opener, hi, hshares⟩)

end OpenHost

end Simard.Memory
