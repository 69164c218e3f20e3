import Simard.Library.Machine

/-! The Overseer tick in the daemon. The loop arms one tick at a time by a shared flag and
lets each tick run on a thread of its own; a tick clears the flag when it ends, unless the
watchdog has taken the slot from it, which a generation token tells. Each access to a shared
atomic is one step of the machine. -/
namespace Simard.Overseer
open Simard.Library

structure OverseerCadence where
  intervalSecs : Nat
  lastTickSecs : Nat

namespace OverseerCadence

def new (intervalSecs nowSecs : Nat) : OverseerCadence := ⟨max intervalSecs 1, nowSecs⟩

def due (cadence : OverseerCadence) (nowSecs : Nat) : Bool × OverseerCadence :=
  if cadence.intervalSecs ≤ nowSecs - cadence.lastTickSecs then
    (true, { cadence with lastTickSecs := nowSecs })
  else (false, cadence)

end OverseerCadence

structure TickWatchdog where
  maxInflightSecs : Nat

namespace TickWatchdog

def new (maxInflightSecs : Nat) : TickWatchdog := ⟨max maxInflightSecs 1⟩

def inflightSecs (armedAtSecs nowSecs : Nat) : Nat := nowSecs - armedAtSecs

def shouldReclaim (watchdog : TickWatchdog) (armed : Bool) (armedAtSecs nowSecs : Nat) : Bool :=
  armed && watchdog.maxInflightSecs ≤ inflightSecs armedAtSecs nowSecs

end TickWatchdog

def guardGenerationMatches (spawnGeneration currentGeneration : UInt64) : Bool :=
  spawnGeneration = currentGeneration

/-- Where a tick thread is: in its work, between the two steps of its exit guard, or over. -/
inductive TickPhase where
  | working
  | clearing
  | finished
  deriving DecidableEq

structure Tick where
  captured : UInt64
  phase : TickPhase

/-- Where the daemon loop is, named for the step it does next. -/
inductive DaemonPc where
  | loadRunning
  | loadArmedAt (nowSecs : Nat) (armed : Bool)
  | logInflight (nowSecs : Nat)
  | bumpGeneration (nowSecs : Nat)
  | freeSlot (nowSecs : Nat)
  | arm (nowSecs : Nat)
  | storeArmedAt (nowSecs : Nat)
  | loadGeneration
  | spawn (generation : UInt64)
  | undoArm

/-- The shared atomics, the loop and the ticks in the order they were spawned. The place in
that order of the tick the flag was last set for is kept beside it. -/
structure TickState where
  running : Bool
  armedAt : Nat
  generation : UInt64
  cadence : OverseerCadence
  watchdog : TickWatchdog
  pc : DaemonPc
  ticks : List Tick
  setFor : Nat

def TickState.init (intervalSecs maxInflightSecs : Nat) : TickState :=
  ⟨false, 0, 0, .new intervalSecs 0, .new maxInflightSecs, .loadRunning, [], 0⟩

/-- The loop does its next step, at some time and with a thread to be had or not; or a tick
does the next step of its exit guard. -/
inductive TickEvent where
  | daemon (nowSecs : Nat) (spawns : Bool)
  | exitLoad (index : Nat)
  | exitStore (index : Nat)

namespace TickState

variable (s : TickState)

def setPhase (index : Nat) (phase : TickPhase) : TickState :=
  { s with ticks := s.ticks.modify index fun tick => { tick with phase := phase } }

def daemonStep (nowSecs : Nat) (spawns : Bool) : TickState :=
  match s.pc with
  | .loadRunning => { s with pc := .loadArmedAt nowSecs s.running }
  | .loadArmedAt now armed =>
      if s.watchdog.shouldReclaim armed s.armedAt now then { s with pc := .logInflight now }
      else { s with pc := .arm now }
  | .logInflight now => { s with pc := .bumpGeneration now }
  | .bumpGeneration now => { s with generation := s.generation + 1, pc := .freeSlot now }
  | .freeSlot now => { s with running := false, pc := .arm now }
  | .arm now =>
      let (due, cadence) := s.cadence.due now
      if due && !s.running then
        { s with
          cadence := cadence, running := true, setFor := s.ticks.length, pc := .storeArmedAt now }
      else { s with cadence := cadence, pc := .loadRunning }
  | .storeArmedAt now => { s with armedAt := now, pc := .loadGeneration }
  | .loadGeneration => { s with pc := .spawn s.generation }
  | .spawn generation =>
      if spawns then
        { s with ticks := s.ticks ++ [⟨generation, .working⟩], pc := .loadRunning }
      else { s with pc := .undoArm }
  | .undoArm => { s with running := false, pc := .loadRunning }

def step : TickEvent → TickState
  | .daemon nowSecs spawns => s.daemonStep nowSecs spawns
  | .exitLoad index =>
      match s.ticks[index]? with
      | some ⟨captured, .working⟩ =>
          s.setPhase index
            (if guardGenerationMatches captured s.generation then .clearing else .finished)
      | _ => s
  | .exitStore index =>
      match s.ticks[index]? with
      | some ⟨_, .clearing⟩ => { s.setPhase index .finished with running := false }
      | _ => s

end TickState

def tickMachine : Machine TickState TickEvent := ⟨TickState.step⟩

namespace TickState

variable (s : TickState)

def Current (index : Nat) : Prop :=
  ∃ tick, s.ticks[index]? = some tick ∧ tick.phase ≠ .finished ∧ tick.captured = s.generation

/-- The tick stands between the two steps of its exit guard. -/
def Clearing (index : Nat) : Prop :=
  ∃ tick, s.ticks[index]? = some tick ∧ tick.phase = .clearing

/-- The loop is about to spawn the tick it has set the flag for. -/
def Arming : Prop :=
  match s.pc with
  | .storeArmedAt _ | .loadGeneration | .spawn _ | .undoArm => True
  | _ => False

/-- The flag belongs to the newest tick: only that one can be current, and while the flag is
set only that one can be about to clear it; a free slot has no current tick. -/
structure Coherent : Prop where
  current : ∀ index, s.Current index → index = s.setFor
  clearing : s.running = true → ∀ index, s.Clearing index → index = s.setFor
  free : s.running = false → ∀ index, ¬ s.Current index
  arming : s.Arming → s.running = true ∧ s.setFor = s.ticks.length
  bumped : ∀ now, s.pc = .freeSlot now → ∀ index, ¬ s.Current index
  loaded : ∀ generation, s.pc = .spawn generation → generation = s.generation

end TickState

/-- What must not happen: a tick is armed while another stands between the two steps of its
exit guard; and the generation, counted on, meets that of a tick that has not ended. -/
def calm (s : TickState) : TickEvent → Bool
  | .daemon _ _ =>
      match s.pc with
      | .arm now => !(s.cadence.due now).1 || s.running || s.ticks.all fun tick =>
        tick.phase ≠ .clearing
      | .bumpGeneration _ => s.ticks.all fun tick =>
          tick.phase = .finished || tick.captured ≠ s.generation + 1
      | _ => true
  | _ => true

namespace TickState.Coherent

variable {s : TickState} (h : s.Coherent)
include h

theorem moves {pc : DaemonPc} (armedAt : Nat) (cadence : OverseerCadence)
    (harming : Arming { s with pc := pc } → s.Arming)
    (hbumped : ∀ now, pc = .freeSlot now → ∀ index, ¬ s.Current index)
    (hloaded : ∀ generation, pc = .spawn generation → generation = s.generation) :
    Coherent { s with armedAt := armedAt, cadence := cadence, pc := pc } where
  current := h.current
  clearing := h.clearing
  free := h.free
  arming hnow := h.arming (harming hnow)
  bumped := hbumped
  loaded := hloaded

theorem no_current_of_arming (harming : s.Arming) (index : Nat) : ¬ s.Current index := by
  rintro ⟨tick, htick, hphase, hcaptured⟩
  have hindex := h.current index ⟨tick, htick, hphase, hcaptured⟩
  rw [(h.arming harming).2] at hindex
  rw [hindex, List.getElem?_eq_none (Nat.le_refl _)] at htick
  cases htick

theorem frees {pc : DaemonPc} (hnone : ∀ index, ¬ s.Current index)
    (harming : ¬ Arming { s with pc := pc }) (hloaded : ∀ generation, pc ≠ .spawn generation) :
    Coherent { s with running := false, pc := pc } where
  current := h.current
  clearing hrunning := nomatch hrunning
  free _ := hnone
  arming hnow := absurd hnow harming
  bumped _ _ := hnone
  loaded generation hpc := absurd hpc (hloaded generation)

theorem bumps {now : Nat}
    (hnew : s.ticks.all fun tick => tick.phase = .finished || tick.captured ≠ s.generation + 1) :
    Coherent { s with generation := s.generation + 1, pc := .freeSlot now } := by
  have hnone (index : Nat) :
      ¬ Current { s with generation := s.generation + 1, pc := .freeSlot now } index := by
    rintro ⟨tick, htick, hphase, hcaptured⟩
    have hother := List.all_eq_true.mp hnew tick (List.mem_of_getElem? htick)
    simp only [Bool.or_eq_true, decide_eq_true_eq] at hother
    exact hother.elim hphase fun hne => hne hcaptured
  exact
    { current := fun index hcurrent => absurd hcurrent (hnone index)
      clearing := h.clearing
      free := fun _ => hnone
      arming := fun hnow => hnow.elim
      bumped := fun _ _ => hnone
      loaded := fun _ hspawn => nomatch hspawn }

theorem arms {now : Nat} (cadence : OverseerCadence) (hrunning : s.running = false)
    (hclearing : ∀ index, ¬ s.Clearing index) :
    Coherent { s with cadence := cadence, running := true, setFor := s.ticks.length,
                      pc := .storeArmedAt now } where
  current index hcurrent := absurd hcurrent (h.free hrunning index)
  clearing _ index hnow := absurd hnow (hclearing index)
  free hnow := nomatch hnow
  arming _ := ⟨rfl, rfl⟩
  bumped _ hpc := nomatch hpc
  loaded _ hpc := nomatch hpc

theorem spawns {generation : UInt64} (hpc : s.pc = .spawn generation) :
    Coherent { s with ticks := s.ticks ++ [⟨generation, .working⟩], pc := .loadRunning } := by
  have harming : s.Arming := by simp [Arming, hpc]
  obtain ⟨hrunning, hset⟩ := h.arming harming
  -- what is found at an earlier place was there before
  have hearlier {index : Nat} {tick : Tick} (hne : index ≠ s.setFor)
      (htick : (s.ticks ++ [⟨generation, .working⟩])[index]? = some tick) :
      s.ticks[index]? = some tick := by
    rw [List.getElem?_append] at htick
    split at htick
    · exact htick
    next hindex =>
      have hplace := (List.getElem?_eq_some_iff.mp htick).1
      simp only [List.length_singleton] at hplace
      exact absurd (by omega) hne
  exact
    { current := by
        rintro index ⟨tick, htick, hphase, hcaptured⟩
        by_contra hne
        exact h.no_current_of_arming harming index ⟨tick, hearlier hne htick, hphase, hcaptured⟩
      clearing := by
        rintro - index ⟨tick, htick, hphase⟩
        by_contra hne
        exact hne (h.clearing hrunning index ⟨tick, hearlier hne htick, hphase⟩)
      free := fun hnow => by
        rw [show s.running = false from hnow] at hrunning
        cases hrunning
      arming := fun hnow => hnow.elim
      bumped := fun _ hnow => nomatch hnow
      loaded := fun _ hnow => nomatch hnow }

end TickState.Coherent

namespace TickState

variable {s : TickState} {index : Nat} {tick : Tick} {phase : TickPhase}

theorem getElem?_setPhase {other : Nat} (h : (s.setPhase index phase).ticks[other]? = some tick) :
    (other ≠ index ∧ s.ticks[other]? = some tick) ∨
      other = index ∧ tick.phase = phase ∧
        ∃ before, s.ticks[index]? = some before ∧ before.captured = tick.captured := by
  unfold setPhase at h
  simp only [List.getElem?_modify] at h
  by_cases hother : index = other
  · subst hother
    simp only [if_true] at h
    obtain ⟨before, hbefore, rfl⟩ := Option.map_eq_some_iff.mp h
    exact .inr ⟨rfl, rfl, before, hbefore, rfl⟩
  · simp only [if_neg hother] at h
    exact .inl ⟨Ne.symm hother, by simpa using h⟩

theorem current_of_setPhase {other : Nat} (htick : s.ticks[index]? = some tick)
    (hphase : tick.phase ≠ .finished) (h : (s.setPhase index phase).Current other) :
    s.Current other ∧ (phase = .finished → other ≠ index) := by
  obtain ⟨later, hlater, hunfinished, hcaptured⟩ := h
  rcases getElem?_setPhase hlater with ⟨hother, hsame⟩ | ⟨rfl, hmoved, before, hbefore, hkept⟩
  · exact ⟨⟨later, hsame, hunfinished, hcaptured⟩, fun _ => hother⟩
  · rw [htick] at hbefore
    cases hbefore
    refine ⟨⟨tick, htick, hphase, hkept.trans hcaptured⟩, ?_⟩
    intro hfinished
    exact absurd (hmoved.trans hfinished) hunfinished

theorem clearing_of_setPhase {other : Nat} (h : (s.setPhase index phase).Clearing other) :
    s.Clearing other ∨ other = index ∧ phase = .clearing := by
  obtain ⟨later, hlater, hclearing⟩ := h
  rcases getElem?_setPhase hlater with ⟨hother, hsame⟩ | ⟨rfl, hmoved, -⟩
  · exact .inl ⟨later, hsame, hclearing⟩
  · exact .inr ⟨rfl, hmoved.symm.trans hclearing⟩

@[simp] theorem length_setPhase : (s.setPhase index phase).ticks.length = s.ticks.length := by
  simp [setPhase]

theorem Coherent.exitLoad (h : s.Coherent) (htick : s.ticks[index]? = some tick)
    (hworking : tick.phase = .working) :
    Coherent (s.setPhase index
      (if guardGenerationMatches tick.captured s.generation then .clearing else .finished)) := by
  have hunfinished : tick.phase ≠ .finished := by
    rw [hworking]
    decide
  have hcurrent (other : Nat) (hnow : Current (s.setPhase index
      (if guardGenerationMatches tick.captured s.generation then .clearing else .finished)) other) :
      s.Current other := (current_of_setPhase htick hunfinished hnow).1
  exact
    { current := fun other hnow => h.current other (hcurrent other hnow)
      clearing := fun hrunning other hnow => by
        rcases clearing_of_setPhase hnow with hbefore | ⟨rfl, hmatches⟩
        · exact h.clearing hrunning other hbefore
        · -- it saw its own generation, so it is the current tick
          have hsame : tick.captured = s.generation := by
            by_contra hne
            simp [guardGenerationMatches, hne] at hmatches
          exact h.current other ⟨tick, htick, hunfinished, hsame⟩
      free := fun hfree other hnow => h.free hfree other (hcurrent other hnow)
      arming := fun hnow => by
        rw [length_setPhase]
        exact h.arming hnow
      bumped := fun now hpc other hnow => h.bumped now hpc other (hcurrent other hnow)
      loaded := h.loaded }

theorem Coherent.exitStore (h : s.Coherent) (htick : s.ticks[index]? = some tick)
    (hclearing : tick.phase = .clearing) :
    Coherent { s.setPhase index .finished with running := false } := by
  have hunfinished : tick.phase ≠ .finished := by
    rw [hclearing]
    decide
  have hnone (other : Nat) :
      ¬ Current { s.setPhase index .finished with running := false } other := by
    intro hnow
    obtain ⟨hcurrent, hne⟩ := current_of_setPhase htick hunfinished hnow
    cases hrunning : s.running with
    | false => exact h.free hrunning other hcurrent
    | true =>
      have hown := h.clearing hrunning index ⟨tick, htick, hclearing⟩
      exact hne rfl ((h.current other hcurrent).trans hown.symm)
  exact
    { current := fun other hnow => absurd hnow (hnone other)
      clearing := fun hrunning => nomatch hrunning
      free := fun _ => hnone
      arming := fun hnow => by
        -- no tick clears the flag while the loop sets it for a new one
        obtain ⟨hrunning, hset⟩ := h.arming hnow
        have hown := h.clearing hrunning index ⟨tick, htick, hclearing⟩
        have hplace := (List.getElem?_eq_some_iff.mp htick).1
        omega
      bumped := fun _ _ => hnone
      loaded := h.loaded }

end TickState

theorem coherent_step (s : TickState) (event : TickEvent) (hcalm : calm s event)
    (h : s.Coherent) : (s.step event).Coherent := by
  cases event with
  | daemon nowSecs spawns =>
    change (s.daemonStep nowSecs spawns).Coherent
    unfold TickState.daemonStep
    cases hpc : s.pc with
    | loadRunning => exact h.moves _ _ (fun hnow => hnow.elim) (by rintro _ ⟨⟩) (by rintro _ ⟨⟩)
    | loadArmedAt now armed =>
      dsimp only
      split
      · exact h.moves _ _ (fun hnow => hnow.elim) (by rintro _ ⟨⟩) (by rintro _ ⟨⟩)
      · exact h.moves _ _ (fun hnow => hnow.elim) (by rintro _ ⟨⟩) (by rintro _ ⟨⟩)
    | logInflight now => exact h.moves _ _ (fun hnow => hnow.elim) (by rintro _ ⟨⟩) (by rintro _ ⟨⟩)
    | bumpGeneration now => exact h.bumps (by simpa [calm, hpc] using hcalm)
    | freeSlot now => exact h.frees (h.bumped now hpc) (fun hnow => hnow) (by rintro _ ⟨⟩)
    | arm now =>
      dsimp only
      split
      next harms =>
        simp only [Bool.and_eq_true, Bool.not_eq_true'] at harms
        apply h.arms _ harms.2
        rintro index ⟨tick, htick, hclearing⟩
        have hnone : s.ticks.all fun tick => tick.phase ≠ .clearing := by
          simpa [calm, hpc, harms.1, harms.2] using hcalm
        have hother := List.all_eq_true.mp hnone tick (List.mem_of_getElem? htick)
        exact absurd hclearing (of_decide_eq_true hother)
      next => exact h.moves _ _ (fun hnow => hnow.elim) (by rintro _ ⟨⟩) (by rintro _ ⟨⟩)
    | storeArmedAt now =>
      exact h.moves _ _ (fun _ => by simp [TickState.Arming, hpc]) (by rintro _ ⟨⟩) (by rintro _ ⟨⟩)
    | loadGeneration =>
      apply h.moves _ _ (fun _ => by simp [TickState.Arming, hpc]) (by rintro _ ⟨⟩)
      intro generation hspawn
      cases hspawn
      rfl
    | spawn generation =>
      dsimp only
      split
      · exact h.spawns hpc
      · exact h.moves _ _ (fun _ => by simp [TickState.Arming, hpc])
          (by rintro _ ⟨⟩) (by rintro _ ⟨⟩)
    | undoArm =>
      exact h.frees (h.no_current_of_arming (by simp [TickState.Arming, hpc])) (fun hnow => hnow)
        (by rintro _ ⟨⟩)
  | exitLoad index =>
    dsimp only [TickState.step]
    split
    next captured htick => exact h.exitLoad htick rfl
    next => exact h
  | exitStore index =>
    dsimp only [TickState.step]
    split
    next captured htick => exact h.exitStore htick rfl
    next => exact h

def OneCurrent (s : TickState) : Prop :=
  ∀ i j, s.Current i → s.Current j → i = j

def ClearsOwn (t : Machine.Transition TickState TickEvent) : Prop :=
  ∀ index, t.event = .exitStore index → t.before.Clearing index → t.before.running = true →
    t.before.setFor = index

theorem coherent_init (intervalSecs maxInflightSecs : Nat) :
    (TickState.init intervalSecs maxInflightSecs).Coherent where
  current index hcurrent := by
    obtain ⟨tick, htick, -⟩ := hcurrent
    cases htick
  clearing hrunning := nomatch hrunning
  free _ index hcurrent := by
    obtain ⟨tick, htick, -⟩ := hcurrent
    cases htick
  arming harming := harming.elim
  bumped _ hpc := nomatch hpc
  loaded _ hpc := nomatch hpc

/-- While no tick is armed under the hands of an exit guard, at most one tick is current and
every exit guard clears its own flag. -/
theorem one_current_tick (intervalSecs maxInflightSecs : Nat) (events : List TickEvent)
    (hcalm : ∀ t ∈ tickMachine.trace (.init intervalSecs maxInflightSecs) events,
      calm t.before t.event) :
    OneCurrent (tickMachine.run (.init intervalSecs maxInflightSecs) events) ∧
      ∀ t ∈ tickMachine.trace (.init intervalSecs maxInflightSecs) events, ClearsOwn t := by
  have hinit := coherent_init intervalSecs maxInflightSecs
  constructor
  · have hcoherent := tickMachine.invariant_run_of coherent_step hinit events hcalm
    intro i j hi hj
    rw [hcoherent.current i hi, hcoherent.current j hj]
  · intro t ht index hevent hclearing hrunning
    have hcoherent := tickMachine.invariant_trace_of coherent_step hinit hcalm ht
    exact (hcoherent.clearing hrunning index hclearing).symm

/-- The loop does its next steps at one time, every thread to be had. -/
def turn (times nowSecs : Nat) : List TickEvent := List.replicate times (.daemon nowSecs true)

/-- A tick hangs and is reclaimed; it ends after the tick that took its slot was armed. -/
def reclaimed : List TickEvent :=
  turn 6 60 ++ turn 9 1000 ++ [.exitLoad 0, .exitLoad 1, .exitStore 1] ++ turn 6 1100

theorem reclaimed_one_current :
    OneCurrent (tickMachine.run (.init 60 900) reclaimed) ∧
      ∀ t ∈ tickMachine.trace (.init 60 900) reclaimed, ClearsOwn t :=
  one_current_tick 60 900 reclaimed (List.all_eq_true.mp (by decide))

/-- A tick is reclaimed between the two steps of its exit guard, and its slot given to
another. -/
def slowExit : List TickEvent :=
  turn 6 60 ++ [.exitLoad 0] ++ turn 9 1000

theorem slow_exit_two_current :
    ¬ (∀ intervalSecs maxInflightSecs events,
      OneCurrent (tickMachine.run (.init intervalSecs maxInflightSecs) events)) ∧
    ¬ (∀ intervalSecs maxInflightSecs events,
      ∀ t ∈ tickMachine.trace (.init intervalSecs maxInflightSecs) events, ClearsOwn t) := by
  constructor
  · intro h
    have hone := h 60 900 (slowExit ++ .exitStore 0 :: turn 6 1100) 1 2
      ⟨⟨1, .working⟩, rfl, by decide, by decide⟩
      ⟨⟨1, .working⟩, rfl, by decide, by decide⟩
    cases hone
  · intro h
    have howns := h 60 900 (slowExit ++ [.exitStore 0])
      ⟨tickMachine.run (.init 60 900) slowExit, .exitStore 0, _⟩ (by
        rw [Machine.trace_append]
        exact List.mem_append_right _ List.mem_cons_self) 0 rfl
      ⟨⟨0, .clearing⟩, rfl, rfl⟩ rfl
    cases howns

end Simard.Overseer
