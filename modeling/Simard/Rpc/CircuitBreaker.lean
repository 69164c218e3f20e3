import Simard.Library.Pool

/-! The circuit breaker in front of a remote procedure transport. A call asks for admission under
the lock, runs without it, and takes the lock again to record how it ended, so that any number of
calls are under way between one look at the circuit and the next. -/
namespace Simard.Rpc
open Simard.Library

inductive CircuitState where
  | closed
  | opened
  | halfOpen
  deriving DecidableEq

structure CircuitBreakerConfig where
  failureThreshold : Nat := 3
  cooldown : Nat := 30 * 10 ^ 9

structure CircuitBreakerState where
  circuit : CircuitState := .closed
  consecutiveFailures : Nat := 0
  lastFailureAt : Option Nat := none

def CircuitBreakerState.recordSuccess (state : CircuitBreakerState) : CircuitBreakerState :=
  { state with consecutiveFailures := 0, circuit := .closed }

def CircuitBreakerConfig.recordFailure (config : CircuitBreakerConfig) (now : Nat)
    (state : CircuitBreakerState) : CircuitBreakerState :=
  let failures := (state.consecutiveFailures + 1) % 2 ^ 32
  { consecutiveFailures := failures
    lastFailureAt := some now
    circuit := if config.failureThreshold ≤ failures then .opened else state.circuit }

def CircuitBreakerConfig.shouldAllowCall (config : CircuitBreakerConfig) (now : Nat)
    (state : CircuitBreakerState) : Bool × CircuitBreakerState :=
  match state.circuit with
  | .closed => (true, state)
  | .halfOpen => (true, state)
  | .opened =>
      if state.lastFailureAt.any fun lastFailure => config.cooldown ≤ now - lastFailure then
        (true, { state with circuit := .halfOpen })
      else (false, state)

/-- How the inner transport answers: with a response, of which only the code of its error is read,
or with an error of its own. -/
inductive Inner (ρ ε : Type) where
  | response (body : ρ) (transportError : Bool)
  | failed (error : ε)

def Inner.isFailure {ρ ε : Type} : Inner ρ ε → Bool
  | .response _ transportError => transportError
  | .failed _ => true

inductive RpcCmd where
  | askAdmission
  | callInner
  | record (failure : Bool)

variable {ρ ε : Type}

abbrev RpcCmd.Ans (ρ ε : Type) : RpcCmd → Type
  | .askAdmission => Bool
  | .callInner => Inner ρ ε
  | .record _ => Unit

inductive CallError (ε : Type) where
  | rpcCircuitOpen
  | inner (error : ε)

abbrev RpcOp (ρ ε α : Type) := Program RpcCmd (RpcCmd.Ans ρ ε) α

def CircuitBreakerTransport.call : RpcOp ρ ε (Except (CallError ε) ρ) :=
  .step .askAdmission fun (admitted : Bool) =>
    if admitted then
      .step .callInner fun (answer : Inner ρ ε) =>
        .step (.record answer.isFailure) fun _ =>
          match answer with
          | .response body _ => .done (.ok body)
          | .failed error => .done (.error (.inner error))
    else .done (.error .rpcCircuitOpen)

structure Recorded where
  time : Nat
  failure : Bool

/-- The breaker, the clock, and the outcomes in the order they were recorded in. -/
structure Breaker where
  state : CircuitBreakerState := {}
  clock : Nat := 0
  outcomes : List Recorded := []

/-- What an event adds: the time that passes before the clock is read, and what the inner transport
answers if it is the one that is called. -/
structure Circumstance (ρ ε : Type) where
  passed : Nat
  inner : Inner ρ ε

def Breaker.answer (config : CircuitBreakerConfig) (breaker : Breaker) (given : Circumstance ρ ε) :
    (cmd : RpcCmd) → RpcCmd.Ans ρ ε cmd × Breaker
  | .askAdmission =>
      let now := breaker.clock + given.passed
      let asked := config.shouldAllowCall now breaker.state
      (asked.1, { breaker with state := asked.2, clock := now })
  | .callInner => (given.inner, breaker)
  | .record failure =>
      let now := breaker.clock + given.passed
      let state :=
        if failure then config.recordFailure now breaker.state else breaker.state.recordSuccess
      ((), { state, clock := now, outcomes := breaker.outcomes ++ [⟨now, failure⟩] })

def transport (ρ ε : Type) (config : CircuitBreakerConfig) :
    Pool.Host Breaker Unit (Circumstance ρ ε) RpcCmd (RpcCmd.Ans ρ ε) (Except (CallError ε) ρ) where
  program := fun _ => CircuitBreakerTransport.call
  answer := Breaker.answer config

def trailingFailures (outcomes : List Recorded) : Nat :=
  (outcomes.reverse.takeWhile (·.failure)).length

def lastFailure (outcomes : List Recorded) : Option Nat :=
  (outcomes.reverse.find? (·.failure)).map (·.time)

/-- A call is turned away while the last outcomes are failures, as many as the threshold and at
least one, and the last of them is younger than the cooldown. -/
def turnsAway (config : CircuitBreakerConfig) (outcomes : List Recorded) (now : Nat) : Bool :=
  decide (max 1 config.failureThreshold ≤ trailingFailures outcomes) &&
    (lastFailure outcomes).any fun time => now < time + config.cooldown

theorem trailingFailures_concat (outcomes : List Recorded) (outcome : Recorded) :
    trailingFailures (outcomes ++ [outcome]) =
      if outcome.failure then trailingFailures outcomes + 1 else 0 := by
  unfold trailingFailures
  rw [List.reverse_concat]
  cases hfailure : outcome.failure <;> simp [hfailure]

theorem lastFailure_concat (outcomes : List Recorded) (outcome : Recorded) :
    lastFailure (outcomes ++ [outcome]) =
      if outcome.failure then some outcome.time else lastFailure outcomes := by
  unfold lastFailure
  rw [List.reverse_concat]
  cases hfailure : outcome.failure <;> simp [hfailure]

theorem trailingFailures_le (outcomes : List Recorded) :
    trailingFailures outcomes ≤ outcomes.length := by
  unfold trailingFailures
  have hlength := (List.takeWhile_prefix (l := outcomes.reverse) (·.failure)).length_le
  simpa using hlength

theorem exists_lastFailure {outcomes : List Recorded} (h : 0 < trailingFailures outcomes) :
    ∃ time, lastFailure outcomes = some time := by
  unfold trailingFailures at h
  unfold lastFailure
  cases houtcomes : outcomes.reverse with
  | nil => simp [houtcomes] at h
  | cons outcome rest =>
    rw [houtcomes] at h
    cases hfailure : outcome.failure with
    | false => simp [hfailure] at h
    | true => exact ⟨outcome.time, by simp [hfailure]⟩

/-- The counter counts the failures at the end; a circuit is closed as long as these are too few,
and one that is half open was found so after the cooldown. -/
structure Breaker.Means (config : CircuitBreakerConfig) (breaker : Breaker) : Prop where
  counts : breaker.state.consecutiveFailures = trailingFailures breaker.outcomes
  last : breaker.state.lastFailureAt = lastFailure breaker.outcomes
  past : ∀ time ∈ lastFailure breaker.outcomes, time ≤ breaker.clock
  closed : breaker.state.circuit = .closed ↔
    trailingFailures breaker.outcomes < max 1 config.failureThreshold
  halfOpen : breaker.state.circuit = .halfOpen →
    ∀ time ∈ lastFailure breaker.outcomes, time + config.cooldown ≤ breaker.clock

namespace Breaker.Means
variable {config : CircuitBreakerConfig} {breaker : Breaker}

theorem tripped (h : breaker.Means config) (hcircuit : breaker.state.circuit ≠ .closed) :
    max 1 config.failureThreshold ≤ trailingFailures breaker.outcomes ∧
      ∃ time, lastFailure breaker.outcomes = some time ∧ time ≤ breaker.clock := by
  have hmany : max 1 config.failureThreshold ≤ trailingFailures breaker.outcomes :=
    Nat.le_of_not_lt fun hfew => hcircuit (h.closed.mpr hfew)
  obtain ⟨time, htime⟩ := exists_lastFailure (lt_of_lt_of_le (by omega) hmany)
  exact ⟨hmany, time, htime, h.past time htime⟩

theorem allowed_eq (h : breaker.Means config) {now : Nat} (hnow : breaker.clock ≤ now) :
    (config.shouldAllowCall now breaker.state).1 = !turnsAway config breaker.outcomes now := by
  unfold CircuitBreakerConfig.shouldAllowCall turnsAway
  cases hcircuit : breaker.state.circuit with
  | closed =>
    have hfew := h.closed.mp hcircuit
    simp [Nat.not_le_of_lt hfew]
  | halfOpen =>
    obtain ⟨-, time, htime, -⟩ := h.tripped (by rw [hcircuit]; decide)
    have hcooled := h.halfOpen hcircuit time htime
    have hlate : ¬ now < time + config.cooldown := by omega
    simp [htime, hlate]
  | opened =>
    obtain ⟨hmany, time, htime, hpast⟩ := h.tripped (by rw [hcircuit]; decide)
    rw [h.last, htime]
    by_cases hcooled : config.cooldown ≤ now - time
    · have hlate : ¬ now < time + config.cooldown := by omega
      simp [hcooled, hlate]
    · have hearly : now < time + config.cooldown := by omega
      simp [hcooled, hearly, hmany]

theorem ask (h : breaker.Means config) {now : Nat} (hnow : breaker.clock ≤ now) :
    Means config
      { breaker with state := (config.shouldAllowCall now breaker.state).2, clock := now } := by
  have hsame (state : CircuitBreakerState) (hstate : state = breaker.state) :
      Means config { breaker with state, clock := now } := by
    subst hstate
    exact ⟨h.counts, h.last, fun time htime => (h.past time htime).trans hnow, h.closed,
      fun hhalf time htime => (h.halfOpen hhalf time htime).trans hnow⟩
  unfold CircuitBreakerConfig.shouldAllowCall
  cases hcircuit : breaker.state.circuit with
  | closed => exact hsame _ rfl
  | halfOpen => exact hsame _ rfl
  | opened =>
    obtain ⟨hmany, time, htime, hpast⟩ := h.tripped (by rw [hcircuit]; decide)
    rw [h.last, htime]
    by_cases hcooled : config.cooldown ≤ now - time
    · simp only [Option.any_some, hcooled, decide_true, if_true]
      refine ⟨h.counts, htime.symm, fun time htime => (h.past time htime).trans hnow, ?_, ?_⟩
      · exact ⟨fun hclosed => (by cases hclosed), fun hfew => absurd hfew (Nat.not_lt_of_le hmany)⟩
      · intro _ other hother
        rw [htime] at hother
        cases hother
        change time + config.cooldown ≤ now
        omega
    · simp only [Option.any_some, hcooled, decide_false, Bool.false_eq_true, if_false]
      exact hsame _ rfl

theorem success (h : breaker.Means config) {now : Nat} (hnow : breaker.clock ≤ now) :
    Means config ⟨breaker.state.recordSuccess, now, breaker.outcomes ++ [⟨now, false⟩]⟩ where
  counts := (trailingFailures_concat breaker.outcomes ⟨now, false⟩).symm
  last := by
    rw [lastFailure_concat]
    exact h.last
  past := by
    rw [lastFailure_concat]
    exact fun time htime => (h.past time htime).trans hnow
  closed := by
    rw [trailingFailures_concat]
    exact ⟨fun _ => by simp, fun _ => rfl⟩
  halfOpen := fun hprobing => by cases hprobing

theorem failure (h : breaker.Means config) (now : Nat)
    (hfew : breaker.outcomes.length + 1 < 2 ^ 32) :
    Means config ⟨config.recordFailure now breaker.state, now,
      breaker.outcomes ++ [⟨now, true⟩]⟩ := by
  have hcount : (breaker.state.consecutiveFailures + 1) % 2 ^ 32 =
      trailingFailures breaker.outcomes + 1 := by
    have hle := trailingFailures_le breaker.outcomes
    rw [h.counts, Nat.mod_eq_of_lt (by omega)]
  have hlast : lastFailure (breaker.outcomes ++ [⟨now, true⟩]) = some now := lastFailure_concat _ _
  have htrailing : trailingFailures (breaker.outcomes ++ [⟨now, true⟩]) =
      trailingFailures breaker.outcomes + 1 := trailingFailures_concat _ _
  have hcircuit : (config.recordFailure now breaker.state).circuit =
      if config.failureThreshold ≤ trailingFailures breaker.outcomes + 1 then .opened
      else breaker.state.circuit := by
    unfold CircuitBreakerConfig.recordFailure
    rw [hcount]
  -- Below the threshold the circuit was closed and stays so.
  have hbelow (hthreshold : ¬ config.failureThreshold ≤ trailingFailures breaker.outcomes + 1) :
      breaker.state.circuit = .closed := h.closed.mpr (by omega)
  constructor
  · exact hcount.trans htrailing.symm
  · exact hlast.symm
  · rw [hlast]
    rintro _ ⟨⟩
    exact le_refl now
  · rw [htrailing]
    change (config.recordFailure now breaker.state).circuit = .closed ↔ _
    rw [hcircuit]
    split
    next hthreshold => exact ⟨fun hclosed => (by cases hclosed), fun hlt => by omega⟩
    next hthreshold => exact ⟨fun _ => by omega, fun _ => hbelow hthreshold⟩
  · change (config.recordFailure now breaker.state).circuit = .halfOpen → _
    rw [hcircuit]
    split
    next => exact fun hprobing => by cases hprobing
    next hthreshold =>
      rw [hbelow hthreshold]
      exact fun hprobing => by cases hprobing

end Breaker.Means

/-- As long as the counter cannot have wrapped. -/
def Breaker.Sound (config : CircuitBreakerConfig) (breaker : Breaker) : Prop :=
  breaker.outcomes.length < 2 ^ 32 → breaker.Means config

theorem Breaker.Sound.answer {config : CircuitBreakerConfig} {breaker : Breaker}
    (h : breaker.Sound config) (given : Circumstance ρ ε) (cmd : RpcCmd) :
    (breaker.answer config given cmd).2.Sound config := by
  cases cmd with
  | askAdmission => exact fun hfew => (h hfew).ask (Nat.le_add_right _ _)
  | callInner => exact h
  | record failure =>
    intro hfew
    have hlength : breaker.outcomes.length + 1 < 2 ^ 32 := by
      simpa [Breaker.answer] using hfew
    cases failure with
    | false => exact (h (by omega)).success (Nat.le_add_right _ _)
    | true => exact (h (by omega)).failure _ hlength

theorem sound_run (config : CircuitBreakerConfig)
    (events : List (Pool.Event Unit (Circumstance ρ ε))) :
    ((transport ρ ε config).machine.run (Pool.init {}) events).shared.Sound config := by
  apply Pool.Host.shared_invariant
  · exact fun _ given cmd h => h.answer given cmd
  · intro _
    refine ⟨rfl, rfl, fun _ hlast => (by cases hlast), ?_, fun hprobing => (by cases hprobing)⟩
    exact ⟨fun _ => by simp [Pool.init, trailingFailures], fun _ => rfl⟩

/-- However calls are interleaved, one that asks is turned away exactly when the outcomes recorded
so far end in failures, as many as the threshold, and the last of these is younger than the
cooldown; every other call goes through, also several at once after the cooldown. -/
theorem call_turned_away_iff (config : CircuitBreakerConfig)
    (events : List (Pool.Event Unit (Circumstance ρ ε))) (index : Nat) (given : Circumstance ρ ε)
    (hfew : ((transport ρ ε config).machine.run (Pool.init {}) events).shared.outcomes.length <
      2 ^ 32)
    (hasks : ((transport ρ ε config).machine.run (Pool.init {}) events).threads[index]? =
      some ⟨CircuitBreakerTransport.call, []⟩) :
    ((transport ρ ε config).machine.run (Pool.init {}) (events ++ [.advance index given])).returned
      index =
        some (.error .rpcCircuitOpen) ↔
      turnsAway config ((transport ρ ε config).machine.run (Pool.init {}) events).shared.outcomes
        (((transport ρ ε config).machine.run (Pool.init {}) events).shared.clock +
          given.passed) := by
  have hmeans := sound_run config events hfew
  have hanswer := hmeans.allowed_eq (Nat.le_add_right _ given.passed)
  rw [Machine.run_append]
  generalize (transport ρ ε config).machine.run (Pool.init {}) events = pool at hasks hanswer
  have hindex := (List.getElem?_eq_some_iff.mp hasks).1
  have hreturned : ((transport ρ ε config).step pool (.advance index given)).returned index =
      if (config.shouldAllowCall (pool.shared.clock + given.passed) pool.shared.state).1 then none
      else some (.error .rpcCircuitOpen) := by
    simp only [Pool.returned, Pool.Host.step, hasks, CircuitBreakerTransport.call, transport,
      Breaker.answer, List.getElem?_set_self hindex, Option.bind_some]
    split <;> rfl
  change ((transport ρ ε config).step pool (.advance index given)).returned index = _ ↔ _
  rw [hreturned, hanswer]
  cases turnsAway config pool.shared.outcomes (pool.shared.clock + given.passed) <;> simp

def failedOnce : List (Pool.Event Unit (Circumstance Unit Unit)) :=
  [.start (), .advance 0 ⟨0, .failed ()⟩, .advance 0 ⟨2, .failed ()⟩,
    .advance 0 ⟨3, .failed ()⟩, .start ()]

theorem second_call_turned_away :
    ((transport Unit Unit ⟨1, 10⟩).machine.run (Pool.init {})
      (failedOnce ++ [.advance 1 ⟨5, .failed ()⟩])).returned 1 = some (.error .rpcCircuitOpen) :=
  (call_turned_away_iff ⟨1, 10⟩ failedOnce 1 ⟨5, .failed ()⟩ (by decide) rfl).mpr (by decide)

end Simard.Rpc
