import Simard.Library.Pool

/-! The interval between autonomous deploy attempts. The time of the last attempt is one atomic word
of the process; a caller reads it and, when the interval has passed, puts its own time in its place
unless another caller was quicker, in which case it looks again. -/
namespace Simard.Overseer
open Simard.Library

def minDeployIntervalFloor : Nat := 60

/-- The exchange also says which interval the caller keeps, for the record only. -/
inductive ThrottleCmd where
  | load
  | compareExchange (previous new floor : Nat)

abbrev ThrottleCmd.Ans : ThrottleCmd → Type
  | .load => Nat
  | .compareExchange _ _ _ => Bool

/-- The answer of a caller, or that it is still going round after so many rounds. -/
abbrev ThrottleResult := Except Nat Bool

abbrev ThrottleOp := Program ThrottleCmd ThrottleCmd.Ans ThrottleResult

/-- May an attempt proceed? The loop is followed for a number of rounds, `lost` being those that
another caller won. -/
def throttleRounds (nowSecs floor : Nat) : Nat → Nat → ThrottleOp
  | lost, 0 => .done (.error lost)
  | lost, rounds + 1 =>
      .step .load fun (previous : Nat) =>
        if previous ≠ 0 ∧ nowSecs - previous < floor then .done (.ok false)
        else
          .step (.compareExchange previous nowSecs floor) fun (exchanged : Bool) =>
            if exchanged then .done (.ok true) else throttleRounds nowSecs floor (lost + 1) rounds

def globalDeployThrottleAllow (nowSecs minIntervalSecs rounds : Nat) : ThrottleOp :=
  throttleRounds nowSecs (max minIntervalSecs minDeployIntervalFloor) 0 rounds

/-- One caller: the time it gives, the interval it asks for, and the rounds it is followed for. -/
structure DeployAttempt where
  nowSecs : Nat
  minIntervalSecs : Nat
  rounds : Nat

/-- One time put into the word, with the interval its caller kept. -/
structure RecordedAttempt where
  secs : Nat
  floor : Nat
  deriving DecidableEq

/-- The word, and the attempts recorded in it, the last one first. -/
structure LastAttempt where
  secs : Nat := 0
  recorded : List RecordedAttempt := []

def LastAttempt.answer (last : LastAttempt) : (cmd : ThrottleCmd) → cmd.Ans × LastAttempt
  | .load => (last.secs, last)
  | .compareExchange previous new floor =>
      if last.secs = previous then (true, ⟨new, ⟨new, floor⟩ :: last.recorded⟩) else (false, last)

def deployCallers :
    Pool.Host LastAttempt DeployAttempt Unit ThrottleCmd ThrottleCmd.Ans ThrottleResult where
  program := fun attempt =>
    globalDeployThrottleAllow attempt.nowSecs attempt.minIntervalSecs attempt.rounds
  answer := fun last _ cmd => last.answer cmd

/-- Where a caller stands: what it read last, the rounds it lost, and whether it may proceed. -/
structure Caller where
  loaded : Option Nat := none
  lost : Nat := 0
  proceeds : Bool := false

/-- A time is exchanged for the one just read, and only when its interval has passed. -/
def throttleProtocol : Protocol ThrottleCmd ThrottleCmd.Ans Caller where
  allowed := fun caller cmd => caller.proceeds = false ∧
    match cmd with
    | .load => True
    | .compareExchange previous new floor => caller.loaded = some previous ∧
        minDeployIntervalFloor ≤ floor ∧ (previous = 0 ∨ floor ≤ new - previous)
  next := fun caller cmd answer =>
    match cmd, answer with
    | .load, previous => { caller with loaded := some previous }
    | .compareExchange _ _ _, exchanged =>
        if exchanged then { caller with loaded := none, proceeds := true }
        else { caller with loaded := none, lost := caller.lost + 1 }

@[simp] theorem throttle_next_load (caller : Caller) (previous : Nat) :
    throttleProtocol.next caller .load previous = { caller with loaded := some previous } := rfl

@[simp] theorem throttle_next_won (caller : Caller) (previous new floor : Nat) :
    throttleProtocol.next caller (.compareExchange previous new floor) true =
      { caller with loaded := none, proceeds := true } := rfl

@[simp] theorem throttle_next_lost (caller : Caller) (previous new floor : Nat) :
    throttleProtocol.next caller (.compareExchange previous new floor) false =
      { caller with loaded := none, lost := caller.lost + 1 } := rfl

theorem answer_won {last : LastAttempt} {previous : Nat} (h : last.secs = previous)
    (new floor : Nat) :
    deployCallers.answer last () (.compareExchange previous new floor) =
      (true, ⟨new, ⟨new, floor⟩ :: last.recorded⟩) := if_pos h

theorem answer_lost {last : LastAttempt} {previous : Nat} (h : last.secs ≠ previous)
    (new floor : Nat) :
    deployCallers.answer last () (.compareExchange previous new floor) = (false, last) := if_neg h

def throttlePost (caller : Caller) : ThrottleResult → Prop
  | .ok allowed => caller.proceeds = allowed
  | .error lost => caller.proceeds = false ∧ caller.lost = lost

theorem follows_throttleRounds {nowSecs floor : Nat} (hfloor : minDeployIntervalFloor ≤ floor)
    {caller : Caller} (hcaller : caller.proceeds = false) (rounds : Nat) :
    (throttleRounds nowSecs floor caller.lost rounds).Follows throttleProtocol
      throttlePost caller := by
  induction rounds generalizing caller with
  | zero => exact ⟨hcaller, rfl⟩
  | succ rounds ih =>
    refine ⟨⟨hcaller, trivial⟩, fun (previous : Nat) => ?_⟩
    dsimp only
    split
    next => exact hcaller
    next hpassed =>
      refine ⟨⟨hcaller, rfl, hfloor, by omega⟩, fun (exchanged : Bool) => ?_⟩
      cases exchanged with
      | true => exact rfl
      | false => exact @ih { caller with loaded := none, lost := caller.lost + 1 } hcaller

theorem follows_program (attempt : DeployAttempt) :
    (deployCallers.program attempt).Follows throttleProtocol throttlePost {} :=
  @follows_throttleRounds _ _ (le_max_right _ _) {} rfl attempt.rounds

/-- After an attempt that was recorded with a time, the next one keeps its interval. -/
def Spaced (later earlier : RecordedAttempt) : Prop :=
  earlier.secs = 0 ∨ earlier.secs + later.floor ≤ later.secs

structure LastAttempt.Kept (last : LastAttempt) : Prop where
  word : last.secs = (last.recorded.head?.map (·.secs)).getD 0
  spaced : last.recorded.IsChain Spaced
  floors : ∀ attempt ∈ last.recorded, minDeployIntervalFloor ≤ attempt.floor

def LastAttempt.Bears (last : LastAttempt) (caller : Caller) : Prop :=
  caller.lost ≤ last.recorded.length ∧
    ∀ previous ∈ caller.loaded, last.secs ≠ previous → caller.lost < last.recorded.length

theorem LastAttempt.Kept.exchange {last : LastAttempt} (h : last.Kept) {new floor : Nat}
    (hfloor : minDeployIntervalFloor ≤ floor) (hpassed : last.secs = 0 ∨ floor ≤ new - last.secs) :
    LastAttempt.Kept ⟨new, ⟨new, floor⟩ :: last.recorded⟩ where
  word := rfl
  spaced := by
    refine List.isChain_cons.mpr ⟨fun earlier hearlier => ?_, h.spaced⟩
    have hword := h.word
    rw [hearlier] at hword
    change last.secs = earlier.secs at hword
    unfold minDeployIntervalFloor at hfloor
    change earlier.secs = 0 ∨ earlier.secs + floor ≤ new
    omega
  floors := List.forall_mem_cons.mpr ⟨hfloor, h.floors⟩

theorem throttle_guardRules :
    Pool.GuardRules deployCallers throttleProtocol {} (fun _ _ _ => true) LastAttempt.Kept
      LastAttempt.Bears where
  start := fun _ _ => ⟨Nat.zero_le _, fun _ hloaded => by cases hloaded⟩
  shared := by
    rintro last - cmd caller - hkept - hallowed
    cases cmd with
    | load => exact hkept
    | compareExchange previous new floor =>
      obtain ⟨-, -, hfloor, hpassed⟩ := hallowed
      by_cases hsame : last.secs = previous
      · rw [answer_won hsame]
        exact hkept.exchange hfloor (hsame ▸ hpassed)
      · rw [answer_lost hsame]
        exact hkept
  next := by
    rintro last - cmd caller - - ⟨hlost, hstale⟩ hallowed
    cases cmd with
    | load =>
      refine ⟨hlost, ?_⟩
      rintro previous ⟨⟩ hother
      exact absurd rfl hother
    | compareExchange previous new floor =>
      obtain ⟨-, hloaded, -, -⟩ := hallowed
      by_cases hsame : last.secs = previous
      · rw [answer_won hsame, throttle_next_won]
        exact ⟨Nat.le_succ_of_le hlost, fun _ hloaded => by cases hloaded⟩
      · rw [answer_lost hsame, throttle_next_lost]
        exact ⟨hstale previous hloaded hsame, fun _ hnone => by cases hnone⟩
  stable := by
    rintro last - cmd - other - - - - ⟨hlost, hstale⟩
    cases cmd with
    | load => exact ⟨hlost, hstale⟩
    | compareExchange previous new floor =>
      by_cases hsame : last.secs = previous
      · rw [answer_won hsame]
        exact ⟨Nat.le_succ_of_le hlost, fun _ _ _ => Nat.lt_succ_of_le hlost⟩
      · rw [answer_lost hsame]
        exact ⟨hlost, hstale⟩

def proceeding (pool : Pool LastAttempt ThrottleCmd ThrottleCmd.Ans ThrottleResult) : Nat :=
  Pool.holders throttleProtocol {} (·.proceeds) pool

theorem proceeding_step (pool : Pool LastAttempt ThrottleCmd ThrottleCmd.Ans ThrottleResult)
    (event : Pool.Event DeployAttempt Unit)
    (hfollowing : Pool.Following throttleProtocol {} throttlePost pool)
    (h : proceeding pool = pool.shared.recorded.length) :
    proceeding (deployCallers.step pool event) =
      (deployCallers.step pool event).shared.recorded.length := by
  rcases deployCallers.step_cases pool event with
    ⟨job, -, hstep⟩ | ⟨-, hstep⟩ | ⟨index, oracle, cmd, next, past, -, hthread, -, hstep⟩
  · rw [hstep]
    simpa [proceeding, Pool.holders] using h
  · rw [hstep]
    exact h
  · have hfree : (Pool.ghost throttleProtocol {} past).proceeds = false :=
      (hfollowing.allowed hthread).1
    have hmove := Pool.holders_set throttleProtocol {} (·.proceeds) hthread
      ⟨next (deployCallers.answer pool.shared oracle cmd).1,
        past ++ [⟨cmd, (deployCallers.answer pool.shared oracle cmd).1⟩]⟩
      (deployCallers.answer pool.shared oracle cmd).2
    rw [hstep]
    simp only [Pool.ghost_append, hfree, Bool.false_eq_true, if_false, Nat.add_zero] at hmove
    unfold proceeding at h ⊢
    rw [hmove, h]
    cases cmd with
    | load => simp [hfree, deployCallers, LastAttempt.answer]
    | compareExchange previous new floor =>
      by_cases hsame : pool.shared.secs = previous
      · simp [answer_won hsame]
      · simp [answer_lost hsame, hfree]

theorem told_iff {thread : Thread ThrottleCmd ThrottleCmd.Ans ThrottleResult}
    (h : thread.program.Follows throttleProtocol throttlePost
      (Pool.ghost throttleProtocol {} thread.past)) :
    thread.program.result? = some (.ok true) ↔
      (Pool.ghost throttleProtocol {} thread.past).proceeds = true := by
  obtain ⟨program, past⟩ := thread
  cases program with
  | step cmd next => simp [Program.result?, h.1.1]
  | done result =>
    cases result with
    | error lost => simp [Program.result?, h.1]
    | ok allowed =>
      have hallowed : (Pool.ghost throttleProtocol {} past).proceeds = allowed := h
      simp [Program.result?, hallowed]

/-- However callers are interleaved and whatever their clocks say: an attempt is recorded for each
caller that is told to proceed and for no other; each attempt comes its own interval, a minute at
least, after the one recorded before it; and a caller that went round so many times saw as many
attempts recorded, so that it goes round no more often than others proceed. -/
theorem deploy_attempts_spaced (events : List (Pool.Event DeployAttempt Unit)) :
    let pool := deployCallers.machine.run (Pool.init {}) events
    pool.threads.countP (fun thread => thread.program.result? = some (.ok true)) =
        pool.shared.recorded.length ∧
      pool.shared.recorded.IsChain Spaced ∧
      (∀ attempt ∈ pool.shared.recorded, minDeployIntervalFloor ≤ attempt.floor) ∧
      ∀ index lost, pool.returned index = some (.error lost) →
        lost ≤ pool.shared.recorded.length := by
  intro pool
  have hempty : LastAttempt.Kept {} := ⟨rfl, .nil, List.forall_mem_nil _⟩
  have hfollowing : Pool.Following throttleProtocol {} throttlePost pool :=
    deployCallers.following_run follows_program (Pool.following_init _) events
  obtain ⟨hkept, hbears⟩ := deployCallers.guarded_run throttle_guardRules follows_program
    (Pool.following_init _) (Pool.guarded_init hempty) events (Pool.meets_always _ _ _)
  have hproceeding : proceeding pool = pool.shared.recorded.length := by
    have hboth := Machine.invariant_run deployCallers.machine
      (P := fun pool => Pool.Following throttleProtocol {} throttlePost pool ∧
        proceeding pool = pool.shared.recorded.length)
      (fun pool event h => ⟨deployCallers.following_step follows_program pool event h.1,
        proceeding_step pool event h.1 h.2⟩) ⟨Pool.following_init {}, rfl⟩ events
    exact hboth.2
  refine ⟨?_, hkept.spaced, hkept.floors, ?_⟩
  · rw [← hproceeding]
    apply List.countP_congr
    intro thread hthread
    simpa using told_iff (hfollowing thread hthread)
  · intro index lost hreturned
    obtain ⟨⟨program, past⟩, hthread, hresult⟩ := Option.bind_eq_some_iff.mp hreturned
    have hmem := List.mem_of_getElem? hthread
    have hfollows := hfollowing _ hmem
    cases program with
    | step cmd next => cases hresult
    | done result =>
      cases hresult
      exact hfollows.2 ▸ (hbears _ hmem).1

end Simard.Overseer
