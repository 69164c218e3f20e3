import Simard.Library.Lists
import Simard.Library.Machine
import Simard.Library.Ranking

/-! The scheduler of cognitive threads. A call runs the critical threads that are due, and
then so many others that are due and not backed off, the most urgent first. A thread that
fails is backed off for a time that doubles with every failure in a row, up to half an
hour. -/
namespace Simard.CognitiveThreads
open Simard.Library

/-- Cadences in whole seconds. -/
inductive SchedulePolicy where
  | interval (secs : Nat)
  | onDemand
  | eventDriven
  | adaptive (min max current : Nat)
  deriving DecidableEq

def saturatingAdd (a b : Nat) : Nat := min (a + b) (2 ^ 64 - 1)

def saturatingMul (a b : Nat) : Nat := min (a * b) (2 ^ 64 - 1)

def intervalSecs : SchedulePolicy → Option Nat
  | .interval secs => some secs
  | .adaptive _ _ current => some current
  | .onDemand => none
  | .eventDriven => none

def isDue (policy : SchedulePolicy) (lastRunEpoch : Option Nat) (nowEpoch : Nat) : Bool :=
  match intervalSecs policy with
  | none => false
  | some interval =>
      match lastRunEpoch with
      | none => true
      | some last => saturatingAdd last interval ≤ nowEpoch

def nextRunEpoch (policy : SchedulePolicy) (lastRunEpoch : Option Nat) (nowEpoch : Nat) :
    Option Nat :=
  (intervalSecs policy).map fun interval =>
    match lastRunEpoch with
    | none => nowEpoch
    | some last => saturatingAdd last interval

def backoffMaxShift : Nat := 32

def backoffUntilEpoch (nowEpoch consecutiveErrors baseSecs capSecs : Nat) : Nat :=
  let shift := min consecutiveErrors backoffMaxShift
  let delay := min (saturatingMul baseSecs (2 ^ shift)) capSecs
  saturatingAdd nowEpoch delay

inductive Priority where
  | critical
  | high
  | normal
  | low
  deriving DecidableEq

def Priority.rank : Priority → Nat
  | .critical => 0
  | .high => 1
  | .normal => 2
  | .low => 3

structure CognitiveThread where
  id : String
  policy : SchedulePolicy
  priority : Priority
  enabled : Bool

structure ThreadOutcome where
  ran : Bool
  success : Bool
  summary : String

def ThreadOutcome.failed (summary : String) : ThreadOutcome := ⟨true, false, summary⟩

inductive TickResult where
  | returned (outcome : ThreadOutcome)
  | panicked

def TickResult.toOutcome : TickResult → ThreadOutcome
  | .returned outcome => outcome
  | .panicked => .failed "thread panicked"

structure ThreadEntry where
  thread : CognitiveThread
  lastRun : Option Nat
  nextRun : Option Nat
  lastSuccess : Option Bool
  consecutiveErrors : Nat
  backoffUntil : Option Nat

namespace ThreadEntry

def new (thread : CognitiveThread) : ThreadEntry := ⟨thread, none, none, none, 0, none⟩

def isBackedOff (entry : ThreadEntry) (now : Nat) : Bool :=
  entry.backoffUntil.any fun limit => now < limit

def isDue (entry : ThreadEntry) (now : Nat) : Bool :=
  CognitiveThreads.isDue entry.thread.policy entry.lastRun now

end ThreadEntry

def backoffBase : Nat := 30

def backoffCap : Nat := 30 * 60

def execute (entry : ThreadEntry) (result : TickResult) (now : Nat) (critical : Bool) :
    ThreadEntry × ThreadOutcome :=
  let outcome := result.toOutcome
  let ticked := { entry with
    lastRun := some now
    lastSuccess := some outcome.success
    nextRun := nextRunEpoch entry.thread.policy (some now) now }
  if outcome.success then ({ ticked with consecutiveErrors := 0, backoffUntil := none }, outcome)
  else if critical then (ticked, outcome)
  else
    let errors := min (entry.consecutiveErrors + 1) (2 ^ 32 - 1)
    ({ ticked with
      consecutiveErrors := errors
      backoffUntil := some (backoffUntilEpoch now errors backoffBase backoffCap) }, outcome)

/-- What a call meets: the time, what each thread's tick does, and what the successive reads
of the shutdown flag find. -/
structure ThreadContext where
  nowEpoch : Nat
  ticks : Nat → TickResult
  shutdown : Nat → Bool

/-- A call in progress: the threads, and the threads that were ticked with their outcomes. -/
structure Running where
  threads : List ThreadEntry
  outcomes : List (Nat × ThreadOutcome)

structure Mind where
  threads : List ThreadEntry
  maxNoncriticalPerTick : Nat

namespace Mind

variable (ctx : ThreadContext)

def tick (critical : Bool) (r : Running) (i : Nat) : Running :=
  match r.threads[i]? with
  | none => r
  | some entry =>
      let (entry, outcome) := execute entry (ctx.ticks i) ctx.nowEpoch critical
      ⟨r.threads.set i entry, r.outcomes ++ [(i, outcome)]⟩

def criticalDue (now : Nat) (entry : ThreadEntry) : Bool :=
  entry.thread.priority = .critical && entry.thread.enabled && entry.isDue now

def noncriticalDue (now : Nat) (entry : ThreadEntry) : Bool :=
  entry.thread.priority ≠ .critical && entry.thread.enabled && !entry.isBackedOff now &&
    entry.isDue now

def criticalPhase (r : Running) : Running :=
  (List.range r.threads.length).foldl (fun r i =>
    if (r.threads[i]?).any (criticalDue ctx.nowEpoch) then tick ctx true r i else r) r

def rankAt (threads : List ThreadEntry) (i : Nat) : Nat :=
  (threads[i]?).elim 0 fun entry => entry.thread.priority.rank

/-- The others that are due, in order of urgency, as many as the budget allows. -/
def selected (budget : Nat) (threads : List ThreadEntry) : List Nat :=
  (((List.range threads.length).filter fun i =>
    (threads[i]?).any (noncriticalDue ctx.nowEpoch)).insertionSort fun i j =>
      rankAt threads i ≤ rankAt threads j).take budget

/-- Tick one after the other until a read of the flag finds a shutdown. -/
def noncriticalPhase : List Nat → (reads : Nat) → Running → Running
  | [], _, r => r
  | i :: rest, reads, r =>
      if ctx.shutdown reads then r else noncriticalPhase rest (reads + 1) (tick ctx false r i)

def runDue (mind : Mind) : Mind × List (Nat × ThreadOutcome) :=
  if ctx.shutdown 0 then (mind, [])
  else
    let first := criticalPhase ctx ⟨mind.threads, []⟩
    if ctx.shutdown 1 then ({ mind with threads := first.threads }, first.outcomes)
    else
      let r := noncriticalPhase ctx (selected ctx mind.maxNoncriticalPerTick first.threads) 2 first
      ({ mind with threads := r.threads }, r.outcomes)

def ticked (mind : Mind) : List Nat := (mind.runDue ctx).2.map Prod.fst

end Mind

def Mind.withBudget (budget : Nat) (threads : List CognitiveThread) : Mind :=
  ⟨threads.map .new, budget⟩

def mindMachine : Machine Mind ThreadContext := ⟨fun mind ctx => (mind.runDue ctx).1⟩

namespace Mind

section Ticks

variable (ctx : ThreadContext) (critical : Bool)

def afterTick (i : Nat) (entry : ThreadEntry) : ThreadEntry :=
  (execute entry (ctx.ticks i) ctx.nowEpoch critical).1

def tickAll (is : List Nat) (r : Running) : Running := is.foldl (tick ctx critical) r

theorem threads_tick (r : Running) (i j : Nat) :
    (tick ctx critical r i).threads[j]? =
      if j = i then (r.threads[j]?).map (afterTick ctx critical j) else r.threads[j]? := by
  unfold tick
  cases hentry : r.threads[i]? with
  | none =>
    dsimp only
    split
    next hsame =>
      rw [hsame, hentry]
      rfl
    next => rfl
  | some entry =>
    dsimp only
    split
    next hsame =>
      have hbound : i < r.threads.length := (List.getElem?_eq_some_iff.mp hentry).1
      rw [hsame, hentry, List.getElem?_set_self hbound]
      rfl
    next hother => rw [List.getElem?_set_ne (Ne.symm hother)]

theorem length_tick (r : Running) (i : Nat) :
    (tick ctx critical r i).threads.length = r.threads.length := by
  unfold tick
  split
  · rfl
  · exact List.length_set

theorem outcomes_tick {r : Running} {i : Nat} (hbound : i < r.threads.length) :
    (tick ctx critical r i).outcomes.map Prod.fst = r.outcomes.map Prod.fst ++ [i] := by
  unfold tick
  rw [List.getElem?_eq_getElem hbound]
  exact List.map_append

theorem threads_tickAll {is : List Nat} (hnodup : is.Nodup) (r : Running) (j : Nat) :
    (tickAll ctx critical is r).threads[j]? =
      if j ∈ is then (r.threads[j]?).map (afterTick ctx critical j) else r.threads[j]? := by
  induction is generalizing r with
  | nil => rfl
  | cons i is ih =>
    obtain ⟨hfresh, hnodup⟩ := List.nodup_cons.mp hnodup
    change (tickAll ctx critical is (tick ctx critical r i)).threads[j]? = _
    rw [ih hnodup, threads_tick]
    by_cases hsame : j = i
    · subst hsame
      rw [if_neg hfresh, if_pos rfl, if_pos List.mem_cons_self]
    · rw [if_neg hsame]
      by_cases hmem : j ∈ is
      · rw [if_pos hmem, if_pos (List.mem_cons_of_mem _ hmem)]
      · rw [if_neg hmem, if_neg (List.not_mem_cons_of_ne_of_not_mem hsame hmem)]

theorem length_tickAll (is : List Nat) (r : Running) :
    (tickAll ctx critical is r).threads.length = r.threads.length := by
  induction is generalizing r with
  | nil => rfl
  | cons i is ih => exact (ih (tick ctx critical r i)).trans (length_tick ctx critical r i)

theorem outcomes_tickAll {is : List Nat} {r : Running} (hbound : ∀ i ∈ is, i < r.threads.length) :
    (tickAll ctx critical is r).outcomes.map Prod.fst = r.outcomes.map Prod.fst ++ is := by
  induction is generalizing r with
  | nil => exact (List.append_nil _).symm
  | cons i is ih =>
    rw [List.forall_mem_cons] at hbound
    have hrest : ∀ j ∈ is, j < (tick ctx critical r i).threads.length := by
      rw [length_tick]
      exact hbound.2
    change (tickAll ctx critical is (tick ctx critical r i)).outcomes.map Prod.fst = _
    rw [ih hrest, outcomes_tick ctx critical hbound.1, List.append_assoc]
    rfl

theorem foldl_tick_eq (p : ThreadEntry → Bool) {is : List Nat} (hnodup : is.Nodup) (r : Running) :
    is.foldl (fun r i => if (r.threads[i]?).any p then tick ctx critical r i else r) r =
      tickAll ctx critical (is.filter fun i => (r.threads[i]?).any p) r := by
  induction is generalizing r with
  | nil => rfl
  | cons i is ih =>
    obtain ⟨hfresh, hnodup⟩ := List.nodup_cons.mp hnodup
    rw [List.foldl_cons, List.filter_cons]
    split
    · rw [ih hnodup]
      change _ = tickAll ctx critical _ (tick ctx critical r i)
      congr 1
      apply List.filter_congr
      intro j hj
      have hother : j ≠ i := fun hsame => hfresh (hsame ▸ hj)
      rw [threads_tick, if_neg hother]
    · exact ih hnodup r

end Ticks

section Call

variable (ctx : ThreadContext) (mind : Mind)

def dueCritical : List Nat :=
  (List.range mind.threads.length).filter fun i =>
    (mind.threads[i]?).any (criticalDue ctx.nowEpoch)

def chosen : List Nat := selected ctx mind.maxNoncriticalPerTick mind.threads

theorem criticalPhase_eq : criticalPhase ctx ⟨mind.threads, []⟩ =
    tickAll ctx true (dueCritical ctx mind) ⟨mind.threads, []⟩ :=
  foldl_tick_eq ctx true (criticalDue ctx.nowEpoch) List.nodup_range ⟨mind.threads, []⟩

theorem nodup_dueCritical : (dueCritical ctx mind).Nodup := List.nodup_range.filter _

theorem mem_dueCritical {i : Nat} :
    i ∈ dueCritical ctx mind ↔
      ∃ entry, mind.threads[i]? = some entry ∧ criticalDue ctx.nowEpoch entry = true := by
  rw [dueCritical, List.mem_filter, List.mem_range, Option.any_eq_true]
  refine and_iff_right_of_imp ?_
  rintro ⟨entry, hentry, -⟩
  exact (List.getElem?_eq_some_iff.mp hentry).1

theorem getElem?_criticalPhase (j : Nat) :
    (criticalPhase ctx ⟨mind.threads, []⟩).threads[j]? =
      if j ∈ dueCritical ctx mind then (mind.threads[j]?).map (afterTick ctx true j)
      else mind.threads[j]? := by
  rw [criticalPhase_eq, threads_tickAll ctx true (nodup_dueCritical ctx mind)]

theorem noncriticalPhase_eq (hrunning : ∀ n, ctx.shutdown n = false) (is : List Nat) (reads : Nat)
    (r : Running) : noncriticalPhase ctx is reads r = tickAll ctx false is r := by
  induction is generalizing reads r with
  | nil => rfl
  | cons i is ih =>
    rw [noncriticalPhase, hrunning, if_neg Bool.false_ne_true, ih]
    rfl

theorem afterTick_thread (critical : Bool) (i : Nat) (entry : ThreadEntry) :
    (afterTick ctx critical i entry).thread = entry.thread := by
  unfold afterTick execute
  dsimp only
  split
  · rfl
  · split <;> rfl

theorem selected_criticalPhase :
    selected ctx mind.maxNoncriticalPerTick (criticalPhase ctx ⟨mind.threads, []⟩).threads =
      chosen ctx mind := by
  have hlength : (criticalPhase ctx ⟨mind.threads, []⟩).threads.length = mind.threads.length := by
    rw [criticalPhase_eq, length_tickAll]
  have hrank : rankAt (criticalPhase ctx ⟨mind.threads, []⟩).threads = rankAt mind.threads := by
    funext i
    unfold rankAt
    rw [getElem?_criticalPhase]
    split
    · cases mind.threads[i]? with
      | none => rfl
      | some entry =>
        rw [Option.map_some, Option.elim_some, Option.elim_some, afterTick_thread]
    · rfl
  have hdue (i : Nat) : ((criticalPhase ctx ⟨mind.threads, []⟩).threads[i]?).any
      (noncriticalDue ctx.nowEpoch) = (mind.threads[i]?).any (noncriticalDue ctx.nowEpoch) := by
    rw [getElem?_criticalPhase]
    split
    next hcritical =>
      obtain ⟨entry, hentry, hcond⟩ := (mem_dueCritical ctx mind).mp hcritical
      have hpriority : entry.thread.priority = .critical := by
        simp only [criticalDue, Bool.and_eq_true, decide_eq_true_eq] at hcond
        exact hcond.1.1
      rw [hentry, Option.map_some, Option.any_some, Option.any_some]
      simp [noncriticalDue, afterTick_thread, hpriority]
    next => rfl
  unfold chosen selected
  rw [hlength, hrank]
  simp only [hdue]

/-- Those that may be ticked, whether the budget reaches them or not. -/
def dueOthers : List Nat :=
  (List.range mind.threads.length).filter fun i =>
    (mind.threads[i]?).any (noncriticalDue ctx.nowEpoch)

theorem mem_dueOthers {i : Nat} :
    i ∈ dueOthers ctx mind ↔
      ∃ entry, mind.threads[i]? = some entry ∧ noncriticalDue ctx.nowEpoch entry = true := by
  rw [dueOthers, List.mem_filter, List.mem_range, Option.any_eq_true]
  refine and_iff_right_of_imp ?_
  rintro ⟨entry, hentry, -⟩
  exact (List.getElem?_eq_some_iff.mp hentry).1

theorem chosen_subperm : (chosen ctx mind).Subperm (dueOthers ctx mind) :=
  (List.take_sublist _ _).subperm.trans (List.perm_insertionSort _ _).subperm

theorem nodup_chosen : (chosen ctx mind).Nodup := by
  obtain ⟨l, hperm, hsub⟩ := chosen_subperm ctx mind
  exact hperm.nodup_iff.mp ((List.nodup_range.filter _).sublist hsub)

theorem length_chosen_le : (chosen ctx mind).length ≤ mind.maxNoncriticalPerTick :=
  List.length_take_le _ _

theorem mem_chosen_of_rank_lt {i j : Nat} (hi : i ∈ chosen ctx mind) (hj : j ∈ dueOthers ctx mind)
    (hlt : rankAt mind.threads j < rankAt mind.threads i) : j ∈ chosen ctx mind := by
  have : Std.Total fun i j => rankAt mind.threads i ≤ rankAt mind.threads j :=
    ⟨fun i j => le_total (rankAt mind.threads i) (rankAt mind.threads j)⟩
  have : IsTrans Nat fun i j => rankAt mind.threads i ≤ rankAt mind.threads j :=
    ⟨fun _ _ _ hij hjk => le_trans hij hjk⟩
  refine mem_take_of_key_lt (rankAt mind.threads) (List.pairwise_insertionSort _ _) hi ?_ hlt
  exact (List.perm_insertionSort _ _).mem_iff.mpr hj

theorem mem_chosen_iff {i : Nat}
    (hbudget : (mind.threads.countP fun entry => entry.thread.priority ≠ .critical) ≤
      mind.maxNoncriticalPerTick) : i ∈ chosen ctx mind ↔ i ∈ dueOthers ctx mind := by
  have hcount : (dueOthers ctx mind).length ≤
      mind.threads.countP fun entry => entry.thread.priority ≠ .critical := by
    rw [dueOthers, ← List.countP_eq_length_filter]
    calc (List.range mind.threads.length).countP (fun i =>
          (mind.threads[i]?).any (noncriticalDue ctx.nowEpoch))
        = mind.threads.countP (noncriticalDue ctx.nowEpoch) := countP_places _ _
      _ ≤ mind.threads.countP fun entry => entry.thread.priority ≠ .critical := by
          apply List.countP_mono_left
          intro entry _ hdue
          simp only [noncriticalDue, Bool.and_eq_true] at hdue
          exact hdue.1.1.1
  have hall : chosen ctx mind = (dueOthers ctx mind).insertionSort fun i j =>
      rankAt mind.threads i ≤ rankAt mind.threads j := by
    unfold chosen selected
    apply List.take_of_length_le
    rw [List.length_insertionSort]
    exact hcount.trans hbudget
  rw [hall]
  exact (List.perm_insertionSort _ _).mem_iff

variable (hrunning : ∀ n, ctx.shutdown n = false)

include hrunning

theorem runDue_eq : mind.runDue ctx =
    ({ mind with
      threads := (tickAll ctx false (chosen ctx mind)
        (criticalPhase ctx ⟨mind.threads, []⟩)).threads },
      (tickAll ctx false (chosen ctx mind) (criticalPhase ctx ⟨mind.threads, []⟩)).outcomes) := by
  unfold runDue
  rw [hrunning, hrunning, if_neg Bool.false_ne_true]
  dsimp only
  rw [if_neg Bool.false_ne_true, noncriticalPhase_eq ctx hrunning, selected_criticalPhase]

theorem ticked_eq : mind.ticked ctx = dueCritical ctx mind ++ chosen ctx mind := by
  have hcritical : ∀ i ∈ dueCritical ctx mind, i < mind.threads.length := by
    intro i hi
    exact List.mem_range.mp (List.mem_of_mem_filter hi)
  have hchosen : ∀ i ∈ chosen ctx mind,
      i < (criticalPhase ctx ⟨mind.threads, []⟩).threads.length := by
    intro i hi
    rw [criticalPhase_eq, length_tickAll]
    exact List.mem_range.mp (List.mem_of_mem_filter ((chosen_subperm ctx mind).subset hi))
  rw [ticked, runDue_eq ctx mind hrunning, outcomes_tickAll ctx false hchosen, criticalPhase_eq,
    outcomes_tickAll ctx true hcritical]
  rfl

theorem threads_runDue (j : Nat) :
    (mind.runDue ctx).1.threads[j]? =
      if j ∈ dueCritical ctx mind then (mind.threads[j]?).map (afterTick ctx true j)
      else if j ∈ chosen ctx mind then (mind.threads[j]?).map (afterTick ctx false j)
      else mind.threads[j]? := by
  rw [runDue_eq ctx mind hrunning]
  dsimp only
  rw [threads_tickAll ctx false (nodup_chosen ctx mind), getElem?_criticalPhase]
  by_cases hcritical : j ∈ dueCritical ctx mind
  · have hother : j ∉ chosen ctx mind := by
      intro hchosen
      obtain ⟨entry, hentry, hdue⟩ := (mem_dueCritical ctx mind).mp hcritical
      obtain ⟨entry', hentry', hdue'⟩ :=
        (mem_dueOthers ctx mind).mp ((chosen_subperm ctx mind).subset hchosen)
      obtain rfl := Option.some.inj (hentry.symm.trans hentry')
      simp only [criticalDue, noncriticalDue, Bool.and_eq_true, decide_eq_true_eq] at hdue hdue'
      exact hdue'.1.1.1 hdue.1.1
    rw [if_neg hother, if_pos hcritical, if_pos hcritical]
  · rw [if_neg hcritical, if_neg hcritical]

end Call

end Mind

/-- The ticks of a thread in a run, each with its time and whether it succeeded. -/
def historyOf (i : Nat) (mind : Mind) (calls : List ThreadContext) : List (Nat × Bool) :=
  (mindMachine.trace mind calls).flatMap fun t =>
    if i ∈ t.before.ticked t.event then
      [(t.event.nowEpoch, (t.event.ticks i).toOutcome.success)]
    else []

def failuresInARow (history : List (Nat × Bool)) : Nat :=
  (history.reverse.takeWhile fun entry => !entry.2).length

theorem historyOf_concat (i : Nat) (mind : Mind) (calls : List ThreadContext)
    (ctx : ThreadContext) : historyOf i mind (calls ++ [ctx]) = historyOf i mind calls ++
      if i ∈ (mindMachine.run mind calls).ticked ctx then
        [(ctx.nowEpoch, (ctx.ticks i).toOutcome.success)]
      else [] := by
  unfold historyOf
  rw [Machine.trace_append, List.flatMap_append]
  congr 1
  exact List.flatMap_singleton _ _

theorem failuresInARow_failed (history : List (Nat × Bool)) (now : Nat) :
    failuresInARow (history ++ [(now, false)]) = failuresInARow history + 1 := by
  simp [failuresInARow]

theorem failuresInARow_succeeded (history : List (Nat × Bool)) (now : Nat) :
    failuresInARow (history ++ [(now, true)]) = 0 := by
  simp [failuresInARow]

/-- The seconds a thread is held after so many failures in a row. -/
def backoffSecs (failures : Nat) : Nat := min (30 * 2 ^ failures) 1800

/-- Neither the bound on the shift nor the counter's own limit is felt: from the sixth failure
on the cap decides. -/
theorem backoffUntilEpoch_eq (now : Nat) {failures : Nat} (hfailed : 0 < failures) :
    backoffUntilEpoch now (min failures (2 ^ 32 - 1)) backoffBase backoffCap =
      saturatingAdd now (backoffSecs failures) := by
  unfold backoffUntilEpoch backoffSecs saturatingMul backoffBase backoffCap backoffMaxShift
  dsimp only
  congr 1
  by_cases hfew : failures < 6
  · interval_cases failures <;> rfl
  · have hpow (n : Nat) (h : 6 ≤ n) : 2 ^ 6 ≤ 2 ^ n := Nat.pow_le_pow_right (by decide) h
    have hlong := hpow failures (by omega)
    have hshift := hpow (min (min failures (2 ^ 32 - 1)) 32) (by omega)
    omega

/-- The bookkeeping of a thread tells what its ticks were. -/
structure Accounted (thread : CognitiveThread) (history : List (Nat × Bool))
    (entry : ThreadEntry) : Prop where
  same : entry.thread = thread
  lastRun : entry.lastRun = history.getLast?.map Prod.fst
  schedule : history ≠ [] → thread.enabled = true ∧ (intervalSecs thread.policy).isSome
  errors : thread.priority ≠ .critical →
    entry.consecutiveErrors = min (failuresInARow history) (2 ^ 32 - 1)
  backoff : thread.priority ≠ .critical → ∀ t, history.getLast? = some (t, false) →
    entry.backoffUntil = some (saturatingAdd t (backoffSecs (failuresInARow history)))

theorem accounted_new (thread : CognitiveThread) : Accounted thread [] (.new thread) :=
  ⟨rfl, rfl, fun h => absurd rfl h, fun _ => rfl, nofun⟩

theorem Accounted.tick {thread : CognitiveThread} {history : List (Nat × Bool)}
    {entry : ThreadEntry} (h : Accounted thread history entry) (ctx : ThreadContext) (i : Nat)
    (hschedule : thread.enabled = true ∧ (intervalSecs thread.policy).isSome) :
    Accounted thread (history ++ [(ctx.nowEpoch, (ctx.ticks i).toOutcome.success)])
      (Mind.afterTick ctx (thread.priority = .critical) i entry) := by
  have hthread := Mind.afterTick_thread ctx (thread.priority = .critical) i entry
  refine ⟨hthread.trans h.same, ?_, fun _ => hschedule, ?_, ?_⟩
  · rw [List.getLast?_concat, Option.map_some]
    unfold Mind.afterTick execute
    dsimp only
    split
    · rfl
    · split <;> rfl
  · intro hpriority
    unfold Mind.afterTick execute
    dsimp only
    cases hsuccess : (ctx.ticks i).toOutcome.success with
    | true =>
      rw [failuresInARow_succeeded]
      rfl
    | false =>
      rw [failuresInARow_failed, if_neg Bool.false_ne_true,
        if_neg (by rw [decide_eq_true_eq]; exact hpriority)]
      change min (entry.consecutiveErrors + 1) _ = _
      rw [h.errors hpriority]
      omega
  · intro hpriority t hlast
    rw [List.getLast?_concat, Option.some_inj, Prod.mk.injEq] at hlast
    obtain ⟨rfl, hsuccess⟩ := hlast
    unfold Mind.afterTick execute
    dsimp only
    rw [hsuccess, failuresInARow_failed, if_neg Bool.false_ne_true,
      if_neg (by rw [decide_eq_true_eq]; exact hpriority)]
    change some (backoffUntilEpoch ctx.nowEpoch (min (entry.consecutiveErrors + 1) _) _ _) = _
    have hcount : min (entry.consecutiveErrors + 1) (2 ^ 32 - 1) =
        min (failuresInARow history + 1) (2 ^ 32 - 1) := by
      rw [h.errors hpriority]
      omega
    rw [hcount, backoffUntilEpoch_eq _ (Nat.succ_pos _)]

section Runs

variable {threads : List CognitiveThread} {budget : Nat}

theorem threads_step (mind : Mind) {ctx : ThreadContext} (hrunning : ∀ n, ctx.shutdown n = false) :
    (mind.runDue ctx).1.threads.map ThreadEntry.thread = mind.threads.map ThreadEntry.thread := by
  apply List.ext_getElem?
  intro j
  rw [List.getElem?_map, List.getElem?_map, Mind.threads_runDue ctx mind hrunning]
  have hsame (critical : Bool) : ((mind.threads[j]?).map (Mind.afterTick ctx critical j)).map
      ThreadEntry.thread = (mind.threads[j]?).map ThreadEntry.thread := by
    rw [Option.map_map]
    congr 1
    funext entry
    exact Mind.afterTick_thread ctx critical j entry
  split
  · exact hsame true
  · split
    · exact hsame false
    · rfl

theorem budget_step (mind : Mind) (ctx : ThreadContext) :
    (mind.runDue ctx).1.maxNoncriticalPerTick = mind.maxNoncriticalPerTick := by
  unfold Mind.runDue
  split
  · rfl
  · dsimp only
    split <;> rfl

theorem registry_run {calls : List ThreadContext}
    (hrunning : ∀ c ∈ calls, ∀ n, c.shutdown n = false) :
    (mindMachine.run (.withBudget budget threads) calls).threads.map ThreadEntry.thread = threads ∧
      (mindMachine.run (.withBudget budget threads) calls).maxNoncriticalPerTick = budget := by
  induction calls using List.reverseRecOn with
  | nil => exact ⟨by simp [Mind.withBudget, ThreadEntry.new, Function.comp_def], rfl⟩
  | append_singleton calls ctx ih =>
    have hlast := hrunning ctx (List.mem_append_right _ List.mem_cons_self)
    obtain ⟨hthreads, hbudget⟩ := ih fun c hc => hrunning c (List.mem_append_left _ hc)
    rw [Machine.run_append]
    exact ⟨(threads_step _ hlast).trans hthreads, (budget_step _ ctx).trans hbudget⟩

theorem ticked_cases {mind : Mind} {ctx : ThreadContext} {i : Nat} {entry : ThreadEntry}
    (hrunning : ∀ n, ctx.shutdown n = false) (hentry : mind.threads[i]? = some entry) :
    (i ∈ mind.ticked ctx → entry.thread.enabled = true ∧ entry.isDue ctx.nowEpoch = true ∧
      (entry.thread.priority ≠ .critical → entry.isBackedOff ctx.nowEpoch = false)) ∧
    (mind.runDue ctx).1.threads[i]? = some (if i ∈ mind.ticked ctx then
      Mind.afterTick ctx (entry.thread.priority = .critical) i entry else entry) := by
  have hcritical : i ∈ Mind.dueCritical ctx mind ↔ Mind.criticalDue ctx.nowEpoch entry = true := by
    rw [Mind.mem_dueCritical, hentry]
    simp
  have hchosen (h : i ∈ Mind.chosen ctx mind) : Mind.noncriticalDue ctx.nowEpoch entry = true := by
    obtain ⟨entry', hentry', hdue⟩ :=
      (Mind.mem_dueOthers ctx mind).mp ((Mind.chosen_subperm ctx mind).subset h)
    obtain rfl := Option.some.inj (hentry.symm.trans hentry')
    exact hdue
  rw [Mind.ticked_eq ctx mind hrunning, Mind.threads_runDue ctx mind hrunning, hentry]
  simp only [Mind.noncriticalDue, Bool.and_eq_true, decide_eq_true_eq, Bool.not_eq_true'] at hchosen
  simp only [List.mem_append, hcritical, Mind.criticalDue, Bool.and_eq_true, decide_eq_true_eq]
  by_cases hpriority : entry.thread.priority = .critical
  · have hnot : i ∉ Mind.chosen ctx mind := fun h => (hchosen h).1.1.1 hpriority
    simp only [hpriority, hnot, or_false, true_and, if_false]
    constructor
    · rintro ⟨henabled, hdue⟩
      exact ⟨henabled, hdue, fun h => absurd rfl h⟩
    · split <;> rfl
  · simp only [hpriority, false_and, false_or, if_false]
    constructor
    · intro h
      obtain ⟨⟨⟨-, henabled⟩, hfree⟩, hdue⟩ := hchosen h
      exact ⟨henabled, hdue, fun _ => hfree⟩
    · split <;> rfl

theorem accounted_run {calls : List ThreadContext}
    (hrunning : ∀ c ∈ calls, ∀ n, c.shutdown n = false) {i : Nat} {thread : CognitiveThread}
    (hthread : threads[i]? = some thread) :
    ∃ entry, (mindMachine.run (.withBudget budget threads) calls).threads[i]? = some entry ∧
      Accounted thread (historyOf i (.withBudget budget threads) calls) entry := by
  induction calls using List.reverseRecOn with
  | nil => exact ⟨.new thread, by simp [Mind.withBudget, hthread], accounted_new thread⟩
  | append_singleton calls ctx ih =>
    obtain ⟨entry, hentry, haccount⟩ := ih fun c hc => hrunning c (List.mem_append_left _ hc)
    have hlast := hrunning ctx (List.mem_append_right _ List.mem_cons_self)
    obtain ⟨hticked, hafter⟩ := ticked_cases hlast hentry
    rw [Machine.run_append, historyOf_concat]
    refine ⟨_, hafter, ?_⟩
    split
    next hmem =>
      obtain ⟨henabled, hdue, -⟩ := hticked hmem
      rw [haccount.same] at henabled ⊢
      apply haccount.tick ctx i ⟨henabled, ?_⟩
      unfold ThreadEntry.isDue isDue at hdue
      rw [haccount.same] at hdue
      cases hinterval : intervalSecs thread.policy with
      | none =>
        rw [hinterval] at hdue
        cases hdue
      | some interval => rfl
    next =>
      rw [List.append_nil]
      exact haccount

/-- When a thread is released that failed so often in a row, last at a time, and when its
cadence makes it due again; neither is later than the last second the clock has. -/
def releasedAt (history : List (Nat × Bool)) (t : Nat) : Nat :=
  saturatingAdd t (backoffSecs (failuresInARow history))

section Failed

variable {calls : List ThreadContext} {ctx : ThreadContext} {i : Nat} {thread : CognitiveThread}
  {t : Nat} (hrunning : ∀ c ∈ calls, ∀ n, c.shutdown n = false)
  (hnext : ∀ n, ctx.shutdown n = false) (hthread : threads[i]? = some thread)
  (hpriority : thread.priority ≠ .critical)
  (hfailed : (historyOf i (.withBudget budget threads) calls).getLast? = some (t, false))

include hrunning hnext hthread hpriority hfailed

theorem releasedAt_le_of_ticked
    (hticked : i ∈ (mindMachine.run (.withBudget budget threads) calls).ticked ctx) :
    releasedAt (historyOf i (.withBudget budget threads) calls) t ≤ ctx.nowEpoch := by
  obtain ⟨entry, hentry, haccount⟩ := @accounted_run threads budget calls hrunning i thread hthread
  obtain ⟨-, -, hfree⟩ := (ticked_cases hnext hentry).1 hticked
  have hbackoff := hfree (by rw [haccount.same]; exact hpriority)
  rw [ThreadEntry.isBackedOff, haccount.backoff hpriority t hfailed, Option.any_some,
    decide_eq_false_iff_not] at hbackoff
  exact Nat.not_lt.mp hbackoff

theorem ticked_failed_iff {interval : Nat} (hinterval : intervalSecs thread.policy = some interval)
    (hbudget : (threads.countP fun thread => thread.priority ≠ .critical) ≤ budget) :
    i ∈ (mindMachine.run (.withBudget budget threads) calls).ticked ctx ↔
      releasedAt (historyOf i (.withBudget budget threads) calls) t ≤ ctx.nowEpoch ∧
        saturatingAdd t interval ≤ ctx.nowEpoch := by
  obtain ⟨entry, hentry, haccount⟩ := @accounted_run threads budget calls hrunning i thread hthread
  obtain ⟨hregistry, hmax⟩ := @registry_run threads budget calls hrunning
  have hlastRun : entry.lastRun = some t := by rw [haccount.lastRun, hfailed, Option.map_some]
  have hdue : entry.isDue ctx.nowEpoch = decide (saturatingAdd t interval ≤ ctx.nowEpoch) := by
    rw [ThreadEntry.isDue, isDue, haccount.same, hinterval, hlastRun]
  have hcovers : ((mindMachine.run (.withBudget budget threads) calls).threads.countP fun entry =>
      entry.thread.priority ≠ .critical) ≤
        (mindMachine.run (.withBudget budget threads) calls).maxNoncriticalPerTick := by
    rw [hmax]
    refine le_trans (le_of_eq ?_) hbudget
    conv_rhs => rw [← hregistry]
    rw [List.countP_map]
    rfl
  constructor
  · intro hticked
    obtain ⟨-, hnow, -⟩ := (ticked_cases hnext hentry).1 hticked
    rw [hdue, decide_eq_true_eq] at hnow
    exact ⟨releasedAt_le_of_ticked hrunning hnext hthread hpriority hfailed hticked, hnow⟩
  · rintro ⟨hreleased, hnow⟩
    have hne : historyOf i (.withBudget budget threads) calls ≠ [] := by
      intro hnil
      rw [hnil] at hfailed
      cases hfailed
    have hfree : entry.isBackedOff ctx.nowEpoch = false := by
      rw [ThreadEntry.isBackedOff, haccount.backoff hpriority t hfailed, Option.any_some,
        decide_eq_false_iff_not]
      exact Nat.not_lt.mpr hreleased
    rw [Mind.ticked_eq _ _ hnext, List.mem_append, Mind.mem_chosen_iff _ _ hcovers,
      Mind.mem_dueOthers]
    refine .inr ⟨entry, hentry, ?_⟩
    simp only [Mind.noncriticalDue, hfree, hdue, haccount.same, (haccount.schedule hne).1, hnow,
      Bool.and_eq_true, decide_eq_true_eq]
    exact ⟨⟨⟨hpriority, trivial⟩, rfl⟩, trivial⟩

end Failed

theorem history_waiting {past later : List ThreadContext} {i t interval : Nat}
    {thread : CognitiveThread} (hrunning : ∀ c ∈ past ++ later, ∀ n, c.shutdown n = false)
    (hthread : threads[i]? = some thread) (hpriority : thread.priority ≠ .critical)
    (hfailed : (historyOf i (.withBudget budget threads) past).getLast? = some (t, false))
    (hinterval : intervalSecs thread.policy = some interval)
    (hbudget : (threads.countP fun thread => thread.priority ≠ .critical) ≤ budget)
    (hwaiting : ∀ c ∈ later, c.nowEpoch <
      max (releasedAt (historyOf i (.withBudget budget threads) past) t)
        (saturatingAdd t interval)) :
    historyOf i (.withBudget budget threads) (past ++ later) =
      historyOf i (.withBudget budget threads) past := by
  induction later using List.reverseRecOn with
  | nil => rw [List.append_nil]
  | append_singleton later c ih =>
    rw [← List.append_assoc] at hrunning ⊢
    have hsame := ih (fun d hd => hrunning d (List.mem_append_left _ hd))
      fun d hd => hwaiting d (List.mem_append_left _ hd)
    have hless := hwaiting c (List.mem_append_right _ List.mem_cons_self)
    rw [← hsame] at hfailed hless
    have hnot : i ∉ (mindMachine.run (.withBudget budget threads) (past ++ later)).ticked c := by
      rw [ticked_failed_iff (fun d hd => hrunning d (List.mem_append_left _ hd))
        (hrunning c (List.mem_append_right _ List.mem_cons_self)) hthread hpriority hfailed
        hinterval hbudget]
      omega
    rw [historyOf_concat, if_neg hnot, List.append_nil]
    exact hsame

end Runs

/-- A call ticks the critical threads that are due before all others, and of these no more
than the budget allows and none before a more urgent one. -/
structure Served (mind : Mind) (ctx : ThreadContext) (criticals others : List Nat) : Prop where
  order : mind.ticked ctx = criticals ++ others
  critical : ∀ i, i ∈ criticals ↔ ∃ entry, mind.threads[i]? = some entry ∧
    entry.thread.priority = .critical ∧ entry.thread.enabled = true ∧
      entry.isDue ctx.nowEpoch = true
  noncritical : ∀ i ∈ others, ∃ entry, mind.threads[i]? = some entry ∧
    entry.thread.priority ≠ .critical
  budget : others.length ≤ mind.maxNoncriticalPerTick
  urgent : ∀ i ∈ others, ∀ j entry entry', mind.threads[i]? = some entry →
    mind.threads[j]? = some entry' → entry'.thread.priority ≠ .critical →
    entry'.thread.enabled = true → entry'.isBackedOff ctx.nowEpoch = false →
    entry'.isDue ctx.nowEpoch = true → entry'.thread.priority.rank < entry.thread.priority.rank →
    j ∈ others
  /-- What a thread's bookkeeping becomes rests on that thread's own tick alone. -/
  isolated : ∀ j entry, mind.threads[j]? = some entry →
    (mind.runDue ctx).1.threads[j]? = some (if j ∈ mind.ticked ctx then
      (execute entry (ctx.ticks j) ctx.nowEpoch (entry.thread.priority = .critical)).1 else entry)

theorem served (mind : Mind) {ctx : ThreadContext} (hrunning : ∀ n, ctx.shutdown n = false) :
    Served mind ctx (Mind.dueCritical ctx mind) (Mind.chosen ctx mind) where
  order := Mind.ticked_eq ctx mind hrunning
  critical i := by
    rw [Mind.mem_dueCritical]
    simp only [Mind.criticalDue, Bool.and_eq_true, decide_eq_true_eq, and_assoc]
  noncritical i hi := by
    obtain ⟨entry, hentry, hdue⟩ :=
      (Mind.mem_dueOthers ctx mind).mp ((Mind.chosen_subperm ctx mind).subset hi)
    simp only [Mind.noncriticalDue, Bool.and_eq_true, decide_eq_true_eq] at hdue
    exact ⟨entry, hentry, hdue.1.1.1⟩
  budget := Mind.length_chosen_le ctx mind
  urgent i hi j entry entry' hentry hentry' hpriority henabled hfree hdue hrank := by
    apply Mind.mem_chosen_of_rank_lt ctx mind hi
    · rw [Mind.mem_dueOthers]
      refine ⟨entry', hentry', ?_⟩
      simp [Mind.noncriticalDue, hpriority, henabled, hfree, hdue]
    · rw [Mind.rankAt, Mind.rankAt, hentry, hentry']
      exact hrank
  isolated j entry hentry := (ticked_cases hrunning hentry).2

/-- Every call of a run serves its threads in order; a thread that failed is not ticked before
it is released, and with a budget for all it is ticked in the first call at or after its
release and its next cadence. -/
theorem mind_guarantees (threads : List CognitiveThread) (budget : Nat)
    (past later : List ThreadContext) (ctx : ThreadContext)
    (hrunning : ∀ c ∈ past ++ later ++ [ctx], ∀ n, c.shutdown n = false) :
    (∃ criticals others, Served (mindMachine.run (.withBudget budget threads) (past ++ later)) ctx
      criticals others) ∧
    ∀ i thread t, threads[i]? = some thread → thread.priority ≠ .critical →
      (historyOf i (.withBudget budget threads) past).getLast? = some (t, false) →
      (i ∈ (mindMachine.run (.withBudget budget threads) (past ++ later)).ticked ctx →
        historyOf i (.withBudget budget threads) (past ++ later) =
          historyOf i (.withBudget budget threads) past →
        releasedAt (historyOf i (.withBudget budget threads) past) t ≤ ctx.nowEpoch) ∧
      ∃ interval, intervalSecs thread.policy = some interval ∧
        ((threads.countP fun thread => thread.priority ≠ .critical) ≤ budget →
          (∀ c ∈ later, c.nowEpoch < max
            (releasedAt (historyOf i (.withBudget budget threads) past) t)
            (saturatingAdd t interval)) →
          max (releasedAt (historyOf i (.withBudget budget threads) past) t)
            (saturatingAdd t interval) ≤ ctx.nowEpoch →
          historyOf i (.withBudget budget threads) (past ++ later) =
            historyOf i (.withBudget budget threads) past ∧
          i ∈ (mindMachine.run (.withBudget budget threads) (past ++ later)).ticked ctx) := by
  have hnext : ∀ n, ctx.shutdown n = false :=
    hrunning ctx (List.mem_append_right _ List.mem_cons_self)
  have hbefore : ∀ c ∈ past ++ later, ∀ n, c.shutdown n = false :=
    fun c hc => hrunning c (List.mem_append_left _ hc)
  refine ⟨⟨_, _, served _ hnext⟩, ?_⟩
  intro i thread t hthread hpriority hfailed
  constructor
  · intro hticked hsame
    rw [← hsame] at hfailed ⊢
    exact releasedAt_le_of_ticked hbefore hnext hthread hpriority hfailed hticked
  · have hpast : ∀ c ∈ past, ∀ n, c.shutdown n = false :=
      fun c hc => hbefore c (List.mem_append_left _ hc)
    obtain ⟨entry, -, haccount⟩ := @accounted_run threads budget past hpast i thread hthread
    have hne : historyOf i (.withBudget budget threads) past ≠ [] := by
      intro hnil
      rw [hnil] at hfailed
      cases hfailed
    obtain ⟨interval, hinterval⟩ := Option.isSome_iff_exists.mp (haccount.schedule hne).2
    refine ⟨interval, hinterval, ?_⟩
    intro hbudget hwaiting hnow
    have hkept := history_waiting hbefore hthread hpriority hfailed hinterval hbudget hwaiting
    refine ⟨hkept, ?_⟩
    rw [← hkept] at hfailed hnow
    rw [ticked_failed_iff hbefore hnext hthread hpriority hfailed hinterval hbudget]
    exact max_le_iff.mp hnow

theorem panicked_thread_returns :
    0 ∈ (mindMachine.run (.withBudget 1 [⟨"maintenance", .interval 60, .low, true⟩])
      ([⟨1000, fun _ => .panicked, fun _ => false⟩] ++
        [⟨1030, fun _ => .panicked, fun _ => false⟩])).ticked
      ⟨1060, fun _ => .panicked, fun _ => false⟩ := by
  obtain ⟨-, interval, hinterval, hreturns⟩ :=
    (mind_guarantees [⟨"maintenance", .interval 60, .low, true⟩] 1
      [⟨1000, fun _ => .panicked, fun _ => false⟩] [⟨1030, fun _ => .panicked, fun _ => false⟩]
      ⟨1060, fun _ => .panicked, fun _ => false⟩ (by simp)).2 0 _ 1000 rfl (by decide)
      (by decide)
  obtain rfl : 60 = interval := Option.some.inj hinterval
  refine (hreturns (by decide) ?_ (by decide)).2
  intro c hc
  rw [List.mem_singleton.mp hc]
  decide

/-- At the last second the clock has, a backoff that would reach beyond it is over. -/
theorem backoff_cut_at_the_last_second :
    ¬ ∀ (threads : List CognitiveThread) (budget : Nat) (past : List ThreadContext)
      (ctx : ThreadContext), (∀ c ∈ past ++ [ctx], ∀ n, c.shutdown n = false) →
      (∀ c ∈ past ++ [ctx], c.nowEpoch < 2 ^ 64) →
      (past ++ [ctx]).Pairwise (fun a b => a.nowEpoch ≤ b.nowEpoch) →
      ∀ i thread t, threads[i]? = some thread → thread.priority ≠ .critical →
        (historyOf i (.withBudget budget threads) past).getLast? = some (t, false) →
        i ∈ (mindMachine.run (.withBudget budget threads) past).ticked ctx →
        t + min (30 * 2 ^ failuresInARow (historyOf i (.withBudget budget threads) past)) 1800 ≤
          ctx.nowEpoch := by
  intro hclaim
  have hearly := hclaim [⟨"maintenance", .interval 60, .low, true⟩] 1
    [⟨2 ^ 64 - 10, fun _ => .panicked, fun _ => false⟩]
    ⟨2 ^ 64 - 1, fun _ => .panicked, fun _ => false⟩ (by simp) (by simp) (by simp) 0 _
    (2 ^ 64 - 10) rfl (by decide) (by decide) (by decide)
  have hfailures : failuresInARow (historyOf 0 (.withBudget 1
      [⟨"maintenance", .interval 60, .low, true⟩])
      [⟨2 ^ 64 - 10, fun _ => .panicked, fun _ => false⟩]) = 1 := by decide
  rw [hfailures] at hearly
  exact absurd hearly (by decide)

end Simard.CognitiveThreads
