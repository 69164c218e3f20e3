import Simard.Library.Machine
import Simard.Library.Text

/-! How many actions a cycle may take at once. The limit is halved under pressure and after a rate
limit, and goes up by one where there is little; it stays between its bounds unless the upper one is
the largest number there is, past which the addition runs. -/
namespace Simard.Ooda
open Simard.Library

def highPressureThreshold : ℚ := 3602879701896397 / 4503599627370496

def lowPressureThreshold : ℚ := 5404319552844595 / 18014398509481984

def errorWindowSecs : Nat := 300

inductive Pressure where
  | high
  | middle
  | low
  deriving DecidableEq

def systemPressure (cpu mem : Option ℚ) : ℚ := max (cpu.getD 0) (mem.getD 0)

def pressure (cpu mem : Option ℚ) : Pressure :=
  if highPressureThreshold < systemPressure cpu mem then .high
  else if systemPressure cpu mem < lowPressureThreshold then .low
  else .middle

/-- The limit, its bounds, the times of rate limits, and whether an addition went past 32 bits. -/
structure AdaptiveScaler where
  current : Nat
  floor : Nat
  ceiling : Nat
  errorTimestamps : List Nat
  overflowed : Bool
  deriving DecidableEq

namespace AdaptiveScaler

def new (initial floor ceiling : UInt32) : AdaptiveScaler :=
  let floor := max floor.toNat 1
  let ceiling := max ceiling.toNat floor
  ⟨min (max initial.toNat floor) ceiling, floor, ceiling, [], false⟩

variable (scaler : AdaptiveScaler)

def recent (now : Nat) : List Nat :=
  scaler.errorTimestamps.filter fun t => now - errorWindowSecs ≤ t

/-- Half of a number of 32 bits is exact as a double; it is rounded down. -/
def adjustWithSamples (now : Nat) (cpu mem : Option ℚ) : AdaptiveScaler :=
  let recent := scaler.recent now
  if recent ≠ [] ∨ pressure cpu mem = .high then
    { scaler with errorTimestamps := recent, current := max (scaler.current / 2) scaler.floor }
  else if pressure cpu mem = .low then
    { scaler with
      errorTimestamps := recent
      current := min ((scaler.current + 1) % 2 ^ 32) scaler.ceiling
      overflowed := scaler.overflowed || 2 ^ 32 ≤ scaler.current + 1 }
  else { scaler with errorTimestamps := recent }

def isRateLimit (reason : String) : Bool :=
  containsText "429".toList (asciiLowercase reason) ||
    containsText "rate limit".toList (asciiLowercase reason)

def reportReason (now : Nat) (reason : String) : AdaptiveScaler :=
  if isRateLimit reason then { scaler with errorTimestamps := scaler.errorTimestamps ++ [now] }
  else scaler

end AdaptiveScaler

inductive ScalerCall where
  | reportReason (reason : String)
  | adjustWithSamples (cpu mem : Option ℚ)

structure TimedCall where
  now : Nat
  call : ScalerCall

def scalerMachine : Machine AdaptiveScaler TimedCall where
  step scaler timed :=
    match timed.call with
    | .reportReason reason => scaler.reportReason timed.now reason
    | .adjustWithSamples cpu mem => scaler.adjustWithSamples timed.now cpu mem

def Ordered (calls : List TimedCall) : Prop := (calls.map TimedCall.now).Pairwise (· ≤ ·)

/-- The step halves the limit: there was a rate limit in the window, or pressure is high. -/
def Halves (step : Machine.Transition AdaptiveScaler TimedCall) : Prop :=
  ∃ cpu mem, step.event.call = .adjustWithSamples cpu mem ∧
    (step.before.recent step.event.now ≠ [] ∨ pressure cpu mem = .high)

/-- The step adds to the limit: pressure is low and there was no rate limit. -/
def Raises (step : Machine.Transition AdaptiveScaler TimedCall) : Prop :=
  ∃ cpu mem, step.event.call = .adjustWithSamples cpu mem ∧
    step.before.recent step.event.now = [] ∧ pressure cpu mem = .low

namespace AdaptiveScaler

variable {scaler : AdaptiveScaler} {f c : Nat}

/-- The bounds are these, the limit is within them, and no addition went wrong. -/
structure Within (f c : Nat) (scaler : AdaptiveScaler) : Prop where
  floor : scaler.floor = f
  ceiling : scaler.ceiling = c
  above : f ≤ scaler.current
  below : scaler.current ≤ c
  exact : scaler.overflowed = false

theorem within_new (initial floor ceiling : UInt32) :
    (new initial floor ceiling).Within (max floor.toNat 1)
    (max ceiling.toNat (max floor.toNat 1)) where
  floor := rfl
  ceiling := rfl
  above := le_min (le_max_right _ _) (le_max_right _ _)
  below := min_le_right _ _
  exact := rfl

theorem adjust_cases (scaler : AdaptiveScaler) (now : Nat) (cpu mem : Option ℚ) :
    ((scaler.recent now ≠ [] ∨ pressure cpu mem = .high) ∧
      scaler.adjustWithSamples now cpu mem = { scaler with
        errorTimestamps := scaler.recent now, current := max (scaler.current / 2) scaler.floor }) ∨
    (scaler.recent now = [] ∧ pressure cpu mem = .low ∧
      scaler.adjustWithSamples now cpu mem = { scaler with
        errorTimestamps := scaler.recent now
        current := min ((scaler.current + 1) % 2 ^ 32) scaler.ceiling
        overflowed := scaler.overflowed || 2 ^ 32 ≤ scaler.current + 1 }) ∨
    (scaler.recent now = [] ∧ pressure cpu mem = .middle ∧
      scaler.adjustWithSamples now cpu mem =
        { scaler with errorTimestamps := scaler.recent now }) := by
  unfold adjustWithSamples
  by_cases hdown : scaler.recent now ≠ [] ∨ pressure cpu mem = .high
  · exact .inl ⟨hdown, if_pos hdown⟩
  · obtain ⟨hquiet, hhigh⟩ := not_or.mp hdown
    rw [not_ne_iff] at hquiet
    dsimp only
    rw [if_neg hdown]
    cases hpressure : pressure cpu mem with
    | high => exact absurd hpressure hhigh
    | middle => exact .inr (.inr ⟨hquiet, rfl, rfl⟩)
    | low => exact .inr (.inl ⟨hquiet, rfl, rfl⟩)

theorem Within.adjust (h : scaler.Within f c) (hc : c + 1 < 2 ^ 32) (now : Nat)
    (cpu mem : Option ℚ) :
    (scaler.adjustWithSamples now cpu mem).Within f c := by
  obtain ⟨hfloor, hceiling, habove, hbelow, hexact⟩ := h
  obtain ⟨-, heq⟩ | ⟨-, -, heq⟩ | ⟨-, -, heq⟩ := scaler.adjust_cases now cpu mem
  · rw [heq]
    refine ⟨hfloor, hceiling, ?_, ?_, hexact⟩
    · exact hfloor ▸ le_max_right _ _
    · dsimp only
      omega
  · have hsum : (scaler.current + 1) % 2 ^ 32 = scaler.current + 1 := Nat.mod_eq_of_lt (by omega)
    rw [heq]
    refine ⟨hfloor, hceiling, ?_, ?_, ?_⟩
    · dsimp only
      omega
    · exact hceiling ▸ min_le_right _ _
    · dsimp only
      rw [hexact, Bool.false_or, decide_eq_false_iff_not]
      omega
  · rw [heq]
    exact ⟨hfloor, hceiling, habove, hbelow, hexact⟩

theorem Within.report (h : scaler.Within f c) (now : Nat) (reason : String) :
    (scaler.reportReason now reason).Within f c := by
  unfold reportReason
  split
  · exact ⟨h.floor, h.ceiling, h.above, h.below, h.exact⟩
  · exact h

theorem Within.step (h : scaler.Within f c) (hc : c + 1 < 2 ^ 32) (timed : TimedCall) :
    (scalerMachine.step scaler timed).Within f c := by
  obtain ⟨now, call⟩ := timed
  cases call with
  | reportReason reason => exact h.report now reason
  | adjustWithSamples cpu mem => exact h.adjust hc now cpu mem

theorem Within.run (h : scaler.Within f c) (hc : c + 1 < 2 ^ 32) (calls : List TimedCall) :
    (scalerMachine.run scaler calls).Within f c :=
  scalerMachine.invariant_run (P := Within f c) (fun _ timed h => h.step hc timed) h calls

theorem current_of_halves {step : Machine.Transition AdaptiveScaler TimedCall} (h : Halves step) :
    (scalerMachine.step step.before step.event).current =
      max (step.before.current / 2) step.before.floor := by
  obtain ⟨before, ⟨now, call⟩, after⟩ := step
  obtain ⟨cpu, mem, rfl, hdown⟩ := h
  change (before.adjustWithSamples now cpu mem).current = _
  obtain ⟨-, heq⟩ | ⟨hquiet, hlow, -⟩ | ⟨hquiet, hmiddle, -⟩ := before.adjust_cases now cpu mem
  · rw [heq]
  · exact absurd hdown (by simp [hquiet, hlow])
  · exact absurd hdown (by simp [hquiet, hmiddle])

theorem Within.halves (h : scaler.Within f c) (hc : c + 1 < 2 ^ 32) {calls : List TimedCall}
    (hcalls : ∀ step ∈ scalerMachine.trace scaler calls, Halves step) :
    (scalerMachine.run scaler calls).current = max f (scaler.current / 2 ^ calls.length) := by
  induction calls generalizing scaler with
  | nil =>
    rw [Machine.run_nil, List.length_nil, Nat.pow_zero, Nat.div_one]
    exact (max_eq_right h.above).symm
  | cons timed calls ih =>
    rw [Machine.trace, List.forall_mem_cons] at hcalls
    have hcurrent := current_of_halves hcalls.1
    dsimp only at hcurrent
    rw [Machine.run_cons, ih (h.step hc timed) hcalls.2, hcurrent, h.floor, List.length_cons,
      Nat.pow_succ', ← Nat.div_div_eq_div_mul]
    -- the bound is not moved by halving it
    have hfloor : f / 2 ^ calls.length ≤ f := Nat.div_le_self _ _
    have hmonotone : Monotone fun n : Nat => n / 2 ^ calls.length :=
      fun _ _ hle => Nat.div_le_div_right hle
    have hboth := hmonotone.map_max (a := scaler.current / 2) (b := f)
    rw [hboth]
    omega

theorem current_of_raises (h : scaler.Within f c) (hc : c + 1 < 2 ^ 32)
    {timed : TimedCall} (hraises : Raises ⟨scaler, timed, scalerMachine.step scaler timed⟩) :
    (scalerMachine.step scaler timed).current = min (scaler.current + 1) c := by
  obtain ⟨now, call⟩ := timed
  obtain ⟨cpu, mem, rfl, hquiet, hlow⟩ := hraises
  dsimp only at hquiet
  change (scaler.adjustWithSamples now cpu mem).current = _
  have hbelow := h.below
  have hsum : (scaler.current + 1) % 2 ^ 32 = scaler.current + 1 := Nat.mod_eq_of_lt (by omega)
  obtain ⟨hdown, -⟩ | ⟨-, -, heq⟩ | ⟨-, hmiddle, -⟩ := scaler.adjust_cases now cpu mem
  · exact absurd hdown (by simp [hquiet, hlow])
  · rw [heq]
    dsimp only
    rw [hsum, h.ceiling]
  · rw [hmiddle] at hlow
    cases hlow

theorem Within.climbs (h : scaler.Within f c) (hc : c + 1 < 2 ^ 32) {calls : List TimedCall}
    (hcalls : ∀ step ∈ scalerMachine.trace scaler calls, Raises step) :
    (scalerMachine.run scaler calls).current = min (scaler.current + calls.length) c := by
  induction calls generalizing scaler with
  | nil => exact (min_eq_left h.below).symm
  | cons timed calls ih =>
    rw [Machine.trace, List.forall_mem_cons] at hcalls
    rw [Machine.run_cons, ih (h.step hc timed) hcalls.2, current_of_raises h hc hcalls.1,
      List.length_cons]
    omega

theorem mem_step {scaler : AdaptiveScaler} {t : Nat} (h : t ∈ scaler.errorTimestamps)
    {timed : TimedCall} (hrecent : timed.now ≤ t + errorWindowSecs) :
    t ∈ (scalerMachine.step scaler timed).errorTimestamps := by
  obtain ⟨now, call⟩ := timed
  cases call with
  | reportReason reason =>
    change t ∈ (scaler.reportReason now reason).errorTimestamps
    unfold reportReason
    split
    · exact List.mem_append_left _ h
    · exact h
  | adjustWithSamples cpu mem =>
    change t ∈ (scaler.adjustWithSamples now cpu mem).errorTimestamps
    have hkept : t ∈ scaler.recent now := List.mem_filter.mpr ⟨h, by simpa using hrecent⟩
    obtain ⟨-, heq⟩ | ⟨-, -, heq⟩ | ⟨-, -, heq⟩ := scaler.adjust_cases now cpu mem
    all_goals
      rw [heq]
      exact hkept

theorem mem_run {scaler : AdaptiveScaler} {t : Nat} (h : t ∈ scaler.errorTimestamps)
    {calls : List TimedCall} (hrecent : ∀ timed ∈ calls, timed.now ≤ t + errorWindowSecs) :
    t ∈ (scalerMachine.run scaler calls).errorTimestamps := by
  induction calls generalizing scaler with
  | nil => exact h
  | cons timed calls ih =>
    rw [List.forall_mem_cons] at hrecent
    exact ih (mem_step h hrecent.1) hrecent.2

theorem Within.adjust_le (h : scaler.Within f c) {t now : Nat} (ht : t ∈ scaler.errorTimestamps)
    (hrecent : now ≤ t + errorWindowSecs) (cpu mem : Option ℚ) :
    (scaler.adjustWithSamples now cpu mem).current ≤ scaler.current := by
  have hkept : t ∈ scaler.recent now := List.mem_filter.mpr ⟨ht, by simpa using hrecent⟩
  have hfloor := h.floor
  have habove := h.above
  obtain ⟨-, heq⟩ | ⟨hquiet, -, -⟩ | ⟨hquiet, -, -⟩ := scaler.adjust_cases now cpu mem
  · rw [heq]
    dsimp only
    omega
  · exact absurd hkept (hquiet ▸ List.not_mem_nil)
  · exact absurd hkept (hquiet ▸ List.not_mem_nil)

end AdaptiveScaler

def lowest (floor : UInt32) : Nat := max floor.toNat 1

def highest (floor ceiling : UInt32) : Nat := max ceiling.toNat (lowest floor)

/-- What is promised of a scaler, whatever is called on it. -/
structure HoldsLimit (initial floor ceiling : UInt32) : Prop where
  /-- The limit stays within its bounds and no addition overflows. -/
  bounded : ∀ calls, Ordered calls →
    lowest floor ≤ (scalerMachine.run (.new initial floor ceiling) calls).current ∧
      (scalerMachine.run (.new initial floor ceiling) calls).current ≤ highest floor ceiling ∧
      (scalerMachine.run (.new initial floor ceiling) calls).overflowed = false
  /-- For 300 seconds after a rate limit was reported it is not raised. -/
  limited : ∀ before reported reason between now cpu mem,
    AdaptiveScaler.isRateLimit reason = true → now ≤ reported + 300 →
    Ordered (before ++ ⟨reported, .reportReason reason⟩ :: (between ++
      [⟨now, .adjustWithSamples cpu mem⟩])) →
    (scalerMachine.run (.new initial floor ceiling) (before ++ ⟨reported, .reportReason reason⟩ ::
      (between ++ [⟨now, .adjustWithSamples cpu mem⟩]))).current ≤
    (scalerMachine.run (.new initial floor ceiling)
      (before ++ ⟨reported, .reportReason reason⟩ :: between)).current
  /-- Consecutive decreases halve it as often, down to the lower bound. -/
  halved : ∀ before calls, Ordered (before ++ calls) →
    (∀ step ∈ scalerMachine.trace (scalerMachine.run (.new initial floor ceiling) before) calls,
      Halves step) →
    (scalerMachine.run (.new initial floor ceiling) (before ++ calls)).current =
      max (lowest floor)
        ((scalerMachine.run (.new initial floor ceiling) before).current / 2 ^ calls.length)
  /-- As many increases as there are values between the bounds lead to the upper one, and more of
  them leave it there. -/
  reached : ∀ before calls, Ordered (before ++ calls) →
    (∀ step ∈ scalerMachine.trace (scalerMachine.run (.new initial floor ceiling) before) calls,
      Raises step) →
    highest floor ceiling - lowest floor ≤ calls.length →
    (scalerMachine.run (.new initial floor ceiling) (before ++ calls)).current =
      highest floor ceiling

theorem le_of_ordered_append {before between : List TimedCall} {first last timed : TimedCall}
    (h : Ordered (before ++ first :: (between ++ [last]))) (htimed : timed ∈ between) :
    timed.now ≤ last.now := by
  have hall := List.pairwise_map.mp h
  have htail := (List.pairwise_cons.mp (List.pairwise_append.mp hall).2.1).2
  exact (List.pairwise_append.mp htail).2.2 timed htimed last List.mem_cons_self

open AdaptiveScaler in
theorem holdsLimit_of_lt {floor ceiling : UInt32} (initial : UInt32)
    (h : highest floor ceiling + 1 < 2 ^ 32) : HoldsLimit initial floor ceiling where
  bounded calls _ := by
    have hwithin := (within_new initial floor ceiling).run h calls
    exact ⟨hwithin.above, hwithin.below, hwithin.exact⟩
  limited before reported reason between now cpu mem hreason hrecent hordered := by
    have hwithin := (within_new initial floor ceiling).run h
      (before ++ ⟨reported, .reportReason reason⟩ :: between)
    have hreported : reported ∈ (scalerMachine.run (.new initial floor ceiling)
        (before ++ ⟨reported, .reportReason reason⟩ :: between)).errorTimestamps := by
      rw [Machine.run_append, Machine.run_cons]
      apply mem_run
      · change reported ∈ (reportReason _ reported reason).errorTimestamps
        rw [reportReason, if_pos hreason]
        exact List.mem_append_right _ List.mem_cons_self
      · intro timed htimed
        exact (le_of_ordered_append hordered htimed).trans hrecent
    rw [← List.cons_append, ← List.append_assoc, Machine.run_append]
    exact hwithin.adjust_le hreported hrecent cpu mem
  halved before calls _ hcalls := by
    rw [Machine.run_append]
    exact ((within_new initial floor ceiling).run h before).halves h hcalls
  reached before calls _ hcalls hlength := by
    have hwithin := (within_new initial floor ceiling).run h before
    have habove := hwithin.above
    rw [Machine.run_append, hwithin.climbs h hcalls]
    change lowest floor ≤ _ at habove
    change min _ (highest floor ceiling) = _
    omega

def quietAdjust : TimedCall := ⟨0, .adjustWithSamples none none⟩

theorem pressure_none : pressure none none = .low := by
  have hhigh : ¬ highPressureThreshold < 0 := by norm_num [highPressureThreshold]
  have hlow : (0 : ℚ) < lowPressureThreshold := by norm_num [lowPressureThreshold]
  simp [pressure, systemPressure, hhigh, hlow]

open AdaptiveScaler in
theorem errorTimestamps_quietAdjust {scaler : AdaptiveScaler} (h : scaler.errorTimestamps = []) :
    (scalerMachine.step scaler quietAdjust).errorTimestamps = [] := by
  have hquiet : scaler.recent 0 = [] := by
    rw [recent, h]
    rfl
  change (scaler.adjustWithSamples 0 none none).errorTimestamps = []
  obtain ⟨-, heq⟩ | ⟨-, -, heq⟩ | ⟨-, -, heq⟩ := scaler.adjust_cases 0 none none
  all_goals
    rw [heq]
    exact hquiet

theorem raises_quietAdjusts (n : Nat) {scaler : AdaptiveScaler} (h : scaler.errorTimestamps = []) :
    ∀ step ∈ scalerMachine.trace scaler (List.replicate n quietAdjust), Raises step := by
  induction n generalizing scaler with
  | zero => nofun
  | succ n ih =>
    rw [List.replicate_succ, Machine.trace, List.forall_mem_cons]
    refine ⟨⟨none, none, rfl, ?_, pressure_none⟩, ih (errorTimestamps_quietAdjust h)⟩
    dsimp only
    rw [AdaptiveScaler.recent, h]
    rfl

theorem errorTimestamps_quietAdjusts (n : Nat) {scaler : AdaptiveScaler}
    (h : scaler.errorTimestamps = []) :
    (scalerMachine.run scaler (List.replicate n quietAdjust)).errorTimestamps = [] := by
  induction n generalizing scaler with
  | zero => exact h
  | succ n ih => exact ih (errorTimestamps_quietAdjust h)

theorem ordered_quietAdjusts (n : Nat) : Ordered (List.replicate n quietAdjust) := by
  rw [Ordered, List.map_replicate]
  exact List.pairwise_replicate.mpr (.inr le_rfl)

theorem step_quietAdjust_of_max {scaler : AdaptiveScaler} (h : scaler.errorTimestamps = [])
    (hmax : scaler.current = 2 ^ 32 - 1) :
    (scalerMachine.step scaler quietAdjust).current = 0 ∧
      (scalerMachine.step scaler quietAdjust).overflowed = true := by
  have hquiet : scaler.recent 0 = [] := by
    rw [AdaptiveScaler.recent, h]
    rfl
  change (scaler.adjustWithSamples 0 none none).current = 0 ∧
    (scaler.adjustWithSamples 0 none none).overflowed = true
  obtain ⟨hdown, -⟩ | ⟨-, -, heq⟩ | ⟨-, hmiddle, -⟩ := scaler.adjust_cases 0 none none
  · exact absurd hdown (by simp [hquiet, pressure_none])
  · rw [heq]
    simp [hmax]
  · rw [pressure_none] at hmiddle
    cases hmiddle

/-- The limit is held exactly if the upper bound is not the largest number of 32 bits. -/
theorem holdsLimit_iff (initial floor ceiling : UInt32) :
    HoldsLimit initial floor ceiling ↔ max ceiling.toNat (max floor.toNat 1) < 2 ^ 32 - 1 := by
  have hceiling := ceiling.toNat_lt
  have hfloor := floor.toNat_lt
  constructor
  · intro h
    by_contra hlarge
    have hmax : highest floor ceiling = 2 ^ 32 - 1 := by
      change max ceiling.toNat (max floor.toNat 1) = _
      omega
    -- As many increases as lead to the upper bound, and one more.
    let steps := highest floor ceiling - lowest floor
    have hreached := h.reached [] (List.replicate steps quietAdjust) (ordered_quietAdjusts _)
      (raises_quietAdjusts _ rfl) (by rw [List.length_replicate])
    have hexact := (h.bounded (List.replicate (steps + 1) quietAdjust) (ordered_quietAdjusts _)).2.2
    rw [List.nil_append, hmax] at hreached
    rw [List.replicate_succ', Machine.run_append, Machine.run_cons, Machine.run_nil,
      (step_quietAdjust_of_max (errorTimestamps_quietAdjusts _ rfl) hreached).2] at hexact
    cases hexact
  · intro h
    apply holdsLimit_of_lt
    change max ceiling.toNat (max floor.toNat 1) + 1 < 2 ^ 32
    omega

/-- One adjustment takes a scaler at the largest number below its lower bound. -/
theorem adjust_at_max_leaves_bounds :
    (scalerMachine.run (.new 4294967295 1 4294967295) [quietAdjust]).current < lowest 1 ∧
      (scalerMachine.run (.new 4294967295 1 4294967295) [quietAdjust]).overflowed = true := by
  have hstep := @step_quietAdjust_of_max (.new 4294967295 1 4294967295) rfl (by decide)
  rw [Machine.run_cons, Machine.run_nil, hstep.1]
  exact ⟨by decide, hstep.2⟩

end Simard.Ooda
