import Mathlib

/-! A counting semaphore: a number under a lock and a queue of sleepers. Threads are told apart by
where they stand. No permit is lost, and a thread that sleeps while there is a permit is not alone:
another one has been woken for it or is about to look. -/
namespace Simard.Library

def total {α : Type} (weight : Nat → α → Nat) (stages : Nat → α) (n : Nat) : Nat :=
  ∑ k ∈ Finset.range n, weight k (stages k)

section Total

variable {α : Type} {weight : Nat → α → Nat} {stages : Nat → α} {n k : Nat}

theorem total_update (hk : k < n) (stage : α) :
    total weight (Function.update stages k stage) n + weight k (stages k) =
      total weight stages n + weight k stage := by
  have hmem : k ∈ Finset.range n := Finset.mem_range.mpr hk
  have hrest : ∑ i ∈ (Finset.range n).erase k, weight i (Function.update stages k stage i) =
      ∑ i ∈ (Finset.range n).erase k, weight i (stages i) :=
    Finset.sum_congr rfl fun i hi => by rw [Function.update_of_ne (Finset.ne_of_mem_erase hi)]
  unfold total
  rw [← Finset.sum_erase_add _ _ hmem, ← Finset.sum_erase_add _ _ hmem, hrest, Function.update_self]
  omega

theorem total_eq_zero (h : ∀ k < n, weight k (stages k) = 0) : total weight stages n = 0 :=
  Finset.sum_eq_zero fun k hk => h k (Finset.mem_range.mp hk)

end Total

def Guarded {α : Type} (n : Nat) (lock : Option Nat) (holds : α → Bool) (stages : Nat → α) : Prop :=
  ∀ k, lock = some k ↔ k < n ∧ holds (stages k) = true

theorem Guarded.update {α : Type} {n k : Nat} {lock : Option Nat} {holds : α → Bool}
    {stages : Nat → α}
    (h : Guarded n lock holds stages) (hk : k < n) {old : α} (hold : stages k = old) (stage : α)
    (hfree : holds stage = true → holds old = true ∨ lock = none) :
    Guarded n (if holds stage then some k else if holds old then none else lock) holds
      (Function.update stages k stage) := by
  subst hold
  intro i
  by_cases hi : i = k
  · subst hi
    rw [Function.update_self]
    cases hstage : holds stage with
    | true => simp [hk]
    | false =>
      cases hheld : holds (stages i) with
      | true => simp
      | false => simp [h i, hheld]
  · rw [Function.update_of_ne hi]
    have hother : holds (stages k) = true ∨ lock = none → ¬ (i < n ∧ holds (stages i) = true) := by
      rintro (hheld | hnone) hlocked
      · have hboth := ((h k).mpr ⟨hk, hheld⟩).symm.trans ((h i).mpr hlocked)
        exact hi (Option.some.inj hboth).symm
      · exact absurd ((h i).mpr hlocked) (hnone ▸ nofun)
    cases hstage : holds stage with
    | true =>
      have hnot := hother (hfree hstage)
      simp [Ne.symm hi, hnot]
    | false =>
      cases hheld : holds (stages k) with
      | true =>
        have hnot := hother (.inl hheld)
        simp [hnot]
      | false => simpa using h i

theorem Guarded.keep {α : Type} {n k : Nat} {lock : Option Nat} {holds : α → Bool}
    {stages : Nat → α}
    (h : Guarded n lock holds stages) {old : α} (hold : stages k = old) (stage : α)
    (hsame : holds old = holds stage) : Guarded n lock holds (Function.update stages k stage) := by
  subst hold
  intro i
  by_cases hi : i = k
  · rw [hi, Function.update_self, ← hsame]
    exact h k
  · rw [Function.update_of_ne hi]
    exact h i

/-- Where a thread stands: not at the semaphore, before its lock, with the lock and about to look,
asleep, woken and before the lock again, past it with a permit, before the lock with a permit to
give back, and with the lock to do so. -/
inductive SemaphoreGate where
  | outside
  | acquiring
  | testing
  | sleeping
  | woken
  | inside
  | returning
  | releasing
  deriving DecidableEq

namespace SemaphoreGate

def holds : SemaphoreGate → Nat
  | .inside | .returning | .releasing => 1
  | _ => 0

def looks : SemaphoreGate → Nat
  | .testing | .woken => 1
  | _ => 0

def locks : SemaphoreGate → Bool
  | .testing | .releasing => true
  | _ => false

end SemaphoreGate

structure Semaphore where
  permits : Nat
  lock : Option Nat
  gates : Nat → SemaphoreGate

namespace Semaphore

/-- What one of the threads can do. A sleeper may wake without a reason; who gives back a permit
wakes a sleeper if there is one. -/
inductive Step (n : Nat) (s : Semaphore) : Semaphore → Prop where
  | stays : Step n s s
  | arrives {k : Nat} (hk : k < n) (h : s.gates k = .outside) :
      Step n s ⟨s.permits, s.lock, Function.update s.gates k .acquiring⟩
  | locks {k : Nat} (hk : k < n) (h : s.gates k = .acquiring ∨ s.gates k = .woken)
      (hfree : s.lock = none) :
      Step n s ⟨s.permits, some k, Function.update s.gates k .testing⟩
  | passes {k : Nat} (hk : k < n) (h : s.gates k = .testing) (hpermits : 0 < s.permits) :
      Step n s ⟨s.permits - 1, none, Function.update s.gates k .inside⟩
  | sleeps {k : Nat} (hk : k < n) (h : s.gates k = .testing) (hpermits : s.permits = 0) :
      Step n s ⟨s.permits, none, Function.update s.gates k .sleeping⟩
  | wakes {k : Nat} (hk : k < n) (h : s.gates k = .sleeping) :
      Step n s ⟨s.permits, s.lock, Function.update s.gates k .woken⟩
  | leaves {k : Nat} (hk : k < n) (h : s.gates k = .inside) :
      Step n s ⟨s.permits, s.lock, Function.update s.gates k .returning⟩
  | relocks {k : Nat} (hk : k < n) (h : s.gates k = .returning) (hfree : s.lock = none) :
      Step n s ⟨s.permits, some k, Function.update s.gates k .releasing⟩
  | releases {k : Nat} (hk : k < n) (h : s.gates k = .releasing)
      (hnone : ∀ j < n, s.gates j ≠ .sleeping) :
      Step n s ⟨s.permits + 1, none, Function.update s.gates k .outside⟩
  | notifies {k j : Nat} (hk : k < n) (h : s.gates k = .releasing) (hj : j < n)
      (hsleeping : s.gates j = .sleeping) :
      Step n s ⟨s.permits + 1, none,
        Function.update (Function.update s.gates k .outside) j .woken⟩

/-- How many threads have a permit, and how many are about to look for one. -/
def held (gates : Nat → SemaphoreGate) (n : Nat) : Nat :=
  total (fun _ => SemaphoreGate.holds) gates n

def looking (gates : Nat → SemaphoreGate) (n : Nat) : Nat :=
  total (fun _ => SemaphoreGate.looks) gates n

theorem held_update {gates : Nat → SemaphoreGate} {n k : Nat} (hk : k < n) (gate : SemaphoreGate) :
    held (Function.update gates k gate) n + (gates k).holds = held gates n + gate.holds :=
  total_update hk gate

theorem looking_update {gates : Nat → SemaphoreGate} {n k : Nat} (hk : k < n)
    (gate : SemaphoreGate) :
    looking (Function.update gates k gate) n + (gates k).looks = looking gates n + gate.looks :=
  total_update hk gate

/-- Permits are there or held, the lock is with the thread that is in it, and where a thread sleeps
there are no more permits than threads about to look for one. -/
structure Sound (n capacity : Nat) (s : Semaphore) : Prop where
  conserved : s.permits + held s.gates n = capacity
  locked : Guarded n s.lock SemaphoreGate.locks s.gates
  awake : (∃ k < n, s.gates k = .sleeping) → s.permits ≤ looking s.gates n

variable {n capacity : Nat} {s t : Semaphore}

theorem sound_init (capacity : Nat) (h : ∀ k, s.gates k = .outside)
    (hpermits : s.permits = capacity)
    (hlock : s.lock = none) : s.Sound n capacity where
  conserved := by
    have hheld : held s.gates n = 0 := total_eq_zero fun k _ => by rw [h k]; rfl
    rw [hheld, hpermits, Nat.add_zero]
  locked k := by
    rw [hlock, h k]
    exact iff_of_false nofun fun hlocked => Bool.noConfusion hlocked.2
  awake := by
    rintro ⟨k, -, hsleeping⟩
    rw [h k] at hsleeping
    cases hsleeping

theorem exists_sleeping_of_update {k : Nat} {gates : Nat → SemaphoreGate} {gate : SemaphoreGate}
    (hgate : gate ≠ .sleeping) (h : ∃ i < n, Function.update gates k gate i = .sleeping) :
    ∃ i < n, gates i = .sleeping := by
  obtain ⟨i, hi, hsleeping⟩ := h
  by_cases hk : i = k
  · rw [hk, Function.update_self] at hsleeping
    exact absurd hsleeping hgate
  · rw [Function.update_of_ne hk] at hsleeping
    exact ⟨i, hi, hsleeping⟩

/-- One thread moves. It takes or gives back what permits there are more or fewer, and where it does
not go to sleep with none left there are as many about to look. -/
theorem Sound.moves (h : s.Sound n capacity) {k : Nat} (hk : k < n) {old : SemaphoreGate}
    (hold : s.gates k = old) (gate : SemaphoreGate) {permits : Nat}
    (hholds : permits + gate.holds = s.permits + old.holds)
    (hfree : gate.locks = true → old.locks = true ∨ s.lock = none)
    (hlooks : permits = 0 ∨ gate ≠ .sleeping ∧ permits + old.looks ≤ s.permits + gate.looks) :
    Sound n capacity ⟨permits, if gate.locks then some k else if old.locks then none else s.lock,
      Function.update s.gates k gate⟩ where
  conserved := by
    have hconserved := h.conserved
    have hheld := @held_update s.gates n k hk gate
    rw [hold] at hheld
    dsimp only
    omega
  locked := h.locked.update hk hold gate hfree
  awake hsleeping := by
    dsimp only at hsleeping ⊢
    rcases hlooks with hzero | ⟨hgate, hlooks⟩
    · omega
    · have hawake := h.awake (exists_sleeping_of_update hgate hsleeping)
      have hlooking := @looking_update s.gates n k hk gate
      rw [hold] at hlooking
      omega

theorem Sound.notifies (h : s.Sound n capacity) {k j : Nat} (hk : k < n)
    (hgate : s.gates k = .releasing)
    (hj : j < n) (hsleeping : s.gates j = .sleeping) :
    Sound n capacity ⟨s.permits + 1, none,
      Function.update (Function.update s.gates k .outside) j .woken⟩ := by
  have hne : j ≠ k := by
    rintro rfl
    rw [hgate] at hsleeping
    cases hsleeping
  have hstill : Function.update s.gates k .outside j = .sleeping := by
    rw [Function.update_of_ne hne, hsleeping]
  have hheldk := @held_update s.gates n k hk .outside
  have hheldj := @held_update (Function.update s.gates k .outside) n j hj .woken
  have hlookingk := @looking_update s.gates n k hk .outside
  have hlookingj := @looking_update (Function.update s.gates k .outside) n j hj .woken
  rw [hgate] at hheldk hlookingk
  rw [hstill] at hheldj hlookingj
  dsimp only [SemaphoreGate.holds, SemaphoreGate.looks] at hheldk hheldj hlookingk hlookingj
  have hconserved := h.conserved
  have hawake := h.awake ⟨j, hj, hsleeping⟩
  refine ⟨?_, ?_, fun _ => ?_⟩
  · dsimp only
    omega
  · exact (h.locked.update hk hgate .outside nofun).update hj hstill .woken nofun
  · dsimp only
    omega

theorem Sound.releases (h : s.Sound n capacity) {k : Nat} (hk : k < n)
    (hgate : s.gates k = .releasing) (hnone : ∀ j < n, s.gates j ≠ .sleeping) :
    Sound n capacity ⟨s.permits + 1, none, Function.update s.gates k .outside⟩ where
  conserved := by
    have hconserved := h.conserved
    have hheld := @held_update s.gates n k hk .outside
    rw [hgate] at hheld
    dsimp only [SemaphoreGate.holds] at hheld ⊢
    omega
  locked := h.locked.update hk hgate .outside nofun
  awake hsleeping := by
    obtain ⟨j, hj, hsleeping⟩ := exists_sleeping_of_update (by decide) hsleeping
    exact absurd hsleeping (hnone j hj)

theorem Sound.step (h : s.Sound n capacity) (hstep : Step n s t) : t.Sound n capacity := by
  cases hstep with
  | stays => exact h
  | arrives hk hgate => exact h.moves hk hgate .acquiring rfl nofun (.inr ⟨by decide, le_rfl⟩)
  | locks hk hgate hfree =>
    rcases hgate with hgate | hgate
    · exact h.moves hk hgate .testing rfl (fun _ => .inr hfree) (.inr ⟨by decide, Nat.le_succ _⟩)
    · exact h.moves hk hgate .testing rfl (fun _ => .inr hfree) (.inr ⟨by decide, le_rfl⟩)
  | passes hk hgate hpermits =>
    exact h.moves hk hgate .inside (Nat.sub_add_cancel hpermits) nofun
      (.inr ⟨by decide, (Nat.sub_add_cancel hpermits).le⟩)
  | sleeps hk hgate hpermits => exact h.moves hk hgate .sleeping rfl nofun (.inl hpermits)
  | wakes hk hgate => exact h.moves hk hgate .woken rfl nofun (.inr ⟨by decide, Nat.le_succ _⟩)
  | leaves hk hgate => exact h.moves hk hgate .returning rfl nofun (.inr ⟨by decide, le_rfl⟩)
  | relocks hk hgate hfree =>
    exact h.moves hk hgate .releasing rfl (fun _ => .inr hfree) (.inr ⟨by decide, le_rfl⟩)
  | releases hk hgate hnone => exact h.releases hk hgate hnone
  | notifies hk hgate hj hsleeping => exact h.notifies hk hgate hj hsleeping

theorem Sound.held_le (h : s.Sound n capacity) : held s.gates n ≤ capacity := by
  have hconserved := h.conserved
  omega

/-- A sleeper is not alone: some other thread is on its way to the semaphore or back from it. -/
theorem Sound.exists_awake (h : s.Sound n capacity) (hcapacity : 0 < capacity)
    {k : Nat} (hk : k < n)
    (hsleeping : s.gates k = .sleeping) :
    ∃ j < n, s.gates j ≠ .outside ∧ s.gates j ≠ .sleeping := by
  by_contra hnone
  push Not at hnone
  have hidle : ∀ j < n, s.gates j = .outside ∨ s.gates j = .sleeping := by
    intro j hj
    by_cases hout : s.gates j = .outside
    · exact .inl hout
    · exact .inr (hnone j hj hout)
  have hheld : held s.gates n = 0 :=
    total_eq_zero fun j hj => by rcases hidle j hj with hgate | hgate <;> rw [hgate] <;> rfl
  have hlooking : looking s.gates n = 0 :=
    total_eq_zero fun j hj => by rcases hidle j hj with hgate | hgate <;> rw [hgate] <;> rfl
  have hconserved := h.conserved
  have hawake := h.awake ⟨k, hk, hsleeping⟩
  omega

end Semaphore

end Simard.Library
