import Mathlib

/-! Draining a queue by batches. Each pass takes the first of the queue, as many as a batch has,
and removes those that can be removed; the rest stay where they are and are taken again. -/
namespace Simard.Library

section Drain

variable {α : Type*} (size : Nat) (stuck : α → Bool)

/-- One pass: of the first in the queue those that are stuck stay. -/
def drain (queue : List α) : List α := (queue.take size).filter stuck ++ queue.drop size

/-- Whoever can be removed has room in the batch behind those that are stuck before it. -/
def Unblocked (queue : List α) : Prop :=
  ∀ before a after, queue = before ++ a :: after → stuck a = false → before.countP stuck < size

variable {size stuck} {queue : List α}

theorem countP_drain_lt {a : α} (ha : a ∈ queue.take size) (hfree : stuck a = false) :
    (drain size stuck queue).countP (fun b => !stuck b) < queue.countP fun b => !stuck b := by
  conv_rhs => rw [← List.take_append_drop size queue]
  rw [drain, List.countP_append, List.countP_append, List.countP_filter, Nat.add_lt_add_iff_right]
  have hnone : ((queue.take size).countP fun b => !stuck b && stuck b) = 0 := by
    rw [List.countP_eq_zero]
    intro b _
    simp
  rw [hnone, List.countP_pos_iff]
  exact ⟨a, ha, by simp [hfree]⟩

theorem countP_take_filter (queue : List α) :
    ((queue.take size).filter stuck).countP stuck = (queue.take size).countP stuck := by
  rw [List.countP_filter]
  simp only [Bool.and_self]

/-- Behind the batch of a pass stands what stood behind it before. -/
theorem Unblocked.drain (h : Unblocked size stuck queue) :
    Unblocked size stuck (drain size stuck queue) := by
  intro before a after hqueue hfree
  have hbehind (middle : List α) (hbefore : before = (queue.take size).filter stuck ++ middle)
      (hdrop : queue.drop size = middle ++ a :: after) : before.countP stuck < size := by
    rw [hbefore, List.countP_append, countP_take_filter, ← List.countP_append]
    refine h (queue.take size ++ middle) a after ?_ hfree
    rw [List.append_assoc, ← hdrop, List.take_append_drop]
  rw [Library.drain, List.append_eq_append_iff] at hqueue
  rcases hqueue with ⟨middle, hbefore, hdrop⟩ | ⟨middle, htake, hdrop⟩
  · exact hbehind middle hbefore hdrop
  · cases middle with
    | nil =>
      rw [List.append_nil] at htake
      exact hbehind [] (by rw [htake, List.append_nil]) hdrop.symm
    | cons b middle =>
      -- nothing that is left of the batch can be removed
      obtain ⟨rfl, -⟩ := List.cons.inj hdrop
      have hmem : a ∈ (queue.take size).filter stuck := by
        rw [htake]
        exact List.mem_append_right _ List.mem_cons_self
      rw [(List.mem_filter.mp hmem).2] at hfree
      cases hfree

/-- Whoever can be removed and has a full batch of stuck ones before it, is never reached. -/
theorem mem_iterate_drain {before after : List α} {a : α} (hqueue : queue = before ++ a :: after)
    (hblocked : size ≤ before.countP stuck) (n : Nat) : a ∈ (drain size stuck)^[n] queue := by
  induction n generalizing queue before with
  | zero =>
    rw [Function.iterate_zero_apply, hqueue]
    exact List.mem_append_right _ List.mem_cons_self
  | succ n ih =>
    have hlength : size ≤ before.length := hblocked.trans List.countP_le_length
    have hdrained : drain size stuck queue =
        ((before.take size).filter stuck ++ before.drop size) ++ a :: after := by
      rw [drain, hqueue, List.take_append_of_le_length hlength,
        List.drop_append_of_le_length hlength, List.append_assoc]
    rw [Function.iterate_succ_apply]
    refine ih hdrained ?_
    rw [List.countP_append, countP_take_filter, ← List.countP_append, List.take_append_drop]
    exact hblocked

/-- While someone can be removed, the next pass removes someone. -/
theorem Unblocked.exists_in_batch (h : Unblocked size stuck queue)
    (hfree : ∃ a ∈ queue, stuck a = false) : ∃ a ∈ queue.take size, stuck a = false := by
  by_contra hbatch
  push Not at hbatch
  obtain ⟨a, ha, hafree⟩ := hfree
  rw [← List.take_append_drop size queue, List.mem_append] at ha
  have hlate : a ∈ queue.drop size := by
    refine ha.resolve_left fun hearly => ?_
    exact hbatch a hearly hafree
  obtain ⟨middle, after, hdrop⟩ := List.append_of_mem hlate
  have hroom := h (queue.take size ++ middle) a after
    (by rw [List.append_assoc, ← hdrop, List.take_append_drop]) hafree
  have hall : (queue.take size).countP stuck = (queue.take size).length := by
    rw [List.countP_eq_length]
    intro b hb
    exact Bool.ne_false_iff.mp (hbatch b hb)
  have hlength : size < queue.length := by
    by_contra hshort
    rw [List.drop_eq_nil_of_le (Nat.le_of_not_lt hshort)] at hlate
    cases hlate
  rw [List.countP_append, hall, List.length_take, Nat.min_eq_left hlength.le] at hroom
  omega

theorem Unblocked.drains (h : Unblocked size stuck queue) :
    ∃ n, ∀ a ∈ (Library.drain size stuck)^[n] queue, stuck a = true := by
  -- on how many can be removed
  induction hcount : queue.countP (fun b => !stuck b) using Nat.strong_induction_on
    generalizing queue with
  | _ count ih =>
    by_cases hfree : ∃ a ∈ queue, stuck a = false
    · obtain ⟨a, ha, hafree⟩ := h.exists_in_batch hfree
      obtain ⟨n, hn⟩ := ih _ (hcount ▸ countP_drain_lt ha hafree) h.drain rfl
      exact ⟨n + 1, hn⟩
    · refine ⟨0, fun a ha => ?_⟩
      by_contra hstuck
      exact hfree ⟨a, ha, Bool.eq_false_iff.mpr hstuck⟩

/-- The passes remove all that can be removed, exactly if nobody is blocked. -/
theorem drains_iff :
    (∃ n, ∀ a ∈ (drain size stuck)^[n] queue, stuck a = true) ↔ Unblocked size stuck queue := by
  constructor
  · rintro ⟨n, hn⟩ before a after hqueue hfree
    by_contra hblocked
    have hstuck := hn a (mem_iterate_drain hqueue (Nat.le_of_not_lt hblocked) n)
    rw [hfree] at hstuck
    cases hstuck
  · exact Unblocked.drains

end Drain

end Simard.Library
