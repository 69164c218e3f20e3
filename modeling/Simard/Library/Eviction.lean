import Mathlib.Data.List.Nodup
import Mathlib.Data.List.Perm.Basic
import Mathlib.Data.List.Sort
import Mathlib.Order.Lattice

/-! A list with a bound on its length that some entries, the marked ones, give way to: the one with
the least key goes first. -/
namespace Simard.Library

section Eviction
variable {α κ : Type} [LinearOrder κ] (marked : α → Bool) (key : α → κ)

/-- The marked entries with their places, least key first and otherwise as they stand. -/
def markedEntries (l : List α) : List (α × Nat) :=
  (l.zipIdx.filter fun entry => marked entry.1).mergeSort fun a b => key a.1 ≤ key b.1

def evicted (cap : Nat) (l : List α) : List (α × Nat) :=
  (markedEntries marked key l).take (l.length - cap)

def keptEntries (cap : Nat) (l : List α) : List (α × Nat) :=
  l.zipIdx.filter fun entry => !((evicted marked key cap l).map Prod.snd).contains entry.2

/-- The list without the marked entries that are too many. -/
def keepWithin (cap : Nat) (l : List α) : List α :=
  if l.length ≤ cap then l else (keptEntries marked key cap l).map Prod.fst

variable {marked key} {cap : Nat} {l : List α}

theorem mem_markedEntries {entry : α × Nat} :
    entry ∈ markedEntries marked key l ↔ entry ∈ l.zipIdx ∧ marked entry.1 = true := by
  rw [markedEntries, (List.mergeSort_perm _ _).mem_iff, List.mem_filter]

theorem marked_of_mem_evicted {entry : α × Nat} (h : entry ∈ evicted marked key cap l) :
    entry ∈ l.zipIdx ∧ marked entry.1 = true := mem_markedEntries.mp (List.mem_of_mem_take h)

theorem eq_of_place {entry other : α × Nat} (h : entry ∈ l.zipIdx) (h' : other ∈ l.zipIdx)
    (hplace : entry.2 = other.2) : entry = other := by
  have hentry := List.mem_zipIdx_iff_getElem?.mp h
  rw [hplace, List.mem_zipIdx_iff_getElem?.mp h'] at hentry
  exact Prod.ext (Option.some.inj hentry).symm hplace

theorem mem_keptEntries {entry : α × Nat} :
    entry ∈ keptEntries marked key cap l ↔ entry ∈ l.zipIdx ∧ entry ∉ evicted marked key cap l := by
  rw [keptEntries, List.mem_filter, Bool.not_eq_true', ← Bool.not_eq_true, List.contains_iff_mem,
    List.mem_map]
  refine and_congr_right fun hentry => not_congr ⟨?_, fun h => ⟨entry, h, rfl⟩⟩
  rintro ⟨other, hother, hplace⟩
  rwa [eq_of_place hentry (marked_of_mem_evicted hother).1 hplace.symm]

/-- An entry without a mark is never dropped, nor moved. -/
theorem filter_unmarked_keepWithin (marked : α → Bool) (key : α → κ) (cap : Nat) (l : List α) :
    (keepWithin marked key cap l).filter (!marked ·) = l.filter (!marked ·) := by
  unfold keepWithin
  split
  · rfl
  have hwhole :
      l.filter (!marked ·) = (l.zipIdx.filter fun entry => !marked entry.1).map Prod.fst := by
    conv_lhs => rw [← List.zipIdx_map_fst 0 l, List.filter_map]
    rfl
  rw [hwhole, List.filter_map, keptEntries, List.filter_filter]
  congr 1
  refine List.filter_congr fun entry hentry => ?_
  cases hmark : marked entry.1 with
  | true => simp [hmark]
  | false =>
    have hkept : entry ∈ keptEntries marked key cap l := by
      rw [mem_keptEntries]
      refine ⟨hentry, fun hevicted => ?_⟩
      rw [(marked_of_mem_evicted hevicted).2] at hmark
      cases hmark
    simpa [hmark] using (List.mem_filter.mp hkept).2

theorem nodup_zipIdx (l : List α) : l.zipIdx.Nodup := by
  refine List.Nodup.of_map Prod.snd ?_
  rw [List.zipIdx_map_snd]
  exact List.nodup_range'

theorem nodup_evicted : (evicted marked key cap l).Nodup := by
  have hmarked : (markedEntries marked key l).Nodup :=
    (List.mergeSort_perm _ _).nodup_iff.mpr ((nodup_zipIdx l).filter _)
  exact hmarked.sublist (List.take_sublist _ _)

theorem perm_keptEntries (marked : α → Bool) (key : α → κ) (cap : Nat) (l : List α) :
    (keptEntries marked key cap l ++ evicted marked key cap l).Perm l.zipIdx := by
  have hapart : (keptEntries marked key cap l).Disjoint (evicted marked key cap l) :=
    fun _ hkept hevicted => (mem_keptEntries.mp hkept).2 hevicted
  have hnodup : (keptEntries marked key cap l ++ evicted marked key cap l).Nodup :=
    ((nodup_zipIdx l).filter _).append nodup_evicted hapart
  refine (List.perm_ext_iff_of_nodup hnodup (nodup_zipIdx l)).mpr fun entry => ?_
  rw [List.mem_append, mem_keptEntries]
  constructor
  · rintro (hkept | hevicted)
    · exact hkept.1
    · exact (marked_of_mem_evicted hevicted).1
  · intro hentry
    by_cases hevicted : entry ∈ evicted marked key cap l
    · exact .inr hevicted
    · exact .inl ⟨hentry, hevicted⟩

theorem length_evicted (marked : α → Bool) (key : α → κ) (cap : Nat) (l : List α) :
    (evicted marked key cap l).length = min (l.length - cap) (l.countP marked) := by
  have hmarks : (markedEntries marked key l).length = l.countP marked := by
    rw [markedEntries, List.length_mergeSort, ← List.countP_eq_length_filter]
    conv_rhs => rw [← List.zipIdx_map_fst 0 l, List.countP_map]
    rfl
  rw [evicted, List.length_take, hmarks]

theorem key_le_of_evicted {dropped kept : α × Nat} (hdropped : dropped ∈ evicted marked key cap l)
    (hkept : kept ∈ keptEntries marked key cap l) (hmark : marked kept.1 = true) :
    key dropped.1 ≤ key kept.1 := by
  have hsorted : (markedEntries marked key l).Pairwise fun a b => key a.1 ≤ key b.1 := by
    have hmerged := @List.pairwise_mergeSort _ (fun a b : α × Nat => decide (key a.1 ≤ key b.1))
      (fun a b c hab hbc => by simpa using (of_decide_eq_true hab).trans (of_decide_eq_true hbc))
      (fun a b => by simpa using le_total (key a.1) (key b.1))
      (l.zipIdx.filter fun entry => marked entry.1)
    simpa [markedEntries] using hmerged
  rw [mem_keptEntries] at hkept
  have hlater : kept ∈ (markedEntries marked key l).drop (l.length - cap) := by
    have hmem : kept ∈ markedEntries marked key l := mem_markedEntries.mpr ⟨hkept.1, hmark⟩
    rw [← List.take_append_drop (l.length - cap) (markedEntries marked key l),
      List.mem_append] at hmem
    exact hmem.resolve_left hkept.2
  rw [← List.take_append_drop (l.length - cap) (markedEntries marked key l),
    List.pairwise_append] at hsorted
  exact hsorted.2.2 dropped hdropped kept hlater

/-- A list that is too long gives way to its bound, or to its entries without a mark if these are
more: what is dropped is marked, and of the marked entries the first by their keys. -/
theorem keepWithin_spec (marked : α → Bool) (key : α → κ) (cap : Nat) (l : List α) :
    ∃ dropped, (keepWithin marked key cap l ++ dropped).Perm l ∧
      (keepWithin marked key cap l).Sublist l ∧
      (dropped ≠ [] →
        (keepWithin marked key cap l).length =
          max cap ((keepWithin marked key cap l).countP (!marked ·))) ∧
      (keepWithin marked key cap l).length ≤
        max cap ((keepWithin marked key cap l).countP (!marked ·)) ∧
      (∀ gone ∈ dropped, marked gone = true) ∧
      ∀ gone ∈ dropped, ∀ kept ∈ keepWithin marked key cap l, marked kept = true →
        key gone ≤ key kept := by
  have hunmarked : (keepWithin marked key cap l).countP (!marked ·) = l.countP (!marked ·) := by
    rw [List.countP_eq_length_filter, filter_unmarked_keepWithin, ← List.countP_eq_length_filter]
  rw [hunmarked]
  by_cases hfits : l.length ≤ cap
  · have hwhole : keepWithin marked key cap l = l := if_pos hfits
    rw [hwhole]
    refine ⟨[], by rw [List.append_nil], List.Sublist.refl l, fun h => absurd rfl h,
      hfits.trans (le_max_left _ _), List.forall_mem_nil _, List.forall_mem_nil _⟩
  · have hkeep : keepWithin marked key cap l = (keptEntries marked key cap l).map Prod.fst :=
      if_neg hfits
    have hperm := perm_keptEntries marked key cap l
    have hlength : (keepWithin marked key cap l).length = max cap (l.countP (!marked ·)) := by
      have hsum := hperm.length_eq
      have hcounts := List.length_eq_countP_add_countP marked (l := l)
      have hnot : l.countP (fun a => decide ¬ marked a = true) = l.countP (!marked ·) :=
        List.countP_congr fun a _ => by simp
      rw [List.length_append, length_evicted, List.length_zipIdx] at hsum
      rw [hkeep, List.length_map]
      omega
    refine ⟨(evicted marked key cap l).map Prod.fst, ?_, ?_, fun _ => hlength, hlength.le, ?_, ?_⟩
    · rw [hkeep, ← List.map_append]
      conv_rhs => rw [← List.zipIdx_map_fst 0 l]
      exact hperm.map Prod.fst
    · rw [hkeep]
      conv_rhs => rw [← List.zipIdx_map_fst 0 l]
      exact List.filter_sublist.map Prod.fst
    · intro gone hgone
      obtain ⟨entry, hentry, rfl⟩ := List.mem_map.mp hgone
      exact (marked_of_mem_evicted hentry).2
    · intro gone hgone kept hkept hmark
      obtain ⟨entry, hentry, rfl⟩ := List.mem_map.mp hgone
      rw [hkeep] at hkept
      obtain ⟨other, hother, rfl⟩ := List.mem_map.mp hkept
      exact key_le_of_evicted hentry hother hmark

end Eviction

end Simard.Library
