import Mathlib

/-! The first few of a list by a sort key: an element is among them exactly when
few enough elements have a smaller key. -/
namespace Simard.Library

variable {α β : Type} [LinearOrder β] (key : α → β)

def keepFirst (n : Nat) (l : List α) : List α :=
  if n < l.length then (l.insertionSort fun a b => key a ≤ key b).take n else l

def ahead (l : List α) (a : α) : Nat := l.countP fun b => key b < key a

theorem length_keepFirst_le (n : Nat) (l : List α) : (keepFirst key n l).length ≤ n := by
  unfold keepFirst
  split
  · simp
  · omega

theorem keepFirst_subperm (n : Nat) (l : List α) : (keepFirst key n l).Subperm l := by
  unfold keepFirst
  split
  · exact (List.take_sublist n _).subperm.trans (List.perm_insertionSort _ l).subperm
  · exact List.Subperm.refl l

theorem ahead_lt_length {l : List α} {a : α} (h : a ∈ l) : ahead key l a < l.length := by
  unfold ahead
  rw [List.countP_lt_length_iff]
  exact ⟨a, h, by simp⟩

theorem mem_take_of_pairwise {l : List α} (hsorted : l.Pairwise fun a b => key a ≤ key b)
    (hinj : ∀ a ∈ l, ∀ b ∈ l, key a = key b → a = b) (n : Nat) (a : α) :
    a ∈ l.take n ↔ a ∈ l ∧ ahead key l a < n := by
  induction l generalizing n with
  | nil => simp
  | cons b rest ih =>
    obtain ⟨hb, hrest⟩ := List.pairwise_cons.mp hsorted
    have hrestInj : ∀ a ∈ rest, ∀ b ∈ rest, key a = key b → a = b := fun x hx y hy =>
      hinj x (List.mem_cons_of_mem b hx) y (List.mem_cons_of_mem b hy)
    cases n with
    | zero => simp
    | succ n =>
      rw [List.take_succ_cons, List.mem_cons, List.mem_cons, ih hrest hrestInj]
      by_cases hab : a = b
      · subst hab
        have hfirst : ahead key (a :: rest) a = 0 := by
          unfold ahead
          rw [List.countP_eq_zero]
          intro x hx
          rcases List.mem_cons.mp hx with rfl | hx
          · simp
          · simp [hb x hx]
        simp [hfirst]
      · simp only [hab, false_or]
        refine and_congr_right fun hmem => ?_
        have hne : key b ≠ key a := fun heq =>
          hab (hinj a (List.mem_cons_of_mem b hmem) b List.mem_cons_self heq.symm)
        have hcount : ahead key (b :: rest) a = ahead key rest a + 1 := by
          unfold ahead
          rw [List.countP_cons_of_pos (by simpa using lt_of_le_of_ne (hb a hmem) hne)]
        omega

theorem mem_take_of_key_lt {l : List α} (hsorted : l.Pairwise fun a b => key a ≤ key b) {n : Nat}
    {a b : α} (ha : a ∈ l.take n) (hb : b ∈ l) (hlt : key b < key a) : b ∈ l.take n := by
  rw [← List.take_append_drop n l] at hb hsorted
  rcases List.mem_append.mp hb with hkept | hcut
  · exact hkept
  · exact absurd ((List.pairwise_append.mp hsorted).2.2 a ha b hcut) (not_le_of_gt hlt)

theorem mem_keepFirst {l : List α} (hinj : ∀ a ∈ l, ∀ b ∈ l, key a = key b → a = b) (n : Nat)
    (a : α) : a ∈ keepFirst key n l ↔ a ∈ l ∧ ahead key l a < n := by
  have : Std.Total fun a b => key a ≤ key b := ⟨fun a b => le_total (key a) (key b)⟩
  have : IsTrans α fun a b => key a ≤ key b := ⟨fun _ _ _ hab hbc => le_trans hab hbc⟩
  unfold keepFirst
  split
  · have hperm := List.perm_insertionSort (fun a b => key a ≤ key b) l
    rw [mem_take_of_pairwise key (List.pairwise_insertionSort _ l)
      (fun x hx y hy => hinj x (hperm.mem_iff.mp hx) y (hperm.mem_iff.mp hy)), hperm.mem_iff]
    unfold ahead
    rw [hperm.countP_eq]
  · refine (and_iff_left_of_imp fun hmem => ?_).symm
    have := ahead_lt_length key hmem
    omega

theorem length_keepFirst_of_lt {n : Nat} {l : List α} (h : n < l.length) :
    (keepFirst key n l).length = n := by
  rw [keepFirst, if_pos h, List.length_take, List.length_insertionSort]
  omega

section Parts

variable {key} {n : Nat} {l : List α} (hinj : ∀ a ∈ l, ∀ b ∈ l, key a = key b → a = b)

include hinj

theorem eq_of_pairwise_key {left right : List α} (hleft : left.Pairwise fun a b => key a ≤ key b)
    (hright : right.Pairwise fun a b => key a ≤ key b) (hperm : left.Perm right)
    (hsub : ∀ a ∈ left, a ∈ l) : left = right :=
  hperm.eq_of_pairwise (fun a b ha hb hab hba =>
    hinj a (hsub a ha) b (hsub b (hperm.mem_iff.mpr hb)) (le_antisymm hab hba)) hleft hright

theorem insertionSort_filter (p : α → Bool) :
    ((l.filter p).insertionSort fun a b => key a ≤ key b) =
      (l.insertionSort fun a b => key a ≤ key b).filter p := by
  have : Std.Total fun a b => key a ≤ key b := ⟨fun a b => le_total (key a) (key b)⟩
  have : IsTrans α fun a b => key a ≤ key b := ⟨fun _ _ _ hab hbc => le_trans hab hbc⟩
  have hparts := List.perm_insertionSort (fun a b => key a ≤ key b) (l.filter p)
  refine eq_of_pairwise_key hinj (List.pairwise_insertionSort _ _)
    ((List.pairwise_insertionSort _ l).filter p)
    (hparts.trans ((List.perm_insertionSort _ l).symm.filter p)) fun a ha => ?_
  exact List.mem_of_mem_filter (hparts.mem_iff.mp ha)

theorem keepFirst_filter_of_lt {p : α → Bool} (hp : ∀ a ∈ keepFirst key n l, p a)
    (hmore : n < (l.filter p).length) : keepFirst key n (l.filter p) = keepFirst key n l := by
  have hlong : n < l.length := hmore.trans_le (List.length_filter_le p l)
  have hlength := length_keepFirst_of_lt key hlong
  unfold keepFirst at hp hlength ⊢
  rw [if_pos hlong] at hp hlength ⊢
  rw [if_pos hmore, insertionSort_filter hinj]
  generalize (l.insertionSort fun a b => key a ≤ key b) = sorted at hp hlength ⊢
  conv_lhs => rw [← List.take_append_drop n sorted, List.filter_append, List.filter_eq_self.mpr hp]
  exact List.take_left' hlength

omit hinj in
theorem filter_perm_keepFirst {p : α → Bool} (hp : ∀ a ∈ keepFirst key n l, p a)
    (hlong : n < l.length) (hfew : (l.filter p).length ≤ n) :
    (l.filter p).Perm (keepFirst key n l) := by
  have hlength := length_keepFirst_of_lt key hlong
  have hsub : (keepFirst key n l).Subperm (l.filter p) := by
    rw [← List.filter_eq_self.mpr hp]
    exact (keepFirst_subperm key n l).filter p
  exact (hsub.perm_of_length_le (by omega)).symm

theorem lt_length_filter_iff (hnodup : l.Nodup) {p : α → Bool}
    (hp : ∀ a ∈ keepFirst key n l, p a) :
    n < (l.filter p).length ↔ ∃ a ∈ l, p a ∧ n ≤ ahead key l a := by
  constructor
  · intro hmore
    by_contra hnone
    have hsub : l.filter p ⊆ keepFirst key n l := by
      intro a ha
      obtain ⟨hmem, hpa⟩ := List.mem_filter.mp ha
      exact (mem_keepFirst key hinj n a).mpr
        ⟨hmem, Nat.lt_of_not_le fun hle => hnone ⟨a, hmem, hpa, hle⟩⟩
    have hle := ((hnodup.filter p).subperm hsub).length_le
    have := length_keepFirst_le key n l
    omega
  · rintro ⟨a, hmem, hpa, hle⟩
    have hlong : n < l.length := hle.trans_lt (ahead_lt_length key hmem)
    have hout : a ∉ keepFirst key n l := fun ha =>
      absurd ((mem_keepFirst key hinj n a).mp ha).2 (Nat.not_lt.mpr hle)
    have hkept : (keepFirst key n l).Nodup := by
      obtain ⟨kept, hperm, hsub⟩ := keepFirst_subperm key n l
      exact hperm.nodup_iff.mp (hnodup.sublist hsub)
    have hsub : a :: keepFirst key n l ⊆ l.filter p := by
      intro b hb
      rcases List.mem_cons.mp hb with rfl | hb
      · exact List.mem_filter.mpr ⟨hmem, hpa⟩
      · exact List.mem_filter.mpr ⟨((mem_keepFirst key hinj n b).mp hb).1, hp b hb⟩
    have hcount := ((List.nodup_cons.mpr ⟨hout, hkept⟩).subperm hsub).length_le
    rw [List.length_cons, length_keepFirst_of_lt key hlong] at hcount
    exact hcount

theorem lt_length_iff (hnodup : l.Nodup) : n < l.length ↔ ∃ a ∈ l, n ≤ ahead key l a := by
  have hall := lt_length_filter_iff hinj hnodup (n := n) (p := fun _ => true) fun _ _ => rfl
  simpa using hall

/-- A list in one order and the same elements in another: the two orders agree on them. -/
theorem eq_sorted_iff {γ : Type} [LinearOrder γ] {place : α → γ} {given sorted : List α}
    (hgiven : given.Pairwise fun a b => place a < place b)
    (hsorted : sorted.Pairwise fun a b => key a ≤ key b) (hperm : given.Perm sorted)
    (hsub : ∀ a ∈ given, a ∈ l) :
    given = sorted ↔ ∀ a ∈ given, ∀ b ∈ given, place a < place b → key a ≤ key b := by
  constructor
  · rintro rfl
    have hkeys : given.Pairwise fun a b => place a < place b → key a ≤ key b :=
      hsorted.imp fun hkey => fun _ => hkey
    have hback : given.Pairwise (flip fun a b => place a < place b → key a ≤ key b) :=
      hgiven.imp fun hplace => fun hback => absurd hplace (lt_asymm hback)
    intro a ha b hb
    exact hkeys.forall_of_forall_of_flip (fun _ _ _ => le_rfl) hback ha hb
  · intro hagree
    exact eq_of_pairwise_key hinj
      (hgiven.imp_of_mem fun ha hb hplace => hagree _ ha _ hb hplace) hsorted hperm hsub

/-- When a part of a list that has its first has the same first: nothing was cut, or something is
again, or the first stand in the order of the list. -/
theorem keepFirst_filter_eq_iff {γ : Type} [LinearOrder γ] {place : α → γ}
    (hplace : l.Pairwise fun a b => place a < place b) {p : α → Bool}
    (hp : ∀ a ∈ keepFirst key n l, p a) :
    keepFirst key n (l.filter p) = keepFirst key n l ↔
      l.length ≤ n ∨ n < (l.filter p).length ∨ ∀ a ∈ keepFirst key n l,
        ∀ b ∈ keepFirst key n l, place a < place b → key a ≤ key b := by
  rcases Nat.lt_or_ge n l.length with hlong | hshort
  · rcases Nat.lt_or_ge n (l.filter p).length with hmore | hfew
    · simp [hmore, keepFirst_filter_of_lt hinj hp hmore]
    · have hperm := filter_perm_keepFirst hp hlong hfew
      have hpart : keepFirst key n (l.filter p) = l.filter p := if_neg (Nat.not_lt.mpr hfew)
      have hsorted : (keepFirst key n l).Pairwise fun a b => key a ≤ key b := by
        have : Std.Total fun a b => key a ≤ key b := ⟨fun a b => le_total (key a) (key b)⟩
        have : IsTrans α fun a b => key a ≤ key b := ⟨fun _ _ _ hab hbc => le_trans hab hbc⟩
        rw [keepFirst, if_pos hlong]
        exact (List.pairwise_insertionSort _ l).sublist (List.take_sublist n _)
      rw [hpart, eq_sorted_iff hinj (hplace.filter p) hsorted hperm fun a => List.mem_of_mem_filter]
      simp only [hperm.mem_iff, Nat.not_le.mpr hlong, Nat.not_lt.mpr hfew, false_or]
  · have hwhole : keepFirst key n l = l := if_neg (Nat.not_lt.mpr hshort)
    rw [hwhole] at hp ⊢
    simp [List.filter_eq_self.mpr hp, hwhole, hshort]

end Parts

def ranked (n : Nat) (l : List α) : List α :=
  if n < l.length then l.insertionSort fun a b => key a ≤ key b else l

theorem keepFirst_eq_take (n : Nat) (l : List α) :
    keepFirst key n l = (ranked key n l).take n := by
  unfold keepFirst ranked
  split
  · rfl
  · rw [List.take_of_length_le (by omega)]

theorem perm_ranked (n : Nat) (l : List α) : (ranked key n l).Perm l := by
  unfold ranked
  split
  · exact List.perm_insertionSort _ l
  · exact List.Perm.refl l

theorem take_filter_eq_append (p : α → Bool) (n : Nat) (l : List α) :
    (l.filter p).take n =
      (l.take n).filter p ++ ((l.drop n).filter p).take (n - ((l.take n).filter p).length) := by
  have hle : ((l.take n).filter p).length ≤ n :=
    (List.length_filter_le p _).trans (List.length_take_le n l)
  conv_lhs => rw [← List.take_append_drop n l, List.filter_append, List.take_append,
    List.take_of_length_le hle]

/-- Cutting before a filter leaves as much as cutting after it if all of the first pass, or nothing
else does. -/
theorem map_filter_take_eq_iff {γ : Type} (f : α → γ) (p : α → Bool) (n : Nat) (l : List α) :
    ((l.take n).filter p).map f = ((l.filter p).take n).map f ↔
      (∀ a ∈ l.take n, p a) ∨ ∀ a ∈ l.drop n, ¬ p a := by
  rw [take_filter_eq_append, List.map_append, List.self_eq_append_right, List.map_eq_nil_iff,
    List.take_eq_nil_iff, List.filter_eq_nil_iff, ← List.filter_eq_self]
  refine or_congr_left' fun hsome => ?_
  have hdrop : l.drop n ≠ [] := by
    intro hnil
    rw [hnil] at hsome
    exact hsome fun _ ha => absurd ha List.not_mem_nil
  have hlong : n < l.length := by
    rw [ne_eq, List.drop_eq_nil_iff] at hdrop
    omega
  have hlength : (l.take n).length = n := List.length_take_of_le hlong.le
  have hle := List.length_filter_le p (l.take n)
  constructor
  · intro hnone
    exact List.filter_sublist.eq_of_length (by omega)
  · intro hall
    rw [hall]
    omega

section Filtered

variable {key} {n : Nat} {l : List α} (hinj : ∀ a ∈ l, ∀ b ∈ l, key a = key b → a = b)

include hinj

/-- Cutting before a filter leaves as much as cutting after it if whatever does not pass is beyond
the cut, or whatever is beyond the cut does not pass. -/
theorem map_filter_keepFirst_eq_iff {γ : Type} (f : α → γ) (hnodup : l.Nodup) (p : α → Bool) :
    ((keepFirst key n l).filter p).map f = (((ranked key n l).filter p).take n).map f ↔
      (∀ a ∈ l, ¬ p a → n ≤ ahead key l a) ∨ ∀ a ∈ l, n ≤ ahead key l a → ¬ p a := by
  have hfirst (a : α) : a ∈ (ranked key n l).take n ↔ a ∈ l ∧ ahead key l a < n := by
    rw [← keepFirst_eq_take, mem_keepFirst key hinj]
  have hrest (a : α) : a ∈ (ranked key n l).drop n ↔ a ∈ l ∧ n ≤ ahead key l a := by
    have hperm := perm_ranked key n l
    have hsplit : a ∈ (ranked key n l).take n ∨ a ∈ (ranked key n l).drop n ↔ a ∈ l := by
      rw [← List.mem_append, List.take_append_drop, hperm.mem_iff]
    have hapart : a ∈ (ranked key n l).take n → a ∉ (ranked key n l).drop n := fun htake hdrop =>
      List.disjoint_take_drop (hperm.nodup_iff.mpr hnodup) le_rfl htake hdrop
    rw [hfirst] at hsplit hapart
    grind
  rw [keepFirst_eq_take, map_filter_take_eq_iff]
  simp only [hfirst, hrest, and_imp]
  refine or_congr_left (forall₂_congr fun a _ => ?_)
  rw [← not_imp_not, Nat.not_lt]

end Filtered

end Simard.Library
