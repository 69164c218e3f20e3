import Mathlib

/-! Ordered maps, kept as their entries in ascending order of keys. A map is read
through its lookup; its entries say nothing more. -/
namespace Simard.Library

structure BTreeMap (κ ν : Type) [LinearOrder κ] where
  entries : List (κ × ν)
  ascending : entries.Pairwise fun a b => a.1 < b.1

namespace BTreeMap

variable {κ ν : Type} [LinearOrder κ]

def empty : BTreeMap κ ν := ⟨[], List.Pairwise.nil⟩

def insertInto (k : κ) (v : ν) : List (κ × ν) → List (κ × ν)
  | [] => [(k, v)]
  | (k', v') :: rest =>
      if k < k' then (k, v) :: (k', v') :: rest
      else if k = k' then (k, v) :: rest
      else (k', v') :: insertInto k v rest

theorem mem_insertInto {k : κ} {v : ν} {entry : κ × ν} {l : List (κ × ν)}
    (h : l.Pairwise fun a b => a.1 < b.1) :
    entry ∈ insertInto k v l ↔ entry = (k, v) ∨ (entry ∈ l ∧ entry.1 ≠ k) := by
  induction l with
  | nil => simp [insertInto]
  | cons first rest ih =>
    obtain ⟨k', v'⟩ := first
    obtain ⟨hfirst, hrest⟩ := List.pairwise_cons.mp h
    have hafter (hle : k ≤ k') : ∀ entry ∈ rest, entry.1 ≠ k := fun entry hentry =>
      ne_of_gt (lt_of_le_of_lt hle (hfirst entry hentry))
    unfold insertInto
    split
    · rename_i hlt
      have hne : k' ≠ k := ne_of_gt hlt
      simp only [List.mem_cons]
      grind
    split
    · rename_i heq
      subst heq
      simp only [List.mem_cons]
      grind
    · rename_i hlt hne
      simp only [List.mem_cons, ih hrest]
      grind

theorem ascending_insertInto (k : κ) (v : ν) (l : List (κ × ν))
    (h : l.Pairwise fun a b => a.1 < b.1) :
    (insertInto k v l).Pairwise fun a b => a.1 < b.1 := by
  induction l with
  | nil => simp [insertInto]
  | cons first rest ih =>
    obtain ⟨k', v'⟩ := first
    obtain ⟨hfirst, hrest⟩ := List.pairwise_cons.mp h
    unfold insertInto
    split
    · rename_i hlt
      refine List.pairwise_cons.mpr ⟨?_, h⟩
      intro entry hentry
      rcases List.mem_cons.mp hentry with rfl | hentry
      · exact hlt
      · exact hlt.trans (hfirst entry hentry)
    split
    · rename_i heq
      exact List.pairwise_cons.mpr ⟨heq ▸ hfirst, hrest⟩
    · rename_i hlt hne
      refine List.pairwise_cons.mpr ⟨?_, ih hrest⟩
      intro entry hentry
      rcases (mem_insertInto hrest).mp hentry with rfl | ⟨hentry, -⟩
      · exact lt_of_le_of_ne (not_lt.mp hlt) (Ne.symm hne)
      · exact hfirst entry hentry

def insert (k : κ) (v : ν) (m : BTreeMap κ ν) : BTreeMap κ ν :=
  ⟨insertInto k v m.entries, ascending_insertInto k v m.entries m.ascending⟩

def get? (m : BTreeMap κ ν) (k : κ) : Option ν :=
  (m.entries.find? fun entry => entry.1 = k).map Prod.snd

def containsKey (m : BTreeMap κ ν) (k : κ) : Bool := m.entries.any fun entry => entry.1 = k

def retain (p : κ → Bool) (m : BTreeMap κ ν) : BTreeMap κ ν :=
  ⟨m.entries.filter fun entry => p entry.1, m.ascending.filter _⟩

def greatest (m : BTreeMap κ ν) : Option (κ × ν) := m.entries.getLast?

def keepGreatest (n : Nat) (m : BTreeMap κ ν) : BTreeMap κ ν :=
  ⟨m.entries.drop (m.entries.length - n), m.ascending.drop⟩

def values (m : BTreeMap κ ν) : List ν := m.entries.map Prod.snd

theorem nodup_keys (m : BTreeMap κ ν) : (m.entries.map Prod.fst).Nodup := by
  unfold List.Nodup
  rw [List.pairwise_map]
  exact m.ascending.imp ne_of_lt

theorem get?_eq_some {m : BTreeMap κ ν} {k : κ} {v : ν} :
    m.get? k = some v ↔ (k, v) ∈ m.entries := by
  unfold get?
  constructor
  · intro h
    obtain ⟨⟨k', v'⟩, hfind, hpair⟩ := Option.map_eq_some_iff.mp h
    cases hpair
    have hkey : k' = k := by simpa using List.find?_some hfind
    exact hkey ▸ List.mem_of_find?_eq_some hfind
  · intro hmem
    cases hfind : m.entries.find? fun entry => entry.1 = k with
    | none =>
      have hnone := List.find?_eq_none.mp hfind (k, v) hmem
      simp at hnone
    | some found =>
      have hkey : found.1 = k := by simpa using List.find?_some hfind
      have hsame :=
        List.inj_on_of_nodup_map m.nodup_keys (List.mem_of_find?_eq_some hfind) hmem hkey
      rw [hsame]
      rfl

@[simp] theorem get?_empty (k : κ) : (empty : BTreeMap κ ν).get? k = none := rfl

theorem get?_insert (m : BTreeMap κ ν) (k k' : κ) (v : ν) :
    (m.insert k v).get? k' = if k' = k then some v else m.get? k' := by
  ext w
  rw [get?_eq_some]
  change (k', w) ∈ insertInto k v m.entries ↔ _
  rw [mem_insertInto m.ascending, ← get?_eq_some]
  by_cases hkey : k' = k
  · simp [hkey, eq_comm]
  · simp [hkey]

theorem entries_insert_of_mem {m : BTreeMap κ ν} {before after : List (κ × ν)} {k : κ} {v : ν}
    (h : m.entries = before ++ (k, v) :: after) (w : ν) :
    (m.insert k w).entries = before ++ (k, w) :: after := by
  have hascending := m.ascending
  rw [h] at hascending
  change insertInto k w m.entries = _
  rw [h]
  clear h
  induction before with
  | nil => simp [insertInto]
  | cons first before ih =>
    rw [List.cons_append, List.pairwise_cons] at hascending
    have hfirst : first.1 < k := hascending.1 (k, v) (by simp)
    rw [List.cons_append, insertInto, if_neg hfirst.not_gt, if_neg hfirst.ne', ih hascending.2,
      List.cons_append]

theorem greatest_eq_some {m : BTreeMap κ ν} {k : κ} {v : ν} :
    m.greatest = some (k, v) ↔ (k, v) ∈ m.entries ∧ ∀ entry ∈ m.entries, entry.1 ≤ k := by
  have hlast {k : κ} {v : ν} (h : m.greatest = some (k, v)) :
      (k, v) ∈ m.entries ∧ ∀ entry ∈ m.entries, entry.1 ≤ k := by
    obtain ⟨before, hentries⟩ := List.getLast?_eq_some_iff.mp h
    have hascending := m.ascending
    rw [hentries] at hascending ⊢
    refine ⟨List.mem_append_right _ (List.mem_singleton_self _), fun entry hentry => ?_⟩
    rcases List.mem_append.mp hentry with hbefore | hsame
    · exact le_of_lt ((List.pairwise_append.mp hascending).2.2 entry hbefore _
        (List.mem_singleton_self _))
    · rw [List.mem_singleton.mp hsame]
  constructor
  · exact hlast
  · rintro ⟨hmem, hgreatest⟩
    have hne : m.entries ≠ [] := List.ne_nil_of_mem hmem
    have hfound : m.greatest = some (m.entries.getLast hne) := List.getLast?_eq_some_getLast hne
    obtain ⟨hmem', hgreatest'⟩ := hlast (k := (m.entries.getLast hne).1) hfound
    have hkey := le_antisymm (hgreatest' _ hmem) (hgreatest _ hmem')
    rw [hfound, List.inj_on_of_nodup_map m.nodup_keys hmem hmem' hkey]

theorem greatest_insert (m : BTreeMap κ ν) (k : κ) (v : ν) :
    (m.insert k v).greatest =
      match m.greatest with
      | some (k', v') => if k < k' then some (k', v') else some (k, v)
      | none => some (k, v) := by
  have hinsert (entry : κ × ν) : entry ∈ (m.insert k v).entries ↔
      entry = (k, v) ∨ (entry ∈ m.entries ∧ entry.1 ≠ k) := mem_insertInto m.ascending
  cases hgreatest : m.greatest with
  | none =>
    have hempty : m.entries = [] := List.getLast?_eq_none_iff.mp hgreatest
    apply greatest_eq_some.mpr
    simp [hinsert, hempty]
  | some last =>
    obtain ⟨k', v'⟩ := last
    obtain ⟨hmem, hle⟩ := greatest_eq_some.mp hgreatest
    dsimp only
    split
    next hlt =>
      refine greatest_eq_some.mpr ⟨(hinsert _).mpr (.inr ⟨hmem, ne_of_gt hlt⟩), ?_⟩
      intro entry hentry
      rcases (hinsert entry).mp hentry with rfl | ⟨hentry, -⟩
      · exact le_of_lt hlt
      · exact hle entry hentry
    next hnot =>
      refine greatest_eq_some.mpr ⟨(hinsert _).mpr (.inl rfl), ?_⟩
      intro entry hentry
      rcases (hinsert entry).mp hentry with rfl | ⟨hentry, -⟩
      · exact le_refl _
      · exact (hle entry hentry).trans (not_lt.mp hnot)

theorem greatest_keepGreatest {n : Nat} (hn : 0 < n) (m : BTreeMap κ ν) :
    (m.keepGreatest n).greatest = m.greatest := by
  unfold greatest keepGreatest
  dsimp only
  rw [List.getLast?_drop]
  split
  next hlength =>
    have hempty : m.entries = [] := List.eq_nil_of_length_eq_zero (by omega)
    rw [hempty]
    rfl
  next => rfl

theorem get?_retain (m : BTreeMap κ ν) (p : κ → Bool) (k : κ) :
    (m.retain p).get? k = if p k then m.get? k else none := by
  ext v
  rw [get?_eq_some]
  change (k, v) ∈ m.entries.filter (fun entry => p entry.1) ↔ _
  rw [List.mem_filter, ← get?_eq_some]
  by_cases hp : p k <;> simp [hp]

theorem containsKey_eq (m : BTreeMap κ ν) (k : κ) : m.containsKey k = (m.get? k).isSome := by
  unfold containsKey get?
  rw [Option.isSome_map, Bool.eq_iff_iff, List.find?_isSome, List.any_eq_true]

theorem mem_values {m : BTreeMap κ ν} {v : ν} : v ∈ m.values ↔ ∃ k, m.get? k = some v := by
  simp [values, get?_eq_some]

def insertAll (key : ν → κ) (m : BTreeMap κ ν) (l : List ν) : BTreeMap κ ν :=
  l.foldl (fun m v => m.insert (key v) v) m

theorem get?_insertAll (key : ν → κ) (m : BTreeMap κ ν) (l : List ν) (k : κ) :
    (m.insertAll key l).get? k = (l.reverse.find? fun v => key v = k).or (m.get? k) := by
  unfold insertAll
  induction l generalizing m with
  | nil => simp
  | cons v rest ih =>
    rw [List.foldl_cons, ih, get?_insert, List.reverse_cons, List.find?_append, Option.or_assoc]
    by_cases hkey : key v = k
    · simp [hkey]
    · simp [hkey, Ne.symm hkey]

def last (key : ν → κ) (l : List ν) (k : κ) : Option ν := l.reverse.find? fun v => key v = k

theorem key_last {key : ν → κ} {l : List ν} {k : κ} {v : ν} (h : last key l k = some v) :
    key v = k := by
  simpa using List.find?_some h

theorem mem_of_last {key : ν → κ} {l : List ν} {k : κ} {v : ν} (h : last key l k = some v) :
    v ∈ l := by
  unfold last at h
  simpa using List.mem_of_find?_eq_some h

theorem isSome_last {key : ν → κ} {l : List ν} {k : κ} :
    (last key l k).isSome ↔ k ∈ l.map key := by
  unfold last
  rw [List.find?_isSome]
  simp

theorem last_of_nodup {key : ν → κ} {l : List ν} (hnodup : (l.map key).Nodup) {v : ν} (h : v ∈ l) :
    last key l (key v) = some v := by
  obtain ⟨found, hfound⟩ := Option.isSome_iff_exists.mp
    (isSome_last.mpr (List.mem_map_of_mem (f := key) h))
  rw [hfound, List.inj_on_of_nodup_map hnodup (mem_of_last hfound) h (key_last hfound)]

theorem last_map {μ : Type} {key : ν → κ} {f : μ → ν} (l : List μ) (k : κ) :
    last key (l.map f) k = (last (key ∘ f) l k).map f := by
  unfold last
  rw [← List.map_reverse, List.find?_map]
  rfl

theorem last_filter {key : ν → κ} (p : κ → Bool) (l : List ν) (k : κ) :
    last key (l.filter fun v => p (key v)) k = if p k then last key l k else none := by
  unfold last
  rw [← List.filter_reverse, List.find?_filter]
  split
  · rename_i hp
    congr 1
    funext v
    by_cases hkey : key v = k <;> simp [hkey, hp]
  · rename_i hp
    rw [List.find?_eq_none]
    rintro v - hv
    simp only [decide_eq_true_eq] at hv
    exact hp (hv.2 ▸ hv.1)

/-- Old values under their keys, then new ones over them. -/
def union (key : ν → κ) (old new : List ν) : BTreeMap κ ν :=
  (empty.insertAll key old).insertAll key new

theorem get?_union (key : ν → κ) (old new : List ν) (k : κ) :
    (union key old new).get? k = (last key new k).or (last key old k) := by
  unfold union
  rw [get?_insertAll, get?_insertAll, get?_empty, Option.or_none]
  rfl

theorem key_of_union {key : ν → κ} {old new : List ν} {k : κ} {v : ν}
    (h : (union key old new).get? k = some v) : key v = k := by
  rw [get?_union] at h
  rcases Option.or_eq_some_iff.mp h with hfound | ⟨-, hfound⟩
  · exact key_last hfound
  · exact key_last hfound

theorem get?_of_retain {m : BTreeMap κ ν} {p : κ → Bool} {k : κ} {v : ν}
    (h : (m.retain p).get? k = some v) : p k ∧ m.get? k = some v := by
  rw [get?_retain] at h
  split at h
  · exact ⟨by assumption, h⟩
  · cases h

theorem eq_of_ascending {key : ν → κ} {left right : List ν}
    (hleft : left.Pairwise fun a b => key a < key b)
    (hright : right.Pairwise fun a b => key a < key b)
    (hmem : ∀ v, v ∈ left ↔ v ∈ right) : left = right := by
  have hnodup {l : List ν} (h : l.Pairwise fun a b => key a < key b) : l.Nodup := by
    refine h.imp ?_
    rintro a b hlt rfl
    exact lt_irrefl _ hlt
  exact ((List.perm_ext_iff_of_nodup (hnodup hleft) (hnodup hright)).mpr hmem).eq_of_pairwise
    (fun _ _ _ _ hab hba => absurd hab (lt_asymm hba)) hleft hright

section Keyed

variable {key : ν → κ} {m : BTreeMap κ ν} (h : ∀ k v, m.get? k = some v → key v = k)

include h

theorem map_values : m.values.map key = m.entries.map Prod.fst := by
  unfold values
  rw [List.map_map]
  apply List.map_congr_left
  rintro ⟨k, v⟩ hmem
  exact h k v (get?_eq_some.mpr hmem)

theorem ascending_values : m.values.Pairwise fun a b => key a < key b := by
  have hkeys : (m.values.map key).Pairwise (· < ·) := by
    rw [map_values h, List.pairwise_map]
    exact m.ascending
  exact List.pairwise_map.mp hkeys

theorem nodup_values : (m.values.map key).Nodup := by
  rw [map_values h]
  exact m.nodup_keys

theorem mem_map_values {k : κ} : k ∈ m.values.map key ↔ (m.get? k).isSome := by
  rw [map_values h, Option.isSome_iff_exists]
  simp [get?_eq_some]

theorem mem_values_iff {v : ν} : v ∈ m.values ↔ m.get? (key v) = some v := by
  rw [mem_values]
  constructor
  · rintro ⟨k, hget⟩
    exact h k v hget ▸ hget
  · intro hget
    exact ⟨key v, hget⟩

theorem eq_of_mem_values {v w : ν} (hv : v ∈ m.values) (hw : w ∈ m.values) (hkey : key v = key w) :
    v = w := by
  have hgetv := (mem_values_iff h).mp hv
  have hgetw := (mem_values_iff h).mp hw
  rw [hkey, hgetw] at hgetv
  exact (Option.some_inj.mp hgetv).symm

theorem le_countP_values (p : ν → Bool) (n : Nat) :
    n ≤ m.values.countP p ↔
      ∃ keys : Finset κ, n ≤ keys.card ∧ ∀ k ∈ keys, ∃ v, m.get? k = some v ∧ p v := by
  have hnodup : ((m.values.filter p).map key).Nodup :=
    (nodup_values h).sublist (List.filter_sublist.map key)
  have hcard : ((m.values.filter p).map key).toFinset.card = m.values.countP p := by
    rw [List.toFinset_card_of_nodup hnodup, List.length_map, List.countP_eq_length_filter]
  constructor
  · intro hle
    refine ⟨((m.values.filter p).map key).toFinset, hcard ▸ hle, ?_⟩
    intro k hk
    obtain ⟨v, hv, rfl⟩ := List.mem_map.mp (List.mem_toFinset.mp hk)
    obtain ⟨hmem, hp⟩ := List.mem_filter.mp hv
    exact ⟨v, (mem_values_iff h).mp hmem, hp⟩
  · rintro ⟨keys, hle, hkeys⟩
    refine hle.trans (hcard ▸ Finset.card_le_card ?_)
    intro k hk
    obtain ⟨v, hget, hp⟩ := hkeys k hk
    have hkey := h k v hget
    refine List.mem_toFinset.mpr (List.mem_map.mpr ⟨v, List.mem_filter.mpr ⟨?_, hp⟩, hkey⟩)
    exact mem_values.mpr ⟨k, hget⟩

end Keyed

end BTreeMap

end Simard.Library
