import Mathlib.Data.List.Basic

/-! Lists: folds, searches and counts, and sublists that leave nothing of a kind out. -/
namespace Simard.Library

/-- What each step may bring about, the fold has brought about if some step did. -/
theorem foldl_or_iff {σ α : Type} {step : σ → α → σ} (P : σ → Prop) {Q : α → Prop}
    (hstep : ∀ s a, P (step s a) ↔ P s ∨ Q a) (input : List α) (s : σ) :
    P (input.foldl step s) ↔ P s ∨ ∃ a ∈ input, Q a := by
  induction input generalizing s with
  | nil => simp
  | cons a input ih =>
    rw [List.foldl_cons, ih, hstep, or_assoc]
    simp

theorem find?_filter_of_pos {α : Type} {l : List α} {p q : α → Bool} {a : α}
    (hfind : l.find? q = some a) (hp : p a = true) : (l.filter p).find? q = some a := by
  induction l with
  | nil => cases hfind
  | cons first rest ih =>
    rw [List.find?_cons] at hfind
    split at hfind
    next hq =>
      obtain rfl := Option.some.inj hfind
      rw [List.filter_cons_of_pos hp, List.find?_cons_of_pos hq]
    next hq =>
      rw [List.filter_cons]
      split
      · rw [List.find?_cons_of_neg (by simp [hq])]
        exact ih hfind
      · exact ih hfind

/-- A sublist that leaves out nothing of a kind. -/
inductive Chosen {α : Type} (must : α → Prop) : List α → List α → Prop where
  | nil : Chosen must [] []
  | keep (a : α) {l l' : List α} : Chosen must l l' → Chosen must (a :: l) (a :: l')
  | skip {a : α} {l l' : List α} : ¬ must a → Chosen must l l' → Chosen must (a :: l) l'

namespace Chosen

variable {α : Type} {must : α → Prop} {l l' m m' : List α}

theorem refl (l : List α) : Chosen must l l := by
  induction l with
  | nil => exact nil
  | cons a l ih => exact ih.keep a

theorem append (h : Chosen must l l') (h' : Chosen must m m') :
    Chosen must (l ++ m) (l' ++ m') := by
  induction h with
  | nil => exact h'
  | keep a _ ih => exact ih.keep a
  | skip hmust _ ih => exact ih.skip hmust

theorem sublist (h : Chosen must l l') : l'.Sublist l := by
  induction h with
  | nil => exact List.Sublist.slnil
  | keep a _ ih => exact ih.cons_cons a
  | skip _ _ ih => exact ih.cons _

theorem mem (h : Chosen must l l') {a : α} (hmem : a ∈ l) (hmust : must a) : a ∈ l' := by
  induction h with
  | nil => cases hmem
  | keep b _ ih =>
    rcases List.mem_cons.mp hmem with rfl | hmem
    · exact List.mem_cons_self
    · exact List.mem_cons_of_mem b (ih hmem)
  | skip hskip _ ih =>
    rcases List.mem_cons.mp hmem with rfl | hmem
    · exact absurd hmust hskip
    · exact ih hmem

/-- What stands around a chosen entry is chosen from what stood around it. -/
theorem split {left' right' : List α} {a : α} (h : Chosen must l (left' ++ a :: right')) :
    ∃ left right, l = left ++ a :: right ∧ Chosen must left left' ∧ Chosen must right right' := by
  generalize hwhole : left' ++ a :: right' = whole at h
  induction h generalizing left' with
  | nil => cases left' <;> cases hwhole
  | keep b h ih =>
    cases left' with
    | nil =>
      obtain ⟨rfl, rfl⟩ := List.cons.inj hwhole
      exact ⟨[], _, rfl, nil, h⟩
    | cons c left' =>
      obtain ⟨rfl, htail⟩ := List.cons.inj hwhole
      obtain ⟨left, right, rfl, hleft, hright⟩ := ih htail
      exact ⟨c :: left, right, rfl, hleft.keep c, hright⟩
  | @skip b _ _ hskip _ ih =>
    obtain ⟨left, right, rfl, hleft, hright⟩ := ih hwhole
    exact ⟨b :: left, right, rfl, hleft.skip hskip, hright⟩

end Chosen

theorem countP_set_add {α : Type} {p : α → Bool} {l : List α} {i : Nat} {old : α}
    (h : l[i]? = some old) (new : α) : (l.set i new).countP p + (if p old then 1 else 0) =
      l.countP p + if p new then 1 else 0 := by
  obtain ⟨hi, hget⟩ := List.getElem?_eq_some_iff.mp h
  have hpos : (if p old then 1 else 0) ≤ l.countP p := by
    split
    next hold => exact List.countP_pos_iff.mpr ⟨old, List.mem_of_getElem? h, hold⟩
    · exact Nat.zero_le _
  rw [List.countP_set hi, hget]
  omega

theorem mem_set_cases {α : Type} {l : List α} {i : Nat} {new x : α} (h : x ∈ l.set i new) :
    x = new ∨ x ∈ l.eraseIdx i := by
  induction l generalizing i with
  | nil => cases h
  | cons a l ih =>
    cases i with
    | zero => exact List.mem_cons.mp h
    | succ i =>
      rw [List.set_cons_succ, List.mem_cons] at h
      rw [List.eraseIdx_cons_succ, List.mem_cons]
      rcases h with rfl | hrest
      · exact .inr (.inl rfl)
      · rcases ih hrest with hnew | hold
        · exact .inl hnew
        · exact .inr (.inr hold)

theorem countP_places {α : Type} (p : α → Bool) (l : List α) :
    ((List.range l.length).countP fun i => (l[i]?).any p) = l.countP p := by
  induction l with
  | nil => rfl
  | cons a l ih =>
    rw [List.length_cons, List.range_succ_eq_map, List.countP_cons, List.countP_map,
      List.countP_cons, ← ih]
    rfl

theorem take_of_countP {α : Type} {p : α → Bool} {above : α → α → Prop} {l : List α}
    (hdown : l.Pairwise above) (hup : ∀ a b, above a b → p b = true → p a = true) {m : Nat}
    (hm : m ≤ l.countP p) : ∀ a ∈ l.take m, p a = true := by
  induction l generalizing m with
  | nil => simp
  | cons a l ih =>
    rw [List.pairwise_cons] at hdown
    cases m with
    | zero => simp
    | succ m =>
      have hhead : p a = true := by
        by_contra hnot
        rw [List.countP_cons_of_neg hnot] at hm
        obtain ⟨b, hb, hpb⟩ := List.countP_pos_iff.mp (Nat.lt_of_lt_of_le (Nat.succ_pos m) hm)
        exact hnot (hup a b (hdown.1 b hb) hpb)
      rw [List.countP_cons_of_pos hhead, Nat.add_le_add_iff_right] at hm
      rw [List.take_succ_cons, List.forall_mem_cons]
      exact ⟨hhead, ih hdown.2 hm⟩

theorem mapM_option_of_isSome {α β : Type} {f : α → Option β} {l : List α}
    (h : ∀ a ∈ l, ∃ b, f a = some b) :
    ∃ l', l.mapM f = some l' ∧ ∀ b, b ∈ l' ↔ ∃ a ∈ l, f a = some b := by
  induction l with
  | nil => exact ⟨[], rfl, by simp⟩
  | cons a l ih =>
    rw [List.forall_mem_cons] at h
    obtain ⟨b, hb⟩ := h.1
    obtain ⟨l', hl', hmem⟩ := ih h.2
    refine ⟨b :: l', ?_, ?_⟩
    · rw [List.mapM_cons, hb, hl']
      rfl
    · intro c
      rw [List.mem_cons, hmem]
      simp only [List.mem_cons, exists_eq_or_imp, hb, Option.some.injEq, eq_comm (a := c)]

theorem length_of_mapM {α β : Type} {f : α → Option β} {l : List α} {l' : List β}
    (h : l.mapM f = some l') : l'.length = l.length := by
  induction l generalizing l' with
  | nil =>
    rw [List.mapM_nil] at h
    cases h
    rfl
  | cons a l ih =>
    rw [List.mapM_cons] at h
    obtain ⟨b, -, hrest⟩ := Option.bind_eq_some_iff.mp h
    obtain ⟨rest, htail, hl'⟩ := Option.bind_eq_some_iff.mp hrest
    cases hl'
    rw [List.length_cons, List.length_cons, ih htail]

end Simard.Library
