import Mathlib

/-! Lists where one element stands before the others of its kind. Putting it there takes out what is
the same first, so that it can be done again, and for two kinds in turn. -/
namespace Simard.Library

variable {α : Type}

/-- Before the first of its kind, or before all if there is none. -/
def putFirst (kind same : α → Bool) (a : α) (l : List α) : List α :=
  let kept := l.filter (!same ·)
  kept.insertIdx ((kept.findIdx? kind).getD 0) a

/-- Where an element of this kind goes: between these parts. -/
structure Slot (kind : α → Bool) (front back : List α) : Prop where
  clear : ∀ b ∈ front, kind b = false
  stop : (∃ first rest, back = first :: rest ∧ kind first) ∨
    front = [] ∧ ∀ b ∈ back, kind b = false

theorem exists_slot (kind : α → Bool) (l : List α) :
    ∃ front back, l = front ++ back ∧ Slot kind front back := by
  by_cases hsome : ∃ b ∈ l, kind b
  · obtain ⟨b, hb, hkind⟩ := hsome
    refine ⟨l.takeWhile (!kind ·), l.dropWhile (!kind ·), (List.takeWhile_append_dropWhile).symm,
      fun c hc => ?_, .inl ?_⟩
    · simpa using List.mem_takeWhile_imp hc
    · have hrest : l.dropWhile (!kind ·) ≠ [] := by
        intro hnone
        have hnot := List.dropWhile_eq_nil_iff.mp hnone b hb
        simp [hkind] at hnot
      have hfirst := List.head_dropWhile_not (!kind ·) hrest
      exact ⟨_, _, (List.cons_head_tail hrest).symm, by simpa using hfirst⟩
  · push Not at hsome
    refine ⟨[], l, rfl, List.forall_mem_nil _, .inr ⟨rfl, fun b hb => ?_⟩⟩
    simpa using hsome b hb

theorem findIdx?_slot {kind : α → Bool} {front back : List α} (h : Slot kind front back) :
    ((front ++ back).findIdx? kind).getD 0 = front.length := by
  have hfront : front.findIdx? kind = none := List.findIdx?_eq_none_iff.mpr h.clear
  rcases h.stop with ⟨first, rest, rfl, hkind⟩ | ⟨rfl, hnone⟩
  · simp [List.findIdx?_append, hfront, List.findIdx?_cons, hkind]
  · rw [List.nil_append, List.findIdx?_eq_none_iff.mpr hnone]
    rfl

theorem insertIdx_append_length (front back : List α) (a : α) :
    (front ++ back).insertIdx front.length a = front ++ a :: back := by
  induction front with
  | nil => rfl
  | cons b front ih => simp [ih]

section PutFirst

variable {kind same : α → Bool} {a : α} {l front back : List α}

theorem putFirst_of_slot (hkept : l.filter (!same ·) = front ++ back) (h : Slot kind front back) :
    putFirst kind same a l = front ++ a :: back := by
  unfold putFirst
  simp only [hkept]
  rw [findIdx?_slot h, insertIdx_append_length]

theorem exists_putFirst (kind same : α → Bool) (a : α) (l : List α) :
    ∃ front back, l.filter (!same ·) = front ++ back ∧ Slot kind front back ∧
      putFirst kind same a l = front ++ a :: back := by
  obtain ⟨front, back, hkept, hslot⟩ := exists_slot kind (l.filter (!same ·))
  exact ⟨front, back, hkept, hslot, putFirst_of_slot hkept hslot⟩

theorem filter_eq_self_of_parts (hkept : l.filter (!same ·) = front ++ back) :
    front.filter (!same ·) = front ∧ back.filter (!same ·) = back := by
  have hall : ∀ b ∈ front ++ back, (!same b) = true := by
    intro b hb
    rw [← hkept] at hb
    exact (List.mem_filter.mp hb).2
  exact ⟨List.filter_eq_self.mpr fun b hb => hall b (List.mem_append_left _ hb),
    List.filter_eq_self.mpr fun b hb => hall b (List.mem_append_right _ hb)⟩

theorem filter_putFirst (hsame : same a) :
    (putFirst kind same a l).filter (!same ·) = l.filter (!same ·) := by
  obtain ⟨front, back, hkept, -, hput⟩ := exists_putFirst kind same a l
  obtain ⟨hfront, hback⟩ := filter_eq_self_of_parts hkept
  rw [hput, hkept, List.filter_append, List.filter_cons_of_neg (by simpa using hsame),
    hfront, hback]

@[simp] theorem putFirst_putFirst (hsame : same a) :
    putFirst kind same a (putFirst kind same a l) = putFirst kind same a l := by
  obtain ⟨front, back, hkept, hslot, hput⟩ := exists_putFirst kind same a l
  rw [hput]
  apply putFirst_of_slot _ hslot
  rw [← hput, filter_putFirst hsame, hkept]

theorem find?_putFirst (hkind : kind a) : (putFirst kind same a l).find? kind = some a := by
  obtain ⟨front, back, -, hslot, hput⟩ := exists_putFirst kind same a l
  have hnone : front.find? kind = none := List.find?_eq_none.mpr fun b hb => by
    simp [hslot.clear b hb]
  rw [hput, List.find?_append, hnone, Option.none_or, List.find?_cons_of_pos hkind]

theorem filter_putFirst_of_unlike {p : α → Bool} (ha : p a = false)
    (hsame : ∀ b, same b → p b = false) : (putFirst kind same a l).filter p = l.filter p := by
  obtain ⟨front, back, hkept, -, hput⟩ := exists_putFirst kind same a l
  have hpart : l.filter p = (l.filter (!same ·)).filter p := by
    rw [List.filter_filter]
    refine List.filter_congr fun b _ => ?_
    cases hb : same b with
    | true => simp [hsame b hb]
    | false => simp
  rw [hpart, hkept, hput, List.filter_append, List.filter_append,
    List.filter_cons_of_neg (by simp [ha])]

end PutFirst

/-- Nothing is of both kinds. -/
structure Apart (kind same kind' same' : α → Bool) : Prop where
  kinds : ∀ c, kind c → kind' c = false
  same : ∀ c, same c → kind c
  same' : ∀ c, same' c → kind' c

section TwoKinds

variable {kind same kind' same' : α → Bool} {a b : α} {l front mid back : List α}

theorem Apart.symm (h : Apart kind same kind' same') : Apart kind' same' kind same where
  kinds c hc := by
    by_contra hkind
    rw [Bool.not_eq_false] at hkind
    rw [h.kinds c hkind] at hc
    cases hc
  same := h.same'
  same' := h.same

theorem Apart.unlike (h : Apart kind same kind' same') {c : α} (hc : kind c) : same' c = false := by
  by_contra hsame
  rw [Bool.not_eq_false] at hsame
  have hkind := h.same' c hsame
  rw [h.kinds c hc] at hkind
  cases hkind

theorem Slot.filter (h : Apart kind same kind' same') (hslot : Slot kind front back) :
    Slot kind (front.filter (!same' ·)) (back.filter (!same' ·)) where
  clear c hc := hslot.clear c (List.mem_of_mem_filter hc)
  stop := by
    rcases hslot.stop with ⟨first, rest, rfl, hfirst⟩ | ⟨rfl, hnone⟩
    · refine .inl ⟨first, rest.filter (!same' ·), ?_, hfirst⟩
      rw [List.filter_cons_of_pos (by simp [h.unlike hfirst])]
    · exact .inr ⟨rfl, fun c hc => hnone c (List.mem_of_mem_filter hc)⟩

theorem filter_eq_self_of_none {p : α → Bool} (h : ∀ c ∈ l, p c = false) :
    l.filter (!p ·) = l := by
  refine List.filter_eq_self.mpr fun c hc => ?_
  simp [h c hc]

variable (h : Apart kind same kind' same') (ha : same a) (hb : same' b)

include h ha hb

theorem putFirst_before (hfront : ∀ c ∈ front, same c = false) (hmid : ∀ c ∈ mid, same c = false)
    (hback : ∀ c ∈ back, same c = false) (hslot : Slot kind (front ++ mid) back)
    (hslot' : Slot kind' front (mid ++ a :: back)) :
    putFirst kind' same' b (putFirst kind same a (front ++ b :: (mid ++ a :: back))) =
      putFirst kind' same' b (front ++ b :: (mid ++ a :: back)) := by
  have hkinda := h.same a ha
  have hkindb := h.same' b hb
  have hunlike := h.symm.kinds b hkindb
  have hkept : (front ++ b :: (mid ++ a :: back)).filter (!same ·) =
      (front ++ b :: mid) ++ back := by
    rw [List.filter_append, List.filter_cons_of_pos (by simp [h.symm.unlike hkindb]),
      List.filter_append, List.filter_cons_of_neg (by simp [ha]), filter_eq_self_of_none hfront,
      filter_eq_self_of_none hmid, filter_eq_self_of_none hback,
      List.append_assoc, List.cons_append]
  rcases hslot.stop with hstop | ⟨hnil, hnone⟩
  · have hplace : Slot kind (front ++ b :: mid) back := by
      refine ⟨fun c hc => ?_, .inl hstop⟩
      rcases List.mem_append.mp hc with hc | hc
      · exact hslot.clear c (List.mem_append_left _ hc)
      · rcases List.mem_cons.mp hc with rfl | hc
        · exact hunlike
        · exact hslot.clear c (List.mem_append_right _ hc)
    rw [putFirst_of_slot hkept hplace, List.append_assoc, List.cons_append]
  · -- neither kind has another element: the two change places, and change them back
    obtain ⟨rfl, rfl⟩ := List.append_eq_nil_iff.mp hnil
    have hplace : Slot kind [] (b :: back) := by
      refine ⟨List.forall_mem_nil _, .inr ⟨rfl, fun c hc => ?_⟩⟩
      rcases List.mem_cons.mp hc with rfl | hc
      · exact hunlike
      · exact hnone c hc
    have hnone' : ∀ c ∈ a :: back, kind' c = false := by
      rcases hslot'.stop with ⟨first, rest, hcons, hfirst⟩ | ⟨-, hnone'⟩
      · cases hcons
        rw [h.kinds a hkinda] at hfirst
        cases hfirst
      · exact hnone'
    have hsame' : ∀ c ∈ a :: back, same' c = false := by
      intro c hc
      by_contra hsame
      rw [Bool.not_eq_false] at hsame
      have hkind := h.same' c hsame
      rw [hnone' c hc] at hkind
      cases hkind
    have hkept' (rest : List α) (hrest : rest.filter (!same' ·) = a :: back) :
        putFirst kind' same' b rest = b :: a :: back :=
      putFirst_of_slot hrest hslot'
    rw [@putFirst_of_slot α kind same a _ [] (b :: back) hkept hplace, hkept', hkept']
    · rw [List.nil_append, List.filter_cons_of_neg (by simp [hb])]
      exact filter_eq_self_of_none hsame'
    · rw [List.nil_append, List.filter_cons_of_pos (by simp [hsame' a List.mem_cons_self]),
        List.filter_cons_of_neg (by simp [hb]),
        filter_eq_self_of_none fun c hc => hsame' c (List.mem_cons_of_mem _ hc)]

theorem putFirst_behind (hfront : ∀ c ∈ front, same c = false) (hmid : ∀ c ∈ mid, same c = false)
    (hback : ∀ c ∈ back, same c = false) (hslot : Slot kind front (mid ++ back))
    (hslot' : Slot kind' (front ++ a :: mid) back) :
    putFirst kind same a (front ++ a :: (mid ++ b :: back)) = front ++ a :: (mid ++ b :: back) := by
  have hkindb := h.same' b hb
  have hkept : (front ++ a :: (mid ++ b :: back)).filter (!same ·) = front ++
      (mid ++ b :: back) := by
    rw [List.filter_append, List.filter_cons_of_neg (by simp [ha]), List.filter_append,
      List.filter_cons_of_pos (by simp [h.symm.unlike hkindb]), filter_eq_self_of_none hfront,
      filter_eq_self_of_none hmid, filter_eq_self_of_none hback]
  refine putFirst_of_slot hkept ⟨hslot.clear, ?_⟩
  rcases hslot.stop with ⟨first, rest, hcons, hfirst⟩ | ⟨hnil, hnone⟩
  · cases mid with
    | cons c mid =>
      cases hcons
      exact .inl ⟨_, _, rfl, hfirst⟩
    | nil =>
      -- the other element stands only before one of its own kind
      obtain rfl : back = first :: rest := hcons
      rcases hslot'.stop with ⟨first', rest', hcons', hfirst'⟩ | ⟨hnil', -⟩
      · cases hcons'
        rw [h.kinds first hfirst] at hfirst'
        cases hfirst'
      · cases List.append_eq_nil_iff.mp hnil' |>.2
  · refine .inr ⟨hnil, fun c hc => ?_⟩
    rcases List.mem_append.mp hc with hc | hc
    · exact hnone c (List.mem_append_left _ hc)
    · rcases List.mem_cons.mp hc with rfl | hc
      · exact h.symm.kinds c hkindb
      · exact hnone c (List.mem_append_right _ hc)

theorem putFirst_in_turn (l : List α) :
    putFirst kind' same' b (putFirst kind same a
        (putFirst kind' same' b (putFirst kind same a l))) =
      putFirst kind' same' b (putFirst kind same a l) := by
  obtain ⟨front, back, hkept, hslot, hput⟩ := exists_putFirst kind same a l
  obtain ⟨front', back', hkept', hslot', hput'⟩ :=
    exists_putFirst kind' same' b (putFirst kind same a l)
  have hkinda := h.same a ha
  have hsame : ∀ c ∈ front ++ back, same c = false := by
    intro c hc
    rw [← hkept] at hc
    simpa using (List.mem_filter.mp hc).2
  have hfront : ∀ c ∈ front.filter (!same' ·), same c = false := fun c hc =>
    hsame c (List.mem_append_left _ (List.mem_of_mem_filter hc))
  have hback : ∀ c ∈ back.filter (!same' ·), same c = false := fun c hc =>
    hsame c (List.mem_append_right _ (List.mem_of_mem_filter hc))
  have hmoved := hslot.filter h
  rw [hput, List.filter_append, List.filter_cons_of_pos (by simp [h.unlike hkinda])] at hkept'
  suffices hagain : putFirst kind' same' b (putFirst kind same a (front' ++ b :: back')) =
      putFirst kind' same' b (front' ++ b :: back') by
    rw [hput', hagain, ← hput', putFirst_putFirst hb]
  generalize front.filter (!same' ·) = kept at *
  generalize back.filter (!same' ·) = rest at *
  obtain ⟨mid, rfl, hmid⟩ | ⟨mid, rfl, rfl⟩ := List.append_eq_append_iff.mp hkept'
  · cases mid with
    | nil =>
      obtain rfl : a :: rest = back' := hmid
      rw [List.append_nil] at hslot' ⊢
      rw [← List.append_nil kept] at hmoved
      have hbefore :
        putFirst kind' same' b (putFirst kind same a (kept ++ b :: ([] ++ a :: rest))) =
          putFirst kind' same' b (kept ++ b :: ([] ++ a :: rest)) :=
        putFirst_before h ha hb hfront (List.forall_mem_nil _) hback hmoved hslot'
      exact hbefore
    | cons c mid =>
      obtain ⟨rfl, rfl⟩ := List.cons.inj hmid
      rw [List.append_assoc, List.cons_append, putFirst_behind h ha hb hfront
        (fun c hc => hback c (List.mem_append_left _ hc))
        (fun c hc => hback c (List.mem_append_right _ hc)) hmoved hslot']
  · exact putFirst_before h ha hb (fun c hc => hfront c (List.mem_append_left _ hc))
      (fun c hc => hfront c (List.mem_append_right _ hc)) hback hmoved hslot'

end TwoKinds

end Simard.Library
