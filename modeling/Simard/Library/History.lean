import Mathlib

/-! Histories: lists that only grow at their end. A law of a history says of every entry how
it must stand to what was there before it. -/
namespace Simard.Library

variable {α : Type}

/-- Every entry of the history meets the law with the entries before it. -/
def Kept (law : List α → α → Prop) (history : List α) : Prop :=
  ∀ before entry after, history = before ++ entry :: after → law before entry

namespace Kept

variable {law law' : List α → α → Prop} {history : List α} {entry : α}

theorem nil : Kept law [] := by
  intro before entry after h
  cases before <;> cases h

@[simp] theorem concat_iff :
    Kept law (history ++ [entry]) ↔ Kept law history ∧ law history entry := by
  constructor
  · intro h
    refine ⟨?_, h history entry [] rfl⟩
    rintro before e after rfl
    exact h before e (after ++ [entry]) (by simp)
  · rintro ⟨hkept, hlast⟩ before e after heq
    rcases List.eq_nil_or_concat after with rfl | ⟨after, last, rfl⟩
    · obtain ⟨rfl, hentry⟩ := List.append_inj' heq rfl
      obtain rfl := List.singleton_inj.mp hentry
      exact hlast
    · rw [List.concat_eq_append, ← List.cons_append, ← List.append_assoc] at heq
      exact hkept before e after (List.append_inj' heq rfl).1

theorem of_append {left right : List α} (hkept : Kept law (left ++ right)) : Kept law left := by
  rintro before e after rfl
  exact hkept before e (after ++ right) (by simp)

/-- Laws that agree where a third one is kept are kept by the same histories. -/
theorem congr {given : List α → α → Prop} (hgiven : Kept given history)
    (h : ∀ before entry, given before entry → (law before entry ↔ law' before entry)) :
    Kept law history ↔ Kept law' history := by
  unfold Kept
  refine forall_congr' fun before => forall_congr' fun e => forall_congr' fun after => ?_
  refine imp_congr_right fun heq => h before e (hgiven before e after heq)

theorem mono (hkept : Kept law history) (h : ∀ before entry, law before entry → law' before entry) :
    Kept law' history :=
  fun before e after heq => h before e (hkept before e after heq)

theorem and_iff : Kept (fun before entry => law before entry ∧ law' before entry) history ↔
    Kept law history ∧ Kept law' history := by
  constructor
  · intro h
    exact ⟨fun before e after heq => (h before e after heq).1,
      fun before e after heq => (h before e after heq).2⟩
  · rintro ⟨h, h'⟩ before e after heq
    exact ⟨h before e after heq, h' before e after heq⟩

theorem pairwise_iff {R : α → α → Prop} :
    history.Pairwise R ↔ Kept (fun before entry => ∀ e ∈ before, R e entry) history := by
  induction history using List.reverseRecOn with
  | nil => exact iff_of_true List.Pairwise.nil nil
  | append_singleton history entry ih =>
    rw [concat_iff, List.pairwise_append, ih]
    simp

theorem map_iff {β : Type} {law : List β → β → Prop} {f : α → β} :
    Kept law (history.map f) ↔
      Kept (fun before entry => law (before.map f) (f entry)) history := by
  induction history using List.reverseRecOn with
  | nil => exact iff_of_true nil nil
  | append_singleton history entry ih =>
    rw [List.map_append, List.map_singleton, concat_iff, concat_iff, ih]

end Kept

/-- Where only one entry has a property, a history splits at such an entry in one way. -/
theorem split_unique {p : α → Prop} {left right before after : List α} {x y : α}
    (hleft : ∀ e ∈ left, ¬ p e) (hright : ∀ e ∈ right, ¬ p e) (hy : p y)
    (heq : left ++ x :: right = before ++ y :: after) :
    left = before ∧ x = y ∧ right = after := by
  induction left generalizing before with
  | nil =>
    cases before with
    | nil =>
      obtain ⟨rfl, rfl⟩ := List.cons.inj heq
      exact ⟨rfl, rfl, rfl⟩
    | cons b before =>
      obtain ⟨-, rfl⟩ := List.cons.inj heq
      exact absurd hy (hright y (List.mem_append_right _ List.mem_cons_self))
  | cons a left ih =>
    cases before with
    | nil =>
      obtain ⟨rfl, -⟩ := List.cons.inj heq
      exact absurd hy (hleft a List.mem_cons_self)
    | cons b before =>
      obtain ⟨rfl, hrest⟩ := List.cons.inj heq
      obtain ⟨rfl, hxy, hafter⟩ := ih (fun e he => hleft e (List.mem_cons_of_mem _ he)) hrest
      exact ⟨rfl, hxy, hafter⟩

end Simard.Library
