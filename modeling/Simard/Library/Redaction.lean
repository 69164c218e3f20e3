import Mathlib.Data.List.Infix

/-! A scan from left to right that puts a mark in the place of what it recognises. Where the mark
and what is looked for cannot run into each other, nothing that is looked for is left. -/
namespace Simard.Library

section Redaction
variable {α : Type}

/-- The scan. What begins at an element is cut together with as many elements after it as `cut`
gives; the number counts down those that are passed over. -/
def redact (cut : List α → Option Nat) (mark : List α) : Nat → List α → List α
  | _, [] => []
  | 0, a :: rest =>
      match cut (a :: rest) with
      | some more => mark ++ redact cut mark more rest
      | none => a :: redact cut mark 0 rest
  | skipped + 1, _ :: rest => redact cut mark skipped rest

variable {cut : List α → Option Nat} {mark : List α}

theorem redact_kept {a : α} {rest : List α} (h : cut (a :: rest) = none) :
    redact cut mark 0 (a :: rest) = a :: redact cut mark 0 rest := by
  rw [redact, h]

theorem redact_cut {a : α} {rest : List α} {more : Nat} (h : cut (a :: rest) = some more) :
    redact cut mark 0 (a :: rest) = mark ++ redact cut mark more rest := by
  rw [redact, h]

theorem isPrefix_of_redact {d : α} {tail : List α} (hmark : mark = d :: tail) {word text : List α}
    (hword : d ∉ word) (h : word.IsPrefix (redact cut mark 0 text)) : word.IsPrefix text := by
  induction text generalizing word with
  | nil => exact h
  | cons a rest ih =>
    cases word with
    | nil => exact List.nil_prefix
    | cons b word =>
      rw [List.mem_cons, not_or] at hword
      cases hcut : cut (a :: rest) with
      | none =>
        rw [redact_kept hcut, List.cons_prefix_cons] at h
        exact List.cons_prefix_cons.mpr ⟨h.1, ih hword.2 h.2⟩
      | some more =>
        rw [redact_cut hcut, hmark, List.cons_append, List.cons_prefix_cons] at h
        exact absurd h.1.symm hword.1

/-- What is looked for: words that begin somewhere, none of which the mark can be part of. -/
structure MarkApart (bad : List α → Prop) (mark : List α) : Prop where
  word : ∀ text, bad text → ∃ word : List α, (∀ d ∈ mark.head?, d ∉ word) ∧ word.IsPrefix text ∧
    ∀ other, word.IsPrefix other → bad other
  head : ∀ a rest, bad (a :: rest) → a ∉ mark

theorem redact_clean {bad : List α → Prop} (hapart : MarkApart bad mark)
    (hne : mark ≠ []) {text : List α}
    (hcut : ∀ part, part.IsSuffix text → cut part = none → ¬ bad part) (skipped : Nat) :
    ∀ part, part.IsSuffix (redact cut mark skipped text) → ¬ bad part := by
  obtain ⟨d, tail, hmark⟩ := List.exists_cons_of_ne_nil hne
  have hempty : ¬ bad [] := by
    intro hbad
    obtain ⟨word, -, hword, hall⟩ := hapart.word [] hbad
    rw [List.prefix_nil] at hword
    have hbegins : bad (d :: tail) := hall _ (hword ▸ List.nil_prefix)
    exact hapart.head d tail hbegins (hmark ▸ List.mem_cons_self)
  induction text generalizing skipped with
  | nil =>
    intro part hpart
    cases skipped with
    | zero => rwa [List.suffix_nil.mp hpart]
    | succ skipped => rwa [List.suffix_nil.mp hpart]
  | cons a rest ih =>
    have hrest := ih fun part hpart => hcut part (hpart.trans (List.suffix_cons a rest))
    intro part hpart
    cases skipped with
    | succ skipped => exact hrest skipped part hpart
    | zero =>
      cases hfound : cut (a :: rest) with
      | some more =>
        rw [redact_cut hfound] at hpart
        obtain ⟨front, hfront⟩ := hpart
        -- The part begins in the mark or after it.
        rcases List.append_eq_append_iff.mp hfront with ⟨back, hmarked, hpart⟩ | ⟨back, -, hafter⟩
        · cases back with
          | nil =>
            rw [hpart, List.nil_append]
            exact hrest more _ (List.suffix_refl _)
          | cons b back =>
            rw [hpart, List.cons_append]
            intro hbad
            refine hapart.head b _ hbad ?_
            rw [hmarked]
            exact List.mem_append_right _ List.mem_cons_self
        · exact hrest more part ⟨back, hafter.symm⟩
      | none =>
        rw [redact_kept hfound, List.suffix_cons_iff] at hpart
        rcases hpart with rfl | hpart
        · intro hbad
          obtain ⟨word, hclear, hword, hall⟩ := hapart.word _ hbad
          have hclear' : d ∉ word := hclear d (by rw [hmark]; rfl)
          refine hcut _ (List.suffix_refl _) hfound (hall _ ?_)
          cases word with
          | nil => exact List.nil_prefix
          | cons b word =>
            rw [List.mem_cons, not_or] at hclear'
            rw [List.cons_prefix_cons] at hword ⊢
            exact ⟨hword.1, isPrefix_of_redact hmark hclear'.2 hword.2⟩
        · exact hrest 0 part hpart

theorem redact_eq_self {text : List α} (h : ∀ part, part.IsSuffix text → cut part = none) :
    redact cut mark 0 text = text := by
  induction text with
  | nil => rfl
  | cons a rest ih =>
    rw [redact_kept (h _ (List.suffix_refl _)),
      ih fun part hpart => h part (hpart.trans (List.suffix_cons a rest))]

end Redaction

end Simard.Library
