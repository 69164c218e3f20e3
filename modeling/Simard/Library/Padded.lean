import Mathlib.Data.List.Lex
import Mathlib.Data.Nat.Digits.Defs

/-! Numbers in decimal with leading zeros: at one width the order of the texts is that of the
numbers. -/
namespace Simard.Library

def padded (width n : Nat) : List Char := List.leftpad width '0' (Nat.toDigits 10 n)

theorem length_padded {width n : Nat} (hwidth : 0 < width) (hn : n < 10 ^ width) :
    (padded width n).length = width := by
  have hlength := Nat.toDigits_length 10 n width hwidth hn
  simp only [padded, List.leftpad, List.length_append, List.length_replicate]
  omega

theorem padded_succ {width : Nat} (hwidth : 0 < width) (n : Nat) :
    padded (width + 1) n = padded width (n / 10) ++ [(n % 10).digitChar] := by
  by_cases hn : n < 10
  · rw [padded, padded, Nat.toDigits_of_lt_base hn, Nat.div_eq_of_lt hn, Nat.mod_eq_of_lt hn,
      Nat.toDigits_zero]
    obtain ⟨width, rfl⟩ := Nat.exists_eq_succ_of_ne_zero hwidth.ne'
    simp [List.leftpad, List.replicate_succ']
  · rw [padded, padded, Nat.toDigits_of_base_le (by decide) (Nat.le_of_not_lt hn)]
    simp [List.leftpad]

theorem append_lt_append {α : Type} [LT α] {l l' : List α} (h : l < l')
    (hlength : l.length = l'.length) (r r' : List α) : l ++ r < l' ++ r' := by
  induction h with
  | nil => cases hlength
  | cons _ ih => exact List.Lex.cons (ih (Nat.succ.inj hlength))
  | rel h => exact List.Lex.rel h

theorem digitChar_lt {n m : Nat} (h : n < m) (hm : m < 10) : n.digitChar < m.digitChar := by
  have hall : ∀ m < 10, ∀ n < m, n.digitChar < m.digitChar := by decide
  exact hall m hm n h

theorem padded_lt {width n m : Nat} (hwidth : 0 < width) (h : n < m) (hm : m < 10 ^ width) :
    padded width n < padded width m := by
  induction width, hwidth using Nat.le_induction generalizing n m with
  | base =>
    rw [pow_one] at hm
    rw [padded, padded, Nat.toDigits_of_lt_base (h.trans hm), Nat.toDigits_of_lt_base hm]
    exact List.Lex.rel (digitChar_lt h hm)
  | succ width hwidth ih =>
    rw [padded_succ hwidth, padded_succ hwidth]
    have hm' : m / 10 < 10 ^ width := by
      rw [pow_succ] at hm
      omega
    rcases Nat.lt_or_eq_of_le (Nat.div_le_div_right (c := 10) h.le) with hlt | heq
    · refine append_lt_append (ih hlt hm') ?_ _ _
      rw [length_padded hwidth (hlt.trans hm'), length_padded hwidth hm']
    · rw [heq]
      have hdigit : n % 10 < m % 10 := by omega
      exact List.Lex.append_left _ (List.Lex.rel (digitChar_lt hdigit (by omega))) _

end Simard.Library
