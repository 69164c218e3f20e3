import Mathlib.Logic.Function.Basic

/-! A table that is written key by key: each key has what was written for it last, or what it had
before. -/
namespace Simard.Library

section LastWrite

variable {κ β : Type} [DecidableEq κ]

def writeAll (table : κ → β) (writes : List (κ × β)) : κ → β :=
  writes.foldl (fun table write => Function.update table write.1 write.2) table

theorem writeAll_append (table : κ → β) (first second : List (κ × β)) :
    writeAll table (first ++ second) = writeAll (writeAll table first) second := by
  rw [writeAll, List.foldl_append, writeAll, writeAll]

theorem writeAll_keeps {table : κ → β} {writes : List (κ × β)} {key : κ} {value : β}
    (hwrites : ∀ write ∈ writes, write.1 = key → write.2 = value) (htable : table key = value) :
    writeAll table writes key = value := by
  induction writes generalizing table with
  | nil => exact htable
  | cons write writes ih =>
    rw [List.forall_mem_cons] at hwrites
    rw [writeAll, List.foldl_cons]
    apply ih hwrites.2
    by_cases hkey : write.1 = key
    · rw [hkey, Function.update_self, hwrites.1 hkey]
    · rw [Function.update_of_ne (Ne.symm hkey), htable]

theorem writeAll_has {table : κ → β} {writes : List (κ × β)} {key : κ} {value : β}
    (hwrites : ∀ write ∈ writes, write.1 = key → write.2 = value) (hmem : (key, value) ∈ writes) :
    writeAll table writes key = value := by
  obtain ⟨before, after, rfl⟩ := List.append_of_mem hmem
  rw [writeAll_append, writeAll, List.foldl_cons, ← writeAll]
  apply writeAll_keeps
  · intro write hwrite
    exact hwrites write (List.mem_append_right _ (List.mem_cons_of_mem _ hwrite))
  · exact Function.update_self _ _ _

theorem writeAll_of_forall {P : β → Prop} {table : κ → β} {writes : List (κ × β)} {key : κ}
    (hwrites : ∀ write ∈ writes, P write.2) (htable : P (table key)) :
    P (writeAll table writes key) := by
  induction writes generalizing table with
  | nil => exact htable
  | cons write writes ih =>
    rw [List.forall_mem_cons] at hwrites
    rw [writeAll, List.foldl_cons]
    apply ih hwrites.2
    by_cases hkey : key = write.1
    · rw [hkey, Function.update_self]
      exact hwrites.1
    · rw [Function.update_of_ne hkey]
      exact htable

end LastWrite

end Simard.Library
