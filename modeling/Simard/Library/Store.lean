import Mathlib

/-! Keyed tables as lists in insertion order, with the four statements a small
relational store needs: look a row up, append it, update or delete where a
predicate holds. A computation that may fail is inverted one bind at a time. -/
namespace Simard.Library

theorem bind_eq_ok {x : Except ε α} {f : α → Except ε β} {b : β} :
    (x >>= f) = .ok b ↔ ∃ a, x = .ok a ∧ f a = .ok b := by
  cases x with
  | error e => simp [Bind.bind, Except.bind]
  | ok a => simp [Bind.bind, Except.bind]

theorem pure_eq_ok {a b : α} : (pure a : Except ε α) = .ok b ↔ a = b := by
  simp [pure, Except.pure]

@[simp] theorem mapError_eq_ok {x : Except ε α} {f : ε → δ} {a : α} :
    x.mapError f = .ok a ↔ x = .ok a := by
  cases x <;> simp [Except.mapError]

theorem map_eq_ok {x : Except ε α} {f : α → β} {b : β} :
    x.map f = .ok b ↔ ∃ a, x = .ok a ∧ f a = b := by
  cases x <;> simp [Except.map]

theorem map_eq_error {x : Except ε α} {f : α → β} {e : ε} :
    x.map f = .error e ↔ x = .error e := by
  cases x <;> simp [Except.map]

theorem guard_eq_ok {p : Prop} [Decidable p] {e : ε} {x : Except ε α} {a : α} :
    (if p then .error e else x) = .ok a ↔ ¬p ∧ x = .ok a := by
  by_cases h : p <;> simp [h]

namespace Table

variable {ρ κ : Type}

def lookup [DecidableEq κ] (key : ρ → κ) (k : κ) (rows : List ρ) : Option ρ :=
  rows.find? fun row => decide (key row = k)

def updateWhere (p : ρ → Bool) (f : ρ → ρ) (rows : List ρ) : List ρ :=
  rows.map fun row => if p row then f row else row

def deleteWhere (p : ρ → Bool) (rows : List ρ) : List ρ :=
  rows.filter fun row => !p row

def Keyed (key : ρ → κ) (rows : List ρ) : Prop :=
  (rows.map key).Nodup

theorem lookup_mem [DecidableEq κ] {key : ρ → κ} {k : κ} {rows : List ρ} {row : ρ}
    (h : lookup key k rows = some row) : row ∈ rows ∧ key row = k :=
  ⟨List.mem_of_find?_eq_some h, by simpa using List.find?_some h⟩

theorem lookup_eq_none [DecidableEq κ] {key : ρ → κ} {k : κ} {rows : List ρ} :
    lookup key k rows = none ↔ ∀ row ∈ rows, key row ≠ k := by
  simp [lookup]

theorem Keyed.eq_of_key {key : ρ → κ} {rows : List ρ} (h : Keyed key rows) {a b : ρ}
    (ha : a ∈ rows) (hb : b ∈ rows) (hkey : key a = key b) : a = b :=
  List.inj_on_of_nodup_map h ha hb hkey

theorem Keyed.lookup_eq [DecidableEq κ] {key : ρ → κ} {rows : List ρ} (h : Keyed key rows) {row : ρ}
    (hrow : row ∈ rows) : lookup key (key row) rows = some row := by
  cases hfind : lookup key (key row) rows with
  | none => exact absurd rfl (lookup_eq_none.mp hfind row hrow)
  | some other =>
    obtain ⟨hmem, hkey⟩ := lookup_mem hfind
    rw [h.eq_of_key hmem hrow hkey]

theorem Keyed.filter_eq [DecidableEq κ] {key : ρ → κ} {rows : List ρ} (h : Keyed key rows)
    {row : ρ} (hrow : row ∈ rows) : rows.filter (fun other => decide (key other = key row)) =
    [row] := by
  induction rows with
  | nil => cases hrow
  | cons first rest ih =>
    obtain ⟨hfirst, hrest⟩ := List.nodup_cons.mp h
    rcases List.mem_cons.mp hrow with rfl | hrow
    · have hnone : rest.filter (fun other => decide (key other = key row)) = [] := by
        apply List.filter_eq_nil_iff.mpr
        intro other hother hkey
        apply hfirst
        rw [← of_decide_eq_true hkey]
        exact List.mem_map_of_mem hother
      rw [List.filter_cons_of_pos (by simp), hnone]
    · have hne : key first ≠ key row := by
        intro hkey
        apply hfirst
        rw [hkey]
        exact List.mem_map_of_mem hrow
      rw [List.filter_cons_of_neg (by simpa using hne)]
      exact ih hrest hrow

theorem Keyed.filter_length_le_one [DecidableEq κ] {key : ρ → κ} {rows : List ρ}
    (h : Keyed key rows) (k : κ) : (rows.filter fun row => decide (key row = k)).length ≤ 1 := by
  by_cases hsome : ∃ row ∈ rows, key row = k
  · obtain ⟨row, hrow, rfl⟩ := hsome
    rw [h.filter_eq hrow]
    rfl
  · have hnone : rows.filter (fun row => decide (key row = k)) = [] := by
      apply List.filter_eq_nil_iff.mpr
      intro row hrow hkey
      exact hsome ⟨row, hrow, of_decide_eq_true hkey⟩
    rw [hnone]
    exact Nat.zero_le 1

@[simp] theorem keyed_nil (key : ρ → κ) : Keyed key [] := List.nodup_nil

theorem keyed_append {key : ρ → κ} {rows : List ρ} {row : ρ} :
    Keyed key (rows ++ [row]) ↔ Keyed key rows ∧ ∀ other ∈ rows, key other ≠ key row := by
  unfold Keyed
  rw [List.map_append, List.nodup_append]
  simp

theorem Keyed.updateWhere {key : ρ → κ} {rows : List ρ} (h : Keyed key rows) (p : ρ → Bool)
    {f : ρ → ρ} (hf : ∀ row, key (f row) = key row) : Keyed key (updateWhere p f rows) := by
  have hkeys : (Table.updateWhere p f rows).map key = rows.map key := by
    unfold Table.updateWhere
    rw [List.map_map]
    apply List.map_congr_left
    intro row _
    by_cases hp : p row
    · simp [hp, hf]
    · simp [hp]
  unfold Keyed
  rw [hkeys]
  exact h

theorem Keyed.deleteWhere {key : ρ → κ} {rows : List ρ} (h : Keyed key rows) (p : ρ → Bool) :
    Keyed key (deleteWhere p rows) :=
  List.Nodup.sublist (List.Sublist.map key List.filter_sublist) h

theorem lookup_append [DecidableEq κ] {key : ρ → κ} {k : κ} {rows : List ρ} {row : ρ} :
    lookup key k (rows ++ [row]) =
      (lookup key k rows).or (if key row = k then some row else none) := by
  unfold lookup
  rw [List.find?_append]
  by_cases h : key row = k <;> simp [h]

theorem lookup_append_of_some [DecidableEq κ] {key : ρ → κ} {k : κ} {rows : List ρ} {row found : ρ}
    (h : lookup key k rows = some found) : lookup key k (rows ++ [row]) = some found := by
  rw [lookup_append, h]
  rfl

theorem lookup_updateWhere [DecidableEq κ] {key : ρ → κ} {f : ρ → ρ}
    (hf : ∀ row, key (f row) = key row)
    (p : ρ → Bool) (k : κ) (rows : List ρ) :
    lookup key k (updateWhere p f rows) =
      (lookup key k rows).map fun row => if p row then f row else row := by
  unfold lookup updateWhere
  rw [List.find?_map]
  congr 2
  funext row
  by_cases hp : p row
  · simp [hp, hf]
  · simp [hp]

/-- Updating rows of other keys, to rows of other keys, leaves what a key finds. -/
theorem lookup_updateWhere_other [DecidableEq κ] {key : ρ → κ} {k : κ} {p : ρ → Bool} {f : ρ → ρ}
    (h : ∀ row, p row → key row ≠ k ∧ key (f row) ≠ k) (rows : List ρ) :
    lookup key k (updateWhere p f rows) = lookup key k rows := by
  unfold lookup updateWhere
  induction rows with
  | nil => rfl
  | cons row rows ih =>
    rw [List.map_cons, List.find?_cons, List.find?_cons, ih]
    by_cases hp : p row
    · simp [hp, h row hp]
    · simp [hp]

theorem lookup_replace [DecidableEq κ] {key : ρ → κ} {row : ρ} {rows : List ρ}
    (h : rows.any fun old => key old = key row) :
    lookup key (key row) (updateWhere (fun old => key old = key row) (fun _ => row) rows) =
      some row := by
  unfold lookup updateWhere
  induction rows with
  | nil => cases h
  | cons old rows ih =>
    rw [List.map_cons, List.find?_cons]
    by_cases hkey : key old = key row
    · simp [hkey]
    · simp only [hkey, decide_false, Bool.false_eq_true, if_false]
      apply ih
      simpa [hkey] using h

theorem mem_updateWhere {p : ρ → Bool} {f : ρ → ρ} {rows : List ρ} {row : ρ} :
    row ∈ updateWhere p f rows ↔ ∃ old ∈ rows, (if p old then f old else old) = row := by
  simp [updateWhere]

theorem mem_deleteWhere {p : ρ → Bool} {rows : List ρ} {row : ρ} :
    row ∈ deleteWhere p rows ↔ row ∈ rows ∧ p row = false := by
  simp [deleteWhere]

theorem Keyed.lookup_deleteWhere [DecidableEq κ] {key : ρ → κ} {rows : List ρ} (h : Keyed key rows)
    (p : ρ → Bool) (k : κ) :
    lookup key k (Table.deleteWhere p rows) = (lookup key k rows).filter (fun row => !p row) := by
  cases hrow : lookup key k rows with
  | none =>
    apply lookup_eq_none.mpr
    intro row hmem
    exact lookup_eq_none.mp hrow row (mem_deleteWhere.mp hmem).1
  | some row =>
    obtain ⟨hmem, hkey⟩ := lookup_mem hrow
    by_cases hp : p row
    · simp only [Option.filter, hp, Bool.not_true, Bool.false_eq_true, if_false]
      apply lookup_eq_none.mpr
      intro other hother hsame
      obtain ⟨hother, hkept⟩ := mem_deleteWhere.mp hother
      have heq := h.eq_of_key hother hmem (hsame.trans hkey.symm)
      rw [heq, hp] at hkept
      cases hkept
    · simp only [Option.filter, hp, Bool.not_false, if_true]
      rw [← hkey]
      apply (h.deleteWhere p).lookup_eq
      exact mem_deleteWhere.mpr ⟨hmem, by simpa using hp⟩

end Table

end Simard.Library
