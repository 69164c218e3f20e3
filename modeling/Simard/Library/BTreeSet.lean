import Mathlib

/-! Ordered sets without repetition, kept as their ascending list. The list is
the whole value: two sets with the same members are equal, and a set is written
out in one way only. -/
namespace Simard.Library

structure BTreeSet (α : Type) [LinearOrder α] where
  elems : List α
  ascending : elems.Pairwise (· < ·)

namespace BTreeSet

variable {α : Type} [LinearOrder α]

@[ext] theorem ext {s t : BTreeSet α} (h : s.elems = t.elems) : s = t := by
  cases s
  cases t
  cases h
  rfl

instance : DecidableEq (BTreeSet α) := fun s t =>
  decidable_of_iff (s.elems = t.elems) ⟨ext, congrArg elems⟩

def empty : BTreeSet α := ⟨[], List.Pairwise.nil⟩

instance : EmptyCollection (BTreeSet α) := ⟨empty⟩

def insertInto (a : α) : List α → List α
  | [] => [a]
  | b :: rest => if a < b then a :: b :: rest else if a = b then
    b :: rest else b :: insertInto a rest

theorem mem_insertInto {a x : α} {l : List α} : x ∈ insertInto a l ↔ x = a ∨ x ∈ l := by
  induction l with
  | nil => simp [insertInto]
  | cons b rest ih =>
    unfold insertInto
    split
    · simp
    split
    · rename_i hab
      subst hab
      simp
    · simp only [List.mem_cons, ih]
      exact or_left_comm

theorem ascending_insertInto (a : α) (l : List α) (h : l.Pairwise (· < ·)) :
    (insertInto a l).Pairwise (· < ·) := by
  induction l with
  | nil => simp [insertInto]
  | cons b rest ih =>
    obtain ⟨hb, hrest⟩ := List.pairwise_cons.mp h
    unfold insertInto
    split
    · rename_i hab
      refine List.pairwise_cons.mpr ⟨?_, h⟩
      intro x hx
      rcases List.mem_cons.mp hx with rfl | hx
      · exact hab
      · exact hab.trans (hb x hx)
    split
    · exact h
    · rename_i hlt hne
      refine List.pairwise_cons.mpr ⟨?_, ih hrest⟩
      intro x hx
      rcases mem_insertInto.mp hx with rfl | hx
      · exact lt_of_le_of_ne (not_lt.mp hlt) (Ne.symm hne)
      · exact hb x hx

def insert (a : α) (s : BTreeSet α) : BTreeSet α :=
  ⟨insertInto a s.elems, ascending_insertInto a s.elems s.ascending⟩

def ofList (l : List α) : BTreeSet α := l.foldr insert empty

theorem mem_ofList {l : List α} {a : α} : a ∈ (ofList l).elems ↔ a ∈ l := by
  induction l with
  | nil => exact Iff.rfl
  | cons b l ih =>
    change a ∈ insertInto b (ofList l).elems ↔ _
    rw [mem_insertInto, ih, List.mem_cons]

def contains (s : BTreeSet α) (a : α) : Bool := decide (a ∈ s.elems)

def isEmpty (s : BTreeSet α) : Bool := s.elems.isEmpty

def isSubset (s t : BTreeSet α) : Bool := s.elems.all t.contains

@[simp] theorem contains_insert (a x : α) (s : BTreeSet α) :
    (s.insert a).contains x = (decide (x = a) || s.contains x) := by
  simp [contains, insert, mem_insertInto]

@[simp] theorem contains_ofList (l : List α) (x : α) : (ofList l).contains x = decide (x ∈ l) := by
  induction l with
  | nil => simp [ofList, contains, empty]
  | cons a rest ih =>
    change ((ofList rest).insert a).contains x = _
    simp [ih]

@[simp] theorem ofList_elems (s : BTreeSet α) : ofList s.elems = s := by
  have hlist (l : List α) (h : l.Pairwise (· < ·)) : (ofList l).elems = l := by
    induction l with
    | nil => rfl
    | cons a rest ih =>
      obtain ⟨ha, hrest⟩ := List.pairwise_cons.mp h
      have htail := ih hrest
      change insertInto a (ofList rest).elems = a :: rest
      rw [htail]
      cases rest with
      | nil => rfl
      | cons b rest => simp [insertInto, ha b List.mem_cons_self]
  exact ext (hlist s.elems s.ascending)

end BTreeSet

end Simard.Library
