import Simard.Library.Words

/-! Paths and what a file system answers about them. -/
namespace Simard.Library

def startsWith (path base : String) : Bool :=
  (pathComponents base).isPrefixOf (pathComponents path)

theorem startsWith_trans {path mid base : String} (h : startsWith path mid = true)
    (hmid : startsWith mid base = true) : startsWith path base = true := by
  unfold startsWith at *
  rw [List.isPrefixOf_iff_prefix] at *
  exact hmid.trans h

theorem startsWith_of_samePath {path base : String} (h : samePath path base = true) :
    startsWith path base = true := by
  unfold samePath at h
  unfold startsWith
  rw [of_decide_eq_true h]
  simp

theorem count_pathComponents {c : Char} (hslash : c ≠ '/') (hdot : c ≠ '.') (path : String) :
    (pathComponents path).flatten.count c = path.toList.count c := by
  have hplain (pieces : List (List Char)) :
      (pieces.filter fun step => step != [] && step != ['.']).flatten.count c =
        pieces.flatten.count c := by
    induction pieces with
    | nil => rfl
    | cons piece pieces ih =>
      rw [List.filter_cons]
      split
      · rw [List.flatten_cons, List.flatten_cons, List.count_append, List.count_append, ih]
      next hdropped =>
        have hempty : piece = [] ∨ piece = ['.'] := by
          by_contra hne
          rw [not_or] at hne
          exact hdropped (by simp [hne.1, hne.2])
        rcases hempty with rfl | rfl
        · rw [ih, List.flatten_cons, List.nil_append]
        · rw [ih, List.flatten_cons, List.singleton_append, List.count_cons_of_ne (Ne.symm hdot)]
  unfold pathComponents
  split
  next rest heq =>
    rw [heq, List.flatten_cons, List.singleton_append, List.count_cons_of_ne (Ne.symm hslash),
      List.count_cons_of_ne (Ne.symm hslash), hplain, count_flatten_splitOn hslash]
  next steps hsteps =>
    rw [← count_flatten_splitOn hslash path.toList]
    split
    next first rest hpieces =>
      have hfirst : ([first].filter (· != [])).flatten = first := by
        cases first <;> simp
      rw [hpieces, List.flatten_append, hfirst, List.count_append, hplain, List.flatten_cons,
        List.count_append]
    next hnone => exact absurd hnone (List.splitOn_ne_nil '/' path.toList)

/-- The real path of a path, if it resolves; and what is at a path, or under a name in a
directory by its real path, without following it: nothing, a symbolic link, or not one. -/
structure Disk where
  canonicalize : String → Option String
  isSymlink : String → Option Bool
  entry : String → String → Option Bool

namespace Disk

/-- Everything whose real path lies in a directory is gone. -/
def without (disk : Disk) (dir : String) : Disk where
  canonicalize path := (disk.canonicalize path).filter fun real => !startsWith real dir
  isSymlink path :=
    if (disk.canonicalize path).any (startsWith · dir) then none else disk.isSymlink path
  entry real name := if startsWith real dir then none else disk.entry real name

def entryIn (disk : Disk) (dir name : String) : Option Bool :=
  (disk.canonicalize dir).bind (disk.entry · name)

theorem canonicalize_without (disk : Disk) (dir path : String) :
    (disk.without dir).canonicalize path =
      (disk.canonicalize path).filter fun real => !startsWith real dir := rfl

end Disk

end Simard.Library
