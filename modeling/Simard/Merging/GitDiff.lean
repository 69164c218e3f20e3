import Simard.Library.Lines
import Simard.Merging.PrVerify

/-! The unified diff git prints for a set of file changes. A change names the file on its two
sides, and has the lines it removes and adds with some lines around them; a change of a file
git takes for binary shows none of them. -/
namespace Simard.Merging
open Simard.Library

structure HunkLine where
  kind : LineKind
  content : List Char
  noNewline : Bool
  oneLine : '\n' ∉ content

structure Hunk where
  oldStart : Nat
  newStart : Nat
  heading : List Char
  lines : List HunkLine
  oneLine : '\n' ∉ heading
  changes : ∃ line ∈ lines, line.kind ≠ .context

inductive FileMode where
  | regular
  | executable
  | symlink
  deriving DecidableEq

/-- A file is changed, added if it has no old side, deleted if it has no new one, and renamed
if the sides differ. The hunks are empty where the content stays as it is. -/
structure FileChange where
  old : Option (List Char)
  new : Option (List Char)
  oldMode : FileMode
  newMode : FileMode
  similarity : Nat
  oldBlob : List (Fin 16)
  newBlob : List (Fin 16)
  binary : Bool
  hunks : List Hunk
  present : old.isSome ∨ new.isSome
  added : old = none → ∀ hunk ∈ hunks, ∀ line ∈ hunk.lines, line.kind = .added
  deleted : new = none → ∀ hunk ∈ hunks, ∀ line ∈ hunk.lines, line.kind = .removed

def FileChange.lines (change : FileChange) : List HunkLine := change.hunks.flatMap Hunk.lines

def needsQuote (c : Char) : Bool := c.toNat < 0x20 || 0x7f ≤ c.toNat || c = '"' || c = '\\'

def escapeByte (b : UInt8) : List Char :=
  if b = 7 then ['\\', 'a']
  else if b = 8 then ['\\', 'b']
  else if b = 9 then ['\\', 't']
  else if b = 10 then ['\\', 'n']
  else if b = 11 then ['\\', 'v']
  else if b = 12 then ['\\', 'f']
  else if b = 13 then ['\\', 'r']
  else if b = 34 then ['\\', '"']
  else if b = 92 then ['\\', '\\']
  else if b < 0x20 || 0x7f ≤ b then
    ['\\', Nat.digitChar (b.toNat / 64), Nat.digitChar (b.toNat / 8 % 8),
      Nat.digitChar (b.toNat % 8)]
  else [Char.ofNat b.toNat]

/-- A name with what stands before it, quoted as a whole where a character asks for it. -/
def quoteName (before name : List Char) : List Char :=
  if name.any needsQuote then
    '"' :: ((before ++ name).flatMap fun c => (String.utf8EncodeChar c).flatMap escapeByte) ++ ['"']
  else before ++ name

def sideName (before : List Char) : Option (List Char) → List Char
  | none => "/dev/null".toList
  | some name => quoteName before name

def sideLabel (before : List Char) (side : Option (List Char)) : List Char :=
  if ' ' ∈ sideName before side then sideName before side ++ ['\t'] else sideName before side

def FileMode.text : FileMode → List Char
  | .regular => "100644".toList
  | .executable => "100755".toList
  | .symlink => "120000".toList

def blobText (blob : List (Fin 16)) : List Char := blob.map fun digit => Nat.digitChar digit.val

def LineKind.marker : LineKind → Char
  | .added => '+'
  | .removed => '-'
  | .context => ' '

def HunkLine.printed (line : HunkLine) : List (List Char) :=
  (line.kind.marker :: line.content) ::
    if line.noNewline then ["\\ No newline at end of file".toList] else []

/-- Where a hunk stands on a side; a count of one is left out. -/
def rangeText (start count : Nat) : List Char :=
  Nat.toDigits 10 start ++ if count = 1 then [] else ',' :: Nat.toDigits 10 count

def Hunk.header (hunk : Hunk) : List Char :=
  "@@ -".toList ++ rangeText hunk.oldStart (hunk.lines.countP fun line => line.kind ≠ .added) ++
    " +".toList ++ rangeText hunk.newStart (hunk.lines.countP fun line => line.kind ≠ .removed) ++
    " @@".toList ++ if hunk.heading = [] then [] else ' ' :: hunk.heading

def Hunk.printed (hunk : Hunk) : List (List Char) :=
  hunk.header :: hunk.lines.flatMap HunkLine.printed

namespace FileChange

variable (change : FileChange)

/-- The first line names both sides; a side that is not there is named as the other one. -/
def gitLine : List Char :=
  "diff --git ".toList ++ sideName "a/".toList (change.old.or change.new) ++ ' ' ::
    sideName "b/".toList (change.new.or change.old)

def modeLines : List (List Char) :=
  match change.old, change.new with
  | none, _ => ["new file mode ".toList ++ change.newMode.text]
  | _, none => ["deleted file mode ".toList ++ change.oldMode.text]
  | some _, some _ =>
      if change.oldMode = change.newMode then []
      else ["old mode ".toList ++ change.oldMode.text, "new mode ".toList ++ change.newMode.text]

def renameLines : List (List Char) :=
  match change.old, change.new with
  | some old, some new =>
      if old = new then []
      else ["similarity index ".toList ++ Nat.toDigits 10 change.similarity ++ ['%'],
        "rename from ".toList ++ quoteName [] old, "rename to ".toList ++ quoteName [] new]
  | _, _ => []

def indexLines : List (List Char) :=
  if change.hunks = [] ∧ change.old.isSome ∧ change.new.isSome then []
  else ["index ".toList ++ blobText change.oldBlob ++ "..".toList ++ blobText change.newBlob ++
    if change.old.isSome ∧ change.new.isSome ∧ change.oldMode = change.newMode then
      ' ' :: change.newMode.text
    else []]

/-- The lines of the change are printed: it has some, and is no binary file. -/
def shown : Bool := !change.binary && !change.hunks.isEmpty

def bodyLines : List (List Char) :=
  if change.shown then
    ("--- ".toList ++ sideLabel "a/".toList change.old) ::
      ("+++ ".toList ++ sideLabel "b/".toList change.new) :: change.hunks.flatMap Hunk.printed
  else if change.hunks = [] then []
  else ["Binary files ".toList ++ sideName "a/".toList change.old ++ " and ".toList ++
    sideName "b/".toList change.new ++ " differ".toList]

def headLines : List (List Char) :=
  change.gitLine :: change.modeLines ++ change.renameLines ++ change.indexLines

def printed : List (List Char) := change.headLines ++ change.bodyLines

end FileChange

def gitDiff (changes : List FileChange) : List Char := unlines (changes.flatMap FileChange.printed)

/-- The change takes a line out of the product architecture, or takes the file away. -/
def TouchesPrd (change : FileChange) : Prop :=
  change.old = some prdPath ∧
    (change.new ≠ some prdPath ∨ ∃ line ∈ change.lines, line.kind = .removed)

def RemovesPub (change : FileChange) : Prop :=
  ∃ line ∈ change.lines, line.kind = .removed ∧ declaresPub line.content = true

/-- The change adds a Markdown file with some content under a directory of reports. -/
def AddsReport (toLowercase : List Char → List Char) (change : FileChange) : Prop :=
  change.old = none ∧ change.hunks ≠ [] ∧
    ∃ path, change.new = some path ∧ isMarkdown toLowercase path = true ∧ inReportDir path = true

def Violates (toLowercase : List Char → List Char) (changes : List FileChange) : Prop :=
  ∃ change ∈ changes, TouchesPrd change ∨ RemovesPub change ∨ AddsReport toLowercase change

theorem control_notMem_escapeByte {c : Char} (hc : c.toNat < 0x20) (b : UInt8) :
    c ∉ escapeByte b := by
  have hall : ∀ n : Fin 256, (escapeByte (UInt8.ofFin n)).all fun d => 0x20 ≤ d.toNat := by
    decide +kernel
  intro hmem
  have hprinted := List.all_eq_true.mp (hall b.toFin) c hmem
  exact absurd (of_decide_eq_true hprinted) (Nat.not_le.mpr hc)

theorem control_notMem_quoteName {c : Char} (hc : c.toNat < 0x20) {before : List Char}
    (hbefore : c ∉ before) (name : List Char) : c ∉ quoteName before name := by
  have hquote : c ≠ '"' := by
    rintro rfl
    revert hc
    decide
  unfold quoteName
  split
  next =>
    simp only [List.cons_append, List.mem_cons, List.mem_append, List.mem_flatMap, not_or]
    refine ⟨hquote, ?_, hquote, nofun⟩
    rintro ⟨d, -, b, -, hb⟩
    exact control_notMem_escapeByte hc b hb
  next hplain =>
    rw [List.mem_append, not_or]
    refine ⟨hbefore, fun hmem => hplain ?_⟩
    exact List.any_eq_true.mpr ⟨c, hmem, by simp [needsQuote, hc]⟩

theorem control_notMem_sideName {c : Char} (hc : c.toNat < 0x20) {before : List Char}
    (hbefore : c ∉ before) (side : Option (List Char)) : c ∉ sideName before side := by
  cases side with
  | none =>
    have hall : "/dev/null".toList.all fun d => 0x20 ≤ d.toNat := by decide
    intro hmem
    have hprinted := List.all_eq_true.mp hall c hmem
    exact absurd (of_decide_eq_true hprinted) (Nat.not_le.mpr hc)
  | some name => exact control_notMem_quoteName hc hbefore name

theorem control_notMem_sideLabel {c : Char} (hc : c.toNat < 0x20) (htab : c ≠ '\t')
    {before : List Char} (hbefore : c ∉ before) (side : Option (List Char)) :
    c ∉ sideLabel before side := by
  have hname := control_notMem_sideName hc hbefore side
  unfold sideLabel
  split
  · simp [hname, htab]
  · exact hname

theorem newline_notMem_toDigits (n : Nat) : '\n' ∉ Nat.toDigits 10 n := by
  intro hmem
  have hdigit := Nat.isDigit_of_mem_toDigits (by decide) (by decide) hmem
  revert hdigit
  decide

theorem newline_notMem_blobText (blob : List (Fin 16)) : '\n' ∉ blobText blob := by
  intro hmem
  obtain ⟨digit, -, hdigit⟩ := List.mem_map.mp hmem
  revert digit
  decide

theorem newline_notMem_mode (mode : FileMode) : '\n' ∉ mode.text := by
  cases mode <;> decide

theorem newline_notMem_rangeText (start count : Nat) : '\n' ∉ rangeText start count := by
  unfold rangeText
  have hstart := newline_notMem_toDigits start
  have hcount := newline_notMem_toDigits count
  split
  · simp [hstart]
  · simp [hstart, hcount]

def isHeader (line : List Char) : Bool :=
  line.head?.any (fun c => c ≠ '+' && c ≠ '-' && c ≠ ' ') && !line.contains '\n'

theorem isHeader_append {text rest : List Char} (htext : isHeader text = true)
    (hrest : '\n' ∉ rest) : isHeader (text ++ rest) = true := by
  unfold isHeader at htext ⊢
  rw [Bool.and_eq_true] at htext ⊢
  refine ⟨?_, ?_⟩
  · cases text with
    | nil => cases htext.1
    | cons c text => exact htext.1
  · simpa [hrest] using htext.2

theorem newline_notMem_of_isHeader {line : List Char} (h : isHeader line = true) : '\n' ∉ line := by
  unfold isHeader at h
  rw [Bool.and_eq_true] at h
  simpa using h.2

theorem isHeader_hunk (hunk : Hunk) : isHeader hunk.header = true := by
  unfold Hunk.header
  refine isHeader_append (isHeader_append (isHeader_append (isHeader_append (isHeader_append
    (by decide) ?_) (by decide)) ?_) (by decide)) ?_
  · exact newline_notMem_rangeText _ _
  · exact newline_notMem_rangeText _ _
  · split
    · exact List.not_mem_nil
    · simp [hunk.oneLine]

section Headers

variable (change : FileChange)

theorem isHeader_gitLine : isHeader change.gitLine = true := by
  unfold FileChange.gitLine
  refine isHeader_append (isHeader_append (by decide) ?_) ?_
  · exact control_notMem_sideName (by decide) (by decide) _
  · have hname : '\n' ∉ sideName "b/".toList (change.new.or change.old) :=
      control_notMem_sideName (by decide) (by decide) _
    simpa using hname

theorem isHeader_modeLines : ∀ line ∈ change.modeLines, isHeader line = true := by
  have hmode {text : List Char} (htext : isHeader text = true) (mode : FileMode) :
      isHeader (text ++ mode.text) = true := isHeader_append htext (newline_notMem_mode mode)
  unfold FileChange.modeLines
  split
  · exact List.forall_mem_singleton.mpr (hmode (by decide) _)
  · exact List.forall_mem_singleton.mpr (hmode (by decide) _)
  · split
    · exact nofun
    · exact List.forall_mem_cons.mpr ⟨hmode (by decide) _,
        List.forall_mem_singleton.mpr (hmode (by decide) _)⟩

theorem isHeader_renameLines : ∀ line ∈ change.renameLines, isHeader line = true := by
  have hname {text : List Char} (htext : isHeader text = true) (name : List Char) :
      isHeader (text ++ quoteName [] name) = true :=
    isHeader_append htext (control_notMem_quoteName (by decide) List.not_mem_nil name)
  unfold FileChange.renameLines
  split
  · split
    · exact nofun
    · refine List.forall_mem_cons.mpr ⟨?_, List.forall_mem_cons.mpr ⟨hname (by decide) _,
        List.forall_mem_singleton.mpr (hname (by decide) _)⟩⟩
      exact isHeader_append (isHeader_append (by decide) (newline_notMem_toDigits _)) (by decide)
  · exact nofun

theorem isHeader_indexLines : ∀ line ∈ change.indexLines, isHeader line = true := by
  unfold FileChange.indexLines
  split
  · exact nofun
  · refine List.forall_mem_singleton.mpr (isHeader_append (isHeader_append (isHeader_append
      (isHeader_append (by decide) ?_) (by decide)) ?_) ?_)
    · exact newline_notMem_blobText _
    · exact newline_notMem_blobText _
    · split
      · simp [newline_notMem_mode]
      · exact List.not_mem_nil

theorem isHeader_headLines : ∀ line ∈ change.headLines, isHeader line = true := by
  unfold FileChange.headLines
  simp only [List.cons_append, List.forall_mem_cons, List.forall_mem_append]
  exact ⟨isHeader_gitLine change, ⟨isHeader_modeLines change, isHeader_renameLines change⟩,
    isHeader_indexLines change⟩

theorem isHeader_hidden (h : change.shown = false) :
    ∀ line ∈ change.bodyLines, isHeader line = true := by
  unfold FileChange.bodyLines
  rw [if_neg (by simp [h])]
  split
  · exact nofun
  · refine List.forall_mem_singleton.mpr (isHeader_append (isHeader_append (isHeader_append
      (isHeader_append (by decide) ?_) (by decide)) ?_) (by decide))
    · exact control_notMem_sideName (by decide) (by decide) _
    · exact control_notMem_sideName (by decide) (by decide) _

theorem newline_notMem_hunk (hunk : Hunk) : ∀ line ∈ hunk.printed, '\n' ∉ line := by
  refine List.forall_mem_cons.mpr ⟨newline_notMem_of_isHeader (isHeader_hunk hunk), ?_⟩
  intro text htext
  obtain ⟨line, -, htext⟩ := List.mem_flatMap.mp htext
  rcases List.mem_cons.mp htext with rfl | htext
  · have hmarker : '\n' ≠ line.kind.marker := by cases line.kind <;> decide
    exact fun hmem => line.oneLine ((List.mem_cons.mp hmem).resolve_left hmarker)
  · split at htext
    · obtain rfl := List.mem_singleton.mp htext
      decide
    · cases htext

theorem newline_notMem_body : ∀ line ∈ change.bodyLines, '\n' ∉ line := by
  cases hshown : change.shown with
  | false => exact fun line hline =>
    newline_notMem_of_isHeader (isHeader_hidden change hshown line hline)
  | true =>
    unfold FileChange.bodyLines
    rw [if_pos hshown]
    simp only [List.forall_mem_cons, List.mem_append, not_or]
    refine ⟨⟨by decide, control_notMem_sideLabel (by decide) (by decide) (by decide) _⟩,
      ⟨by decide, control_notMem_sideLabel (by decide) (by decide) (by decide) _⟩, ?_⟩
    intro line hline
    obtain ⟨hunk, -, hline⟩ := List.mem_flatMap.mp hline
    exact newline_notMem_hunk hunk line hline

theorem newline_notMem_printed : ∀ line ∈ change.printed, '\n' ∉ line := by
  intro line hline
  rcases List.mem_append.mp hline with hhead | hbody
  · exact newline_notMem_of_isHeader (isHeader_headLines change line hhead)
  · exact newline_notMem_body change line hbody

end Headers

theorem lines_gitDiff (changes : List FileChange) :
    lines (gitDiff changes) = (changes.flatMap FileChange.printed).map dropReturn := by
  apply lines_unlines
  intro line hline
  obtain ⟨change, -, hline⟩ := List.mem_flatMap.mp hline
  exact newline_notMem_printed change line hline

end Simard.Merging
