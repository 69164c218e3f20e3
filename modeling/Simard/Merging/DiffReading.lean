import Simard.Merging.GitDiff

/-! What the scans see of the diff git prints. Lines of a file that look like the name of a
side are taken for one: a removed line that begins with two dashes and a blank, an added one
with two plus signs. All others are lines of the file whose new side was named last. -/
namespace Simard.Merging
open Simard.Library

/-- A side of a change that is named, as the reader has it; empty where it is not there. -/
inductive Mention where
  | old (name : List Char)
  | new (name : List Char)
  deriving DecidableEq

def HunkLine.text (line : HunkLine) : List Char := dropReturn line.content

def HunkLine.mention? (line : HunkLine) : Option Mention :=
  match line.kind with
  | .removed => (stripPrefix "-- ".toList line.text).map fun path => .old (normalizeDiffPath path)
  | .added => (stripPrefix "++ ".toList line.text).map fun path => .new (normalizeDiffPath path)
  | .context => none

theorem HunkLine.mention?_removed {line : HunkLine} (h : line.kind = .removed) :
    line.mention? =
      (stripPrefix "-- ".toList line.text).map fun path => .old (normalizeDiffPath path) := by
  simp [HunkLine.mention?, h]

theorem HunkLine.mention?_added {line : HunkLine} (h : line.kind = .added) :
    line.mention? =
      (stripPrefix "++ ".toList line.text).map fun path => .new (normalizeDiffPath path) := by
  simp [HunkLine.mention?, h]

theorem HunkLine.mention?_context {line : HunkLine} (h : line.kind = .context) :
    line.mention? = none := by
  simp [HunkLine.mention?, h]

namespace FileChange

variable (change : FileChange)

def oldName : List Char := normalizeDiffPath (sideLabel "a/".toList change.old)

def newName : List Char := normalizeDiffPath (sideLabel "b/".toList change.new)

/-- All sides that are named, by the change's own two lines and by its content. -/
def mentions : List Mention :=
  .old change.oldName :: .new change.newName :: change.lines.filterMap HunkLine.mention?

end FileChange

def nameAt (name : List Char) (before : List HunkLine) : List Char :=
  before.foldl (fun name line =>
    match line.mention? with
    | some (.new other) => other
    | _ => name) name

def lineSeer : Transducer (List Char) HunkLine DiffLine where
  step name line :=
    (nameAt name [line],
      if line.mention?.isNone then [⟨name, line.kind, none, line.text⟩] else [])

def FileChange.seen (change : FileChange) : List DiffLine :=
  if change.shown then lineSeer.output change.newName change.lines else []

/-- A name is counted as added where an old side that is not there was named before it. -/
def mentionReader : Transducer Bool Mention (List Char) where
  step
    | _, .old name => (name.isEmpty, [])
    | oldIsDevNull, .new name => (false, if oldIsDevNull && !name.isEmpty then [name] else [])

def FileChange.addedNames (change : FileChange) : List (List Char) :=
  if change.shown then mentionReader.output false change.mentions else []

def DiffLine.unnumbered (line : DiffLine) : DiffLine := { line with newLine := none }

def readLine (file raw : List Char) : List Char × List DiffLine :=
  match stripPrefix "+++ ".toList raw with
  | some path => (normalizeDiffPath path, [])
  | none =>
      if "--- ".toList.isPrefixOf raw || "diff --git".toList.isPrefixOf raw ||
          "index ".toList.isPrefixOf raw then (file, [])
      else
        match parseHunkNewStart raw with
        | some _ => (file, [])
        | none =>
            match raw with
            | '+' :: content => (file, [⟨file, .added, none, content⟩])
            | '-' :: content => (file, [⟨file, .removed, none, content⟩])
            | ' ' :: content => (file, [⟨file, .context, none, content⟩])
            | _ => (file, [])

def lineReader : Transducer (List Char) (List Char) DiffLine := ⟨readLine⟩

theorem readLines_unnumbered (file : List Char) (newLine : Nat) (raws : List (List Char)) :
    (readLines file newLine raws).map DiffLine.unnumbered = lineReader.output file raws := by
  induction raws generalizing file newLine with
  | nil => rfl
  | cons raw raws ih =>
    change _ = (readLine file raw).2 ++ lineReader.output (readLine file raw).1 raws
    rw [readLines.eq_def, readLine.eq_def]
    dsimp only
    cases stripPrefix "+++ ".toList raw with
    | some path => exact ih _ newLine
    | none =>
      dsimp only
      split
      · exact ih file newLine
      · cases parseHunkNewStart raw with
        | some start => exact ih file start
        | none =>
          cases raw with
          | nil => exact ih file newLine
          | cons first content =>
            by_cases hplus : first = '+'
            · subst hplus
              exact congrArg (_ :: ·) (ih file (newLine + 1))
            · by_cases hminus : first = '-'
              · subst hminus
                exact congrArg (_ :: ·) (ih file newLine)
              · by_cases hblank : first = ' '
                · subst hblank
                  exact congrArg (_ :: ·) (ih file (newLine + 1))
                · simpa [hplus, hminus, hblank] using ih file newLine

def readName (oldIsDevNull : Bool) (raw : List Char) : Bool × List (List Char) :=
  match stripPrefix "--- ".toList raw with
  | some path => ((normalizeDiffPath path).isEmpty, [])
  | none =>
      match stripPrefix "+++ ".toList raw with
      | some path =>
          (false, if oldIsDevNull && !(normalizeDiffPath path).isEmpty then
            [normalizeDiffPath path] else [])
      | none => (oldIsDevNull, [])

def nameReader : Transducer Bool (List Char) (List Char) := ⟨readName⟩

theorem addedPaths_eq_output (oldIsDevNull : Bool) (raws : List (List Char)) :
    addedPaths oldIsDevNull raws = nameReader.output oldIsDevNull raws := by
  induction raws generalizing oldIsDevNull with
  | nil => rfl
  | cons raw raws ih =>
    change _ = (readName oldIsDevNull raw).2 ++ nameReader.output (readName oldIsDevNull raw).1 raws
    rw [addedPaths.eq_def, readName.eq_def]
    dsimp only
    cases stripPrefix "--- ".toList raw with
    | some path => exact ih _
    | none =>
      dsimp only
      cases stripPrefix "+++ ".toList raw with
      | none => exact ih oldIsDevNull
      | some path =>
        dsimp only
        rw [ih false]
        cases oldIsDevNull <;> cases normalizeDiffPath path <;> rfl

theorem stripPrefix_cons (c : Char) (beginning text : List Char) :
    stripPrefix (c :: beginning) (c :: text) = stripPrefix beginning text := by
  simp [stripPrefix, List.isPrefixOf]

theorem stripPrefix_cons_ne {c d : Char} (h : c ≠ d) (beginning text : List Char) :
    stripPrefix (c :: beginning) (d :: text) = none := by
  simp [stripPrefix, List.isPrefixOf, h]

theorem parseHunkNewStart_cons {c : Char} (h : c ≠ '@') (text : List Char) :
    parseHunkNewStart (c :: text) = none := by
  unfold parseHunkNewStart
  rw [show "@@ ".toList = '@' :: "@ ".toList from rfl, stripPrefix_cons_ne (Ne.symm h)]
  rfl

theorem lineReader_silent {raw : List Char}
    (h : ∀ c ∈ raw.head?, c ≠ '+' ∧ c ≠ '-' ∧ c ≠ ' ') : lineReader.Silent raw := by
  intro file
  cases raw with
  | nil => rfl
  | cons c text =>
    obtain ⟨hplus, hminus, hblank⟩ := h c rfl
    change readLine file (c :: text) = (file, [])
    unfold readLine
    rw [show "+++ ".toList = '+' :: "++ ".toList from rfl, stripPrefix_cons_ne (Ne.symm hplus)]
    dsimp only
    split
    · rfl
    · split
      · rfl
      · split
        · exact absurd (List.cons.inj ‹_›).1 hplus
        · exact absurd (List.cons.inj ‹_›).1 hminus
        · exact absurd (List.cons.inj ‹_›).1 hblank
        · rfl

theorem nameReader_silent {raw : List Char} (h : ∀ c ∈ raw.head?, c ≠ '+' ∧ c ≠ '-') :
    nameReader.Silent raw := by
  intro file
  cases raw with
  | nil => rfl
  | cons c text =>
    obtain ⟨hplus, hminus⟩ := h c rfl
    change readName file (c :: text) = (file, [])
    unfold readName
    rw [show "+++ ".toList = '+' :: "++ ".toList from rfl, stripPrefix_cons_ne (Ne.symm hplus),
      show "--- ".toList = '-' :: "-- ".toList from rfl, stripPrefix_cons_ne (Ne.symm hminus)]

theorem readLine_added (name text : List Char) :
    readLine name ('+' :: text) =
      match stripPrefix "++ ".toList text with
      | some path => (normalizeDiffPath path, [])
      | none => (name, [⟨name, .added, none, text⟩]) := by
  have hskip : ("--- ".toList.isPrefixOf ('+' :: text) ||
      "diff --git".toList.isPrefixOf ('+' :: text) || "index ".toList.isPrefixOf ('+' :: text)) =
      false := rfl
  unfold readLine
  rw [show "+++ ".toList = '+' :: "++ ".toList from rfl, stripPrefix_cons]
  cases stripPrefix "++ ".toList text with
  | some path => rfl
  | none =>
    dsimp only
    rw [hskip, parseHunkNewStart_cons (by decide)]
    rfl

theorem readLine_removed (name text : List Char) :
    readLine name ('-' :: text) =
      if (stripPrefix "-- ".toList text).isSome then (name, [])
      else (name, [⟨name, .removed, none, text⟩]) := by
  have hskip : ("--- ".toList.isPrefixOf ('-' :: text) ||
      "diff --git".toList.isPrefixOf ('-' :: text) || "index ".toList.isPrefixOf ('-' :: text)) =
      (stripPrefix "-- ".toList text).isSome := by
    change ("-- ".toList.isPrefixOf text || false || false) = _
    rw [Bool.or_false, Bool.or_false, stripPrefix]
    cases "-- ".toList.isPrefixOf text <;> rfl
  unfold readLine
  rw [show "+++ ".toList = '+' :: "++ ".toList from rfl, stripPrefix_cons_ne (by decide)]
  dsimp only
  rw [hskip, parseHunkNewStart_cons (by decide)]
  rfl

theorem readLine_context (name text : List Char) :
    readLine name (' ' :: text) = (name, [⟨name, .context, none, text⟩]) := by
  have hskip : ("--- ".toList.isPrefixOf (' ' :: text) ||
      "diff --git".toList.isPrefixOf (' ' :: text) || "index ".toList.isPrefixOf (' ' :: text)) =
      false := rfl
  unfold readLine
  rw [show "+++ ".toList = '+' :: "++ ".toList from rfl, stripPrefix_cons_ne (by decide)]
  dsimp only
  rw [hskip, parseHunkNewStart_cons (by decide)]
  rfl

theorem lineReader_step_line (name : List Char) (line : HunkLine) :
    lineReader.step name (line.kind.marker :: line.text) = lineSeer.step name line := by
  simp only [lineReader, lineSeer, nameAt, List.foldl_cons, List.foldl_nil]
  cases hkind : line.kind with
  | added =>
    rw [LineKind.marker, readLine_added, HunkLine.mention?_added hkind]
    cases stripPrefix "++ ".toList line.text <;> rfl
  | removed =>
    rw [LineKind.marker, readLine_removed, HunkLine.mention?_removed hkind]
    cases stripPrefix "-- ".toList line.text <;> rfl
  | context =>
    rw [LineKind.marker, readLine_context, HunkLine.mention?_context hkind]
    rfl

theorem nameReader_step_line (oldIsDevNull : Bool) (line : HunkLine) :
    nameReader.step oldIsDevNull (line.kind.marker :: line.text) =
      (mentionReader.state oldIsDevNull line.mention?.toList,
        mentionReader.output oldIsDevNull line.mention?.toList) := by
  simp only [nameReader, readName]
  cases hkind : line.kind with
  | added =>
    rw [LineKind.marker, show "--- ".toList = '-' :: "-- ".toList from rfl,
      stripPrefix_cons_ne (by decide), show "+++ ".toList = '+' :: "++ ".toList from rfl,
      stripPrefix_cons, HunkLine.mention?_added hkind]
    cases stripPrefix "++ ".toList line.text with
    | none => rfl
    | some path => simp [mentionReader]
  | removed =>
    rw [LineKind.marker, show "--- ".toList = '-' :: "-- ".toList from rfl, stripPrefix_cons,
      show "+++ ".toList = '+' :: "++ ".toList from rfl, stripPrefix_cons_ne (by decide),
      HunkLine.mention?_removed hkind]
    cases stripPrefix "-- ".toList line.text with
    | none => rfl
    | some path => rfl
  | context =>
    rw [LineKind.marker, show "--- ".toList = '-' :: "-- ".toList from rfl,
      stripPrefix_cons_ne (by decide), show "+++ ".toList = '+' :: "++ ".toList from rfl,
      stripPrefix_cons_ne (by decide), HunkLine.mention?_context hkind]
    rfl

theorem lineReader_silent_header {line : List Char} (h : isHeader line = true) :
    lineReader.Silent (dropReturn line) := by
  apply lineReader_silent
  intro c hc
  unfold isHeader at h
  rw [mem_head?_dropReturn hc] at h
  simpa [and_assoc] using (Bool.and_eq_true_iff.mp h).1

theorem nameReader_silent_header {line : List Char} (h : isHeader line = true) :
    nameReader.Silent (dropReturn line) := by
  apply nameReader_silent
  intro c hc
  unfold isHeader at h
  rw [mem_head?_dropReturn hc] at h
  have hmarks := (Bool.and_eq_true_iff.mp h).1
  simp only [Option.any_some, Bool.and_eq_true, decide_eq_true_eq] at hmarks
  exact hmarks.1

section Hunks

variable {σ β : Type} {reader : Transducer σ (List Char) β} (seer : Transducer σ HunkLine β)
  (hsilent : ∀ line, isHeader line = true → reader.Silent (dropReturn line))
  (hline : ∀ s line, reader.step s (line.kind.marker :: line.text) = seer.step s line)
include hsilent

theorem read_header {line : List Char} (h : isHeader line = true) (s : σ)
    (rest : List (List Char)) :
    reader.state s ((line :: rest).map dropReturn) = reader.state s (rest.map dropReturn) ∧
      reader.output s ((line :: rest).map dropReturn) = reader.output s (rest.map dropReturn) := by
  rw [List.map_cons, Transducer.state_cons, Transducer.output_cons, hsilent line h s]
  exact ⟨rfl, rfl⟩

include hline

theorem read_line (s : σ) (line : HunkLine) :
    reader.state s (line.printed.map dropReturn) = (seer.step s line).1 ∧
      reader.output s (line.printed.map dropReturn) = (seer.step s line).2 := by
  have hmarker : line.kind.marker ≠ '\r' := by cases line.kind <;> decide
  have hnote : isHeader "\\ No newline at end of file".toList = true := by decide
  rw [HunkLine.printed, List.map_cons, dropReturn_cons hmarker, Transducer.state_cons,
    Transducer.output_cons, ← HunkLine.text, hline]
  split
  · obtain ⟨hstate, houtput⟩ := read_header hsilent hnote (seer.step s line).1 []
    rw [hstate, houtput]
    exact ⟨rfl, List.append_nil _⟩
  · exact ⟨rfl, List.append_nil _⟩

theorem read_hunk (s : σ) (hunk : Hunk) :
    reader.state s (hunk.printed.map dropReturn) = seer.state s hunk.lines ∧
      reader.output s (hunk.printed.map dropReturn) = seer.output s hunk.lines := by
  obtain ⟨hstate, houtput⟩ := read_header hsilent (isHeader_hunk hunk) s
    (hunk.lines.flatMap HunkLine.printed)
  rw [Hunk.printed, hstate, houtput, List.map_flatMap]
  exact Transducer.output_images (fun s line => (read_line seer hsilent hline s line).1)
    (fun s line => (read_line seer hsilent hline s line).2) s hunk.lines

theorem read_hunks (s : σ) (hunks : List Hunk) :
    reader.output s ((hunks.flatMap Hunk.printed).map dropReturn) =
      seer.output s (hunks.flatMap Hunk.lines) := by
  let hunkSeer : Transducer σ Hunk β :=
    ⟨fun s hunk => (seer.state s hunk.lines, seer.output s hunk.lines)⟩
  have hread : reader.output s (hunks.flatMap fun hunk => hunk.printed.map dropReturn) =
      hunkSeer.output s hunks :=
    (Transducer.output_images (fun s hunk => (read_hunk seer hsilent hline s hunk).1)
      (fun s hunk => (read_hunk seer hsilent hline s hunk).2) s hunks).2
  have hseen : seer.output s (hunks.flatMap Hunk.lines) = hunkSeer.output s hunks :=
    (Transducer.output_images (fun _ _ => rfl) (fun _ _ => rfl) s hunks).2
  rw [List.map_flatMap, hread, hseen]

theorem read_change (s : σ) (change : FileChange) :
    reader.output s (change.printed.map dropReturn) =
      if change.shown then
        reader.output s ["--- ".toList ++ sideLabel "a/".toList change.old,
          "+++ ".toList ++ sideLabel "b/".toList change.new] ++
        seer.output (reader.state s ["--- ".toList ++ sideLabel "a/".toList change.old,
          "+++ ".toList ++ sideLabel "b/".toList change.new]) change.lines
      else [] := by
  have hsilents {headers : List (List Char)} (h : ∀ line ∈ headers, isHeader line = true) :
      ∀ raw ∈ headers.map dropReturn, reader.Silent raw := by
    intro raw hraw
    obtain ⟨line, hmem, rfl⟩ := List.mem_map.mp hraw
    exact hsilent line (h line hmem)
  rw [FileChange.printed, List.map_append,
    Transducer.output_silent_append (hsilents (isHeader_headLines change))]
  cases hshown : change.shown with
  | false => exact (Transducer.silent_all (hsilents (isHeader_hidden change hshown)) s).2
  | true =>
    have hside {text : List Char} (htext : '\r' ∉ text) (before : List Char)
        (hbefore : '\r' ∉ before) (side : Option (List Char)) :
        dropReturn (text ++ sideLabel before side) = text ++ sideLabel before side := by
      apply dropReturn_of_notMem
      rw [List.mem_append, not_or]
      exact ⟨htext, control_notMem_sideLabel (by decide) (by decide) hbefore side⟩
    rw [FileChange.bodyLines, if_pos hshown, List.map_cons, List.map_cons,
      hside (by decide) _ (by decide), hside (by decide) _ (by decide), if_pos rfl]
    change reader.output s ([_, _] ++ (change.hunks.flatMap Hunk.printed).map dropReturn) = _
    rw [Transducer.output_append, read_hunks seer hsilent hline]
    rfl

end Hunks

theorem lineReader_change (file : List Char) (change : FileChange) :
    lineReader.output file (change.printed.map dropReturn) = change.seen := by
  have hold (name label : List Char) :
      lineReader.step name ("--- ".toList ++ label) = (name, []) := by
    change readLine name ('-' :: ("-- ".toList ++ label)) = _
    rw [readLine_removed, stripPrefix_eq_some.mpr rfl]
    rfl
  have hnew (name label : List Char) :
      lineReader.step name ("+++ ".toList ++ label) = (normalizeDiffPath label, []) := by
    change readLine name ('+' :: ("++ ".toList ++ label)) = _
    rw [readLine_added, stripPrefix_eq_some.mpr rfl]
  rw [read_change lineSeer (fun _ => lineReader_silent_header) lineReader_step_line,
    FileChange.seen]
  split
  · rw [Transducer.output_cons, Transducer.output_cons, Transducer.output_nil,
      Transducer.state_cons, Transducer.state_cons, Transducer.state_nil, hold, hnew]
    rfl
  · rfl

def nameSeer : Transducer Bool HunkLine (List Char) where
  step oldIsDevNull line := (mentionReader.state oldIsDevNull line.mention?.toList,
    mentionReader.output oldIsDevNull line.mention?.toList)

theorem nameSeer_output (oldIsDevNull : Bool) (lines : List HunkLine) :
    nameSeer.output oldIsDevNull lines =
      mentionReader.output oldIsDevNull (lines.filterMap HunkLine.mention?) := by
  rw [List.filterMap_eq_flatMap_toList]
  have himages : mentionReader.output oldIsDevNull
      (lines.flatMap fun line => line.mention?.toList) = nameSeer.output oldIsDevNull lines :=
    (Transducer.output_images (fun _ _ => rfl) (fun _ _ => rfl) oldIsDevNull lines).2
  exact himages.symm

theorem nameReader_change (oldIsDevNull : Bool) (change : FileChange) :
    nameReader.output oldIsDevNull (change.printed.map dropReturn) = change.addedNames := by
  have hold (flag : Bool) (label : List Char) :
      nameReader.step flag ("--- ".toList ++ label) = ((normalizeDiffPath label).isEmpty, []) := by
    change readName flag ("--- ".toList ++ label) = _
    rw [readName, stripPrefix_eq_some.mpr rfl]
  have hnew (flag : Bool) (label : List Char) :
      nameReader.step flag ("+++ ".toList ++ label) =
        (false, if flag && !(normalizeDiffPath label).isEmpty then
          [normalizeDiffPath label] else []) := by
    change readName flag ('+' :: ("++ ".toList ++ label)) = _
    rw [readName, show "--- ".toList = '-' :: "-- ".toList from rfl,
      stripPrefix_cons_ne (by decide), show "+++ ".toList = '+' :: "++ ".toList from rfl,
      stripPrefix_cons, stripPrefix_eq_some.mpr rfl]
  rw [read_change nameSeer (fun _ => nameReader_silent_header) nameReader_step_line,
    FileChange.addedNames]
  split
  · rw [Transducer.output_cons, Transducer.output_cons, Transducer.output_nil,
      Transducer.state_cons, Transducer.state_cons, Transducer.state_nil, hold, hnew,
      FileChange.mentions, Transducer.output_cons, Transducer.output_cons, ← nameSeer_output]
    simp [mentionReader, FileChange.oldName, FileChange.newName]
  · rfl

theorem forEachDiffLine_gitDiff (changes : List FileChange) :
    (forEachDiffLine (gitDiff changes)).map DiffLine.unnumbered =
      changes.flatMap FileChange.seen := by
  rw [forEachDiffLine, readLines_unnumbered, lines_gitDiff, List.map_flatMap]
  exact Transducer.output_flatMap lineReader_change [] changes

theorem addedPaths_gitDiff (changes : List FileChange) :
    addedPaths false (lines (gitDiff changes)) = changes.flatMap FileChange.addedNames := by
  rw [addedPaths_eq_output, lines_gitDiff, List.map_flatMap]
  exact Transducer.output_flatMap nameReader_change false changes

end Simard.Merging
