import Simard.Merging.DiffReading

/-! Which changes the scans catch. A line that declares a public item is seen wherever git shows
the lines of the file. The product architecture and the reports are known by the name the reader
has at that point, so a change that takes the name away, hides the line among the names or has
its name quoted goes through. -/
namespace Simard.Merging
open Simard.Library

section Shows

variable (changes : List FileChange)

def ShowsRemoved (file : List Char) (line : HunkLine) : Prop :=
  ∃ change ∈ changes, change.shown = true ∧ ∃ before after,
    change.lines = before ++ line :: after ∧ line.kind = .removed ∧ line.mention? = none ∧
    nameAt change.newName before = file

/-- A name that is read right after an old side that is not there. -/
def ShowsAdded (name : List Char) : Prop :=
  name ≠ [] ∧ ∃ change ∈ changes, change.shown = true ∧ [.old [], .new name] <:+: change.mentions

def shownIn (name : List Char) : List (List Char) :=
  addedTo name (changes.flatMap FileChange.seen)

def Shows (toLowercase : List Char → List Char) : Prop :=
  (∃ change ∈ changes, change.shown = true ∧ RemovesPub change) ∨
  (∃ line, ShowsRemoved changes prdPath line) ∨
  ∃ name, ShowsAdded changes name ∧ isMarkdown toLowercase name = true ∧
    (inReportDir name = true ∨ titleNamesAReport toLowercase (shownIn changes name) = true)

end Shows

theorem mem_seen {change : FileChange} {seen : DiffLine} :
    seen ∈ change.seen ↔
      change.shown = true ∧ ∃ before line after, change.lines = before ++ line :: after ∧
        line.mention? = none ∧
        seen = ⟨nameAt change.newName before, line.kind, none, line.text⟩ := by
  unfold FileChange.seen
  split
  next hshown =>
    rw [Transducer.mem_output]
    simp only [hshown, true_and]
    refine exists_congr fun before => exists_congr fun line => exists_congr fun after =>
      and_congr_right fun _ => ?_
    change seen ∈ (if line.mention?.isNone then
      [(⟨nameAt change.newName before, line.kind, none, line.text⟩ : DiffLine)] else []) ↔ _
    cases line.mention? with
    | some mention => simp
    | none => simp
  next hshown => simp [hshown]

theorem mentionReader_state_iff {before : List Mention} :
    mentionReader.state false before = true ↔ ∃ earlier, before = earlier ++ [.old []] := by
  rcases List.eq_nil_or_concat before with rfl | ⟨earlier, last, rfl⟩
  · simp
  · rw [List.concat_eq_append, Transducer.state_append]
    cases last with
    | old name => cases name <;> simp [mentionReader]
    | new name => simp [mentionReader]

theorem mem_addedNames {change : FileChange} {name : List Char} :
    name ∈ change.addedNames ↔
      name ≠ [] ∧ change.shown = true ∧ [.old [], .new name] <:+: change.mentions := by
  unfold FileChange.addedNames
  split
  next hshown =>
    rw [Transducer.mem_output]
    simp only [hshown, true_and]
    constructor
    · rintro ⟨before, mention, after, hmentions, hmem⟩
      cases mention with
      | old other => cases hmem
      | new other =>
        change name ∈ (if mentionReader.state false before && !other.isEmpty then [other] else [])
          at hmem
        split at hmem
        next hcounted =>
          obtain rfl := List.mem_singleton.mp hmem
          rw [Bool.and_eq_true] at hcounted
          obtain ⟨earlier, rfl⟩ := mentionReader_state_iff.mp hcounted.1
          exact ⟨by simpa using hcounted.2, earlier, after, by rw [hmentions]; simp⟩
        next => cases hmem
    · rintro ⟨hname, earlier, after, hmentions⟩
      refine ⟨earlier ++ [.old []], .new name, after, by rw [← hmentions]; simp, ?_⟩
      have hstate := mentionReader_state_iff.mpr ⟨earlier, rfl⟩
      change name ∈ (if mentionReader.state false (earlier ++ [.old []]) &&
        !name.isEmpty then [name]
        else [])
      rw [hstate]
      simp [hname]
  next hshown => simp [hshown]

theorem isPrefixOf_trimStart_iff {c : Char} {beginning text : List Char}
    (hc : isWhitespace c = false) :
    (c :: beginning).isPrefixOf (trimStart text) = true ↔
      ∃ blank rest, text = blank ++ c :: (beginning ++ rest) ∧
        ∀ d ∈ blank, isWhitespace d = true := by
  rw [List.isPrefixOf_iff_prefix]
  constructor
  · rintro ⟨rest, hrest⟩
    refine ⟨text.takeWhile isWhitespace, rest, ?_, fun d hd => List.mem_takeWhile_imp hd⟩
    rw [← List.cons_append, hrest]
    exact List.takeWhile_append_dropWhile.symm
  · rintro ⟨blank, rest, rfl, hblank⟩
    rw [trimStart, List.dropWhile_append_of_pos hblank, List.dropWhile_cons_of_neg (by simp [hc])]
    exact ⟨rest, rfl⟩

theorem isPrefixOf_trimStart_dropReturn {c : Char} {beginning : List Char}
    (hc : isWhitespace c = false) (hreturn : '\r' ∉ c :: beginning) (text : List Char) :
    (c :: beginning).isPrefixOf (trimStart (dropReturn text)) = true ↔
      (c :: beginning).isPrefixOf (trimStart text) = true := by
  rw [isPrefixOf_trimStart_iff hc, isPrefixOf_trimStart_iff hc]
  constructor
  · rintro ⟨blank, rest, htext, hblank⟩
    rcases eq_dropReturn text with heq | heq
    · exact ⟨blank, rest, heq.trans htext, hblank⟩
    · refine ⟨blank, rest ++ ['\r'], ?_, hblank⟩
      rw [heq, htext]
      simp
  · rintro ⟨blank, rest, rfl, hblank⟩
    refine ⟨blank, dropReturn rest, ?_, hblank⟩
    rw [dropReturn_append_cons, ← List.cons_append, dropReturn_append hreturn]
    rfl

theorem pubPrefixes_begin : ∀ p ∈ pubPrefixes, ∃ rest, p = 'p' :: rest ∧ '\r' ∉ 'p' :: rest := by
  have hall : pubPrefixes.all fun p => p.head? = some 'p' && !p.contains '\r' := by decide
  intro p hp
  have hbegin := List.all_eq_true.mp hall p hp
  cases p with
  | nil => cases hbegin
  | cons c rest =>
    simp only [List.head?_cons, Bool.and_eq_true, decide_eq_true_eq, Option.some.injEq] at hbegin
    obtain ⟨rfl, hreturn⟩ := hbegin
    exact ⟨rest, rfl, by simpa using hreturn⟩

theorem declaresPub_dropReturn (content : List Char) :
    declaresPub (dropReturn content) = declaresPub content := by
  unfold declaresPub
  rw [Bool.eq_iff_iff, List.any_eq_true, List.any_eq_true]
  refine exists_congr fun p => and_congr_right fun hp => ?_
  obtain ⟨rest, rfl, hreturn⟩ := pubPrefixes_begin p hp
  exact isPrefixOf_trimStart_dropReturn (by decide) hreturn content

theorem mention?_of_declaresPub {line : HunkLine} (hkind : line.kind = .removed)
    (h : declaresPub line.content = true) : line.mention? = none := by
  rw [← declaresPub_dropReturn] at h
  obtain ⟨p, hp, hprefix⟩ := List.any_eq_true.mp h
  obtain ⟨rest, rfl, -⟩ := pubPrefixes_begin p hp
  rw [HunkLine.mention?_removed hkind, Option.map_eq_none_iff, Option.eq_none_iff_forall_ne_some]
  intro path hpath
  rw [← HunkLine.text, stripPrefix_eq_some.mp hpath] at hprefix
  cases hprefix

theorem removedPub_seen_iff {change : FileChange} :
    (∃ line ∈ change.seen, line.kind = .removed ∧ declaresPub line.content = true) ↔
      change.shown = true ∧ RemovesPub change := by
  constructor
  · rintro ⟨seen, hseen, hkind, hpub⟩
    obtain ⟨hshown, before, line, after, hlines, -, rfl⟩ := mem_seen.mp hseen
    refine ⟨hshown, line, ?_, hkind, ?_⟩
    · rw [hlines]
      exact List.mem_append_right _ List.mem_cons_self
    · rw [← declaresPub_dropReturn]
      exact hpub
  · rintro ⟨hshown, line, hline, hkind, hpub⟩
    obtain ⟨before, after, hlines⟩ := List.append_of_mem hline
    refine ⟨_, mem_seen.mpr ⟨hshown, before, line, after, hlines,
      mention?_of_declaresPub hkind hpub, rfl⟩, hkind, ?_⟩
    exact (declaresPub_dropReturn line.content).trans hpub

theorem findingCheck_fails_iff {name : String} {findings : List DiffFinding} :
    (findingCheck name findings).passed = false ↔ findings ≠ [] := by
  cases findings <;> simp [findingCheck]

theorem exists_seen_iff (changes : List FileChange) {p : LineKind → List Char → List Char → Prop} :
    (∃ line ∈ forEachDiffLine (gitDiff changes), p line.kind line.file line.content) ↔
      ∃ change ∈ changes, ∃ line ∈ change.seen, p line.kind line.file line.content := by
  have hread := forEachDiffLine_gitDiff changes
  constructor
  · rintro ⟨line, hline, hp⟩
    have hmem : line.unnumbered ∈ changes.flatMap FileChange.seen :=
      hread ▸ List.mem_map_of_mem hline
    obtain ⟨change, hchange, hseen⟩ := List.mem_flatMap.mp hmem
    exact ⟨change, hchange, line.unnumbered, hseen, hp⟩
  · rintro ⟨change, hchange, seen, hseen, hp⟩
    have hmem : seen ∈ (forEachDiffLine (gitDiff changes)).map DiffLine.unnumbered :=
      hread ▸ List.mem_flatMap.mpr ⟨change, hchange, hseen⟩
    obtain ⟨line, hline, rfl⟩ := List.mem_map.mp hmem
    exact ⟨line, hline, hp⟩

theorem scanAdditive_finds_iff (changes : List FileChange) :
    scanAdditiveNoRemovedPub (gitDiff changes) ≠ [] ↔
      ∃ change ∈ changes, change.shown = true ∧ RemovesPub change := by
  have hseen := exists_seen_iff changes
    (p := fun kind _ content => kind = .removed ∧ declaresPub content = true)
  simp only [removedPub_seen_iff] at hseen
  rw [← hseen, scanAdditiveNoRemovedPub, Ne, List.map_eq_nil_iff, List.filter_eq_nil_iff]
  simp

theorem scanPrd_finds_iff (changes : List FileChange) :
    scanPrdPreserved (gitDiff changes) ≠ [] ↔ ∃ line, ShowsRemoved changes prdPath line := by
  have hseen := exists_seen_iff changes
    (p := fun kind file _ => kind = .removed ∧ file = prdPath)
  rw [scanPrdPreserved, Ne, List.map_eq_nil_iff, List.filter_eq_nil_iff]
  simp only [not_forall, Bool.and_eq_true, decide_eq_true_eq, not_not, exists_prop, hseen]
  constructor
  · rintro ⟨change, hchange, seen, hmem, hkind, hfile⟩
    obtain ⟨hshown, before, line, after, hlines, hmention, rfl⟩ := mem_seen.mp hmem
    exact ⟨line, change, hchange, hshown, before, after, hlines, hkind, hmention, hfile⟩
  · rintro ⟨line, change, hchange, hshown, before, after, hlines, hkind, hmention, hfile⟩
    exact ⟨change, hchange, _, mem_seen.mpr ⟨hshown, before, line, after, hlines, hmention, rfl⟩,
      hkind, hfile⟩

theorem addedTo_unnumbered (file : List Char) (lines : List DiffLine) :
    addedTo file (lines.map DiffLine.unnumbered) = addedTo file lines := by
  unfold addedTo
  rw [List.filter_map, List.map_map]
  rfl

theorem scanReports_finds_iff (toLowercase : List Char → List Char) (changes : List FileChange) :
    scanNoPointInTimeReportDocs toLowercase (gitDiff changes) ≠ [] ↔
      ∃ name, ShowsAdded changes name ∧ isMarkdown toLowercase name = true ∧
        (inReportDir name = true ∨
          titleNamesAReport toLowercase (shownIn changes name) = true) := by
  have hadded (name : List Char) :
      name ∈ (newlyAddedFiles (gitDiff changes)).elems ↔ ShowsAdded changes name := by
    rw [newlyAddedFiles, BTreeSet.mem_ofList, addedPaths_gitDiff, List.mem_flatMap]
    simp only [mem_addedNames, ShowsAdded]
    constructor
    · rintro ⟨change, hchange, hname, hshown⟩
      exact ⟨hname, change, hchange, hshown⟩
    · rintro ⟨hname, change, hchange, hshown⟩
      exact ⟨change, hchange, hname, hshown⟩
  have hlines (name : List Char) :
      addedTo name (forEachDiffLine (gitDiff changes)) = shownIn changes name := by
    rw [← addedTo_unnumbered, forEachDiffLine_gitDiff, shownIn]
  rw [scanNoPointInTimeReportDocs, Ne, List.map_eq_nil_iff, List.filter_eq_nil_iff]
  simp only [not_forall, List.mem_filter, hadded, exists_prop, not_not, isReport, hlines,
    Bool.or_eq_true, and_assoc]

theorem runDiffScans_fails_iff (toLowercase : List Char → List Char) (changes : List FileChange) :
    (∃ check ∈ runDiffScans toLowercase (gitDiff changes), check.passed = false) ↔
      Shows changes toLowercase := by
  rw [Shows, ← scanAdditive_finds_iff, ← scanPrd_finds_iff, ← scanReports_finds_iff]
  simp only [runDiffScans, List.mem_cons, List.not_mem_nil, or_false, exists_eq_or_imp,
    exists_eq_left, findingCheck_fails_iff]

/-- The scans catch a set of changes that violates what they are for exactly if something of
it shows. -/
theorem scans_catch_iff (toLowercase : List Char → List Char) (changes : List FileChange) :
    (Violates toLowercase changes →
      ∃ check ∈ runDiffScans toLowercase (gitDiff changes), check.passed = false) ↔
    (Violates toLowercase changes → Shows changes toLowercase) := by
  rw [runDiffScans_fails_iff]

def deletedPrd : FileChange where
  old := some prdPath
  new := none
  oldMode := .regular
  newMode := .regular
  similarity := 0
  oldBlob := [7, 3, 10, 1, 0, 12, 5]
  newBlob := [0, 0, 0, 0, 0, 0, 0]
  binary := false
  hunks := [⟨1, 0, [], [⟨.removed, "# Product architecture".toList, false, by decide⟩], by decide,
    by decide⟩]
  present := .inl rfl
  added := nofun
  deleted _ := by decide

def renamedPrd : FileChange where
  old := some prdPath
  new := some "Specs/Old.md".toList
  oldMode := .regular
  newMode := .regular
  similarity := 100
  oldBlob := [7, 3, 10, 1, 0, 12, 5]
  newBlob := [7, 3, 10, 1, 0, 12, 5]
  binary := false
  hunks := []
  present := .inl rfl
  added := nofun
  deleted := nofun

def dashedPrd : FileChange where
  old := some prdPath
  new := some prdPath
  oldMode := .regular
  newMode := .regular
  similarity := 0
  oldBlob := [7, 3, 10, 1, 0, 12, 5]
  newBlob := [1, 11, 8, 2, 2, 4, 9]
  binary := false
  hunks := [⟨4, 4, [], [⟨.context, "## Goals".toList, false, by decide⟩,
    ⟨.removed, "-- never merge unreviewed work".toList, false, by decide⟩], by decide, by decide⟩]
  present := .inl rfl
  added := nofun
  deleted := nofun

def quotedReport : FileChange where
  old := none
  new := some "docs/reports/résumé.md".toList
  oldMode := .regular
  newMode := .regular
  similarity := 0
  oldBlob := [0, 0, 0, 0, 0, 0, 0]
  newBlob := [1, 11, 8, 2, 2, 4, 9]
  binary := false
  hunks := [⟨0, 1, [], [⟨.added, "All green.".toList, false, by decide⟩], by decide, by decide⟩]
  present := .inr rfl
  added _ := by decide
  deleted := nofun

theorem evading_changes_pass :
    [deletedPrd, renamedPrd, dashedPrd, quotedReport].Forall fun change =>
      Violates (List.map Char.toLower) [change] ∧
        ∀ check ∈ runDiffScans (List.map Char.toLower) (gitDiff [change]), check.passed = true := by
  have hpass : ∀ change ∈ [deletedPrd, renamedPrd, dashedPrd, quotedReport],
      ∀ check ∈ runDiffScans (List.map Char.toLower) (gitDiff [change]), check.passed = true := by
    decide
  have hviolates : ∀ change ∈ [deletedPrd, renamedPrd, dashedPrd, quotedReport],
      TouchesPrd change ∨ RemovesPub change ∨ AddsReport (List.map Char.toLower) change := by
    simp only [List.forall_mem_cons]
    refine ⟨.inl ⟨rfl, .inl nofun⟩, .inl ⟨rfl, .inl ?_⟩, .inl ⟨rfl, .inr ?_⟩, .inr (.inr ?_), nofun⟩
    · decide
    · exact ⟨_, List.mem_cons_of_mem _ List.mem_cons_self, rfl⟩
    · exact ⟨rfl, List.cons_ne_nil _ _, "docs/reports/résumé.md".toList, rfl, by decide,
        by decide⟩
  apply List.forall_iff_forall_mem.mpr
  intro change hchange
  exact ⟨⟨change, List.mem_singleton_self change, hviolates change hchange⟩, hpass change hchange⟩

end Simard.Merging
