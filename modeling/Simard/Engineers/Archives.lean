import Simard.Engineers.Reaper
import Simard.Overseer.Recipes

/-! What a quiet engineer left behind is archived before anyone looks into it, in a directory
named for its claim and the time. The claim's key is made safe for a path first; the
directory is found again by that name, and the brief of the investigation carries it as its
token. -/
namespace Simard.Engineers
open Simard.Library Simard.TypedOoda Simard.Overseer

/-- A directory of the archive, and the claim whose evidence was put there. -/
structure ArchiveEpoch where
  dirName : List Char
  writtenFor : String
  deriving DecidableEq

def archiveFreshnessWindow : Nat := 3600

def epochTime (sanitized : List Char) (epoch : ArchiveEpoch) : Option Nat :=
  (stripPrefix (sanitized ++ ['-']) epoch.dirName).bind (parseUnsigned 64)

def newerEpoch (sanitized : List Char) (newest : Option (Nat × ArchiveEpoch))
    (epoch : ArchiveEpoch) : Option (Nat × ArchiveEpoch) :=
  match epochTime sanitized epoch with
  | none => newest
  | some ts => if newest.all fun best => best.1 < ts then some (ts, epoch) else newest

/-- The newest directory of that name, if it is not too old; the entries are absent when the
archive cannot be listed. -/
def findRecentArchiveEpoch (entries : Option (List ArchiveEpoch)) (sanitized : List Char)
    (nowTs : UInt64) : Option ArchiveEpoch :=
  (entries.bind (·.foldl (newerEpoch sanitized) none)).bind fun (ts, epoch) =>
    if nowTs.toNat - ts ≤ archiveFreshnessWindow then some epoch else none

/-- What archiving meets: the time, which directories can be read (absent when the archive
cannot be listed), and the errors of creating the directory and of writing its manifest. -/
structure ArchiveWorld where
  nowTs : UInt64
  readable : Option (ArchiveEpoch → Bool)
  createError : Option (List Char)
  manifestError : Option (List Char)

def ArchiveWorld.list (world : ArchiveWorld) (archive : List ArchiveEpoch) :
    Option (List ArchiveEpoch) :=
  world.readable.map fun readable => archive.filter readable

structure ArchiveOutcome where
  dir : List Char
  minted : Bool

/-- The investigator of quiet engineers: where its archive is and which repository its recipes
are for. -/
structure Investigator where
  archiveRoot : List Char
  targetRepo : List Char

namespace Investigator

variable (investigator : Investigator)

def evidenceDir (dirName : List Char) : List Char :=
  investigator.archiveRoot ++ '/' :: dirName

/-- A recent directory is used again as it is; otherwise one is made for this claim, and a
directory of that very name is written over. -/
def archiveStaleEngineerEvidence (claimKey : String) (world : ArchiveWorld)
    (archive : List ArchiveEpoch) : Except (List Char) ArchiveOutcome × List ArchiveEpoch :=
  let sanitized := sanitizeClaimKeyForArchive claimKey.toList
  match findRecentArchiveEpoch (world.list archive) sanitized world.nowTs with
  | some existing => (.ok ⟨investigator.evidenceDir existing.dirName, false⟩, archive)
  | none =>
      let dirName := sanitized ++ '-' :: Nat.toDigits 10 world.nowTs.toNat
      let dir := investigator.evidenceDir dirName
      match world.createError with
      | some e => (.error ("create archive dir ".toList ++ dir ++ ": ".toList ++ e), archive)
      | none =>
          let written := archive.filter (·.dirName ≠ dirName) ++ [⟨dirName, claimKey⟩]
          match world.manifestError with
          | some e => (.error ("write manifest.json: ".toList ++ e), written)
          | none => (.ok ⟨dir, true⟩, written)

def brief (claimKey : String) (idleAgeSecs : Nat) (dir : List Char) : RecipeBrief :=
  investigationBrief investigator.targetRepo claimKey.toList (goalIdFromClaimKey claimKey).toList
    idleAgeSecs dir

/-- An engineer whose evidence could not be archived counts as alive; only evidence archived
just now is looked into. -/
def investigate (claimKey : String) (idleAgeSecs : Nat) (world : ArchiveWorld)
    (archive : List ArchiveEpoch) : InvestigationOutcome RecipeBrief × List ArchiveEpoch :=
  match investigator.archiveStaleEngineerEvidence claimKey world archive with
  | (.error _, after) => (⟨.stillAlive, []⟩, after)
  | (.ok archived, after) =>
      if archived.minted then
        (⟨.pending, [investigator.brief claimKey idleAgeSecs archived.dir]⟩, after)
      else (⟨.pending, []⟩, after)

end Investigator

/-- The archive, and the briefs sent so far with the claims they were sent for. -/
structure Inquiries where
  archive : List ArchiveEpoch
  sent : List (String × RecipeBrief)

def Inquiries.init : Inquiries := ⟨[], []⟩

inductive InquiryEvent where
  | investigate (claimKey : String) (idleAgeSecs : Nat) (world : ArchiveWorld)
  | clear (kept : ArchiveEpoch → Bool)

namespace Investigator

variable (investigator : Investigator)

def step (s : Inquiries) : InquiryEvent → Inquiries
  | .investigate claimKey idleAgeSecs world =>
      let (outcome, archive) := investigator.investigate claimKey idleAgeSecs world s.archive
      ⟨archive, s.sent ++ outcome.interventions.map fun brief => (claimKey, brief)⟩
  | .clear kept => { s with archive := s.archive.filter kept }

def machine : Machine Inquiries InquiryEvent := ⟨investigator.step⟩

end Investigator

def archiveChar (c : Char) : Char :=
  if c.isAlphanum || c = '_' || c = '-' then c else '_'

def Telling (c : Char) : Prop := c.isAlphanum ∨ c = '-'

theorem archiveChar_of_telling {c : Char} (h : Telling c) : archiveChar c = c := by
  unfold archiveChar
  rw [if_pos]
  rcases h with h | rfl
  · simp [h]
  · decide

theorem archiveChar_of_not_telling {c : Char} (h : ¬ Telling c) : archiveChar c = '_' := by
  obtain ⟨halnum, hdash⟩ := not_or.mp h
  by_cases hunderscore : c = '_'
  · subst hunderscore
    decide
  · simp [archiveChar, halnum, hdash, hunderscore]

theorem not_telling_underscore : ¬ Telling '_' := by
  rintro (h | h)
  · exact absurd h (by decide)
  · exact absurd h (by decide)

theorem archiveChar_eq_iff {c d : Char} :
    archiveChar c = archiveChar d ↔ c = d ∨ ¬ Telling c ∧ ¬ Telling d := by
  by_cases hc : Telling c
  · rw [archiveChar_of_telling hc]
    by_cases hd : Telling d
    · simp [archiveChar_of_telling hd, hc]
    · rw [archiveChar_of_not_telling hd]
      constructor
      · rintro rfl
        exact absurd hc not_telling_underscore
      · rintro (rfl | h)
        · exact absurd hc hd
        · exact absurd hc h.1
  · rw [archiveChar_of_not_telling hc]
    by_cases hd : Telling d
    · rw [archiveChar_of_telling hd]
      constructor
      · rintro rfl
        exact absurd hd not_telling_underscore
      · rintro (rfl | h)
        · exact absurd hd hc
        · exact absurd hd h.2
    · simp [archiveChar_of_not_telling hd, hc, hd]

/-- The keys have different lengths, or at some place a letter, a digit or a hyphen in one of
them and something else in the other. -/
def Unlike (key other : String) : Prop :=
  key.toList.length ≠ other.toList.length ∨
    ∃ (place : Nat) (c d : Char), key.toList[place]? = some c ∧
      other.toList[place]? = some d ∧ c ≠ d ∧
      (Telling c ∨ Telling d)

theorem map_archiveChar_eq_iff {key other : String} :
    key.toList.map archiveChar = other.toList.map archiveChar ↔ ¬ Unlike key other := by
  constructor
  · rintro h (hlength | ⟨place, c, d, hc, hd, hne, htelling⟩)
    · exact hlength (by simpa using congrArg List.length h)
    · have hplace := congrArg (·[place]?) h
      simp only [List.getElem?_map, hc, hd, Option.map_some, Option.some.injEq,
        archiveChar_eq_iff] at hplace
      tauto
  · intro h
    obtain ⟨hlength, hplaces⟩ := not_or.mp h
    rw [ne_eq, not_not] at hlength
    apply List.ext_getElem (by simpa using hlength)
    intro place hkey hother
    rw [List.length_map] at hkey hother
    rw [List.getElem_map, List.getElem_map, archiveChar_eq_iff]
    by_contra hdiffer
    obtain ⟨hne, htelling⟩ := not_or.mp hdiffer
    refine hplaces ⟨place, _, _, List.getElem?_eq_getElem hkey, List.getElem?_eq_getElem hother,
      hne, ?_⟩
    by_contra hneither
    exact htelling (not_or.mp hneither)

theorem sanitizeClaimKeyForArchive_identifier {key : String} (h : isIdentifier key) :
    sanitizeClaimKeyForArchive key.toList = key.toList.map archiveChar := by
  simp only [isIdentifier, Bool.and_eq_true, decide_eq_true_eq, Bool.not_eq_true',
    List.isEmpty_eq_false_iff] at h
  obtain ⟨⟨hne, hsize⟩, -⟩ := h
  have hlength := length_le_utf8ByteSize key.toList
  rw [String.ofList_toList] at hlength
  have hwhole : (key.toList.map archiveChar).take 200 = key.toList.map archiveChar := by
    apply List.take_of_length_le
    rw [List.length_map]
    omega
  change (if (key.toList.map archiveChar).take 200 = [] then _ else _) = _
  rw [hwhole, if_neg (by simpa using hne)]
  exact hwhole

theorem archiveChar_plain (c : Char) :
    (archiveChar c ≠ ')' && !isWhitespace (archiveChar c)) = true := by
  have hplain {d : Char} (hd : d.isAlphanum ∨ d = '_' ∨ d = '-') :
      (d ≠ ')' && !isWhitespace d) = true := by
    rcases hd with hd | rfl | rfl
    · have hrange := isAlphanum_range hd
      have hparen : d ≠ ')' := by
        rintro rfl
        exact absurd hrange.1 (by decide)
      simp [hparen, solid_of_range (c := d) (by omega) (by omega)]
    · decide
    · decide
  apply hplain
  unfold archiveChar
  split
  next h => simpa [or_assoc] using h
  next => exact .inr (.inl rfl)

theorem epochTime_named {sanitized other : List Char} {epoch : ArchiveEpoch} {made ts : Nat}
    (hname : epoch.dirName = other ++ '-' :: Nat.toDigits 10 made)
    (hfound : epochTime sanitized epoch = some ts) : sanitized = other := by
  obtain ⟨tail, htail, hparsed⟩ := Option.bind_eq_some_iff.mp hfound
  rw [stripPrefix_eq_some, hname, List.append_assoc, List.singleton_append] at htail
  have hdash : '-' ∉ tail := by
    intro hmem
    rcases mem_of_parseUnsigned hparsed _ hmem with h | h
    · exact absurd h (by decide)
    · exact absurd h (by decide)
  have hdigits : '-' ∉ Nat.toDigits 10 made := by
    intro hmem
    exact absurd (Nat.isDigit_of_mem_toDigits (by decide) (by decide) hmem) (by decide)
  have hreversed : (Nat.toDigits 10 made).reverse ++ '-' :: other.reverse =
      tail.reverse ++ '-' :: sanitized.reverse := by
    simpa using congrArg List.reverse htail
  have hsame := (append_sep_inj (by simpa using hdigits) (by simpa using hdash) hreversed).2
  exact (List.reverse_injective hsame).symm

theorem foldl_newerEpoch {sanitized : List Char} {entries : List ArchiveEpoch}
    {start : Option (Nat × ArchiveEpoch)} {ts : Nat} {epoch : ArchiveEpoch}
    (h : entries.foldl (newerEpoch sanitized) start = some (ts, epoch)) :
    start = some (ts, epoch) ∨ epoch ∈ entries ∧ epochTime sanitized epoch = some ts := by
  induction entries generalizing start with
  | nil => exact .inl h
  | cons entry rest ih =>
    rcases ih h with hstart | ⟨hmem, htime⟩
    · unfold newerEpoch at hstart
      split at hstart
      · exact .inl hstart
      next ts' htime =>
        split at hstart
        · cases hstart
          exact .inr ⟨List.mem_cons_self, htime⟩
        · exact .inl hstart
    · exact .inr ⟨List.mem_cons_of_mem entry hmem, htime⟩

theorem findRecentArchiveEpoch_listed {entries : Option (List ArchiveEpoch)}
    {sanitized : List Char} {nowTs : UInt64} {epoch : ArchiveEpoch}
    (h : findRecentArchiveEpoch entries sanitized nowTs = some epoch) :
    ∃ listed ts, entries = some listed ∧ epoch ∈ listed ∧ epochTime sanitized epoch = some ts := by
  obtain ⟨⟨ts, found⟩, hnewest, hrecent⟩ := Option.bind_eq_some_iff.mp h
  obtain ⟨listed, hlisted, hfold⟩ := Option.bind_eq_some_iff.mp hnewest
  simp only at hrecent
  split at hrecent
  · cases hrecent
    rcases foldl_newerEpoch hfold with hnone | ⟨hmem, htime⟩
    · cases hnone
    · exact ⟨listed, ts, hlisted, hmem, htime⟩
  · cases hrecent

def investigationOpening : List Char :=
  "Investigate a quiet/idle engineer BEFORE Simard reaps it — ask WHY it went ".toList ++
    "quiet, preserve evidence, and only conclude it is dead if it genuinely is (".toList

theorem opening_clear :
    containsText staleInvestigationDedupPrefix
      (investigationOpening ++ staleInvestigationDedupPrefix.dropLast) = false := by
  unfold investigationOpening staleInvestigationDedupPrefix
  repeat rw [String.toList_ofList]
  decide

theorem investigationBrief_token (targetRepo claimKey goalId : List Char) (idleAgeSecs : Nat)
    (dir : List Char) : ∃ tail,
      (investigationBrief targetRepo claimKey goalId idleAgeSecs dir).taskDescription =
        investigationOpening ++ (staleInvestigationDedupPrefix ++
          (sanitizeClaimKeyForArchive claimKey ++ ("). Follow ".toList ++ tail))) := by
  unfold investigationBrief investigationOpening
  simp only [List.append_assoc]
  exact ⟨_, rfl⟩

theorem investigationBrief_closing (targetRepo claimKey goalId : List Char) (idleAgeSecs : Nat)
    (dir : List Char) : ∃ front,
      (investigationBrief targetRepo claimKey goalId idleAgeSecs dir).taskDescription =
        front ++ "dead and unrecoverable, release its claim and remove its worktree.".toList := by
  unfold investigationBrief
  dsimp only
  exact ⟨_, rfl⟩

theorem trim_investigationBrief (targetRepo claimKey goalId : List Char) (idleAgeSecs : Nat)
    (dir : List Char) :
    trim (investigationBrief targetRepo claimKey goalId idleAgeSecs dir).taskDescription =
      (investigationBrief targetRepo claimKey goalId idleAgeSecs dir).taskDescription := by
  refine trim_of_ends (c := 'I') (d := '.') ?_ ?_ (by decide) (by decide)
  · have hopening : investigationOpening.head? = some 'I' := by
      unfold investigationOpening
      repeat rw [String.toList_ofList]
      rfl
    obtain ⟨tail, htext⟩ := investigationBrief_token targetRepo claimKey goalId idleAgeSecs dir
    rw [htext, List.head?_append, hopening, Option.some_or]
  · have hclosing :
        "dead and unrecoverable, release its claim and remove its worktree.".toList.getLast? =
          some '.' := by
      rw [String.toList_ofList]
      rfl
    obtain ⟨front, htext⟩ := investigationBrief_closing targetRepo claimKey goalId idleAgeSecs dir
    rw [htext, List.getLast?_append, hclosing, Option.some_or]

theorem recipeDedupKey_investigationBrief {key : String} (h : isIdentifier key)
    (targetRepo goalId : List Char) (idleAgeSecs : Nat) (dir : List Char) :
    recipeDedupKey (investigationBrief targetRepo key.toList goalId idleAgeSecs dir) =
      staleInvestigationDedupPrefix ++ key.toList.map archiveChar := by
  obtain ⟨tail, htext⟩ :=
    investigationBrief_token targetRepo key.toList goalId idleAgeSecs dir
  have hclosed : "). Follow ".toList = ')' :: ". Follow ".toList := by
    repeat rw [String.toList_ofList]
  rw [sanitizeClaimKeyForArchive_identifier h, hclosed] at htext
  have hprefix :
      staleInvestigationDedupPrefix.all (fun c => c ≠ ')' && !isWhitespace c) = true := by
    decide
  have hsolid : ∀ c ∈ staleInvestigationDedupPrefix ++ key.toList.map archiveChar,
      (c ≠ ')' && !isWhitespace c) = true := by
    intro c hc
    rcases List.mem_append.mp hc with hc | hc
    · exact List.all_eq_true.mp hprefix c hc
    · obtain ⟨d, -, rfl⟩ := List.mem_map.mp hc
      exact archiveChar_plain d
  have htoken : tokenKey (trim (investigationBrief targetRepo key.toList goalId idleAgeSecs
      dir).taskDescription) staleInvestigationDedupPrefix =
        some (staleInvestigationDedupPrefix ++ key.toList.map archiveChar) := by
    rw [trim_investigationBrief, htext, tokenKey, afterFirst_clear opening_clear, Option.map_some,
      ← List.append_assoc, List.takeWhile_append_of_pos hsolid]
    simp
  unfold recipeDedupKey
  simp only [htoken, Option.some_or, Option.getD_some]

/-- Every directory is named for the claim it was written for, and every brief was written
about the claim it was sent for. -/
structure Named (investigator : Investigator) (s : Inquiries) : Prop where
  archive : ∀ epoch ∈ s.archive, ∃ made : Nat,
    epoch.dirName = sanitizeClaimKeyForArchive epoch.writtenFor.toList ++
      '-' :: Nat.toDigits 10 made
  sent : ∀ key brief, (key, brief) ∈ s.sent →
    ∃ idleAgeSecs dir, brief = investigator.brief key idleAgeSecs dir

variable {investigator : Investigator}

theorem named_archive {archive : List ArchiveEpoch} {claimKey : String} {world : ArchiveWorld}
    (h : ∀ epoch ∈ archive, ∃ made : Nat, epoch.dirName =
      sanitizeClaimKeyForArchive epoch.writtenFor.toList ++ '-' :: Nat.toDigits 10 made) :
    ∀ epoch ∈ (investigator.archiveStaleEngineerEvidence claimKey world archive).2, ∃ made : Nat,
      epoch.dirName =
        sanitizeClaimKeyForArchive epoch.writtenFor.toList ++ '-' :: Nat.toDigits 10 made := by
  have hwritten :
    ∀ epoch ∈ archive.filter (·.dirName ≠ sanitizeClaimKeyForArchive claimKey.toList ++
        '-' :: Nat.toDigits 10 world.nowTs.toNat) ++
      [⟨sanitizeClaimKeyForArchive claimKey.toList ++ '-' :: Nat.toDigits 10 world.nowTs.toNat,
        claimKey⟩], ∃ made : Nat, epoch.dirName =
          sanitizeClaimKeyForArchive epoch.writtenFor.toList ++ '-' :: Nat.toDigits 10 made := by
    intro epoch hmem
    rcases List.mem_append.mp hmem with hmem | hmem
    · exact h epoch (List.mem_of_mem_filter hmem)
    · obtain rfl := List.mem_singleton.mp hmem
      exact ⟨_, rfl⟩
  unfold Investigator.archiveStaleEngineerEvidence
  dsimp only
  split
  · exact h
  · split
    · exact h
    · split
      · exact hwritten
      · exact hwritten

theorem investigate_archive (claimKey : String) (idleAgeSecs : Nat) (world : ArchiveWorld)
    (archive : List ArchiveEpoch) :
    (investigator.investigate claimKey idleAgeSecs world archive).2 =
      (investigator.archiveStaleEngineerEvidence claimKey world archive).2 := by
  unfold Investigator.investigate
  split
  next harchived => rw [harchived]
  next harchived =>
    rw [harchived]
    split <;> rfl

theorem investigate_brief {claimKey : String} {idleAgeSecs : Nat} {world : ArchiveWorld}
    {archive : List ArchiveEpoch} {brief : RecipeBrief}
    (h : brief ∈ (investigator.investigate claimKey idleAgeSecs world archive).1.interventions) :
    ∃ dir, brief = investigator.brief claimKey idleAgeSecs dir := by
  unfold Investigator.investigate at h
  split at h
  · cases h
  · split at h
    · exact ⟨_, List.mem_singleton.mp h⟩
    · cases h

theorem Named.step {s : Inquiries} (h : Named investigator s) (event : InquiryEvent) :
    Named investigator (investigator.machine.step s event) := by
  cases event with
  | investigate claimKey idleAgeSecs world =>
    constructor
    · change ∀ epoch ∈ (investigator.investigate claimKey idleAgeSecs world s.archive).2, _
      rw [investigate_archive]
      exact named_archive h.archive
    · intro key brief hmem
      rcases List.mem_append.mp hmem with hmem | hmem
      · exact h.sent key brief hmem
      · obtain ⟨sent, hsent, heq⟩ := List.mem_map.mp hmem
        cases heq
        obtain ⟨dir, hdir⟩ := investigate_brief hsent
        exact ⟨idleAgeSecs, dir, hdir⟩
  | clear kept =>
    exact ⟨fun epoch hmem => h.archive epoch (List.mem_of_mem_filter hmem), h.sent⟩

theorem named_run (events : List InquiryEvent) :
    Named investigator (investigator.machine.run .init events) :=
  investigator.machine.invariant_run (fun _ event h => h.step event)
    ⟨fun _ hmem => (nomatch hmem), fun _ _ hmem => (nomatch hmem)⟩ events

/-- Whatever was looked into and removed so far: what is found for the one claim was not
written for the other, briefs about the two are told apart, and so are their names. -/
structure KeptApart (investigator : Investigator) (key other : String) : Prop where
  epochs : ∀ (events : List InquiryEvent) (world : ArchiveWorld) (epoch : ArchiveEpoch),
    findRecentArchiveEpoch (world.list (investigator.machine.run .init events).archive)
      (sanitizeClaimKeyForArchive key.toList) world.nowTs = some epoch → epoch.writtenFor ≠ other
  tokens : ∀ (events : List InquiryEvent) (brief brief' : RecipeBrief),
    (key, brief) ∈ (investigator.machine.run .init events).sent →
    (other, brief') ∈ (investigator.machine.run .init events).sent →
      recipeDedupKey brief ≠ recipeDedupKey brief'
  names : sanitizeClaimKeyForArchive key.toList ≠ sanitizeClaimKeyForArchive other.toList

theorem found_for {events : List InquiryEvent} {world : ArchiveWorld} {sanitized : List Char}
    {epoch : ArchiveEpoch}
    (h : findRecentArchiveEpoch (world.list (investigator.machine.run .init events).archive)
      sanitized world.nowTs = some epoch) :
    sanitized = sanitizeClaimKeyForArchive epoch.writtenFor.toList := by
  obtain ⟨listed, ts, hlisted, hmem, htime⟩ := findRecentArchiveEpoch_listed h
  obtain ⟨readable, -, rfl⟩ := Option.map_eq_some_iff.mp hlisted
  obtain ⟨made, hname⟩ :=
    (@named_run investigator events).archive epoch (List.mem_of_mem_filter hmem)
  exact epochTime_named hname htime

def clearWorld : ArchiveWorld := ⟨0, some fun _ => true, none, none⟩

theorem found_under_name {key other : String}
    (h : sanitizeClaimKeyForArchive key.toList = sanitizeClaimKeyForArchive other.toList) :
    findRecentArchiveEpoch
      (clearWorld.list (investigator.machine.run .init [.investigate other 0 clearWorld]).archive)
      (sanitizeClaimKeyForArchive key.toList) clearWorld.nowTs =
        some ⟨sanitizeClaimKeyForArchive other.toList ++ '-' :: Nat.toDigits 10 0, other⟩ := by
  have harchive : (investigator.machine.run .init [.investigate other 0 clearWorld]).archive =
      [⟨sanitizeClaimKeyForArchive other.toList ++ '-' :: Nat.toDigits 10 0, other⟩] := by
    change (investigator.investigate other 0 clearWorld []).2 = _
    rw [investigate_archive]
    rfl
  have htime : epochTime (sanitizeClaimKeyForArchive other.toList)
      ⟨sanitizeClaimKeyForArchive other.toList ++ '-' :: Nat.toDigits 10 0, other⟩ = some 0 := by
    have hstrip : stripPrefix (sanitizeClaimKeyForArchive other.toList ++ ['-'])
        (sanitizeClaimKeyForArchive other.toList ++ '-' :: Nat.toDigits 10 0) =
          some (Nat.toDigits 10 0) := by
      rw [stripPrefix_eq_some, List.append_assoc, List.singleton_append]
    rw [epochTime, hstrip, Option.bind_some, parseUnsigned_toDigits (by decide)]
  rw [harchive, h]
  change ((newerEpoch (sanitizeClaimKeyForArchive other.toList) none _).bind _) = _
  rw [newerEpoch, htime]
  rfl

/-- Two claims that can be recorded are kept apart exactly when their keys are unlike. -/
theorem evidence_kept_apart_iff (investigator : Investigator) (spawn other : SpawnEngineerAction)
    (goalId otherGoal : String) (hspawn : SpawnAdmitted spawn goalId)
    (hother : SpawnAdmitted other otherGoal) :
    KeptApart investigator spawn.claimKey other.claimKey ↔
      Unlike spawn.claimKey other.claimKey := by
  have hkey := (spawnAdmitted_checked hspawn).key
  have hkey' := (spawnAdmitted_checked hother).key
  have hnames : sanitizeClaimKeyForArchive spawn.claimKey.toList =
      sanitizeClaimKeyForArchive other.claimKey.toList ↔
        ¬ Unlike spawn.claimKey other.claimKey := by
    rw [sanitizeClaimKeyForArchive_identifier hkey, sanitizeClaimKeyForArchive_identifier hkey',
      map_archiveChar_eq_iff]
  constructor
  · intro h
    by_contra hlike
    exact h.epochs _ clearWorld _ (found_under_name (hnames.mpr hlike)) rfl
  · intro hunlike
    have hne : sanitizeClaimKeyForArchive spawn.claimKey.toList ≠
        sanitizeClaimKeyForArchive other.claimKey.toList := by
      rw [ne_eq, hnames, not_not]
      exact hunlike
    refine ⟨?_, ?_, hne⟩
    · intro events world epoch hfound heq
      exact hne (heq ▸ found_for hfound)
    · intro events brief brief' hsent hsent' hsame
      obtain ⟨idleAgeSecs, dir, rfl⟩ := (named_run events).sent _ _ hsent
      obtain ⟨idleAgeSecs', dir', rfl⟩ := (named_run events).sent _ _ hsent'
      unfold Investigator.brief at hsame
      rw [recipeDedupKey_investigationBrief hkey, recipeDedupKey_investigationBrief hkey'] at hsame
      exact map_archiveChar_eq_iff.mp (List.append_cancel_left hsame) hunlike

theorem numbered_goals_kept_apart :
    KeptApart ⟨"/srv/simard/reaped-engineers".toList, "rysweet/Simard".toList⟩
      (plainSpawn ⟨"rysweet", "Simard"⟩ "goal-1").claimKey
      (plainSpawn ⟨"rysweet", "Simard"⟩ "goal-2").claimKey :=
  (evidence_kept_apart_iff _ (plainSpawn ⟨"rysweet", "Simard"⟩ "goal-1")
    (plainSpawn ⟨"rysweet", "Simard"⟩ "goal-2") "goal-1" "goal-2"
    (plainSpawn_admitted (by decide) (by decide) (by decide) (by decide))
    (plainSpawn_admitted (by decide) (by decide) (by decide) (by decide))).mpr
    (.inr ⟨20, '1', '2', by decide, by decide, by decide, .inl (.inl (by decide))⟩)

/-- Two repositories whose names differ only in a dot and an underscore are one to the archive. -/
theorem dotted_repository_shares_evidence :
    SpawnAdmitted (plainSpawn ⟨"rysweet", "a.b"⟩ "goal-1") "goal-1" ∧
      SpawnAdmitted (plainSpawn ⟨"rysweet", "a_b"⟩ "goal-1") "goal-1" ∧
      (plainSpawn ⟨"rysweet", "a.b"⟩ "goal-1").claimKey ≠
        (plainSpawn ⟨"rysweet", "a_b"⟩ "goal-1").claimKey ∧
      ¬ KeptApart ⟨"/srv/simard/reaped-engineers".toList, "rysweet/Simard".toList⟩
        (plainSpawn ⟨"rysweet", "a.b"⟩ "goal-1").claimKey
        (plainSpawn ⟨"rysweet", "a_b"⟩ "goal-1").claimKey := by
  refine ⟨plainSpawn_admitted (by decide) (by decide) (by decide) (by decide),
    plainSpawn_admitted (by decide) (by decide) (by decide) (by decide), by decide, ?_⟩
  intro hkept
  exact hkept.names (by decide)

end Simard.Engineers
