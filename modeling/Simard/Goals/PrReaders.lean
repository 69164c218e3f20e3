import Simard.Goals.PullRequests

/-! Two readers of pull request references: the pruner, which drops those that are not open, and the
gate, which asks whether they are merged. Each has its own way with blanks, number signs and slugs.
-/
namespace Simard.Goals
open Simard.Library

def prunerNumber (goal : ActiveGoal) : Option Nat := (goal.wipRefs.find? isPrRef).bind prNumber

def gateNumber (goal : ActiveGoal) : Option Nat :=
  (firstRefOfKind goal .pr).bind fun refId => (parseRefNumber .pr refId).toOption

/-- The pull request whose state decides whether the first reference is pruned. -/
def prunerPr (goal : ActiveGoal) : Option (String × Nat) := do
  return (← repoSlugForGoal goal, ← prunerNumber goal)

/-- The pull request whose state the gate asks `gh` for. -/
def gatePr (goal : ActiveGoal) : Option (String × Nat) := do
  let num ← firstRefOfKind goal .pr
  (validateRepoSlug (repoSlug goal)).toOption
  return (repoSlug goal, ← (parseRefNumber .pr num).toOption)

def oneOrTwo (ok : List Char → Bool) (text : List Char) : Bool :=
  match splitAtFirst '/' text with
  | some (owner, name) => '/' ∉ name && ok owner && ok name
  | none => ok text

def isSimard (text : List Char) : Bool := text.map Char.toLower = "simard".toList

def prunerRepo : Option String → Bool
  | none => true
  | some repo =>
      let repo := trim repo.toList
      repo.isEmpty || isSimard repo || oneOrTwo validRepoSegment repo

/-- The gate takes longer segments, and such as begin with a dot or a hyphen. -/
def gateRepo : Option String → Bool
  | none => true
  | some repo => isSimard repo.toList || oneOrTwo isSegment repo.toList

section Repositories

variable {goal : ActiveGoal}

theorem isSome_repoSlugForGoal (goal : ActiveGoal) :
    (repoSlugForGoal goal).isSome = prunerRepo goal.repo := by
  unfold repoSlugForGoal prunerRepo
  cases goal.repo with
  | none => rfl
  | some repo =>
    simp only [Option.map_some]
    generalize trim repo.toList = text
    cases text with
    | nil => rfl
    | cons c rest =>
      have hsimard : eqIgnoreAsciiCase (String.ofList (c :: rest)) "simard" =
          isSimard (c :: rest) := by
        rw [eqIgnoreAsciiCase, asciiLowercase, String.toList_ofList]
        rfl
      simp only [hsimard, List.isEmpty_cons, Bool.false_or]
      cases isSimard (c :: rest) with
      | true => rfl
      | false =>
        simp only [Bool.false_eq_true, if_false, Bool.false_or, oneOrTwo]
        cases splitAtFirst '/' (c :: rest) with
        | none =>
          dsimp only
          cases validRepoSegment (c :: rest) <;> rfl
        | some parts =>
          dsimp only
          by_cases hslash : '/' ∈ parts.2
          · simp [hslash]
          · cases validRepoSegment parts.1 <;> cases validRepoSegment parts.2 <;> simp [hslash]

theorem validateRepoSlug_pair {owner name : List Char} (howner : '/' ∉ owner) :
    validateRepoSlug (String.ofList (owner ++ '/' :: name)) = .ok () ↔
      ('/' ∉ name && isSegment owner && isSegment name) = true := by
  unfold validateRepoSlug
  rw [String.toList_ofList, List.splitOn_append_cons_self_of_not_mem howner]
  by_cases hname : '/' ∈ name
  · obtain ⟨first, rest, rfl, hfirst⟩ := List.eq_append_cons_of_mem hname
    rw [List.splitOn_append_cons_self_of_not_mem hfirst]
    cases hrest : rest.splitOn '/' with
    | nil => exact absurd hrest (List.splitOn_ne_nil '/' rest)
    | cons third pieces => simp
  · rw [List.splitOn_eq_singleton hname]
    dsimp only
    cases isSegment owner <;> cases isSegment name <;> simp [hname]

theorem asciiLowercase_simard {repo : String} :
    eqIgnoreAsciiCase repo "Simard" = isSimard repo.toList := rfl

theorem validateRepoSlug_repoSlug (goal : ActiveGoal) :
    validateRepoSlug (repoSlug goal) = .ok () ↔ gateRepo goal.repo := by
  have hdefault : validateRepoSlug defaultRepo = .ok () := by decide
  unfold repoSlug gateRepo
  cases goal.repo with
  | none => simpa using hdefault
  | some repo =>
    dsimp only
    rw [asciiLowercase_simard]
    cases isSimard repo.toList with
    | true => simpa using hdefault
    | false =>
      rw [if_neg (by decide), Bool.false_or, oneOrTwo]
      by_cases hslash : '/' ∈ repo.toList
      · obtain ⟨owner, name, hrepo, howner⟩ := List.eq_append_cons_of_mem hslash
        have hpair := @validateRepoSlug_pair owner name howner
        rw [← hrepo, String.ofList_toList] at hpair
        rw [if_pos hslash, hpair, hrepo, splitAtFirst_append howner]
      · have hpair := @validateRepoSlug_pair "rysweet".toList repo.toList (by decide)
        have hrepo : String.ofList ("rysweet".toList ++ '/' :: repo.toList) =
            "rysweet/" ++ repo := by
          apply String.toList_inj.mp
          rw [String.toList_ofList, String.toList_append]
          rfl
        have howner : isSegment "rysweet".toList = true := by decide
        rw [hrepo] at hpair
        rw [if_neg hslash, hpair, splitAtFirst_of_notMem hslash, howner]
        simp [hslash]

theorem isSlugChar_range {c : Char} (h : isSlugChar c) : 45 ≤ c.toNat ∧ c.toNat ≤ 122 := by
  simp only [isSlugChar, Bool.or_eq_true, decide_eq_true_eq] at h
  rcases h with (((h | rfl) | rfl) | rfl)
  · have hrange := isAlphanum_range h
    omega
  · decide
  · decide
  · decide

theorem solid_of_isSegment {segment : List Char} (h : isSegment segment) :
    ∀ c ∈ segment, isWhitespace c = false := by
  have hchars : segment.all isSlugChar := (Bool.and_eq_true_iff.mp h).2
  intro c hc
  have hrange := isSlugChar_range (List.all_eq_true.mp hchars c hc)
  exact solid_of_range (by omega) (by omega)

theorem solid_of_gateRepo {repo : String} (h : gateRepo (some repo)) :
    repo.toList ≠ [] ∧ trim repo.toList = repo.toList := by
  rcases Bool.or_eq_true_iff.mp h with hsimard | hparts
  · have hlower : asciiLowercase repo = "simard".toList := of_decide_eq_true hsimard
    refine ⟨fun hnil => ?_, trim_of_asciiLowercase (by decide) hlower⟩
    rw [asciiLowercase, hnil] at hlower
    cases hlower
  · have hsegment {segment : List Char} (h : isSegment segment) : segment ≠ [] := by
      rintro rfl
      cases h
    unfold oneOrTwo at hparts
    split at hparts
    next owner name hsplit =>
      obtain ⟨hrepo, -⟩ := splitAtFirst_eq_some.mp hsplit
      simp only [Bool.and_eq_true] at hparts
      obtain ⟨⟨-, howner⟩, hname⟩ := hparts
      rw [hrepo]
      refine ⟨by simp, trim_of_solid fun c hc => ?_⟩
      rcases List.mem_append.mp hc with hc | hc
      · exact solid_of_isSegment howner c hc
      · rcases List.mem_cons.mp hc with rfl | hc
        · decide
        · exact solid_of_isSegment hname c hc
    next => exact ⟨hsegment hparts, trim_of_solid (solid_of_isSegment hparts)⟩

theorem slugs_agree (hpruner : prunerRepo goal.repo) (hgate : gateRepo goal.repo) :
    repoSlugForGoal goal = some (repoSlug goal) := by
  rw [← isSome_repoSlugForGoal] at hpruner
  obtain ⟨slug, hslug⟩ := Option.isSome_iff_exists.mp hpruner
  rw [hslug]
  refine congrArg some ?_
  unfold repoSlugForGoal at hslug
  unfold repoSlug
  cases hrepo : goal.repo with
  | none =>
    rw [hrepo] at hslug
    exact (Option.some.inj hslug).symm
  | some repo =>
    rw [hrepo] at hslug hgate
    obtain ⟨hne, htrim⟩ := solid_of_gateRepo hgate
    obtain ⟨c, rest, hcons⟩ := List.exists_cons_of_ne_nil hne
    have hsimard : eqIgnoreAsciiCase repo "simard" = isSimard repo.toList := rfl
    rw [Option.map_some, htrim, hcons] at hslug
    dsimp only at hslug ⊢
    rw [← hcons, String.ofList_toList, hsimard] at hslug
    rw [asciiLowercase_simard]
    split at hslug
    next hdefault =>
      rw [if_pos hdefault]
      exact (Option.some.inj hslug).symm
    next hother =>
      rw [if_neg hother]
      split at hslug
      next owner name hsplit =>
        obtain ⟨hparts, -⟩ := splitAtFirst_eq_some.mp hsplit
        split at hslug
        · cases hslug
        · rw [if_pos (by simp [hparts]), ← Option.some.inj hslug, ← hparts, String.ofList_toList]
      next hsplit =>
        have hname : '/' ∉ repo.toList := fun hmem => by
          obtain ⟨owner, name, hparts, howner⟩ := List.eq_append_cons_of_mem hmem
          rw [splitAtFirst_eq_some.mpr ⟨hparts, howner⟩] at hsplit
          cases hsplit
        split at hslug
        · rw [if_neg hname, ← Option.some.inj hslug]
        · cases hslug

end Repositories

/-- The first reference the pruner takes for a pull request: one that the gate sees too reads as the
same positive number without blanks and number signs, or as none to both; one whose kind has blanks
around it reads as what the gate reads elsewhere. -/
def NumbersAgree (goal : ActiveGoal) : Prop :=
  match goal.wipRefs.find? isPrRef with
  | none => True
  | some ref =>
      if isRefOf .pr ref then
        (∃ n, 0 < n ∧ parseUnsigned 32 ref.refId.toList = some n) ∨
          prNumber ref = none ∧ (parseRefNumber .pr ref.refId).toOption = none
      else prNumber ref = gateNumber goal

section Numbers

variable {goal : ActiveGoal} {ref : WipRef}

theorem mem_trim_of_solid {c : Char} {text : List Char} (hc : c ∈ text)
    (hsolid : isWhitespace c = false) : c ∈ trim text := by
  have hkept {text : List Char} (hc : c ∈ text) : c ∈ trimStart text := by
    rw [← List.takeWhile_append_dropWhile (p := isWhitespace) (l := text)] at hc
    rcases List.mem_append.mp hc with hc | hc
    · rw [List.mem_takeWhile_imp hc] at hsolid
      cases hsolid
    · exact hc
  exact List.mem_reverse.mpr (hkept (List.mem_reverse.mpr (hkept hc)))

theorem solid_of_digit {c : Char} (h : c = '+' ∨ c.isDigit) : isWhitespace c = false := by
  rcases h with rfl | hdigit
  · decide
  · have hrange := isAlphanum_range (c := c) (by simp [Char.isAlphanum, hdigit])
    exact solid_of_range (by omega) (by omega)

theorem parseUnsigned_wider {n : Nat} {text : List Char} (h : parseUnsigned 32 text = some n) :
    parseUnsigned 64 text = some n := by
  obtain ⟨hparsed, hsmall⟩ := Option.filter_eq_some_iff.mp h
  have hbound : n < 2 ^ 32 := of_decide_eq_true hsmall
  refine Option.filter_eq_some_iff.mpr ⟨hparsed, decide_eq_true ?_⟩
  omega

theorem parseRefNumber_eq_some {refId : String} {n : Nat} :
    (parseRefNumber .pr refId).toOption = some n ↔
      parseUnsigned 64 (trim refId.toList) = some n ∧ 0 < n := by
  unfold parseRefNumber
  cases parseUnsigned 64 (trim refId.toList) with
  | none => simp [Except.toOption]
  | some m =>
    dsimp only
    split <;> simp [Except.toOption] <;> omega

theorem dropWhile_of_unsigned {text : List Char} (h : '#' ∉ text) :
    text.dropWhile (· = '#') = text := by
  cases text with
  | nil => rfl
  | cons c rest =>
    have hfirst : c ≠ '#' := fun heq => h (heq ▸ List.mem_cons_self)
    exact List.dropWhile_cons_of_neg (by simpa using hfirst)

theorem readings_agree_iff :
    prNumber ref = (parseRefNumber .pr ref.refId).toOption ↔
      (∃ n, 0 < n ∧ parseUnsigned 32 ref.refId.toList = some n) ∨
        prNumber ref = none ∧ (parseRefNumber .pr ref.refId).toOption = none := by
  constructor
  · intro hsame
    cases hgate : (parseRefNumber .pr ref.refId).toOption with
    | none => exact .inr ⟨hsame.trans hgate, rfl⟩
    | some n =>
      rw [hgate] at hsame
      obtain ⟨hparsed, hpositive⟩ := parseRefNumber_eq_some.mp hgate
      refine .inl ⟨n, hpositive, ?_⟩
      -- a number sign would be in the gate's way
      have hsign : '#' ∉ ref.refId.toList := by
        intro hmem
        have hdigit := mem_of_parseUnsigned hparsed '#' (mem_trim_of_solid hmem (by decide))
        exact absurd hdigit (by decide)
      rwa [prNumber, dropWhile_of_unsigned hsign] at hsame
  · rintro (⟨n, hpositive, hparsed⟩ | ⟨hpruner, hgate⟩)
    · have hdigits := mem_of_parseUnsigned hparsed
      have htrim : trim ref.refId.toList = ref.refId.toList :=
        trim_of_solid fun c hc => solid_of_digit (hdigits c hc)
      have hgate : (parseRefNumber .pr ref.refId).toOption = some n := by
        rw [parseRefNumber_eq_some, htrim]
        exact ⟨parseUnsigned_wider hparsed, hpositive⟩
      have hsign : '#' ∉ ref.refId.toList := fun hmem => absurd (hdigits '#' hmem) (by decide)
      rw [hgate, prNumber, dropWhile_of_unsigned hsign, hparsed]
    · rw [hpruner, hgate]

end Numbers

section Readers

variable {goal : ActiveGoal} {ref : WipRef}

theorem isPrRef_of_isRefOf (h : isRefOf .pr ref) : isPrRef ref := by
  have hkind : asciiLowercase ref.kind = asciiLowercase "pr" := of_decide_eq_true h
  have htrim : trim ref.kind.toList = ref.kind.toList :=
    trim_of_asciiLowercase (by decide) hkind
  unfold isPrRef eqIgnoreAsciiCase
  rw [htrim, String.ofList_toList, hkind]
  decide

theorem find?_isRefOf (hfound : goal.wipRefs.find? isPrRef = some ref) (hplain : isRefOf .pr ref) :
    goal.wipRefs.find? (isRefOf .pr) = some ref := by
  obtain ⟨-, before, after, hrefs, hbefore⟩ := List.find?_eq_some_iff_append.mp hfound
  refine List.find?_eq_some_iff_append.mpr ⟨hplain, before, after, hrefs, fun other hother => ?_⟩
  have hnot := hbefore other hother
  rw [Bool.not_eq_true'] at hnot ⊢
  by_contra hboth
  rw [Bool.not_eq_false] at hboth
  rw [isPrRef_of_isRefOf hboth] at hnot
  cases hnot

theorem numbersAgree_iff : NumbersAgree goal ↔ prunerNumber goal = gateNumber goal := by
  unfold NumbersAgree prunerNumber
  cases hfound : goal.wipRefs.find? isPrRef with
  | none =>
    have hnone : goal.wipRefs.find? (isRefOf .pr) = none := by
      rw [List.find?_eq_none] at hfound ⊢
      exact fun ref href hplain => hfound ref href (isPrRef_of_isRefOf hplain)
    simp [gateNumber, firstRefOfKind, hnone]
  | some ref =>
    dsimp only
    split
    next hplain =>
      have hgate : gateNumber goal = (parseRefNumber .pr ref.refId).toOption := by
        rw [gateNumber, firstRefOfKind, find?_isRefOf hfound hplain]
        rfl
      rw [Option.bind_some, hgate, readings_agree_iff]
    next => rfl

theorem prunerPr_eq (goal : ActiveGoal) :
    prunerPr goal =
      (repoSlugForGoal goal).bind fun slug => (prunerNumber goal).map fun n => (slug, n) := by
  unfold prunerPr
  cases repoSlugForGoal goal <;> cases prunerNumber goal <;> rfl

theorem gatePr_eq (goal : ActiveGoal) :
    gatePr goal =
      if gateRepo goal.repo then (gateNumber goal).map fun n => (repoSlug goal, n) else none := by
  unfold gatePr gateNumber
  cases hslug : validateRepoSlug (repoSlug goal) with
  | ok =>
    rw [if_pos ((validateRepoSlug_repoSlug goal).mp hslug)]
    cases firstRefOfKind goal .pr with
    | none => rfl
    | some num =>
      change (parseRefNumber .pr num).toOption.bind (fun n => some (repoSlug goal, n)) =
        (parseRefNumber .pr num).toOption.map _
      cases (parseRefNumber .pr num).toOption <;> rfl
  | error e =>
    have hrefused : ¬ gateRepo goal.repo := fun hrepo => by
      rw [(validateRepoSlug_repoSlug goal).mpr hrepo] at hslug
      cases hslug
    rw [if_neg hrefused]
    cases firstRefOfKind goal .pr <;> rfl

theorem toOption_eq_some {result : Except String Nat} {n : Nat} :
    result.toOption = some n ↔ result = .ok n := by
  cases result <;> simp [Except.toOption]

theorem anyPrMerged_of_gatePr {github : GitHub} {slug : String} {n : Nat}
    (h : gatePr goal = some (slug, n)) :
    anyPrMerged github goal = .ok (github.state .pr slug n = .merged) := by
  rw [gatePr_eq] at h
  split at h
  next hrepo =>
    obtain ⟨m, hnumber, hpair⟩ := Option.map_eq_some_iff.mp h
    cases hpair
    obtain ⟨num, hfirst, hparsed⟩ := Option.bind_eq_some_iff.mp hnumber
    rw [anyPrMerged, hfirst]
    dsimp only
    rw [ghState, (validateRepoSlug_repoSlug goal).mpr hrepo, toOption_eq_some.mp hparsed]
    rfl
  next => cases h

theorem anyPrMerged_of_unread {github : GitHub} (hfirst : (firstRefOfKind goal .pr).isSome)
    (h : gatePr goal = none) : ∃ reason, anyPrMerged github goal = .error reason := by
  obtain ⟨num, hnum⟩ := Option.isSome_iff_exists.mp hfirst
  rw [anyPrMerged, hnum]
  dsimp only
  rw [ghState]
  cases hslug : validateRepoSlug (repoSlug goal) with
  | error e => exact ⟨e, rfl⟩
  | ok =>
    cases hparsed : parseRefNumber .pr num with
    | error e => exact ⟨e, rfl⟩
    | ok n =>
      rw [gatePr_eq, if_pos ((validateRepoSlug_repoSlug goal).mp hslug), gateNumber, hnum,
        Option.bind_some, toOption_eq_some.mpr hparsed] at h
      cases h

theorem prunable_of_prunerPr {github : GitHub} {slug : String} {n : Nat}
    (hfound : goal.wipRefs.find? isPrRef = some ref) (h : prunerPr goal = some (slug, n)) :
    prunable github goal ref = decide (github.state .pr slug n ≠ .opened) := by
  rw [prunerPr_eq, prunerNumber, hfound, Option.bind_some] at h
  obtain ⟨slug', hslug, hnumber⟩ := Option.bind_eq_some_iff.mp h
  obtain ⟨m, hm, hpair⟩ := Option.map_eq_some_iff.mp hnumber
  cases hpair
  have hkind : isPrRef ref := List.find?_some hfound
  simp [prunable, hkind, hslug, hm]

/-- Pruner and gate look at the same pull request, or both at none, exactly if: for a repository
both take, they agree on the number; for one that only one of them takes, that one reads no number.
-/
theorem readers_agree_iff (goal : ActiveGoal) :
    prunerPr goal = gatePr goal ↔
      (prunerRepo goal.repo → gateRepo goal.repo → NumbersAgree goal) ∧
      (prunerRepo goal.repo → ¬ gateRepo goal.repo → prunerNumber goal = none) ∧
      (¬ prunerRepo goal.repo → gateRepo goal.repo → gateNumber goal = none) := by
  rw [prunerPr_eq, gatePr_eq]
  by_cases hpruner : prunerRepo goal.repo
  · by_cases hgate : gateRepo goal.repo
    · have hinj : Function.Injective fun n : Nat => (repoSlug goal, n) :=
        fun _ _ h => (Prod.mk.inj h).2
      rw [slugs_agree hpruner hgate, if_pos hgate, Option.bind_some,
        (Option.map_injective hinj).eq_iff,
        ← numbersAgree_iff]
      simp [hpruner, hgate]
    · obtain ⟨slug, hslug⟩ :=
        Option.isSome_iff_exists.mp ((isSome_repoSlugForGoal goal).trans hpruner)
      rw [hslug, if_neg hgate, Option.bind_some, Option.map_eq_none_iff]
      simp [hpruner, hgate]
  · have hslug : repoSlugForGoal goal = none := by
      have hisSome := isSome_repoSlugForGoal goal
      rw [Bool.eq_false_iff.mpr hpruner] at hisSome
      exact Option.not_isSome_iff_eq_none.mp (by rw [hisSome]; decide)
    by_cases hgate : gateRepo goal.repo
    · rw [hslug, if_pos hgate, Option.bind_none, eq_comm, Option.map_eq_none_iff]
      simp [hpruner, hgate]
    · rw [hslug, if_neg hgate]
      simp [hpruner, hgate]

end Readers

/-- A reference with a number sign is pruned as soon as its pull request is merged; the gate cannot
read it. -/
theorem signed_reference_differs :
    prunerPr { ActiveGoal.new "g" "" 1 with wipRefs := [⟨"pr", "#12", "PR #12", none⟩] } =
        some (defaultRepo, 12) ∧
      gatePr { ActiveGoal.new "g" "" 1 with wipRefs := [⟨"pr", "#12", "PR #12", none⟩] } =
        none := by
  decide

end Simard.Goals
