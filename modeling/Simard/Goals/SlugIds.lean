import Simard.Engineers.Worktrees
import Simard.Goals.GoalSlug

/-! What a goal's slug looks like. It is made of lower-case words with one hyphen between two, so
that it names a worktree and a branch, and what is made of it again is the slug itself. -/
namespace Simard.Goals
open Simard.Library

def isKebabChar (c : Char) : Bool := c.isLower || c.isDigit || c = '-'

def Apart (a b : Char) : Prop := ¬(a = '-' ∧ b = '-')

/-- Lower-case letters, digits and hyphens, no two of these in a row. -/
structure Kebab (text : List Char) : Prop where
  chars : ∀ c ∈ text, isKebabChar c = true
  apart : text.IsChain Apart

theorem not_doubled_of_apart {text : List Char} (h : text.IsChain Apart) :
    ¬ ['-', '-'] <:+: text := by
  rintro ⟨before, after, rfl⟩
  have hpair := (List.isChain_append.mp (List.isChain_append.mp h).1).2.1
  rw [List.isChain_pair] at hpair
  exact hpair ⟨rfl, rfl⟩

theorem Kebab.left {left right : List Char} (h : Kebab (left ++ right)) : Kebab left where
  chars c hc := h.chars c (List.mem_append_left right hc)
  apart := (List.isChain_append.mp h.apart).1

theorem Kebab.right {left right : List Char} (h : Kebab (left ++ right)) : Kebab right where
  chars c hc := h.chars c (List.mem_append_right left hc)
  apart := (List.isChain_append.mp h.apart).2.1

theorem isUpper_of_mem_toLowercase {c d : Char} (h : d ∈ toLowercase c) : d.isUpper = false := by
  unfold toLowercase at h
  split at h
  · obtain rfl := List.mem_singleton.mp h
    decide
  · split at h
    · rcases List.mem_cons.mp h with rfl | h
      · decide
      · obtain rfl := List.mem_singleton.mp h
        decide
    · obtain rfl := List.mem_singleton.mp h
      exact Char.isUpper_toLower_eq_false c

theorem isKebabChar_of_isAlphanum {c : Char} (halnum : c.isAlphanum = true)
    (hlower : c.isUpper = false) : isKebabChar c = true := by
  simp only [Char.isAlphanum, Char.isAlpha, hlower, Bool.false_or, Bool.or_eq_true] at halnum
  simp [isKebabChar, halnum]

theorem isAlphanum_of_isKebabChar {c : Char} (h : isKebabChar c = true) (hdash : c ≠ '-') :
    c.isAlphanum = true := by
  simp only [isKebabChar, hdash, decide_false, Bool.or_false, Bool.or_eq_true] at h
  simp only [Char.isAlphanum, Char.isAlpha, Bool.or_eq_true]
  exact h.imp_left .inr

theorem isUpper_of_isKebabChar {c : Char} (h : isKebabChar c = true) : c.isUpper = false := by
  simp only [isKebabChar, Bool.or_eq_true, decide_eq_true_eq] at h
  rw [← Bool.not_eq_true]
  rcases h with (hlower | hdigit) | rfl
  · exact Char.not_isUpper_of_isLower hlower
  · intro hupper
    simp only [Char.isDigit, Char.isUpper, Bool.and_eq_true, decide_eq_true_eq, ge_iff_le,
      UInt32.le_iff_toNat_le] at hdigit hupper
    simp at hdigit hupper
    omega
  · decide

theorem toLowercase_kebabChar {c : Char} (h : isKebabChar c = true) : toLowercase c = [c] := by
  have hkelvin : c ≠ '\u212a' := fun heq => absurd h (heq ▸ by decide)
  have hdotted : c ≠ '\u0130' := fun heq => absurd h (heq ▸ by decide)
  rw [toLowercase, if_neg hkelvin, if_neg hdotted,
    Char.toLower_eq_of_not_isUpper (by simp [isUpper_of_isKebabChar h])]

theorem flatMap_toLowercase {text : List Char} (h : ∀ c ∈ text, isKebabChar c = true) :
    text.flatMap toLowercase = text := by
  induction text with
  | nil => rfl
  | cons c text ih =>
    rw [List.forall_mem_cons] at h
    rw [List.flatMap_cons, toLowercase_kebabChar h.1, ih h.2]
    rfl

theorem mem_kebab {last : Bool} {text : List Char} {c : Char} (h : c ∈ kebab last text) :
    c = '-' ∨ c ∈ text ∧ c.isAlphanum = true := by
  induction text generalizing last with
  | nil => cases h
  | cons d text ih =>
    have hlater {last : Bool} (h : c ∈ kebab last text) :
        c = '-' ∨ c ∈ d :: text ∧ c.isAlphanum = true :=
      (ih h).imp_right fun hmem => ⟨List.mem_cons_of_mem d hmem.1, hmem.2⟩
    unfold kebab at h
    split at h
    next halnum =>
      rcases List.mem_cons.mp h with rfl | h
      · exact .inr ⟨List.mem_cons_self, halnum⟩
      · exact hlater h
    next =>
      split at h
      · exact hlater h
      · rcases List.mem_cons.mp h with rfl | h
        · exact .inl rfl
        · exact hlater h

theorem mem_kebab_of_isAlphanum {last : Bool} {text : List Char} {c : Char} (hc : c ∈ text)
    (halnum : c.isAlphanum = true) : c ∈ kebab last text := by
  induction text generalizing last with
  | nil => cases hc
  | cons d text ih =>
    unfold kebab
    split
    · rcases List.mem_cons.mp hc with rfl | hc
      · exact List.mem_cons_self
      · exact List.mem_cons_of_mem _ (ih hc)
    next hd =>
      rcases List.mem_cons.mp hc with rfl | hc
      · exact absurd halnum hd
      · split
        · exact ih hc
        · exact List.mem_cons_of_mem _ (ih hc)

theorem apart_kebab (last : Bool) (text : List Char) :
    (kebab last text).IsChain Apart ∧ (last = true → (kebab last text).head? ≠ some '-') := by
  induction text generalizing last with
  | nil => exact ⟨.nil, nofun⟩
  | cons c text ih =>
    unfold kebab
    split
    next halnum =>
      have hc : c ≠ '-' := fun heq => absurd halnum (heq ▸ by decide)
      refine ⟨List.isChain_cons.mpr ⟨fun _ _ hdash => hc hdash.1, (ih false).1⟩, fun _ => ?_⟩
      rw [List.head?_cons, Ne, Option.some.injEq]
      exact hc
    next =>
      split
      · exact ⟨(ih true).1, fun _ => (ih true).2 rfl⟩
      next hlast =>
        refine ⟨List.isChain_cons.mpr ⟨?_, (ih true).1⟩, fun h => absurd h hlast⟩
        intro d hd hdash
        rw [hdash.2] at hd
        exact (ih true).2 rfl hd

theorem kebab_of_kebab {text : List Char} (h : Kebab text) {last : Bool}
    (hlast : last = true → text.head? ≠ some '-') : kebab last text = text := by
  induction text generalizing last with
  | nil => rfl
  | cons c text ih =>
    have htext : Kebab text := @Kebab.right [c] text h
    have hapart := (List.isChain_cons.mp h.apart).1
    unfold kebab
    by_cases hc : c = '-'
    · have hfalse : last = false := by
        cases last with
        | false => rfl
        | true => exact absurd (congrArg some hc) (hlast rfl)
      have halnum : c.isAlphanum = false := hc ▸ by decide
      rw [if_neg (by rw [halnum]; exact Bool.false_ne_true), hfalse, if_neg Bool.false_ne_true, hc]
      congr 1
      apply ih htext
      intro _ hhead
      exact hapart '-' hhead ⟨hc, rfl⟩
    · have hrest : kebab false text = text := ih htext fun hfalse => Bool.noConfusion hfalse
      rw [if_pos (isAlphanum_of_isKebabChar (h.chars c List.mem_cons_self) hc), hrest]

theorem trimEndDashes_begins (text : List Char) : trimEndDashes text <+: text :=
  List.rdropWhile_prefix _ text

theorem trimStartDashes_suffix (text : List Char) : trimStartDashes text <:+ text :=
  List.dropWhile_suffix _

theorem getLast?_trimEndDashes (text : List Char) : (trimEndDashes text).getLast? ≠ some '-' := by
  intro hlast
  have hhead : (text.reverse.dropWhile (· = '-')).head? = some '-' := by
    rw [← List.getLast?_reverse]
    exact hlast
  have hmarked := List.head?_dropWhile_not (fun c => decide (c = '-')) text.reverse
  rw [hhead] at hmarked
  cases hmarked

theorem head?_trimStartDashes (text : List Char) : (trimStartDashes text).head? ≠ some '-' := by
  intro hhead
  have hmarked := List.head?_dropWhile_not (fun c => decide (c = '-')) text
  rw [trimStartDashes] at hhead
  rw [hhead] at hmarked
  cases hmarked

theorem head?_trimEndDashes {text : List Char} (h : text.head? ≠ some '-') :
    (trimEndDashes text).head? ≠ some '-' := by
  intro hhead
  obtain ⟨after, hafter⟩ := trimEndDashes_begins text
  apply h
  rw [← hafter]
  exact List.mem_head?_append_of_mem_head? hhead

theorem mem_trimStartDashes {text : List Char} {c : Char} (hc : c ∈ text) (hdash : c ≠ '-') :
    c ∈ trimStartDashes text := by
  rw [← @List.takeWhile_append_dropWhile _ (· = '-') text] at hc
  rcases List.mem_append.mp hc with htaken | hkept
  · have hmarked := List.mem_takeWhile_imp htaken
    exact absurd (of_decide_eq_true hmarked) hdash
  · exact hkept

theorem mem_trimEndDashes {text : List Char} {c : Char} (hc : c ∈ text) (hdash : c ≠ '-') :
    c ∈ trimEndDashes text :=
  List.mem_reverse.mpr (mem_trimStartDashes (List.mem_reverse.mpr hc) hdash)

/-- Words with a hyphen between two and none at the ends. -/
structure SlugText (text : List Char) : Prop where
  kebab : Kebab text
  head : text.head? ≠ some '-'
  last : text.getLast? ≠ some '-'

def slugWords (title : List Char) : List Char :=
  trimEndDashes (trimStartDashes (kebab false (title.flatMap toLowercase)))

theorem kebab_words (title : List Char) : Kebab (kebab false (title.flatMap toLowercase)) where
  chars c hc := by
    rcases mem_kebab hc with rfl | ⟨hmem, halnum⟩
    · decide
    · obtain ⟨d, -, hd⟩ := List.mem_flatMap.mp hmem
      exact isKebabChar_of_isAlphanum halnum (isUpper_of_mem_toLowercase hd)
  apart := (apart_kebab false _).1

theorem slugText_slugWords (title : List Char) : SlugText (slugWords title) where
  kebab := by
    obtain ⟨before, hbefore⟩ := trimStartDashes_suffix (kebab false (title.flatMap toLowercase))
    obtain ⟨after, hafter⟩ := trimEndDashes_begins (trimStartDashes
      (Goals.kebab false (title.flatMap toLowercase)))
    have hwords := kebab_words title
    rw [← hbefore, ← hafter] at hwords
    exact hwords.right.left
  head := head?_trimEndDashes (head?_trimStartDashes _)
  last := getLast?_trimEndDashes _

theorem slugWords_ne_nil_iff (title : List Char) :
    slugWords title ≠ [] ↔ ∃ c ∈ title, ∃ d ∈ toLowercase c, d.isAlphanum = true := by
  constructor
  · intro hne
    obtain ⟨c, hc⟩ := List.exists_mem_of_ne_nil _ hne
    have hfirst : ∃ c ∈ slugWords title, c ≠ '-' := by
      cases hwords : slugWords title with
      | nil => exact absurd hwords hne
      | cons d rest =>
        refine ⟨d, List.mem_cons_self, fun hdash => (slugText_slugWords title).head ?_⟩
        rw [hwords, hdash]
        rfl
    obtain ⟨c, hc, hdash⟩ := hfirst
    have hmem := (trimStartDashes_suffix _).mem ((trimEndDashes_begins _).mem hc)
    rcases mem_kebab hmem with rfl | ⟨hlowered, halnum⟩
    · exact absurd rfl hdash
    · obtain ⟨d, hd, hlower⟩ := List.mem_flatMap.mp hlowered
      exact ⟨d, hd, c, hlower, halnum⟩
  · rintro ⟨c, hc, d, hd, halnum⟩
    have hdash : d ≠ '-' := fun heq => absurd halnum (heq ▸ by decide)
    have hmem : d ∈ kebab false (title.flatMap toLowercase) :=
      mem_kebab_of_isAlphanum (List.mem_flatMap.mpr ⟨c, hc, hd⟩) halnum
    exact List.ne_nil_of_mem (mem_trimEndDashes (mem_trimStartDashes hmem hdash) hdash)

theorem hexLower_kebabChars (bytes : List UInt8) :
    ∀ c ∈ hexLower bytes, c.isAlphanum = true ∧ isKebabChar c = true := by
  have hdigit : ∀ n < 16, (hexDigit n).isAlphanum = true ∧
      isKebabChar (hexDigit n) = true := by decide
  induction bytes with
  | nil => nofun
  | cons byte bytes ih =>
    have hbyte := byte.toNat_lt
    rw [hexLower, List.forall_mem_cons, List.forall_mem_cons]
    exact ⟨hdigit _ (by omega), hdigit _ (by omega), ih⟩

theorem hexLower_digest_ne_nil (bytes : List UInt8) : hexLower (Sha256.digest bytes) ≠ [] := by
  have hdigest : Sha256.digest bytes ≠ [] := by
    rw [Sha256.digest, Sha256.digestWords]
    exact nofun
  cases hbytes : Sha256.digest bytes with
  | nil => exact absurd hbytes hdigest
  | cons byte rest => exact nofun

theorem apart_of_solid {text : List Char} (h : ∀ c ∈ text, c ≠ '-') : text.IsChain Apart := by
  induction text with
  | nil => exact .nil
  | cons c text ih =>
    rw [List.forall_mem_cons] at h
    exact List.isChain_cons.mpr ⟨fun _ _ hdash => h.1 hdash.1, ih h.2⟩

theorem SlugText.append {start tail : List Char} (hstart : Kebab start) (hne : start ≠ [])
    (hhead : start.head? ≠ some '-') (hlast : start.getLast? ≠ some '-') (htail : tail ≠ [])
    (hchars : ∀ c ∈ tail, c.isAlphanum = true ∧ isKebabChar c = true) :
    SlugText (start ++ '-' :: tail) := by
  have hsolid : ∀ c ∈ tail, c ≠ '-' := fun c hc heq => absurd (hchars c hc).1 (heq ▸ by decide)
  refine ⟨⟨?_, ?_⟩, ?_, ?_⟩
  · intro c hc
    rcases List.mem_append.mp hc with hc | hc
    · exact hstart.chars c hc
    · rcases List.mem_cons.mp hc with rfl | hc
      · decide
      · exact (hchars c hc).2
  · rw [List.isChain_append, List.isChain_cons]
    refine ⟨hstart.apart, ⟨fun c hc hdash => ?_, apart_of_solid hsolid⟩, fun c hc d _ hdash => ?_⟩
    · exact hsolid c (List.mem_of_mem_head? hc) hdash.2
    · rw [hdash.1] at hc
      exact hlast hc
  · obtain ⟨c, rest, rfl⟩ := List.exists_cons_of_ne_nil hne
    exact hhead
  · intro hdash
    obtain ⟨c, rest, rfl⟩ := List.exists_cons_of_ne_nil htail
    rw [List.getLast?_append_cons, List.getLast?_cons_cons] at hdash
    exact hsolid '-' (List.mem_of_mem_getLast? hdash) rfl

def slugStart (words : List Char) : List Char := trimEndDashes (words.take (goalSlugMaxLen - 9))

theorem toList_goalSlug (title : String) :
    (goalSlug title).toList =
      if (slugWords (stripLauncherPreamble title).toList).length ≤ goalSlugMaxLen then
        slugWords (stripLauncherPreamble title).toList
      else slugStart (slugWords (stripLauncherPreamble title).toList) ++
        '-' :: (hexLower (Sha256.digest (utf8 (stripLauncherPreamble title).toList))).take 8 := by
  change (if (slugWords (stripLauncherPreamble title).toList).length ≤ goalSlugMaxLen then
      String.ofList (slugWords (stripLauncherPreamble title).toList)
    else String.ofList (slugStart (slugWords (stripLauncherPreamble title).toList) ++
      '-' :: (sha256Hex (utf8 (stripLauncherPreamble title).toList)).toList.take 8)).toList = _
  split
  · exact String.toList_ofList
  · rw [String.toList_ofList, sha256Hex, String.toList_ofList]

theorem slugStart_ne_nil {words : List Char} (h : SlugText words) (hne : words ≠ []) :
    slugStart words ≠ [] := by
  obtain ⟨c, rest, rfl⟩ := List.exists_cons_of_ne_nil hne
  have hc : c ≠ '-' := fun heq => h.head (heq ▸ rfl)
  have hmem : c ∈ (c :: rest).take (goalSlugMaxLen - 9) := List.mem_cons_self
  exact List.ne_nil_of_mem (mem_trimEndDashes hmem hc)

theorem slugText_cut {words : List Char} (h : SlugText words)
    (hlong : goalSlugMaxLen < words.length)
    (bytes : List UInt8) :
    SlugText (slugStart words ++ '-' :: (hexLower (Sha256.digest bytes)).take 8) := by
  have hne : words ≠ [] := List.ne_nil_of_length_pos (Nat.zero_lt_of_lt hlong)
  have hstart : slugStart words <+: words :=
    (trimEndDashes_begins _).trans (List.take_prefix _ words)
  obtain ⟨rest, hrest⟩ := hstart
  apply SlugText.append
  · apply Kebab.left
    rw [hrest]
    exact h.kebab
  · exact slugStart_ne_nil h hne
  · intro hhead
    apply h.head
    rw [← hrest]
    exact List.mem_head?_append_of_mem_head? hhead
  · exact getLast?_trimEndDashes _
  · intro hnil
    rw [List.take_eq_nil_iff] at hnil
    exact hnil.elim nofun (hexLower_digest_ne_nil bytes)
  · intro c hc
    exact hexLower_kebabChars _ c (List.mem_of_mem_take hc)

theorem slugText_goalSlug (title : String) : SlugText (goalSlug title).toList := by
  have hwords := slugText_slugWords (stripLauncherPreamble title).toList
  rw [toList_goalSlug]
  split
  · exact hwords
  next hlong => exact slugText_cut hwords (Nat.lt_of_not_le hlong) _

theorem length_goalSlug_le (title : String) : (goalSlug title).toList.length ≤ goalSlugMaxLen := by
  rw [toList_goalSlug]
  split
  next hshort => exact hshort
  next =>
    have hstart : (slugStart (slugWords (stripLauncherPreamble title).toList)).length ≤
        goalSlugMaxLen - 9 :=
      ((trimEndDashes_begins _).length_le).trans (List.length_take_le _ _)
    have hdigest := List.length_take_le 8
      (hexLower (Sha256.digest (utf8 (stripLauncherPreamble title).toList)))
    rw [List.length_append, List.length_cons]
    unfold goalSlugMaxLen at hstart ⊢
    omega

theorem goalSlug_ne_nil_iff (title : String) :
    (goalSlug title).toList ≠ [] ↔
      ∃ c ∈ (stripLauncherPreamble title).toList, ∃ d ∈ toLowercase c, d.isAlphanum = true := by
  rw [← slugWords_ne_nil_iff, toList_goalSlug]
  split
  · exact Iff.rfl
  next hlong =>
    have hlong := Nat.lt_of_not_le hlong
    have hne : slugWords (stripLauncherPreamble title).toList ≠ [] :=
      List.ne_nil_of_length_pos (Nat.zero_lt_of_lt hlong)
    exact iff_of_true (List.append_ne_nil_of_right_ne_nil _ (List.cons_ne_nil _ _)) hne

theorem isCopilotLauncherPreambleSignature_slug {line : List Char}
    (h : ∀ c ∈ line, isKebabChar c = true) : isCopilotLauncherPreambleSignature line = false := by
  have hmissing {needle : List Char} {c : Char} (hc : c ∈ needle) (hslug : isKebabChar c = false) :
      containsText needle (trimStart line) = false := by
    rw [← Bool.not_eq_true, containsText_iff]
    intro hfound
    have hmem := (List.dropWhile_suffix isWhitespace).mem (hfound.mem hc)
    rw [h c hmem] at hslug
    cases hslug
  have hlaunching := @hmissing "launching copilot binary=".toList ' ' (by decide) (by decide)
  have hversion := @hmissing "version=\"GitHub Copilot CLI".toList ' ' (by decide) (by decide)
  have hoptions := @hmissing "NODE_OPTIONS=".toList '=' (by decide) (by decide)
  unfold isCopilotLauncherPreambleSignature
  simp only [hlaunching, hversion, hoptions]
  simp

theorem stripLauncherPreamble_slug {slug : String}
    (h : ∀ c ∈ slug.toList, isKebabChar c = true) : stripLauncherPreamble slug = slug := by
  have hnewline : ∀ c ∈ slug.toList, (c == '\n') = false := by
    intro c hc
    rw [beq_eq_false_iff_ne]
    exact fun heq => absurd (h c hc) (heq ▸ by decide)
  have hpieces : slug.toList.splitOn '\n' = [slug.toList] := by
    rw [List.splitOn_eq_splitOnP, List.splitOnP_eq_singleton hnewline]
  have hlines : (lines slug.toList).any isCopilotLauncherPreambleSignature = false := by
    rw [lines, hpieces, List.any_eq_false]
    intro line hline
    have hwhole : line = slug.toList := by
      obtain ⟨hlast, -⟩ := Option.filter_eq_some_iff.mp (Option.mem_toList.mp hline)
      exact (Option.some.inj hlast).symm
    rw [hwhole, isCopilotLauncherPreambleSignature_slug h]
    exact Bool.false_ne_true
  rw [stripLauncherPreamble]
  simp [hlines]

theorem trimStartDashes_of_head {text : List Char} (h : text.head? ≠ some '-') :
    trimStartDashes text = text := by
  cases text with
  | nil => rfl
  | cons c rest =>
    apply List.dropWhile_cons_of_neg
    simpa using h

theorem trimEndDashes_of_last {text : List Char} (h : text.getLast? ≠ some '-') :
    trimEndDashes text = text := by
  rw [trimEndDashes, trimStartDashes_of_head (by rwa [List.head?_reverse]), List.reverse_reverse]

theorem goalSlug_slug {slug : String} (h : SlugText slug.toList)
    (hlength : slug.toList.length ≤ goalSlugMaxLen) : goalSlug slug = slug := by
  have hkebab : kebab false slug.toList = slug.toList :=
    kebab_of_kebab h.kebab fun hlast => Bool.noConfusion hlast
  have hwords : slugWords slug.toList = slug.toList := by
    rw [slugWords, flatMap_toLowercase h.kebab.chars, hkebab, trimStartDashes_of_head h.head,
      trimEndDashes_of_last h.last]
  apply String.toList_injective
  rw [toList_goalSlug, stripLauncherPreamble_slug h.kebab.chars, hwords, if_pos hlength]

theorem toNat_lt_of_isKebabChar {c : Char} (h : isKebabChar c = true) : c.toNat < 128 := by
  simp only [isKebabChar, Bool.or_eq_true, decide_eq_true_eq] at h
  rcases h with (hlower | hdigit) | rfl
  · simp only [Char.isLower, Bool.and_eq_true, decide_eq_true_eq, UInt32.le_iff_toNat_le] at hlower
    have hle := hlower.2
    change c.toNat ≤ 122 at hle
    omega
  · simp only [Char.isDigit, Bool.and_eq_true, decide_eq_true_eq, UInt32.le_iff_toNat_le] at hdigit
    have hle := hdigit.2
    change c.toNat ≤ 57 at hle
    omega
  · decide

theorem utf8_kebabChar {c : Char} (h : isKebabChar c = true) :
    String.utf8EncodeChar c = [UInt8.ofNat c.toNat] ∧ isNameByte (UInt8.ofNat c.toNat) = true ∧
      (UInt8.ofNat c.toNat = 45 → c = '-') ∧ UInt8.ofNat c.toNat ≠ 46 := by
  have hall : ∀ n < 128, isKebabChar (Char.ofNat n) = true →
      String.utf8EncodeChar (Char.ofNat n) = [UInt8.ofNat n] ∧ isNameByte (UInt8.ofNat n) = true ∧
        (UInt8.ofNat n = 45 → Char.ofNat n = '-') ∧ UInt8.ofNat n ≠ 46 := by
    decide
  have hc := hall c.toNat (toNat_lt_of_isKebabChar h)
  rw [Char.ofNat_toNat] at hc
  exact hc h

theorem utf8_slug {text : List Char} (h : ∀ c ∈ text, isKebabChar c = true) :
    utf8 text = text.map fun c => UInt8.ofNat c.toNat := by
  induction text with
  | nil => rfl
  | cons c text ih =>
    rw [List.forall_mem_cons] at h
    rw [utf8, List.flatMap_cons, (utf8_kebabChar h.1).1, List.map_cons, ← ih h.2]
    rfl

theorem validateGoalId_slug {slug : String} (h : SlugText slug.toList) (hne : slug.toList ≠ [])
    (hlength : slug.toList.length ≤ goalSlugMaxLen) : Engineers.validateGoalId slug = .ok () := by
  have hbytes := utf8_slug h.kebab.chars
  have hshort : ¬ Engineers.maxGoalIdLen < (utf8 slug.toList).length := by
    rw [hbytes, List.length_map]
    unfold goalSlugMaxLen at hlength
    unfold Engineers.maxGoalIdLen
    omega
  have hnamed : ((utf8 slug.toList).zipIdx.find? fun entry => !isNameByte entry.1) = none := by
    rw [List.find?_eq_none]
    rintro ⟨byte, i⟩ hentry
    have hbyte : byte ∈ utf8 slug.toList := (List.mem_zipIdx' hentry).2 ▸ List.getElem_mem _
    rw [hbytes] at hbyte
    obtain ⟨c, hc, rfl⟩ := List.mem_map.mp hbyte
    simp [(utf8_kebabChar (h.kebab.chars c hc)).2.1]
  obtain ⟨c, rest, hslug⟩ := List.exists_cons_of_ne_nil hne
  have hchar : isKebabChar c = true := h.kebab.chars c (hslug ▸ List.mem_cons_self)
  have hdash : c ≠ '-' := fun heq => h.head (by rw [hslug, heq]; rfl)
  have hfirst : utf8 slug.toList = UInt8.ofNat c.toNat :: utf8 rest := by
    rw [hslug, utf8, List.flatMap_cons, (utf8_kebabChar hchar).1]
    rfl
  have hstart : ¬ (UInt8.ofNat c.toNat = 45 ∨ UInt8.ofNat c.toNat = 46) := by
    rintro (hbyte | hbyte)
    · exact hdash ((utf8_kebabChar hchar).2.2.1 hbyte)
    · exact (utf8_kebabChar hchar).2.2.2 hbyte
  unfold Engineers.validateGoalId checkName
  rw [hfirst] at hshort hnamed ⊢
  simp only [hnamed]
  rw [if_neg hshort, if_neg (by simpa using hstart)]

/-- A slug is short, of lower-case words with one hyphen between two, and its own slug; there is one
unless the title has no letter and no digit, and then a goal can go by it. -/
theorem goalSlug_valid_and_stable (title : String) :
    (goalSlug title).toList.length ≤ 56 ∧
    (∀ c ∈ (goalSlug title).toList, c.isLower = true ∨ c.isDigit = true ∨ c = '-') ∧
    (goalSlug title).toList.head? ≠ some '-' ∧ (goalSlug title).toList.getLast? ≠ some '-' ∧
    ¬ ['-', '-'] <:+: (goalSlug title).toList ∧
    goalSlug (goalSlug title) = goalSlug title ∧
    (goalSlug title ≠ "" ↔
      ∃ c ∈ (stripLauncherPreamble title).toList, ∃ d ∈ toLowercase c, d.isAlphanum = true) ∧
    (goalSlug title ≠ "" → Engineers.validateGoalId (goalSlug title) = .ok ()) := by
  have hslug := slugText_goalSlug title
  have hlength := length_goalSlug_le title
  have hempty : goalSlug title ≠ "" ↔ (goalSlug title).toList ≠ [] :=
    not_congr String.toList_eq_nil_iff.symm
  refine ⟨hlength, ?_, hslug.head, hslug.last, not_doubled_of_apart hslug.kebab.apart,
    goalSlug_slug hslug hlength, hempty.trans (goalSlug_ne_nil_iff title), ?_⟩
  · intro c hc
    have hchar := hslug.kebab.chars c hc
    simp only [isKebabChar, Bool.or_eq_true, decide_eq_true_eq, or_assoc] at hchar
    exact hchar
  · intro hne
    exact validateGoalId_slug hslug (hempty.mp hne) hlength

end Simard.Goals
