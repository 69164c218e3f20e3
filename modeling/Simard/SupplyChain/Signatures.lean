import Simard.SupplyChain.Steward

/-! What the signature of a failure does not depend on. Two reports of one failure differ in the
identifiers of their runs and sessions, and it is their signature that tells that the failure has an
issue already. -/
namespace Simard.SupplyChain
open Simard.Library

structure IsUuid (text : List Char) : Prop where
  length : text.length = 36
  shape : isUuidAt text = true

theorem isUuidAt_iff {text : List Char} :
    isUuidAt text = true ↔ 36 ≤ text.length ∧ ∀ i < 36, ∀ c ∈ text[i]?,
      if uuidHyphenOffsets.contains i then c = '-' else isAsciiHexDigit c = true := by
  have hentry (c : Char) (i : Nat) :
    (if uuidHyphenOffsets.contains i then Decidable.decide (c = '-')
      else isAsciiHexDigit c) = true ↔
        if uuidHyphenOffsets.contains i then c = '-' else isAsciiHexDigit c = true := by
    split
    · exact decide_eq_true_iff
    · rfl
  unfold isUuidAt
  rw [Bool.and_eq_true, decide_eq_true_iff, List.all_eq_true]
  refine and_congr_right fun _ => ⟨fun h i hi c hc => ?_, fun h entry hmem => ?_⟩
  · have hplace : (c, i) ∈ (text.take 36).zipIdx := by
      rw [List.mem_zipIdx_iff_getElem?, List.getElem?_take_of_lt hi]
      exact hc
    exact (hentry c i).mp (h (c, i) hplace)
  · have hplace := List.mem_zipIdx_iff_getElem?.mp hmem
    have hlt : entry.2 < 36 := by
      have hbound := (List.getElem?_eq_some_iff.mp hplace).1
      rw [List.length_take] at hbound
      omega
    rw [List.getElem?_take_of_lt hlt] at hplace
    exact (hentry entry.1 entry.2).mpr (h entry.2 hlt entry.1 hplace)

theorem isUuidAt_append {text : List Char} (h : 36 ≤ text.length) (after : List Char) :
    isUuidAt (text ++ after) = isUuidAt text := by
  have hfirst (i : Nat) (hi : i < 36) : (text ++ after)[i]? = text[i]? :=
    List.getElem?_append_left (hi.trans_le h)
  rw [Bool.eq_iff_iff, isUuidAt_iff, isUuidAt_iff, List.length_append]
  refine and_congr (by omega) (forall₂_congr fun i hi => ?_)
  rw [hfirst i hi]

theorem IsUuid.hyphen {uuid : List Char} (h : IsUuid uuid) : uuid[8]? = some '-' := by
  have hbound : 8 < uuid.length := by
    rw [h.length]
    omega
  have hshape := (isUuidAt_iff.mp h.shape).2 8 (by omega) _ (List.getElem?_eq_getElem hbound)
  rw [if_pos (by rfl)] at hshape
  rw [List.getElem?_eq_getElem hbound, hshape]

theorem isUuidAt_overlap {before uuid : List Char} (h : IsUuid uuid) (hne : before ≠ [])
    (hedge : ∀ c ∈ before.getLast?, isAsciiHexDigit c = false) (hshort : before.length < 36)
    (after : List Char) : isUuidAt (before ++ uuid ++ after) = false := by
  have hpos := List.length_pos_iff.mpr hne
  have hlast : (before ++ uuid ++ after)[before.length - 1]? = some (before.getLast hne) := by
    rw [List.append_assoc, List.getElem?_append_left (by omega), ← List.getLast?_eq_getElem?,
      List.getLast?_eq_some_getLast hne]
  have hhyphen : (before ++ uuid ++ after)[before.length + 8]? = some '-' := by
    rw [List.append_assoc, List.getElem?_append_right (by omega), Nat.add_sub_cancel_left,
      List.getElem?_append_left (by rw [h.length]; omega), h.hyphen]
  by_contra hmatch
  have hplaces := (isUuidAt_iff.mp (Bool.not_eq_false _ ▸ hmatch)).2
  -- The character in front can only be a hyphen, which puts a hyphen of the identifier on a digit.
  have hfront := hplaces (before.length - 1) (by omega) _ hlast
  have hplace : uuidHyphenOffsets.contains (before.length - 1) = true := by
    by_contra hdigit
    rw [if_neg hdigit, hedge _ (List.getLast?_eq_some_getLast hne)] at hfront
    cases hfront
  rw [List.contains_iff_mem, uuidHyphenOffsets, List.mem_cons, List.mem_cons, List.mem_cons,
    List.mem_singleton] at hplace
  have hinner := hplaces (before.length + 8) (by omega) _ hhyphen
  have hoff : uuidHyphenOffsets.contains (before.length + 8) = false := by
    rw [← Bool.not_eq_true, List.contains_iff_mem, uuidHyphenOffsets, List.mem_cons, List.mem_cons,
      List.mem_cons, List.mem_singleton]
    omega
  rw [hoff, if_neg Bool.false_ne_true] at hinner
  exact absurd hinner (by decide)

theorem redactUuids_skip {skipped rest : List Char} {n : Nat} (h : skipped.length = n) :
    redactUuids n (skipped ++ rest) = redactUuids 0 rest := by
  induction skipped generalizing n with
  | nil => rw [← h]; rfl
  | cons c skipped ih =>
    rw [← h, List.length_cons, List.cons_append, redactUuids]
    exact ih rfl

theorem redactUuids_uuid {uuid : List Char} (h : IsUuid uuid) (after : List Char) :
    redactUuids 0 (uuid ++ after) = "<UUID>".toList ++ redactUuids 0 after := by
  have hshape : isUuidAt (uuid ++ after) = true := by
    rw [isUuidAt_append h.length.ge, h.shape]
  cases uuid with
  | nil => cases h.length
  | cons c rest =>
    rw [List.cons_append] at hshape ⊢
    rw [redactUuids, if_pos hshape, redactUuids_skip (Nat.succ.inj h.length)]

theorem edge_of_suffix (front : List Char) {back : List Char} {P : Char → Prop}
    (h : ∀ c ∈ (front ++ back).getLast?, P c) : ∀ c ∈ back.getLast?, P c := by
  intro c hc
  refine h c ?_
  cases back with
  | nil => cases hc
  | cons d back =>
    rw [List.getLast?_append_of_ne_nil _ (List.cons_ne_nil _ _)]
    exact hc

theorem redactUuids_congr {uuid uuid' : List Char} (h : IsUuid uuid) (h' : IsUuid uuid')
    {before : List Char}
    (hedge : ∀ c ∈ before.getLast?, isAsciiHexDigit c = false) (after : List Char) :
    redactUuids 0 (before ++ uuid ++ after) = redactUuids 0 (before ++ uuid' ++ after) := by
  induction hlength : before.length using Nat.strong_induction_on generalizing before with
  | _ length ih =>
    cases before with
    | nil => rw [List.nil_append, List.nil_append, redactUuids_uuid h, redactUuids_uuid h']
    | cons c rest =>
      have hrest := ih rest.length (by rw [← hlength]; exact Nat.lt_succ_self _)
        (edge_of_suffix [c] hedge) rfl
      have hsame :
          isUuidAt (c :: rest ++ uuid ++ after) = isUuidAt (c :: rest ++ uuid' ++ after) := by
        by_cases hshort : (c :: rest).length < 36
        · rw [isUuidAt_overlap h (List.cons_ne_nil _ _) hedge hshort,
            isUuidAt_overlap h' (List.cons_ne_nil _ _) hedge hshort]
        · rw [List.append_assoc, List.append_assoc, isUuidAt_append (not_lt.mp hshort),
            isUuidAt_append (not_lt.mp hshort)]
      simp only [List.cons_append] at hsame ⊢
      rw [redactUuids, redactUuids, hsame]
      by_cases hshape : isUuidAt (c :: (rest ++ uuid' ++ after)) = true
      · rw [if_pos hshape, if_pos hshape]
        have hlong : 35 ≤ rest.length := by
          by_contra hshort
          have hoverlap := isUuidAt_overlap h' (List.cons_ne_nil c rest) hedge
            (by rw [List.length_cons]; omega) after
          rw [List.cons_append, List.cons_append, hshape] at hoverlap
          cases hoverlap
        have hskip (uuid : List Char) : redactUuids 35 (rest ++ uuid ++ after) =
            redactUuids 0 (rest.drop 35 ++ uuid ++ after) := by
          conv_lhs => rw [← List.take_append_drop 35 rest]
          rw [List.append_assoc, List.append_assoc, ← List.append_assoc (rest.drop 35)]
          exact redactUuids_skip (List.length_take_of_le hlong)
        have hdrop : ∀ c ∈ (rest.drop 35).getLast?, isAsciiHexDigit c = false := by
          refine edge_of_suffix (c :: rest.take 35) ?_
          rw [List.cons_append, List.take_append_drop]
          exact hedge
        rw [hskip, hskip, ih (rest.drop 35).length (by
          rw [← hlength, List.length_drop, List.length_cons]
          omega) hdrop rfl]
      · rw [if_neg hshape, if_neg hshape, hrest]

theorem isPrefixOf_before {begin before rest : List Char} {c : Char} (h : c ∉ begin) :
    begin.isPrefixOf (before ++ c :: rest) = begin.isPrefixOf before := by
  induction begin generalizing before with
  | nil => rfl
  | cons d begin ih =>
    rw [List.mem_cons, not_or] at h
    cases before with
    | nil =>
      have hne : (d == c) = false := beq_false_of_ne (Ne.symm h.1)
      change (d == c && begin.isPrefixOf rest) = false
      rw [hne, Bool.false_and]
    | cons e before => rw [List.cons_append, List.isPrefixOf, List.isPrefixOf, ih h.2]

theorem IsUuid.char {uuid : List Char} (h : IsUuid uuid) {i : Nat} {c : Char}
    (hc : uuid[i]? = some c) :
    c = '-' ∨ isAsciiHexDigit c = true := by
  have hi := (List.getElem?_eq_some_iff.mp hc).1
  rw [h.length] at hi
  have hshape := (isUuidAt_iff.mp h.shape).2 i hi c hc
  split at hshape
  · exact .inl hshape
  · exact .inr hshape

theorem IsUuid.head {uuid : List Char} (h : IsUuid uuid) :
    ∃ c rest, uuid = c :: rest ∧ isAsciiHexDigit c = true := by
  cases uuid with
  | nil => cases h.length
  | cons c rest =>
    have hshape := (isUuidAt_iff.mp h.shape).2 0 (by omega) c rfl
    exact ⟨c, rest, rfl, hshape⟩

theorem isIsoTimestamp_congr {uuid uuid' : List Char} (h : IsUuid uuid) (h' : IsUuid uuid')
    (before after : List Char) :
    isIsoTimestamp (before ++ uuid ++ after) = isIsoTimestamp (before ++ uuid' ++ after) := by
  by_cases hshort : before.length ≤ 10
  · -- The letter between the date and the time would be one of the identifier.
    have hfalse {uuid : List Char} (h : IsUuid uuid) :
        isIsoTimestamp (before ++ uuid ++ after) = false := by
      have hplace : (before ++ uuid ++ after)[10]? ≠ some 'T' := by
        rw [List.append_assoc, List.getElem?_append_right hshort,
          List.getElem?_append_left (by rw [h.length]; omega)]
        intro hletter
        exact absurd (h.char hletter) (by decide)
      rw [isIsoTimestamp, decide_eq_false hplace, Bool.and_false]
    rw [hfalse h, hfalse h']
  · have hwhole {uuid : List Char} (h : IsUuid uuid) : isIsoTimestamp (before ++ uuid ++ after) =
        ((before.take 4).all Char.isDigit && before[4]? = some '-' &&
          ((before.drop 5).take 2).all Char.isDigit && before[7]? = some '-' &&
          ((before.drop 8).take 2).all Char.isDigit && before[10]? = some 'T') := by
      have hlong : 19 ≤ (String.ofList (before ++ (uuid ++ after))).utf8ByteSize := by
        refine le_trans ?_ (length_le_utf8ByteSize _)
        rw [List.length_append, List.length_append, h.length]
        omega
      have hchar (i : Nat) (hi : i ≤ 10) : (before ++ (uuid ++ after))[i]? = before[i]? :=
        List.getElem?_append_left (by omega)
      have hpart (n k : Nat) (hn : n + k ≤ 10) :
          ((before ++ (uuid ++ after)).drop n).take k = (before.drop n).take k := by
        rw [List.drop_append_of_le_length (by omega), List.take_append_of_le_length (by
          rw [List.length_drop]
          omega)]
      rw [isIsoTimestamp, List.append_assoc, decide_eq_true hlong, Bool.true_and,
        hchar 4 (by omega),
        hchar 7 (by omega), hchar 10 (by omega), hpart 5 2 (by omega), hpart 8 2 (by omega),
        List.take_append_of_le_length (by omega)]
    rw [hwhole h, hwhole h']

theorem runLabels_plain : (["run-", "Run-", "RUN-"].all fun label =>
    label.toList.all (!isAsciiHexDigit ·)) = true := by
  decide

theorem redactToken_congr {uuid uuid' : List Char} (h : IsUuid uuid) (h' : IsUuid uuid')
    {before : List Char}
    (hedge : ∀ c ∈ before.getLast?, isAsciiHexDigit c = false) (after : List Char) :
    redactToken (before ++ uuid ++ after) = redactToken (before ++ uuid' ++ after) := by
  have hhead {uuid : List Char} (h : IsUuid uuid) :
      (before ++ uuid ++ after).head? = some '/' ↔ before.head? = some '/' := by
    obtain ⟨c, rest, rfl, hdigit⟩ := h.head
    cases before with
    | nil =>
      refine iff_of_false (fun hslash => ?_) (by simp)
      rw [Option.some.inj hslash] at hdigit
      exact absurd hdigit (by decide)
    | cons d before => rfl
  have hrun {uuid : List Char} (h : IsUuid uuid) :
      (["run-", "Run-", "RUN-"].any fun s => s.toList.isPrefixOf (before ++ uuid ++ after)) =
        ["run-", "Run-", "RUN-"].any fun s => s.toList.isPrefixOf before := by
    obtain ⟨c, rest, rfl, hdigit⟩ := h.head
    rw [Bool.eq_iff_iff, List.any_eq_true, List.any_eq_true]
    refine exists_congr fun label => and_congr_right fun hlabel => ?_
    have hclear : c ∉ label.toList := by
      intro hc
      have hother := List.all_eq_true.mp (List.all_eq_true.mp runLabels_plain label hlabel) c hc
      rw [hdigit] at hother
      cases hother
    rw [List.append_assoc, List.cons_append, isPrefixOf_before hclear]
  have hhex {uuid : List Char} (h : IsUuid uuid) :
      (before ++ uuid ++ after).all isAsciiHexDigit = false := by
    rw [List.all_eq_false]
    refine ⟨'-', ?_, by decide⟩
    exact List.mem_append_left _ (List.mem_append_right _ (List.mem_of_getElem? h.hyphen))
  unfold redactToken
  simp only [hhead h, hhead h', hrun h, hrun h', isIsoTimestamp_congr h h', hhex h,
    hhex h', Bool.and_false,
    redactUuids_congr h h' hedge]

theorem solid_of_uuidChar {c : Char} (h : c = '-' ∨ isAsciiHexDigit c = true) :
    isWhitespace c = false := by
  rcases h with rfl | hdigit
  · decide
  · have halphanum : c.isAlphanum = true := by
      simp only [isAsciiHexDigit, Char.isAlphanum, Char.isAlpha, Char.isUpper, Char.isLower,
        Bool.or_eq_true, Bool.and_eq_true, decide_eq_true_eq, ge_iff_le, Char.le_def] at hdigit ⊢
      rcases hdigit with (hdigit | hlower) | hupper
      · exact .inr hdigit
      · exact .inl (.inr ⟨hlower.1, UInt32.le_trans hlower.2 (by decide)⟩)
      · exact .inl (.inl ⟨hupper.1, UInt32.le_trans hupper.2 (by decide)⟩)
    obtain ⟨hlow, hhigh⟩ := isAlphanum_range halphanum
    exact solid_of_range (by omega) (by omega)

/-- Two reports of a failure that differ in one identifier have the same signature, if no escape
sequence is open in front of it and the character that is printed before it is no hexadecimal digit.
-/
theorem signature_of_other_uuid (failureKind : String) {before after uuid uuid' : List Char}
    (h : IsUuid uuid) (h' : IsUuid uuid') (hplain : AnsiState.after .plain before = .plain)
    (hedge : ∀ c ∈ (stripAnsi before).getLast?, isAsciiHexDigit c = false) :
    failureSignature failureKind (String.ofList (before ++ uuid ++ after)) =
      failureSignature failureKind (String.ofList (before ++ uuid' ++ after)) := by
  have hstrip {uuid : List Char} (h : IsUuid uuid) :
      stripAnsi (before ++ uuid ++ after) = stripAnsi before ++ uuid ++ stripAnsi after := by
    have hesc : AnsiState.esc ∉ uuid := by
      intro hmem
      obtain ⟨i, hi⟩ := List.mem_iff_getElem?.mp hmem
      exact absurd (h.char hi) (by decide)
    obtain ⟨hstrip, hafter⟩ := AnsiState.strip_plain hesc
    unfold stripAnsi
    rw [List.append_assoc, AnsiState.strip_append, hplain, AnsiState.strip_append, hafter, hstrip,
      List.append_assoc]
  have hsolid {uuid : List Char} (h : IsUuid uuid) : ∀ c ∈ uuid, isWhitespace c = false := by
    intro c hc
    obtain ⟨i, hi⟩ := List.mem_iff_getElem?.mp hc
    exact solid_of_uuidChar (h.char hi)
  obtain ⟨front, left, right, rest, ⟨lead, hlead⟩, hpieces⟩ :=
    splitOnP_between isWhitespace (stripAnsi before) (stripAnsi after)
  have hleft : ∀ c ∈ left.getLast?, isAsciiHexDigit c = false := edge_of_suffix lead (hlead ▸ hedge)
  have hwords {uuid : List Char} (h : IsUuid uuid) :
      (splitWhitespace (stripAnsi (before ++ uuid ++ after))).map redactToken =
        ((front.filter (· ≠ [])).map redactToken) ++ redactToken (left ++ uuid ++ right) ::
          (rest.filter (· ≠ [])).map redactToken := by
    have hne : left ++ uuid ++ right ≠ [] := by
      obtain ⟨c, tail, rfl, -⟩ := h.head
      simp
    rw [hstrip h, splitWhitespace, hpieces uuid (hsolid h), List.filter_append, List.filter_cons,
      if_pos (decide_eq_true hne), List.map_append, List.map_cons]
  have hsame : normalizeForSignature (String.ofList (before ++ uuid ++ after)) =
      normalizeForSignature (String.ofList (before ++ uuid' ++ after)) := by
    unfold normalizeForSignature
    rw [String.toList_ofList, String.toList_ofList, hwords h, hwords h',
      redactToken_congr h h' hleft right]
  unfold failureSignature
  rw [hsame]

theorem signature_of_other_session :
    failureSignature "orchestrator" (String.ofList ("step build of ooda-".toList ++
        "0190a1b2-c3d4-7e5f-8a6b-0c1d2e3f4a5b".toList ++ " timed out".toList)) =
      failureSignature "orchestrator" (String.ofList ("step build of ooda-".toList ++
        "0190ffff-0000-7abc-9def-123456789abc".toList ++ " timed out".toList)) := by
  have hlast : (stripAnsi "step build of ooda-".toList).getLast? = some '-' := by decide
  refine signature_of_other_uuid "orchestrator" ⟨by decide, by decide⟩
    ⟨by decide, by decide⟩ (AnsiState.strip_plain (by decide)).2 ?_
  intro c hc
  rw [hlast] at hc
  cases hc
  decide

end Simard.SupplyChain
