import Simard.Goals.Curation
import Simard.Goals.DoneGatePins
import Simard.Library.Lines

/-! Whether a description says when its goal is done. The detector reads the beginning of it only;
the finish line of a pin is written at its end. -/
namespace Simard.Goals
open Simard.Library

def deriveCriteriaMaxScan : Nat := 8192

def criteriaHeadings : List String :=
  ["acceptance criteria", "definition of done", "success criteria", "completion criteria",
    "done criteria", "done-criteria", "exit criteria"]

def doneWhenMarkerLower : String := "\n\ndone when: "

def cappedLowercaseScan (description : String) : List Char :=
  (description.toList.take deriveCriteriaMaxScan).map Char.toLower

def startsWithOrderedItem (sawDigit : Bool) : List Char → Bool
  | [] => false
  | c :: rest =>
      if c.isDigit then startsWithOrderedItem true rest else sawDigit && (c = '.' || c = ')')

def isCheckableItem (line : List Char) : Bool :=
  let t := trimStart line
  "- ".toList.isPrefixOf t || "* ".toList.isPrefixOf t || "• ".toList.isPrefixOf t ||
    "[ ]".toList.isPrefixOf t || "[x]".toList.isPrefixOf t || "[X]".toList.isPrefixOf t ||
    startsWithOrderedItem false t

def hasCheckableItem (text : List Char) : Bool := (lines text).any isCheckableItem

def matchedCriteriaHeading (scan : List Char) : Option String :=
  criteriaHeadings.find? fun heading => containsText heading.toList scan

inductive CriteriaSignal where
  | heading (heading : String)
  | doneGateFinishLine
  deriving DecidableEq

def signalIn (scan : List Char) : Option CriteriaSignal :=
  match matchedCriteriaHeading scan with
  | some heading =>
      if hasCheckableItem scan then some (.heading heading)
      else if containsText doneWhenMarkerLower.toList scan then some .doneGateFinishLine
      else none
  | none =>
      if containsText doneWhenMarkerLower.toList scan then some .doneGateFinishLine else none

def detectMeasurableCriteria (description : String) : Option CriteriaSignal :=
  signalIn (cappedLowercaseScan description)

def isControl (c : Char) : Bool := c.toNat < 0x20 || (0x7F ≤ c.toNat && c.toNat < 0xA0)

def DoneGatePin.isMeasurable (pin : DoneGatePin) : Bool := pin.pr.isSome || pin.issue.isSome

def validateAnchor (field : String) : Option String → Except SimardError Unit
  | some value =>
      if value.toList.isEmpty || !value.toList.all Char.isDigit then
        invalid ("done_gate_pin." ++ field)
          ("expected a bare numeric reference (digits only), got " ++ quoted value)
      else .ok ()
  | none => .ok ()

def validateCriteria : Option String → Except SimardError Unit
  | some text =>
      if text.toList.any isControl then
        invalid "done_gate_pin.criteria" "must not contain control characters (newlines, CR, tabs)"
      else
        match criteriaHeadings.find? fun heading =>
          containsText heading.toList (asciiLowercase text) with
        | some heading =>
            invalid "done_gate_pin.criteria"
              ("must not embed a criteria heading (" ++ quoted heading ++
              ") — an unmeasurable pin could otherwise forge a done-criteria section")
        | none => .ok ()
  | none => .ok ()

def DoneGatePin.validate (pin : DoneGatePin) : Except SimardError Unit := do
  validateAnchor "pr" pin.pr
  validateAnchor "issue" pin.issue
  validateCriteria pin.criteria

theorem signalIn_isSome (scan : List Char) :
    (signalIn scan).isSome ↔
      ((∃ heading ∈ criteriaHeadings, containsText heading.toList scan) ∧ hasCheckableItem scan) ∨
        containsText doneWhenMarkerLower.toList scan := by
  have hheading : (∃ heading ∈ criteriaHeadings, containsText heading.toList scan) ↔
      (matchedCriteriaHeading scan).isSome := by
    rw [matchedCriteriaHeading, List.find?_isSome]
  rw [hheading, signalIn]
  cases matchedCriteriaHeading scan with
  | none =>
    dsimp only
    split <;> simp_all
  | some heading =>
    dsimp only
    split
    · simp_all
    · split <;> simp_all

theorem unbordered_doneWhenMarkerLower : Unbordered doneWhenMarkerLower.toList := by
  intro k hpositive hless
  have hcases : ∀ k < 13, 0 < k →
      (doneWhenMarkerLower.toList.drop k).isPrefixOf doneWhenMarkerLower.toList = false := by decide
  exact hcases k hless hpositive

theorem infix_append_take {needle text : List Char} (hborder : Unbordered needle) {k : Nat}
    (hk : k < needle.length) : needle <:+: text ++ needle.take k ↔ needle <:+: text := by
  constructor
  · rintro ⟨before, after, heq⟩
    rw [List.append_assoc] at heq
    obtain ⟨mid, hbefore, hmid⟩ | ⟨mid, htext, hmid⟩ := List.append_eq_append_iff.mp heq
    · by_cases hlength : needle.length ≤ mid.length
      · have hwithin : needle <+: mid :=
          List.prefix_of_prefix_length_le ⟨after, hmid⟩ (List.prefix_append _ _) hlength
        exact hbefore ▸ hwithin.isInfix.trans (List.suffix_append before mid).isInfix
      · push Not at hlength
        have htail := congrArg (List.drop mid.length) hmid
        rw [List.drop_left, List.drop_append_of_le_length (Nat.le_of_lt hlength)] at htail
        have hborders : needle.drop mid.length <+: needle :=
          (List.prefix_iff_eq_append.mpr (by simp [← htail])).trans (List.take_prefix k needle)
        rcases Nat.eq_zero_or_pos mid.length with hnil | hpositive
        · have hlengths := congrArg List.length hmid
          simp only [List.length_append, List.length_take] at hlengths
          omega
        · have hnot := hborder mid.length hpositive hlength
          rw [List.isPrefixOf_iff_prefix.mpr hborders] at hnot
          cases hnot
    · have hlengths := congrArg List.length hmid
      simp only [List.length_append, List.length_take] at hlengths
      omega
  · intro h
    exact h.trans (List.prefix_append _ _).isInfix

theorem startsWithOrderedItem_dropReturn (sawDigit : Bool) (line : List Char) :
    startsWithOrderedItem sawDigit (dropReturn line) = startsWithOrderedItem sawDigit line := by
  induction line generalizing sawDigit with
  | nil => rfl
  | cons c rest ih =>
    by_cases hc : c = '\r'
    · subst hc
      cases rest with
      | nil => cases sawDigit <;> rfl
      | cons d rest =>
        rw [show dropReturn ('\r' :: d :: rest) = '\r' :: dropReturn (d :: rest) from
          dropReturn_append_cons ['\r'] d rest]
        rfl
    · rw [dropReturn_cons hc, startsWithOrderedItem, startsWithOrderedItem, ih]

theorem isCheckableItem_dropReturn (line : List Char) :
    isCheckableItem (dropReturn line) = isCheckableItem line := by
  unfold isCheckableItem
  simp only [trimStart_dropReturn, startsWithOrderedItem_dropReturn]
  repeat rw [isPrefixOf_dropReturn (by decide)]

theorem hasCheckableItem_eq (text : List Char) :
    hasCheckableItem text = (text.splitOn '\n').any isCheckableItem :=
  any_lines (by decide) isCheckableItem_dropReturn text

theorem hasCheckableItem_append_marker (scan : List Char) {k : Nat} (hk : k < 13) :
    hasCheckableItem (scan ++ doneWhenMarkerLower.toList.take k) = hasCheckableItem scan := by
  have htails : ∀ k < 13, hasCheckableItem (doneWhenMarkerLower.toList.take k).tail = false := by
    decide
  cases k with
  | zero => simp
  | succ k =>
    have hstart : doneWhenMarkerLower.toList.take (k + 1) =
        '\n' :: (doneWhenMarkerLower.toList.take (k + 1)).tail := rfl
    have hnone := htails (k + 1) hk
    rw [hasCheckableItem_eq] at hnone
    rw [hstart, hasCheckableItem_eq, hasCheckableItem_eq, List.splitOn_append_cons_self,
      List.any_append, hnone, Bool.or_false]

theorem containsText_heading_append_marker (scan : List Char) {k : Nat} (hk : k < 13)
    {heading : String} (hheading : heading ∈ criteriaHeadings) :
    containsText heading.toList (scan ++ doneWhenMarkerLower.toList.take k) =
      containsText heading.toList scan := by
  have htails : ∀ heading ∈ criteriaHeadings, ∀ k < 13,
      containsText heading.toList (doneWhenMarkerLower.toList.take k).tail = false := by decide
  have hline : ∀ heading ∈ criteriaHeadings, '\n' ∉ heading.toList := by decide
  cases k with
  | zero => simp
  | succ k =>
    have hstart : doneWhenMarkerLower.toList.take (k + 1) =
        '\n' :: (doneWhenMarkerLower.toList.take (k + 1)).tail := rfl
    rw [hstart, containsText_separated (hline heading hheading), htails heading hheading (k + 1) hk,
      Bool.or_false]

theorem signalIn_append_marker (scan : List Char) {k : Nat} (hk : k < 13) :
    (signalIn (scan ++ doneWhenMarkerLower.toList.take k)).isSome = (signalIn scan).isSome := by
  have hmarker :
    containsText doneWhenMarkerLower.toList (scan ++ doneWhenMarkerLower.toList.take k) ↔
      containsText doneWhenMarkerLower.toList scan := by
    rw [containsText_iff, containsText_iff]
    exact infix_append_take unbordered_doneWhenMarkerLower hk
  have hheading : (∃ heading ∈ criteriaHeadings,
        containsText heading.toList (scan ++ doneWhenMarkerLower.toList.take k)) ↔
      ∃ heading ∈ criteriaHeadings, containsText heading.toList scan :=
    exists_congr fun heading => and_congr_right fun hheading => by
      rw [containsText_heading_append_marker scan hk hheading]
  rw [Bool.eq_iff_iff, signalIn_isSome, signalIn_isSome, hmarker, hheading,
    hasCheckableItem_append_marker scan hk]

theorem beforeText_of_not_infix {needle text : List Char} (h : ¬ needle <:+: text) :
    beforeText needle text = text := by
  induction text with
  | nil => rfl
  | cons c rest ih =>
    rw [List.infix_cons_iff, not_or] at h
    rw [beforeText, if_neg (by rw [List.isPrefixOf_iff_prefix]; exact h.1), ih h.2]

theorem exists_beforeText {needle text : List Char} (hne : needle ≠ []) (h : needle <:+: text) :
    ∃ rest, text = beforeText needle text ++ (needle ++ rest) := by
  induction text with
  | nil => exact absurd (List.infix_nil.mp h) hne
  | cons c rest ih =>
    rw [beforeText]
    split
    next hfirst =>
      obtain ⟨tail, htail⟩ := List.isPrefixOf_iff_prefix.mp hfirst
      exact ⟨tail, htail.symm⟩
    next hfirst =>
      rw [List.isPrefixOf_iff_prefix] at hfirst
      obtain ⟨tail, htail⟩ := ih ((List.infix_cons_iff.mp h).resolve_left hfirst)
      exact ⟨tail, congrArg (c :: ·) htail⟩

def scanOf (text : List Char) : List Char := (text.take deriveCriteriaMaxScan).map Char.toLower

theorem lower_marker :
    doneWhenMarker.toList.map Char.toLower = doneWhenMarkerLower.toList := by decide

theorem length_marker : doneWhenMarker.toList.length = 13 := by decide

theorem toList_pinned (pin : DoneGatePin) (goal : ActiveGoal) :
    (pin.applyTo goal).description.toList =
      baseOf goal.description ++ (doneWhenMarker.toList ++ pin.finishLine.toList) := by
  change (String.ofList (baseOf goal.description) ++ doneWhenMarker ++ pin.finishLine).toList = _
  rw [String.toList_append, String.toList_append, String.toList_ofList, List.append_assoc]

theorem signalIn_of_marker {base : List Char} (hbase : base.length ≤ 8179) (rest : List Char) :
    (signalIn (scanOf (base ++ (doneWhenMarker.toList ++ rest)))).isSome := by
  have hfits : (base ++ doneWhenMarker.toList).length ≤ deriveCriteriaMaxScan := by
    rw [List.length_append, length_marker, deriveCriteriaMaxScan]
    omega
  refine (signalIn_isSome _).mpr (.inr ?_)
  rw [containsText_iff, scanOf, ← List.append_assoc, List.take_append, List.take_of_length_le hfits,
    List.map_append, List.map_append, lower_marker]
  exact ⟨_, _, rfl⟩

theorem scan_pinned {pin : DoneGatePin} {goal : ActiveGoal}
    (hlong : 8179 < goal.description.toList.length)
    (hnone : detectMeasurableCriteria goal.description = none) :
    ∃ k < 13, cappedLowercaseScan (pin.applyTo goal).description =
      cappedLowercaseScan goal.description ++ doneWhenMarkerLower.toList.take k := by
  unfold cappedLowercaseScan
  rw [toList_pinned]
  by_cases hmarker : doneWhenMarker.toList <:+: goal.description.toList
  · -- the text after the marker it already has is out of sight, before and after
    obtain ⟨rest, hrest⟩ := exists_beforeText (by decide) hmarker
    have hbase : 8179 < (baseOf goal.description).length := by
      by_contra hshort
      have hfound := signalIn_of_marker (Nat.le_of_not_lt hshort) rest
      rw [baseOf, ← hrest] at hfound
      change (detectMeasurableCriteria goal.description).isSome at hfound
      rw [hnone] at hfound
      cases hfound
    have hfull :
        deriveCriteriaMaxScan ≤ (baseOf goal.description ++ doneWhenMarker.toList).length := by
      rw [List.length_append, length_marker, deriveCriteriaMaxScan]
      omega
    refine ⟨0, by decide, ?_⟩
    have htext : goal.description.toList =
        (baseOf goal.description ++ doneWhenMarker.toList) ++ rest := by
      rw [List.append_assoc]
      exact hrest
    conv_rhs => rw [htext]
    rw [← List.append_assoc, List.take_append_of_le_length hfull,
      List.take_append_of_le_length hfull,
      List.take_zero, List.append_nil]
  · have hbase : baseOf goal.description = goal.description.toList :=
      beforeText_of_not_infix hmarker
    have hk : deriveCriteriaMaxScan - goal.description.toList.length < 13 := by
      rw [deriveCriteriaMaxScan]
      omega
    refine ⟨_, hk, ?_⟩
    rw [hbase, List.take_append, List.map_append, List.take_append_of_le_length (by
      rw [length_marker]
      exact Nat.le_of_lt hk), List.map_take, List.map_take, lower_marker]

theorem detect_pinned {pin : DoneGatePin} {goal : ActiveGoal}
    (hnone : detectMeasurableCriteria goal.description = none) :
    (detectMeasurableCriteria (pin.applyTo goal).description).isSome ↔
      goal.description.toList.length ≤ 8179 := by
  constructor
  · intro hfound
    by_contra hlong
    obtain ⟨k, hk, hscan⟩ := @scan_pinned pin goal (Nat.lt_of_not_le hlong) hnone
    have hsame := signalIn_append_marker (cappedLowercaseScan goal.description) hk
    rw [detectMeasurableCriteria, hscan, hsame] at hfound
    change (detectMeasurableCriteria goal.description).isSome at hfound
    rw [hnone] at hfound
    cases hfound
  · intro hshort
    have hbase : (baseOf goal.description).length ≤ 8179 :=
      (beforeText_starts doneWhenMarker.toList goal.description.toList).length_le.trans hshort
    have hfound := signalIn_of_marker hbase pin.finishLine.toList
    rw [← toList_pinned] at hfound
    exact hfound

/-- A pin makes a goal measurable exactly when it has an anchor, exactly if its having one agrees
with the description being short enough for the detector to see the pin. -/
theorem pin_measurable_iff {pin : DoneGatePin} {goal : ActiveGoal}
    (hnone : detectMeasurableCriteria goal.description = none) :
    ((detectMeasurableCriteria (pin.applyTo goal).description).isSome ↔ pin.isMeasurable) ↔
      (goal.description.toList.length ≤ 8179 ↔ pin.isMeasurable) := by
  rw [detect_pinned hnone]

def anchored : DoneGatePin := ⟨some "4440", none, none⟩

def unanchored : DoneGatePin := ⟨none, none, some "the roster is moved"⟩

theorem anchored_measurable :
    (detectMeasurableCriteria
      (anchored.applyTo (.new "g" "Move the roster." 3)).description).isSome ↔
      anchored.isMeasurable :=
  (pin_measurable_iff (by decide)).mpr (by decide)

/-- A pin without an anchor forges a finish condition. -/
theorem unanchored_measurable :
    unanchored.validate = .ok () ∧
      detectMeasurableCriteria (ActiveGoal.new "g" "Move the roster." 3).description = none ∧
      ¬ ((detectMeasurableCriteria
          (unanchored.applyTo (.new "g" "Move the roster." 3)).description).isSome ↔
        unanchored.isMeasurable) := by
  refine ⟨by decide, by decide, ?_⟩
  rw [detect_pinned (by decide)]
  decide

end Simard.Goals
