import Simard.Goals.OperatorAdds
import Simard.Goals.PullRequests
import Simard.Library.PutFirst

/-! Finish lines that operators pinned to goals. A pin can be put on again without a trace, and
every commit of the daemon puts it back on, whatever the daemon's board has made of the goal. -/
namespace Simard.Goals
open Simard.Library

def refOfKind (kind : String) (ref : WipRef) : Bool := eqIgnoreAsciiCase ref.kind kind

def refTo (kind num : String) (ref : WipRef) : Bool :=
  eqIgnoreAsciiCase ref.kind kind && ref.refId = num

theorem upsertFirstRef_eq (refs : List WipRef) (kind num label : String) :
    upsertFirstRef refs kind num label =
      putFirst (refOfKind kind) (refTo kind num) ⟨kind, num, label, none⟩ refs := rfl

theorem refTo_pinned (kind num label : String) : refTo kind num ⟨kind, num, label, none⟩ := by
  simp [refTo, eqIgnoreAsciiCase]

theorem refOfKind_pinned (kind num label : String) : refOfKind kind ⟨kind, num, label, none⟩ := by
  simp [refOfKind, eqIgnoreAsciiCase]

theorem apart_pr_issue (pr issue : String) :
    Apart (refOfKind "pr") (refTo "pr" pr) (refOfKind "issue") (refTo "issue" issue) where
  kinds ref hpr := by
    have hlower : asciiLowercase ref.kind = asciiLowercase "pr" := by
      simpa [refOfKind, eqIgnoreAsciiCase] using hpr
    rw [refOfKind, eqIgnoreAsciiCase, hlower]
    decide
  same _ h := (Bool.and_eq_true_iff.mp h).1
  same' _ h := (Bool.and_eq_true_iff.mp h).1

namespace DoneGatePin

variable (pin : DoneGatePin)

def withPr (refs : List WipRef) : List WipRef :=
  (pin.pr.map fun pr => upsertFirstRef refs "pr" pr ("PR #" ++ pr)).getD refs

def withIssue (refs : List WipRef) : List WipRef :=
  (pin.issue.map fun issue => upsertFirstRef refs "issue" issue ("issue #" ++ issue)).getD refs

theorem wipRefs_applyTo (goal : ActiveGoal) :
    (pin.applyTo goal).wipRefs = pin.withIssue (pin.withPr goal.wipRefs) := rfl

theorem withIssue_withPr_again (refs : List WipRef) :
    pin.withIssue (pin.withPr (pin.withIssue (pin.withPr refs))) =
      pin.withIssue (pin.withPr refs) := by
  unfold withIssue withPr
  cases pin.pr with
  | none =>
    cases pin.issue with
    | none => rfl
    | some issue =>
      simp only [Option.map_none, Option.getD_none, Option.map_some, Option.getD_some,
        upsertFirstRef_eq]
      exact putFirst_putFirst (refTo_pinned _ _ _)
  | some pr =>
    cases pin.issue with
    | none =>
      simp only [Option.map_none, Option.getD_none, Option.map_some, Option.getD_some,
        upsertFirstRef_eq]
      exact putFirst_putFirst (refTo_pinned _ _ _)
    | some issue =>
      simp only [Option.map_some, Option.getD_some, upsertFirstRef_eq]
      exact putFirst_in_turn (apart_pr_issue pr issue) (refTo_pinned _ _ _)
        (refTo_pinned _ _ _) refs

theorem find?_withPr {pr : String} (hpr : pin.pr = some pr) (refs : List WipRef) :
    ((pin.withPr refs).find? (refOfKind "pr")).map (·.refId) = some pr := by
  rw [withPr, hpr, Option.map_some, Option.getD_some, upsertFirstRef_eq,
    find?_putFirst (refOfKind_pinned _ _ _)]
  rfl

theorem find?_withIssue {issue : String} (hissue : pin.issue = some issue) (refs : List WipRef) :
    ((pin.withIssue refs).find? (refOfKind "issue")).map (·.refId) = some issue := by
  rw [withIssue, hissue, Option.map_some, Option.getD_some, upsertFirstRef_eq,
    find?_putFirst (refOfKind_pinned _ _ _)]
  rfl

theorem find?_pr_withIssue (refs : List WipRef) :
    (pin.withIssue refs).find? (refOfKind "pr") = refs.find? (refOfKind "pr") := by
  unfold withIssue
  cases pin.issue with
  | none => rfl
  | some issue =>
    have hapart := (apart_pr_issue "" issue).symm
    rw [Option.map_some, Option.getD_some, upsertFirstRef_eq, ← List.head?_filter,
      ← List.head?_filter, filter_putFirst_of_unlike]
    · exact hapart.kinds _ (refOfKind_pinned _ _ _)
    · exact fun ref href => hapart.kinds ref (hapart.same ref href)

end DoneGatePin

def Unbordered (needle : List Char) : Prop :=
  ∀ k, 0 < k → k < needle.length → (needle.drop k).isPrefixOf needle = false

section Texts

variable {needle : List Char}

theorem beforeText_starts (needle text : List Char) : beforeText needle text <+: text := by
  induction text with
  | nil => exact List.nil_prefix
  | cons c rest ih =>
    rw [beforeText]
    split
    · exact List.nil_prefix
    · exact List.cons_prefix_cons.mpr ⟨rfl, ih⟩

theorem not_infix_beforeText (hne : needle ≠ []) (text : List Char) :
    ¬ needle <:+: beforeText needle text := by
  induction text with
  | nil => simpa [beforeText] using hne
  | cons c rest ih =>
    rw [beforeText]
    split
    · simpa using hne
    next hfirst =>
      intro hwithin
      rcases List.infix_cons_iff.mp hwithin with hstarts | hrest
      · apply hfirst
        rw [List.isPrefixOf_iff_prefix]
        exact hstarts.trans (List.cons_prefix_cons.mpr ⟨rfl, beforeText_starts needle rest⟩)
      · exact ih hrest

theorem beforeText_append (hne : needle ≠ []) (hborder : Unbordered needle) {base : List Char}
    (hbase : ¬ needle <:+: base) (rest : List Char) :
    beforeText needle (base ++ (needle ++ rest)) = base := by
  induction base with
  | nil =>
    obtain ⟨c, tail, rfl⟩ := List.exists_cons_of_ne_nil hne
    rw [List.nil_append, List.cons_append, beforeText, if_pos]
    rw [List.isPrefixOf_iff_prefix, ← List.cons_append]
    exact List.prefix_append _ _
  | cons c base ih =>
    have hnot : ¬ needle <+: (c :: base) ++ (needle ++ rest) := by
      intro hstarts
      by_cases hlength : needle.length ≤ (c :: base).length
      · exact hbase
          (List.prefix_of_prefix_length_le hstarts (List.prefix_append _ _) hlength).isInfix
      · push Not at hlength
        have htail := hstarts.drop (c :: base).length
        rw [List.drop_left] at htail
        have hborders := List.prefix_of_prefix_length_le htail (List.prefix_append needle rest)
          (by simp)
        have hborder' := hborder _ (by simp) hlength
        rw [List.isPrefixOf_iff_prefix.mpr hborders] at hborder'
        cases hborder'
    rw [List.cons_append, beforeText, if_neg (by rwa [List.isPrefixOf_iff_prefix])]
    exact congrArg _ (ih fun hwithin => hbase (hwithin.trans (List.suffix_cons c base).isInfix))

end Texts

theorem unbordered_doneWhenMarker : Unbordered doneWhenMarker.toList := by
  intro k hpositive hless
  have hcases : ∀ k < 13, 0 < k →
      (doneWhenMarker.toList.drop k).isPrefixOf doneWhenMarker.toList = false := by decide
  exact hcases k hless hpositive

def baseOf (description : String) : List Char := beforeText doneWhenMarker.toList description.toList

theorem baseOf_pinned (description line : String) :
    baseOf (String.ofList (baseOf description) ++ doneWhenMarker ++ line) = baseOf description := by
  unfold baseOf
  rw [String.toList_append, String.toList_append, String.toList_ofList, List.append_assoc]
  exact beforeText_append (by decide) unbordered_doneWhenMarker
    (not_infix_beforeText (by decide) _) line.toList

theorem DoneGatePin.applyTo_applyTo (pin : DoneGatePin) (goal : ActiveGoal) :
    pin.applyTo (pin.applyTo goal) = pin.applyTo goal := by
  have hrefs := pin.withIssue_withPr_again goal.wipRefs
  have hbase := baseOf_pinned goal.description pin.finishLine
  unfold applyTo
  simp only
  refine congrArg₂ (fun refs text => { goal with wipRefs := refs, description := text }) hrefs ?_
  exact congrArg (fun base => String.ofList base ++ doneWhenMarker ++ pin.finishLine) hbase

/-- The goal has the pinned references before all others of their kind, and ends with the pinned
finish line. -/
structure Carries (pin : DoneGatePin) (goal : ActiveGoal) : Prop where
  pr : ∀ pr, pin.pr = some pr → firstRefOfKind goal .pr = some pr
  issue : ∀ issue, pin.issue = some issue → firstRefOfKind goal .issue = some issue
  description : goal.description =
    String.ofList (baseOf goal.description) ++ doneWhenMarker ++ pin.finishLine

/-- What a pin makes of a goal, with the text it had before the first marker and all else but the
references as it was. -/
structure PinnedFrom (pin : DoneGatePin) (goal pinned : ActiveGoal) : Prop where
  carries : Carries pin pinned
  base : baseOf pinned.description = baseOf goal.description
  refs : ∀ ref : WipRef, (∀ pr ∈ pin.pr, refTo "pr" pr ref = false) →
    (∀ issue ∈ pin.issue, refTo "issue" issue ref = false) →
    (ref ∈ pinned.wipRefs ↔ ref ∈ goal.wipRefs)
  rest : { pinned with wipRefs := goal.wipRefs, description := goal.description } = goal

theorem mem_upsertFirstRef_iff {refs : List WipRef} {kind num label : String} {ref : WipRef}
    (h : refTo kind num ref = false) :
    ref ∈ upsertFirstRef refs kind num label ↔ ref ∈ refs := by
  have hkept : (upsertFirstRef refs kind num label).filter (!refTo kind num ·) =
      refs.filter (!refTo kind num ·) := filter_putFirst (refTo_pinned kind num label)
  have hmem := congrArg (ref ∈ ·) hkept
  simpa [List.mem_filter, h] using hmem

theorem carries_applyTo (pin : DoneGatePin) (goal : ActiveGoal) :
    Carries pin (pin.applyTo goal) where
  pr pr hpr := by
    change ((pin.withIssue (pin.withPr goal.wipRefs)).find? (refOfKind "pr")).map
      (·.refId) = some pr
    rw [pin.find?_pr_withIssue, pin.find?_withPr hpr]
  issue issue hissue := pin.find?_withIssue hissue _
  description := by
    have hbase := baseOf_pinned goal.description pin.finishLine
    exact congrArg (fun base => String.ofList base ++ doneWhenMarker ++ pin.finishLine) hbase.symm

theorem pinnedFrom_applyTo (pin : DoneGatePin) (goal : ActiveGoal) :
    PinnedFrom pin goal (pin.applyTo goal) where
  carries := carries_applyTo pin goal
  base := baseOf_pinned goal.description pin.finishLine
  refs ref hpr hissue := by
    have hfirst : ref ∈ pin.withPr goal.wipRefs ↔ ref ∈ goal.wipRefs := by
      unfold DoneGatePin.withPr
      cases hpin : pin.pr with
      | none => rfl
      | some pr => exact mem_upsertFirstRef_iff (hpr pr hpin)
    rw [pin.wipRefs_applyTo, ← hfirst]
    unfold DoneGatePin.withIssue
    cases hpin : pin.issue with
    | none => rfl
    | some issue => exact mem_upsertFirstRef_iff (hissue issue hpin)
  rest := by dsimp only [DoneGatePin.applyTo]

/-- The active goals, each with its pin on it if it has one; and the backlog as it was. -/
structure PinsApplied (pins : DoneGatePins) (board pinned : GoalBoard) : Prop where
  active : List.Forall₂
    (fun goal goal' =>
      match pins.get? goal.id with
      | some pin => PinnedFrom pin goal goal'
      | none => goal' = goal)
    board.active pinned.active
  backlog : pinned.backlog = board.backlog

theorem pinsApplied (pins : DoneGatePins) (board : GoalBoard) :
    PinsApplied pins board (applyDoneGatePins pins board) where
  active := by
    refine List.forall₂_map_right_iff.mpr (List.forall₂_same.mpr fun goal _ => ?_)
    cases pins.get? goal.id with
    | none => rfl
    | some pin => exact pinnedFrom_applyTo pin goal
  backlog := rfl

theorem applyDoneGatePins_again (pins : DoneGatePins) (board : GoalBoard) :
    applyDoneGatePins pins (applyDoneGatePins pins board) = applyDoneGatePins pins board := by
  unfold applyDoneGatePins
  simp only [List.map_map]
  refine congrArg (fun active => { board with active := active })
    (List.map_congr_left fun goal _ => ?_)
  rw [Function.comp_apply]
  cases hpin : pins.get? goal.id with
  | none => simp [hpin]
  | some pin =>
    have hid : (pin.applyTo goal).id = goal.id := rfl
    simp [hid, hpin, pin.applyTo_applyTo]

/-- The daemon's side of one `commit_cycle`. -/
structure Commit where
  inFlight : GoalBoard
  tracker : NoProgressTracker
  cycleCount : Nat
  newTombstones : List String

def Commit.job (c : Commit) : StoreJob :=
  .commit c.inFlight c.tracker c.cycleCount c.newTombstones

theorem get?_clearDoneGatePins (ids : List String) (files : BoardFiles) {id : String}
    (hid : id ∉ ids) :
    (((clearDoneGatePins ids).exec BoardFiles.answer files).2).pins.get? id =
      files.pins.get? id := by
  unfold clearDoneGatePins
  split
  · rfl
  · simp only [ask, Program.perform_bind, Program.exec]
    split
    · change (files.pins.retain (· ∉ ids)).get? id = _
      rw [BTreeMap.get?_retain, if_pos (by simpa using hid)]
    · rfl

theorem step_commit (files : BoardFiles) (c : Commit) :
    ∃ pins : DoneGatePins, (∀ id, id ∉ c.newTombstones → pins.get? id = files.pins.get? id) ∧
      history.step files c.job =
        { state := files.state.commit c.inFlight c.tracker c.cycleCount
            (files.tombstones ∪ c.newTombstones.toFinset) pins
          tombstones := files.tombstones ∪ c.newTombstones.toFinset
          pins := pins } := by
  change ∃ pins :
    DoneGatePins, _ ∧ ((commitCycle c.inFlight c.tracker c.cycleCount c.newTombstones >>=
    _).exec BoardFiles.answer files).2 = _
  rw [Program.exec_bind]
  unfold commitCycle
  split
  next hempty =>
    refine ⟨files.pins, fun _ _ => rfl, ?_⟩
    simp only [List.isEmpty_iff.mp hempty, List.toFinset_nil, Finset.union_empty]
    rfl
  next =>
    obtain ⟨pins, hpins⟩ := exec_clearDoneGatePins c.newTombstones
      { files with tombstones := files.tombstones ∪ c.newTombstones.toFinset }
    have hkept (id : String) (hid : id ∉ c.newTombstones) := get?_clearDoneGatePins c.newTombstones
      { files with tombstones := files.tombstones ∪ c.newTombstones.toFinset } hid
    simp only [hpins] at hkept
    refine ⟨pins, hkept, ?_⟩
    rw [Program.exec_bind, Program.exec_bind, exec_tombstoneGoals, hpins]
    rfl

def PinsKept (start files : BoardFiles) : Prop :=
  ∀ id, id ∉ files.tombstones → files.pins.get? id = start.pins.get? id

theorem pinsKept_step {start : BoardFiles} (files : BoardFiles) (c : Commit)
    (h : PinsKept start files) : PinsKept start (history.step files c.job) := by
  obtain ⟨pins, hkept, hstep⟩ := step_commit files c
  rw [hstep]
  intro id hid
  simp only [Finset.mem_union, List.mem_toFinset, not_or] at hid
  exact (hkept id hid.2).trans (h id hid.1)

theorem carries_step {start : BoardFiles} (files : BoardFiles) (c : Commit)
    (h : PinsKept start files) {goal : ActiveGoal}
    (hgoal : goal ∈ (history.step files c.job).state.board.active)
    (hlive : goal.id ∉ (history.step files c.job).tombstones) {pin : DoneGatePin}
    (hpin : start.pins.get? goal.id = some pin) : Carries pin goal := by
  have hkept := pinsKept_step files c h goal.id hlive
  obtain ⟨pins, -, hstep⟩ := step_commit files c
  rw [hstep] at hgoal hkept
  obtain ⟨found, -, rfl⟩ := List.mem_map.mp hgoal
  have hid :
      (((pins.get? found.id).map fun pin => pin.applyTo found).getD found).id = found.id := by
    cases pins.get? found.id <;> rfl
  rw [hid] at hkept hpin
  have hfound : pins.get? found.id = some pin := hkept.trans hpin
  rw [hfound]
  exact carries_applyTo pin found

def committing : Machine BoardFiles Commit where
  step files c := history.step files c.job

/-- Pins can be put on again without a trace, do to their goals what they say and nothing else, and
are on every pinned goal that is still active after each commit of a run. -/
theorem done_gate_pins_durable (pins : DoneGatePins) (board : GoalBoard) (start : BoardFiles)
    (commits : List Commit) :
    applyDoneGatePins pins (applyDoneGatePins pins board) = applyDoneGatePins pins board ∧
      PinsApplied pins board (applyDoneGatePins pins board) ∧
      ∀ t ∈ committing.trace start commits, ∀ goal ∈ t.after.state.board.active,
        goal.id ∉ t.after.tombstones → ∀ pin, start.pins.get? goal.id = some pin →
        Carries pin goal := by
  refine ⟨applyDoneGatePins_again pins board, pinsApplied pins board, ?_⟩
  intro t ht goal hgoal hlive pin hpin
  obtain ⟨hkept, hafter⟩ := committing.invariant_trace (P := PinsKept start)
    (fun files c h => pinsKept_step files c h) (fun _ _ => rfl) ht
  rw [hafter] at hgoal hlive
  exact carries_step t.before t.event hkept hgoal hlive hpin

end Simard.Goals
