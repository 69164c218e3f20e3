import Simard.Goals.Breaker
import Simard.Library.Machine

/-! One tracking issue per goal. The breaker files an issue only for a goal that
carries none of its artifacts, and leaves one behind, unless the filed number is
one the goal refers to already. -/
namespace Simard.Goals
open Simard.Library

def artifacts (goal : ActiveGoal) : Nat := goal.wipRefs.countP isBreakerTrackingRef

def isTrackable (ref : WipRef) : Bool :=
  isSuppressionMarker ref || eqIgnoreAsciiCase ref.kind "issue"

def trackable (goal : ActiveGoal) : List WipRef := goal.wipRefs.filter isTrackable

theorem artifacts_of_trackable {goal goal' : ActiveGoal} (h : trackable goal' = trackable goal) :
    artifacts goal' = artifacts goal := by
  have hcount (g : ActiveGoal) : artifacts g = (trackable g).countP isBreakerTrackingRef := by
    rw [trackable, List.countP_filter]
    apply List.countP_congr
    intro ref _
    simp only [isBreakerTrackingRef, isTrackable]
    grind
  rw [hcount, hcount, h]

theorem references_of_trackable {goal goal' : ActiveGoal} (h : trackable goal' = trackable goal)
    (filed : FiledIssue) :
    goal'.wipRefs.any (referencesIssue filed) = goal.wipRefs.any (referencesIssue filed) := by
  have hany (g : ActiveGoal) :
      g.wipRefs.any (referencesIssue filed) = (trackable g).any (referencesIssue filed) := by
    rw [trackable, List.any_filter]
    congr 1
    funext ref
    simp only [referencesIssue, isTrackable]
    grind
  rw [hany, hany, h]

theorem any_isBreakerTrackingRef (goal : ActiveGoal) :
    goal.wipRefs.any isBreakerTrackingRef = decide (0 < artifacts goal) := by
  rw [Bool.eq_iff_iff]
  simp [artifacts, List.countP_pos_iff]

def isFiling (goalId : String) : BreakerCall → Bool
  | .fileIssue filedFor _ _ => filedFor = goalId
  | .spawnEngineer .. => false

def filings (goalId : String) (s : BreakerState) : Nat := s.calls.countP (isFiling goalId)

def Reported (goalId : String) (s : BreakerState) : Prop :=
  goalId ∈ s.report.escalated ∨ goalId ∈ s.report.quarantined

theorem isBreakerTrackingRef_suppressionMarker : isBreakerTrackingRef suppressionMarker = true := by
  decide

theorem isSuppressionMarker_suppressionMarker : isSuppressionMarker suppressionMarker = true := by
  decide

theorem startsWith_append (prefixText rest : String) :
    startsWith prefixText (prefixText ++ rest) = true := by
  simp [startsWith]

theorem isBreakerTrackingRef_trackingRef (filed : FiledIssue) :
    isBreakerTrackingRef (trackingRef filed) = true := by
  have hissue : eqIgnoreAsciiCase "issue" "issue" = true := by decide
  have hlabel := startsWith_append trackingLabelPrefix
    ("#" ++ String.ofList (trimHash filed.number))
  simp [isBreakerTrackingRef, trackingRef, hissue, hlabel, String.append_assoc]

theorem filter_unmarked {goal : ActiveGoal} (h : artifacts goal = 0) :
    goal.wipRefs.filter (!isSuppressionMarker ·) = goal.wipRefs := by
  rw [List.filter_eq_self]
  intro ref href
  have hnone := List.countP_eq_zero.mp h ref href
  simp only [isBreakerTrackingRef] at hnone
  grind

theorem artifacts_escalatedGoal {goal : ActiveGoal} (h : artifacts goal = 0)
    (blockedReason : String) {filed : Option FiledIssue}
    (hnew : ∀ issue, filed = some issue → goal.wipRefs.any (referencesIssue issue) = false) :
    artifacts (escalatedGoal blockedReason filed goal) = 1 := by
  unfold artifacts at h
  cases filed with
  | none =>
    simp [artifacts, escalatedGoal, h, isBreakerTrackingRef_suppressionMarker]
  | some issue =>
    have hrefs : upgradeSuppressionMarkerToLink issue (goal.wipRefs ++ [suppressionMarker]) =
        goal.wipRefs ++ [trackingRef issue] := by
      rw [upgradeSuppressionMarkerToLink, List.filter_append, filter_unmarked h,
        linkTrackingIssue]
      simp [isSuppressionMarker_suppressionMarker, hnew issue rfl]
    simp [artifacts, escalatedGoal, hrefs, h, isBreakerTrackingRef_trackingRef]

/-- Nothing was filed for the goal, and what is left of it refers to the same issues. -/
structure Quiet (goalId : String) (s s' : BreakerState) : Prop where
  filings : filings goalId s' = filings goalId s
  refs : ∀ goal', s'.goal? goalId = some goal' →
    ∃ goal, s.goal? goalId = some goal ∧ trackable goal' = trackable goal

/-- One issue was filed, for a goal that had no artifact and now has one. -/
structure Filed (goalId : String) (s s' : BreakerState) : Prop where
  filings : filings goalId s' = filings goalId s + 1
  before : ∃ goal, s.goal? goalId = some goal ∧ artifacts goal = 0
  after : ∀ goal', s'.goal? goalId = some goal' → artifacts goal' = 1

def Marked (goalId : String) (s : BreakerState) : Prop :=
  ∀ goal, s.goal? goalId = some goal → 0 < artifacts goal

/-- No number the filer would answer is one the goal refers to, unless the goal
has its artifact already. -/
def NewNumbers (goalId : String) (s : BreakerState) (answers : Answers) : Prop :=
  ∀ goal, s.goal? goalId = some goal → artifacts goal = 0 →
    ∀ title body issue, answers.fileIssue title body = some issue →
      goal.wipRefs.any (referencesIssue issue) = false

namespace Quiet

variable {x : String} {s s' s'' : BreakerState}

theorem refl : Quiet x s s := ⟨rfl, fun goal' h => ⟨goal', h, rfl⟩⟩

theorem trans (h : Quiet x s s') (h' : Quiet x s' s'') : Quiet x s s'' := by
  refine ⟨h'.filings.trans h.filings, ?_⟩
  intro goal'' hgoal''
  obtain ⟨goal', hgoal', hrefs'⟩ := h'.refs goal'' hgoal''
  obtain ⟨goal, hgoal, hrefs⟩ := h.refs goal' hgoal'
  exact ⟨goal, hgoal, hrefs'.trans hrefs⟩

theorem track (h : Quiet x s s') (f : NoProgressTracker → NoProgressTracker) :
    Quiet x s (s'.track f) := ⟨h.filings, h.refs⟩

theorem note (h : Quiet x s s') (f : NoProgressBreakerReport → NoProgressBreakerReport) :
    Quiet x s (s'.note f) := ⟨h.filings, h.refs⟩

theorem spawnEngineer (h : Quiet x s s') (goalId task : String) :
    Quiet x s (s'.call (.spawnEngineer goalId task)) := by
  refine ⟨?_, h.refs⟩
  rw [← h.filings]
  simp [Goals.filings, BreakerState.call, isFiling]

theorem modifyGoal (h : Quiet x s s') (goalId : String) (f : ActiveGoal → ActiveGoal)
    (hid : ∀ goal, (f goal).id = goal.id) (hf : ∀ goal, trackable (f goal) = trackable goal) :
    Quiet x s (s'.modifyGoal goalId f) := by
  refine h.trans ⟨rfl, ?_⟩
  intro goal' hgoal'
  rw [s'.goal?_modifyGoal goalId x f hid] at hgoal'
  split at hgoal'
  · obtain ⟨goal, hgoal, rfl⟩ := Option.map_eq_some_iff.mp hgoal'
    exact ⟨goal, hgoal, hf goal⟩
  · exact ⟨goal', hgoal', rfl⟩

theorem setStatus (h : Quiet x s s') (goalId : String) (status : GoalProgress) :
    Quiet x s (s'.setStatus goalId status) :=
  h.modifyGoal goalId _ (fun _ => rfl) fun _ => rfl

theorem dropGoal (h : Quiet x s s') (goalId : String) : Quiet x s (s'.dropGoal goalId) := by
  refine h.trans ⟨rfl, ?_⟩
  intro goal' hgoal'
  rw [s'.goal?_dropGoal] at hgoal'
  split at hgoal'
  · cases hgoal'
  · exact ⟨goal', hgoal', rfl⟩

theorem unblockIf (h : Quiet x s s') (unblock : Bool) (goalId : String) :
    Quiet x s (unblockIf unblock goalId s') := by
  unfold Goals.unblockIf
  split
  · exact h.setStatus goalId _
  · exact h

end Quiet

/-- A step files at most once for the goal, and then leaves an artifact. -/
def Kept (goalId : String) (s s' : BreakerState) : Prop := Quiet goalId s s' ∨ Filed goalId s s'

namespace Kept

variable {x : String} {s s' s'' : BreakerState}

theorem trans (h : Kept x s s') (h' : Kept x s' s'') : Kept x s s'' := by
  obtain h | h := h <;> obtain h' | h' := h'
  · exact .inl (h.trans h')
  · obtain ⟨goal', hgoal', hzero⟩ := h'.before
    obtain ⟨goal, hgoal, hrefs⟩ := h.refs goal' hgoal'
    refine .inr ⟨by rw [h'.filings, h.filings], ⟨goal, hgoal, ?_⟩, h'.after⟩
    rw [← hzero, artifacts_of_trackable hrefs]
  · refine .inr ⟨by rw [h'.filings, h.filings], h.before, ?_⟩
    intro goal'' hgoal''
    obtain ⟨goal', hgoal', hrefs⟩ := h'.refs goal'' hgoal''
    rw [artifacts_of_trackable hrefs, h.after goal' hgoal']
  · -- the second filing would have found the artifact of the first
    obtain ⟨goal', hgoal', hzero⟩ := h'.before
    have hone := h.after goal' hgoal'
    omega

theorem marked (h : Kept x s s') (hm : Marked x s) : Marked x s' := by
  intro goal' hgoal'
  obtain h | h := h
  · obtain ⟨goal, hgoal, hrefs⟩ := h.refs goal' hgoal'
    rw [artifacts_of_trackable hrefs]
    exact hm goal hgoal
  · rw [h.after goal' hgoal']
    exact Nat.one_pos

theorem newNumbers (h : Kept x s s') {answers : Answers} (hn : NewNumbers x s answers) :
    NewNumbers x s' answers := by
  intro goal' hgoal' hzero title body issue hissue
  obtain h | h := h
  · obtain ⟨goal, hgoal, hrefs⟩ := h.refs goal' hgoal'
    rw [references_of_trackable hrefs]
    rw [artifacts_of_trackable hrefs] at hzero
    exact hn goal hgoal hzero title body issue hissue
  · have hone := h.after goal' hgoal'
    omega

end Kept

section Escalation

variable {x goalId : String} (s : BreakerState) (blockedReason issueTitle issueBody : String)
  {answers : Answers}

theorem filed_escalation {goal : ActiveGoal} (hgoal : s.goal? x = some goal)
    (hzero : artifacts goal = 0) (hn : NewNumbers x s answers) :
    Filed x s ((s.modifyGoal x
      (escalatedGoal blockedReason (answers.fileIssue issueTitle issueBody))).call
        (.fileIssue x issueTitle issueBody)) := by
  refine ⟨by simp [filings, BreakerState.call, BreakerState.modifyGoal, isFiling],
    ⟨goal, hgoal, hzero⟩, ?_⟩
  intro goal' hgoal'
  change (s.modifyGoal x _).goal? x = some goal' at hgoal'
  rw [s.goal?_modifyGoal x x (escalatedGoal blockedReason _) fun _ => rfl, if_pos rfl, hgoal]
    at hgoal'
  cases hgoal'
  exact artifacts_escalatedGoal hzero _ (hn goal hgoal hzero issueTitle issueBody)

theorem quiet_other_escalation (hne : x ≠ goalId) (filed : Option FiledIssue) :
    Quiet x s ((s.modifyGoal goalId (escalatedGoal blockedReason filed)).call
      (.fileIssue goalId issueTitle issueBody)) := by
  refine ⟨by simp [filings, BreakerState.call, BreakerState.modifyGoal, isFiling, Ne.symm hne], ?_⟩
  intro goal' hgoal'
  change (s.modifyGoal goalId _).goal? x = some goal' at hgoal'
  rw [s.goal?_modifyGoal goalId x (escalatedGoal blockedReason _) fun _ => rfl, if_neg hne]
    at hgoal'
  exact ⟨goal', hgoal', rfl⟩

theorem kept_escalate (hn : goalId = x → NewNumbers x s answers) :
    Kept x s
      (escalateWithTrackingIssue s goalId blockedReason issueTitle issueBody answers) := by
  unfold escalateWithTrackingIssue
  split
  · exact .inl .refl
  next goal hgoal =>
    split
    · exact .inl (Quiet.refl.setStatus goalId _)
    next hnone =>
      by_cases hx : goalId = x
      · subst hx
        have hzero : artifacts goal = 0 := by
          rw [any_isBreakerTrackingRef] at hnone
          simpa using hnone
        exact .inr (filed_escalation s _ _ _ hgoal hzero (hn rfl))
      · exact .inl (quiet_other_escalation s _ _ _ (Ne.symm hx) _)

theorem marked_escalate (hn : NewNumbers x s answers) :
    Marked x (escalateWithTrackingIssue s x blockedReason issueTitle issueBody answers) := by
  unfold escalateWithTrackingIssue
  split
  next hnone =>
    intro goal hgoal
    rw [hnone] at hgoal
    cases hgoal
  next goal hgoal =>
    rw [any_isBreakerTrackingRef]
    split
    next hsome =>
      have hpos : Marked x s := by
        intro goal' hgoal'
        rw [hgoal] at hgoal'
        cases hgoal'
        simpa using hsome
      exact Kept.marked (.inl (Quiet.refl.setStatus x _)) hpos
    next hnone =>
      intro goal' hgoal'
      have hzero : artifacts goal = 0 := by simpa using hnone
      rw [(filed_escalation s _ _ _ hgoal hzero hn).after goal' hgoal']
      exact Nat.one_pos

end Escalation

/-- What a step does to the artifacts of a goal and to what is reported of it. -/
structure Carried (goalId : String) (s s' : BreakerState) : Prop where
  kept : Kept goalId s s'
  reported : Reported goalId s' → Reported goalId s ∨ Marked goalId s'

namespace Carried

variable {x goalId : String} {s s' s'' : BreakerState}

theorem refl : Carried x s s := ⟨.inl .refl, .inl⟩

theorem trans (h : Carried x s s') (h' : Carried x s' s'') : Carried x s s'' := by
  refine ⟨h.kept.trans h'.kept, ?_⟩
  intro hreported
  obtain hreported | hmarked := h'.reported hreported
  · exact (h.reported hreported).imp_right h'.kept.marked
  · exact .inr hmarked

theorem of_quiet (h : Quiet x s s') (hreport : s'.report = s.report) : Carried x s s' := by
  refine ⟨.inl h, ?_⟩
  intro hreported
  unfold Reported at hreported
  rw [hreport] at hreported
  exact .inl hreported

theorem note (h : Carried x s s') (f : NoProgressBreakerReport → NoProgressBreakerReport)
    (hescalated : (f s'.report).escalated = s'.report.escalated)
    (hquarantined : (f s'.report).quarantined = s'.report.quarantined) :
    Carried x s (s'.note f) := by
  refine h.trans ⟨.inl (Quiet.refl.note f), ?_⟩
  intro hreported
  unfold Reported BreakerState.note at hreported
  rw [hescalated, hquarantined] at hreported
  exact .inl hreported

theorem noteParked (h : Carried x s s') (f : NoProgressBreakerReport → NoProgressBreakerReport)
    (hf : Reported x (s'.note f) → Reported x s' ∨ goalId = x)
    (hmarked : goalId = x → Marked x s') : Carried x s (s'.note f) := by
  refine h.trans ⟨.inl (Quiet.refl.note f), ?_⟩
  intro hreported
  exact (hf hreported).imp_right fun heq => hmarked heq

theorem noteEscalated (h : Carried x s s') (hmarked : goalId = x → Marked x s') :
    Carried x s (s'.note fun r => { r with escalated := r.escalated ++ [goalId] }) := by
  apply h.noteParked _ ?_ hmarked
  simp only [Reported, BreakerState.note, List.mem_append, List.mem_singleton]
  grind

theorem noteQuarantined (h : Carried x s s') (hmarked : goalId = x → Marked x s') :
    Carried x s (s'.note fun r => { r with quarantined := r.quarantined ++ [goalId] }) := by
  apply h.noteParked _ ?_ hmarked
  simp only [Reported, BreakerState.note, List.mem_append, List.mem_singleton]
  grind

theorem track (h : Carried x s s') (f : NoProgressTracker → NoProgressTracker) :
    Carried x s (s'.track f) := h.trans (of_quiet (Quiet.refl.track f) rfl)

end Carried

theorem isTrackable_of_isBreakerDeferRef {ref : WipRef} (h : isBreakerDeferRef ref = true) :
    isTrackable ref = false := by
  have hkind : asciiLowercase ref.kind = asciiLowercase dependencyWipKind := by
    simpa [isBreakerDeferRef, eqIgnoreAsciiCase] using (Bool.and_eq_true_iff.mp h).1
  unfold isTrackable isSuppressionMarker eqIgnoreAsciiCase
  rw [hkind]
  decide

theorem trackable_deferredGoal (blockingRef : String) (goal : ActiveGoal) :
    trackable (deferredGoal blockingRef goal) = trackable goal := by
  have hdefer : isTrackable (deferRef blockingRef) = false := by
    apply isTrackable_of_isBreakerDeferRef
    have hlabel := startsWith_append deferLabelPrefix blockingRef
    have hkind : eqIgnoreAsciiCase dependencyWipKind dependencyWipKind = true := by decide
    simp [isBreakerDeferRef, deferRef, hlabel, hkind]
  unfold trackable deferredGoal
  split
  · rfl
  · simp [hdefer]

theorem trackable_quarantinedGoal (goal : ActiveGoal) :
    trackable (quarantinedGoal goal) = trackable goal := by
  have hmarker : isTrackable quarantineMarker = false := by decide
  unfold trackable quarantinedGoal
  split
  · rfl
  · simp [hmarker]

theorem trackable_resumedGoal (goal : ActiveGoal) :
    trackable (resumedGoal goal) = trackable goal := by
  unfold trackable resumedGoal
  rw [List.filter_filter]
  apply List.filter_congr
  intro ref _
  cases hdefer : isBreakerDeferRef ref with
  | false => simp
  | true => simp [isTrackable_of_isBreakerDeferRef hdefer]

theorem escalateWithTrackingIssue_report (s : BreakerState)
    (goalId blockedReason issueTitle issueBody : String) (answers : Answers) :
    (escalateWithTrackingIssue s goalId blockedReason issueTitle issueBody answers).report =
      s.report := by
  unfold escalateWithTrackingIssue
  split
  · rfl
  split <;> rfl

section Steps

variable {x goalId : String} {s : BreakerState} {answers : Answers}

theorem carried_escalate (hn : goalId = x → NewNumbers x s answers)
    (blockedReason issueTitle issueBody : String) :
    Carried x s
      (escalateWithTrackingIssue s goalId blockedReason issueTitle issueBody answers) := by
  refine ⟨kept_escalate s _ _ _ hn, ?_⟩
  unfold Reported
  rw [escalateWithTrackingIssue_report]
  exact .inl

theorem carried_escalated (hn : goalId = x → NewNumbers x s answers)
    (blockedReason issueTitle issueBody : String) (f : NoProgressTracker → NoProgressTracker) :
    Carried x s
      (((escalateWithTrackingIssue s goalId blockedReason issueTitle issueBody answers).track
        f).note fun r => { r with escalated := r.escalated ++ [goalId] }) := by
  apply ((carried_escalate hn _ _ _).track f).noteEscalated
  rintro rfl
  exact marked_escalate s _ _ _ (hn rfl)

theorem carried_heal (hn : goalId = x → NewNumbers x s answers) (consecutive : Nat)
    (why : NoProgressWhy) (unblock : Bool) :
    Carried x s (applyHeal s goalId consecutive why answers unblock) := by
  unfold applyHeal
  split
  · exact Carried.refl.track _
  split
  · apply Carried.note (.of_quiet ((Quiet.refl.track _).unblockIf unblock goalId) ?_) _ rfl rfl
    unfold unblockIf
    split <;> rfl
  · exact carried_escalated hn _ _ _ _

theorem carried_quarantine (hn : goalId = x → NewNumbers x s answers) (consecutive : Nat)
    (cls : NoProgressClass) (surfacedCount : Nat) :
    Carried x s (applyQuarantine s goalId consecutive cls surfacedCount answers) := by
  let why : NoProgressWhy := ⟨cls, [surfacedEvidence goalId surfacedCount]⟩
  let issue := surfacedFailureEscalationIssue goalId cls surfacedCount
  let parked := escalateWithTrackingIssue s goalId (noProgressBlockedReasonWithWhy consecutive why)
    issue.1 issue.2 answers
  have hquiet : Quiet x parked (parked.modifyGoal goalId quarantinedGoal) :=
    Quiet.refl.modifyGoal goalId quarantinedGoal quarantinedGoal_id trackable_quarantinedGoal
  unfold applyQuarantine
  apply ((((carried_escalate hn _ _ _).trans (.of_quiet hquiet rfl)).track _).noteQuarantined)
  rintro rfl
  exact Kept.marked (.inl (hquiet.track _)) (marked_escalate s _ _ _ (hn rfl))

theorem carried_resolution (hn : goalId = x → NewNumbers x s answers) (consecutive : Nat)
    (cls : NoProgressClass) (unblock : Bool) (resolution : NoProgressResolution) :
    Carried x s
      (applyResolutionSideEffects s goalId consecutive cls answers unblock resolution) := by
  cases resolution with
  | «continue» => exact .refl
  | markDone =>
    rw [applyResolutionSideEffects]
    exact ((Carried.of_quiet (Quiet.refl.setStatus goalId _) rfl).track _).note _ rfl rfl
  | drop reason =>
    rw [applyResolutionSideEffects]
    exact ((Carried.of_quiet (Quiet.refl.dropGoal goalId) rfl).track _).note _ rfl rfl
  | heal why => exact carried_heal hn consecutive why unblock
  | defer blockingRef evidence =>
    have hdeferred := Quiet.refl.modifyGoal (x := x) (s := s) goalId (deferredGoal blockingRef)
      (fun _ => rfl) (trackable_deferredGoal blockingRef)
    rw [applyResolutionSideEffects]
    exact ((Carried.of_quiet hdeferred rfl).track _).note _ rfl rfl
  | spawnEngineer task why =>
    have hspawned : Carried x s (unblockIf unblock goalId
        ((s.call (.spawnEngineer goalId task)).track fun tracker =>
          (tracker.markGuidedRetry goalId).resetCount goalId)) := by
      apply Carried.of_quiet (((Quiet.refl.spawnEngineer goalId task).track _).unblockIf _ _)
      unfold unblockIf
      split <;> rfl
    rw [applyResolutionSideEffects]
    split
    · exact hspawned.note _ rfl rfl
    · exact hspawned
  | escalate blockedReason issueTitle issueBody => exact carried_escalated hn _ _ _ _
  | surfaceInvestigationFailure cls reason =>
    have hsurfaced : Carried x s
        (unblockIf unblock goalId (s.track (·.recordSurfacedFailure goalId))) := by
      apply Carried.of_quiet ((Quiet.refl.track _).unblockIf _ _)
      unfold unblockIf
      split <;> rfl
    rw [applyResolutionSideEffects]
    exact (hsurfaced.track _).note _ rfl rfl
  | quarantineTerminal surfacedCount => exact carried_quarantine hn consecutive cls surfacedCount

theorem carried_baseResolution (hn : goalId = x → NewNumbers x s answers)
    (resolution : NoProgressResolution) :
    Carried x s (applyBaseResolution s goalId answers resolution) := by
  unfold applyBaseResolution
  split
  · exact (Carried.of_quiet (Quiet.refl.setStatus goalId _) rfl).note _ rfl rfl
  · exact (Carried.of_quiet (Quiet.refl.dropGoal goalId) rfl).note _ rfl rfl
  · exact carried_escalated hn _ _ _ id
  · exact .refl

theorem carried_screen {outcome : ActionOutcome} {stalled : String → BreakerState}
    (h : ∀ goalId, outcome.goalId = some goalId → Carried x s (stalled goalId)) :
    Carried x s (screenOutcome s outcome stalled) := by
  unfold screenOutcome
  split
  · exact .refl
  next goalId hgoalId =>
    split
    · split
      · exact Carried.refl.track _
      · exact .refl
    · cases hidle : applyStandingIdle s goalId with
      | none => exact h goalId hgoalId
      | some idled =>
        have hprogress : Carried x s (s.track (·.recordProgress goalId)) := Carried.refl.track _
        obtain ⟨goal, -, hidle⟩ := Option.bind_eq_some_iff.mp hidle
        obtain ⟨idle, -, hidle⟩ := Option.bind_eq_some_iff.mp hidle
        cases hidle
        cases idle <;> dsimp only [Option.getD_some]
        · exact hprogress.note _ rfl rfl
        · exact hprogress.note _ rfl rfl
        · exact hprogress

theorem carried_breakerStep (evidence : EvidenceSource) (threshold : Nat) {outcome : ActionOutcome}
    (hn : outcome.goalId = some x → NewNumbers x s answers) :
    Carried x s (breakerStep evidence threshold s outcome answers) := by
  apply carried_screen
  intro goalId hgoalId
  have hn' (h : goalId = x) : NewNumbers x s answers := hn (h ▸ hgoalId)
  split
  · exact Carried.refl.track _
  next goal hgoal =>
    let resolved := s.tracker.recordAndResolve goalId threshold (verifyStuckGoal evidence goal)
    have hcounted : Carried x s (s.track fun _ => resolved.2) := Carried.refl.track _
    exact hcounted.trans (carried_baseResolution (s := s.track fun _ => resolved.2) hn' resolved.1)

theorem carried_investigatedStep (threshold : Nat) {outcome : ActionOutcome}
    (hn : outcome.goalId = some x → NewNumbers x s answers) :
    Carried x s (investigatedStep threshold s outcome answers) := by
  apply carried_screen
  intro goalId hgoalId
  have hn' (h : goalId = x) : NewNumbers x (s.track (·.recordNoAction goalId)) answers :=
    hn (h ▸ hgoalId)
  have hcounted : Carried x s (s.track (·.recordNoAction goalId)) := Carried.refl.track _
  dsimp only
  split
  · exact hcounted
  split
  · exact hcounted.track _
  split
  · exact hcounted.note _ rfl rfl
  · exact hcounted.trans (carried_resolution hn' _ _ _ _)

theorem carried_reinvestigateStep (threshold : Nat)
    (hn : goalId = x → NewNumbers x s answers) :
    Carried x s (reinvestigateStep threshold s goalId answers) := by
  unfold reinvestigateStep
  split
  · exact .refl
  split
  · exact .refl
  split
  · exact Carried.refl.note _ rfl rfl
  next why _ =>
    have hnoted : Carried x s
        (s.note fun r => { r with reinvestigated := r.reinvestigated ++ [goalId] }) :=
      Carried.refl.note _ rfl rfl
    dsimp only
    split
    · refine hnoted.trans ?_
      unfold applyReinvestigatedBefore
      split
      · exact (Carried.of_quiet (Quiet.refl.setStatus goalId _) rfl).note _ rfl rfl
      · exact .of_quiet (Quiet.refl.setStatus goalId _) rfl
    · have hresolved := hnoted.trans
        (carried_resolution (s := s.note _) hn threshold why.cls true
          (resolutionForWhy threshold why (s.tracker.guidedRetryUsed goalId)
            (s.tracker.surfacedFailures goalId)))
      split
      · exact hresolved.track _
      · exact hresolved

end Steps

section Passes

variable {x : String} {α : Type} {step : BreakerState → α → Answers → BreakerState}
  {isFor : α → Prop} {answers : Nat → Answers}

theorem carried_stepAll
    (hstep : ∀ s item answers, (isFor item → NewNumbers x s answers) →
      Carried x s (step s item answers))
    {s : BreakerState} (items : List α)
    (hn : ∀ item ∈ items.zipIdx, isFor item.1 → NewNumbers x s (answers item.2)) :
    Carried x s (stepAll step answers s items) := by
  unfold stepAll
  generalize items.zipIdx = indexed at hn ⊢
  induction indexed generalizing s with
  | nil => exact .refl
  | cons item rest ih =>
    have hfirst := hstep s item.1 (answers item.2) (hn item List.mem_cons_self)
    refine hfirst.trans (ih ?_)
    intro later hlater hfor
    exact hfirst.kept.newNumbers (hn later (List.mem_cons_of_mem _ hlater) hfor)

theorem carried_opened (s : BreakerState) : Carried x s s.opened :=
  ⟨.inl ⟨rfl, fun goal' h => ⟨goal', h, rfl⟩⟩,
    fun h => absurd h (by simp [Reported, BreakerState.opened])⟩

theorem carried_autoClear (evidence : EvidenceSource) (s : BreakerState) :
    Carried x s (autoClear evidence s) := by
  refine ⟨.inl ⟨rfl, ?_⟩, .inl⟩
  let cleared (goal : ActiveGoal) : ActiveGoal :=
    if autoClears evidence goal then resumedGoal goal else goal
  have hid (goal : ActiveGoal) : (cleared goal).id = goal.id := by
    unfold cleared
    split <;> rfl
  have hrefs (goal : ActiveGoal) : trackable (cleared goal) = trackable goal := by
    unfold cleared
    split
    · exact trackable_resumedGoal goal
    · rfl
  intro goal' hgoal'
  change (s.board.active.map cleared).find? (·.id = x) = some goal' at hgoal'
  rw [List.find?_map] at hgoal'
  obtain ⟨goal, hgoal, rfl⟩ := Option.map_eq_some_iff.mp hgoal'
  refine ⟨goal, ?_, hrefs goal⟩
  simp only [Function.comp_def, hid] at hgoal
  exact hgoal

theorem carried_pass
    (hstep : ∀ s item answers, (isFor item → NewNumbers x s answers) →
      Carried x s (step s item answers))
    {s s₀ : BreakerState} (hopened : Carried x s.opened s₀) (items : List α)
    (hn : ∀ item ∈ items.zipIdx, isFor item.1 → NewNumbers x s (answers item.2)) :
    Kept x s (pruneTracker (stepAll step answers s₀ items)) ∧
      (Reported x (pruneTracker (stepAll step answers s₀ items)) →
        Marked x (pruneTracker (stepAll step answers s₀ items))) := by
  have hstart := (carried_opened s).trans hopened
  have hrest := hopened.trans ((carried_stepAll hstep items fun item hitem hfor =>
    hstart.kept.newNumbers (hn item hitem hfor)).track
      (·.retainGoals ((stepAll step answers s₀ items).board.active.map (·.id))))
  refine ⟨(carried_opened s).kept.trans hrest.kept, ?_⟩
  intro hreported
  apply (hrest.reported hreported).resolve_left
  simp [Reported, BreakerState.opened]

end Passes

/-- The passes of the breaker, and whatever the rest of the daemon does in between. -/
inductive BreakerEvent where
  | withThreshold (outcomes : List ActionOutcome) (evidence : EvidenceSource)
      (answers : Nat → Answers) (threshold : Nat)
  | investigated (outcomes : List ActionOutcome) (evidence : EvidenceSource)
      (answers : Nat → Answers) (threshold : Nat)
  | reinvestigate (answers : Nat → Answers) (threshold : Nat)
  | others (board : GoalBoard) (tracker : NoProgressTracker)

def breaker : Machine BreakerState BreakerEvent where
  step s
    | .withThreshold outcomes evidence answers threshold =>
        applyNoProgressBreakerWithThreshold s outcomes evidence answers threshold
    | .investigated outcomes evidence answers threshold =>
        applyNoProgressBreakerInvestigated s outcomes evidence answers threshold
    | .reinvestigate answers threshold => reinvestigateBareBlockedGoals s answers threshold
    | .others board tracker => ⟨board, tracker, {}, s.calls⟩

def AppendsOnly (x : String) (s : BreakerState) : BreakerEvent → Prop
  | .others board _ => ∀ goal, s.goal? x = some goal →
      ∃ goal' extra, board.active.find? (·.id = x) = some goal' ∧
        goal'.wipRefs = goal.wipRefs ++ extra
  | _ => True

/-- No number filed for the goal is one it refers to already, and artifacts come
from the breaker alone. -/
def FilesNewNumbers (x : String) (s : BreakerState) : BreakerEvent → Prop
  | .withThreshold outcomes _ answers _ | .investigated outcomes _ answers _ =>
      ∀ item ∈ outcomes.zipIdx, item.1.goalId = some x → NewNumbers x s (answers item.2)
  | .reinvestigate answers _ =>
      ∀ item ∈ (bareBlockedIds s.board).zipIdx, item.1 = x → NewNumbers x s (answers item.2)
  | .others board _ => ∀ goal goal' extra, s.goal? x = some goal →
      board.active.find? (·.id = x) = some goal' → goal'.wipRefs = goal.wipRefs ++ extra →
        ∀ ref ∈ extra, isBreakerTrackingRef ref = false

theorem breaker_pass {x : String} {s : BreakerState} {event : BreakerEvent}
    (hn : FilesNewNumbers x s event) (hpass : ∀ board tracker, event ≠ .others board tracker) :
    Kept x s (breaker.step s event) ∧
      (Reported x (breaker.step s event) → Marked x (breaker.step s event)) := by
  cases event with
  | withThreshold outcomes evidence answers threshold =>
    exact carried_pass (fun s outcome answers => carried_breakerStep evidence threshold) .refl
      outcomes hn
  | investigated outcomes evidence answers threshold =>
    exact carried_pass (fun s outcome answers => carried_investigatedStep threshold)
      (carried_autoClear evidence s.opened) outcomes hn
  | reinvestigate answers threshold =>
    exact carried_pass (fun s goalId answers => carried_reinvestigateStep threshold) .refl
      (bareBlockedIds s.board) hn
  | others board tracker => exact absurd rfl (hpass board tracker)

/-- The goal is on the board with at most one artifact, and with one if an issue
was filed for it. -/
def TrackedOnce (x : String) (s : BreakerState) : Prop :=
  ∃ goal, s.goal? x = some goal ∧ filings x s ≤ artifacts goal ∧ artifacts goal ≤ 1

/-- A step that leaves the goal on the board and is as it should be. -/
structure Proper (x : String) (s : BreakerState) (event : BreakerEvent) : Prop where
  stays : ((breaker.step s event).goal? x).isSome
  appends : AppendsOnly x s event
  newNumbers : FilesNewNumbers x s event

theorem Proper.artifacts_others {x : String} {s : BreakerState} {board : GoalBoard}
    {tracker : NoProgressTracker} (h : Proper x s (.others board tracker)) {goal : ActiveGoal}
    (hgoal : s.goal? x = some goal) :
    ∃ goal', (breaker.step s (.others board tracker)).goal? x = some goal' ∧
      artifacts goal' = artifacts goal := by
  obtain ⟨goal', extra, hgoal', hrefs⟩ := h.appends goal hgoal
  refine ⟨goal', hgoal', ?_⟩
  have hextra : extra.countP isBreakerTrackingRef = 0 := by
    rw [List.countP_eq_zero]
    intro ref href
    simp [h.newNumbers goal goal' extra hgoal hgoal' hrefs ref href]
  simp [artifacts, hrefs, hextra]

theorem trackedOnce_of_kept {x : String} {s s' : BreakerState} (hkept : Kept x s s')
    (hstays : (s'.goal? x).isSome) (h : TrackedOnce x s) : TrackedOnce x s' := by
  obtain ⟨goal', hgoal'⟩ := Option.isSome_iff_exists.mp hstays
  obtain ⟨goal, hgoal, hle, hone⟩ := h
  refine ⟨goal', hgoal', ?_⟩
  obtain hquiet | hfiled := hkept
  · obtain ⟨before, hbefore, hrefs⟩ := hquiet.refs goal' hgoal'
    rw [hgoal] at hbefore
    cases hbefore
    rw [hquiet.filings, artifacts_of_trackable hrefs]
    exact ⟨hle, hone⟩
  · obtain ⟨before, hbefore, hzero⟩ := hfiled.before
    rw [hgoal] at hbefore
    cases hbefore
    have hafter := hfiled.after goal' hgoal'
    have hfilings := hfiled.filings
    omega

theorem trackedOnce_step {x : String} (s : BreakerState) (event : BreakerEvent)
    (h : Proper x s event) (hs : TrackedOnce x s) : TrackedOnce x (breaker.step s event) := by
  cases event with
  | others board tracker =>
    obtain ⟨goal, hgoal, hle, hone⟩ := hs
    obtain ⟨goal', hgoal', hsame⟩ := h.artifacts_others hgoal
    refine ⟨goal', hgoal', ?_⟩
    rw [hsame]
    exact ⟨hle, hone⟩
  | _ => exact trackedOnce_of_kept (breaker_pass h.newNumbers (by simp)).1 h.stays hs

theorem tracked_step {x : String} (s : BreakerState) (event : BreakerEvent)
    (h : Proper x s event) (hs : TrackedOnce x s ∧ Marked x s) :
    TrackedOnce x (breaker.step s event) ∧ Marked x (breaker.step s event) := by
  refine ⟨trackedOnce_step s event h hs.1, ?_⟩
  cases event with
  | others board tracker =>
    obtain ⟨goal, hgoal, -⟩ := hs.1
    obtain ⟨goal', hgoal', hsame⟩ := h.artifacts_others hgoal
    intro found hfound
    rw [hgoal'] at hfound
    cases hfound
    rw [hsame]
    exact hs.2 goal hgoal
  | _ => exact (breaker_pass h.newNumbers (by simp)).1.marked hs.2

theorem marked_of_reported {x : String} {s : BreakerState} {event : BreakerEvent}
    (h : Proper x s event) (hreported : Reported x (breaker.step s event)) :
    Marked x (breaker.step s event) := by
  cases event with
  | others board tracker => exact absurd hreported (by simp [Reported, breaker])
  | _ => exact (breaker_pass h.newNumbers (by simp)).2 hreported

/-- In a run that files new numbers only, a goal that stays on the board gets at most
one issue, and carries exactly one artifact from its first escalation on. -/
theorem files_one_tracking_issue (x : String) (s : BreakerState) (events : List BreakerEvent)
    (hstart : ∃ goal, s.goal? x = some goal ∧ artifacts goal ≤ 1) (hnone : filings x s = 0)
    (hstays : ∀ t ∈ breaker.trace s events,
      (t.after.goal? x).isSome ∧ AppendsOnly x t.before t.event)
    (hnew : ∀ t ∈ breaker.trace s events, FilesNewNumbers x t.before t.event) :
    filings x (breaker.run s events) ≤ 1 ∧
      ∀ left right, events = left ++ right → (∃ t ∈ breaker.trace s left, Reported x t.after) →
        ∃ goal, (breaker.run s left).goal? x = some goal ∧ artifacts goal = 1 := by
  have hproper : ∀ t ∈ breaker.trace s events, Proper x t.before t.event := by
    intro t ht
    obtain ⟨-, -, -, -, hafter⟩ := breaker.mem_trace ht
    exact ⟨hafter ▸ (hstays t ht).1, (hstays t ht).2, hnew t ht⟩
  have hopen : TrackedOnce x s := by
    obtain ⟨goal, hgoal, hone⟩ := hstart
    exact ⟨goal, hgoal, hnone ▸ Nat.zero_le _, hone⟩
  constructor
  · obtain ⟨goal, -, hle, hone⟩ := breaker.invariant_run_of trackedOnce_step hopen events hproper
    exact hle.trans hone
  · rintro left right rfl ⟨t, ht, hreported⟩
    have hleft : ∀ t ∈ breaker.trace s left, Proper x t.before t.event :=
      fun t ht => hproper t (breaker.trace_prefix ht)
    obtain ⟨-, -, -, -, hafter⟩ := breaker.mem_trace ht
    have hparked : TrackedOnce x t.after ∧ Marked x t.after := by
      rw [hafter] at hreported ⊢
      exact ⟨trackedOnce_step _ _ (hleft t ht)
          (breaker.invariant_trace_of trackedOnce_step hopen hleft ht),
        marked_of_reported (hleft t ht) hreported⟩
    obtain ⟨⟨goal, hgoal, -, hone⟩, hmarked⟩ :=
      breaker.holds_since tracked_step hleft ht hparked
    exact ⟨goal, hgoal, Nat.le_antisymm hone (hmarked goal hgoal)⟩

def unverified : EvidenceSource where
  anyPrMerged _ := .ok false
  issueClosed _ := .ok false
  isDeployed _ := .ok false

def filesSeven : Answers where
  investigate _ := .error "offline"
  heal _ _ := .error "offline"
  spawnEngineer _ _ := false
  fileIssue _ _ := some ⟨"7", none⟩

def stall (goalId : String) : BreakerEvent :=
  .withThreshold [⟨some goalId, true, "typed no-action committed: outcome=deferred"⟩] unverified
    (fun _ => filesSeven) 1

def boardOf (refs : List WipRef) : BreakerState :=
  ⟨⟨[{ ActiveGoal.new "port" "Port the parser" 1 with wipRefs := refs }], []⟩, .new, {}, []⟩

def issueSeven : WipRef := ⟨"issue", "7", "upstream report", none⟩

theorem files_one_tracking_issue_port :
    filings "port" (breaker.run (boardOf []) [stall "port", stall "port"]) ≤ 1 ∧
      ∀ left right, [stall "port", stall "port"] = left ++ right →
        (∃ t ∈ breaker.trace (boardOf []) left, Reported "port" t.after) →
          ∃ goal, (breaker.run (boardOf []) left).goal? "port" = some goal ∧
            artifacts goal = 1 := by
  have hfirst : (breaker.step (boardOf []) (stall "port")).goal? "port" =
      some { ActiveGoal.new "port" "Port the parser" 1 with
        status := .blocked (noProgressBlockedReason 1), wipRefs := [trackingRef ⟨"7", none⟩] } := by
    decide
  apply files_one_tracking_issue "port" (boardOf []) [stall "port", stall "port"]
  · exact ⟨{ ActiveGoal.new "port" "Port the parser" 1 with wipRefs := [] }, rfl, by decide⟩
  · rfl
  · have hsecond :
        ((breaker.run (boardOf []) [stall "port", stall "port"]).goal? "port").isSome := by
      decide
    simp only [Machine.trace, List.forall_mem_cons]
    refine ⟨⟨by rw [hfirst]; rfl, trivial⟩, ⟨hsecond, trivial⟩, by simp⟩
  · simp only [Machine.trace, List.forall_mem_cons]
    refine ⟨?_, ?_, by simp⟩
    · intro item hitem _ goal hgoal _ title body issue _
      cases hgoal
      rfl
    · intro item hitem _ goal hgoal hzero
      rw [hfirst] at hgoal
      cases hgoal
      exact absurd hzero (by decide)

/-- The goal refers to issue 7 of its own repository, and the tracking issue gets
number 7 too: the marker goes, no link takes its place, and the next stall files
again. -/
theorem tracking_issue_filed_again :
    ((boardOf [issueSeven]).goal? "port").map artifacts = some 0 ∧
      filings "port" (boardOf [issueSeven]) = 0 ∧
      "port" ∈ (breaker.run (boardOf [issueSeven]) [stall "port"]).report.escalated ∧
      ((breaker.run (boardOf [issueSeven]) [stall "port"]).goal? "port").map artifacts = some 0 ∧
      ((breaker.run (boardOf [issueSeven]) [stall "port", stall "port"]).goal? "port").isSome ∧
      filings "port" (breaker.run (boardOf [issueSeven]) [stall "port", stall "port"]) = 2 := by
  decide

end Simard.Goals
