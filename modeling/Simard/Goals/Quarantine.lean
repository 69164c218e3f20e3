import Simard.Goals.Housekeeping
import Simard.Goals.Livelock

/-! How long a quarantine lasts. A goal the breaker has quarantined is to stay parked
until a human acts; what else runs between two cycles reads neither the marker nor
the reason. -/
namespace Simard.Goals
open Simard.Library BTreeMap

theorem kind_of_isQuarantineRef {ref : WipRef} (h : isQuarantineRef ref = true) :
    ref.kind = quarantineMarkerKind := by
  simpa [isQuarantineRef] using (Bool.and_eq_true_iff.mp h).1

theorem isQuarantined_of_kept {goal goal' : ActiveGoal} (h : isQuarantined goal = true)
    (hkept : ∀ ref ∈ goal.wipRefs, isQuarantineRef ref = true → ref ∈ goal'.wipRefs) :
    isQuarantined goal' = true := by
  obtain ⟨ref, hmem, href⟩ := List.any_eq_true.mp h
  exact List.any_eq_true.mpr ⟨ref, hkept ref hmem href, href⟩

theorem isQuarantined_filter {goal : ActiveGoal} {keep : WipRef → Bool}
    (h : isQuarantined goal = true) (hkeep : ∀ ref, isQuarantineRef ref = true → keep ref = true) :
    isQuarantined { goal with wipRefs := goal.wipRefs.filter keep } = true := by
  apply isQuarantined_of_kept h
  intro ref hmem href
  exact List.mem_filter.mpr ⟨hmem, hkeep ref href⟩

theorem isQuarantined_escalatedGoal {goal : ActiveGoal} (h : isQuarantined goal = true)
    (blockedReason : String) (filed : Option FiledIssue) :
    isQuarantined (escalatedGoal blockedReason filed goal) = true := by
  have hmarkers := quarantineMarkers_escalatedGoal blockedReason filed goal
  unfold quarantineMarkers at hmarkers
  unfold isQuarantined at h ⊢
  rw [List.any_eq_true, ← List.countP_pos_iff] at h ⊢
  omega

theorem isQuarantined_deferredGoal {goal : ActiveGoal} (h : isQuarantined goal = true)
    (blockingRef : String) : isQuarantined (deferredGoal blockingRef goal) = true := by
  apply isQuarantined_of_kept h
  intro ref hmem _
  unfold deferredGoal
  dsimp only
  split
  · exact hmem
  · exact List.mem_append_left _ hmem

theorem not_isDeadSessionRef {ref : WipRef} (h : isQuarantineRef ref = true) :
    isDeadSessionRef ref = false := by
  unfold isDeadSessionRef
  rw [kind_of_isQuarantineRef h]
  decide

theorem isOpenPrRef_of_isQuarantineRef (openPrs : Nat → Bool) {ref : WipRef}
    (h : isQuarantineRef ref = true) : isOpenPrRef openPrs ref = true := by
  have hpr : isPrRef ref = false := by
    unfold isPrRef
    rw [kind_of_isQuarantineRef h]
    decide
  simp [isOpenPrRef, hpr]

theorem mem_upsertFirstRef {refs : List WipRef} {ref : WipRef} (h : ref ∈ refs) (kind num : String)
    (hkind : eqIgnoreAsciiCase ref.kind kind = false) (label : String) :
    ref ∈ upsertFirstRef refs kind num label := by
  unfold upsertFirstRef
  dsimp only
  have hkept : ref ∈ refs.filter fun other =>
      !(eqIgnoreAsciiCase other.kind kind && other.refId = num) := by
    simp [h, hkind]
  generalize refs.filter _ = kept at hkept ⊢
  generalize (kept.findIdx? _).getD 0 = position
  rcases Nat.lt_or_ge kept.length position with hlong | hshort
  · rw [List.insertIdx_of_length_lt hlong]
    exact hkept
  · exact (List.mem_insertIdx hshort).mpr (.inr hkept)

theorem isQuarantined_applyTo {goal : ActiveGoal} (h : isQuarantined goal = true)
    (pin : DoneGatePin) : isQuarantined (pin.applyTo goal) = true := by
  apply isQuarantined_of_kept h
  intro ref hmem href
  have hpr : eqIgnoreAsciiCase ref.kind "pr" = false := by
    rw [kind_of_isQuarantineRef href]
    decide
  have hissue : eqIgnoreAsciiCase ref.kind "issue" = false := by
    rw [kind_of_isQuarantineRef href]
    decide
  have hfirst : ref ∈ (pin.pr.map fun pr =>
      upsertFirstRef goal.wipRefs "pr" pr ("PR #" ++ pr)).getD goal.wipRefs := by
    cases pin.pr with
    | none => exact hmem
    | some pr => exact mem_upsertFirstRef hmem "pr" pr hpr _
  unfold DoneGatePin.applyTo
  dsimp only
  generalize (pin.pr.map _).getD _ = refs at hfirst ⊢
  cases pin.issue with
  | none => exact hfirst
  | some issue => exact mem_upsertFirstRef hfirst "issue" issue hissue _

def ParkedBy (reports : List NoProgressBreakerReport) (goal : ActiveGoal) : Prop :=
  match goal.status with
  | .blocked _ => True
  | .completed => ∃ report ∈ reports, goal.id ∈ report.markedDone
  | .paused => ∃ report ∈ reports, goal.id ∈ report.deferred
  | _ => False

structure Held (reports : List NoProgressBreakerReport) (goal : ActiveGoal) : Prop where
  marked : isQuarantined goal = true
  finite : goal.isPerpetual = false
  status : ParkedBy reports goal

/-- Every entry of the goal is held, and it left the board only as dropped. -/
structure Terminal (x : String) (board : GoalBoard) (reports : List NoProgressBreakerReport) :
    Prop where
  held : ∀ goal ∈ board.active, goal.id = x → Held reports goal
  listed : x ∈ activeIds board ∨ ∃ report ∈ reports, x ∈ report.dropped

/-- A report that says no less than another. -/
structure Grows (report report' : NoProgressBreakerReport) : Prop where
  markedDone : report.markedDone ⊆ report'.markedDone
  deferred : report.deferred ⊆ report'.deferred
  dropped : report.dropped ⊆ report'.dropped

theorem Grows.refl (report : NoProgressBreakerReport) : Grows report report :=
  ⟨List.Subset.refl _, List.Subset.refl _, List.Subset.refl _⟩

theorem exists_report_of_grows {report report' : NoProgressBreakerReport}
    {past : List NoProgressBreakerReport} {field : NoProgressBreakerReport → List String}
    {id : String} (hgrows : field report ⊆ field report')
    (h : ∃ r ∈ report :: past, id ∈ field r) : ∃ r ∈ report' :: past, id ∈ field r := by
  obtain ⟨r, hr, hid⟩ := h
  rcases List.mem_cons.mp hr with rfl | hpast
  · exact ⟨report', List.mem_cons_self, hgrows hid⟩
  · exact ⟨r, List.mem_cons_of_mem _ hpast, hid⟩

theorem Held.grow {report report' : NoProgressBreakerReport}
    {past : List NoProgressBreakerReport} {goal : ActiveGoal} (h : Held (report :: past) goal)
    (hgrows : Grows report report') : Held (report' :: past) goal := by
  refine ⟨h.marked, h.finite, ?_⟩
  have hstatus := h.status
  unfold ParkedBy at hstatus ⊢
  split at hstatus
  · trivial
  · exact exists_report_of_grows hgrows.markedDone hstatus
  · exact exists_report_of_grows hgrows.deferred hstatus
  · exact hstatus.elim

namespace Terminal

variable {x goalId : String} {board : GoalBoard} {s : BreakerState}
  {reports past : List NoProgressBreakerReport} {report report' : NoProgressBreakerReport}

theorem grow (h : Terminal x board (report :: past)) (hgrows : Grows report report') :
    Terminal x board (report' :: past) :=
  ⟨fun goal hgoal hid => (h.held goal hgoal hid).grow hgrows,
    h.listed.imp_right (exists_report_of_grows hgrows.dropped)⟩

theorem map (h : Terminal x board reports) {f : ActiveGoal → ActiveGoal}
    (hid : ∀ goal, (f goal).id = goal.id)
    (hf : ∀ goal ∈ board.active, goal.id = x → Held reports goal → Held reports (f goal)) :
    Terminal x { board with active := board.active.map f } reports := by
  refine ⟨?_, ?_⟩
  · intro goal' hgoal' hid'
    obtain ⟨goal, hgoal, rfl⟩ := List.mem_map.mp hgoal'
    rw [hid] at hid'
    exact hf goal hgoal hid' (h.held goal hgoal hid')
  · have hids : activeIds { board with active := board.active.map f } = activeIds board := by
      simp [activeIds, hid]
    rw [hids]
    exact h.listed

theorem modifyGoal (h : Terminal x s.board reports) {f : ActiveGoal → ActiveGoal}
    (hid : ∀ goal, (f goal).id = goal.id)
    (hf : goalId = x → ∀ goal, goal.id = x → Held reports goal → Held reports (f goal)) :
    Terminal x (s.modifyGoal goalId f).board reports := by
  refine ⟨?_, ?_⟩
  · intro goal' hgoal' hid'
    rcases mem_updateFirst hgoal' with hsame | ⟨goal, hgoal, hown, rfl⟩
    · exact h.held goal' hsame hid'
    · rw [hid] at hid'
      exact hf (hown ▸ hid') goal hid' (h.held goal hgoal hid')
  · have hids : activeIds (s.modifyGoal goalId f).board = activeIds s.board :=
      ids_updateFirst goalId hid s.board.active
    rw [hids]
    exact h.listed

theorem setStatus (h : Terminal x s.board reports) {status : GoalProgress}
    (hstatus : goalId = x → ∀ goal : ActiveGoal, goal.id = x →
      ParkedBy reports { goal with status := status }) :
    Terminal x (s.setStatus goalId status).board reports := by
  refine h.modifyGoal (fun _ => rfl) ?_
  intro hown goal hid hheld
  exact ⟨hheld.marked, hheld.finite, hstatus hown goal hid⟩

theorem dropGoal (h : Terminal x s.board reports)
    (hdropped : goalId = x → ∃ report ∈ reports, x ∈ report.dropped) :
    Terminal x (s.dropGoal goalId).board reports := by
  refine ⟨fun goal hgoal => h.held goal (List.mem_of_mem_filter hgoal), ?_⟩
  by_cases hown : goalId = x
  · exact .inr (hdropped hown)
  refine h.listed.imp_left fun hlisted => ?_
  obtain ⟨goal, hgoal, rfl⟩ := List.mem_map.mp hlisted
  exact List.mem_map_of_mem (List.mem_filter.mpr ⟨hgoal, by simpa using Ne.symm hown⟩)

theorem unblockIf (h : Terminal x s.board reports) {unblock : Bool}
    (hunblock : unblock = true → goalId ≠ x) :
    Terminal x (unblockIf unblock goalId s).board reports := by
  unfold Goals.unblockIf
  split
  next hset => exact h.setStatus fun hown => absurd hown (hunblock hset)
  next => exact h

theorem escalate (h : Terminal x s.board reports)
    (blockedReason issueTitle issueBody : String) (answers : Answers) :
    Terminal x (escalateWithTrackingIssue s goalId blockedReason issueTitle issueBody
      answers).board reports := by
  unfold escalateWithTrackingIssue
  split
  · exact h
  split
  · exact h.setStatus fun _ _ _ => trivial
  · refine h.modifyGoal (f := escalatedGoal blockedReason _) (fun _ => rfl) ?_
    intro _ goal _ hheld
    exact ⟨isQuarantined_escalatedGoal hheld.marked _ _, hheld.finite, trivial⟩

end Terminal

theorem unblockIf_report (unblock : Bool) (goalId : String) (s : BreakerState) :
    (unblockIf unblock goalId s).report = s.report := by
  unfold unblockIf
  split <;> rfl

section Steps

variable {x goalId : String} {s : BreakerState} {past : List NoProgressBreakerReport}
  {answers : Answers}

theorem Terminal.note (h : Terminal x s.board (s.report :: past))
    {f : NoProgressBreakerReport → NoProgressBreakerReport} (hgrows : Grows s.report (f s.report)) :
    Terminal x (s.note f).board ((s.note f).report :: past) :=
  h.grow hgrows

theorem Terminal.noteUnblocked (h : Terminal x s.board (s.report :: past)) {unblock : Bool}
    (hunblock : unblock = true → goalId ≠ x) (g : NoProgressTracker → NoProgressTracker)
    {f : NoProgressBreakerReport → NoProgressBreakerReport} (hgrows : Grows s.report (f s.report)) :
    Terminal x (((Goals.unblockIf unblock goalId s).track g).note f).board
      ((((Goals.unblockIf unblock goalId s).track g).note f).report :: past) := by
  have hunblocked := h.unblockIf hunblock
  rw [← unblockIf_report unblock goalId s] at hunblocked hgrows
  exact hunblocked.note hgrows

theorem Terminal.noteEscalated (h : Terminal x s.board (s.report :: past))
    (blockedReason issueTitle issueBody : String) (g : NoProgressTracker → NoProgressTracker)
    {f : NoProgressBreakerReport → NoProgressBreakerReport} (hgrows : Grows s.report (f s.report)) :
    Terminal x
      (((escalateWithTrackingIssue s goalId blockedReason issueTitle issueBody answers).track
        g).note f).board
      ((((escalateWithTrackingIssue s goalId blockedReason issueTitle issueBody answers).track
        g).note f).report :: past) := by
  have hescalated : Terminal x
      (escalateWithTrackingIssue s goalId blockedReason issueTitle issueBody answers).board
      (s.report :: past) := h.escalate blockedReason issueTitle issueBody answers
  rw [← escalateWithTrackingIssue_report s goalId blockedReason issueTitle issueBody answers]
    at hescalated hgrows
  exact hescalated.note hgrows

theorem terminal_heal (h : Terminal x s.board (s.report :: past)) (consecutive : Nat)
    (why : NoProgressWhy) {unblock : Bool} (hunblock : unblock = true → goalId ≠ x) :
    Terminal x (applyHeal s goalId consecutive why answers unblock).board
      ((applyHeal s goalId consecutive why answers unblock).report :: past) := by
  unfold applyHeal
  split
  · exact h
  split
  · refine Terminal.noteUnblocked (s := s.track (·.resetCount goalId)) h hunblock id ?_
    exact ⟨.refl _, .refl _, .refl _⟩
  · refine h.noteEscalated _ _ _ _ ?_
    exact ⟨.refl _, .refl _, .refl _⟩

theorem terminal_resolution (h : Terminal x s.board (s.report :: past)) (consecutive : Nat)
    (cls : NoProgressClass) {unblock : Bool} (hunblock : unblock = true → goalId ≠ x)
    (resolution : NoProgressResolution) :
    Terminal x
      (applyResolutionSideEffects s goalId consecutive cls answers unblock resolution).board
      ((applyResolutionSideEffects s goalId consecutive cls answers unblock resolution).report ::
        past) := by
  cases resolution with
  | «continue» => exact h
  | markDone =>
    have hdone : Grows s.report
        { s.report with markedDone := s.report.markedDone ++ [goalId] } :=
      ⟨List.subset_append_left _ _, .refl _, .refl _⟩
    refine (h.grow hdone).setStatus fun hown goal hid => ?_
    exact ⟨_, List.mem_cons_self, by simp [hown, hid]⟩
  | drop reason =>
    have hdropped : Grows s.report { s.report with dropped := s.report.dropped ++ [goalId] } :=
      ⟨.refl _, .refl _, List.subset_append_left _ _⟩
    refine (h.grow hdropped).dropGoal fun hown => ?_
    exact ⟨_, List.mem_cons_self, by simp [hown]⟩
  | heal why => exact terminal_heal h consecutive why hunblock
  | defer blockingRef evidence =>
    have hdeferred : Grows s.report { s.report with deferred := s.report.deferred ++ [goalId] } :=
      ⟨.refl _, List.subset_append_left _ _, .refl _⟩
    refine (h.grow hdeferred).modifyGoal (fun _ => rfl) fun hown goal hid hheld => ?_
    exact ⟨isQuarantined_deferredGoal hheld.marked blockingRef, hheld.finite,
      _, List.mem_cons_self, by simp [deferredGoal, hown, hid]⟩
  | spawnEngineer task why =>
    rw [applyResolutionSideEffects]
    split
    · refine Terminal.noteUnblocked (s := (s.call (.spawnEngineer goalId task)).track _) h hunblock
        id ?_
      exact ⟨.refl _, .refl _, .refl _⟩
    · rw [unblockIf_report]
      exact Terminal.unblockIf (s := (s.call (.spawnEngineer goalId task)).track _) h hunblock
  | escalate blockedReason issueTitle issueBody =>
    refine h.noteEscalated blockedReason issueTitle issueBody _ ?_
    exact ⟨.refl _, .refl _, .refl _⟩
  | surfaceInvestigationFailure cls reason =>
    refine Terminal.noteUnblocked (s := s.track (·.recordSurfacedFailure goalId)) h hunblock _ ?_
    exact ⟨.refl _, .refl _, .refl _⟩
  | quarantineTerminal surfacedCount =>
    let why : NoProgressWhy := ⟨cls, [surfacedEvidence goalId surfacedCount]⟩
    let issue := surfacedFailureEscalationIssue goalId cls surfacedCount
    have hescalated := @Terminal.noteEscalated x goalId s past answers h
      (noProgressBlockedReasonWithWhy consecutive why) issue.1 issue.2 id
      (fun r => { r with quarantined := r.quarantined ++ [goalId] }) ⟨.refl _, .refl _, .refl _⟩
    refine hescalated.modifyGoal quarantinedGoal_id fun _ goal _ hheld => ?_
    unfold quarantinedGoal
    rw [if_pos hheld.marked]
    exact hheld

theorem terminal_screen (h : Terminal x s.board (s.report :: past)) {outcome : ActionOutcome}
    {stalled : String → BreakerState}
    (hstalled : ∀ goalId, Terminal x (stalled goalId).board ((stalled goalId).report :: past)) :
    Terminal x (screenOutcome s outcome stalled).board
      ((screenOutcome s outcome stalled).report :: past) := by
  unfold screenOutcome
  split
  · exact h
  next goalId _ =>
    split
    · split <;> exact h
    · cases hidle : applyStandingIdle s goalId with
      | none => exact hstalled goalId
      | some idled =>
        obtain ⟨goal, -, hidle⟩ := Option.bind_eq_some_iff.mp hidle
        obtain ⟨idle, -, hidle⟩ := Option.bind_eq_some_iff.mp hidle
        cases hidle
        cases idle <;> exact h.grow ⟨.refl _, .refl _, .refl _⟩

theorem terminal_investigatedStep (threshold : Nat) (outcome : ActionOutcome)
    (h : Terminal x s.board (s.report :: past)) :
    Terminal x (investigatedStep threshold s outcome answers).board
      ((investigatedStep threshold s outcome answers).report :: past) := by
  apply terminal_screen h
  intro goalId
  dsimp only
  split
  · exact h
  split
  · exact h
  split
  · exact h.grow ⟨.refl _, .refl _, .refl _⟩
  · exact terminal_resolution (s := s.track (·.recordNoAction goalId)) h _ _ (by simp) _

theorem reinvestigateStep_quarantined (threshold : Nat)
    (h : Terminal x s.board (s.report :: past)) : reinvestigateStep threshold s x answers = s := by
  unfold reinvestigateStep
  split
  · rfl
  next hmarked =>
    have hnone : s.goal? x = none := by
      refine List.find?_eq_none.mpr ?_
      intro goal hgoal hid
      rw [decide_eq_true_eq] at hid
      apply hmarked
      exact List.any_eq_true.mpr ⟨goal, hgoal, by simp [hid, (h.held goal hgoal hid).marked]⟩
    rw [hnone]

theorem terminal_reinvestigateStep (threshold : Nat) (goalId : String)
    (h : Terminal x s.board (s.report :: past)) :
    Terminal x (reinvestigateStep threshold s goalId answers).board
      ((reinvestigateStep threshold s goalId answers).report :: past) := by
  by_cases hown : goalId = x
  · rw [hown, reinvestigateStep_quarantined threshold h]
    exact h
  unfold reinvestigateStep
  split
  · exact h
  split
  · exact h
  split
  · exact h.grow ⟨.refl _, .refl _, .refl _⟩
  next why _ =>
    have hnoted : Terminal x s.board
        ({ s.report with reinvestigated := s.report.reinvestigated ++ [goalId] } :: past) :=
      h.grow ⟨.refl _, .refl _, .refl _⟩
    dsimp only
    split
    · unfold applyReinvestigatedBefore
      split
      · let noted := s.note fun r => { r with reinvestigated := r.reinvestigated ++ [goalId] }
        have hretried : Terminal x (noted.setStatus goalId .notStarted).board
            (noted.report :: past) := Terminal.setStatus (s := noted) hnoted fun h => absurd h hown
        exact hretried.grow ⟨.refl _, .refl _, .refl _⟩
      · exact Terminal.setStatus (s := s.note _) hnoted fun h => absurd h hown
    · let noted := s.note fun r => { r with reinvestigated := r.reinvestigated ++ [goalId] }
      have hresolved := @terminal_resolution x goalId noted past answers hnoted threshold why.cls
        true (fun _ => hown) (resolutionForWhy threshold why
          (s.tracker.guidedRetryUsed goalId) (s.tracker.surfacedFailures goalId))
      split <;> exact hresolved

end Steps

theorem Terminal.opened {x : String} {s : BreakerState} {past : List NoProgressBreakerReport}
    (h : Terminal x s.board past) : Terminal x s.opened.board (s.opened.report :: past) := by
  refine ⟨fun goal hgoal hid => ?_, h.listed.imp_right ?_⟩
  · obtain ⟨hmarked, hfinite, hstatus⟩ := h.held goal hgoal hid
    refine ⟨hmarked, hfinite, ?_⟩
    unfold ParkedBy at hstatus ⊢
    split at hstatus
    · trivial
    · exact hstatus.imp fun _ hreport => ⟨List.mem_cons_of_mem _ hreport.1, hreport.2⟩
    · exact hstatus.imp fun _ hreport => ⟨List.mem_cons_of_mem _ hreport.1, hreport.2⟩
    · exact hstatus.elim
  · exact fun hdropped =>
      hdropped.imp fun _ hreport => ⟨List.mem_cons_of_mem _ hreport.1, hreport.2⟩

theorem terminal_autoClear {x : String} {s : BreakerState} {past : List NoProgressBreakerReport}
    (evidence : EvidenceSource) (h : Terminal x s.board (s.report :: past))
    (hkept : ∀ goal ∈ s.board.active, goal.id = x → autoClears evidence goal = false) :
    Terminal x (autoClear evidence s).board ((autoClear evidence s).report :: past) := by
  have hmapped : Terminal x (autoClear evidence s).board (s.report :: past) := by
    refine h.map (fun goal => by split <;> rfl) ?_
    intro goal hgoal hid hheld
    rw [hkept goal hgoal hid]
    exact hheld
  exact hmapped.grow ⟨.refl _, .refl _, .refl _⟩

theorem terminal_investigated {x : String} {s : BreakerState}
    {past : List NoProgressBreakerReport} (h : Terminal x s.board past)
    (outcomes : List ActionOutcome) (evidence : EvidenceSource) (answers : Nat → Answers)
    (threshold : Nat)
    (hkept : ∀ goal ∈ s.board.active, goal.id = x → autoClears evidence goal = false) :
    let passed := applyNoProgressBreakerInvestigated s outcomes evidence answers threshold
    Terminal x passed.board (passed.report :: past) := by
  have hstart := terminal_autoClear evidence h.opened hkept
  exact stepAll_invariant (P := fun s => Terminal x s.board (s.report :: past)) outcomes
    (fun _ outcome _ _ => terminal_investigatedStep threshold outcome) answers hstart

theorem terminal_reinvestigate {x : String} {s : BreakerState}
    {past : List NoProgressBreakerReport} (h : Terminal x s.board past) (answers : Nat → Answers)
    (threshold : Nat) :
    let passed := reinvestigateBareBlockedGoals s answers threshold
    Terminal x passed.board (passed.report :: past) :=
  stepAll_invariant (P := fun s => Terminal x s.board (s.report :: past)) _
    (fun _ goalId _ _ => terminal_reinvestigateStep threshold goalId) answers h.opened

section Others

variable {x : String} {board : GoalBoard} {reports : List NoProgressBreakerReport}

theorem terminal_sweep (h : Terminal x board reports) {live : Finset String}
    (hassigned : live = ∅ ∨
      ∀ goal ∈ board.active, goal.id = x → isStaleAssignment live goal = false) :
    Terminal x (sweepStaleAssignmentsWithSessions live board) reports := by
  unfold sweepStaleAssignmentsWithSessions
  split
  · exact h
  next hlive =>
    refine h.map (sweptGoal_id live) ?_
    intro goal hgoal hid hheld
    have hassigned : unassigned live goal = goal := by
      rw [unassigned, (hassigned.resolve_left hlive) goal hgoal hid]
      rfl
    unfold sweptGoal
    rw [hassigned]
    dsimp only
    split
    · exact hheld
    · refine ⟨isQuarantined_filter hheld.marked fun ref href => ?_, hheld.finite, hheld.status⟩
      rw [not_isDeadSessionRef href]
      rfl

theorem terminal_prunePrs (h : Terminal x board reports) (repoOf : ActiveGoal → String)
    (openByRepo : String → Option (Nat → Bool)) :
    Terminal x (pruneMergedPrRefsScoped repoOf openByRepo board).1 reports := by
  unfold pruneMergedPrRefsScoped
  dsimp only
  rw [List.map_map]
  refine h.map (fun goal => ?_) fun goal _ _ hheld => ?_
  · dsimp only [Function.comp]
    split <;> rfl
  · dsimp only [Function.comp]
    split
    · exact hheld
    · exact ⟨isQuarantined_filter hheld.marked fun _ => isOpenPrRef_of_isQuarantineRef _,
        hheld.finite, hheld.status⟩

theorem terminal_healStale (h : Terminal x board reports) :
    Terminal x (healStaleNoProgressBlocks board) reports := by
  refine h.map (fun goal => ?_) fun goal _ _ hheld => ?_
  · unfold healedGoal
    split <;> rfl
  · have hfinite : isStaleNoProgressBlock goal = false := by
      simp [isStaleNoProgressBlock, hheld.finite]
    unfold healedGoal
    rw [hfinite]
    exact hheld

theorem terminal_reconcile (h : Terminal x board reports) {persisted : GoalBoard}
    {tombstones : Finset String}
    (hpersisted : ∀ goal ∈ persisted.active, goal.id = x → Held reports goal)
    (hcommitted : (∃ report ∈ reports, x ∈ report.dropped) ∨ x ∉ tombstones ∧
      ∀ goal, contender persisted board x = some goal →
        ¬ Outranked persisted board tombstones goal) :
    Terminal x (reconcile persisted board tombstones) reports := by
  refine ⟨fun goal hgoal hid => ?_, ?_⟩
  · obtain ⟨-, hcontender, -⟩ := mem_reconcile_active.mp hgoal
    rw [contender, Option.or_eq_some_iff] at hcontender
    rcases hcontender with hdaemon | ⟨-, hstored⟩
    · exact h.held goal (mem_of_last hdaemon) hid
    · exact hpersisted goal (mem_of_last hstored) hid
  · rcases hcommitted with hdropped | ⟨htomb, hrank⟩
    · exact .inr hdropped
    refine h.listed.imp_left fun hlisted => ?_
    have hcontender := (@isSome_contender persisted board x).mpr (.inl hlisted)
    obtain ⟨goal, hgoal⟩ := Option.isSome_iff_exists.mp hcontender
    exact mem_activeIds_reconcile.mpr ⟨htomb, goal, hgoal, hrank goal hgoal⟩

theorem terminal_pins (h : Terminal x board reports) {pins : DoneGatePins}
    (hpins : ∀ goal ∈ board.active, goal.id = x → ∀ pin, pins.get? x = some pin →
      (pin.applyTo goal).isPerpetual = false) :
    Terminal x (applyDoneGatePins pins board) reports := by
  refine h.map (fun goal => ?_) fun goal hgoal hid hheld => ?_
  · cases pins.get? goal.id <;> rfl
  · cases hpin : pins.get? goal.id with
    | none => exact hheld
    | some pin =>
      exact ⟨isQuarantined_applyTo hheld.marked pin,
        hpins goal hgoal hid pin (hid ▸ hpin), hheld.status⟩

end Others

/-- A commit is over a stored board that holds the quarantined goal as well. -/
def HeldInStore (x : String) (s : Housekeeping) : HousekeepingEvent → Prop
  | .commit persisted _ _ _ => x ∈ activeIds persisted.board ∧
      ∀ goal ∈ persisted.board.active, goal.id = x → Held s.reports goal
  | _ => True

/-- The goal is assigned to no dead session when the sweep comes, the upstream it was
deferred to has not landed, and a commit neither tombstones it undropped, nor has no
room for it, nor pins a text on it that makes it standing. -/
def KeepsQuarantine (x : String) (s : Housekeeping) : HousekeepingEvent → Prop
  | .sweep live => live = ∅ ∨
      ∀ goal ∈ s.board.active, goal.id = x → isStaleAssignment live goal = false
  | .investigated _ evidence _ _ =>
      ∀ goal ∈ s.board.active, goal.id = x → autoClears evidence goal = false
  | .commit persisted _ tombstones pins =>
      ((∃ report ∈ s.reports, x ∈ report.dropped) ∨ x ∉ tombstones ∧
        ∀ goal, contender persisted.board s.board x = some goal →
          ¬ Outranked persisted.board s.board tombstones goal) ∧
      ∀ goal, contender persisted.board s.board x = some goal → ∀ pin, pins.get? x = some pin →
        (pin.applyTo goal).isPerpetual = false
  | _ => True

theorem terminal_step {x : String} (s : Housekeeping) (event : HousekeepingEvent)
    (hok : HeldInStore x s event ∧ KeepsQuarantine x s event)
    (h : Terminal x s.board s.reports) :
    Terminal x (housekeeping.step s event).board (housekeeping.step s event).reports := by
  obtain ⟨hstored, hkeeps⟩ := hok
  cases event with
  | sweep live => exact terminal_sweep h hkeeps
  | investigated outcomes evidence answers threshold =>
    exact terminal_investigated h outcomes evidence answers threshold hkeeps
  | reinvestigate answers threshold => exact terminal_reinvestigate h answers threshold
  | prunePrs repoOf openByRepo => exact terminal_prunePrs h repoOf openByRepo
  | heal => exact terminal_healStale h
  | commit persisted cycleCount tombstones pins =>
    refine terminal_pins (terminal_reconcile h hstored.2 hkeeps.1) ?_
    intro goal hgoal hid
    obtain ⟨-, hcontender, -⟩ := mem_reconcile_active.mp hgoal
    exact hkeeps.2 goal (hid ▸ hcontender)

/-- A quarantine lasts through every run of the daemon's steps that meet the
condition: the goal keeps its marker, is never started again, and leaves its block only
by a verdict of the breaker. -/
theorem quarantine_lasts (x : String) (s : Housekeeping) (events : List HousekeepingEvent)
    (hlisted : x ∈ activeIds s.board)
    (hquarantined : ∀ goal ∈ s.board.active, goal.id = x →
      isQuarantined goal = true ∧ goal.isPerpetual = false ∧ ∃ reason,
        goal.status = .blocked reason)
    (hstored : ∀ t ∈ housekeeping.trace s events, HeldInStore x t.before t.event)
    (hkeeps : ∀ t ∈ housekeeping.trace s events, KeepsQuarantine x t.before t.event) :
    Terminal x (housekeeping.run s events).board (housekeeping.run s events).reports := by
  have hstart : Terminal x s.board s.reports := by
    refine ⟨fun goal hgoal hid => ?_, .inl hlisted⟩
    obtain ⟨hmarked, hfinite, reason, hstatus⟩ := hquarantined goal hgoal hid
    refine ⟨hmarked, hfinite, ?_⟩
    unfold ParkedBy
    rw [hstatus]
    trivial
  exact housekeeping.invariant_run_of (P := fun s => Terminal x s.board s.reports) terminal_step
    hstart events fun t ht => ⟨hstored t ht, hkeeps t ht⟩

def quarantinedPort (assignedTo : Option String) : Housekeeping where
  cycle :=
    { board := ⟨[{ ActiveGoal.new "port" "Port the parser" 1 with
        status := .blocked "unclear", assignedTo := assignedTo, wipRefs := [quarantineMarker] }],
          []⟩
      tracker := .new, report := {}, calls := [] }
  reports := []

theorem quarantine_lasts_port :
    Terminal "port" (housekeeping.run (quarantinedPort none) [.sweep {"main"}, .heal]).board
      (housekeeping.run (quarantinedPort none) [.sweep {"main"}, .heal]).reports := by
  refine quarantine_lasts "port" (quarantinedPort none) [.sweep {"main"},
    .heal] (by decide) ?_ ?_ ?_
  · simp only [quarantinedPort, Housekeeping.board, List.mem_singleton, forall_eq]
    exact fun _ => ⟨by decide, by decide, _, rfl⟩
  · simp [Machine.trace, HeldInStore]
  · simp [Machine.trace, KeepsQuarantine, quarantinedPort, Housekeeping.board, isStaleAssignment]

/-- The sweep starts a quarantined goal again because the session it was assigned to is
gone. -/
theorem quarantine_swept :
    (∀ goal ∈ (quarantinedPort (some "engineer-1")).board.active,
      isQuarantined goal = true ∧ goal.isPerpetual = false ∧ goal.status = .blocked "unclear") ∧
    (∀ goal ∈ (housekeeping.step (quarantinedPort (some "engineer-1"))
        (.sweep {"main"})).board.active,
      isQuarantined goal = true ∧ goal.status = .notStarted) ∧
    ¬ Terminal "port"
      (housekeeping.step (quarantinedPort (some "engineer-1")) (.sweep {"main"})).board
      (housekeeping.step (quarantinedPort (some "engineer-1")) (.sweep {"main"})).reports := by
  have hswept : ∀ goal ∈ (housekeeping.step (quarantinedPort (some "engineer-1"))
      (.sweep {"main"})).board.active, isQuarantined goal = true ∧ goal.status = .notStarted := by
    decide
  refine ⟨by decide, hswept, fun h => ?_⟩
  obtain ⟨goal, hgoal, hid⟩ : ∃ goal ∈ (housekeeping.step (quarantinedPort (some "engineer-1"))
      (.sweep {"main"})).board.active, goal.id = "port" := by decide
  have hstatus := (h.held goal hgoal hid).status
  unfold ParkedBy at hstatus
  rw [(hswept goal hgoal).2] at hstatus
  exact hstatus

end Simard.Goals
