import Simard.Goals.Departures
import Simard.Goals.Livelock

/-! Standing goals over whole cycles. The breaker and the archive pass leave them on the board; the
gate at the end of a cycle does not ask whether a goal is standing. -/
namespace Simard.Goals
open Simard.Library

def BreakerPass.settle : BreakerPass → ActiveGoal → ActiveGoal
  | .investigated _ evidence _ _, goal =>
      if autoClears evidence goal then resumedGoal goal else goal
  | _, goal => goal

def settleAll (passes : List BreakerPass) (goal : ActiveGoal) : ActiveGoal :=
  passes.foldl (fun goal pass => pass.settle goal) goal

@[simp] theorem isPerpetual_settle (pass : BreakerPass) (goal : ActiveGoal) :
    (pass.settle goal).isPerpetual = goal.isPerpetual := by
  cases pass <;> simp only [BreakerPass.settle]
  split <;> rfl

@[simp] theorem id_settle (pass : BreakerPass) (goal : ActiveGoal) :
    (pass.settle goal).id = goal.id := by
  cases pass <;> simp only [BreakerPass.settle]
  split <;> rfl

theorem status_settle (pass : BreakerPass) (goal : ActiveGoal) :
    (pass.settle goal).status = goal.status ∨ (pass.settle goal).status = .notStarted := by
  cases pass <;> simp only [BreakerPass.settle, true_or]
  split
  · exact .inr rfl
  · exact .inl rfl

section Passes

variable {s : BreakerState} {goal : ActiveGoal}

def Standing (s : BreakerState) (goal : ActiveGoal) : Prop :=
  s.entries goal.id = [goal] ∧ goal.isPerpetual

theorem Standing.goal? (h : Standing s goal) : s.goal? goal.id = some goal := by
  rw [s.goal?_eq, h.1]
  rfl

theorem Standing.of_entries {s' : BreakerState} (h : Standing s goal)
    (hentries : s'.entries goal.id = s.entries goal.id) : Standing s' goal :=
  ⟨hentries.trans h.1, h.2⟩

theorem Standing.idle (h : Standing s goal) : (applyStandingIdle s goal.id).isSome := by
  unfold applyStandingIdle classifyStandingIdle
  rw [h.goal?]
  simp only [Option.bind_eq_bind, Option.bind_some, h.2, if_true]
  split <;> rfl

theorem entries_idle {s' : BreakerState} {goalId x : String}
    (h : applyStandingIdle s goalId = some s') : s'.entries x = s.entries x := by
  obtain ⟨goal, -, h⟩ := Option.bind_eq_some_iff.mp h
  obtain ⟨idle, -, h⟩ := Option.bind_eq_some_iff.mp h
  cases h
  cases idle <;> rfl

theorem Standing.screen (h : Standing s goal) {outcome : ActionOutcome}
    {stalled : String → BreakerState}
    (hother : ∀ goalId, goal.id ≠ goalId → Standing (stalled goalId) goal) :
    Standing (screenOutcome s outcome stalled) goal := by
  unfold screenOutcome
  split
  · exact h
  next goalId _ =>
    split
    · split
      · exact h.of_entries rfl
      · exact h
    · cases hidle : applyStandingIdle s goalId with
      | some idled => exact h.of_entries (entries_idle hidle)
      | none =>
        apply hother
        rintro rfl
        have := h.idle
        rw [hidle] at this
        cases this

theorem Standing.untouched {s' : BreakerState} (h : Standing s goal)
    (hu : Untouched goal.id s s') : Standing s' goal :=
  h.of_entries hu.entries

theorem untouched_baseResolution {x goalId : String} (hne : x ≠ goalId) (answers : Answers)
    (resolution : NoProgressResolution) :
    (applyBaseResolution s goalId answers resolution).entries x = s.entries x := by
  have hself : Untouched x s s := .refl
  unfold applyBaseResolution
  split
  · exact ((hself.setStatus _ hne).note _).entries
  · exact ((hself.dropGoal hne).note _).entries
  · exact ((hself.escalate hne _ _ _ answers).note _).entries
  · rfl

theorem Standing.breakerStep (h : Standing s goal) (evidence : EvidenceSource) (threshold : Nat)
    (outcome : ActionOutcome) (answers : Answers) :
    Standing (breakerStep evidence threshold s outcome answers) goal := by
  apply h.screen
  intro goalId hne
  split
  · exact h.of_entries rfl
  · dsimp only
    exact h.of_entries ((untouched_baseResolution hne answers _).trans rfl)

theorem Standing.investigatedStep (h : Standing s goal) (threshold : Nat)
    (outcome : ActionOutcome) (answers : Answers) :
    Standing (investigatedStep threshold s outcome answers) goal := by
  apply h.screen
  intro goalId hne
  have hcounted : Untouched goal.id s (s.track (·.recordNoAction goalId)) :=
    Untouched.refl.track _ (s.tracker.same_recordNoAction hne)
  dsimp only
  split
  · exact h.untouched hcounted
  split
  · exact h.untouched (hcounted.resetCount hne)
  split
  · exact h.untouched (hcounted.note _)
  · exact h.untouched (hcounted.resolution hne _ _ _ _ _)

theorem Standing.reinvestigateStep (h : Standing s goal) {goalId : String} (hne : goal.id ≠ goalId)
    (threshold : Nat) (answers : Answers) :
    Standing (reinvestigateStep threshold s goalId answers) goal := by
  have hself : Untouched goal.id s s := .refl
  unfold Goals.reinvestigateStep
  split
  · exact h
  split
  · exact h
  split
  · exact h.untouched (hself.note _)
  next why _ =>
    have hnoted := hself.note fun r => { r with reinvestigated := r.reinvestigated ++ [goalId] }
    dsimp only
    split
    · unfold applyReinvestigatedBefore
      split
      · exact h.untouched ((hnoted.setStatus _ hne).note _)
      · exact h.untouched (hnoted.setStatus _ hne)
    · have hresolved := hnoted.resolution hne threshold why.cls answers true
        (resolutionForWhy threshold why (s.tracker.guidedRetryUsed goalId)
          (s.tracker.surfacedFailures goalId))
      split
      · exact (h.untouched hresolved).of_entries rfl
      · exact h.untouched hresolved

theorem Standing.autoClear (h : Standing s goal) (evidence : EvidenceSource) :
    Standing (autoClear evidence s) (if autoClears evidence goal then
      resumedGoal goal else goal) := by
  have hid (goal : ActiveGoal) :
      (if autoClears evidence goal then resumedGoal goal else goal).id = goal.id := by
    split <;> rfl
  have hentries : (Goals.autoClear evidence s).entries goal.id =
      (s.entries goal.id).map fun goal =>
        if autoClears evidence goal then resumedGoal goal else goal := by
    change (s.board.active.map fun entry =>
      if autoClears evidence entry then resumedGoal entry else entry).filter (·.id = goal.id) = _
    rw [List.filter_map]
    simp only [Function.comp_def, hid]
    rfl
  refine ⟨?_, ?_⟩
  · rw [hid, hentries, h.1]
    rfl
  · split
    · exact h.2
    · exact h.2

theorem Standing.not_bareBlocked (h : Standing s goal) : goal.id ∉ bareBlockedIds s.board := by
  intro hbare
  obtain ⟨entry, hentry, hblocked⟩ := List.mem_filterMap.mp hbare
  split at hblocked
  · cases hblocked
  next hfinite =>
    have hid : entry.id = goal.id := by
      split at hblocked
      · split at hblocked
        · exact Option.some_inj.mp hblocked
        · cases hblocked
      · cases hblocked
    have hsame : entry ∈ s.entries goal.id := by simp [BreakerState.entries, hentry, hid]
    rw [h.1, List.mem_singleton] at hsame
    exact hfinite (hsame ▸ h.2)

theorem Standing.pass (h : Standing s goal) (pass : BreakerPass) :
    Standing (pass.run s) (pass.settle goal) := by
  have hopened : Standing s.opened goal := h.of_entries rfl
  cases pass with
  | withThreshold outcomes evidence answers threshold =>
    have hsteps := stepAll_invariant (P := (Standing · goal)) outcomes
      (fun s outcome _ answers hs => hs.breakerStep evidence threshold outcome answers)
        answers hopened
    exact hsteps.of_entries rfl
  | investigated outcomes evidence answers threshold =>
    have hsteps := stepAll_invariant (P := (Standing · _)) outcomes
      (fun s outcome _ answers hs => hs.investigatedStep threshold outcome answers) answers
      (hopened.autoClear evidence)
    exact hsteps.of_entries rfl
  | reinvestigate answers threshold =>
    have hother : ∀ goalId ∈ bareBlockedIds s.board, goal.id ≠ goalId := by
      rintro goalId hgoalId rfl
      exact h.not_bareBlocked hgoalId
    have hsteps := stepAll_invariant (P := (Standing · goal)) (bareBlockedIds s.board)
      (fun s goalId hgoalId answers hs =>
        hs.reinvestigateStep (hother goalId hgoalId) threshold answers) answers hopened
    exact hsteps.of_entries rfl

theorem Standing.passes (h : Standing s goal) (passes : List BreakerPass) :
    Standing (runPasses s passes).1 (settleAll passes goal) := by
  induction passes generalizing s goal with
  | nil => exact h
  | cons pass rest ih => exact ih (h.pass pass)

end Passes

@[simp] theorem id_settleAll (passes : List BreakerPass) (goal : ActiveGoal) :
    (settleAll passes goal).id = goal.id := by
  induction passes generalizing goal with
  | nil => rfl
  | cons pass rest ih => exact (ih (pass.settle goal)).trans (id_settle pass goal)

theorem status_settleAll (passes : List BreakerPass) (goal : ActiveGoal) :
    (settleAll passes goal).status = goal.status ∨
      (settleAll passes goal).status = .notStarted := by
  induction passes generalizing goal with
  | nil => exact .inl rfl
  | cons pass rest ih =>
    rcases ih (pass.settle goal) with hsame | hback
    · exact (status_settle pass goal).imp hsame.trans hsame.trans
    · exact .inr hback

@[simp] theorem id_renewed (goal : ActiveGoal) : goal.renewed.id = goal.id := by
  unfold ActiveGoal.renewed
  split <;> rfl

theorem status_renewed (goal : ActiveGoal) : goal.renewed.status ≠ .completed := by
  unfold ActiveGoal.renewed hasDominantProgress
  split
  next hterminal => simp [ActiveGoal.rollToNewCycle]
  next hopen =>
    intro hcompleted
    rw [hcompleted] at hopen
    exact hopen rfl

theorem Archives.renewed {before retained archived : List ActiveGoal} {goal : ActiveGoal}
    (h : Archives before retained archived) (hgoal : goal ∈ before) (hstanding : goal.isPerpetual) :
    goal.renewed ∈ retained := by
  induction h with
  | nil => cases hgoal
  | keep hid hkept hrest ih =>
    rcases List.mem_cons.mp hgoal with rfl | hlater
    · exact hkept hstanding ▸ List.mem_cons_self
    · exact List.mem_cons_of_mem _ (ih hlater)
  | archive hfinite hrest ih =>
    rcases List.mem_cons.mp hgoal with rfl | hlater
    · rw [hstanding] at hfinite
      cases hfinite
    · exact ih hlater

theorem standing_of_nodup {s : BreakerState} {goal : ActiveGoal} (h : (activeIds s.board).Nodup)
    (hgoal : goal ∈ s.board.active) (hstanding : goal.isPerpetual) : Standing s goal := by
  refine ⟨?_, hstanding⟩
  have hmem : goal ∈ s.entries goal.id := by simp [BreakerState.entries, hgoal]
  have hids : ((s.entries goal.id).map (·.id)).Nodup := h.sublist (List.filter_sublist.map _)
  have hsame (entry : ActiveGoal) : entry ∈ s.entries goal.id ↔ entry ∈ [goal] := by
    rw [List.mem_singleton]
    constructor
    · intro hentry
      have hid : entry.id = goal.id := by simpa using (List.mem_filter.mp hentry).2
      exact List.inj_on_of_nodup_map hids hentry hmem hid
    · rintro rfl
      exact hmem
  exact List.perm_singleton.mp
    ((List.perm_ext_iff_of_nodup hids.of_map (List.nodup_singleton goal)).mpr hsame)

section Cycle

variable {files : BoardFiles} {input : CycleInput} {goal : ActiveGoal}

theorem uniqueIds_cycleStart (h : UniqueIds files.state.board) : UniqueIds (cycleStart files) := by
  have hactive : (activeIds (cycleStart files)).Sublist (activeIds files.state.board) := by
    rw [activeIds_cycleStart]
    exact List.filter_sublist.map _
  have hbacklog : (backlogIds (cycleStart files)).Sublist (backlogIds files.state.board) :=
    List.filter_sublist.map _
  refine ⟨h.active.sublist hactive, h.backlog.sublist hbacklog, ?_, ?_⟩
  · intro id hid hback
    exact h.disjoint id (hactive.subset hid) (hbacklog.subset hback)
  · have hlength := hactive.length_le
    simp only [activeIds, List.length_map] at hlength
    exact hlength.trans h.capped

def curatedBoard (files : BoardFiles) (input : CycleInput) : GoalBoard :=
  promoteFromBacklog (archiveCompletedEvidenceAware input.gateEnabled input.archiving
    (runPasses (openState files) input.passes).1.board).1

def settledGoal (input : CycleInput) (goal : ActiveGoal) : ActiveGoal :=
  (settleAll input.passes goal).renewed

theorem closingOf_eq : closingOf files input =
    closeCycle (activeIds (cycleStart files)) input.sweeping (curatedBoard files input) := rfl

theorem shed_stored :
    ∃ left, Shed (cycleStart files) (archiveCompletedEvidenceAware input.gateEnabled input.archiving
      (runPasses (openState files) input.passes).1.board).1 left :=
  ⟨_, (shed_runPasses (openState files) input.passes).trans
    (shed_archive input.gateEnabled input.archiving _)⟩

theorem uniqueIds_curatedBoard (h : UniqueIds files.state.board) :
    UniqueIds (curatedBoard files input) := by
  obtain ⟨left, hshed⟩ := @shed_stored files input
  obtain ⟨hnodup, hcapped⟩ := uniqueIds_iff.mp (uniqueIds_cycleStart h)
  have hlength := hshed.active.length_le
  simp only [activeIds, List.length_map] at hlength
  refine uniqueIds_iff.mpr ⟨?_, length_promoteFromBacklog (hlength.trans hcapped)⟩
  exact (listings_promoteFromBacklog _).nodup_iff.mpr
    (hnodup.sublist (hshed.active.append hshed.backlog))

theorem backlogIds_curatedBoard {id : String} (h : id ∈ backlogIds (curatedBoard files input)) :
    id ∈ backlogIds (cycleStart files) := by
  obtain ⟨left, hshed⟩ := @shed_stored files input
  unfold curatedBoard at h
  rw [promoteFromBacklog_eq] at h
  obtain ⟨item, hitem, rfl⟩ := List.mem_map.mp h
  have hsorted : item ∈ (sortBacklog _).backlog := List.mem_of_mem_drop hitem
  exact hshed.backlog.subset (List.mem_map_of_mem (List.mem_mergeSort.mp hsorted))

theorem settledGoal_curated (h : UniqueIds files.state.board)
    (hgoal : goal ∈ (cycleStart files).active) (hstanding : goal.isPerpetual) :
    settledGoal input goal ∈ (curatedBoard files input).active := by
  have hopen : Standing (openState files) goal :=
    standing_of_nodup (uniqueIds_cycleStart h).active hgoal hstanding
  have hpassed := hopen.passes input.passes
  have hmem : settleAll input.passes goal ∈
      (runPasses (openState files) input.passes).1.board.active :=
    List.mem_of_find?_eq_some hpassed.goal?
  unfold curatedBoard
  rw [promoteFromBacklog_eq]
  exact List.mem_append_left _
    ((archives_evidenceAware input.gateEnabled input.archiving _).renewed hmem hpassed.2)

@[simp] theorem id_settledGoal : (settledGoal input goal).id = goal.id := by
  unfold settledGoal
  rw [id_renewed, id_settleAll]

theorem mem_newlyDone_iff {preCycleActiveIds : List String} {evidence : Option EvidenceSource}
    {board : GoalBoard} (hnodup : (activeIds board).Nodup) (hgoal : goal ∈ board.active) :
    goal.id ∈ (closeCycle preCycleActiveIds evidence board).newlyDone ↔
      ∃ source, evidence = some source ∧ isNewlyDone source goal := by
  cases evidence with
  | none => simp [closeCycle]
  | some source =>
    simp only [Option.some.injEq, exists_eq_left']
    change goal.id ∈ (board.active.filter (isNewlyDone source)).map (·.id) ↔ _
    constructor
    · intro hdone
      obtain ⟨entry, hentry, hid⟩ := List.mem_map.mp hdone
      obtain ⟨hlisted, hcomplete⟩ := List.mem_filter.mp hentry
      exact List.inj_on_of_nodup_map hnodup hlisted hgoal hid ▸ hcomplete
    · intro hcomplete
      exact List.mem_map_of_mem (List.mem_filter.mpr ⟨hgoal, hcomplete⟩)

/-- The evidence of a cycle does not complete a standing goal. -/
def Unfinished (files : BoardFiles) (input : CycleInput) : Prop :=
  ∀ goal ∈ (cycleStart files).active, goal.isPerpetual → ∀ evidence,
    input.sweeping = some evidence → (evaluate evidence (settledGoal input goal)).isComplete = false

theorem newlyDone_closingOf (h : UniqueIds files.state.board)
    (hgoal : goal ∈ (cycleStart files).active) (hstanding : goal.isPerpetual) :
    goal.id ∈ (closingOf files input).newlyDone ↔
      ∃ evidence, input.sweeping = some evidence ∧
        (evaluate evidence (settledGoal input goal)).isComplete := by
  have hcurated : settledGoal input goal ∈ (curatedBoard files input).active :=
    settledGoal_curated h hgoal hstanding
  rw [closingOf_eq, ← @id_settledGoal input goal,
    mem_newlyDone_iff (uniqueIds_curatedBoard h).active hcurated]
  refine exists_congr fun evidence => and_congr_right fun _ => ?_
  unfold isNewlyDone
  simp [settledGoal, status_renewed]

theorem live_contender {id : String} (h : UniqueIds files.state.board)
    (hlive : id ∉ files.tombstones ∪ (closingOf files input).tombstones.toFinset)
    (hsome : (contender files.state.board (closingOf files input).board id).isSome) :
    id ∈ activeIds (closingOf files input).board := by
  rw [Finset.mem_union, List.mem_toFinset, not_or] at hlive
  rcases isSome_contender.mp hsome with hactive | hstored
  · exact hactive
  · have hstart := mem_activeIds_cycleStart.mpr ⟨hstored, hlive.1⟩
    by_contra hinactive
    apply hlive.2
    rw [closingOf_eq, mem_tombstones_closeCycle, ← closingOf_eq]
    refine .inl ⟨hstart, ?_⟩
    rw [listings, List.mem_append, not_or]
    refine ⟨hinactive, ?_⟩
    rw [closingOf_eq, backlogIds_closeCycle]
    exact fun hback => (uniqueIds_cycleStart h).disjoint id hstart (backlogIds_curatedBoard hback)

theorem length_closingOf (h : UniqueIds files.state.board) :
    (closingOf files input).board.active.length ≤ maxActiveGoals := by
  have hcapped : (curatedBoard files input).active.length ≤ maxActiveGoals :=
    (uniqueIds_curatedBoard h).capped
  refine le_trans ?_ hcapped
  rw [closingOf_eq]
  unfold closeCycle
  cases input.sweeping with
  | none => exact List.length_filter_le _ _
  | some evidence =>
    refine (List.length_filter_le _ _).trans ?_
    simp [sweepDoneGoals]

theorem daemonCycle_eq : ∃ pins pins', daemonCycle files input =
    { state := files.state.commit (closingOf files input).board
        (runPasses (openState files) input.passes).1.tracker input.cycleCount
        (files.tombstones ∪ (closingOf files input).tombstones.toFinset) pins
      tombstones := files.tombstones ∪ (closingOf files input).tombstones.toFinset
      pins := pins' } :=
  exec_commitCycle _ _ _ _ files

theorem tombstones_daemonCycle : (daemonCycle files input).tombstones =
    files.tombstones ∪ (closingOf files input).tombstones.toFinset := by
  obtain ⟨pins, pins', hcycle⟩ := @daemonCycle_eq files input
  rw [hcycle]

theorem activeIds_daemonCycle : activeIds (daemonCycle files input).state.board =
    activeIds (reconcile files.state.board (closingOf files input).board
      (daemonCycle files input).tombstones) := by
  obtain ⟨pins, pins', hcycle⟩ := @daemonCycle_eq files input
  rw [hcycle]
  exact activeIds_applyDoneGatePins pins _

theorem uniqueIds_daemonCycle : UniqueIds (daemonCycle files input).state.board := by
  obtain ⟨pins, pins', hcycle⟩ := @daemonCycle_eq files input
  rw [hcycle]
  refine uniqueIds_iff.mpr ⟨?_, ?_⟩
  · change (listings (applyDoneGatePins pins _)).Nodup
    rw [listings_applyDoneGatePins]
    exact nodup_listings_reconcile
  · change (List.map _ (reconcile _ _ _).active).length ≤ maxActiveGoals
    rw [List.length_map]
    exact length_keepFirst_le _ _ _

theorem active_daemonCycle (h : UniqueIds files.state.board) {id : String}
    (hactive : id ∈ activeIds (closingOf files input).board)
    (hlive : id ∉ (daemonCycle files input).tombstones) :
    id ∈ activeIds (daemonCycle files input).state.board := by
  have hfew : (activeIds (closingOf files input).board).toFinset.card ≤ maxActiveGoals := by
    refine (List.toFinset_card_le _).trans ?_
    rw [activeIds, List.length_map]
    exact length_closingOf h
  obtain ⟨goal, hgoal⟩ := Option.isSome_iff_exists.mp
    ((@isSome_contender files.state.board (closingOf files input).board id).mpr (.inl hactive))
  obtain rfl := contender_id hgoal
  rw [activeIds_daemonCycle]
  refine mem_activeIds_reconcile.mpr ⟨hlive, goal, hgoal, ?_⟩
  refine not_outranked_of_few hfew (fun id hid hsome => ?_) hlive hgoal
  rw [tombstones_daemonCycle] at hid
  exact List.mem_toFinset.mpr (live_contender h hid hsome)

end Cycle

def cycles : Machine BoardFiles CycleInput := ⟨daemonCycle⟩

/-- Standing goals of the loaded board are active after the commit, are not tombstoned, and the
breaker did not block them in any of its passes. -/
def StandingKept (t : Machine.Transition BoardFiles CycleInput) : Prop :=
  ∀ goal ∈ (cycleStart t.before).active, goal.isPerpetual →
    goal.id ∈ activeIds t.after.state.board ∧ goal.id ∉ t.after.tombstones ∧
      ∀ done, done <+: t.event.passes →
        ∀ entry ∈ (runPasses (openState t.before) done).1.board.active, entry.id = goal.id →
          ∀ reason, entry.status = .blocked reason → goal.status = .blocked reason

section Steps

variable {files : BoardFiles} {input : CycleInput} {goal : ActiveGoal}

theorem not_blocked_by_passes (h : UniqueIds files.state.board)
    (hgoal : goal ∈ (cycleStart files).active) (hstanding : goal.isPerpetual)
    (passes : List BreakerPass) {entry : ActiveGoal}
    (hentry : entry ∈ (runPasses (openState files) passes).1.board.active)
    (hid : entry.id = goal.id) {reason : String} (hblocked : entry.status = .blocked reason) :
    goal.status = .blocked reason := by
  have hopen : Standing (openState files) goal :=
    standing_of_nodup (uniqueIds_cycleStart h).active hgoal hstanding
  have hpassed := hopen.passes passes
  have hentries :
      entry ∈ (runPasses (openState files) passes).1.entries (settleAll passes goal).id :=
    List.mem_filter.mpr ⟨hentry, by simpa using hid⟩
  rw [hpassed.1, List.mem_singleton] at hentries
  subst hentries
  rcases status_settleAll passes goal with hsame | hback
  · rw [← hsame, hblocked]
  · rw [hback] at hblocked
    cases hblocked

theorem standingKept_iff (h : UniqueIds files.state.board) :
    StandingKept ⟨files, input, daemonCycle files input⟩ ↔ Unfinished files input := by
  constructor
  · intro hkept goal hgoal hstanding evidence hsweeping
    by_contra hcomplete
    have hdone : goal.id ∈ (closingOf files input).newlyDone :=
      (newlyDone_closingOf h hgoal hstanding).mpr
        ⟨evidence, hsweeping, Bool.eq_true_of_not_eq_false hcomplete⟩
    apply (hkept goal hgoal hstanding).2.1
    change goal.id ∈ (daemonCycle files input).tombstones
    rw [tombstones_daemonCycle, Finset.mem_union, List.mem_toFinset, closingOf_eq,
      mem_tombstones_closeCycle]
    exact .inr (.inr hdone)
  · intro hunfinished goal hgoal hstanding
    have hopen : goal.id ∉ (closingOf files input).newlyDone := by
      rw [newlyDone_closingOf h hgoal hstanding]
      rintro ⟨evidence, hsweeping, hcomplete⟩
      rw [hunfinished goal hgoal hstanding evidence hsweeping] at hcomplete
      cases hcomplete
    have hactive : goal.id ∈ activeIds (closingOf files input).board := by
      rw [closingOf_eq, mem_activeIds_closeCycle, ← closingOf_eq]
      refine ⟨?_, hopen⟩
      rw [← @id_settledGoal input goal]
      exact List.mem_map_of_mem (settledGoal_curated h hgoal hstanding)
    have hlive : goal.id ∉ (daemonCycle files input).tombstones := by
      rw [tombstones_daemonCycle, Finset.mem_union, List.mem_toFinset, closingOf_eq,
        mem_tombstones_closeCycle, ← closingOf_eq]
      rintro (hold | ⟨-, hgone⟩ | hdone)
      · exact (mem_activeIds_cycleStart.mp (List.mem_map_of_mem hgoal)).2 hold
      · exact hgone (List.mem_append_left _ hactive)
      · exact hopen hdone
    exact ⟨active_daemonCycle h hactive hlive, hlive, fun done _ entry hentry hid reason =>
      not_blocked_by_passes h hgoal hstanding done hentry hid⟩

end Steps

/-- Standing goals outlive every cycle of a run exactly if no evidence of the run completes one. -/
theorem standing_goals_kept_iff (files : BoardFiles) (h : UniqueIds files.state.board)
    (inputs : List CycleInput) :
    (∀ t ∈ cycles.trace files inputs, StandingKept t) ↔
      ∀ t ∈ cycles.trace files inputs, Unfinished t.before t.event := by
  have hstep (files : BoardFiles) (input : CycleInput) (hfiles : UniqueIds files.state.board) :
      UniqueIds (cycles.step files input).state.board ∧
        StandingKept ⟨files, input, cycles.step files input⟩ ↔ Unfinished files input :=
    (and_iff_right uniqueIds_daemonCycle).trans (standingKept_iff hfiles)
  rw [← cycles.throughout_step_iff (P := fun files => UniqueIds files.state.board) hstep h inputs]
  refine forall₂_congr fun t ht => (and_iff_right ?_).symm
  obtain ⟨left, right, -, -, hafter⟩ := cycles.mem_trace ht
  rw [hafter]
  exact uniqueIds_daemonCycle

def standingFiles : BoardFiles :=
  ⟨⟨⟨[.new "watch" "A standing goal" 1], []⟩, .new, 0⟩, ∅, BTreeMap.empty⟩

/-- A cycle whose only work is the gate, with the pull request and the issue of every goal closed
or not. -/
def gateInput (closed : Bool) : CycleInput :=
  let evidence : EvidenceSource := ⟨fun _ => .ok closed, fun _ => .ok closed, fun _ => .ok true,
    fun _ => .ok true, fun _ => .ok .none⟩
  ⟨[], true, evidence, some evidence, 1⟩

theorem standingFiles_unique : UniqueIds standingFiles.state.board :=
  uniqueIds_iff.mpr (by decide)

theorem standing_goal_kept :
    UniqueIds standingFiles.state.board ∧
      StandingKept ⟨standingFiles, gateInput false,
        daemonCycle standingFiles (gateInput false)⟩ := by
  refine ⟨standingFiles_unique, ?_⟩
  refine (standing_goals_kept_iff standingFiles standingFiles_unique [gateInput false]).mpr ?_ _
    List.mem_cons_self
  intro t ht goal hgoal _ evidence hevidence
  obtain rfl := List.mem_singleton.mp ht
  cases hevidence
  rw [Bool.eq_false_iff, ne_eq, evaluate_isComplete]
  rintro ⟨hmerged, -⟩
  cases hmerged

/-- A merged pull request and a closed issue end a standing goal. -/
theorem standing_goal_ended :
    UniqueIds standingFiles.state.board ∧
      (cycleStart standingFiles).active.any (fun goal => goal.id = "watch" && goal.isPerpetual) ∧
      "watch" ∉ activeIds (daemonCycle standingFiles (gateInput true)).state.board ∧
      "watch" ∈ (daemonCycle standingFiles (gateInput true)).tombstones ∧
      ¬ StandingKept ⟨standingFiles, gateInput true,
        daemonCycle standingFiles (gateInput true)⟩ := by
  have hgone : "watch" ∉ activeIds (daemonCycle standingFiles (gateInput true)).state.board := by
    decide +kernel
  refine ⟨standingFiles_unique, by decide +kernel, hgone, by decide +kernel, ?_⟩
  intro hkept
  exact hgone (hkept (.new "watch" "A standing goal" 1) (by decide) (by decide)).1

end Simard.Goals
