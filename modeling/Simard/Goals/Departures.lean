import Simard.Goals.DaemonCycle
import Simard.Goals.OperatorAdds
import Simard.Library.Lists

/-! Why goals are tombstoned at the end of a cycle. A goal that was on the board the cycle worked on
leaves it by an archive, a drop or the gate; a goal that never came onto that board leaves it for no
reason, and is tombstoned all the same. -/
namespace Simard.Goals
open Simard.Library

section Close

variable {preCycleActiveIds : List String} {evidence : Option EvidenceSource} {board : GoalBoard}
  {id : String}

theorem newlyDone_closeCycle (h : id ∈ (closeCycle preCycleActiveIds evidence board).newlyDone) :
    id ∈ activeIds board := by
  cases evidence with
  | none => cases h
  | some evidence => exact (List.filter_sublist.map _).subset h

theorem mem_activeIds_closeCycle :
    id ∈ activeIds (closeCycle preCycleActiveIds evidence board).board ↔
      id ∈ activeIds board ∧ id ∉ (closeCycle preCycleActiveIds evidence board).newlyDone := by
  cases evidence with
  | none => simp [closeCycle, activeIds]
  | some evidence =>
    have hswept : activeIds (sweepDoneGoals evidence board).1 = activeIds board := by
      simp only [activeIds, sweepDoneGoals, List.map_map]
      apply List.map_congr_left
      intro goal _
      dsimp only [Function.comp_apply]
      split <;> rfl
    change id ∈ ((sweepDoneGoals evidence board).1.active.filter _).map _ ↔ _
    rw [← hswept, activeIds, List.mem_map, List.mem_map]
    simp only [List.mem_filter, decide_eq_true_eq]
    constructor
    · rintro ⟨goal, ⟨hgoal, hopen⟩, rfl⟩
      exact ⟨⟨goal, hgoal, rfl⟩, hopen⟩
    · rintro ⟨⟨goal, hgoal, rfl⟩, hopen⟩
      exact ⟨goal, ⟨hgoal, hopen⟩, rfl⟩

theorem backlogIds_closeCycle :
    backlogIds (closeCycle preCycleActiveIds evidence board).board = backlogIds board := by
  cases evidence <;> rfl

theorem mem_tombstones_closeCycle :
    id ∈ (closeCycle preCycleActiveIds evidence board).tombstones ↔
      (id ∈ preCycleActiveIds ∧
        id ∉ listings (closeCycle preCycleActiveIds evidence board).board) ∨
      id ∈ (closeCycle preCycleActiveIds evidence board).newlyDone := by
  unfold closeCycle listings
  dsimp only
  simp only [List.mem_append, List.mem_filter, decide_eq_true_eq, not_or]

end Close

theorem activeIds_on (edit : GoalEdit) (board : GoalBoard) :
    activeIds (edit.on board) = activeIds board := by
  unfold activeIds GoalEdit.on
  apply List.ext_getElem
  · simp
  · intro i _ _
    simp [edit.keepsId]

namespace Shed

variable {before after last : GoalBoard} {dropped later : List String}

theorem trans (h : Shed before after dropped) (h' : Shed after last later) :
    Shed before last (dropped ++ later) where
  active := h'.active.trans h.active
  backlog := h'.backlog.trans h.backlog
  activeLeft id hid := by
    rcases h.activeLeft id hid with hkept | hdropped
    · exact (h'.activeLeft id hkept).imp_right (List.mem_append_right _)
    · exact .inr (List.mem_append_left _ hdropped)
  backlogLeft id hid := by
    rcases h.backlogLeft id hid with hkept | hdropped
    · exact (h'.backlogLeft id hkept).imp_right (List.mem_append_right _)
    · exact .inr (List.mem_append_left _ hdropped)
  known id hid := by
    rcases List.mem_append.mp hid with hnow | hlater
    · exact h.known id hnow
    · exact h.active.subset (h'.known id hlater)

theorem of_edits {edit edit' : GoalEdit} (h : Shed (edit.on before) after dropped) :
    Shed before (edit'.on after) dropped := by
  obtain ⟨hactive, hbacklog, hactiveLeft, hbacklogLeft, hknown⟩ := h
  rw [activeIds_on] at hactive hactiveLeft hknown
  refine ⟨?_, hbacklog, ?_, hbacklogLeft, hknown⟩
  · rwa [activeIds_on]
  · rwa [activeIds_on]

theorem listed (h : Shed before after dropped) {id : String} (hid : id ∈ listings after) :
    id ∈ listings before :=
  (h.active.append h.backlog).subset hid

theorem left (h : Shed before after dropped) {id : String} (hid : id ∈ listings before) :
    id ∈ listings after ∨ id ∈ dropped := by
  rcases List.mem_append.mp hid with hactive | hbacklog
  · exact (h.activeLeft id hactive).imp_left (List.mem_append_left _)
  · exact (h.backlogLeft id hbacklog).imp_left (List.mem_append_right _)

end Shed

theorem active_promoteFromBacklog {board : GoalBoard} {id : String} (h : id ∈ activeIds board) :
    id ∈ activeIds (promoteFromBacklog board) := by
  rw [promoteFromBacklog_eq, activeIds, List.map_append]
  exact List.mem_append_left _ h

section Cycle

variable (files : BoardFiles) (opening : OpeningInput) (input : CycleInput)

def workingBoard : GoalBoard := openedBoard opening files.tombstones (cycleStart files)

def archivedBoard : GoalBoard :=
  let passed := (runPasses { openState files with
    board := opening.act.on (workingBoard files opening) } input.passes).1
  (archiveCompletedEvidenceAware input.gateEnabled input.archiving
    (opening.verify.on passed.board)).1

theorem closing_runCycle : (runCycle files opening input).closing =
    closeCycle (activeIds (cycleStart files)) input.sweeping
      (promoteFromBacklog (archivedBoard files opening input)) := rfl

theorem shed_cycle :
    Shed (workingBoard files opening) (archivedBoard files opening input)
      ((runCycle files opening input).dropped ++ (runCycle files opening input).archived) := by
  have hpasses := shed_runPasses { openState files with
    board := opening.act.on (workingBoard files opening) } input.passes
  exact hpasses.of_edits.trans (shed_archive input.gateEnabled input.archiving _)

variable {files opening input} {id : String}

theorem vanished_runCycle : id ∉ (runCycle files opening input).vanished := by
  intro hvanished
  obtain ⟨hopened, hlost⟩ := List.mem_filter.mp hvanished
  rw [decide_eq_true_eq] at hlost
  rcases (shed_cycle files opening input).activeLeft id hopened with hkept | hleft
  · exact hlost.1 (active_promoteFromBacklog hkept)
  · rcases List.mem_append.mp hleft with hdropped | harchived
    · exact hlost.2.2 hdropped
    · exact hlost.2.1 harchived

theorem mem_listings_closing :
    id ∈ listings (runCycle files opening input).closing.board ↔
      (id ∈ activeIds (promoteFromBacklog (archivedBoard files opening input)) ∧
        id ∉ (runCycle files opening input).closing.newlyDone) ∨
      id ∈ backlogIds (promoteFromBacklog (archivedBoard files opening input)) := by
  rw [closing_runCycle, listings, List.mem_append, mem_activeIds_closeCycle, backlogIds_closeCycle]

theorem listed_closing (h : id ∈ listings (runCycle files opening input).closing.board) :
    id ∈ listings (workingBoard files opening) := by
  have hcurated : id ∈ listings (promoteFromBacklog (archivedBoard files opening input)) :=
    List.mem_append.mpr ((mem_listings_closing.mp h).imp_left And.left)
  exact (shed_cycle files opening input).listed
    ((listings_promoteFromBacklog _).mem_iff.mp hcurated)

theorem newlyDone_working (h : id ∈ (runCycle files opening input).closing.newlyDone) :
    id ∈ listings (workingBoard files opening) := by
  have hcurated := newlyDone_closeCycle h
  exact (shed_cycle files opening input).listed
    ((listings_promoteFromBacklog _).mem_iff.mp (List.mem_append_left _ hcurated))

theorem left_for_cause (h : id ∈ listings (workingBoard files opening)) :
    id ∈ listings (runCycle files opening input).closing.board ∨
      id ∈ (runCycle files opening input).archived ∨ id ∈ (runCycle files opening input).dropped ∨
        id ∈ (runCycle files opening input).closing.newlyDone := by
  rcases (shed_cycle files opening input).left h with hkept | hleft
  · by_cases hdone : id ∈ (runCycle files opening input).closing.newlyDone
    · exact .inr (.inr (.inr hdone))
    · have hcurated := (listings_promoteFromBacklog _).mem_iff.mpr hkept
      exact .inl (mem_listings_closing.mpr
        ((List.mem_append.mp hcurated).imp_left fun hactive => ⟨hactive, hdone⟩))
  · rcases List.mem_append.mp hleft with hdropped | harchived
    · exact .inr (.inr (.inl hdropped))
    · exact .inr (.inl harchived)

theorem cause_working (h : id ∈ (runCycle files opening input).archived ∨
    id ∈ (runCycle files opening input).dropped ∨
      id ∈ (runCycle files opening input).closing.newlyDone) :
    id ∈ listings (workingBoard files opening) := by
  have hknown := (shed_cycle files opening input).known id
  rcases h with harchived | hdropped | hdone
  · exact List.mem_append_left _ (hknown (List.mem_append_right _ harchived))
  · exact List.mem_append_left _ (hknown (List.mem_append_left _ hdropped))
  · exact newlyDone_working hdone

theorem mem_tombstones_runCycle :
    id ∈ (runCycle files opening input).closing.tombstones ↔
      (id ∈ activeIds (cycleStart files) ∧
        id ∉ listings (runCycle files opening input).closing.board) ∨
      id ∈ (runCycle files opening input).closing.newlyDone := mem_tombstones_closeCycle

end Cycle

/-- A goal of the stored board is tombstoned only for cause; one that the cycle does not work on, or
that its guard reports, is not, and stays on the board. -/
structure TombstonedForCause (files : BoardFiles) (opening : OpeningInput) (input : CycleInput) :
    Prop where
  cause : ∀ id ∈ listings (cycleStart files),
    id ∈ (runCycle files opening input).closing.tombstones →
      id ∈ (runCycle files opening input).archived ∨ id ∈ (runCycle files opening input).dropped ∨
        id ∈ (runCycle files opening input).closing.newlyDone
  spared : ∀ id ∈ listings (cycleStart files),
    id ∉ listings (workingBoard files opening) ∨ id ∈ (runCycle files opening input).vanished →
      id ∉ (runCycle files opening input).closing.tombstones ∧
        id ∈ listings (committedBoard files opening input)

section Committed

variable {files : BoardFiles} {opening : OpeningInput} {input : CycleInput} {id : String}

theorem activeIds_cycleStart :
    activeIds (cycleStart files) =
      activeIds (filterTombstoned files.state.board files.tombstones) := by
  simp only [cycleStart, activeIds, healStaleNoProgressBlocks, List.map_map]
  apply List.map_congr_left
  intro goal _
  dsimp only [Function.comp_apply, healedGoal]
  split <;> rfl

theorem mem_activeIds_cycleStart :
    id ∈ activeIds (cycleStart files) ↔
      id ∈ activeIds files.state.board ∧ id ∉ files.tombstones := by
  rw [activeIds_cycleStart]
  simp only [activeIds, filterTombstoned, List.mem_map, List.mem_filter, decide_eq_true_eq]
  constructor
  · rintro ⟨goal, ⟨hgoal, htomb⟩, rfl⟩
    exact ⟨⟨goal, hgoal, rfl⟩, htomb⟩
  · rintro ⟨⟨goal, hgoal, rfl⟩, htomb⟩
    exact ⟨goal, ⟨hgoal, htomb⟩, rfl⟩

theorem mem_backlogIds_cycleStart :
    id ∈ backlogIds (cycleStart files) ↔
      id ∈ backlogIds files.state.board ∧ id ∉ files.tombstones := by
  change id ∈ (files.state.board.backlog.filter _).map _ ↔ _
  simp only [backlogIds, List.mem_map, List.mem_filter, decide_eq_true_eq]
  constructor
  · rintro ⟨item, ⟨hitem, htomb⟩, rfl⟩
    exact ⟨⟨item, hitem, rfl⟩, htomb⟩
  · rintro ⟨⟨item, hitem, rfl⟩, htomb⟩
    exact ⟨item, ⟨hitem, htomb⟩, rfl⟩

theorem listings_committedBoard :
    listings (committedBoard files opening input) =
      listings (reconcile files.state.board (runCycle files opening input).closing.board
        (files.tombstones ∪ (runCycle files opening input).closing.tombstones.toFinset)) := by
  unfold committedBoard commitClosing
  obtain ⟨pins, pins', hcommit⟩ := exec_commitCycle (runCycle files opening input).closing.board
    (runCycle files opening input).tracker input.cycleCount
    (runCycle files opening input).closing.tombstones files
  dsimp only
  rw [hcommit]
  exact listings_applyDoneGatePins pins _

theorem backlog_spared (hbacklog : id ∈ backlogIds (cycleStart files))
    (hinactive : id ∉ activeIds (cycleStart files))
    (hunseen : id ∉ listings (workingBoard files opening)) :
    id ∉ (runCycle files opening input).closing.tombstones ∧
      id ∈ listings (committedBoard files opening input) := by
  have htomb : id ∉ (runCycle files opening input).closing.tombstones := by
    rw [mem_tombstones_runCycle]
    rintro (⟨hactive, -⟩ | hdone)
    · exact hinactive hactive
    · exact hunseen (newlyDone_working hdone)
  obtain ⟨hstored, hold⟩ := mem_backlogIds_cycleStart.mp hbacklog
  have hflight : id ∉ activeIds (runCycle files opening input).closing.board := fun hactive =>
    hunseen (listed_closing (List.mem_append_left _ hactive))
  have hpersisted : id ∉ activeIds files.state.board := fun hactive =>
    hinactive (mem_activeIds_cycleStart.mpr ⟨hactive, hold⟩)
  refine ⟨htomb, ?_⟩
  rw [listings_committedBoard]
  refine List.mem_append_right _ (mem_backlogIds_reconcile.mpr ⟨?_, ?_, ?_⟩)
  · simp [hold, htomb]
  · exact isSome_backlogContender.mpr (.inr hstored)
  · rw [← Option.not_isSome_iff_eq_none, isSome_contender]
    exact not_or_intro hflight hpersisted

end Committed

def MeetingHandoff.ids (handoff : MeetingHandoff) : List String :=
  handoff.decisions.map goalSlug ++
    (handoff.actionItems.filter (2 ≤ ·.priority)).map fun item => goalSlug item.description

def handedOverIds (dir : HandoffDir) : List String :=
  ((pending dir).take batchHandoffLimit).flatMap fun file => file.2.ids

section HandedOver

variable {tombstones : Finset String} {id : String}

theorem mem_listings_ingestDecision (hlive : id ∉ tombstones) (handoff : MeetingHandoff)
    (ingest : Ingest) (decision : String × Nat) :
    id ∈ listings (ingestDecision tombstones handoff ingest decision).board ↔
      id ∈ listings ingest.board ∨ goalSlug decision.1 = id := by
  obtain ⟨text, i⟩ := decision
  unfold ingestDecision
  dsimp only
  generalize goalSlug text = goalId
  split
  next hknown =>
    refine (or_iff_left_of_imp ?_).symm
    rintro rfl
    simpa [Ingest.knows, hlive] using hknown
  · rw [eq_comm (a := goalId)]
    split
    · simp only [listings, activeIds, backlogIds, ActiveGoal.new, List.map_append, List.mem_append,
        List.map_cons, List.map_nil, List.mem_singleton]
      rw [or_right_comm]
    · simp only [listings, activeIds, backlogIds, List.map_append, List.mem_append,
        List.map_cons, List.map_nil, List.mem_singleton, or_assoc]

theorem mem_listings_ingestActionItem (hlive : id ∉ tombstones) (handoff : MeetingHandoff)
    (ingest : Ingest) (item : ActionItem) :
    id ∈ listings (ingestActionItem tombstones handoff ingest item).board ↔
      id ∈ listings ingest.board ∨ (2 ≤ item.priority ∧ goalSlug item.description = id) := by
  unfold ingestActionItem
  dsimp only
  generalize goalSlug item.description = itemId
  split
  next hminor => simp [Nat.not_le.mpr hminor]
  next hmajor =>
    split
    next hknown =>
      refine (or_iff_left_of_imp ?_).symm
      rintro ⟨-, rfl⟩
      simpa [Ingest.knows, hlive] using hknown
    · rw [and_iff_right (Nat.not_lt.mp hmajor), eq_comm (a := itemId)]
      simp only [listings, activeIds, backlogIds, List.map_append, List.mem_append,
        List.map_cons, List.map_nil, List.mem_singleton, or_assoc]

theorem mem_listings_ingestHandoff (hlive : id ∉ tombstones) (handoff : MeetingHandoff)
    (ingest : Ingest) :
    id ∈ listings (ingestHandoff tombstones handoff ingest).board ↔
      id ∈ listings ingest.board ∨ id ∈ handoff.ids := by
  unfold ingestHandoff
  dsimp only
  rw [foldl_or_iff (fun ingest : Ingest => id ∈ listings ingest.board)
      (mem_listings_ingestActionItem hlive handoff),
    foldl_or_iff (fun ingest : Ingest => id ∈ listings ingest.board)
      (mem_listings_ingestDecision hlive handoff), or_assoc]
  have hdecisions : (∃ decision ∈ handoff.decisions.zipIdx, goalSlug decision.1 = id) ↔
      id ∈ handoff.decisions.map goalSlug := by
    conv_rhs => rw [← List.zipIdx_map_fst 0 handoff.decisions]
    simp only [List.map_map, List.mem_map, Function.comp_apply]
  unfold MeetingHandoff.ids
  rw [hdecisions, List.mem_append]
  simp only [List.mem_map, List.mem_filter, decide_eq_true_eq, and_assoc]

theorem mem_listings_ingestLoop (hlive : id ∉ tombstones) (batch : Nat) (dir : HandoffDir)
    (ingest : Ingest) :
    id ∈ listings (ingestLoop tombstones batch dir ingest).1.board ↔
      id ∈ listings ingest.board ∨
        id ∈ ((pending dir).take batch).flatMap fun file => file.2.ids := by
  induction batch generalizing dir ingest with
  | zero => simp [ingestLoop]
  | succ batch ih =>
    rw [ingestLoop, findOldestUnprocessedHandoff]
    cases hpending : pending dir with
    | nil => simp
    | cons file rest =>
      obtain ⟨name, handoff⟩ := file
      rw [List.head?_cons, List.take_succ_cons, List.flatMap_cons, List.mem_append]
      dsimp only
      split
      next hempty =>
        have hnone : handoff.ids = [] := by
          unfold MeetingHandoff.isEmpty at hempty
          unfold MeetingHandoff.ids
          rw [Bool.and_eq_true, List.isEmpty_iff, List.isEmpty_iff] at hempty
          rw [hempty.1, hempty.2]
          rfl
        rw [ih, pending_markProcessed hpending, hnone]
        simp
      · rw [ih, pending_markProcessed hpending, mem_listings_ingestHandoff hlive, or_assoc]

theorem mem_listings_checkMeetingHandoffs (hlive : id ∉ tombstones) (dir : HandoffDir)
    (board : GoalBoard) :
    id ∈ listings (checkMeetingHandoffs tombstones dir board).1.board ↔
      id ∈ listings board ∨ id ∈ handedOverIds dir :=
  mem_listings_ingestLoop hlive batchHandoffLimit dir ⟨board, 0⟩

end HandedOver

theorem listings_on (edit : GoalEdit) (board : GoalBoard) :
    listings (edit.on board) = listings board := by
  unfold listings
  rw [activeIds_on]
  rfl

theorem listings_sweepStaleAssignments (live : Finset String) (board : GoalBoard) :
    listings (sweepStaleAssignmentsWithSessions live board) = listings board := by
  unfold sweepStaleAssignmentsWithSessions
  split
  · rfl
  · simp [listings, activeIds, backlogIds, Function.comp_def, sweptGoal_id]

theorem mem_listings_seedBoard {seeds : List SeedGoal} {board : GoalBoard} {id : String} :
    id ∈ listings (seedBoardFromSeedGoals seeds board).2 ↔
      id ∈ listings board ∨ (board.active = [] ∧ ∃ seed ∈ seeds, goalSlug seed.title = id) := by
  unfold seedBoardFromSeedGoals
  split
  next hempty =>
    rw [List.isEmpty_iff] at hempty
    simp only [listings, activeIds, backlogIds, hempty, List.nil_append,
      ids_seeded, List.mem_append,
      List.map_nil, List.mem_map, true_and]
    rw [or_comm]
  next hactive =>
    rw [List.isEmpty_iff] at hactive
    simp only [hactive, false_and, or_false]

/-- What replaces the board is put back together: after the marker the seeds and handoffs name
every goal that was active, and a snapshot that is loaded lists those that no handoff names. -/
structure AccountedFor (files : BoardFiles) (opening : OpeningInput) : Prop where
  reseeded : opening.reseed = true → ∀ id ∈ activeIds files.state.board, id ∉ files.tombstones →
    (∃ seed ∈ opening.seeds, goalSlug seed.title = id) ∨ id ∈ handedOverIds opening.handoffs
  replaced : opening.reseed = false → ∀ snapshot, opening.snapshot = .ok snapshot →
    snapshot.active ≠ [] → OodaCycle.boardIntegritySuspect snapshot = none →
      ∀ id ∈ activeIds files.state.board, id ∉ files.tombstones →
        id ∈ listings snapshot ∨ id ∈ handedOverIds opening.handoffs

section Working

variable {files : BoardFiles} {opening : OpeningInput} {id : String}

theorem mem_listings_workingBoard (hlive : id ∉ files.tombstones) :
    id ∈ listings (workingBoard files opening) ↔
      id ∈ listings (loadedBoard opening (cycleStart files)) ∨
      ((loadedBoard opening (cycleStart files)).active = [] ∧
        ∃ seed ∈ opening.seeds, goalSlug seed.title = id) ∨
      id ∈ handedOverIds opening.handoffs := by
  unfold workingBoard openedBoard
  dsimp only
  rw [mem_listings_checkMeetingHandoffs hlive, listings_on, mem_listings_seedBoard,
    listings_sweepStaleAssignments, or_assoc]
  have hempty : (sweepStaleAssignmentsWithSessions opening.live
      (loadedBoard opening (cycleStart files))).active = [] ↔
        (loadedBoard opening (cycleStart files)).active = [] := by
    unfold sweepStaleAssignmentsWithSessions
    split
    · rfl
    · exact List.map_eq_nil_iff
  rw [hempty]

theorem accountedFor_iff : AccountedFor files opening ↔
    ∀ id ∈ activeIds (cycleStart files), id ∈ listings (workingBoard files opening) := by
  constructor
  · intro h id hid
    obtain ⟨hstored, hlive⟩ := mem_activeIds_cycleStart.mp hid
    have hsame : id ∈ listings (cycleStart files) := List.mem_append_left _ hid
    rw [mem_listings_workingBoard hlive]
    unfold loadedBoard
    split
    next hreseed =>
      exact .inr ((h.reseeded hreseed id hstored hlive).imp_left fun hseed => ⟨rfl, hseed⟩)
    next hkeep =>
      rw [Bool.not_eq_true] at hkeep
      split
      · exact .inl hsame
      next snapshot hsnapshot =>
        split
        · exact .inl hsame
        next hactive =>
          split
          · exact .inl hsame
          next hsound =>
            rw [List.isEmpty_iff] at hactive
            rw [Option.not_isSome_iff_eq_none] at hsound
            exact (h.replaced hkeep snapshot hsnapshot hactive hsound id hstored
              hlive).imp_right .inr
  · intro h
    refine ⟨?_, ?_⟩
    · intro hreseed id hstored hlive
      have hworked := (mem_listings_workingBoard hlive).mp
        (h id (mem_activeIds_cycleStart.mpr ⟨hstored, hlive⟩))
      have hnew : loadedBoard opening (cycleStart files) = .new := if_pos hreseed
      rw [hnew] at hworked
      rcases hworked with hlisted | hseeded | hhanded
      · cases hlisted
      · exact .inl hseeded.2
      · exact .inr hhanded
    · intro hkeep snapshot hsnapshot hactive hsound id hstored hlive
      have hworked := (mem_listings_workingBoard hlive).mp
        (h id (mem_activeIds_cycleStart.mpr ⟨hstored, hlive⟩))
      have hloaded : loadedBoard opening (cycleStart files) = snapshot := by
        unfold loadedBoard
        rw [hkeep, hsnapshot]
        simp [hactive, hsound]
      rw [hloaded] at hworked
      rcases hworked with hlisted | hseeded | hhanded
      · exact .inl hlisted
      · exact absurd hseeded.1 hactive
      · exact .inr hhanded

end Working

/-- The tombstones of a cycle are for cause exactly if whatever takes the place of the stored board
accounts for its active goals. -/
theorem tombstoned_for_cause_iff (files : BoardFiles) (opening : OpeningInput)
    (input : CycleInput) :
    TombstonedForCause files opening input ↔ AccountedFor files opening := by
  rw [accountedFor_iff]
  constructor
  · intro h id hactive
    by_contra hunseen
    have htomb : id ∈ (runCycle files opening input).closing.tombstones :=
      mem_tombstones_runCycle.mpr (.inl ⟨hactive, fun hlisted => hunseen (listed_closing hlisted)⟩)
    exact hunseen (cause_working (h.cause id (List.mem_append_left _ hactive) htomb))
  · intro hworked
    refine ⟨?_, ?_⟩
    · intro id _ htomb
      rcases mem_tombstones_runCycle.mp htomb with ⟨hactive, hgone⟩ | hdone
      · exact (left_for_cause (hworked id hactive)).resolve_left hgone
      · exact .inr (.inr hdone)
    · rintro id hlisted (hunseen | hvanished)
      · have hinactive : id ∉ activeIds (cycleStart files) := fun hactive =>
          hunseen (hworked id hactive)
        exact backlog_spared ((List.mem_append.mp hlisted).resolve_left hinactive) hinactive hunseen
      · exact absurd hvanished vanished_runCycle

def noEdit : GoalEdit := ⟨fun _ goal => goal, fun _ _ => rfl⟩

/-- The cycle loads this snapshot, and nothing is seeded or handed over. -/
def snapshotOpening (snapshot : GoalBoard) : OpeningInput :=
  ⟨false, .ok snapshot, ∅, [], BTreeMap.empty, noEdit, noEdit, noEdit⟩

def idleInput : CycleInput :=
  ⟨[], false, ⟨fun _ => .ok false, fun _ => .ok false, fun _ => .ok false, fun _ => .ok true,
    fun _ => .ok .none⟩, none, 1⟩

def storedFiles : BoardFiles := filesWith ["kept-goal", "lost-goal"]

def staleOpening : OpeningInput := snapshotOpening (boardWith ["kept-goal"])

/-- A goal that the stale snapshot does not have is tombstoned and gone. -/
theorem stale_snapshot_tombstones :
    OodaCycle.boardIntegritySuspect (boardWith ["kept-goal"]) = none ∧
      "lost-goal" ∈ activeIds (cycleStart storedFiles) ∧
      "lost-goal" ∉ listings (boardWith ["kept-goal"]) ∧
      "lost-goal" ∈ (runCycle storedFiles staleOpening idleInput).closing.tombstones ∧
      "lost-goal" ∉ listings (committedBoard storedFiles staleOpening idleInput) ∧
      ¬ TombstonedForCause storedFiles staleOpening idleInput := by
  have hlisted : "lost-goal" ∈ activeIds (cycleStart storedFiles) := by decide
  have htomb : "lost-goal" ∈ (runCycle storedFiles staleOpening idleInput).closing.tombstones := by
    decide +kernel
  refine ⟨by decide, hlisted, by decide, htomb, by decide +kernel, ?_⟩
  intro h
  have hcause := h.cause "lost-goal" (List.mem_append_left _ hlisted) htomb
  revert hcause
  decide

end Simard.Goals
