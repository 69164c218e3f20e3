import Simard.Goals.Tombstones

/-! Goals that operators add, over histories of operator commands and commits run one
after another. Adding a goal does not look at the tombstones, which every later
commit obeys. -/
namespace Simard.Goals
open Simard.Library

/-- The files, changed by one whole call after another. -/
def history : Machine BoardFiles StoreJob where
  step files job := (job.program.exec BoardFiles.answer files).2

theorem exec_tombstoneGoals (ids : List String) (files : BoardFiles) :
    ((tombstoneGoals ids).exec BoardFiles.answer files).2 =
      { files with tombstones := files.tombstones ∪ ids.toFinset } := rfl

theorem exec_clearDoneGatePins (ids : List String) (files : BoardFiles) :
    ∃ pins, ((clearDoneGatePins ids).exec BoardFiles.answer files).2 =
      { files with pins := pins } := by
  unfold clearDoneGatePins
  split
  · exact ⟨files.pins, rfl⟩
  · simp only [ask, Program.perform_bind, Program.exec]
    split
    · exact ⟨_, rfl⟩
    · exact ⟨files.pins, rfl⟩

theorem exec_commitCycle (inFlight : GoalBoard) (tracker : NoProgressTracker) (cycleCount : Nat)
    (newTombstones : List String) (files : BoardFiles) :
    ∃ pins pins', ((commitCycle inFlight tracker cycleCount newTombstones).exec BoardFiles.answer
        files).2 =
      { state := files.state.commit inFlight tracker cycleCount
          (files.tombstones ∪ newTombstones.toFinset) pins
        tombstones := files.tombstones ∪ newTombstones.toFinset
        pins := pins' } := by
  unfold commitCycle
  split
  next hempty =>
    refine ⟨files.pins, files.pins, ?_⟩
    simp only [List.isEmpty_iff.mp hempty, List.toFinset_nil, Finset.union_empty]
    rfl
  next =>
    obtain ⟨pins, hpins⟩ := exec_clearDoneGatePins newTombstones
      { files with tombstones := files.tombstones ∪ newTombstones.toFinset }
    refine ⟨pins, pins, ?_⟩
    rw [Program.exec_bind, Program.exec_bind, exec_tombstoneGoals, hpins]
    rfl

/-- A call that neither removes nor completes nor tombstones the goal, and commits only
boards that fit under the cap with what is stored. -/
def Spares (x : String) (files : BoardFiles) : StoreJob → Prop
  | .add .. => True
  | .remove ids => x ∉ ids
  | .complete goalId => goalId ≠ x
  | .commit inFlight _ _ newTombstones =>
      x ∉ newTombstones ∧ BelowCap files.state.board inFlight

def Sticks (x : String) (files : BoardFiles) : Prop :=
  x ∈ activeIds files.state.board ∧ x ∉ files.tombstones

theorem active_reconcile {x : String} {persisted inFlight : GoalBoard} {tombstones : Finset String}
    (hactive : x ∈ activeIds persisted) (htomb : x ∉ tombstones)
    (hcap : BelowCap persisted inFlight) :
    x ∈ activeIds (reconcile persisted inFlight tombstones) := by
  have hsome : (contender persisted inFlight x).isSome := isSome_contender.mpr (.inr hactive)
  obtain ⟨goal, hgoal⟩ := Option.isSome_iff_exists.mp hsome
  refine mem_activeIds_reconcile.mpr ⟨htomb, goal, hgoal, ?_⟩
  rintro ⟨ids, hcard, hids⟩
  obtain rfl := contender_id hgoal
  apply not_outranked_of_belowCap hcap hgoal
  exact ⟨ids, hcard, fun id hid => ⟨by simp, (hids id hid).2⟩⟩

theorem activeIds_applyDoneGatePins (pins : DoneGatePins) (board : GoalBoard) :
    activeIds (applyDoneGatePins pins board) = activeIds board := by
  have hid (goal : ActiveGoal) :
      (((pins.get? goal.id).map fun pin => pin.applyTo goal).getD goal).id = goal.id := by
    cases pins.get? goal.id <;> rfl
  simp [activeIds, applyDoneGatePins, hid]

theorem active_removeFrom {x : String} {ids : List String} {board : GoalBoard}
    (hactive : x ∈ activeIds board) (hx : x ∉ ids) : x ∈ activeIds (removeFrom ids board) := by
  simp only [activeIds, removeFrom, List.mem_map, List.mem_filter] at hactive ⊢
  obtain ⟨goal, hgoal, rfl⟩ := hactive
  exact ⟨goal, ⟨hgoal, by simpa using hx⟩, rfl⟩

theorem active_completeOn {x goalId : String} {board : GoalBoard}
    (hactive : x ∈ activeIds board) (hx : goalId ≠ x) :
    x ∈ activeIds (completeOn goalId board).2 := by
  unfold completeOn
  split
  · simpa [activeIds, map_id_rollFirst] using hactive
  · exact active_removeFrom hactive (by simpa using Ne.symm hx)

theorem exec_add (priorityText description : String) (repo : Option String) (standing : Bool)
    (files : BoardFiles) :
    history.step files (.add priorityText description repo standing) = files ∨
      ∃ goal, history.step files (.add priorityText description repo standing) =
        files.withBoard { files.state.board with active := files.state.board.active ++
          [goal] } := by
  change ((handleAdd priorityText description repo standing).exec BoardFiles.answer files).2 =
    files ∨
    ∃ goal, ((handleAdd priorityText description repo standing).exec BoardFiles.answer files).2 = _
  unfold handleAdd
  split
  · exact .inl rfl
  next goal _ =>
    simp only [ask, Program.perform_bind, Program.exec, BoardFiles.answer, addTo]
    split_ifs
    · exact .inl rfl
    · exact .inl rfl
    · exact .inr ⟨goal, rfl⟩

theorem sticks_step {x : String} (files : BoardFiles) (job : StoreJob)
    (hspares : Spares x files job)
    (h : Sticks x files) : Sticks x (history.step files job) := by
  obtain ⟨hactive, htomb⟩ := h
  cases job with
  | add priorityText description repo standing =>
    obtain hsame | ⟨goal, hadded⟩ := exec_add priorityText description repo standing files
    · rw [hsame]
      exact ⟨hactive, htomb⟩
    · rw [hadded]
      refine ⟨?_, htomb⟩
      simp only [BoardFiles.withBoard, activeIds, List.map_append, List.mem_append]
      exact .inl hactive
  | remove ids =>
    change Sticks x ((handleRemove ids).exec BoardFiles.answer files).2
    unfold handleRemove
    split
    · exact ⟨hactive, htomb⟩
    · refine ⟨active_removeFrom hactive hspares, ?_⟩
      change x ∉ files.tombstones ∪ ids.toFinset
      simp only [Finset.mem_union, List.mem_toFinset, not_or]
      exact ⟨htomb, hspares⟩
  | complete goalId =>
    change Sticks x ((handleComplete goalId).exec BoardFiles.answer files).2
    have hkept := active_completeOn hactive hspares
    have hgone : x ∉ files.tombstones ∪ [goalId].toFinset := by
      simpa using ⟨Ne.symm hspares, htomb⟩
    simp only [handleComplete, ask, Program.perform_bind, Program.exec]
    split
    · exact ⟨hkept, htomb⟩
    · exact ⟨hkept, hgone⟩
    · exact ⟨hkept, hgone⟩
  | commit inFlight tracker cycleCount newTombstones =>
    obtain ⟨pins, pins', hcommit⟩ :=
      exec_commitCycle inFlight tracker cycleCount newTombstones files
    have hgone : x ∉ files.tombstones ∪ newTombstones.toFinset := by
      simp only [Finset.mem_union, List.mem_toFinset, not_or]
      exact ⟨htomb, hspares.1⟩
    change Sticks x ((commitCycle inFlight tracker cycleCount newTombstones >>= _).exec _ files).2
    rw [Program.exec_bind, hcommit]
    refine ⟨?_, hgone⟩
    change x ∈ activeIds (applyDoneGatePins pins _)
    rw [activeIds_applyDoneGatePins]
    exact active_reconcile hactive hgone hspares.2

theorem exec_added {priorityText description : String} {repo : Option String} {standing : Bool}
    {files : BoardFiles} {goal : ActiveGoal}
    (h : ((handleAdd priorityText description repo standing).exec BoardFiles.answer files).1 =
      .added goal) :
    history.step files (.add priorityText description repo standing) =
      files.withBoard { files.state.board with active := files.state.board.active ++ [goal] } := by
  change ((handleAdd priorityText description repo standing).exec BoardFiles.answer files).2 = _
  unfold handleAdd at h ⊢
  split at h
  · cases h
  next requested _ =>
    simp only [ask, Program.perform_bind, Program.exec, BoardFiles.answer, addTo] at h ⊢
    split_ifs at h ⊢
    · cases h
    · cases h
    · cases h
      rfl

/-- A goal an operator added stays active, and stays on the board a cycle starts from,
exactly when its id was not tombstoned when it was added. -/
theorem added_goal_sticks_iff (start : BoardFiles) (earlier : List StoreJob)
    (priorityText description : String) (repo : Option String) (standing : Bool) (goal : ActiveGoal)
    (later : List StoreJob)
    (hadded : ((handleAdd priorityText description repo standing).exec BoardFiles.answer
      (history.run start earlier)).1 = .added goal)
    (hspares : ∀ t ∈ history.trace
        (history.run start (earlier ++ [.add priorityText description repo standing])) later,
      Spares goal.id t.before t.event) :
    (∀ done rest, later = done ++ rest →
      goal.id ∈ activeIds (history.run start
        (earlier ++ .add priorityText description repo standing :: done)).state.board ∧
      goal.id ∈ activeIds (filterTombstoned
        (history.run start
          (earlier ++ .add priorityText description repo standing :: done)).state.board
        (history.run start
          (earlier ++ .add priorityText description repo standing :: done)).tombstones)) ↔
      goal.id ∉ (history.run start earlier).tombstones := by
  have hstep := exec_added hadded
  constructor
  · intro hkept
    have hfiltered := (hkept [] later rfl).2
    rw [Machine.run_append, Machine.run_cons, Machine.run_nil, hstep] at hfiltered
    simp only [activeIds, filterTombstoned, List.mem_map, List.mem_filter] at hfiltered
    obtain ⟨found, ⟨-, hnot⟩, hid⟩ := hfiltered
    rw [hid] at hnot
    exact of_decide_eq_true hnot
  · rintro htomb done rest rfl
    have hstart : Sticks goal.id (history.run start
        (earlier ++ [.add priorityText description repo standing])) := by
      rw [Machine.run_append, Machine.run_cons, Machine.run_nil, hstep]
      exact ⟨by simp [activeIds, BoardFiles.withBoard], htomb⟩
    have hsticks := history.invariant_run_of sticks_step hstart done
      fun t ht => hspares t (history.trace_prefix ht)
    rw [← Machine.run_append, List.append_assoc, List.singleton_append] at hsticks
    refine ⟨hsticks.1, ?_⟩
    obtain ⟨found, hfound, hid⟩ := List.mem_map.mp hsticks.1
    simp only [activeIds, filterTombstoned, List.mem_map, List.mem_filter]
    exact ⟨found, ⟨hfound, by simpa [hid] using hsticks.2⟩, hid⟩

def addParser : StoreJob := .add "2" "Fix the parser" none false

theorem parser_goal_sticks :
    "fix-the-parser" ∈ activeIds (history.run (filesWith [])
      [addParser, .commit (boardWith []) .new 1 []]).state.board := by
  have hadded : (addParser.program.exec BoardFiles.answer (history.run (filesWith []) [])).1 =
      .added { ActiveGoal.new "fix-the-parser" "Fix the parser" 2 with
        labels := [sourceOperator] } := by
    decide
  have hkept := (added_goal_sticks_iff (filesWith []) [] "2" "Fix the parser" none false _
    [.commit (boardWith []) .new 1 []] hadded (by
      simp only [Machine.trace, List.forall_mem_cons]
      exact ⟨⟨by simp, by unfold BelowCap; decide⟩, by simp⟩)).mpr (by simp [filesWith])
  exact (hkept [.commit (boardWith []) .new 1 []] [] rfl).1

/-- A goal that was removed and is added again goes with the next commit, and is gone
from the board the next cycle starts from even before it. -/
theorem readded_goal_lost :
    (history.run (filesWith []) [addParser, .remove ["fix-the-parser"],
      addParser]).state.board.active
        = [{ ActiveGoal.new "fix-the-parser" "Fix the parser" 2 with labels := [sourceOperator] }] ∧
      activeIds (filterTombstoned
        (history.run (filesWith []) [addParser, .remove ["fix-the-parser"], addParser]).state.board
        (history.run (filesWith []) [addParser, .remove ["fix-the-parser"], addParser]).tombstones)
        = [] ∧
      activeIds (history.run (filesWith []) [addParser, .remove ["fix-the-parser"], addParser,
        .commit (boardWith ["fix-the-parser"]) .new 1 []]).state.board = [] := by
  decide

end Simard.Goals
