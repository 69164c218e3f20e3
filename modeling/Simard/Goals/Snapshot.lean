import Simard.Goals.Curation

/-! The snapshot of the goal board in memory. A save merges the board over the latest snapshot; an
operator's save also takes goals off, and does so after the merge has cut the active goals to the
cap. -/
namespace Simard.Goals
open Simard.Library BTreeMap

/-- `goal`, and a word of at most four letters or digits. -/
def isPlaceholderDescription (description : String) : Bool :=
  let text := trim description.toList
  let word := trim (text.drop 4)
  asciiLowercase (String.ofList (text.take 4)) = "goal".toList && !word.isEmpty &&
    word.length ≤ 4 && word.all (·.isAlphanum)

def boardIntegritySuspect (board : GoalBoard) : Option String :=
  (board.active.find? fun goal => isPlaceholderDescription goal.description).map fun goal =>
    "goal '" ++ goal.id ++ "' has placeholder description '" ++ goal.description ++ "'"

/-- The latest snapshot, if there is one that can be read, and the tombstones beside it. -/
structure BoardMemory where
  latest : Option GoalBoard
  tombstones : Finset String

def readLatestSnapshot (memory : BoardMemory) : Option GoalBoard :=
  memory.latest.map (filterTombstoned · memory.tombstones)

def mergedSnapshot (board : GoalBoard) (memory : BoardMemory) : GoalBoard :=
  match readLatestSnapshot memory with
  | some persisted => mergeBoards persisted board
  | none => board

def refuseSuspect (board : GoalBoard) : Except SimardError Unit :=
  match boardIntegritySuspect board with
  | some reason => invalid "board" ("refusing to persist suspect board: " ++ reason)
  | none => .ok ()

def saveGoalBoard (board : GoalBoard) (memory : BoardMemory) : Except SimardError BoardMemory := do
  refuseSuspect board
  return { memory with latest := some (mergedSnapshot board memory) }

def saveGoalBoardWithRemovals (board : GoalBoard) (forceRemoveIds : List String)
    (memory : BoardMemory) : Except SimardError BoardMemory := do
  refuseSuspect board
  let merged := mergedSnapshot board memory
  let filtered := if forceRemoveIds.isEmpty then merged else removeFrom forceRemoveIds merged
  -- the cap once more, for a board that was not merged
  return { memory with
    latest := some { filtered with active := filtered.active.take maxActiveGoals } }

/-- Merge, then filter, then cut: the goals stand in the order in which the merge cuts them. -/
def documentedBoard (persisted board : GoalBoard) (forceRemoveIds : List String) : GoalBoard :=
  ⟨(((ranked originRank maxActiveGoals (mergedActive persisted board).values).filter
      (·.1.id ∉ forceRemoveIds)).take maxActiveGoals).map (·.1),
    (mergedBacklog persisted board).values.filter (·.id ∉ forceRemoveIds)⟩

def remaining (persisted board : GoalBoard) (forceRemoveIds : List String) :
    List (ActiveGoal × Bool) :=
  (mergedActive persisted board).values.filter (·.1.id ∉ forceRemoveIds)

/-- As many goals of the union as fit stand before this one. -/
def BeyondCap (persisted board : GoalBoard) (entry : ActiveGoal × Bool) : Prop :=
  maxActiveGoals ≤ ahead originRank (mergedActive persisted board).values entry

instance (persisted board : GoalBoard) (entry : ActiveGoal × Bool) :
    Decidable (BeyondCap persisted board entry) :=
  inferInstanceAs (Decidable (_ ≤ _))

section Saves

variable {persisted board : GoalBoard} {forceRemoveIds : List String} {memory : BoardMemory}

theorem injective_mergedActive : ∀ a ∈ (mergedActive persisted board).values,
    ∀ b ∈ (mergedActive persisted board).values, originRank a = originRank b → a = b := by
  intro a ha b hb heq
  have hid : a.1.id = b.1.id := by
    have := congrArg (fun rank => (ofLex (ofLex rank).2).2) heq
    simpa [originRank] using this
  exact eq_of_mem_values keyed_mergedActive ha hb hid

theorem nodup_mergedActive : (mergedActive persisted board).values.Nodup :=
  (nodup_values keyed_mergedActive).of_map

theorem mergedSnapshot_eq (hread : readLatestSnapshot memory = some persisted) :
    mergedSnapshot board memory = mergeBoards persisted board := by
  unfold mergedSnapshot
  rw [hread]

theorem length_mergeBoards_active :
    (mergeBoards persisted board).active.length ≤ maxActiveGoals := by
  unfold mergeBoards
  rw [List.length_map]
  exact length_keepFirst_le originRank maxActiveGoals _

theorem saveGoalBoard_eq (hread : readLatestSnapshot memory = some persisted)
    (hclean : boardIntegritySuspect board = none) :
    saveGoalBoard board memory =
      .ok { memory with latest := some (mergeBoards persisted board) } := by
  unfold saveGoalBoard refuseSuspect
  rw [hclean, mergedSnapshot_eq hread]
  rfl

theorem saveGoalBoardWithRemovals_eq (hread : readLatestSnapshot memory = some persisted)
    (hclean : boardIntegritySuspect board = none) :
    saveGoalBoardWithRemovals board forceRemoveIds memory =
      .ok { memory with
        latest := some (removeFrom forceRemoveIds (mergeBoards persisted board)) } := by
  have hfiltered : (if forceRemoveIds.isEmpty then mergeBoards persisted board
      else removeFrom forceRemoveIds (mergeBoards persisted board)) =
        removeFrom forceRemoveIds (mergeBoards persisted board) := by
    cases forceRemoveIds with
    | nil => simp [removeFrom]
    | cons id rest => rfl
  have hlength : (removeFrom forceRemoveIds (mergeBoards persisted board)).active.length ≤
      maxActiveGoals :=
    (List.length_filter_le _ _).trans length_mergeBoards_active
  unfold saveGoalBoardWithRemovals refuseSuspect
  rw [hclean, mergedSnapshot_eq hread]
  change Except.ok _ = _
  rw [hfiltered, List.take_of_length_le hlength]

theorem removeFrom_mergeBoards_eq_iff :
    removeFrom forceRemoveIds (mergeBoards persisted board) =
        documentedBoard persisted board forceRemoveIds ↔
      (∀ entry ∈ (mergedActive persisted board).values, entry.1.id ∈ forceRemoveIds →
        BeyondCap persisted board entry) ∨
      ∀ entry ∈ (mergedActive persisted board).values, BeyondCap persisted board entry →
        entry.1.id ∈ forceRemoveIds := by
  have hcut := map_filter_keepFirst_eq_iff (n := maxActiveGoals)
    (@injective_mergedActive persisted board) (·.1) nodup_mergedActive
    (fun entry => entry.1.id ∉ forceRemoveIds)
  simp only [decide_eq_true_eq, not_not] at hcut
  unfold removeFrom mergeBoards documentedBoard BeyondCap
  rw [GoalBoard.mk.injEq, List.filter_map, ← hcut]
  exact and_iff_left rfl

end Saves

def fullMemory : BoardMemory := ⟨some fullBoard, ∅⟩

end Simard.Goals
