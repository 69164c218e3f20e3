import Simard.Goals.BoardIds

/-! The target repository of a goal. A backlog item has no field for it, so a goal that
went to the backlog comes back without one, and a child that overflowed there comes back
without its parent too. -/
namespace Simard.Goals
open Simard.Library Action

def reposOf (id : String) (board : GoalBoard) : List (Option String) :=
  (board.active.filter (·.id = id)).map (·.repo)

def lastRepos (id : String) : List GoalBoard → List (Option String)
  | [] => []
  | board :: past => if reposOf id board = [] then lastRepos id past else reposOf id board

def KeepsRepo (past : List GoalBoard) (id : String) (repo : Option String) : Prop :=
  lastRepos id past = [] ∨ repo ∈ lastRepos id past

/-- A board with the boards before it, the latest first, and the splits made so far. -/
structure Routing where
  board : GoalBoard
  past : List GoalBoard
  splits : List Decomposition

def Routing.start (board : GoalBoard) : Routing := ⟨board, [], []⟩

def ChildOf (parent goal : ActiveGoal) : Prop :=
  goal.repo = parent.repo ∧ goal.parentGoalId = some parent.id

structure KeepsRepos (state : Routing) : Prop where
  repo : ∀ goal ∈ state.board.active, KeepsRepo state.past goal.id goal.repo
  child : ∀ split ∈ state.splits, ∀ goal ∈ state.board.active, goal.id ∈ split.childIds →
    ChildOf split.parent goal

inductive RoutingOp where
  | decompose (store : GraphWrite → Except SimardError Unit) (goalId : String)
      (decomposer : GoalDecomposer) (maxChildren : Nat) (now : Int)
  | demote (goalId : String)
  | promote (backlogId : String) (priority : Nat) (assignedTo : Option String)
  | promoteFromBacklog

namespace RoutingOp

def apply : RoutingOp → GoalBoard → GoalBoard
  | .decompose store goalId decomposer maxChildren now, board =>
      (call (decomposeGoal store goalId decomposer maxChildren now) board).2
  | .demote goalId, board => (call (handleDemote goalId) board).2
  | .promote backlogId priority assignedTo, board =>
      (call (promoteToActive backlogId priority assignedTo) board).2
  | .promoteFromBacklog, board => Goals.promoteFromBacklog board

def split? : RoutingOp → GoalBoard → Option Decomposition
  | .decompose store goalId decomposer maxChildren _, board =>
      match proposeChildren decomposer goalId maxChildren board with
      | .ok split => if (graphWrites split).forM (writeGraph store) = .ok () then
        some split else none
      | .error _ => none
  | _, _ => none

end RoutingOp

def routing : Machine Routing RoutingOp where
  step state op :=
    ⟨op.apply state.board, state.board :: state.past,
      (op.split? state.board).toList ++ state.splits⟩

theorem keepsRepo_of_active {board : GoalBoard} {goal : ActiveGoal} (h : goal ∈ board.active)
    (past : List GoalBoard) : KeepsRepo (board :: past) goal.id goal.repo := by
  have hrepo : goal.repo ∈ reposOf goal.id board :=
    List.mem_map_of_mem (List.mem_filter.mpr ⟨h, by simp⟩)
  right
  rw [lastRepos, if_neg (List.ne_nil_of_mem hrepo)]
  exact hrepo

theorem KeepsRepos.step_iff {state : Routing} (h : KeepsRepos state) {after : GoalBoard}
    {kept added : List ActiveGoal} (hactive : after.active = kept ++ added)
    (hkept : kept ⊆ state.board.active) (splits : List Decomposition) :
    KeepsRepos ⟨after, state.board :: state.past, splits ++ state.splits⟩ ↔
      (∀ goal ∈ added, KeepsRepo (state.board :: state.past) goal.id goal.repo) ∧
      (∀ split ∈ state.splits, ∀ goal ∈ added, goal.id ∈ split.childIds →
        ChildOf split.parent goal) ∧
      ∀ split ∈ splits, ∀ goal ∈ kept ++ added, goal.id ∈ split.childIds →
        ChildOf split.parent goal := by
  constructor
  · rintro ⟨hrepo, hchild⟩
    dsimp only at hrepo hchild
    rw [hactive] at hrepo hchild
    refine ⟨fun goal hgoal => ?_, fun split hsplit goal hgoal => ?_, fun split hsplit => ?_⟩
    · exact hrepo goal (List.mem_append_right _ hgoal)
    · exact hchild split (List.mem_append_right _ hsplit) goal (List.mem_append_right _ hgoal)
    · exact hchild split (List.mem_append_left _ hsplit)
  · rintro ⟨hrepo, hchild, hnew⟩
    constructor
    · intro goal hgoal
      rw [hactive, List.mem_append] at hgoal
      rcases hgoal with hgoal | hgoal
      · exact keepsRepo_of_active (hkept hgoal) _
      · exact hrepo goal hgoal
    · intro split hsplit goal hgoal
      rw [hactive] at hgoal
      rcases List.mem_append.mp hsplit with hsplit | hsplit
      · exact hnew split hsplit goal hgoal
      · rcases List.mem_append.mp hgoal with hgoal | hgoal
        · exact h.child split hsplit goal (hkept hgoal)
        · exact hchild split hsplit goal hgoal

/-- An item that was never active with a repository, nor is a child: a promotion makes a
goal with neither repository nor parent. -/
def Unrouted (state : Routing) (item : BacklogItem) : Prop :=
  KeepsRepo (state.board :: state.past) item.id none ∧
    ∀ split ∈ state.splits, item.id ∉ split.childIds

/-- An id of a child that some goal has, or had, is that of a child of the same parent. -/
structure FitsRoutes (state : Routing) (split : Decomposition) : Prop where
  active : ∀ goal ∈ state.board.active, goal.id ∈ split.childIds → ChildOf split.parent goal
  repo : split.placement state.board = .board → ∀ id ∈ split.childIds,
    KeepsRepo (state.board :: state.past) id split.parent.repo
  parent : split.placement state.board = .board → ∀ earlier ∈ state.splits,
    ∀ id ∈ split.childIds, id ∈ earlier.childIds →
      split.parent.repo = earlier.parent.repo ∧ split.parent.id = earlier.parent.id

/-- Nothing routed is promoted, and no split that goes through takes an id over. -/
def KeepsRoutes (state : Routing) : RoutingOp → Prop
  | .decompose store goalId decomposer maxChildren _ =>
      ∀ split, proposeChildren decomposer goalId maxChildren state.board = .ok split →
        (graphWrites split).forM (writeGraph store) = .ok () → FitsRoutes state split
  | .demote _ => True
  | .promote backlogId priority assignedTo =>
      ∀ position item, state.board.active.length < maxActiveGoals →
        findItem backlogId state.board = .ok (position, item) →
        validateActiveGoal (promotedGoal priority assignedTo item) = .ok () → Unrouted state item
  | .promoteFromBacklog => ∀ item ∈ promotable (sortBacklog state.board), Unrouted state item

theorem childId_ne (goalId : String) (n : Nat) : childId goalId n ≠ goalId := by
  intro hsame
  have hlength := congrArg (fun id => id.toList.length) hsame
  simp [childId] at hlength

theorem childOf_goals {split : Decomposition} {now : Int} {goal : ActiveGoal}
    (h : goal ∈ split.goals now) : ChildOf split.parent goal := by
  obtain ⟨child, hchild, rfl⟩ := List.mem_map.mp h
  obtain ⟨proposal, -, rfl⟩ := List.mem_map.mp hchild
  split <;> exact ⟨rfl, rfl⟩

theorem exists_child {split : Decomposition} {id : String} (h : id ∈ split.childIds) (now : Int) :
    ∃ goal ∈ split.goals now, goal.id = id := by
  rw [← ids_goals split now] at h
  exact List.mem_map.mp h

section Steps

variable {state : Routing} (h : KeepsRepos state)
include h

theorem keepsRepos_of_subset {after : GoalBoard} (hafter : after.active ⊆ state.board.active) :
    KeepsRepos ⟨after, state.board :: state.past, state.splits⟩ := by
  apply (h.step_iff (List.append_nil _).symm hafter []).mpr
  simp

theorem demote_keepsRepos (goalId : String) : KeepsRepos (routing.step state (.demote goalId)) := by
  apply keepsRepos_of_subset h
  change (call (handleDemote goalId) state.board).2.active ⊆ state.board.active
  rcases @handleDemote_call state.board goalId with
    ⟨e, hrefused⟩ | ⟨position, goal, -, -, hdone⟩
  · rw [hrefused]
    exact List.Subset.refl _
  · rw [hdone]
    exact List.eraseIdx_subset

theorem promoted_iff {items : List BacklogItem} {priority : Nat} {assignedTo : Option String}
    {after : GoalBoard}
    (hafter : after.active = state.board.active ++ items.map (promotedGoal priority assignedTo)) :
    KeepsRepos ⟨after, state.board :: state.past, state.splits⟩ ↔
      ∀ item ∈ items, Unrouted state item := by
  refine (h.step_iff hafter (List.Subset.refl _) []).trans ?_
  simp only [List.not_mem_nil, false_implies, implies_true, and_true]
  constructor
  · rintro ⟨hrepo, hchild⟩ item hitem
    have hgoal := List.mem_map_of_mem (f := promotedGoal priority assignedTo) hitem
    refine ⟨hrepo _ hgoal, fun split hsplit hid => ?_⟩
    cases (hchild split hsplit _ hgoal hid).2
  · intro hunrouted
    constructor
    · intro goal hgoal
      obtain ⟨item, hitem, rfl⟩ := List.mem_map.mp hgoal
      exact (hunrouted item hitem).1
    · intro split hsplit goal hgoal hid
      obtain ⟨item, hitem, rfl⟩ := List.mem_map.mp hgoal
      exact absurd hid ((hunrouted item hitem).2 split hsplit)

theorem promote_iff (backlogId : String) (priority : Nat) (assignedTo : Option String) :
    KeepsRepos (routing.step state (.promote backlogId priority assignedTo)) ↔
      KeepsRoutes state (.promote backlogId priority assignedTo) := by
  rcases @promoteToActive_call state.board backlogId priority assignedTo with
    ⟨⟨e, hrefused⟩, hnever⟩ | ⟨position, item, hfound, hroom, hvalid, hdone⟩
  · have hsame : (RoutingOp.promote backlogId priority assignedTo).apply state.board =
        state.board := congrArg Prod.snd hrefused
    refine iff_of_true (keepsRepos_of_subset h ?_) fun position item hroom hfound hvalid => ?_
    · rw [hsame]
      exact List.Subset.refl _
    · exact absurd hvalid (hnever position item hroom hfound)
  · have hafter : ((RoutingOp.promote backlogId priority assignedTo).apply state.board).active =
        state.board.active ++ [item].map (promotedGoal priority assignedTo) :=
      congrArg (fun result => result.2.active) hdone
    refine (promoted_iff h hafter).trans ?_
    constructor
    · intro hunrouted position' item' _ hfound' _
      rw [hfound] at hfound'
      cases hfound'
      exact hunrouted item (List.mem_singleton_self item)
    · intro hroutes item' hitem'
      rw [List.mem_singleton.mp hitem']
      exact hroutes position item hroom hfound hvalid

theorem promoteFromBacklog_iff :
    KeepsRepos (routing.step state .promoteFromBacklog) ↔
      KeepsRoutes state .promoteFromBacklog := by
  have hafter : (RoutingOp.promoteFromBacklog.apply state.board).active = state.board.active ++
      (promotable (sortBacklog state.board)).map (promotedGoal 3 none) := by
    rw [RoutingOp.apply, promoteFromBacklog_eq]
  exact promoted_iff h hafter

theorem placed_iff {split : Decomposition} (hboard : split.placement state.board = .board)
    (hids : split.parent.id ∉ split.childIds) (now : Int) :
    KeepsRepos ⟨split.place now state.board, state.board :: state.past,
      [split] ++ state.splits⟩ ↔ FitsRoutes state split := by
  have hafter : (split.place now state.board).active =
      state.board.active.filter (·.id ≠ split.parent.id) ++ split.goals now := by
    rw [Decomposition.place, hboard]
  have hlisted (goal : ActiveGoal) (hgoal : goal ∈ split.goals now) : goal.id ∈ split.childIds := by
    rw [← ids_goals split now]
    exact List.mem_map_of_mem hgoal
  refine (h.step_iff hafter (List.filter_sublist.subset) [split]).trans ?_
  simp only [List.mem_singleton, forall_eq]
  constructor
  · rintro ⟨hrepo, hchild, hnew⟩
    refine ⟨?_, fun _ id hid => ?_, fun _ earlier hearlier id hid hid' => ?_⟩
    · intro goal hgoal hid
      have hstays : goal.id ≠ split.parent.id := fun hsame => hids (hsame ▸ hid)
      exact hnew goal (List.mem_append_left _ (List.mem_filter.mpr ⟨hgoal, by simpa⟩)) hid
    · obtain ⟨goal, hgoal, rfl⟩ := exists_child hid now
      exact (childOf_goals hgoal).1 ▸ hrepo goal hgoal
    · obtain ⟨goal, hgoal, rfl⟩ := exists_child hid now
      obtain ⟨hhere, hparent⟩ := childOf_goals hgoal
      obtain ⟨hthere, hparent'⟩ := hchild earlier hearlier goal hgoal hid'
      exact ⟨hhere.symm.trans hthere, Option.some.inj (hparent.symm.trans hparent')⟩
  · rintro ⟨hactive, hrepo, hparent⟩
    refine ⟨fun goal hgoal => ?_, fun earlier hearlier goal hgoal hid => ?_,
      fun goal hgoal hid => ?_⟩
    · rw [(childOf_goals hgoal).1]
      exact hrepo hboard goal.id (hlisted goal hgoal)
    · obtain ⟨hrepos, hparents⟩ := hparent hboard earlier hearlier goal.id (hlisted goal hgoal) hid
      obtain ⟨hhere, hthere⟩ := childOf_goals hgoal
      exact ⟨hhere.trans hrepos, hthere.trans (congrArg some hparents)⟩
    · rcases List.mem_append.mp hgoal with hgoal | hgoal
      · exact hactive goal (List.mem_filter.mp hgoal).1 hid
      · exact childOf_goals hgoal

theorem overflowed_iff {split : Decomposition} (hbacklog : split.placement state.board = .backlog)
    (now : Int) :
    KeepsRepos ⟨split.place now state.board, state.board :: state.past,
      [split] ++ state.splits⟩ ↔ FitsRoutes state split := by
  have hafter : (split.place now state.board).active = state.board.active ++ [] := by
    rw [Decomposition.place, hbacklog, List.append_nil]
  refine (h.step_iff hafter (List.Subset.refl _) [split]).trans ?_
  simp only [List.mem_singleton, forall_eq, List.not_mem_nil, false_implies, implies_true,
    true_and, List.append_nil]
  constructor
  · intro hactive
    exact ⟨hactive, by simp [hbacklog], by simp [hbacklog]⟩
  · intro hfits
    exact hfits.active

theorem decompose_routes_iff (store : GraphWrite → Except SimardError Unit) (goalId : String)
    (decomposer : GoalDecomposer) (maxChildren : Nat) (now : Int) :
    KeepsRepos (routing.step state (.decompose store goalId decomposer maxChildren now)) ↔
      KeepsRoutes state (.decompose store goalId decomposer maxChildren now) := by
  rcases @decomposeGoal_call state.board store goalId decomposer maxChildren now with
    ⟨⟨e, hrefused⟩, hnever⟩ | ⟨split, hsplit, hwritten, hdone⟩
  · have hstep : routing.step state (.decompose store goalId decomposer maxChildren now) =
        ⟨state.board, state.board :: state.past, state.splits⟩ := by
      simp only [routing, RoutingOp.apply, RoutingOp.split?, hrefused]
      split
      next split hsplit =>
        rw [if_neg (hnever split hsplit)]
        rfl
      next => rfl
    rw [hstep]
    refine iff_of_true (keepsRepos_of_subset h (List.Subset.refl _)) ?_
    intro split hsplit hwritten
    exact absurd hwritten (hnever split hsplit)
  · have hstep : routing.step state (.decompose store goalId decomposer maxChildren now) =
        ⟨split.place now state.board, state.board :: state.past, [split] ++ state.splits⟩ := by
      have hboard := congrArg Prod.snd hdone
      simp only [routing, RoutingOp.apply, RoutingOp.split?, hsplit, hwritten, hboard]
      rfl
    have hfits : KeepsRoutes state (.decompose store goalId decomposer maxChildren now) ↔
        FitsRoutes state split := by
      constructor
      · intro hroutes
        exact hroutes split hsplit hwritten
      · intro hfits split' hsplit' _
        rw [hsplit] at hsplit'
        cases hsplit'
        exact hfits
    have hids : split.parent.id ∉ split.childIds := by
      obtain ⟨-, hid, count, -, hchildIds⟩ := proposeChildren_ok hsplit
      rw [hchildIds, hid]
      intro hmem
      obtain ⟨n, -, hsame⟩ := List.mem_map.mp hmem
      exact childId_ne goalId n hsame
    rw [hstep, hfits]
    cases hplacement : split.placement state.board with
    | board => exact placed_iff h hplacement hids now
    | backlog => exact overflowed_iff h hplacement now

theorem keepsRepos_step_iff (op : RoutingOp) :
    KeepsRepos (routing.step state op) ↔ KeepsRoutes state op := by
  cases op with
  | decompose store goalId decomposer maxChildren now =>
    exact decompose_routes_iff h store goalId decomposer maxChildren now
  | demote goalId => exact iff_of_true (demote_keepsRepos h goalId) trivial
  | promote backlogId priority assignedTo => exact promote_iff h backlogId priority assignedTo
  | promoteFromBacklog => exact promoteFromBacklog_iff h

end Steps

/-- Along every run the active goals keep their repositories, and children their parent
and its repository, exactly if nothing that had one is promoted and no split takes over
the id of another goal. -/
theorem target_repos_kept_iff (board : GoalBoard) (ops : List RoutingOp) :
    (∀ t ∈ routing.trace (.start board) ops, KeepsRepos t.after) ↔
      ∀ t ∈ routing.trace (.start board) ops, KeepsRoutes t.before t.event := by
  have hstart : KeepsRepos (.start board) :=
    ⟨fun _ _ => .inl rfl, fun _ hsplit => absurd hsplit List.not_mem_nil⟩
  exact routing.throughout_iff (P := KeepsRepos) (fun _ op h => keepsRepos_step_iff h op) hstart ops

/-- A goal demoted and promoted again lost its repository. -/
theorem demoted_goal_rerouted :
    let board : GoalBoard :=
      ⟨[{ ActiveGoal.new "port" "Port the parser" 1 with repo := some "amplihack-rs" }], []⟩
    let ops : List RoutingOp := [.demote "port", .promote "port" 1 none]
    ¬ KeepsRepos (routing.run (.start board) ops) ∧
      (routing.run (.start board) ops).board.active.map (fun goal => (goal.id, goal.repo)) =
        [("port", none)] := by
  intro board ops
  have hlost :
    (routing.run (.start board) ops).board.active.map (fun goal => (goal.id, goal.repo)) =
      [("port", none)] := by decide
  have hhad : lastRepos "port" (routing.run (.start board) ops).past = [some "amplihack-rs"] := by
    decide
  refine ⟨fun h => ?_, hlost⟩
  have hmem : ("port", none) ∈ (routing.run (.start board) ops).board.active.map
      (fun goal => (goal.id, goal.repo)) := by rw [hlost]; exact List.mem_singleton_self _
  obtain ⟨goal, hgoal, hsame⟩ := List.mem_map.mp hmem
  have hkept := h.repo goal hgoal
  obtain ⟨hid, hrepo⟩ := Prod.mk.inj hsame
  rw [hid, hrepo, KeepsRepo, hhad] at hkept
  revert hkept
  decide

end Simard.Goals
