import Simard.Goals.BoardIds

/-! Children that find no room on the board. They wait in the backlog with the priority of their
parent as a score, and the best score is promoted first: the children of the less important parent
go first. -/
namespace Simard.Goals
open Simard.Library Action

/-- The board, and the backlog items promoted so far in their order. -/
structure Promotions where
  board : GoalBoard
  promoted : List BacklogItem

/-- A goal leaves the active list, or the free slots are filled. -/
inductive SlotEvent where
  | free (position : Nat)
  | promote

def promotions : Machine Promotions SlotEvent where
  step s
    | .free position =>
        { s with board := { s.board with active := s.board.active.eraseIdx position } }
    | .promote =>
        ⟨promoteFromBacklog s.board, s.promoted ++ promotable (sortBacklog s.board)⟩

/-- None of the lesser items comes before one of the important ones. -/
def InOrder (important lesser promoted : List BacklogItem) : Prop :=
  ∀ before item, before ++ [item] <+: promoted → item ∈ lesser → ∀ child ∈ important, child ∈ before

def Overflows (split : Decomposition) (board after : GoalBoard) : Prop :=
  ∃ store goalId decomposer maxChildren now,
    proposeChildren decomposer goalId maxChildren board = .ok split ∧
      Does (decomposeGoal store goalId decomposer maxChildren now) board
        ⟨goalId, split.childIds, .backlog⟩ after

/-- Both goals are split, in either order, on a board that is too full. -/
def BothOverflow (P Q : Decomposition) (board after : GoalBoard) : Prop :=
  ∃ mid, Overflows P board mid ∧ Overflows Q mid after ∨ Overflows Q board mid ∧
    Overflows P mid after

section Sorted

variable {board : GoalBoard}

def Sorted (items : List BacklogItem) : Prop := items.Pairwise fun a b => b.score ≤ a.score

theorem sorted_sortBacklog (board : GoalBoard) : Sorted (sortBacklog board).backlog := by
  have hsorted := @List.pairwise_mergeSort BacklogItem (fun a b => decide (b.score ≤ a.score))
    (fun a b c hab hbc => by
      simp only [decide_eq_true_eq] at hab hbc ⊢
      exact hbc.trans hab)
    (fun a b => by
      simp only [Bool.or_eq_true, decide_eq_true_eq]
      exact le_total b.score a.score) board.backlog
  exact hsorted.imp fun hab => of_decide_eq_true hab

theorem sortBacklog_of_sorted (h : Sorted board.backlog) : sortBacklog board = board := by
  unfold sortBacklog
  rw [List.mergeSort_of_pairwise (h.imp fun hab => decide_eq_true hab)]

def queue (board : GoalBoard) : List BacklogItem := (sortBacklog board).backlog

theorem mem_queue {item : BacklogItem} : item ∈ queue board ↔ item ∈ board.backlog :=
  List.mem_mergeSort

theorem promotable_starts (board : GoalBoard) :
    promotable (sortBacklog board) <+: (queue board).takeWhile isPromotable := List.take_prefix _ _

theorem queue_promote (board : GoalBoard) :
    promotable (sortBacklog board) ++ queue (promoteFromBacklog board) = queue board := by
  have hrest : queue (promoteFromBacklog board) =
      (queue board).drop (promotable (sortBacklog board)).length := by
    rw [promoteFromBacklog_eq, queue, sortBacklog_of_sorted]
    · rfl
    · exact (sorted_sortBacklog board).sublist (List.drop_sublist _ _)
  rw [hrest]
  nth_rewrite 1 [promotable_take (sortBacklog board)]
  exact List.take_append_drop _ _

end Sorted

/-- What is promoted and what waits make up the queue, and nothing passes an item that cannot be
promoted. -/
structure Drains (line : List BacklogItem) (s : Promotions) : Prop where
  whole : s.promoted ++ queue s.board = line
  fit : s.promoted <+: line.takeWhile isPromotable

theorem takeWhile_append_of_all {items rest : List BacklogItem}
    (h : ∀ item ∈ items, isPromotable item) :
    (items ++ rest).takeWhile isPromotable = items ++ rest.takeWhile isPromotable :=
  List.takeWhile_append_of_pos h

theorem Drains.all {line : List BacklogItem} {s : Promotions} (h : Drains line s) :
    ∀ item ∈ s.promoted, isPromotable item := fun _ hitem =>
  List.mem_takeWhile_imp (h.fit.mem hitem)

theorem drains_step {line : List BacklogItem} (s : Promotions) (e : SlotEvent) (h : Drains line s) :
    Drains line (promotions.step s e) := by
  cases e with
  | free position => exact ⟨h.whole, h.fit⟩
  | promote =>
    constructor
    · change (s.promoted ++ promotable (sortBacklog s.board)) ++
        queue (promoteFromBacklog s.board) =
        line
      rw [List.append_assoc, queue_promote, h.whole]
    · change s.promoted ++ promotable (sortBacklog s.board) <+: line.takeWhile isPromotable
      rw [← h.whole, takeWhile_append_of_all h.all]
      exact (List.prefix_append_right_inj _).mpr (promotable_starts s.board)

theorem drains_start (board : GoalBoard) : Drains (queue board) ⟨board, []⟩ :=
  ⟨rfl, List.nil_prefix⟩

theorem exists_free (s : Promotions) :
    ∃ events, promotions.run s events = { s with board := { s.board with active := [] } } := by
  obtain ⟨⟨active, backlog⟩, promoted⟩ := s
  induction active with
  | nil => exact ⟨[], rfl⟩
  | cons goal rest ih =>
    obtain ⟨events, hevents⟩ := ih
    exact ⟨.free 0 :: events, hevents⟩

theorem exists_drain (n : Nat) (s : Promotions)
    (hn : ((queue s.board).takeWhile isPromotable).length ≤ n) :
    ∃ events, (promotions.run s events).promoted =
      s.promoted ++ (queue s.board).takeWhile isPromotable := by
  induction n generalizing s with
  | zero =>
    refine ⟨[], ?_⟩
    rw [List.eq_nil_of_length_eq_zero (Nat.le_zero.mp hn), List.append_nil]
    rfl
  | succ n ih =>
    obtain ⟨frees, hfrees⟩ := exists_free s
    let freed : GoalBoard := { s.board with active := [] }
    let next :
      Promotions := ⟨promoteFromBacklog freed, s.promoted ++ promotable (sortBacklog freed)⟩
    have hqueue : queue freed = queue s.board := rfl
    have hfit : ∀ item ∈ promotable (sortBacklog freed), isPromotable item := fun item hitem =>
      List.mem_takeWhile_imp ((promotable_starts freed).mem hitem)
    have hrest : (queue s.board).takeWhile isPromotable =
        promotable (sortBacklog freed) ++ (queue next.board).takeWhile isPromotable := by
      rw [← hqueue, ← queue_promote freed, takeWhile_append_of_all hfit]
    have hless : ((queue next.board).takeWhile isPromotable).length ≤ n := by
      rcases Nat.eq_zero_or_pos ((queue s.board).takeWhile isPromotable).length with hnone | hsome
      · have hlengths := congrArg List.length hrest
        rw [List.length_append] at hlengths
        omega
      · have hone : 0 < (promotable (sortBacklog freed)).length := by
          change 0 < (((queue s.board).takeWhile isPromotable).take maxActiveGoals).length
          rw [List.length_take, maxActiveGoals]
          omega
        have hlengths := congrArg List.length hrest
        rw [List.length_append] at hlengths
        omega
    obtain ⟨events, hevents⟩ := ih next hless
    refine ⟨frees ++ .promote :: events, ?_⟩
    rw [Machine.run_append, hfrees, Machine.run_cons]
    change (promotions.run next events).promoted = _
    rw [hevents, hrest, ← List.append_assoc]

theorem two_le_children {decomposer : GoalDecomposer} {goalId : String} {maxChildren : Nat}
    {board : GoalBoard} {split : Decomposition}
    (h : proposeChildren decomposer goalId maxChildren board = .ok split) :
    2 ≤ split.children.length := by
  unfold proposeChildren at h
  split at h
  next =>
    rw [pure_bind] at h
    obtain ⟨proposed, -, h⟩ := bind_eq_ok.mp h
    dsimp only at h
    split at h
    · obtain ⟨_, hthrown, _⟩ := bind_eq_ok.mp h
      cases hthrown
    next henough =>
      obtain ⟨_, -, h⟩ := bind_eq_ok.mp h
      obtain ⟨_, -, h⟩ := bind_eq_ok.mp h
      cases pure_eq_ok.mp h
      rw [List.length_map, List.length_zipIdx]
      exact Nat.le_of_not_lt henough
  next =>
    obtain ⟨_, hthrown, _⟩ := bind_eq_ok.mp h
    cases hthrown

theorem Overflows.items_ne_nil {split : Decomposition} {board after : GoalBoard}
    (h : Overflows split board after) : split.items ≠ [] := by
  obtain ⟨_, _, _, _, _, hsplit, -⟩ := h
  have htwo := two_le_children hsplit
  intro hnil
  have hlength := congrArg List.length hnil
  rw [Decomposition.items, List.length_map, List.length_nil] at hlength
  omega

theorem score_of_mem_items {split : Decomposition} {item : BacklogItem} (h : item ∈ split.items) :
    item.score = split.parent.priority := by
  obtain ⟨child, -, rfl⟩ := List.mem_map.mp h
  rfl

theorem exists_out_of_order {P Q : Decomposition} {after : GoalBoard} {child item : BacklogItem}
    (hmore : P.parent.priority < Q.parent.priority) (hchild : child ∈ P.items)
    (hlesser : item ∈ Q.items) (hitem : item ∈ (queue after).takeWhile isPromotable) :
    ∃ events, ¬ InOrder P.items Q.items (promotions.run ⟨after, []⟩ events).promoted := by
  obtain ⟨events, hevents⟩ := exists_drain _ ⟨after, []⟩ (Nat.le_refl _)
  rw [List.nil_append] at hevents
  obtain ⟨before, rest, hparts⟩ := List.append_of_mem hitem
  refine ⟨events, fun horder => ?_⟩
  have hstarts : before ++ [item] <+: (promotions.run ⟨after, []⟩ events).promoted := by
    rw [hevents, hparts]
    exact ⟨rest, by rw [List.append_assoc, List.singleton_append]⟩
  have hearlier := horder before item hstarts hlesser child hchild
  -- the queue has the better scores first, and the child of the lesser goal has the better score
  have hsorted := (sorted_sortBacklog after).sublist (List.takeWhile_sublist isPromotable)
  change ((queue after).takeWhile isPromotable).Pairwise _ at hsorted
  rw [hparts] at hsorted
  have hscore := (List.pairwise_append.mp hsorted).2.2 child hearlier item List.mem_cons_self
  rw [score_of_mem_items hchild, score_of_mem_items hlesser] at hscore
  exact absurd (Nat.cast_le.mp hscore) (Nat.not_le.mpr hmore)

/-- The children of the more important goal become active first in every run exactly if an item that
cannot be promoted stands before all children of the other, which then never leave the backlog. -/
theorem overflow_order_iff {P Q : Decomposition} {board after : GoalBoard}
    (hboth : BothOverflow P Q board after) (hmore : P.parent.priority < Q.parent.priority) :
    (∀ events, InOrder P.items Q.items (promotions.run ⟨after, []⟩ events).promoted) ↔
      ∀ item ∈ (sortBacklog after).backlog.takeWhile isPromotable, item ∉ Q.items := by
  have hchild : ∃ child, child ∈ P.items := by
    obtain ⟨mid, ⟨hfirst, -⟩ | ⟨-, hsecond⟩⟩ := hboth
    · exact List.exists_mem_of_ne_nil _ hfirst.items_ne_nil
    · exact List.exists_mem_of_ne_nil _ hsecond.items_ne_nil
  constructor
  · intro horder item hitem hlesser
    obtain ⟨child, hchild⟩ := hchild
    obtain ⟨events, hfailed⟩ := exists_out_of_order hmore hchild hlesser hitem
    exact hfailed (horder events)
  · intro hnone events before item hstarts hlesser
    have hdrains := promotions.invariant_run drains_step (drains_start after) events
    have hpromoted := hstarts.mem (List.mem_append_right before (List.mem_singleton_self item))
    exact absurd hlesser (hnone item (hdrains.fit.mem hpromoted))

theorem overflows_of {store : GraphWrite → Except SimardError Unit} {goalId : String}
    {decomposer : GoalDecomposer} {maxChildren : Nat} {board : GoalBoard} {split : Decomposition}
    (hsplit : proposeChildren decomposer goalId maxChildren board = .ok split)
    (hwrites : (graphWrites split).forM (writeGraph store) = .ok ())
    (hplace : split.placement board = .backlog) :
    Overflows split board { board with backlog := board.backlog ++ split.items } := by
  refine ⟨store, goalId, decomposer, maxChildren, 0, hsplit, ?_⟩
  unfold Does decomposeGoal
  rw [call_get_bind, hsplit, call_check_ok, hwrites, call_check_ok, hplace]
  change (_, split.place 0 board) = _
  rw [Decomposition.place, hplace]

def parser : ActiveGoal := .new "p" "Port the parser" 1

def docs : ActiveGoal := .new "q" "Tidy the docs" 2

def crowded (backlog : List BacklogItem) : GoalBoard :=
  ⟨parser :: docs :: (List.range 18).map fun n => .new (toString n) "Other work" 3, backlog⟩

def inTwo (first second : String) : List SubGoalProposal := [⟨first, "", []⟩, ⟨second, "", []⟩]

def splitInTwo (parent : ActiveGoal) (first second : String) : Decomposition :=
  ⟨parent, [(childId parent.id 0, ⟨first, "", []⟩), (childId parent.id 1, ⟨second, "", []⟩)],
    addLabel parent.labels sourceDecomposition⟩

theorem proposeChildren_inTwo {parent : ActiveGoal} {board : GoalBoard}
    (hfound : board.active.find? (·.id = parent.id) = some parent)
    (hid : validGoalId "goal_id" parent.id = .ok ())
    (hfirst : validGoalId "child_goal_id" (childId parent.id 0) = .ok ())
    (hsecond : validGoalId "child_goal_id" (childId parent.id 1) = .ok ()) (first second : String) :
    proposeChildren (fun _ _ => .ok (inTwo first second)) parent.id 2 board =
      .ok (splitInTwo parent first second) := by
  unfold proposeChildren
  rw [hfound]
  change (do
    validGoalId "goal_id" parent.id
    (do
      validGoalId "child_goal_id" (childId parent.id 0)
      validGoalId "child_goal_id" (childId parent.id 1)
      pure ())
    return splitInTwo parent first second : Except SimardError Decomposition) = _
  rw [hid, hfirst, hsecond]
  rfl

theorem overflows_crowded {parent : ActiveGoal} {backlog : List BacklogItem}
    (hparent : parent = parser ∨ parent = docs) (first second : String)
    (hwrites : (graphWrites (splitInTwo parent first second)).forM (writeGraph fun _ => .ok ()) =
      .ok ()) :
    Overflows (splitInTwo parent first second) (crowded backlog)
      (crowded (backlog ++ (splitInTwo parent first second).items)) := by
  refine overflows_of (proposeChildren_inTwo ?_ ?_ ?_ ?_ first second) hwrites rfl
  · rcases hparent with rfl | rfl
    · rfl
    · change (parser :: _).find? _ = _
      rw [List.find?_cons_of_neg (by decide), List.find?_cons_of_pos (by decide)]
  · rcases hparent with rfl | rfl <;> decide
  · rcases hparent with rfl | rfl <;> decide
  · rcases hparent with rfl | rfl <;> decide

theorem bothOverflow_crowded (first second : String) :
    BothOverflow (splitInTwo parser "First half" "Second half") (splitInTwo docs first second)
      (crowded []) (crowded ((splitInTwo parser "First half" "Second half").items ++
        (splitInTwo docs first second).items)) := by
  refine ⟨_, .inl ⟨overflows_crowded (.inl rfl) _ _ ?_, overflows_crowded (.inr rfl) _ _ ?_⟩⟩
  · decide
  · have hedges :
        (graphWrites (splitInTwo docs "" "")).forM (writeGraph fun _ => .ok ()) = .ok () := by
      decide
    exact hedges

theorem blank_children_in_order :
    InOrder (splitInTwo parser "First half" "Second half").items (splitInTwo docs "" "").items
      (promotions.run ⟨crowded ((splitInTwo parser "First half" "Second half").items ++
        (splitInTwo docs "" "").items), []⟩ [.free 0, .promote]).promoted := by
  refine (overflow_order_iff (bothOverflow_crowded "" "") (by decide)).mpr ?_ _
  intro item hitem hlesser
  have hblank : ∀ item ∈ (splitInTwo docs "" "").items, isPromotable item = false := by decide
  have hfit := List.mem_takeWhile_imp hitem
  rw [hblank item hlesser] at hfit
  cases hfit

/-- Half of the docs goal becomes active before the parser goal's halves. -/
theorem lesser_children_first :
    BothOverflow (splitInTwo parser "First half" "Second half")
        (splitInTwo docs "First half" "Second half") (crowded [])
        (crowded ((splitInTwo parser "First half" "Second half").items ++
          (splitInTwo docs "First half" "Second half").items)) ∧
      parser.priority < docs.priority ∧
      ∃ events, ¬ InOrder (splitInTwo parser "First half" "Second half").items
        (splitInTwo docs "First half" "Second half").items
        (promotions.run ⟨crowded ((splitInTwo parser "First half" "Second half").items ++
          (splitInTwo docs "First half" "Second half").items), []⟩ events).promoted := by
  refine ⟨bothOverflow_crowded _ _, by decide, ?_⟩
  have hfit : ∀ item ∈ (splitInTwo parser "First half" "Second half").items ++
      (splitInTwo docs "First half" "Second half").items, isPromotable item := by decide
  refine @exists_out_of_order _ _ _ ⟨childId "p" 0, "First half", "decompose:p", 1⟩
    ⟨childId "q" 0, "First half", "decompose:q", 2⟩ (by decide) ?_ ?_ ?_
  · exact List.mem_cons_self
  · exact List.mem_cons_self
  · rw [List.takeWhile_eq_self_iff.mpr fun item hitem => hfit item (mem_queue.mp hitem)]
    exact mem_queue.mpr (List.mem_append_right _ List.mem_cons_self)

end Simard.Goals
