import Simard.Goals.Board
import Simard.Library.BTreeMap
import Simard.Library.BTreeSet
import Simard.Library.Ranking

/-! Two boards become one: `reconcile`, by which a cycle is committed over what
operators wrote meanwhile, and `mergeBoards`, by which a memory snapshot is saved.
Both take the union by id, and differ in which list an id ends up in. -/
namespace Simard.Goals
open Simard.Library BTreeMap

def activeIds (board : GoalBoard) : List String := board.active.map (·.id)

def backlogIds (board : GoalBoard) : List String := board.backlog.map (·.id)

def listings (board : GoalBoard) : List String := activeIds board ++ backlogIds board

/-- Lower priority numbers first, then ids in order. -/
def ActiveGoal.rank (goal : ActiveGoal) : Nat ×ₗ String := toLex (goal.priority, goal.id)

/-- The union of the active goals, the in-flight ones winning, without tombstoned
ones. -/
def unionActive (persisted inFlight : GoalBoard) (tombstones : Finset String) :
    BTreeMap String ActiveGoal :=
  (union (·.id) persisted.active inFlight.active).retain (· ∉ tombstones)

def unionBacklog (persisted inFlight : GoalBoard) (tombstones : Finset String) :
    BTreeMap String BacklogItem :=
  (union (·.id) persisted.backlog inFlight.backlog).retain (· ∉ tombstones)

/-- The daemon's board over the stored one. A goal cannot be both active and in
the backlog; active wins. -/
def reconcile (persisted inFlight : GoalBoard) (tombstones : Finset String) : GoalBoard :=
  let active := unionActive persisted inFlight tombstones
  let backlog := (unionBacklog persisted inFlight tombstones).retain fun id =>
    !active.containsKey id
  ⟨keepFirst ActiveGoal.rank maxActiveGoals active.values, backlog.values⟩

def contender (persisted inFlight : GoalBoard) (id : String) : Option ActiveGoal :=
  (last (·.id) inFlight.active id).or (last (·.id) persisted.active id)

def backlogContender (persisted inFlight : GoalBoard) (id : String) : Option BacklogItem :=
  (last (·.id) inFlight.backlog id).or (last (·.id) persisted.backlog id)

/-- As many goals as fit stand before this one, none of them tombstoned. -/
def Outranked (persisted inFlight : GoalBoard) (tombstones : Finset String)
    (goal : ActiveGoal) : Prop :=
  ∃ ids : Finset String, maxActiveGoals ≤ ids.card ∧ ∀ id ∈ ids, id ∉ tombstones ∧
    ∃ other, contender persisted inFlight id = some other ∧ other.rank < goal.rank

section Reconciled

variable {persisted inFlight : GoalBoard} {tombstones : Finset String}

theorem isSome_contender {id : String} :
    (contender persisted inFlight id).isSome ↔
      id ∈ activeIds inFlight ∨ id ∈ activeIds persisted := by
  unfold contender activeIds
  rw [Option.isSome_or, Bool.or_eq_true, isSome_last, isSome_last]

theorem isSome_backlogContender {id : String} :
    (backlogContender persisted inFlight id).isSome ↔
      id ∈ backlogIds inFlight ∨ id ∈ backlogIds persisted := by
  unfold backlogContender backlogIds
  rw [Option.isSome_or, Bool.or_eq_true, isSome_last, isSome_last]

theorem get?_unionActive {id : String} {goal : ActiveGoal} :
    (unionActive persisted inFlight tombstones).get? id = some goal ↔
      id ∉ tombstones ∧ contender persisted inFlight id = some goal := by
  unfold unionActive contender
  rw [get?_retain, get?_union]
  by_cases htomb : id ∈ tombstones <;> simp [htomb]

theorem get?_unionBacklog {id : String} {item : BacklogItem} :
    (unionBacklog persisted inFlight tombstones).get? id = some item ↔
      id ∉ tombstones ∧ backlogContender persisted inFlight id = some item := by
  unfold unionBacklog backlogContender
  rw [get?_retain, get?_union]
  by_cases htomb : id ∈ tombstones <;> simp [htomb]

theorem keyed_unionActive (id : String) (goal : ActiveGoal)
    (h : (unionActive persisted inFlight tombstones).get? id = some goal) : goal.id = id :=
  key_of_union (get?_of_retain h).2

theorem keyed_unionBacklog (id : String) (item : BacklogItem)
    (h : (unionBacklog persisted inFlight tombstones).get? id = some item) : item.id = id :=
  key_of_union (get?_of_retain h).2

theorem rank_injective {goal other : ActiveGoal} (h : goal.rank = other.rank) :
    goal.id = other.id := by
  have := congrArg (fun r => (ofLex r).2) h
  simpa [ActiveGoal.rank] using this

theorem outranked_iff {goal : ActiveGoal} :
    Outranked persisted inFlight tombstones goal ↔
      maxActiveGoals ≤
        ahead ActiveGoal.rank (unionActive persisted inFlight tombstones).values goal := by
  unfold ahead
  rw [le_countP_values keyed_unionActive]
  unfold Outranked
  simp only [get?_unionActive, decide_eq_true_eq, and_assoc, exists_and_left]

theorem mem_reconcile_active {goal : ActiveGoal} :
    goal ∈ (reconcile persisted inFlight tombstones).active ↔
      goal.id ∉ tombstones ∧ contender persisted inFlight goal.id = some goal ∧
        ¬ Outranked persisted inFlight tombstones goal := by
  have hinj : ∀ a ∈ (unionActive persisted inFlight tombstones).values,
      ∀ b ∈ (unionActive persisted inFlight tombstones).values, a.rank = b.rank → a = b :=
    fun a ha b hb heq => eq_of_mem_values keyed_unionActive ha hb (rank_injective heq)
  change goal ∈ keepFirst ActiveGoal.rank maxActiveGoals _ ↔ _
  rw [mem_keepFirst _ hinj, mem_values_iff keyed_unionActive, get?_unionActive, outranked_iff,
    Nat.not_le, and_assoc]

def reconciledBacklog (persisted inFlight : GoalBoard) (tombstones : Finset String) :
    BTreeMap String BacklogItem :=
  (unionBacklog persisted inFlight tombstones).retain fun id =>
    !(unionActive persisted inFlight tombstones).containsKey id

theorem keyed_reconciledBacklog (id : String) (item : BacklogItem)
    (h : (reconciledBacklog persisted inFlight tombstones).get? id = some item) : item.id = id :=
  keyed_unionBacklog id item (get?_of_retain h).2

theorem mem_reconcile_backlog {item : BacklogItem} :
    item ∈ (reconcile persisted inFlight tombstones).backlog ↔
      item.id ∉ tombstones ∧ backlogContender persisted inFlight item.id = some item ∧
        contender persisted inFlight item.id = none := by
  change item ∈ (reconciledBacklog persisted inFlight tombstones).values ↔ _
  rw [mem_values_iff keyed_reconciledBacklog]
  unfold reconciledBacklog
  rw [get?_retain, containsKey_eq]
  by_cases htomb : item.id ∈ tombstones
  · simp [htomb, unionBacklog, get?_retain]
  · have hactive : (unionActive persisted inFlight tombstones).get? item.id =
        contender persisted inFlight item.id := by
      ext goal
      simp [get?_unionActive, htomb]
    rw [hactive]
    cases contender persisted inFlight item.id with
    | none => simp [get?_unionBacklog]
    | some goal => simp

theorem nodup_activeIds_reconcile :
    (activeIds (reconcile persisted inFlight tombstones)).Nodup := by
  have hvalues : ((unionActive persisted inFlight tombstones).values.map (·.id)).Nodup :=
    nodup_values keyed_unionActive
  obtain ⟨kept, hperm, hsub⟩ := keepFirst_subperm ActiveGoal.rank maxActiveGoals
    (unionActive persisted inFlight tombstones).values
  exact (hperm.map (·.id)).nodup_iff.mp (hvalues.sublist (hsub.map (·.id)))

theorem nodup_backlogIds_reconcile :
    (backlogIds (reconcile persisted inFlight tombstones)).Nodup := by
  have hvalues : ((reconciledBacklog persisted inFlight tombstones).values.map (·.id)).Nodup :=
    nodup_values keyed_reconciledBacklog
  exact hvalues

theorem disjoint_reconcile {id : String}
    (hactive : id ∈ activeIds (reconcile persisted inFlight tombstones)) :
    id ∉ backlogIds (reconcile persisted inFlight tombstones) := by
  intro hbacklog
  obtain ⟨goal, hgoal, rfl⟩ := List.mem_map.mp hactive
  obtain ⟨item, hitem, hid⟩ := List.mem_map.mp hbacklog
  have hkept := (mem_reconcile_active.mp hgoal).2.1
  have hnone := (mem_reconcile_backlog.mp hitem).2.2
  rw [hid, hkept] at hnone
  cases hnone

theorem nodup_listings_reconcile :
    (listings (reconcile persisted inFlight tombstones)).Nodup :=
  List.nodup_append'.mpr ⟨nodup_activeIds_reconcile, nodup_backlogIds_reconcile,
    fun _ hactive hbacklog => disjoint_reconcile hactive hbacklog⟩

theorem not_tombstoned_of_listed {id : String}
    (h : id ∈ listings (reconcile persisted inFlight tombstones)) : id ∉ tombstones := by
  rcases List.mem_append.mp h with hactive | hbacklog
  · obtain ⟨goal, hgoal, rfl⟩ := List.mem_map.mp hactive
    exact (mem_reconcile_active.mp hgoal).1
  · obtain ⟨item, hitem, rfl⟩ := List.mem_map.mp hbacklog
    exact (mem_reconcile_backlog.mp hitem).1

theorem contender_id {id : String} {goal : ActiveGoal}
    (h : contender persisted inFlight id = some goal) : goal.id = id := by
  unfold contender at h
  rw [← get?_union] at h
  exact key_of_union h

theorem backlogContender_id {id : String} {item : BacklogItem}
    (h : backlogContender persisted inFlight id = some item) : item.id = id := by
  unfold backlogContender at h
  rw [← get?_union] at h
  exact key_of_union h

theorem mem_activeIds_reconcile {id : String} :
    id ∈ activeIds (reconcile persisted inFlight tombstones) ↔
      id ∉ tombstones ∧ ∃ goal, contender persisted inFlight id = some goal ∧
        ¬ Outranked persisted inFlight tombstones goal := by
  constructor
  · intro h
    obtain ⟨goal, hgoal, rfl⟩ := List.mem_map.mp h
    obtain ⟨htomb, hcontender, hrank⟩ := mem_reconcile_active.mp hgoal
    exact ⟨htomb, goal, hcontender, hrank⟩
  · rintro ⟨htomb, goal, hcontender, hrank⟩
    obtain rfl := contender_id hcontender
    exact List.mem_map_of_mem (mem_reconcile_active.mpr ⟨htomb, hcontender, hrank⟩)

theorem mem_backlogIds_reconcile {id : String} :
    id ∈ backlogIds (reconcile persisted inFlight tombstones) ↔
      id ∉ tombstones ∧ (backlogContender persisted inFlight id).isSome ∧
        contender persisted inFlight id = none := by
  constructor
  · intro h
    obtain ⟨item, hitem, rfl⟩ := List.mem_map.mp h
    obtain ⟨htomb, hcontender, hnone⟩ := mem_reconcile_backlog.mp hitem
    exact ⟨htomb, Option.isSome_of_eq_some hcontender, hnone⟩
  · rintro ⟨htomb, hsome, hnone⟩
    obtain ⟨item, hitem⟩ := Option.isSome_iff_exists.mp hsome
    obtain rfl := backlogContender_id hitem
    exact List.mem_map_of_mem (mem_reconcile_backlog.mpr ⟨htomb, hitem, hnone⟩)

theorem not_outranked_of_few {ids : Finset String} (hcard : ids.card ≤ maxActiveGoals)
    (hids : ∀ id, id ∉ tombstones → (contender persisted inFlight id).isSome → id ∈ ids)
    {goal : ActiveGoal} (htomb : goal.id ∉ tombstones)
    (hgoal : contender persisted inFlight goal.id = some goal) :
    ¬ Outranked persisted inFlight tombstones goal := by
  rintro ⟨before, hbefore, hahead⟩
  have hself : goal.id ∉ before := by
    intro hmem
    obtain ⟨-, other, hother, hlt⟩ := hahead goal.id hmem
    rw [hgoal] at hother
    cases hother
    exact lt_irrefl _ hlt
  have hsub : before.cons goal.id hself ⊆ ids := by
    intro id hid
    rcases Finset.mem_cons.mp hid with rfl | hid
    · exact hids _ htomb (Option.isSome_of_eq_some hgoal)
    · obtain ⟨hlive, other, hother, -⟩ := hahead id hid
      exact hids id hlive (Option.isSome_of_eq_some hother)
  have hle := (Finset.card_le_card hsub).trans hcard
  rw [Finset.card_cons] at hle
  omega

theorem listed_of_reconcile {id : String}
    (h : id ∈ listings (reconcile persisted inFlight tombstones)) :
    id ∈ listings persisted ∨ id ∈ listings inFlight := by
  unfold listings at h ⊢
  simp only [List.mem_append] at h ⊢
  rcases h with hactive | hbacklog
  · obtain ⟨-, goal, hgoal, -⟩ := mem_activeIds_reconcile.mp hactive
    have hlisted := isSome_contender.mp (Option.isSome_of_eq_some hgoal)
    tauto
  · have hlisted := isSome_backlogContender.mp (mem_backlogIds_reconcile.mp hbacklog).2.1
    tauto

end Reconciled

/-- Reconciliation loses no goal. -/
structure Reconciles (persisted inFlight : GoalBoard) (tombstones : Finset String) : Prop where
  listed : ∀ id, id ∈ listings persisted ∨ id ∈ listings inFlight → id ∉ tombstones →
    (listings (reconcile persisted inFlight tombstones)).count id = 1
  tombstoned : ∀ id ∈ tombstones, id ∉ listings (reconcile persisted inFlight tombstones)
  capped : (reconcile persisted inFlight tombstones).active.length ≤ maxActiveGoals
  kept : ∀ goal ∈ inFlight.active, ∀ kept ∈ (reconcile persisted inFlight tombstones).active,
    kept.id = goal.id → kept = goal

def liveActiveIds (persisted inFlight : GoalBoard) (tombstones : Finset String) : Finset String :=
  (activeIds persisted ++ activeIds inFlight).toFinset \ tombstones

section Losses

variable {persisted inFlight : GoalBoard} {tombstones : Finset String}

theorem mem_liveActiveIds {id : String} :
    id ∈ liveActiveIds persisted inFlight tombstones ↔
      (contender persisted inFlight id).isSome ∧ id ∉ tombstones := by
  unfold liveActiveIds
  rw [Finset.mem_sdiff, List.mem_toFinset, List.mem_append, isSome_contender,
    or_comm (a := id ∈ activeIds persisted)]

theorem mem_listings_reconcile {id : String} :
    id ∈ listings (reconcile persisted inFlight tombstones) ↔
      id ∉ tombstones ∧ (id ∈ listings persisted ∨ id ∈ listings inFlight) ∧
        ∀ goal, contender persisted inFlight id = some goal →
          ¬ Outranked persisted inFlight tombstones goal := by
  unfold listings
  simp only [List.mem_append, mem_activeIds_reconcile, mem_backlogIds_reconcile,
    isSome_backlogContender]
  have hactive : (contender persisted inFlight id).isSome ↔
      id ∈ activeIds inFlight ∨ id ∈ activeIds persisted := isSome_contender
  cases hcontender : contender persisted inFlight id with
  | some goal =>
    rw [hcontender] at hactive
    have hlisted := hactive.mp rfl
    simp only [reduceCtorEq, and_false, or_false, Option.some.injEq, exists_eq_left',
      forall_eq']
    tauto
  | none =>
    rw [hcontender] at hactive
    have hinactive : ¬ (id ∈ activeIds inFlight ∨ id ∈ activeIds persisted) := fun h =>
      Bool.false_ne_true (hactive.mpr h)
    simp only [reduceCtorEq, false_and, exists_false, and_false, false_or, and_true,
      false_implies, implies_true]
    tauto

theorem count_listings_reconcile {id : String} :
    (listings (reconcile persisted inFlight tombstones)).count id = 1 ↔
      id ∈ listings (reconcile persisted inFlight tombstones) :=
  ⟨fun h => List.count_pos_iff.mp (by omega), List.count_eq_one_of_mem nodup_listings_reconcile⟩

theorem kept_of_reconcile (hunique : (activeIds inFlight).Nodup) {goal kept : ActiveGoal}
    (hgoal : goal ∈ inFlight.active)
    (hkept : kept ∈ (reconcile persisted inFlight tombstones).active) (hid : kept.id = goal.id) :
    kept = goal := by
  have hcontender := (mem_reconcile_active.mp hkept).2.1
  unfold contender at hcontender
  rw [hid, last_of_nodup hunique hgoal, Option.some_or] at hcontender
  exact (Option.some_inj.mp hcontender).symm

theorem few_of_reconciles (h : Reconciles persisted inFlight tombstones) :
    (liveActiveIds persisted inFlight tombstones).card ≤ maxActiveGoals := by
  have hactive : liveActiveIds persisted inFlight tombstones ⊆
      (activeIds (reconcile persisted inFlight tombstones)).toFinset := by
    intro id hid
    obtain ⟨hsome, hlive⟩ := mem_liveActiveIds.mp hid
    obtain ⟨goal, hgoal⟩ := Option.isSome_iff_exists.mp hsome
    have hboards : id ∈ listings persisted ∨ id ∈ listings inFlight := by
      unfold listings
      simp only [List.mem_append]
      have := isSome_contender.mp hsome
      tauto
    have hlisted := count_listings_reconcile.mp (h.listed id hboards hlive)
    -- its backlog copies are gone, so it must have kept a place
    exact List.mem_toFinset.mpr (mem_activeIds_reconcile.mpr
      ⟨hlive, goal, hgoal, (mem_listings_reconcile.mp hlisted).2.2 goal hgoal⟩)
  calc (liveActiveIds persisted inFlight tombstones).card
      ≤ (activeIds (reconcile persisted inFlight tombstones)).toFinset.card :=
        Finset.card_le_card hactive
    _ ≤ (activeIds (reconcile persisted inFlight tombstones)).length :=
        List.toFinset_card_le _
    _ = (reconcile persisted inFlight tombstones).active.length := List.length_map _
    _ ≤ maxActiveGoals := h.capped

theorem reconciles_of_few (hunique : (activeIds inFlight).Nodup)
    (hfew : (liveActiveIds persisted inFlight tombstones).card ≤ maxActiveGoals) :
    Reconciles persisted inFlight tombstones where
  listed id hboards hlive := by
    refine count_listings_reconcile.mpr (mem_listings_reconcile.mpr ⟨hlive, hboards, ?_⟩)
    intro goal hgoal
    obtain rfl := contender_id hgoal
    exact not_outranked_of_few hfew
      (fun id htomb hsome => mem_liveActiveIds.mpr ⟨hsome, htomb⟩) hlive hgoal
  tombstoned _ htomb hlisted := not_tombstoned_of_listed hlisted htomb
  capped := length_keepFirst_le _ _ _
  kept _ hgoal _ hkept hid := kept_of_reconcile hunique hgoal hkept hid

end Losses

/-- No goal is lost exactly when all that are left fit among the active ones. The
union of the backlogs, which nothing truncates, loses the ids that are active too
and do not fit. -/
theorem reconcile_loses_none_iff (persisted inFlight : GoalBoard) (tombstones : Finset String)
    (hunique : (activeIds inFlight).Nodup) :
    (Reconciles persisted inFlight tombstones ↔
      (liveActiveIds persisted inFlight tombstones).card ≤ maxActiveGoals) ∧
    ((∀ id, id ∈ backlogIds persisted ∨ id ∈ backlogIds inFlight → id ∉ tombstones →
        (listings (reconcile persisted inFlight tombstones)).count id = 1) ↔
      ∀ id, id ∈ backlogIds persisted ∨ id ∈ backlogIds inFlight → id ∉ tombstones →
        ∀ goal, contender persisted inFlight id = some goal →
          ¬ Outranked persisted inFlight tombstones goal) := by
  refine ⟨⟨few_of_reconciles, reconciles_of_few hunique⟩, ?_⟩
  refine forall₃_congr fun id hbacklog hlive => ?_
  have hboards : id ∈ listings persisted ∨ id ∈ listings inFlight := by
    unfold listings
    simp only [List.mem_append]
    tauto
  rw [count_listings_reconcile, mem_listings_reconcile]
  tauto

theorem operator_goal_kept :
    Reconciles ⟨[.new "docs" "" 1, .new "new" "" 2], [⟨"old", "", "", 0⟩]⟩
      ⟨[.new "docs" "In progress" 1], [⟨"later", "", "", 0⟩]⟩ {"old"} :=
  ((reconcile_loses_none_iff _ _ _ (by decide)).1).mpr (by decide)

def numberedGoal (n : Nat) : ActiveGoal := .new (toString n) "" 1

/-- The store full to the cap, and one goal more on the daemon's board. -/
def fullBoard : GoalBoard := ⟨(List.range' 10 maxActiveGoals).map numberedGoal, []⟩

def newcomerBoard : GoalBoard := ⟨[numberedGoal 30], []⟩

def fullBoardBacklogged : GoalBoard := { fullBoard with backlog := [⟨"30", "", "", 0⟩] }

/-- The newcomer is in the stored backlog and active on the daemon's board, not
tombstoned, and gone. -/
theorem backlogged_newcomer_lost :
    (activeIds fullBoardBacklogged).Nodup ∧ (backlogIds fullBoardBacklogged).Nodup ∧
      (activeIds newcomerBoard).Nodup ∧ (backlogIds newcomerBoard).Nodup ∧
      "30" ∈ backlogIds fullBoardBacklogged ∧ "30" ∈ activeIds newcomerBoard ∧
      "30" ∉ listings (reconcile fullBoardBacklogged newcomerBoard ∅) ∧
        ¬ Reconciles fullBoardBacklogged newcomerBoard ∅ := by
  have hlost : "30" ∉ listings (reconcile fullBoardBacklogged newcomerBoard ∅) := by decide
  refine ⟨by decide, by decide, by decide, by decide, by decide, by decide, hlost, ?_⟩
  intro h
  exact hlost (count_listings_reconcile.mp (h.listed "30" (Or.inl (by decide)) (by decide)))

/-- Lower priority numbers first, then in-flight goals, then ids in order. -/
def originRank (goal : ActiveGoal × Bool) : Nat ×ₗ Bool ×ₗ String :=
  toLex (goal.1.priority, toLex (!goal.2, goal.1.id))

def inFlightIds (inFlight : GoalBoard) : BTreeSet String := BTreeSet.ofList (listings inFlight)

/-- Stored goals that the in-flight board does not list, then the in-flight ones,
each with its origin. -/
def mergedActive (persisted inFlight : GoalBoard) : BTreeMap String (ActiveGoal × Bool) :=
  union (·.1.id)
    ((persisted.active.filter fun goal => !(inFlightIds inFlight).contains goal.id).map (·, false))
    (inFlight.active.map (·, true))

def mergedBacklog (persisted inFlight : GoalBoard) : BTreeMap String BacklogItem :=
  union (·.id) (persisted.backlog.filter fun item => !(inFlightIds inFlight).contains item.id)
    inFlight.backlog

def mergeBoards (persisted inFlight : GoalBoard) : GoalBoard :=
  ⟨(keepFirst originRank maxActiveGoals (mergedActive persisted inFlight).values).map (·.1),
    (mergedBacklog persisted inFlight).values⟩

/-- The active goals of the two boards together fit under the cap. -/
def BelowCap (persisted inFlight : GoalBoard) : Prop :=
  ((activeIds persisted).toFinset ∪ (activeIds inFlight).toFinset).card ≤ maxActiveGoals

/-- What `mergeBoards` puts under an id: stored entries count only for ids that the
in-flight board lists nowhere. -/
def mergeContender (persisted inFlight : GoalBoard) (id : String) : Option ActiveGoal :=
  (last (·.id) inFlight.active id).or
    (if id ∈ listings inFlight then none else last (·.id) persisted.active id)

def mergeBacklogContender (persisted inFlight : GoalBoard) (id : String) : Option BacklogItem :=
  (last (·.id) inFlight.backlog id).or
    (if id ∈ listings inFlight then none else last (·.id) persisted.backlog id)

section Merged

variable {persisted inFlight : GoalBoard}

theorem not_outranked_of_belowCap (hcap : BelowCap persisted inFlight) {goal : ActiveGoal}
    (hgoal : contender persisted inFlight goal.id = some goal) :
    ¬ Outranked persisted inFlight ∅ goal := by
  refine not_outranked_of_few hcap ?_ (Finset.notMem_empty _) hgoal
  intro id _ hsome
  have := isSome_contender.mp hsome
  simpa [or_comm] using this

theorem get?_mergedActive (id : String) :
    ((mergedActive persisted inFlight).get? id).map (·.1) =
      mergeContender persisted inFlight id := by
  unfold mergedActive mergeContender
  rw [get?_union, last_map, last_map]
  simp only [Function.comp_def]
  rw [last_filter fun id => !(inFlightIds inFlight).contains id]
  unfold inFlightIds
  rw [BTreeSet.contains_ofList, Option.map_or, Option.map_map, Option.map_map]
  by_cases hlisted : id ∈ listings inFlight <;> simp [hlisted, Function.comp_def]

theorem get?_mergedBacklog (id : String) :
    (mergedBacklog persisted inFlight).get? id = mergeBacklogContender persisted inFlight id := by
  unfold mergedBacklog mergeBacklogContender
  rw [get?_union, last_filter fun id => !(inFlightIds inFlight).contains id]
  unfold inFlightIds
  rw [BTreeSet.contains_ofList]
  by_cases hlisted : id ∈ listings inFlight <;> simp [hlisted]

theorem mergeContender_id {id : String} {goal : ActiveGoal}
    (h : mergeContender persisted inFlight id = some goal) : goal.id = id := by
  unfold mergeContender at h
  rcases Option.or_eq_some_iff.mp h with hfound | ⟨-, hfound⟩
  · exact key_last hfound
  · split at hfound
    · cases hfound
    · exact key_last hfound

theorem keyed_mergedActive (id : String) (entry : ActiveGoal × Bool)
    (h : (mergedActive persisted inFlight).get? id = some entry) : entry.1.id = id := by
  have hkey := key_of_union h
  exact hkey

theorem isSome_mergeContender {id : String} (h : (mergeContender persisted inFlight id).isSome) :
    id ∈ activeIds inFlight ∨ id ∈ activeIds persisted := by
  unfold mergeContender at h
  rw [Option.isSome_or, Bool.or_eq_true, isSome_last] at h
  refine h.imp_right fun hpersisted => ?_
  split at hpersisted
  · cases hpersisted
  · exact isSome_last.mp hpersisted

theorem length_mergedActive_le (hcap : BelowCap persisted inFlight) :
    (mergedActive persisted inFlight).values.length ≤ maxActiveGoals := by
  have hnodup : ((mergedActive persisted inFlight).values.map (·.1.id)).Nodup :=
    nodup_values keyed_mergedActive
  have hsub : ((mergedActive persisted inFlight).values.map (·.1.id)).toFinset ⊆
      (activeIds persisted).toFinset ∪ (activeIds inFlight).toFinset := by
    intro id hid
    obtain ⟨entry, hentry⟩ := Option.isSome_iff_exists.mp
      ((mem_map_values keyed_mergedActive).mp (List.mem_toFinset.mp hid))
    have hsome : (mergeContender persisted inFlight id).isSome := by
      rw [← get?_mergedActive, hentry]
      rfl
    have := isSome_mergeContender hsome
    simpa [or_comm] using this
  have hle := (Finset.card_le_card hsub).trans hcap
  rwa [List.toFinset_card_of_nodup hnodup, List.length_map] at hle

theorem mem_mergeBoards_active (hcap : BelowCap persisted inFlight) {goal : ActiveGoal} :
    goal ∈ (mergeBoards persisted inFlight).active ↔
      mergeContender persisted inFlight goal.id = some goal := by
  have hkept : keepFirst originRank maxActiveGoals (mergedActive persisted inFlight).values =
      (mergedActive persisted inFlight).values :=
    if_neg (Nat.not_lt.mpr (length_mergedActive_le hcap))
  unfold mergeBoards
  rw [hkept, ← get?_mergedActive, List.mem_map, Option.map_eq_some_iff]
  constructor
  · rintro ⟨entry, hentry, rfl⟩
    exact ⟨entry, (mem_values_iff keyed_mergedActive).mp hentry, rfl⟩
  · rintro ⟨entry, hentry, rfl⟩
    exact ⟨entry, (mem_values_iff keyed_mergedActive).mpr hentry, rfl⟩

theorem mem_mergeBoards_backlog {item : BacklogItem} :
    item ∈ (mergeBoards persisted inFlight).backlog ↔
      mergeBacklogContender persisted inFlight item.id = some item := by
  change item ∈ (mergedBacklog persisted inFlight).values ↔ _
  rw [mem_values_iff fun _ _ h => key_of_union h, get?_mergedBacklog]

theorem mergeBacklogContender_id {id : String} {item : BacklogItem}
    (h : mergeBacklogContender persisted inFlight id = some item) : item.id = id :=
  key_of_union (get?_mergedBacklog id ▸ h)

end Merged

def DemotionsSurvive (persisted inFlight : GoalBoard) (tombstones : Finset String) : Prop :=
  ∀ id ∈ backlogIds inFlight, id ∉ activeIds inFlight →
    id ∉ activeIds (reconcile persisted inFlight tombstones)

/-- The same goals are active and the same items in the backlog. -/
def MergesAgree (persisted inFlight : GoalBoard) : Prop :=
  (∀ goal, goal ∈ (reconcile persisted inFlight ∅).active ↔
    goal ∈ (mergeBoards persisted inFlight).active) ∧
  ∀ item, item ∈ (reconcile persisted inFlight ∅).backlog ↔
    item ∈ (mergeBoards persisted inFlight).backlog

/-- An id in the backlog on its way out of the active goals, or one that the stored
board alone lists twice. -/
def CrossListed (persisted inFlight : GoalBoard) (id : String) : Prop :=
  (id ∈ backlogIds inFlight ∧ (id ∈ activeIds persisted ∨ id ∈ activeIds inFlight)) ∨
    (id ∈ backlogIds persisted ∧ id ∈ activeIds persisted ∧ id ∉ listings inFlight)

theorem lookups_agree_iff {α : Type} {key : α → String} {f g : String → Option α}
    (hf : ∀ id v, f id = some v → key v = id) (hg : ∀ id v, g id = some v → key v = id) :
    (∀ v, f (key v) = some v ↔ g (key v) = some v) ↔ ∀ id, f id = g id := by
  constructor
  · intro h id
    ext v
    constructor
    · intro hfv
      exact hf id v hfv ▸ (h v).mp (hf id v hfv ▸ hfv)
    · intro hgv
      exact hg id v hgv ▸ (h v).mpr (hg id v hgv ▸ hgv)
  · intro h v
    rw [h (key v)]

def keptBacklog (persisted inFlight : GoalBoard) (id : String) : Option BacklogItem :=
  if (contender persisted inFlight id).isNone then backlogContender persisted inFlight id else none

section Agreement

variable {persisted inFlight : GoalBoard}

theorem contender_eq_mergeContender_iff {id : String} :
    contender persisted inFlight id = mergeContender persisted inFlight id ↔
      ¬ (id ∈ backlogIds inFlight ∧ id ∈ activeIds persisted ∧ id ∉ activeIds inFlight) := by
  have hflight : (last (·.id) inFlight.active id).isSome ↔ id ∈ activeIds inFlight := isSome_last
  have hstored : (last (·.id) persisted.active id).isSome ↔ id ∈ activeIds persisted := isSome_last
  unfold contender mergeContender listings
  cases hlast : last (·.id) inFlight.active id with
  | some goal =>
    have hactive : id ∈ activeIds inFlight := hflight.mp (by rw [hlast]; rfl)
    simp [hactive]
  | none =>
    have hinactive : id ∉ activeIds inFlight := fun h => by simpa [hlast] using hflight.mpr h
    rw [← hstored]
    by_cases hback : id ∈ backlogIds inFlight
    · cases last (·.id) persisted.active id <;> simp [hback, hinactive]
    · simp [hback, hinactive]

theorem keptBacklog_eq_mergeBacklogContender_iff {id : String} :
    keptBacklog persisted inFlight id = mergeBacklogContender persisted inFlight id ↔
      ¬ CrossListed persisted inFlight id := by
  have hflight : (last (·.id) inFlight.backlog id).isSome ↔ id ∈ backlogIds inFlight := isSome_last
  have hstored : (last (·.id) persisted.backlog id).isSome ↔ id ∈ backlogIds persisted :=
    isSome_last
  have hactive : (contender persisted inFlight id).isNone ↔
      ¬ (id ∈ activeIds inFlight ∨ id ∈ activeIds persisted) := by
    rw [← isSome_contender]
    simp
  unfold keptBacklog mergeBacklogContender backlogContender CrossListed listings
  simp only [hactive, List.mem_append]
  cases hlast : last (·.id) inFlight.backlog id with
  | some item =>
    have hback : id ∈ backlogIds inFlight := hflight.mp (by rw [hlast]; rfl)
    by_cases hfa : id ∈ activeIds inFlight <;> by_cases hpa : id ∈ activeIds persisted <;>
      simp [hback, hfa, hpa]
  | none =>
    have hback : id ∉ backlogIds inFlight := fun h => by simpa [hlast] using hflight.mpr h
    rw [← hstored]
    by_cases hfa : id ∈ activeIds inFlight <;> by_cases hpa : id ∈ activeIds persisted <;>
      cases last (·.id) persisted.backlog id <;> simp [hback, hfa, hpa]

theorem keptBacklog_id {id : String} {item : BacklogItem}
    (h : keptBacklog persisted inFlight id = some item) : item.id = id := by
  unfold keptBacklog at h
  split at h
  · exact backlogContender_id h
  · cases h

theorem mergesAgree_iff (hcap : BelowCap persisted inFlight) :
    MergesAgree persisted inFlight ↔ ∀ id, ¬ CrossListed persisted inFlight id := by
  have hactive (goal : ActiveGoal) : goal ∈ (reconcile persisted inFlight ∅).active ↔
      contender persisted inFlight goal.id = some goal := by
    rw [mem_reconcile_active]
    simp only [Finset.notMem_empty, not_false_eq_true, true_and]
    exact and_iff_left_of_imp (not_outranked_of_belowCap hcap)
  have hbacklog (item : BacklogItem) : item ∈ (reconcile persisted inFlight ∅).backlog ↔
      keptBacklog persisted inFlight item.id = some item := by
    rw [mem_reconcile_backlog]
    unfold keptBacklog
    cases contender persisted inFlight item.id <;> simp
  unfold MergesAgree
  simp only [hactive, hbacklog, mem_mergeBoards_active hcap, mem_mergeBoards_backlog]
  rw [lookups_agree_iff (fun _ _ => contender_id) (fun _ _ => mergeContender_id),
    lookups_agree_iff (fun _ _ => keptBacklog_id) (fun _ _ => mergeBacklogContender_id)]
  simp only [contender_eq_mergeContender_iff, keptBacklog_eq_mergeBacklogContender_iff]
  refine and_iff_right_of_imp fun h id hdemoted => ?_
  exact h id (Or.inl ⟨hdemoted.1, Or.inl hdemoted.2.1⟩)

theorem demotionsSurvive_iff (tombstones : Finset String) :
    DemotionsSurvive persisted inFlight tombstones ↔
      ∀ id ∈ backlogIds inFlight, id ∉ activeIds inFlight →
        ∀ goal, last (·.id) persisted.active id = some goal →
          id ∈ tombstones ∨ Outranked persisted inFlight tombstones goal := by
  unfold DemotionsSurvive
  refine forall₃_congr fun id hback hinactive => ?_
  have hnone : last (·.id) inFlight.active id = none := by
    have : ¬ (last (·.id) inFlight.active id).isSome := fun h => hinactive (isSome_last.mp h)
    simpa using this
  rw [mem_activeIds_reconcile]
  unfold contender
  rw [hnone, Option.none_or]
  constructor
  · intro h goal hgoal
    by_contra hlost
    rw [not_or] at hlost
    exact h ⟨hlost.1, goal, hgoal, hlost.2⟩
  · rintro h ⟨htomb, goal, hgoal, hrank⟩
    exact (h goal hgoal).elim htomb hrank

end Agreement

/-- A demotion survives exactly when no active stored goal contradicts it, and the
two merges agree below the cap exactly when no id is listed across. -/
theorem demotion_survives_iff (persisted inFlight : GoalBoard) (tombstones : Finset String) :
    (DemotionsSurvive persisted inFlight tombstones ∧
        (BelowCap persisted inFlight → MergesAgree persisted inFlight)) ↔
      (∀ id ∈ backlogIds inFlight, id ∉ activeIds inFlight →
        ∀ goal, last (·.id) persisted.active id = some goal →
          id ∈ tombstones ∨ Outranked persisted inFlight tombstones goal) ∧
      (BelowCap persisted inFlight → ∀ id, ¬ CrossListed persisted inFlight id) := by
  rw [demotionsSurvive_iff]
  exact and_congr_right fun _ => forall_congr' mergesAgree_iff

def demotedBoard : GoalBoard := ⟨[], [⟨"g", "", "demoted", 0⟩]⟩

def undemotedBoard : GoalBoard := ⟨[.new "g" "" 1], []⟩

theorem demotion_undone :
    "g" ∈ backlogIds demotedBoard ∧ "g" ∉ activeIds demotedBoard ∧
      "g" ∈ activeIds (reconcile undemotedBoard demotedBoard ∅) ∧
      "g" ∉ activeIds (mergeBoards undemotedBoard demotedBoard) ∧
        ¬ DemotionsSurvive undemotedBoard demotedBoard ∅ := by
  have hkept : "g" ∈ activeIds (reconcile undemotedBoard demotedBoard ∅) := by decide
  refine ⟨by decide, by decide, hkept, by decide, ?_⟩
  intro hsurvive
  exact hsurvive "g" (by decide) (by decide) hkept

end Simard.Goals
