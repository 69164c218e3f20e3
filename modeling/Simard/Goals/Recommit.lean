import Simard.Goals.Reconcile

/-! Committing the same cycle twice. Below the cap nothing changes; above it the first commit leaves
the active goals in the order of their ranks, and the second finds them few enough to leave in the
order of their ids. -/
namespace Simard.Goals
open Simard.Library BTreeMap

section Recommit

variable {persisted inFlight : GoalBoard} {tombstones : Finset String} {id : String}

theorem last_reconcile_active {goal : ActiveGoal} :
    last (·.id) (reconcile persisted inFlight tombstones).active id = some goal ↔
      goal ∈ (reconcile persisted inFlight tombstones).active ∧ goal.id = id := by
  constructor
  · intro hlast
    exact ⟨mem_of_last hlast, key_last hlast⟩
  · rintro ⟨hgoal, rfl⟩
    exact last_of_nodup nodup_activeIds_reconcile hgoal

theorem last_reconcile_backlog {item : BacklogItem} :
    last (·.id) (reconcile persisted inFlight tombstones).backlog id = some item ↔
      item ∈ (reconcile persisted inFlight tombstones).backlog ∧ item.id = id := by
  constructor
  · intro hlast
    exact ⟨mem_of_last hlast, key_last hlast⟩
  · rintro ⟨hitem, rfl⟩
    exact last_of_nodup nodup_backlogIds_reconcile hitem

theorem contender_again {goal : ActiveGoal} (htomb : id ∉ tombstones) :
    contender (reconcile persisted inFlight tombstones) inFlight id = some goal ↔
      contender persisted inFlight id = some goal ∧
        (id ∈ activeIds inFlight ∨ ¬ Outranked persisted inFlight tombstones goal) := by
  have hflight : (last (·.id) inFlight.active id).isSome ↔ id ∈ activeIds inFlight := isSome_last
  unfold contender
  rw [← hflight]
  cases hlast : last (·.id) inFlight.active id with
  | some first => simp
  | none =>
    have hstored : contender persisted inFlight id = last (·.id) persisted.active id := by
      rw [contender, hlast, Option.none_or]
    rw [Option.none_or, Option.none_or, last_reconcile_active, mem_reconcile_active, ← hstored]
    constructor
    · rintro ⟨⟨-, hgoal, hkept⟩, rfl⟩
      exact ⟨hgoal, .inr hkept⟩
    · rintro ⟨hgoal, hkept⟩
      obtain rfl := contender_id hgoal
      exact ⟨⟨htomb, hgoal, hkept.resolve_left (by simp)⟩, rfl⟩

def comesAgain (persisted inFlight : GoalBoard) (tombstones : Finset String) (goal : ActiveGoal) :
    Bool :=
  goal.id ∈ activeIds inFlight ||
    ahead ActiveGoal.rank (unionActive persisted inFlight tombstones).values goal < maxActiveGoals

theorem comesAgain_iff {goal : ActiveGoal} :
    comesAgain persisted inFlight tombstones goal ↔
      goal.id ∈ activeIds inFlight ∨ ¬ Outranked persisted inFlight tombstones goal := by
  rw [comesAgain, Bool.or_eq_true, decide_eq_true_eq, decide_eq_true_eq, outranked_iff, Nat.not_le]

theorem union_again :
    (unionActive (reconcile persisted inFlight tombstones) inFlight tombstones).values =
      (unionActive persisted inFlight tombstones).values.filter
        (comesAgain persisted inFlight tombstones) := by
  refine eq_of_ascending (ascending_values keyed_unionActive)
    ((ascending_values keyed_unionActive).filter _) fun goal => ?_
  rw [List.mem_filter, mem_values_iff keyed_unionActive, mem_values_iff keyed_unionActive,
    get?_unionActive, get?_unionActive, comesAgain_iff, and_assoc]
  exact and_congr_right fun htomb => contender_again htomb

def CommitKeeps (persisted inFlight : GoalBoard) (tombstones : Finset String)
    (goal : ActiveGoal) : Prop :=
  goal.id ∉ tombstones ∧ contender persisted inFlight goal.id = some goal ∧
    ¬ Outranked persisted inFlight tombstones goal

theorem injective_union : ∀ a ∈ (unionActive persisted inFlight tombstones).values,
    ∀ b ∈ (unionActive persisted inFlight tombstones).values, a.rank = b.rank → a = b :=
  fun _ ha _ hb heq => eq_of_mem_values keyed_unionActive ha hb (rank_injective heq)

theorem comesAgain_of_mem {goal : ActiveGoal}
    (h : goal ∈ keepFirst ActiveGoal.rank maxActiveGoals
      (unionActive persisted inFlight tombstones).values) :
    comesAgain persisted inFlight tombstones goal := by
  have hahead := ((mem_keepFirst _ injective_union _ _).mp h).2
  exact Bool.or_eq_true_iff.mpr (.inr (decide_eq_true hahead))

theorem active_again :
    (reconcile (reconcile persisted inFlight tombstones) inFlight tombstones).active =
      keepFirst ActiveGoal.rank maxActiveGoals
        ((unionActive persisted inFlight tombstones).values.filter
          (comesAgain persisted inFlight tombstones)) := by
  change keepFirst ActiveGoal.rank maxActiveGoals _ = _
  rw [union_again]

theorem mem_union {goal : ActiveGoal} :
    goal ∈ (unionActive persisted inFlight tombstones).values ↔
      goal.id ∉ tombstones ∧ contender persisted inFlight goal.id = some goal := by
  rw [mem_values_iff keyed_unionActive, get?_unionActive]

def CommitCuts (persisted inFlight : GoalBoard) (tombstones : Finset String)
    (goal : ActiveGoal) : Prop :=
  goal.id ∉ tombstones ∧ contender persisted inFlight goal.id = some goal ∧
    Outranked persisted inFlight tombstones goal

theorem nodup_union : (unionActive persisted inFlight tombstones).values.Nodup :=
  (nodup_values keyed_unionActive).of_map

theorem overfull_again_iff :
    maxActiveGoals < ((unionActive persisted inFlight tombstones).values.filter
        (comesAgain persisted inFlight tombstones)).length ↔
      ∃ goal, CommitCuts persisted inFlight tombstones goal ∧ goal.id ∈ activeIds inFlight := by
  rw [lt_length_filter_iff injective_union nodup_union fun _ => comesAgain_of_mem]
  constructor
  · rintro ⟨goal, hgoal, hagain, hahead⟩
    have hcut := outranked_iff.mpr hahead
    obtain ⟨htomb, hcontender⟩ := mem_union.mp hgoal
    exact ⟨goal, ⟨htomb, hcontender, hcut⟩,
      (comesAgain_iff.mp hagain).resolve_right (not_not_intro hcut)⟩
  · rintro ⟨goal, ⟨htomb, hcontender, hcut⟩, hflight⟩
    exact ⟨goal, mem_union.mpr ⟨htomb, hcontender⟩, comesAgain_iff.mpr (.inl hflight),
      outranked_iff.mp hcut⟩

theorem overfull_iff :
    maxActiveGoals < (unionActive persisted inFlight tombstones).values.length ↔
      ∃ goal, CommitCuts persisted inFlight tombstones goal := by
  rw [lt_length_iff injective_union nodup_union]
  constructor
  · rintro ⟨goal, hgoal, hahead⟩
    obtain ⟨htomb, hcontender⟩ := mem_union.mp hgoal
    exact ⟨goal, htomb, hcontender, outranked_iff.mpr hahead⟩
  · rintro ⟨goal, htomb, hcontender, hcut⟩
    exact ⟨goal, mem_union.mpr ⟨htomb, hcontender⟩, outranked_iff.mp hcut⟩

theorem rank_le_iff {goal other : ActiveGoal} (h : goal.id < other.id) :
    goal.rank ≤ other.rank ↔ goal.priority ≤ other.priority := by
  unfold ActiveGoal.rank
  rw [Prod.Lex.toLex_le_toLex]
  constructor
  · rintro (hlt | ⟨heq, -⟩)
    · exact hlt.le
    · exact heq.le
  · intro hle
    exact hle.lt_or_eq.imp id fun heq => ⟨heq, h.le⟩

theorem active_again_iff :
    (reconcile (reconcile persisted inFlight tombstones) inFlight tombstones).active =
        (reconcile persisted inFlight tombstones).active ↔
      ((∃ goal, CommitCuts persisted inFlight tombstones goal) →
        (∃ goal, CommitCuts persisted inFlight tombstones goal ∧ goal.id ∈ activeIds inFlight) ∨
        ∀ goal other, CommitKeeps persisted inFlight tombstones goal →
          CommitKeeps persisted inFlight tombstones other → goal.id < other.id →
            goal.priority ≤ other.priority) := by
  have hkept (goal : ActiveGoal) :
      goal ∈ keepFirst ActiveGoal.rank maxActiveGoals
        (unionActive persisted inFlight tombstones).values ↔
          CommitKeeps persisted inFlight tombstones goal := mem_reconcile_active
  rw [active_again]
  change _ = keepFirst ActiveGoal.rank maxActiveGoals _ ↔ _
  rw [keepFirst_filter_eq_iff injective_union (ascending_values keyed_unionActive)
    fun _ => comesAgain_of_mem, overfull_again_iff, ← Nat.not_lt, overfull_iff, ← imp_iff_not_or]
  refine imp_congr_right fun _ => or_congr_right ?_
  simp only [hkept]
  constructor
  · intro h goal other hgoal hother hid
    exact (rank_le_iff hid).mp (h goal hgoal other hother hid)
  · intro h goal hgoal other hother hid
    exact (rank_le_iff hid).mpr (h goal other hgoal hother hid)

theorem backlogContender_again {item : BacklogItem} :
    backlogContender (reconcile persisted inFlight tombstones) inFlight id = some item ↔
      if id ∈ backlogIds inFlight then backlogContender persisted inFlight id = some item
      else item ∈ (reconcile persisted inFlight tombstones).backlog ∧ item.id = id := by
  have hflight : (last (·.id) inFlight.backlog id).isSome ↔ id ∈ backlogIds inFlight := isSome_last
  unfold backlogContender
  rw [← last_reconcile_backlog]
  simp only [← hflight]
  cases last (·.id) inFlight.backlog id <;> simp

theorem contender_again_eq_none (htomb : id ∉ tombstones) :
    contender (reconcile persisted inFlight tombstones) inFlight id = none ↔
      ∀ goal, contender persisted inFlight id = some goal →
        id ∉ activeIds inFlight ∧ Outranked persisted inFlight tombstones goal := by
  simp only [Option.eq_none_iff_forall_ne_some, ne_eq, contender_again htomb, not_and, not_or,
    not_not]

theorem mem_backlog_again {item : BacklogItem} :
    item ∈ (reconcile (reconcile persisted inFlight tombstones) inFlight tombstones).backlog ↔
      item ∈ (reconcile persisted inFlight tombstones).backlog ∨
      item.id ∉ tombstones ∧ item.id ∈ backlogIds inFlight ∧ item.id ∉ activeIds inFlight ∧
        backlogContender persisted inFlight item.id = some item ∧
        ∃ goal, CommitCuts persisted inFlight tombstones goal ∧ goal.id = item.id := by
  rw [mem_reconcile_backlog]
  constructor
  · rintro ⟨htomb, hback, hnone⟩
    rw [backlogContender_again] at hback
    split at hback
    · next hin =>
      cases hcontender : contender persisted inFlight item.id with
      | none => exact .inl (mem_reconcile_backlog.mpr ⟨htomb, hback, hcontender⟩)
      | some goal =>
        obtain ⟨hinactive, hcut⟩ := (contender_again_eq_none htomb).mp hnone goal hcontender
        have hid := contender_id hcontender
        exact .inr ⟨htomb, hin, hinactive, hback, goal,
          ⟨hid ▸ htomb, hid ▸ hcontender, hcut⟩, hid⟩
    · exact .inl hback.1
  · rintro (hmem | ⟨htomb, hin, hinactive, hback, goal, hcut, hid⟩)
    · obtain ⟨htomb, hback, hnone⟩ := mem_reconcile_backlog.mp hmem
      refine ⟨htomb, backlogContender_again.mpr ?_, (contender_again_eq_none htomb).mpr ?_⟩
      · split
        · exact hback
        · exact ⟨hmem, rfl⟩
      · intro goal hgoal
        rw [hnone] at hgoal
        cases hgoal
    · refine ⟨htomb, backlogContender_again.mpr ?_, (contender_again_eq_none htomb).mpr ?_⟩
      · rw [if_pos hin]
        exact hback
      · intro other hother
        rw [← hid, hcut.2.1] at hother
        cases hother
        exact ⟨hinactive, hcut.2.2⟩

theorem ascending_backlog :
    (reconcile persisted inFlight tombstones).backlog.Pairwise fun a b => a.id < b.id := by
  have hvalues := ascending_values (@keyed_reconciledBacklog persisted inFlight tombstones)
  exact hvalues

theorem backlog_again_iff :
    (reconcile (reconcile persisted inFlight tombstones) inFlight tombstones).backlog =
        (reconcile persisted inFlight tombstones).backlog ↔
      ∀ goal, CommitCuts persisted inFlight tombstones goal → goal.id ∈ backlogIds inFlight →
        goal.id ∈ activeIds inFlight := by
  constructor
  · intro hsame goal hcut hin
    by_contra hinactive
    obtain ⟨item, hitem⟩ := Option.isSome_iff_exists.mp
      ((@isSome_backlogContender persisted inFlight goal.id).mpr (.inl hin))
    have hid := backlogContender_id hitem
    rw [← hid] at hin hinactive hitem
    have hagain := mem_backlog_again.mpr
      (.inr ⟨hid ▸ hcut.1, hin, hinactive, hitem, goal, hcut, hid.symm⟩)
    have hnone := (mem_reconcile_backlog.mp (hsame ▸ hagain)).2.2
    rw [hid, hcut.2.1] at hnone
    cases hnone
  · intro hcuts
    refine eq_of_ascending ascending_backlog ascending_backlog fun item => ?_
    rw [mem_backlog_again]
    refine or_iff_left ?_
    rintro ⟨-, hin, hinactive, -, goal, hcut, hid⟩
    exact hinactive (hid ▸ hcuts goal hcut (hid ▸ hin))

end Recommit

/-- What the first commit cuts does not come back by the backlog, and either there is no cut, or one
again, or the kept goals have their ids in the order of their priorities. -/
theorem recommit_iff (persisted inFlight : GoalBoard) (tombstones : Finset String) :
    reconcile (reconcile persisted inFlight tombstones) inFlight tombstones =
        reconcile persisted inFlight tombstones ↔
      ((∃ goal, CommitCuts persisted inFlight tombstones goal) →
        (∃ goal, CommitCuts persisted inFlight tombstones goal ∧ goal.id ∈ activeIds inFlight) ∨
        ∀ goal other, CommitKeeps persisted inFlight tombstones goal →
          CommitKeeps persisted inFlight tombstones other → goal.id < other.id →
            goal.priority ≤ other.priority) ∧
      ∀ goal, CommitCuts persisted inFlight tombstones goal → goal.id ∈ backlogIds inFlight →
        goal.id ∈ activeIds inFlight := by
  rw [← active_again_iff, ← backlog_again_iff]
  generalize reconcile (reconcile persisted inFlight tombstones) inFlight tombstones = again
  generalize reconcile persisted inFlight tombstones = once
  rw [GoalBoard.mk.injEq]

/-- One goal too many, the ids in the opposite order of the priorities. -/
def crowdedBoard : GoalBoard :=
  ⟨(List.range' 10 (maxActiveGoals + 1)).map fun n => .new (toString n) "" (40 - n), []⟩

theorem recommit_reorders :
    (activeIds crowdedBoard).Nodup ∧ (backlogIds crowdedBoard).Nodup ∧
      reconcile (reconcile crowdedBoard GoalBoard.new ∅) GoalBoard.new ∅ ≠
        reconcile crowdedBoard GoalBoard.new ∅ := by
  refine ⟨by decide, by decide, ?_⟩
  intro hsame
  have hids := congrArg activeIds hsame
  revert hids
  decide

end Simard.Goals
