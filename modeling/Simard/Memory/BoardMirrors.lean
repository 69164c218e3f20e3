import Simard.Memory.Reminders

/-! Mirrors of a board. Reconciling a board probes with the phrase of each of its goals, takes away
what the probes find, and stores a new mirror for each active goal. What the probes do not reach
stays, and so does every mirror of a goal that has left the board. -/
namespace Simard.Memory
open Simard.Library Simard.Goals

def goalPrefixed (p : Prospective) : Bool :=
  goalProspectivePrefix.toList.isPrefixOf p.description.toList

def isPendingMirror (p : Prospective) : Bool := p.status = .pending && goalPrefixed p

def ProspectiveStore.pendingMirrors (store : ProspectiveStore) : List Prospective :=
  store.entries.filter isPendingMirror

def activePhrases (board : GoalBoard) : List String :=
  ((activeGoalsAsRecords board).filter (·.status = .active)).map fun record =>
    triggerPhrase record.slug

/-- Each active goal has one pending mirror, and there is no other. -/
structure ExactMirrors (board : GoalBoard) (store : ProspectiveStore) : Prop where
  one : ∀ phrase ∈ activePhrases board,
    store.pendingMirrors.countP (·.triggerCondition = phrase) = 1
  noOther : ∀ p ∈ store.pendingMirrors, p.triggerCondition ∈ activePhrases board

/-- No two active goals have one phrase, and every pending mirror has a word of some goal's. -/
structure Reaches (ops : TriggerOps) (board : GoalBoard) (store : ProspectiveStore) : Prop where
  distinct : (activePhrases board).Nodup
  reached : ∀ p ∈ store.pendingMirrors, ∃ record ∈ activeGoalsAsRecords board,
    ops.sharesWord (triggerPhrase record.slug) p = true

namespace ProspectiveStore

variable {store : ProspectiveStore} {ops : TriggerOps}

theorem goalPrefixed_mirror (nodeId : Nat) (title trigger action : String) (priority : Int)
    (status : ProspectiveStatus) :
    goalPrefixed ⟨nodeId, goalProspectivePrefix ++ title, trigger, action, priority, status⟩ =
      true := by
  rw [goalPrefixed, String.toList_append, List.isPrefixOf_iff_prefix]
  exact List.prefix_append _ _

theorem entries_storeMirrors (store : ProspectiveStore) (records : List GoalRecord) :
    ∃ stored, (records.foldl storeMirror store).entries = store.entries ++ stored ∧
      (∀ p ∈ stored, isPendingMirror p = true) ∧ stored.map Prospective.triggerCondition =
        (records.filter (·.status = .active)).map fun record => triggerPhrase record.slug := by
  induction records generalizing store with
  | nil => exact ⟨[], (List.append_nil _).symm, List.forall_mem_nil _, rfl⟩
  | cons record records ih =>
    obtain ⟨stored, hentries, hpending, htriggers⟩ := ih (store.storeMirror record)
    rw [List.foldl_cons, hentries]
    by_cases hactive : record.status = .active
    · have hkept : decide (record.status = .active) = true := decide_eq_true hactive
      rw [List.filter_cons, if_pos hkept, storeMirror, if_pos hactive]
      refine ⟨_, List.append_assoc _ _ _, ?_, ?_⟩
      · rw [List.forall_mem_append, List.forall_mem_singleton]
        refine ⟨?_, hpending⟩
        rw [isPendingMirror, goalPrefixed_mirror]
        rfl
      · rw [List.map_append, htriggers]
        rfl
    · have hdropped : ¬ decide (record.status = .active) = true := by simpa using hactive
      rw [List.filter_cons, if_neg hdropped, storeMirror, if_neg hactive]
      exact ⟨stored, rfl, hpending, htriggers⟩

theorem mem_pendingMirrors_resolveAll {records : List GoalRecord} {p : Prospective} :
    p ∈ (store.resolveAll ops records).pendingMirrors ↔ p ∈ store.pendingMirrors ∧
      ∀ record ∈ records, ops.sharesWord (triggerPhrase record.slug) p = false := by
  simp only [pendingMirrors, List.mem_filter]
  rw [and_comm, and_comm (b := isPendingMirror p = true), and_assoc, and_congr_right_iff]
  intro hmirror
  have hpending : p.status = .pending := by
    rw [isPendingMirror, Bool.and_eq_true, decide_eq_true_eq] at hmirror
    exact hmirror.1
  rw [mem_resolveAll hpending, and_congr_right_iff]
  intro _
  refine forall₂_congr fun record _ => ?_
  rw [TriggerOps.fires, hpending, decide_eq_true rfl, Bool.true_and]

theorem pendingMirrors_reconcile (ops : TriggerOps) (board : GoalBoard)
    (store : ProspectiveStore) :
    ∃ stored, (store.reconcileBoardProspectives ops board .never).pendingMirrors =
        (store.resolveAll ops (activeGoalsAsRecords board)).pendingMirrors ++ stored ∧
      stored.map Prospective.triggerCondition = activePhrases board := by
  obtain ⟨stored, hentries, hpending, htriggers⟩ :=
    entries_storeMirrors (store.resolveAll ops (activeGoalsAsRecords board))
      (activeGoalsAsRecords board)
  refine ⟨stored, ?_, htriggers⟩
  rw [reconcileBoardProspectives, mirrorAll, pendingMirrors, hentries, List.filter_append,
    List.filter_eq_self.mpr hpending, pendingMirrors]

theorem pendingMirrors_resolveAll_eq_nil {records : List GoalRecord} :
    (store.resolveAll ops records).pendingMirrors = [] ↔ ∀ p ∈ store.pendingMirrors,
      ∃ record ∈ records, ops.sharesWord (triggerPhrase record.slug) p = true := by
  rw [List.eq_nil_iff_forall_not_mem]
  refine forall_congr' fun p => ?_
  rw [mem_pendingMirrors_resolveAll, not_and]
  refine imp_congr_right fun _ => ?_
  simp only [not_forall, Bool.not_eq_false, exists_prop]

end ProspectiveStore

theorem countP_triggerCondition (mirrors : List Prospective) (phrase : String) :
    mirrors.countP (·.triggerCondition = phrase) =
      (mirrors.map Prospective.triggerCondition).count phrase := by
  rw [List.count, List.countP_map]
  exact List.countP_congr fun p _ => by rw [Function.comp_apply, beq_iff_eq, decide_eq_true_eq]

/-- Reconciling a board leaves exactly one pending mirror for each active goal, and no other, if
and only if no two active goals have one phrase and the probes reach every mirror there was. -/
theorem reconcile_exact_iff (ops : TriggerOps) (board : GoalBoard) (store : ProspectiveStore) :
    ExactMirrors board (store.reconcileBoardProspectives ops board .never) ↔
      Reaches ops board store := by
  obtain ⟨stored, hmirrors, hphrases⟩ := ProspectiveStore.pendingMirrors_reconcile ops board store
  generalize hleft : (store.resolveAll ops (activeGoalsAsRecords board)).pendingMirrors = left
    at hmirrors
  have hcount (phrase : String) :
      (store.reconcileBoardProspectives ops board .never).pendingMirrors.countP
          (·.triggerCondition = phrase) =
        (left.map Prospective.triggerCondition).count phrase +
        (activePhrases board).count phrase := by
    rw [countP_triggerCondition, hmirrors, List.map_append, List.count_append, hphrases]
  constructor
  · intro h
    -- a mirror that was left would be a second one for its goal
    have hnone : left = [] := by
      rw [List.eq_nil_iff_forall_not_mem]
      intro p hp
      have hphrase := h.noOther p (by rw [hmirrors]; exact List.mem_append_left _ hp)
      have hone := h.one _ hphrase
      have hold : 0 < (left.map Prospective.triggerCondition).count p.triggerCondition :=
        List.count_pos_iff.mpr (List.mem_map_of_mem hp)
      have hnew := List.count_pos_iff.mpr hphrase
      rw [hcount] at hone
      omega
    constructor
    · rw [List.nodup_iff_count_le_one]
      intro phrase
      by_cases hphrase : phrase ∈ activePhrases board
      · have hone := h.one phrase hphrase
        rw [hcount] at hone
        omega
      · rw [List.count_eq_zero_of_not_mem hphrase]
        exact Nat.zero_le 1
    · rw [hnone] at hleft
      exact ProspectiveStore.pendingMirrors_resolveAll_eq_nil.mp hleft
  · intro h
    have hnone : left = [] :=
      hleft.symm.trans (ProspectiveStore.pendingMirrors_resolveAll_eq_nil.mpr h.reached)
    constructor
    · intro phrase hphrase
      rw [hcount, hnone, List.map_nil, List.count_nil, Nat.zero_add]
      exact List.count_eq_one_of_mem h.distinct hphrase
    · intro p hp
      rw [hmirrors, hnone, List.nil_append] at hp
      rw [← hphrases]
      exact List.mem_map_of_mem hp

/-- A goal that has left the board, whose mirror is still pending. -/
def leftBehind : ProspectiveStore where
  entries := [⟨0, "goal:Fix parser", "fix parser", "Pursue goal: Fix parser (p1, )", 1, .pending⟩]
  nextId := 1
  keyed := List.nodup_singleton _
  below := by decide

/-- The board has become empty, and the mirror stays. -/
theorem removed_goal_still_pending :
    ¬ ExactMirrors ⟨[], []⟩
      (leftBehind.reconcileBoardProspectives plainOps ⟨[], []⟩ .never) := by
  intro h
  have hphrase := h.noOther
    ⟨0, "goal:Fix parser", "fix parser", "Pursue goal: Fix parser (p1, )", 1, .pending⟩ (by decide)
  exact List.not_mem_nil hphrase

end Simard.Memory
