import Simard.Goals.Board
import Simard.Goals.GoalSlug
import Simard.Library.Machine

/-! Reminders. A prospective memory waits until a probe shares a word with its trigger, and then
waits no more, whoever probed. Preparation and recall probe to deliver what they find; a goal
that is put or reconciled probes only to find its own mirror. -/
namespace Simard.Memory
open Simard.Library Simard.Goals

inductive ProspectiveStatus where
  | pending
  | triggered
  | resolved
  deriving DecidableEq

structure Prospective where
  nodeId : Nat
  description : String
  triggerCondition : String
  actionOnTrigger : String
  priority : Int
  status : ProspectiveStatus
  deriving DecidableEq

/-- The prospective memories; every number is there once, and the next one is larger. -/
structure ProspectiveStore where
  entries : List Prospective
  nextId : Nat
  keyed : (entries.map Prospective.nodeId).Nodup
  below : ∀ p ∈ entries, p.nodeId < nextId

/-- How the memory reads words, and in which order it returns what it found. -/
structure TriggerOps where
  words : String → List String
  arrange : List Prospective → List Prospective
  perm : ∀ found, (arrange found).Perm found

theorem below_nil : ∀ p ∈ ([] : List Prospective), p.nodeId < 0 := List.forall_mem_nil _

theorem perm_id (found : List Prospective) : (id found).Perm found := List.Perm.refl _

namespace TriggerOps

variable (ops : TriggerOps)

def sharesWord (probe : String) (p : Prospective) : Bool :=
  (ops.words probe).any fun word => (ops.words p.triggerCondition).contains word

def fires (probe : String) (p : Prospective) : Bool := p.status = .pending && ops.sharesWord probe p

end TriggerOps

namespace ProspectiveStore

variable (store : ProspectiveStore)

def mark (status : ProspectiveStatus) (which : Prospective → Bool) : ProspectiveStore where
  entries := store.entries.map fun p => if which p then { p with status := status } else p
  nextId := store.nextId
  keyed := by
    have hsame : (store.entries.map fun p => if which p then { p with status := status } else p).map
        Prospective.nodeId = store.entries.map Prospective.nodeId := by
      rw [List.map_map]
      apply List.map_congr_left
      intro p _
      dsimp only [Function.comp]
      split <;> rfl
    rw [hsame]
    exact store.keyed
  below := by
    rw [List.forall_mem_map]
    intro p hp
    split
    · exact store.below p hp
    · exact store.below p hp

def checkTriggers (ops : TriggerOps) (probe : String) : List Prospective × ProspectiveStore :=
  (ops.arrange (store.entries.filter (ops.fires probe)), store.mark .triggered (ops.fires probe))

def resolveProspective (nodeId : Nat) : ProspectiveStore :=
  store.mark .resolved fun p => p.nodeId = nodeId

def storeProspective (description triggerCondition actionOnTrigger : String) (priority : Int) :
    ProspectiveStore where
  entries := store.entries ++
    [⟨store.nextId, description, triggerCondition, actionOnTrigger, priority, .pending⟩]
  nextId := store.nextId + 1
  keyed := by
    rw [List.map_append, List.nodup_append]
    refine ⟨store.keyed, List.nodup_singleton _, ?_⟩
    intro id hid other hother
    obtain ⟨p, hp, rfl⟩ := List.mem_map.mp hid
    obtain rfl := List.mem_singleton.mp hother
    exact Nat.ne_of_lt (store.below p hp)
  below := by
    rw [List.forall_mem_append]
    refine ⟨fun p hp => Nat.lt_succ_of_lt (store.below p hp), ?_⟩
    intro p hp
    obtain rfl := List.mem_singleton.mp hp
    exact Nat.lt_succ_self _

end ProspectiveStore

inductive GoalStatus where
  | proposed
  | active
  | paused
  | completed
  deriving DecidableEq

structure GoalRecord where
  slug : String
  title : String
  rationale : String
  status : GoalStatus
  priority : Nat

def activeGoalsAsRecords (board : GoalBoard) : List GoalRecord :=
  board.active.map fun goal =>
    { slug := goalSlug goal.id
      title := String.ofList (((lines goal.description.toList).headD []).take 120)
      rationale := goal.currentActivity.getD ""
      status :=
        match goal.status with
        | .proposed => .proposed
        | .paused => .paused
        | .completed => .completed
        | _ => .active
      priority := if goal.priority < 256 then goal.priority else 255 }

def goalProspectivePrefix : String := "goal:"

def triggerPhrase (slug : String) : String :=
  String.ofList (slug.toList.map fun c => if c = '-' then ' ' else c)

def isMirrorOf (slug : String) (p : Prospective) : Bool :=
  goalProspectivePrefix.toList.isPrefixOf p.description.toList &&
    p.triggerCondition = triggerPhrase slug

/-- Where a step stops because a call to the memory fails: nowhere, before the first probe, or
after some goals, so many of whose mirrors were resolved; or at a goal's new mirror. -/
inductive Stop where
  | never
  | atStart
  | after (goals resolved : Nat)
  | storing (goals : Nat)

namespace ProspectiveStore

variable (store : ProspectiveStore) (ops : TriggerOps)

/-- Mirrors of a goal that are found by its probe are resolved, all or the first few. -/
def resolveGoalProspectives (slug : String) (limit : Option Nat) : ProspectiveStore :=
  let (candidates, checked) := store.checkTriggers ops (triggerPhrase slug)
  let mirrors := candidates.filter (isMirrorOf slug)
  ((limit.elim mirrors mirrors.take).map Prospective.nodeId).foldl resolveProspective checked

def storeMirror (record : GoalRecord) : ProspectiveStore :=
  if record.status = .active then
    store.storeProspective (goalProspectivePrefix ++ record.title) (triggerPhrase record.slug)
      ("Pursue goal: " ++ record.title ++ " (p" ++ toString record.priority ++ ", " ++
        record.rationale ++ ")") record.priority
  else store

def resolveAll (records : List GoalRecord) : ProspectiveStore :=
  records.foldl (fun store record => store.resolveGoalProspectives ops record.slug none) store

/-- The old mirrors are resolved first, and then the new ones are stored. -/
def mirrorAll (records : List GoalRecord) : Stop → ProspectiveStore
  | .never => records.foldl storeMirror (store.resolveAll ops records)
  | .atStart => store
  | .after goals resolved =>
      match records.drop goals with
      | [] => store.resolveAll ops records
      | record :: _ => (store.resolveAll ops (records.take goals)).resolveGoalProspectives ops
          record.slug (some resolved)
  | .storing goals => (records.take goals).foldl storeMirror (store.resolveAll ops records)

def putViaOps (record : GoalRecord) (stop : Stop) : ProspectiveStore :=
  store.mirrorAll ops [record] stop

def reconcileBoardProspectives (board : GoalBoard) (stop : Stop) : ProspectiveStore :=
  store.mirrorAll ops (activeGoalsAsRecords board) stop

end ProspectiveStore

structure RecallKeys where
  keywords : List String
  signatures : List String

def RecallKeys.query (keys : RecallKeys) : String :=
  " ".intercalate (keys.keywords ++ keys.signatures)

/-- A goal is put, a board is reconciled, the Overseer recalls, or a cycle is prepared. A call to
the memory may fail in each; in preparation before the probe or after it. -/
inductive ReminderEvent where
  | put (record : GoalRecord) (stop : Stop)
  | reconcile (board : GoalBoard) (stop : Stop)
  | recallProspective (keys : RecallKeys) (limit : Nat) (fails : Bool)
  | prepare (objective : String) (reaches completes : Bool)

/-- The store, and the numbers of what the last step handed to its caller. -/
structure Reminders where
  store : ProspectiveStore
  handed : List Nat

namespace Reminders

variable (ops : TriggerOps) (s : Reminders)

def recallProspective (keys : RecallKeys) (limit : Nat) : Reminders :=
  let (hits, store) := s.store.checkTriggers ops keys.query
  ⟨store, (hits.take limit).map Prospective.nodeId⟩

def preparation (objective : String) (completes : Bool) : Reminders :=
  let (hits, store) := s.store.checkTriggers ops objective
  ⟨store, if completes then hits.map Prospective.nodeId else []⟩

def step : ReminderEvent → Reminders
  | .put record stop => ⟨s.store.putViaOps ops record stop, []⟩
  | .reconcile board stop => ⟨s.store.reconcileBoardProspectives ops board stop, []⟩
  | .recallProspective keys limit fails => if fails then
    ⟨s.store, []⟩ else s.recallProspective ops keys limit
  | .prepare objective reaches completes =>
      if reaches then s.preparation ops objective completes else ⟨s.store, []⟩

end Reminders

def reminderMachine (ops : TriggerOps) : Machine Reminders ReminderEvent := ⟨Reminders.step ops⟩

def Stopped (before after : ProspectiveStore) (p : Prospective) : Prop :=
  p ∈ before.entries ∧ p.status = .pending ∧ p ∉ after.entries

def Excused (e : ReminderEvent) (handed : List Nat) (p : Prospective) : Prop :=
  match e with
  | .put record _ => isMirrorOf record.slug p = true
  | .reconcile board _ => ∃ record ∈ activeGoalsAsRecords board, isMirrorOf record.slug p = true
  | .recallProspective _ _ _ | .prepare _ _ _ => p.nodeId ∈ handed

def probed (records : List GoalRecord) : Stop → List GoalRecord
  | .never | .storing _ => records
  | .atStart => []
  | .after goals _ => records.take (goals + 1)

/-- The step's probes find nothing but what they may: mirrors of its goals, as many as are
asked for, and nothing where the preparation will fail. -/
def Clear (ops : TriggerOps) (store : ProspectiveStore) : ReminderEvent → Prop
  | .put record stop => ∀ goal ∈ probed [record] stop, ∀ p ∈ store.entries,
      ops.fires (triggerPhrase goal.slug) p = true → isMirrorOf record.slug p = true
  | .reconcile board stop => ∀ goal ∈ probed (activeGoalsAsRecords board) stop,
      ∀ p ∈ store.entries, ops.fires (triggerPhrase goal.slug) p = true →
        ∃ record ∈ activeGoalsAsRecords board, isMirrorOf record.slug p = true
  | .recallProspective keys limit fails =>
      fails = false → (store.entries.filter (ops.fires keys.query)).length ≤ limit
  | .prepare objective reaches completes =>
      reaches = true → completes = false → ∀ p ∈ store.entries, ops.fires objective p = false

namespace ProspectiveStore

variable {store : ProspectiveStore} {ops : TriggerOps} {p : Prospective}

theorem mem_mark {status : ProspectiveStatus} {which : Prospective → Bool}
    (hstatus : status ≠ .pending) (hp : p.status = .pending) :
    p ∈ (store.mark status which).entries ↔ p ∈ store.entries ∧ which p = false := by
  simp only [mark, List.mem_map]
  constructor
  · intro ⟨q, hq, heq⟩
    split at heq
    · rw [← heq] at hp
      exact absurd hp hstatus
    next hwhich =>
      rw [← heq]
      exact ⟨hq, Bool.eq_false_iff.mpr hwhich⟩
  · intro ⟨hmem, hwhich⟩
    exact ⟨p, hmem, by simp [hwhich]⟩

theorem mem_checkTriggers {probe : String} (hp : p.status = .pending) :
    p ∈ (store.checkTriggers ops probe).2.entries ↔
      p ∈ store.entries ∧ ops.fires probe p = false :=
  mem_mark nofun hp

theorem mem_resolveProspectives {ids : List Nat} (hp : p.status = .pending) :
    p ∈ (ids.foldl resolveProspective store).entries ↔ p ∈ store.entries ∧ p.nodeId ∉ ids := by
  induction ids generalizing store with
  | nil => simp
  | cons id ids ih =>
    have hresolved : ProspectiveStatus.resolved ≠ .pending := nofun
    have hfirst : p ∈ (store.resolveProspective id).entries ↔
        p ∈ store.entries ∧ p.nodeId ≠ id := by
      rw [resolveProspective, mem_mark hresolved hp, decide_eq_false_iff_not]
    rw [List.foldl_cons, ih, hfirst, List.mem_cons, not_or, and_assoc]

theorem mem_resolveGoalProspectives {slug : String} {limit : Option Nat}
    (hp : p.status = .pending) :
    p ∈ (store.resolveGoalProspectives ops slug limit).entries ↔
      p ∈ store.entries ∧ ops.fires (triggerPhrase slug) p = false := by
  unfold resolveGoalProspectives
  dsimp only
  rw [mem_resolveProspectives hp, mem_checkTriggers hp, and_iff_left_iff_imp]
  rintro ⟨hmem, hquiet⟩ hid
  obtain ⟨found, hfound, hsame⟩ := List.mem_map.mp hid
  have hmirror : found ∈ (store.checkTriggers ops (triggerPhrase slug)).1.filter
      (isMirrorOf slug) := by
    cases limit with
    | none => exact hfound
    | some n => exact List.mem_of_mem_take hfound
  obtain ⟨hentry, hfires⟩ := List.mem_filter.mp
    ((ops.perm _).mem_iff.mp (List.mem_filter.mp hmirror).1)
  have heq : found = p := List.inj_on_of_nodup_map store.keyed hentry hmem hsame
  rw [heq, hquiet] at hfires
  cases hfires

theorem mem_resolveAll {records : List GoalRecord} (hp : p.status = .pending) :
    p ∈ (store.resolveAll ops records).entries ↔
      p ∈ store.entries ∧ ∀ goal ∈ records, ops.fires (triggerPhrase goal.slug) p = false := by
  unfold resolveAll
  induction records generalizing store with
  | nil => simp
  | cons record records ih =>
    rw [List.foldl_cons, ih, mem_resolveGoalProspectives hp, List.forall_mem_cons, and_assoc]

theorem nextId_resolveProspectives (ids : List Nat) :
    (ids.foldl resolveProspective store).nextId = store.nextId := by
  induction ids generalizing store with
  | nil => rfl
  | cons id ids ih => exact ih

theorem nextId_resolveGoalProspectives (slug : String) (limit : Option Nat) :
    (store.resolveGoalProspectives ops slug limit).nextId = store.nextId :=
  nextId_resolveProspectives _

theorem nextId_resolveAll (records : List GoalRecord) :
    (store.resolveAll ops records).nextId = store.nextId := by
  unfold resolveAll
  induction records generalizing store with
  | nil => rfl
  | cons record records ih => rw [List.foldl_cons, ih, nextId_resolveGoalProspectives]

theorem mem_storeMirror (record : GoalRecord) (hid : p.nodeId < store.nextId) :
    (p ∈ (store.storeMirror record).entries ↔ p ∈ store.entries) ∧
      p.nodeId < (store.storeMirror record).nextId := by
  unfold storeMirror
  split
  · refine ⟨?_, Nat.lt_succ_of_lt hid⟩
    simp only [storeProspective, List.mem_append, List.mem_singleton, or_iff_left_iff_imp]
    rintro rfl
    exact absurd hid (Nat.lt_irrefl _)
  · exact ⟨Iff.rfl, hid⟩

theorem mem_storeMirrors {records : List GoalRecord} (hid : p.nodeId < store.nextId) :
    p ∈ (records.foldl storeMirror store).entries ↔ p ∈ store.entries := by
  induction records generalizing store with
  | nil => rfl
  | cons record records ih =>
    obtain ⟨hmem, hnext⟩ := mem_storeMirror record hid
    exact (ih hnext).trans hmem

theorem mem_mirrorAll {records : List GoalRecord} {stop : Stop} (hp : p.status = .pending)
    (hid : p.nodeId < store.nextId) :
    p ∈ (store.mirrorAll ops records stop).entries ↔ p ∈ store.entries ∧
      ∀ goal ∈ probed records stop, ops.fires (triggerPhrase goal.slug) p = false := by
  have hnext : p.nodeId < (store.resolveAll ops records).nextId := by
    rwa [nextId_resolveAll]
  cases stop with
  | never => exact (mem_storeMirrors hnext).trans (mem_resolveAll hp)
  | storing goals => exact (mem_storeMirrors hnext).trans (mem_resolveAll hp)
  | atStart => simp [mirrorAll, probed]
  | after goals resolved =>
    unfold mirrorAll probed
    dsimp only
    split
    next hdrop =>
      rw [mem_resolveAll hp, List.take_of_length_le]
      exact Nat.le_succ_of_le (List.drop_eq_nil_iff.mp hdrop)
    next record rest hdrop =>
      have htake : records.take (goals + 1) = records.take goals ++ [record] := by
        have hget : records[goals]? = some record := by
          rw [← List.head?_drop, hdrop, List.head?_cons]
        rw [List.take_add_one, hget, Option.toList_some]
      rw [mem_resolveGoalProspectives hp, mem_resolveAll hp, htake, List.forall_mem_append,
        List.forall_mem_singleton, and_assoc]

end ProspectiveStore

section Steps

variable {ops : TriggerOps}

theorem pending_of_fires {probe : String} {p : Prospective} (h : ops.fires probe p = true) :
    p.status = .pending := by
  simp only [TriggerOps.fires, Bool.and_eq_true, decide_eq_true_eq] at h
  exact h.1

theorem stopped_mirrorAll {store : ProspectiveStore} {records : List GoalRecord} {stop : Stop}
    {p : Prospective} : Stopped store (store.mirrorAll ops records stop) p ↔
      p ∈ store.entries ∧ ∃ goal ∈ probed records stop,
        ops.fires (triggerPhrase goal.slug) p = true := by
  constructor
  · intro ⟨hmem, hpending, hgone⟩
    rw [ProspectiveStore.mem_mirrorAll hpending (store.below p hmem), not_and] at hgone
    have hfires := hgone hmem
    refine ⟨hmem, ?_⟩
    simpa using hfires
  · intro ⟨hmem, goal, hgoal, hfires⟩
    have hpending := pending_of_fires hfires
    refine ⟨hmem, hpending, ?_⟩
    rw [ProspectiveStore.mem_mirrorAll hpending (store.below p hmem)]
    rintro ⟨-, hquiet⟩
    rw [hquiet goal hgoal] at hfires
    cases hfires

theorem stopped_checkTriggers {store : ProspectiveStore} {probe : String} {p : Prospective} :
    Stopped store (store.checkTriggers ops probe).2 p ↔
      p ∈ store.entries ∧ ops.fires probe p = true := by
  constructor
  · intro ⟨hmem, hpending, hgone⟩
    rw [ProspectiveStore.mem_checkTriggers hpending, not_and, Bool.not_eq_false] at hgone
    exact ⟨hmem, hgone hmem⟩
  · intro ⟨hmem, hfires⟩
    have hpending := pending_of_fires hfires
    refine ⟨hmem, hpending, ?_⟩
    rw [ProspectiveStore.mem_checkTriggers hpending, hfires]
    exact fun h => Bool.noConfusion h.2

theorem not_stopped_self {store : ProspectiveStore} {p : Prospective} : ¬Stopped store store p :=
  fun h => h.2.2 h.1

theorem handed_iff {store : ProspectiveStore} {probe : String} {limit : Nat} :
    (∀ p ∈ store.entries, ops.fires probe p = true →
        p.nodeId ∈ ((store.checkTriggers ops probe).1.take limit).map Prospective.nodeId) ↔
      (store.entries.filter (ops.fires probe)).length ≤ limit := by
  generalize hfound : store.entries.filter (ops.fires probe) = found
  have hperm : (store.checkTriggers ops probe).1.Perm found := by
    rw [← hfound]
    exact ops.perm _
  have hnodup : ((store.checkTriggers ops probe).1.map Prospective.nodeId).Nodup := by
    rw [(hperm.map _).nodup_iff, ← hfound]
    exact store.keyed.sublist (List.filter_sublist.map _)
  generalize (store.checkTriggers ops probe).1 = hits at hperm hnodup ⊢
  rw [← hperm.length_eq]
  constructor
  · intro hall
    rw [← List.take_append_drop limit hits, List.map_append, List.nodup_append] at hnodup
    rw [← List.drop_eq_nil_iff, List.eq_nil_iff_forall_not_mem]
    intro p hp
    have hentry := hperm.mem_iff.mp (List.mem_of_mem_drop hp)
    rw [← hfound, List.mem_filter] at hentry
    exact hnodup.2.2 _ (hall p hentry.1 hentry.2) _ (List.mem_map_of_mem hp) rfl
  · intro hle p hp hfires
    rw [List.take_of_length_le hle]
    apply List.mem_map_of_mem
    rw [hperm.mem_iff, ← hfound]
    exact List.mem_filter.mpr ⟨hp, hfires⟩

theorem step_excused_iff (s : Reminders) (e : ReminderEvent) :
    (∀ p, Stopped s.store (s.step ops e).store p → Excused e (s.step ops e).handed p) ↔
      Clear ops s.store e := by
  cases e with
  | put record stop =>
    simp only [Reminders.step, ProspectiveStore.putViaOps, stopped_mirrorAll, Excused, Clear]
    grind
  | reconcile board stop =>
    simp only [Reminders.step, ProspectiveStore.reconcileBoardProspectives, stopped_mirrorAll,
      Excused, Clear]
    grind
  | recallProspective keys limit fails =>
    cases fails with
    | true => simp [Reminders.step, Excused, Clear, not_stopped_self]
    | false =>
      simp only [Reminders.step, Reminders.recallProspective, Excused, Clear, stopped_checkTriggers,
        Bool.false_eq_true, if_false, true_imp_iff, and_imp]
      exact handed_iff
  | prepare objective reaches completes =>
    cases reaches with
    | false => simp [Reminders.step, Excused, Clear, not_stopped_self]
    | true =>
      simp only [Reminders.step, Reminders.preparation, Excused, Clear, stopped_checkTriggers,
        if_true, true_imp_iff, and_imp]
      cases completes with
      | false => simp
      | true =>
        refine iff_of_true ?_ nofun
        intro p hp hfires
        apply List.mem_map_of_mem
        rw [ProspectiveStore.checkTriggers, (ops.perm _).mem_iff]
        exact List.mem_filter.mpr ⟨hp, hfires⟩

end Steps

/-- Along a run every reminder that is consumed was delivered, or is the mirror of a goal that
was put or reconciled, exactly if the probes of every step are clear. -/
theorem consumed_reminders_excused_iff (ops : TriggerOps) (s : Reminders)
    (events : List ReminderEvent) :
    (∀ t ∈ (reminderMachine ops).trace s events, ∀ p,
        Stopped t.before.store t.after.store p → Excused t.event t.after.handed p) ↔
      ∀ t ∈ (reminderMachine ops).trace s events, Clear ops t.before.store t.event := by
  refine forall₂_congr fun t ht => ?_
  obtain ⟨-, -, -, -, hafter⟩ := Machine.mem_trace _ ht
  rw [hafter]
  exact step_excused_iff t.before t.event

def plainOps : TriggerOps where
  words text := (splitWhitespace (asciiLowercase text)).map String.ofList
  arrange := id
  perm := perm_id

def ProspectiveStore.empty : ProspectiveStore := ⟨[], 0, List.nodup_nil, below_nil⟩

def fixGoal (slug title : String) : GoalRecord := ⟨slug, title, "reported", .active, 1⟩

/-- Putting the second goal consumes the mirror of the first. -/
theorem put_consumes_other_mirror :
    ¬∀ t ∈ (reminderMachine plainOps).trace ⟨.empty, []⟩
        [.put (fixGoal "fix-parser" "Fix parser") .never,
          .put (fixGoal "fix-lexer" "Fix lexer") .never],
      ∀ p, Stopped t.before.store t.after.store p → Excused t.event t.after.handed p := by
  intro hexcused
  have hother := hexcused _ (List.mem_cons_of_mem _ List.mem_cons_self)
    ⟨0, "goal:Fix parser", "fix parser", "Pursue goal: Fix parser (p1, reported)", 1, .pending⟩
    ⟨by decide, rfl, by decide⟩
  have hmirror : isMirrorOf "fix-lexer" ⟨0, "goal:Fix parser", "fix parser",
      "Pursue goal: Fix parser (p1, reported)", 1, .pending⟩ = false := by decide
  exact Bool.false_ne_true (hmirror.symm.trans hother)

end Simard.Memory
