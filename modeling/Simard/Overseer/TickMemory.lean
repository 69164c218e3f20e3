import Simard.Overseer.Investigations
import Simard.Overseer.RateLimits

/-! What an Overseer remembers of its tick. Its gates know what the tick itself did, so
within a tick every limit holds; what earlier ticks did is forgotten with their Overseer, and
across ticks the limits hold exactly as far as the ticks keep apart by themselves. -/
namespace Simard.Overseer
open Simard.Library

/-- What was committed in a tick to a gate with signatures for some kinds of deeds. -/
def commits (signatureOf : DeedKind → Option (List Char)) (tick : Nat) (deeds : List Deed) :
    List (List Char × Int) :=
  deeds.filterMap fun deed =>
    if deed.tick = tick then (signatureOf deed.kind).map fun signature => (signature, deed.time)
    else none

def whisperSignature : DeedKind → Option (List Char)
  | .whisper signature => some signature
  | _ => none

def unblockGateSignature : DeedKind → Option (List Char)
  | .unblock goalId => some (Daemon.unblockSignature goalId)
  | _ => none

section Commits

variable {signatureOf : DeedKind → Option (List Char)} {deeds : List Deed}

theorem commits_concat (tick : Nat) (deed : Deed) (hdeed : deed.tick = tick) :
    commits signatureOf tick (deeds ++ [deed]) = commits signatureOf tick deeds ++
      ((signatureOf deed.kind).map fun signature => (signature, deed.time)).toList := by
  rw [commits, List.filterMap_append]
  congr 1
  cases hsignature : signatureOf deed.kind with
  | none => simp [hdeed, hsignature]
  | some signature => simp [hdeed, hsignature]

theorem commits_next {tick : Nat} (hticks : ∀ e ∈ deeds, e.tick ≤ tick) :
    commits signatureOf (tick + 1) deeds = [] := by
  rw [commits, List.filterMap_eq_nil_iff]
  intro e he
  have hne : e.tick ≠ tick + 1 := by
    have := hticks e he
    omega
  rw [if_neg hne]

theorem mem_commits {tick : Nat} {entry : List Char × Int} :
    entry ∈ commits signatureOf tick deeds ↔
      ∃ e ∈ deeds, e.tick = tick ∧ signatureOf e.kind = some entry.1 ∧ e.time = entry.2 := by
  rw [commits, List.mem_filterMap]
  apply exists_congr
  intro e
  by_cases htick : e.tick = tick
  · simp [htick, Option.map_eq_some_iff, Prod.ext_iff]
  · simp [htick]

theorem commits_sorted (tick : Nat) (hlater : Kept Later deeds) :
    (commits signatureOf tick deeds).Pairwise fun a b => a.2 ≤ b.2 := by
  have hsorted : deeds.Pairwise fun a b => a.time ≤ b.time :=
    Kept.pairwise_iff.mpr (hlater.mono fun _ _ h e he => (h e he).2)
  apply hsorted.filterMap
  intro a b hab entry hentry entry' hentry'
  have hfirst : a.time = entry.2 := by
    split at hentry
    · obtain ⟨_, _, rfl⟩ := Option.map_eq_some_iff.mp hentry
      rfl
    · cases hentry
  have hsecond : b.time = entry'.2 := by
    split at hentry'
    · obtain ⟨_, _, rfl⟩ := Option.map_eq_some_iff.mp hentry'
      rfl
    · cases hentry'
  rw [← hfirst, ← hsecond]
  exact hab

theorem countP_commits (tick : Nat) (p : List Char × Int → Bool) :
    (commits signatureOf tick deeds).countP p =
      (deeds.filter fun e => e.tick = tick).countP fun e =>
        (signatureOf e.kind).any fun signature => p (signature, e.time) := by
  rw [commits, List.countP_filterMap, List.countP_filter]
  apply List.countP_congr
  intro e _
  by_cases htick : e.tick = tick
  · cases hsignature : signatureOf e.kind with
    | none => simp
    | some signature => simp [htick]
  · simp [htick]

end Commits

/-- What bears on the limits of what the daemon knows. -/
structure Memory where
  clock : Int
  tick : Nat
  deeds : List Deed
  plan : List Intervention
  whisperGate : WhisperGate
  blockedGoalGate : WhisperGate
  sequencer : ConflictSequencer
  notified : Bool

def Daemon.memory (daemon : Daemon) : Memory :=
  ⟨daemon.clock, daemon.tick, daemon.deeds, daemon.plan, daemon.overseer.whisperGate,
    daemon.overseer.blockedGoalGate, daemon.overseer.sequencer,
    daemon.overseer.mergeReasoningDisabledNotified⟩

namespace Memory

/-- The launches that cover a gap, planned or done in this tick. -/
def coverages (m : Memory) : Nat :=
  (m.deeds.countP fun e => e.tick = m.tick && e.kind.isCoverage) +
    m.plan.countP fun iv => iv.coverage.isSome

/-- The tick's gates remember what the tick did, and hold every deed to it. -/
structure Faithful (backoffBaseSecs : Int) (m : Memory) : Prop where
  later : Kept Later m.deeds
  bounds : ∀ e ∈ m.deeds, e.tick ≤ m.tick ∧ e.time ≤ m.clock
  allowed : Kept (AllowedInTick backoffBaseSecs) m.deeds
  whispers : m.whisperGate =
    (WhisperGate.withBackoff 900 900 5).replay (commits whisperSignature m.tick m.deeds)
  unblocks : m.blockedGoalGate =
    (WhisperGate.withBackoff 900 14400 20).replay (commits unblockGateSignature m.tick m.deeds)
  covered : m.coverages ≤ if workstreamCoverageGroup ∈ m.sequencer.activeGroups then 1 else 0
  latched : (∃ e ∈ m.deeds, e.tick = m.tick ∧ e.kind = .alert) → m.notified = true

def committed (gate : WhisperGate) (signature : Option (List Char)) (now : Int) : WhisperGate :=
  match signature with
  | none => gate
  | some signature => gate.commit signature now

theorem replay_committed (gate : WhisperGate) {signatureOf : DeedKind → Option (List Char)}
    (m : Memory) (kind : DeedKind) :
    committed (gate.replay (commits signatureOf m.tick m.deeds)) (signatureOf kind) m.clock =
      gate.replay (commits signatureOf m.tick (m.deeds ++ [⟨m.tick, m.clock, kind⟩])) := by
  rw [commits_concat m.tick ⟨m.tick, m.clock, kind⟩ rfl]
  cases signatureOf kind with
  | none => simp [committed]
  | some signature => simp [committed]

variable {backoffBaseSecs : Int} {m : Memory}

theorem Faithful.does (h : m.Faithful backoffBaseSecs) {kind : DeedKind}
    {plan : List Intervention} {notified : Bool}
    (hlaw : AllowedInTick backoffBaseSecs m.deeds ⟨m.tick, m.clock, kind⟩)
    (hplan : kind.isCoverage.toNat + (plan.countP fun iv => iv.coverage.isSome) ≤
      m.plan.countP fun iv => iv.coverage.isSome)
    (hnotified : m.notified = true ∨ kind = .alert → notified = true) :
    Faithful backoffBaseSecs { m with
      deeds := m.deeds ++ [⟨m.tick, m.clock, kind⟩]
      plan := plan
      whisperGate := committed m.whisperGate (whisperSignature kind) m.clock
      blockedGoalGate := committed m.blockedGoalGate (unblockGateSignature kind) m.clock
      notified := notified } where
  later := Kept.concat_iff.mpr ⟨h.later, h.bounds⟩
  bounds := by
    intro e he
    rcases List.mem_append.mp he with he | he
    · exact h.bounds e he
    · obtain rfl := List.mem_singleton.mp he
      exact ⟨le_rfl, le_rfl⟩
  allowed := Kept.concat_iff.mpr ⟨h.allowed, hlaw⟩
  whispers := by rw [h.whispers, replay_committed]
  unblocks := by rw [h.unblocks, replay_committed]
  covered := by
    have hcovered := h.covered
    unfold coverages at hcovered ⊢
    have hlast : ([(⟨m.tick, m.clock, kind⟩ : Deed)].countP fun e =>
        e.tick = m.tick && e.kind.isCoverage) = kind.isCoverage.toNat := by
      cases hkind : kind.isCoverage with
      | false => simp [hkind]
      | true => simp [hkind]
    rw [List.countP_append, hlast]
    dsimp only at hcovered ⊢
    omega
  latched := by
    rintro ⟨e, he, htick, halert⟩
    apply hnotified
    rcases List.mem_append.mp he with he | he
    · exact .inl (h.latched ⟨e, he, htick, halert⟩)
    · obtain rfl := List.mem_singleton.mp he
      exact .inr halert

theorem Faithful.does_plain (h : m.Faithful backoffBaseSecs) {kind : DeedKind}
    (hlaw : AllowedInTick backoffBaseSecs m.deeds ⟨m.tick, m.clock, kind⟩)
    (hcoverage : kind.isCoverage = false) (halert : kind ≠ .alert) :
    Faithful backoffBaseSecs { m with
      deeds := m.deeds ++ [⟨m.tick, m.clock, kind⟩]
      whisperGate := committed m.whisperGate (whisperSignature kind) m.clock
      blockedGoalGate := committed m.blockedGoalGate (unblockGateSignature kind) m.clock } := by
  refine h.does hlaw ?_ ?_
  · rw [hcoverage, Bool.toNat_false, Nat.zero_add]
  · rintro (hnotified | hkind)
    · exact hnotified
    · exact absurd hkind halert

theorem windowForStrikes_flat (strikes : Nat) :
    (WhisperGate.withBackoff 900 900 5).windowForStrikes strikes = 900 := by
  have hpow : (1 : Int) ≤ 2 ^ (strikes - 1) := one_le_pow₀ (by norm_num)
  unfold WhisperGate.windowForStrikes WhisperGate.withBackoff
  dsimp only
  split
  · rfl
  · split
    · rfl
    · split
      · omega
      · rfl

theorem windowForStrikes_doubling {strikes : Nat} (h : 0 < strikes) :
    (WhisperGate.withBackoff 900 14400 20).windowForStrikes strikes = unblockWindow strikes := by
  unfold WhisperGate.windowForStrikes WhisperGate.withBackoff unblockWindow
  dsimp only
  split
  next hfirst =>
    obtain rfl : strikes = 1 := by omega
    rfl
  next hlater =>
    split
    next hlong =>
      have hpow : (2 : Int) ^ 62 ≤ 2 ^ (strikes - 1) := pow_le_pow_right₀ (by norm_num) hlong
      omega
    · split
      · rfl
      · omega

theorem Faithful.commits_past (h : m.Faithful backoffBaseSecs)
    (signatureOf : DeedKind → Option (List Char)) :
    ∀ entry ∈ commits signatureOf m.tick m.deeds, entry.2 ≤ m.clock := by
  intro entry hentry
  obtain ⟨e, he, -, -, htime⟩ := mem_commits.mp hentry
  rw [← htime]
  exact (h.bounds e he).2

theorem Faithful.whisper_allowed (h : m.Faithful backoffBaseSecs) {signature : List Char}
    (hdeliver : m.whisperGate.peek signature m.clock = .deliver) :
    AllowedInTick backoffBaseSecs m.deeds ⟨m.tick, m.clock, .whisper signature⟩ := by
  rw [h.whispers] at hdeliver
  obtain ⟨hapart, hroom⟩ := WhisperGate.replay_deliver _ _ _ _ (commits_sorted m.tick h.later)
    (h.commits_past whisperSignature) hdeliver
  rw [windowForStrikes_flat] at hapart
  constructor
  · intro e he hsame
    obtain ⟨he, htick⟩ := List.mem_filter.mp he
    apply hapart (signature, e.time) _ rfl
    exact mem_commits.mpr ⟨e, he, of_decide_eq_true htick, by rw [hsame]; rfl, rfl⟩
  · rw [countP_commits] at hroom
    refine lt_of_eq_of_lt (List.countP_congr fun e _ => ?_) hroom
    cases hkind : e.kind with
    | whisper signature => simp [DeedKind.isWhisper, whisperSignature]
    | _ => simp [DeedKind.isWhisper, whisperSignature]

theorem unblockGateSignature_any (kind : DeedKind) (goalId : List Char) :
    (unblockGateSignature kind).any (fun signature => signature = Daemon.unblockSignature goalId) =
      decide (kind = .unblock goalId) := by
  cases kind with
  | unblock other =>
    have hinj : Daemon.unblockSignature other = Daemon.unblockSignature goalId ↔ other = goalId :=
      List.append_right_inj _
    simp only [unblockGateSignature, Option.any_some, hinj, DeedKind.unblock.injEq]
  | _ => rfl

theorem Faithful.unblock_allowed (h : m.Faithful backoffBaseSecs) {goalId : List Char}
    (hdeliver : m.blockedGoalGate.peek (Daemon.unblockSignature goalId) m.clock = .deliver) :
    AllowedInTick backoffBaseSecs m.deeds ⟨m.tick, m.clock, .unblock goalId⟩ := by
  rw [h.unblocks] at hdeliver
  obtain ⟨hapart, -⟩ := WhisperGate.replay_deliver _ _ _ _ (commits_sorted m.tick h.later)
    (h.commits_past unblockGateSignature) hdeliver
  change UnblockDue (timesOf (.unblock goalId) (m.deeds.filter fun e => e.tick = m.tick)) m.clock
  have hstrikes : ((commits unblockGateSignature m.tick m.deeds).countP
        fun e => e.1 = Daemon.unblockSignature goalId) =
      (timesOf (.unblock goalId) (m.deeds.filter fun e => e.tick = m.tick)).length := by
    rw [countP_commits, timesOf, List.length_filterMap_eq_countP]
    apply List.countP_congr
    intro e _
    rw [unblockGateSignature_any]
    by_cases hkind : e.kind = .unblock goalId
    · simp [hkind]
    · simp [hkind]
  intro last hlast
  have hmem := List.mem_of_getLast? hlast
  have hpos : 0 < (timesOf (.unblock goalId) (m.deeds.filter fun e => e.tick = m.tick)).length :=
    List.length_pos_of_mem hmem
  rw [hstrikes, windowForStrikes_doubling hpos] at hapart
  obtain ⟨e, he, htime⟩ := List.mem_filterMap.mp hmem
  obtain ⟨he, htick⟩ := List.mem_filter.mp he
  split at htime
  next hkind =>
    apply hapart (Daemon.unblockSignature goalId, last) _ rfl
    exact mem_commits.mpr ⟨e, he, of_decide_eq_true htick, by rw [hkind]; rfl,
      Option.some.inj htime⟩
  · cases htime

theorem Faithful.coverage_allowed (h : m.Faithful backoffBaseSecs) {iv : Intervention}
    {rest : List Intervention} (hplan : m.plan = iv :: rest) (hcoverage : iv.coverage.isSome = true)
    (key : List Char) :
    AllowedInTick backoffBaseSecs m.deeds ⟨m.tick, m.clock, .coverage key⟩ := by
  have hcovered := h.covered
  have hnone : (m.deeds.countP fun e => e.tick = m.tick && e.kind.isCoverage) = 0 := by
    rw [coverages, hplan, List.countP_cons, if_pos hcoverage] at hcovered
    split at hcovered <;> omega
  intro e he
  obtain ⟨he, htick⟩ := List.mem_filter.mp he
  have hother := List.countP_eq_zero.mp hnone e he
  simpa [of_decide_eq_true htick] using hother

theorem Faithful.alert_allowed (h : m.Faithful backoffBaseSecs) (hopen : m.notified = false) :
    AllowedInTick backoffBaseSecs m.deeds ⟨m.tick, m.clock, .alert⟩ := by
  intro e he halert
  obtain ⟨he, htick⟩ := List.mem_filter.mp he
  have hnotified := h.latched ⟨e, he, of_decide_eq_true htick, halert⟩
  rw [hopen] at hnotified
  cases hnotified

theorem Faithful.later_on (h : m.Faithful backoffBaseSecs) (secs : Nat) :
    Faithful backoffBaseSecs { m with clock := m.clock + secs } where
  later := h.later
  bounds e he := ⟨(h.bounds e he).1, by have := (h.bounds e he).2; dsimp only; omega⟩
  allowed := h.allowed
  whispers := h.whispers
  unblocks := h.unblocks
  covered := h.covered
  latched := h.latched

theorem Faithful.replan (h : m.Faithful backoffBaseSecs) {plan : List Intervention}
    {sequencer : ConflictSequencer}
    (hcovered : coverages { m with plan := plan, sequencer := sequencer } ≤
      if workstreamCoverageGroup ∈ sequencer.activeGroups then 1 else 0) :
    Faithful backoffBaseSecs { m with plan := plan, sequencer := sequencer } where
  later := h.later
  bounds := h.bounds
  allowed := h.allowed
  whispers := h.whispers
  unblocks := h.unblocks
  covered := hcovered
  latched := h.latched

theorem Faithful.pop (h : m.Faithful backoffBaseSecs) {iv : Intervention}
    {rest : List Intervention} (hplan : m.plan = iv :: rest) :
    Faithful backoffBaseSecs { m with plan := rest } := by
  apply h.replan
  have hcovered := h.covered
  rw [coverages, hplan, List.countP_cons] at hcovered
  unfold coverages
  dsimp only
  omega

theorem Faithful.plan (h : m.Faithful backoffBaseSecs) (iv : Intervention)
    {sequencer : ConflictSequencer}
    (hgroups : m.sequencer.activeGroups ⊆ sequencer.activeGroups)
    (htaken : iv.coverage.isSome = true → workstreamCoverageGroup ∉ m.sequencer.activeGroups ∧
      workstreamCoverageGroup ∈ sequencer.activeGroups) :
    Faithful backoffBaseSecs { m with plan := m.plan ++ [iv], sequencer := sequencer } := by
  apply h.replan
  have hcovered := h.covered
  unfold coverages at hcovered ⊢
  rw [List.countP_append, List.countP_singleton]
  dsimp only at hcovered ⊢
  by_cases hcoverage : iv.coverage.isSome = true
  · obtain ⟨hfresh, htaken⟩ := htaken hcoverage
    rw [if_neg hfresh] at hcovered
    rw [if_pos htaken, if_pos hcoverage]
    omega
  · rw [if_neg hcoverage]
    split at hcovered
    next hgroup =>
      rw [if_pos (hgroups hgroup)]
      exact hcovered
    · omega

theorem Faithful.latch (h : m.Faithful backoffBaseSecs) :
    Faithful backoffBaseSecs { m with notified := true } where
  later := h.later
  bounds := h.bounds
  allowed := h.allowed
  whispers := h.whispers
  unblocks := h.unblocks
  covered := h.covered
  latched _ := rfl

theorem Faithful.next_tick (h : m.Faithful backoffBaseSecs) :
    Faithful backoffBaseSecs { m with
      tick := m.tick + 1
      plan := []
      whisperGate := .new 900 5
      blockedGoalGate := .withBackoff 900 14400 20
      sequencer := ⟨[]⟩
      notified := false } where
  later := h.later
  bounds e he := ⟨Nat.le_succ_of_le (h.bounds e he).1, (h.bounds e he).2⟩
  allowed := h.allowed
  whispers := by rw [commits_next fun e he => (h.bounds e he).1]; rfl
  unblocks := by rw [commits_next fun e he => (h.bounds e he).1]; rfl
  covered := by
    have hnone : (m.deeds.countP fun e => e.tick = m.tick + 1 && e.kind.isCoverage) = 0 := by
      rw [List.countP_eq_zero]
      intro e he hcounted
      have hle := (h.bounds e he).1
      simp only [Bool.and_eq_true, decide_eq_true_eq] at hcounted
      omega
    simp [coverages, hnone]
  latched := by
    rintro ⟨e, he, htick, -⟩
    have hle := (h.bounds e he).1
    dsimp only at htick
    omega

end Memory

namespace Daemon

open Simard.Overseer.Memory

variable {config : OverseerConfig} {daemon : Daemon}

theorem launch_memory (world : ActWorld) (brief : RecipeBrief) (goal : Option (List Char)) :
    (daemon.launch config world brief goal).2.memory = daemon.memory := by
  unfold launch
  split <;> rfl

theorem faithful_actWhisper {backoffBaseSecs : Int} (h : daemon.memory.Faithful backoffBaseSecs)
    (world : ActWorld) (note : List Char) :
    (daemon.actWhisper config world note).memory.Faithful backoffBaseSecs := by
  unfold actWhisper
  split
  · exact h
  · split
    next hdeliver =>
      split
      · exact h.does_plain (h.whisper_allowed hdeliver) rfl (by simp)
      · exact h
    · exact h

theorem faithful_actUnblockGoal {backoffBaseSecs : Int} (h : daemon.memory.Faithful backoffBaseSecs)
    (world : ActWorld) (goalId : List Char) :
    (daemon.actUnblockGoal config world goalId).memory.Faithful backoffBaseSecs := by
  unfold actUnblockGoal
  split
  · exact h
  · split
    next hdeliver =>
      split
      · have hdone :=
          (h.does_plain (h.unblock_allowed hdeliver) rfl (by simp)).later_on world.carveSecs
        dsimp only
        split
        · exact faithful_actWhisper hdone world (carveNote goalId)
        · exact hdone
      · exact h
    · exact h

theorem does_memory (kind : DeedKind) :
    (daemon.does kind).memory = { daemon.memory with
      deeds := daemon.memory.deeds ++ [⟨daemon.memory.tick, daemon.memory.clock, kind⟩] } := rfl

theorem faithful_actLaunchRecipe {backoffBaseSecs : Int} {brief : RecipeBrief}
    {rest : List Intervention} (h : daemon.memory.Faithful backoffBaseSecs)
    (hplan : daemon.plan = .launchRecipe brief :: rest) (world : ActWorld) :
    (({ daemon with plan := rest } : Daemon).actLaunchRecipe config world brief).memory.Faithful
      backoffBaseSecs := by
  have hpopped := h.pop hplan
  have hlaunch : (({ daemon with plan := rest } : Daemon).launch config world brief none).2.memory =
      { daemon.memory with plan := rest } := launch_memory world brief none
  unfold actLaunchRecipe
  split
  next hgroup =>
    have hcoverage : (Intervention.launchRecipe brief).coverage.isSome = true := by
      simp [Intervention.coverage, hgroup]
    split
    · exact hpopped
    · split
      next heq =>
        rw [heq] at hlaunch
        exact hlaunch ▸ hpopped
      next launched heq =>
        rw [heq] at hlaunch
        change launched.memory = _ at hlaunch
        split
        · change launched.memory.Faithful _
          exact hlaunch ▸ hpopped
        · rw [does_memory]
          change Faithful _ { launched.memory with
            deeds := launched.memory.deeds ++
              [⟨launched.memory.tick, launched.memory.clock, .coverage (recipeDedupKey brief)⟩] }
          rw [hlaunch]
          refine h.does (h.coverage_allowed hplan hcoverage _) ?_ ?_
          · change 1 + _ ≤ daemon.plan.countP _
            rw [hplan, List.countP_cons, if_pos hcoverage, Nat.add_comm]
          · rintro (hnotified | hkind)
            · exact hnotified
            · cases hkind
  · rw [hlaunch]
    exact hpopped

theorem faithful_observeMergeQueue {backoffBaseSecs : Int}
    (h : daemon.memory.Faithful backoffBaseSecs) :
    (daemon.observeMergeQueue config).memory.Faithful backoffBaseSecs := by
  unfold observeMergeQueue
  dsimp only
  split
  · exact h
  · split
    · exact h
    · split
      · exact h
      · split
        · exact h
        · split
          · exact h
          next hopen =>
            split
            · split
              · exact h.does (h.alert_allowed (Bool.eq_false_of_not_eq_true hopen))
                  (Nat.le_of_eq (Nat.zero_add _)) (fun _ => rfl)
              · exact h.latch
            · exact h.latch

theorem gate_cases (config : OverseerConfig) (overseer : ActingOverseer) (iv : Intervention)
    (spentTodayUsd : Option ℚ)
    (launches : Nat) (now : Int) :
    (∃ launches', config.gate overseer iv spentTodayUsd launches now =
      (false, overseer, launches')) ∨
    (∃ launches', config.gate overseer iv spentTodayUsd launches now =
      (true, overseer, launches') ∧ iv.isCostBearing = false) ∨
    ∃ sequencer launches', config.gate overseer iv spentTodayUsd launches now =
      (true, { overseer with sequencer := sequencer }, launches') ∧
      overseer.sequencer.admits (OverseerConfig.sequenceGroupOf iv) = some sequencer := by
  unfold OverseerConfig.gate
  split
  · exact .inl ⟨launches, rfl⟩
  · split
    next hcost => exact .inr (.inl ⟨launches, rfl, by simpa using hcost⟩)
    · split
      · exact .inl ⟨launches, rfl⟩
      · split
        · exact .inl ⟨launches, rfl⟩
        next sequencer hadmits => exact .inr (.inr ⟨sequencer, launches + 1, rfl, hadmits⟩)

theorem faithful_gate {backoffBaseSecs : Int} (h : daemon.memory.Faithful backoffBaseSecs)
    (iv : Intervention) (spentTodayUsd : Option ℚ) :
    (daemon.step config (.gate iv spentTodayUsd)).memory.Faithful backoffBaseSecs := by
  rcases gate_cases config daemon.overseer iv spentTodayUsd daemon.launches daemon.clock with
    ⟨_, heq⟩ | ⟨_, heq, hfree⟩ | ⟨sequencer, _, heq, hadmits⟩
  · simp only [step, heq]
    exact h
  · simp only [step, heq]
    refine h.plan iv (fun _ hgroup => hgroup) fun hcoverage => ?_
    cases iv with
    | launchRecipe brief => cases hfree
    | _ => cases hcoverage
  · simp only [step, heq]
    obtain ⟨hgroups, htaken⟩ := ConflictSequencer.admits_some hadmits
    refine h.plan iv hgroups fun hcoverage => htaken _ ?_
    cases iv with
    | launchRecipe brief =>
      simp only [Intervention.coverage] at hcoverage
      split at hcoverage
      next hgroup => exact hgroup
      · cases hcoverage
    | _ => cases hcoverage

theorem faithful_act {backoffBaseSecs : Int} {iv : Intervention} {rest : List Intervention}
    (h : daemon.memory.Faithful backoffBaseSecs) (hplan : daemon.plan = iv :: rest)
    (world : ActWorld) :
    (({ daemon with plan := rest } : Daemon).act config world iv).memory.Faithful
      backoffBaseSecs := by
  have hpopped : Memory.Faithful backoffBaseSecs ({ daemon with plan := rest } : Daemon).memory :=
    h.pop hplan
  cases iv with
  | launchRecipe brief => exact faithful_actLaunchRecipe h hplan world
  | whisper note => exact faithful_actWhisper hpopped world note
  | unblockGoal goalId reason => exact faithful_actUnblockGoal hpopped world goalId
  | escalateBlockedGoal goalId reason why problem nextStep =>
    rw [act, actEscalateBlockedGoal]
    split
    · exact hpopped
    · split
      · exact hpopped
      · rw [launch_memory]
        exact hpopped
  | reworkPr repo pr concernPath =>
    rw [act, actReworkPr]
    split
    · exact hpopped
    · rw [launch_memory]
      exact hpopped
  | flagWorkstreamGaps => exact hpopped
  | other risk costBearing => exact hpopped

theorem faithful_step {backoffBaseSecs : Int} (event : DaemonEvent)
    (h : daemon.memory.Faithful backoffBaseSecs) :
    (daemon.step config event).memory.Faithful backoffBaseSecs := by
  cases event with
  | wait secs => exact h.later_on secs
  | childExits child => exact h
  | setReasoning disabled =>
    cases disabled with
    | true => exact h
    | false => exact h.does_plain trivial rfl (by simp)
  | push kind signature => exact h
  | begin gapScanEnabled => exact h.next_tick
  | observeMergeQueue => exact faithful_observeMergeQueue h
  | gate iv spentTodayUsd => exact faithful_gate h iv spentTodayUsd
  | act world =>
    unfold step
    dsimp only
    split
    · exact h
    next hplan => exact faithful_act h hplan world

theorem faithful_init (config : OverseerConfig) (backoffBaseSecs clock : Int) :
    (init config clock).memory.Faithful backoffBaseSecs where
  later := Kept.nil
  bounds := nofun
  allowed := Kept.nil
  whispers := rfl
  unblocks := rfl
  covered := Nat.zero_le _
  latched := by rintro ⟨e, he, -⟩; cases he

end Daemon

theorem faithful_run (config : OverseerConfig) (clock : Int) (events : List DaemonEvent) :
    ((daemonMachine config).run (.init config clock) events).memory.Faithful
      config.backoffBaseSecs :=
  (daemonMachine config).invariant_run
    (P := fun daemon => daemon.memory.Faithful config.backoffBaseSecs)
    (fun _ event h => Daemon.faithful_step event h)
    (Daemon.faithful_init config config.backoffBaseSecs clock) events

theorem rateLimited_iff_acrossTicks (config : OverseerConfig) (clock : Int)
    (events : List DaemonEvent) :
    RateLimited config.backoffBaseSecs
      ((daemonMachine config).run (.init config clock) events).deeds ↔
    Kept (AllowedAcrossTicks config.backoffBaseSecs)
      ((daemonMachine config).run (.init config clock) events).deeds := by
  have hfaithful := faithful_run config clock events
  have hlaw := Kept.congr (Kept.and_iff.mpr ⟨hfaithful.later, hfaithful.allowed⟩)
    fun before deed hgiven => allowed_iff_acrossTicks hgiven.1 hgiven.2
  exact (rateLimited_iff config.backoffBaseSecs hfaithful.later).trans hlaw

end Simard.Overseer
