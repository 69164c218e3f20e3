import Simard.Overseer.TickMemory

/-! What the ticks are asked to do, and when. No Overseer knows what earlier ones did, so across
ticks the limits are kept where the asks themselves keep apart; the alert alone is held back by the
notifier's rail, as long as the cooldown lasts. -/
namespace Simard.Overseer
open Simard.Library

/-- A step that would take effect if no gate held it back, in which tick and when. -/
abbrev Ask : Type := Deed

def OverseerConfig.asksWhisper (config : OverseerConfig) (world : ActWorld)
    (tick : Nat) (time : Int)
    (note : List Char) : List Ask :=
  if config.identityConfigured && (config.whisperSink && world.delivers) then
    [⟨tick, time, .whisper (noteSignature note)⟩]
  else []

def OverseerConfig.asks (config : OverseerConfig) (world : ActWorld) (tick : Nat) (time : Int) :
    Intervention → List Ask
  | .whisper note => config.asksWhisper world tick time note
  | .unblockGoal goalId _ =>
      if config.identityConfigured && world.unblocks then
        ⟨tick, time, .unblock goalId⟩ ::
          if config.whisperEnabled then
            config.asksWhisper world tick (time + world.carveSecs) (carveNote goalId)
          else []
      else []
  | .launchRecipe brief =>
      if brief.sequenceGroup = some workstreamCoverageGroup && config.identityConfigured &&
          world.spawn.spawns then
        [⟨tick, time, .coverage (recipeDedupKey brief)⟩]
      else []
  | _ => []

namespace Daemon

variable (config : OverseerConfig) (daemon : Daemon)

/-- What an event asks of the daemon: to act on the next intervention of the plan, to tell that
reasoning is disabled, or to enable it. -/
def asked : DaemonEvent → List Ask
  | .setReasoning false => [⟨daemon.tick, daemon.clock, .reasoningEnabled⟩]
  | .observeMergeQueue =>
      if config.mergeQueueReasoner && daemon.overseer.gapScanEnabled && daemon.reasoningDisabled &&
          config.notifier then
        [⟨daemon.tick, daemon.clock, .alert⟩]
      else []
  | .act world =>
      match daemon.plan with
      | [] => []
      | iv :: _ => config.asks world daemon.tick daemon.clock iv
  | _ => []

end Daemon

def asksOf (config : OverseerConfig) (daemon : Daemon) (events : List DaemonEvent) : List Ask :=
  ((daemonMachine config).trace daemon events).flatMap fun t => t.before.asked config t.event

/-- What an ask keeps with the asks before it: the distance of its kind to those of earlier ticks.
An alert instead comes before the cooldown after an earlier one is over, or after reasoning was
enabled between them. -/
def AskedApart (backoffBaseSecs : Int) (cooldown : UInt64) (before : List Ask) (ask : Ask) : Prop :=
  match ask.kind with
  | .whisper signature =>
      (∀ e ∈ before, e.tick < ask.tick → e.kind = .whisper signature → 900 ≤ ask.time - e.time) ∧
      ((∃ e ∈ before, e.tick < ask.tick ∧ e.kind.isWhisper ∧ ask.time - 3600 < e.time) →
        (before.countP fun e => e.kind.isWhisper && ask.time - 3600 < e.time) < 5)
  | .unblock goalId =>
      (∃ e ∈ before, e.tick < ask.tick ∧ e.kind = .unblock goalId) →
        ∀ e ∈ before, e.kind = .unblock goalId →
          unblockWindow (before.countP (·.kind = .unblock goalId)) ≤ ask.time - e.time
  | .coverage key => ∀ e ∈ before, e.tick < ask.tick → e.kind = .coverage key →
      backoffBaseSecs ≤ ask.time - e.time
  | .alert => ∀ (left mid : List Ask) (a : Ask), before = left ++ a :: mid →
      a.tick < ask.tick → a.kind = .alert → (∀ e ∈ mid, e.kind ≠ .reasoningEnabled) →
        ask.time - a.time < cooldown.toNat
  | .reasoningEnabled => True

/-- The asks of a run keep apart, and the rail has room for the signatures of all pushes. -/
structure TicksKeepApart (config : OverseerConfig) (clock : Int) (events : List DaemonEvent) :
    Prop where
  asks : Kept (AskedApart config.backoffBaseSecs config.notifyDedupSecs)
    (asksOf config (.init config clock) events)
  room : ∀ t ∈ (daemonMachine config).trace (.init config clock) events,
    t.before.rail.entries.length < notifyDedupMaxEntries

abbrev MustBeDone (deed : Deed) : Prop := deed.kind = .reasoningEnabled

namespace Daemon

variable {config : OverseerConfig} {daemon : Daemon}

def Did (before after : Daemon) (asks : List Ask) : Prop :=
  ∃ done, after.deeds = before.deeds ++ done ∧ Chosen MustBeDone asks done

theorem did_nothing {after : Daemon} {asks : List Ask} (hdeeds : after.deeds = daemon.deeds)
    (hasks : ∀ ask ∈ asks, ¬ MustBeDone ask) : Did daemon after asks := by
  refine ⟨[], by rw [hdeeds, List.append_nil], ?_⟩
  induction asks with
  | nil => exact .nil
  | cons ask asks ih =>
    rw [List.forall_mem_cons] at hasks
    exact (ih hasks.2).skip hasks.1

theorem did_all {after : Daemon} {asks : List Ask} (hdeeds : after.deeds = daemon.deeds ++ asks) :
    Did daemon after asks := ⟨asks, hdeeds, Chosen.refl asks⟩

theorem Did.trans {first last : Daemon} {asks later : List Ask} (h : Did daemon first asks)
    (h' : Did first last later) : Did daemon last (asks ++ later) := by
  obtain ⟨done, hdone, hchosen⟩ := h
  obtain ⟨done', hdone', hchosen'⟩ := h'
  exact ⟨done ++ done', by rw [hdone', hdone, List.append_assoc], hchosen.append hchosen'⟩

theorem asksWhisper_kinds {world : ActWorld} {tick : Nat} {time : Int} {note : List Char} :
    ∀ ask ∈ config.asksWhisper world tick time note, ask.kind ≠ .alert ∧ ¬ MustBeDone ask := by
  unfold OverseerConfig.asksWhisper
  split <;> simp

/-- To act on an intervention neither alerts nor enables reasoning. -/
theorem asks_kinds {world : ActWorld} {tick : Nat} {time : Int} {iv : Intervention} :
    ∀ ask ∈ config.asks world tick time iv, ask.kind ≠ .alert ∧ ¬ MustBeDone ask := by
  intro ask hask
  cases iv with
  | whisper note => exact asksWhisper_kinds ask hask
  | unblockGoal goalId reason =>
    simp only [OverseerConfig.asks] at hask
    split at hask
    · rcases List.mem_cons.mp hask with rfl | hask
      · exact ⟨DeedKind.noConfusion, DeedKind.noConfusion⟩
      · split at hask
        · exact asksWhisper_kinds ask hask
        · cases hask
    · cases hask
  | launchRecipe brief =>
    simp only [OverseerConfig.asks] at hask
    split at hask
    · obtain rfl := List.mem_singleton.mp hask
      exact ⟨DeedKind.noConfusion, DeedKind.noConfusion⟩
    · cases hask
  | _ => cases hask

theorem asks_plain {world : ActWorld} {tick : Nat} {time : Int} {iv : Intervention} :
    ∀ ask ∈ config.asks world tick time iv, ¬ MustBeDone ask :=
  fun ask hask => (asks_kinds ask hask).2

theorem did_whispers_nothing {after : Daemon} (hdeeds : after.deeds = daemon.deeds)
    (world : ActWorld) (tick : Nat) (time : Int) (note : List Char) :
    Did daemon after (config.asksWhisper world tick time note) :=
  did_nothing hdeeds fun ask hask => (asksWhisper_kinds ask hask).2

theorem did_actWhisper (world : ActWorld) (note : List Char) :
    Did daemon (daemon.actWhisper config world note)
      (config.asksWhisper world daemon.tick daemon.clock note) := by
  unfold actWhisper
  split
  · exact did_whispers_nothing rfl world _ _ note
  next hidentity =>
    rw [Bool.not_eq_true, Bool.not_eq_false'] at hidentity
    split
    · split
      next hdelivers =>
        refine did_all ?_
        unfold OverseerConfig.asksWhisper
        rw [hidentity, hdelivers, Bool.true_and, if_pos rfl]
        rfl
      · exact did_whispers_nothing rfl world _ _ note
    · exact did_whispers_nothing rfl world _ _ note

theorem did_carve {later : Daemon} {deed : Deed} (h : Did daemon later [deed]) (world : ActWorld)
    (note : List Char) :
    Did daemon
      (if config.whisperEnabled && config.whisperSink then later.actWhisper config world note
        else later)
      (deed :: if config.whisperEnabled then
        config.asksWhisper world later.tick later.clock note else []) := by
  cases config.whisperEnabled with
  | false => exact h
  | true =>
    rw [Bool.true_and, if_pos rfl]
    split
    · exact h.trans (did_actWhisper world note)
    · exact h.trans (did_whispers_nothing rfl world _ _ note)

theorem did_actUnblockGoal (world : ActWorld) (goalId reason : List Char) :
    Did daemon (daemon.actUnblockGoal config world goalId)
      (config.asks world daemon.tick daemon.clock (.unblockGoal goalId reason)) := by
  unfold actUnblockGoal
  split
  · exact did_nothing rfl asks_plain
  next hidentity =>
    rw [Bool.not_eq_true, Bool.not_eq_false'] at hidentity
    split
    · split
      next hunblocks =>
        simp only [OverseerConfig.asks]
        rw [hidentity, hunblocks, Bool.true_and, if_pos rfl]
        exact did_carve (did_all rfl) world (carveNote goalId)
      · exact did_nothing rfl asks_plain
    · exact did_nothing rfl asks_plain

theorem launch_deeds (world : ActWorld) (brief : RecipeBrief) (goal : Option (List Char)) :
    (daemon.launch config world brief goal).2.deeds = daemon.deeds :=
  congrArg Memory.deeds (launch_memory world brief goal)

theorem spawns_of_launched {world : ActWorld} {brief : RecipeBrief} {goal : Option (List Char)}
    (h : (daemon.launch config world brief goal).2.recipes.children.length ≠
      daemon.recipes.children.length) : world.spawn.spawns = true := by
  rw [launch_recipes, RecipeRuns.spawn_eq] at h
  by_contra hspawns
  split at h
  · exact h rfl
  · exact h rfl

theorem did_actLaunchRecipe (world : ActWorld) (brief : RecipeBrief) :
    Did daemon (daemon.actLaunchRecipe config world brief)
      (config.asks world daemon.tick daemon.clock (.launchRecipe brief)) := by
  have hmemory := @launch_memory config daemon world brief none
  unfold actLaunchRecipe
  split
  next hgroup =>
    split
    · exact did_nothing rfl asks_plain
    next hidentity =>
      rw [Bool.not_eq_true, Bool.not_eq_false'] at hidentity
      split
      next launched heq =>
        rw [heq] at hmemory
        exact did_nothing (congrArg Memory.deeds hmemory) asks_plain
      next launched heq =>
        rw [heq] at hmemory
        dsimp only
        split
        · exact did_nothing (congrArg Memory.deeds hmemory) asks_plain
        next hlonger =>
          have hspawns : world.spawn.spawns = true := by
            apply @spawns_of_launched config daemon world brief none
            rw [heq]
            exact hlonger
          refine did_all ?_
          simp only [OverseerConfig.asks]
          rw [if_pos (by simp [hgroup, hidentity, hspawns])]
          have hdeeds : launched.deeds = daemon.deeds := congrArg Memory.deeds hmemory
          have htick : launched.tick = daemon.tick := congrArg Memory.tick hmemory
          have hclock : launched.clock = daemon.clock := congrArg Memory.clock hmemory
          simp only [does, hdeeds, htick, hclock]
  · exact did_nothing (launch_deeds world brief none) asks_plain

theorem did_act (world : ActWorld) (iv : Intervention) :
    Did daemon (daemon.act config world iv) (config.asks world daemon.tick daemon.clock iv) := by
  cases iv with
  | launchRecipe brief => exact did_actLaunchRecipe world brief
  | whisper note => exact did_actWhisper world note
  | unblockGoal goalId reason => exact did_actUnblockGoal world goalId reason
  | escalateBlockedGoal goalId reason why problem nextStep =>
    rw [act, actEscalateBlockedGoal]
    split
    · exact did_nothing rfl asks_plain
    · split
      · exact did_nothing rfl asks_plain
      · exact did_nothing (launch_deeds world _ _) asks_plain
  | reworkPr repo pr concernPath =>
    rw [act, actReworkPr]
    split
    · exact did_nothing rfl asks_plain
    · exact did_nothing (launch_deeds world _ _) asks_plain
  | flagWorkstreamGaps => exact did_nothing rfl asks_plain
  | other risk costBearing => exact did_nothing rfl asks_plain

theorem did_observeMergeQueue :
    Did daemon (daemon.observeMergeQueue config) (daemon.asked config .observeMergeQueue) := by
  have hplain : ∀ ask ∈ daemon.asked config .observeMergeQueue, ¬ MustBeDone ask := by
    intro ask hask
    simp only [asked] at hask
    split at hask
    · obtain rfl := List.mem_singleton.mp hask
      exact DeedKind.noConfusion
    · cases hask
  unfold observeMergeQueue
  dsimp only
  split
  · exact did_nothing rfl hplain
  next hreasoner =>
    split
    · exact did_nothing rfl hplain
    next hscan =>
      split
      · exact did_nothing rfl hplain
      · split
        · exact did_nothing rfl hplain
        next hdisabled =>
          split
          · exact did_nothing rfl hplain
          · split
            next hnotifier =>
              split
              · refine did_all ?_
                simp only [asked]
                rw [if_pos (by simpa using ⟨⟨⟨by simpa using hreasoner, by simpa using hscan⟩,
                  by simpa using hdisabled⟩, hnotifier⟩)]
                rfl
              · exact did_nothing rfl hplain
            · exact did_nothing rfl hplain

theorem did_step (event : DaemonEvent) :
    Did daemon (daemon.step config event) (daemon.asked config event) := by
  cases event with
  | setReasoning disabled =>
    cases disabled with
    | true => exact did_nothing rfl (List.forall_mem_nil _)
    | false => exact did_all rfl
  | observeMergeQueue => exact did_observeMergeQueue
  | act world =>
    cases hplan : daemon.plan with
    | nil =>
      simp only [step, asked, hplan]
      exact did_nothing rfl (List.forall_mem_nil _)
    | cons iv rest =>
      simp only [step, asked, hplan]
      exact @did_act config { daemon with plan := rest } world iv
  | _ => exact did_nothing rfl (List.forall_mem_nil _)

end Daemon

theorem did_run (config : OverseerConfig) (daemon : Daemon) (events : List DaemonEvent) :
    daemon.Did ((daemonMachine config).run daemon events) (asksOf config daemon events) := by
  induction events generalizing daemon with
  | nil => exact Daemon.did_nothing rfl (List.forall_mem_nil _)
  | cons event events ih => exact (Daemon.did_step event).trans (ih _)

def Railed (cooldown : UInt64) (before : List Deed) (deed : Deed) : Prop :=
  deed.kind = .alert → ∀ e ∈ before, e.kind = .alert → (cooldown.toNat : Int) ≤ deed.time - e.time

namespace Daemon

variable {config : OverseerConfig} {daemon : Daemon}

structure RailFaithful (config : OverseerConfig) (daemon : Daemon) : Prop where
  railed : Kept (Railed config.notifyDedupSecs) daemon.deeds
  known : ∀ e ∈ daemon.deeds, e.kind = .alert → e.time ≤ daemon.clock ∧
    daemon.rail.Knows config.notifyDedupSecs mergeReasoningDisabledSignature e.time daemon.clock

/-- Steps that leave the rail alone and do not alert. -/
structure Quiet (before after : Daemon) : Prop where
  rail : after.rail = before.rail
  clock : before.clock ≤ after.clock

theorem Quiet.refl : Quiet daemon daemon := ⟨rfl, le_rfl⟩

theorem RailFaithful.add_plain {deeds : List Deed} (h : Kept (Railed config.notifyDedupSecs) deeds)
    {done : List Deed} (hdone : ∀ deed ∈ done, deed.kind ≠ .alert) :
    Kept (Railed config.notifyDedupSecs) (deeds ++ done) := by
  induction done using List.reverseRecOn with
  | nil => rwa [List.append_nil]
  | append_singleton done deed ih =>
    rw [List.forall_mem_append, List.forall_mem_singleton] at hdone
    rw [← List.append_assoc]
    exact Kept.concat_iff.mpr ⟨ih hdone.1, fun halert => absurd halert hdone.2⟩

theorem RailFaithful.quiet {after : Daemon} {asks : List Ask} (h : daemon.RailFaithful config)
    (hquiet : Quiet daemon after) (hdid : Did daemon after asks)
    (hasks : ∀ ask ∈ asks, ask.kind ≠ .alert) : after.RailFaithful config := by
  obtain ⟨done, hdeeds, hchosen⟩ := hdid
  have hdone : ∀ deed ∈ done, deed.kind ≠ .alert := fun deed hdeed =>
    hasks deed (hchosen.sublist.subset hdeed)
  refine ⟨hdeeds ▸ RailFaithful.add_plain h.railed hdone, ?_⟩
  intro e he halert
  rw [hdeeds] at he
  rcases List.mem_append.mp he with he | he
  · obtain ⟨htime, hknown⟩ := h.known e he halert
    exact ⟨htime.trans hquiet.clock, hquiet.rail ▸ hknown.later hquiet.clock⟩
  · exact absurd halert (hdone e he)

theorem quiet_launch (world : ActWorld) (brief : RecipeBrief) (goal : Option (List Char)) :
    Quiet daemon (daemon.launch config world brief goal).2 := by
  unfold launch
  split <;> exact ⟨rfl, le_rfl⟩

theorem quiet_actWhisper (world : ActWorld) (note : List Char) :
    Quiet daemon (daemon.actWhisper config world note) := by
  unfold actWhisper
  split
  · exact .refl
  · split
    · split <;> exact ⟨rfl, le_rfl⟩
    · exact .refl

theorem quiet_actUnblockGoal (world : ActWorld) (goalId : List Char) :
    Quiet daemon (daemon.actUnblockGoal config world goalId) := by
  unfold actUnblockGoal
  split
  · exact .refl
  · split
    · split
      · have hlater : daemon.clock ≤ daemon.clock + world.carveSecs := by omega
        dsimp only
        split
        · have hwhisper :=
            @quiet_actWhisper config ({ ({ daemon with overseer := { daemon.overseer with
              blockedGoalGate := daemon.overseer.blockedGoalGate.commit (unblockSignature goalId)
                daemon.clock } }.does (.unblock goalId)) with
            clock := daemon.clock + world.carveSecs }) world (carveNote goalId)
          exact ⟨hwhisper.rail, hlater.trans hwhisper.clock⟩
        · exact ⟨rfl, hlater⟩
      · exact .refl
    · exact .refl

theorem quiet_act (world : ActWorld) (iv : Intervention) :
    Quiet daemon (daemon.act config world iv) := by
  cases iv with
  | launchRecipe brief =>
    rw [act, actLaunchRecipe]
    have hlaunch := @quiet_launch config daemon world brief none
    split
    · split
      · exact .refl
      · split
        next heq =>
          rw [heq] at hlaunch
          exact hlaunch
        next heq =>
          rw [heq] at hlaunch
          dsimp only
          split <;> exact ⟨hlaunch.rail, hlaunch.clock⟩
    · exact hlaunch
  | whisper note => exact quiet_actWhisper world note
  | unblockGoal goalId reason => exact quiet_actUnblockGoal world goalId
  | escalateBlockedGoal goalId reason why problem nextStep =>
    rw [act, actEscalateBlockedGoal]
    split
    · exact .refl
    · split
      · exact .refl
      · exact quiet_launch world _ _
  | reworkPr repo pr concernPath =>
    rw [act, actReworkPr]
    split
    · exact .refl
    · exact quiet_launch world _ _
  | flagWorkstreamGaps => exact .refl
  | other risk costBearing => exact .refl

theorem RailFaithful.push (h : daemon.RailFaithful config) (kind signature : String)
    (hroom : daemon.rail.entries.length < notifyDedupMaxEntries) :
    (daemon.notify config kind signature).2.RailFaithful config := by
  refine ⟨h.railed, fun e he halert => ?_⟩
  obtain ⟨htime, hknown⟩ := h.known e he halert
  refine ⟨htime, ?_⟩
  change (daemon.rail.notifyAt _ _ kind signature daemon.clock).2.Knows _ _ _ _
  unfold NotifyDedup.notifyAt
  split
  · exact hknown.dedupAllow hroom htime
  · exact hknown

theorem RailFaithful.alert (h : daemon.RailFaithful config)
    (hroom : daemon.rail.entries.length < notifyDedupMaxEntries)
    (hsent : (daemon.notify config "merge-reasoning-disabled"
      mergeReasoningDisabledSignature).1 = true) :
    ((daemon.notify config "merge-reasoning-disabled"
      mergeReasoningDisabledSignature).2.does .alert).RailFaithful config := by
  have hpushed := h.push "merge-reasoning-disabled" mergeReasoningDisabledSignature hroom
  have hkind : "merge-reasoning-disabled" ∈ suppressibleKinds := by decide
  have hallow : (daemon.rail.dedupAllow config.hashOrder config.notifyDedupSecs
      mergeReasoningDisabledSignature daemon.clock).1 = true := by
    simpa only [notify, NotifyDedup.notifyAt, if_pos hkind] using hsent
  refine ⟨Kept.concat_iff.mpr ⟨h.railed, fun _ e he halert => ?_⟩, ?_⟩
  · obtain ⟨htime, hknown⟩ := h.known e he halert
    exact hknown.apart htime hallow
  · intro e he halert
    rcases List.mem_append.mp he with he | he
    · exact hpushed.known e he halert
    · obtain rfl := List.mem_singleton.mp he
      refine ⟨le_rfl, ?_⟩
      have hknown := NotifyDedup.knows_sent hroom hallow
      simpa only [does, notify, NotifyDedup.notifyAt, if_pos hkind] using hknown

theorem railFaithful_observeMergeQueue (h : daemon.RailFaithful config)
    (hroom : daemon.rail.entries.length < notifyDedupMaxEntries) :
    (daemon.observeMergeQueue config).RailFaithful config := by
  unfold observeMergeQueue
  dsimp only
  split
  · exact h
  · split
    · exact ⟨h.railed, h.known⟩
    · split
      · exact ⟨h.railed, h.known⟩
      · split
        · exact ⟨h.railed, h.known⟩
        · split
          · exact ⟨h.railed, h.known⟩
          · have hlatched : RailFaithful config { daemon with overseer := { daemon.overseer with
                mergeQueueTick := daemon.overseer.mergeQueueTick + 1
                mergeReasoningDisabledNotified := true } } := ⟨h.railed, h.known⟩
            split
            · split
              next hsent => exact hlatched.alert hroom hsent
              · exact hlatched.push _ _ hroom
            · exact hlatched

theorem railFaithful_step (event : DaemonEvent)
    (hroom : daemon.rail.entries.length < notifyDedupMaxEntries) (h : daemon.RailFaithful config) :
    (daemon.step config event).RailFaithful config := by
  have hdid := @did_step config daemon event
  cases event with
  | wait secs =>
    have hlater : daemon.clock ≤ daemon.clock + secs := by omega
    exact h.quiet ⟨rfl, hlater⟩ hdid (List.forall_mem_nil _)
  | childExits child => exact h.quiet ⟨rfl, le_rfl⟩ hdid (List.forall_mem_nil _)
  | setReasoning disabled =>
    cases disabled with
    | true => exact h.quiet ⟨rfl, le_rfl⟩ hdid (List.forall_mem_nil _)
    | false => exact h.quiet ⟨rfl, le_rfl⟩ hdid (by simp [asked])
  | push kind signature => exact h.push kind signature hroom
  | begin gapScanEnabled => exact h.quiet ⟨rfl, le_rfl⟩ hdid (List.forall_mem_nil _)
  | observeMergeQueue => exact railFaithful_observeMergeQueue h hroom
  | gate iv spentTodayUsd => exact h.quiet ⟨rfl, le_rfl⟩ hdid (List.forall_mem_nil _)
  | act world =>
    cases hplan : daemon.plan with
    | nil =>
      simp only [step, hplan]
      exact h
    | cons iv rest =>
      simp only [step, asked, hplan] at hdid ⊢
      have hquiet := @quiet_act config { daemon with plan := rest } world iv
      exact h.quiet ⟨hquiet.rail, hquiet.clock⟩ hdid fun ask hask => (asks_kinds ask hask).1

theorem railFaithful_init (config : OverseerConfig) (clock : Int) :
    (init config clock).RailFaithful config := ⟨Kept.nil, fun _ he => absurd he List.not_mem_nil⟩

end Daemon

theorem unblockWindow_mono {k n : Nat} (h : k ≤ n) : unblockWindow k ≤ unblockWindow n := by
  have hpow : (2 : Int) ^ (k - 1) ≤ 2 ^ (n - 1) := pow_le_pow_right₀ (by norm_num) (by omega)
  unfold unblockWindow
  omega

theorem AskedApart.allowed {backoffBaseSecs : Int} {cooldown : UInt64} {before : List Ask}
    {done : List Deed} {deed : Deed} (h : AskedApart backoffBaseSecs cooldown before deed)
    (hchosen : Chosen MustBeDone before done) (hrailed : Railed cooldown done deed) :
    AllowedAcrossTicks backoffBaseSecs done deed := by
  have hsub := hchosen.sublist
  unfold AskedApart at h
  unfold AllowedAcrossTicks
  cases hkind : deed.kind with
  | whisper signature =>
    rw [hkind] at h
    refine ⟨fun e he => h.1 e (hsub.subset he), ?_⟩
    rintro ⟨e, he, hearlier⟩
    exact (hsub.countP_le).trans_lt (h.2 ⟨e, hsub.subset he, hearlier⟩)
  | unblock goalId =>
    rw [hkind] at h
    rintro ⟨e, he, hearlier⟩ last hlast
    obtain ⟨goal, hgoal, htime⟩ := List.mem_filterMap.mp (List.mem_of_getLast? hlast)
    split at htime
    next hsame =>
      have hapart := h ⟨e, hsub.subset he, hearlier⟩ goal (hsub.subset hgoal) hsame
      have hcount : (timesOf (.unblock goalId) done).length ≤
          before.countP (·.kind = .unblock goalId) := by
        rw [timesOf, List.length_filterMap_eq_countP]
        refine le_trans (le_of_eq (List.countP_congr fun e _ => ?_)) (hsub.countP_le)
        by_cases hkind : e.kind = .unblock goalId <;> simp [hkind]
      have hwindow := unblockWindow_mono hcount
      rw [← Option.some.inj htime]
      omega
    · cases htime
  | coverage key =>
    rw [hkind] at h
    exact fun e he => h e (hsub.subset he)
  | alert =>
    rw [hkind] at h
    rintro left' mid' a rfl htick halert
    obtain ⟨left, mid, rfl, -, hmid⟩ := hchosen.split
    by_contra hnone
    push Not at hnone
    have hclose := h left mid a rfl htick halert fun e he henabled =>
      hnone e (hmid.mem he henabled) henabled
    have hcool := hrailed hkind a (List.mem_append_right _ List.mem_cons_self) halert
    omega
  | reasoningEnabled => trivial

theorem railFaithful_run {config : OverseerConfig} {clock : Int} {events : List DaemonEvent}
    (hroom : ∀ t ∈ (daemonMachine config).trace (.init config clock) events,
      t.before.rail.entries.length < notifyDedupMaxEntries) :
    ((daemonMachine config).run (.init config clock) events).RailFaithful config :=
  (daemonMachine config).invariant_run_of (P := fun daemon => daemon.RailFaithful config)
    (fun _ event hroom h => Daemon.railFaithful_step event hroom h)
    (Daemon.railFaithful_init config clock) events hroom

/-- Along every run whose ticks are asked for the same far enough apart, the limits hold. -/
theorem rateLimited_of_keepApart (config : OverseerConfig) (clock : Int) (events : List DaemonEvent)
    (h : TicksKeepApart config clock events) :
    RateLimited config.backoffBaseSecs
      ((daemonMachine config).run (.init config clock) events).deeds := by
  rw [rateLimited_iff_acrossTicks]
  obtain ⟨done, hdeeds, hchosen⟩ := did_run config (.init config clock) events
  have hrail := (railFaithful_run h.room).railed
  rw [show (Daemon.init config clock).deeds = [] from rfl, List.nil_append] at hdeeds
  rw [hdeeds] at hrail ⊢
  rintro before deed after rfl
  obtain ⟨left, right, hasks, hleft, -⟩ := hchosen.split
  exact (h.asks left deed right hasks).allowed hleft (hrail before deed after rfl)

/-- Two ticks a quarter of an hour apart whisper the same and find reasoning disabled. -/
def quarterHourTicks (note : List Char) : List DaemonEvent :=
  [.setReasoning true, .begin true, .observeMergeQueue, .gate (.whisper note) none, .act willing,
    .wait 900, .begin true, .observeMergeQueue, .gate (.whisper note) none, .act willing]

theorem quarterHourTicks_asks :
    asksOf openConfig (.init openConfig 1700000000) (quarterHourTicks "ship the docs".toList) =
      [⟨1, 1700000000, .alert⟩, ⟨1, 1700000000, .whisper "ship the docs".toList⟩,
        ⟨2, 1700000900, .alert⟩, ⟨2, 1700000900, .whisper "ship the docs".toList⟩] := by
  decide +kernel

theorem quarterHourTicks_keepApart :
    TicksKeepApart openConfig 1700000000 (quarterHourTicks "ship the docs".toList) := by
  refine ⟨?_, by decide +kernel⟩
  have hnow {before : List Ask} {ask : Ask} (h : ∀ e ∈ before, ask.time - e.time < 3600) :
      ∀ (left mid : List Ask) (a : Ask), before = left ++ a :: mid → a.tick < ask.tick →
        a.kind = .alert → (∀ e ∈ mid, e.kind ≠ .reasoningEnabled) → ask.time - a.time < 3600 := by
    rintro left mid a rfl - - -
    exact h a (List.mem_append_right _ List.mem_cons_self)
  rw [quarterHourTicks_asks, ← List.nil_append [_, _, _, _], List.append_cons, List.append_cons,
    List.append_cons]
  simp only [Kept.concat_iff]
  refine ⟨⟨⟨⟨Kept.nil, hnow (by simp)⟩, by simp [AskedApart]⟩, hnow (by simp)⟩, ?_⟩
  simp [AskedApart, DeedKind.isWhisper]

theorem quarterHourTicks_rateLimited :
    RateLimited openConfig.backoffBaseSecs ((daemonMachine openConfig).run
      (.init openConfig 1700000000) (quarterHourTicks "ship the docs".toList)).deeds :=
  rateLimited_of_keepApart openConfig 1700000000 (quarterHourTicks "ship the docs".toList)
    quarterHourTicks_keepApart

def repeatedWhisper (note : List Char) : List DaemonEvent :=
  ticksApart (.whisper note) 60 (.whisper note)

theorem repeatedWhisper_deeds (note : List Char) (clock : Int) :
    ((daemonMachine openConfig).run (.init openConfig clock) (repeatedWhisper note)).deeds =
      [⟨1, clock, .whisper (noteSignature note)⟩, ⟨2, clock + 60, .whisper (noteSignature note)⟩] :=
  rfl

theorem whispers_within_a_minute :
    ¬ ∀ config clock events, RateLimited config.backoffBaseSecs
      ((daemonMachine config).run (.init config clock) events).deeds := by
  intro h
  have hapart := (h openConfig 1700000000 (repeatedWhisper "ship the docs".toList)).whispers_apart
  rw [repeatedWhisper_deeds, List.pairwise_pair] at hapart
  have hspaced := hapart _ rfl rfl
  norm_num at hspaced

end Simard.Overseer
