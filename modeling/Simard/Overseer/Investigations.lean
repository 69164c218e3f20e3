import Simard.Library.SipHash
import Simard.Overseer.Ticks

/-! How many recipes run for one investigation. Every running child is registered under the
token of its brief's text, so the registry stops a second one exactly if the texts agree up
to case and white space; the key an Overseer tells investigations apart by does not come in
across ticks. -/
namespace Simard.Overseer
open Simard.Library

/-- What a launch looks into: whatever its key stands for, or a goal it is to triage. -/
inductive Investigation where
  | key (key : List Char)
  | goal (goalId : List Char)

def RecipeChild.investigates (child : RecipeChild) : Investigation → Bool
  | .key key => recipeDedupKey child.brief = key
  | .goal goalId => child.goal = some goalId

namespace RecipeRuns

variable (text : TextOps) (recipes : RecipeRuns)

def running (what : Investigation) : Nat :=
  recipes.children.countP fun child => child.running && child.investigates what

def OneRunning : Prop := ∀ what, recipes.running what ≤ 1

def Registered : Prop :=
  ∀ index child, recipes.children[index]? = some child → child.running = true →
    recipes.runs (text.signatureToken child.brief) = some index

def suppresses (world : SpawnWorld) (brief : RecipeBrief) : Bool :=
  (recipes.runs (text.signatureToken brief)).any fun child => !recipes.exited world child

/-- A launch that finds a process of the same investigation running, and could start one,
also finds a run of its own token. -/
def Recognizes (world : SpawnWorld) (brief : RecipeBrief) (goal : Option (List Char)) : Prop :=
  ∀ what, RecipeChild.investigates ⟨brief, goal, true⟩ what = true → 0 < recipes.running what →
    world.spawns = true → recipes.suppresses text world brief = true

theorem oneRunning_init : init.OneRunning := fun _ => Nat.zero_le 1

theorem registered_init : init.Registered text := nofun

theorem spawn_eq (world : SpawnWorld) (brief : RecipeBrief) (goal : Option (List Char)) :
    (recipes.spawn text world brief goal).2 =
      if recipes.suppresses text world brief then recipes
      else if world.spawns then
        ⟨Function.update recipes.runs (text.signatureToken brief) (some recipes.children.length),
          recipes.children ++ [⟨brief, goal, true⟩]⟩
      else
        { recipes with runs := Function.update recipes.runs (text.signatureToken brief) none } := by
  cases hrun : recipes.runs (text.signatureToken brief) with
  | none =>
    have hnone : Function.update recipes.runs (text.signatureToken brief) none = recipes.runs := by
      rw [← hrun, Function.update_eq_self]
    by_cases hspawns : world.spawns = true
    · simp [spawn, suppresses, hrun, hspawns]
    · simp [spawn, suppresses, hrun, hspawns, hnone]
  | some child =>
    by_cases hexited : recipes.exited world child = true
    · by_cases hspawns : world.spawns = true
      · simp [spawn, suppresses, hrun, hexited, hspawns]
      · simp [spawn, suppresses, hrun, hexited, hspawns]
    · simp [spawn, suppresses, hrun, hexited]

variable {text recipes}

theorem Registered.suppresses (h : recipes.Registered text) {index : Nat} {child : RecipeChild}
    (hchild : recipes.children[index]? = some child) (hrunning : child.running = true)
    (world : SpawnWorld) {brief : RecipeBrief}
    (htoken : text.signatureToken child.brief = text.signatureToken brief) :
    recipes.suppresses text world brief = true := by
  have hrun := h index child hchild hrunning
  rw [htoken] at hrun
  simp [RecipeRuns.suppresses, hrun, exited, hchild, hrunning]

theorem registered_spawn (h : recipes.Registered text) (world : SpawnWorld) (brief : RecipeBrief)
    (goal : Option (List Char)) : (recipes.spawn text world brief goal).2.Registered text := by
  rw [spawn_eq]
  split
  · exact h
  next hfree =>
    have hother {index : Nat} {child : RecipeChild}
        (hchild : recipes.children[index]? = some child) (hrunning : child.running = true) :
        text.signatureToken child.brief ≠ text.signatureToken brief :=
      fun htoken => hfree (h.suppresses hchild hrunning world htoken)
    have hkept {index : Nat} {child : RecipeChild} (run : Option Nat)
        (hchild : recipes.children[index]? = some child) (hrunning : child.running = true) :
        Function.update recipes.runs (text.signatureToken brief) run
          (text.signatureToken child.brief) = some index := by
      rw [Function.update_of_ne (hother hchild hrunning)]
      exact h index child hchild hrunning
    split
    · intro index child hchild hrunning
      rcases Nat.lt_or_ge index recipes.children.length with hlt | hge
      · rw [List.getElem?_append_left hlt] at hchild
        exact hkept _ hchild hrunning
      · rw [List.getElem?_append_right hge, List.getElem?_singleton] at hchild
        split at hchild
        next hindex =>
          obtain rfl := Option.some.inj hchild
          have hlast : index = recipes.children.length := by omega
          rw [hlast]
          exact Function.update_self ..
        · cases hchild
    · intro index child hchild hrunning
      exact hkept none hchild hrunning

theorem running_spawn (world : SpawnWorld) (brief : RecipeBrief) (goal : Option (List Char))
    (what : Investigation) : (recipes.spawn text world brief goal).2.running what =
      recipes.running what +
        if recipes.suppresses text world brief = false ∧ world.spawns = true ∧
          RecipeChild.investigates ⟨brief, goal, true⟩ what = true then 1 else 0 := by
  rw [spawn_eq]
  by_cases hsuppressed : recipes.suppresses text world brief = true
  · simp [hsuppressed]
  · by_cases hspawns : world.spawns = true
    · simp [hsuppressed, hspawns, running, List.countP_append]
    · simp [hsuppressed, hspawns, running]

theorem oneRunning_spawn_iff (h : recipes.OneRunning) (world : SpawnWorld) (brief : RecipeBrief)
    (goal : Option (List Char)) :
    (recipes.spawn text world brief goal).2.OneRunning ↔
      recipes.Recognizes text world brief goal := by
  apply forall_congr'
  intro what
  have hwhat := h what
  rw [running_spawn]
  by_cases hsuppressed : recipes.suppresses text world brief = true
  · simp [hsuppressed, hwhat]
  · by_cases hspawns : world.spawns = true
    · by_cases hsame : RecipeChild.investigates ⟨brief, goal, true⟩ what = true
      · simp [hsuppressed, hspawns, hsame]
      · simp [hsame, hwhat]
    · simp [hspawns, hwhat]

theorem registered_exit (h : recipes.Registered text) (ended : Nat) :
    (recipes.exit ended).Registered text := by
  intro index child hchild hrunning
  rw [exit, List.getElem?_modify] at hchild
  obtain ⟨before, hbefore, hafter⟩ := Option.map_eq_some_iff.mp hchild
  split at hafter
  · subst hafter
    cases hrunning
  · subst hafter
    exact h index before hbefore hrunning

theorem running_exit (ended : Nat) (what : Investigation) :
    (recipes.exit ended).running what ≤ recipes.running what := by
  obtain ⟨runs, children⟩ := recipes
  change (children.modify ended _).countP _ ≤ children.countP _
  induction children generalizing ended with
  | nil => simp
  | cons child children ih =>
    cases ended with
    | zero =>
      rw [List.modify_zero_cons, List.countP_cons, List.countP_cons]
      simp
    | succ ended =>
      rw [List.modify_succ_cons, List.countP_cons, List.countP_cons]
      exact Nat.add_le_add_right (ih ended) _

theorem OneRunning.exit (h : recipes.OneRunning) (ended : Nat) :
    (recipes.exit ended).OneRunning :=
  fun what => (running_exit ended what).trans (h what)

end RecipeRuns

/-- The launch an intervention comes to when it is acted on: its brief, and the goal it is to
triage. -/
def OverseerConfig.launchOf (config : OverseerConfig) (overseer : ActingOverseer) :
    Intervention → Option (RecipeBrief × Option (List Char))
  | .launchRecipe brief =>
      if brief.sequenceGroup = some workstreamCoverageGroup ∧ config.identityConfigured = false then
        none
      else some (brief, none)
  | .escalateBlockedGoal goalId reason why problem nextStep =>
      let brief := escalationBrief goalId reason why problem nextStep
      if config.identityConfigured = false ∨
          (overseer.inflightInvestigations (recipeDedupKey brief)).isSome then none
      else some (brief, some goalId)
  | .reworkPr repo pr concernPath =>
      if config.identityConfigured = false then none
      else some (reworkBrief repo pr concernPath, none)
  | _ => none

namespace Daemon

variable (config : OverseerConfig) (daemon : Daemon)

theorem launch_recipes (world : ActWorld) (brief : RecipeBrief) (goal : Option (List Char)) :
    (daemon.launch config world brief goal).2.recipes =
      (daemon.recipes.spawn config.text world.spawn brief goal).2 := by
  unfold launch
  split <;> next heq => rw [heq]

theorem actWhisper_recipes (world : ActWorld) (note : List Char) :
    (daemon.actWhisper config world note).recipes = daemon.recipes := by
  unfold actWhisper
  split
  · rfl
  · split
    · split <;> rfl
    · rfl

theorem actUnblockGoal_recipes (world : ActWorld) (goalId : List Char) :
    (daemon.actUnblockGoal config world goalId).recipes = daemon.recipes := by
  unfold actUnblockGoal
  split
  · rfl
  · split
    · split
      · dsimp only
        split
        · rw [actWhisper_recipes]
          rfl
        · rfl
      · rfl
    · rfl

theorem actLaunchRecipe_recipes (world : ActWorld) (brief : RecipeBrief) :
    (daemon.actLaunchRecipe config world brief).recipes =
      if brief.sequenceGroup = some workstreamCoverageGroup ∧ config.identityConfigured = false then
        daemon.recipes
      else (daemon.recipes.spawn config.text world.spawn brief none).2 := by
  have hlaunch := daemon.launch_recipes config world brief none
  unfold actLaunchRecipe
  by_cases hcoverage : brief.sequenceGroup = some workstreamCoverageGroup
  · cases hidentity : config.identityConfigured with
    | false => simp [hcoverage]
    | true =>
      simp only [hcoverage, Bool.not_true, Bool.false_eq_true, if_false, if_true]
      split
      next heq => simpa [heq] using hlaunch
      next heq =>
        rw [heq] at hlaunch
        split
        · simpa using hlaunch
        · simpa [does] using hlaunch
  · simp [hcoverage, hlaunch]

theorem act_recipes (world : ActWorld) (iv : Intervention) :
    (daemon.act config world iv).recipes =
      match config.launchOf daemon.overseer iv with
      | none => daemon.recipes
      | some (brief, goal) => (daemon.recipes.spawn config.text world.spawn brief goal).2 := by
  cases iv with
  | launchRecipe brief =>
    rw [act, actLaunchRecipe_recipes, OverseerConfig.launchOf]
    split <;> rfl
  | whisper note => exact daemon.actWhisper_recipes config world note
  | unblockGoal goalId reason => exact daemon.actUnblockGoal_recipes config world goalId
  | escalateBlockedGoal goalId reason why problem nextStep =>
    rw [act, actEscalateBlockedGoal, OverseerConfig.launchOf]
    cases hidentity : config.identityConfigured with
    | false => simp
    | true =>
      by_cases hinflight : (daemon.overseer.inflightInvestigations
          (recipeDedupKey (escalationBrief goalId reason why problem nextStep))).isSome = true
      · simp [hinflight]
      · simp [hinflight, launch_recipes]
  | reworkPr repo pr concernPath =>
    rw [act, actReworkPr, OverseerConfig.launchOf]
    cases hidentity : config.identityConfigured with
    | false => simp
    | true => simp [launch_recipes]
  | flagWorkstreamGaps => rfl
  | other risk costBearing => rfl

theorem observeMergeQueue_recipes : (daemon.observeMergeQueue config).recipes = daemon.recipes := by
  unfold observeMergeQueue
  dsimp only
  split
  · rfl
  · split
    · rfl
    · split
      · rfl
      · split
        · rfl
        · split
          · rfl
          · split
            · split <;> rfl
            · rfl

def nextLaunch : Option (RecipeBrief × Option (List Char)) :=
  daemon.plan.head?.bind (config.launchOf daemon.overseer)

theorem step_recipes (event : DaemonEvent) :
    (daemon.step config event).recipes =
      match event with
      | .childExits child => daemon.recipes.exit child
      | .act world =>
          match daemon.nextLaunch config with
          | none => daemon.recipes
          | some (brief, goal) => (daemon.recipes.spawn config.text world.spawn brief goal).2
      | _ => daemon.recipes := by
  cases event with
  | setReasoning disabled =>
    cases disabled with
    | false => rfl
    | true => rfl
  | observeMergeQueue => exact daemon.observeMergeQueue_recipes config
  | act world =>
    cases hplan : daemon.plan with
    | nil => simp [step, nextLaunch, hplan]
    | cons iv rest =>
      simp only [step, nextLaunch, hplan, List.head?_cons, Option.bind_some]
      exact act_recipes config _ world iv
  | _ => rfl

def Recognizes : DaemonEvent → Prop
  | .act world => ∀ launched ∈ daemon.nextLaunch config,
      daemon.recipes.Recognizes config.text world.spawn launched.1 launched.2
  | _ => True

variable {config daemon}

theorem registered_step (h : daemon.recipes.Registered config.text) (event : DaemonEvent) :
    (daemon.step config event).recipes.Registered config.text := by
  rw [step_recipes]
  cases event with
  | childExits child => exact RecipeRuns.registered_exit h child
  | act world =>
    cases hnext : daemon.nextLaunch config with
    | none => exact h
    | some launched => exact RecipeRuns.registered_spawn h world.spawn launched.1 launched.2
  | _ => exact h

theorem oneRunning_step_iff (h : daemon.recipes.OneRunning) (event : DaemonEvent) :
    (daemon.step config event).recipes.OneRunning ↔ daemon.Recognizes config event := by
  rw [step_recipes]
  cases event with
  | childExits child => exact iff_of_true (h.exit child) trivial
  | act world =>
    simp only [Recognizes]
    cases hnext : daemon.nextLaunch config with
    | none => simpa using h
    | some launched =>
      simpa using RecipeRuns.oneRunning_spawn_iff h world.spawn launched.1 launched.2
  | _ => exact iff_of_true h trivial

end Daemon

theorem one_running_per_token (config : OverseerConfig) (clock : Int) (events : List DaemonEvent)
    {i j : Nat} {a b : RecipeChild} (recipes : RecipeRuns)
    (hrecipes : ((daemonMachine config).run (.init config clock) events).recipes = recipes)
    (ha : recipes.children[i]? = some a) (hb : recipes.children[j]? = some b)
    (hruns : a.running = true ∧ b.running = true)
    (htoken : config.text.signatureToken a.brief = config.text.signatureToken b.brief) : i = j := by
  have hregistered : recipes.Registered config.text := by
    rw [← hrecipes]
    exact (daemonMachine config).invariant_run
      (P := fun daemon => daemon.recipes.Registered config.text)
      (fun _ event h => Daemon.registered_step h event)
      (RecipeRuns.registered_init config.text) events
  have hi := hregistered i a ha hruns.1
  have hj := hregistered j b hb hruns.2
  rw [htoken, hj] at hi
  exact (Option.some.inj hi).symm

/-- At most one recipe runs for an investigation throughout, exactly if every launch that
finds one running is recognized by the text of its brief. -/
theorem one_recipe_per_investigation_iff (config : OverseerConfig) (clock : Int)
    (events : List DaemonEvent) :
    (∀ t ∈ (daemonMachine config).trace (.init config clock) events,
      t.after.recipes.OneRunning) ↔
    ∀ t ∈ (daemonMachine config).trace (.init config clock) events,
      t.before.Recognizes config t.event :=
  (daemonMachine config).throughout_iff (P := fun daemon => daemon.recipes.OneRunning)
    (fun _ event h => Daemon.oneRunning_step_iff h event) RecipeRuns.oneRunning_init events

def openConfig : OverseerConfig where
  text := ⟨List.map Char.toLower, SipHash.defaultHash⟩
  identityConfigured := true
  whisperEnabled := true
  whisperSink := true
  notifier := true
  notifyDedupSecs := 3600
  hashOrder := .asEntered
  goalHealthEnabled := true
  mergeQueueReasoner := true
  mergeQueueEveryN := 1
  autonomy := ⟨false, false⟩
  dailyBudgetUsd := 0
  backoffBaseSecs := 1800
  backoffMultiplier := 2
  backoffMaxSecs := 14400

def willing : ActWorld := ⟨true, true, ⟨fun _ => false, true⟩, 0⟩

def tickOf (iv : Intervention) : List DaemonEvent := [.begin true, .gate iv none, .act willing]

def ticksApart (first : Intervention) (secs : Nat) (second : Intervention) : List DaemonEvent :=
  tickOf first ++ .wait secs :: tickOf second

theorem tickOf_escalation_recipes (daemon : Daemon)
    (goalId reason why problem nextStep : List Char) :
    ((daemonMachine openConfig).run daemon
        (tickOf (.escalateBlockedGoal goalId reason why problem nextStep))).recipes =
      (daemon.recipes.spawn openConfig.text willing.spawn
        (escalationBrief goalId reason why problem nextStep) (some goalId)).2 :=
  Daemon.launch_recipes openConfig _ willing _ _

theorem tickOf_launch_recipes (daemon : Daemon) (brief : RecipeBrief)
    (hgroup : brief.sequenceGroup = none) :
    ((daemonMachine openConfig).run daemon (tickOf (.launchRecipe brief))).recipes =
      (daemon.recipes.spawn openConfig.text willing.spawn brief none).2 := by
  obtain ⟨description, repo, group⟩ := brief
  subst hgroup
  exact Daemon.launch_recipes openConfig _ willing _ none

theorem children_ticksApart {first second : Intervention} {a b : RecipeBrief}
    {goal goal' : Option (List Char)}
    (hfirst : ∀ daemon, ((daemonMachine openConfig).run daemon (tickOf first)).recipes =
      (daemon.recipes.spawn openConfig.text willing.spawn a goal).2)
    (hsecond : ∀ daemon, ((daemonMachine openConfig).run daemon (tickOf second)).recipes =
      (daemon.recipes.spawn openConfig.text willing.spawn b goal').2)
    (htoken : openConfig.text.signatureToken a ≠ openConfig.text.signatureToken b)
    (clock : Int) (secs : Nat) :
    ((daemonMachine openConfig).run (.init openConfig clock)
      (ticksApart first secs second)).recipes.children =
      [⟨a, goal, true⟩, ⟨b, goal', true⟩] := by
  have hwait (daemon : Daemon) :
      ((daemonMachine openConfig).step daemon (.wait secs)).recipes = daemon.recipes := rfl
  rw [ticksApart, Machine.run_append, Machine.run_cons, hsecond, hwait, hfirst]
  simp [RecipeRuns.spawn_eq, RecipeRuns.suppresses, RecipeRuns.init, Daemon.init, willing,
    Function.update_of_ne htoken.symm]

def escalation (problem nextStep : String) : Intervention :=
  .escalateBlockedGoal "ship-docs".toList "blocked".toList "no progress".toList problem.toList
    nextStep.toList

def escalatedTwice : List DaemonEvent :=
  ticksApart (escalation "The docs do not build." "Fix the build.") 900
    (escalation "The docs build fails." "Repair the build.")

theorem escalatedTwice_running :
    ((daemonMachine openConfig).run (.init openConfig 1700000000) escalatedTwice).recipes.running
      (.goal "ship-docs".toList) = 2 := by
  have hchildren := children_ticksApart
    (fun daemon => tickOf_escalation_recipes daemon "ship-docs".toList "blocked".toList
      "no progress".toList "The docs do not build.".toList "Fix the build.".toList)
    (fun daemon => tickOf_escalation_recipes daemon "ship-docs".toList "blocked".toList
      "no progress".toList "The docs build fails.".toList "Repair the build.".toList)
    (by
      unfold escalationBrief
      -- with its characters spelled out a text is fast to compute with
      repeat rw [String.toList_ofList]
      decide +kernel) 1700000000 900
  rw [RecipeRuns.running, escalatedTwice, escalation, escalation, hchildren]
  rfl

def quietEngineer (idleAgeSecs : Nat) (evidenceDir : String) : RecipeBrief :=
  investigationBrief "rysweet/Simard".toList "rysweet/Simard:ship-docs".toList "ship-docs".toList
    idleAgeSecs evidenceDir.toList

def quietAtFirst : RecipeBrief :=
  quietEngineer 2000 "/srv/simard/reaped-engineers/rysweet_Simard_ship-docs-1700000000"

/-- The evidence of an hour before is no longer fresh and was archived anew. -/
def quietStill : RecipeBrief :=
  quietEngineer 5700 "/srv/simard/reaped-engineers/rysweet_Simard_ship-docs-1700003700"

def quietTwice : List DaemonEvent :=
  ticksApart (.launchRecipe quietAtFirst) 3700 (.launchRecipe quietStill)

theorem quietTwice_running :
    ((daemonMachine openConfig).run (.init openConfig 1700000000) quietTwice).recipes.running
      (.key "stale-investigation:rysweet_Simard_ship-docs".toList) = 2 := by
  have hchildren := children_ticksApart
    (fun daemon => tickOf_launch_recipes daemon quietAtFirst rfl)
    (fun daemon => tickOf_launch_recipes daemon quietStill rfl)
    (by
      unfold quietAtFirst quietStill quietEngineer investigationBrief
      repeat rw [String.toList_ofList]
      decide +kernel) 1700000000 3700
  rw [RecipeRuns.running, quietTwice, hchildren]
  unfold quietAtFirst quietStill quietEngineer investigationBrief
  repeat rw [String.toList_ofList]
  decide +kernel

/-- A goal is triaged by two recipes at once, and so is a quiet engineer looked into. -/
theorem investigations_run_twice :
    ¬ (∀ config clock events, ∀ t ∈ (daemonMachine config).trace (.init config clock) events,
      ∀ goalId, t.after.recipes.running (.goal goalId) ≤ 1) ∧
    ¬ (∀ config clock events, ∀ t ∈ (daemonMachine config).trace (.init config clock) events,
      ∀ key, t.after.recipes.running (.key key) ≤ 1) := by
  constructor
  · intro h
    have hone := (daemonMachine openConfig).run_of_trace
      (P := fun daemon => ∀ goalId, daemon.recipes.running (.goal goalId) ≤ 1)
      (fun goalId => RecipeRuns.oneRunning_init (.goal goalId))
      (h openConfig 1700000000 escalatedTwice) "ship-docs".toList
    rw [escalatedTwice_running] at hone
    omega
  · intro h
    have hone := (daemonMachine openConfig).run_of_trace
      (P := fun daemon => ∀ key, daemon.recipes.running (.key key) ≤ 1)
      (fun key => RecipeRuns.oneRunning_init (.key key))
      (h openConfig 1700000000 quietTwice) "stale-investigation:rysweet_Simard_ship-docs".toList
    rw [quietTwice_running] at hone
    omega

end Simard.Overseer
