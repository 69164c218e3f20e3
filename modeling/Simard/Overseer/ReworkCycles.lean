import Simard.Library.History
import Simard.Overseer.Rework
import Simard.Overseer.Ticks

/-! The rework pass of a cycle. The candidates are polled one after another, and what the polls
ask for is gated afterwards; the attempt is counted by the poll, whether or not the gate then
lets the rework through. -/
namespace Simard.Overseer
open Simard.Library

structure ReworkCandidate where
  repo : String
  pr : Nat
  prAuthor : String
  runToken : String

/-- What is set for all cycles. -/
structure ReworkSetup where
  enabled : Bool
  portWired : Bool
  stateRoot : Option (List Char)
  maxAttempts : Nat
  overseerLogin : String

/-- A cycle when its rework pass begins: the Overseer, its launches so far and what was spent,
and the candidates with how their files can be read and written. -/
structure ReworkCycle where
  overseer : ActingOverseer
  launches : Nat
  spentTodayUsd : Option ℚ
  now : Int
  candidates : List (ReworkCandidate × ReworkFaults)

/-- A poll of the pass, and whether it raised the attempt counter. -/
structure Collected where
  entry : PollEntry
  raised : Bool

def ReworkDisk.counterOf (disk : ReworkDisk) (repo : String) (pr : Nat) : Nat :=
  match (disk.files repo pr).attempts with
  | some (.ok state) => state.attempts
  | _ => 0

def reworkCall (login : String) (candidate : ReworkCandidate × ReworkFaults) : ReworkCall :=
  ⟨candidate.1.repo, candidate.1.pr, candidate.1.prAuthor, candidate.1.runToken, some login,
    candidate.2⟩

def collectReworks (maxAttempts : Nat) : ReworkDisk → List ReworkCall → List Collected × ReworkDisk
  | disk, [] => ([], disk)
  | disk, call :: calls =>
      let (outcome, polled) := disk.pollRework maxAttempts call
      let (rest, last) := collectReworks maxAttempts polled calls
      (⟨⟨call, outcome, polled.concernOf call.repo call.pr⟩,
        disk.counterOf call.repo call.pr < polled.counterOf call.repo call.pr⟩ :: rest, last)

def pathText (stateRoot : List Char) (path : StatePath) : List Char :=
  stateRoot ++ path.flatMap ('/' :: ·)

def PollEntry.intervention (stateRoot : List Char) (entry : PollEntry) : Option Intervention :=
  match entry.outcome with
  | .rework path => some (.reworkPr entry.call.repo.toList entry.call.pr (pathText stateRoot path))
  | .escalate _ => some (.other .highRisk false)
  | .skip _ => none

/-- A poll with what the gate said of it. -/
structure Gated where
  collected : Collected
  admitted : Bool

def OverseerConfig.gateReworks (config : OverseerConfig) (stateRoot : List Char)
    (spentTodayUsd : Option ℚ) (now : Int) : ActingOverseer → Nat → List Collected → List Gated
  | _, _, [] => []
  | overseer, launches, collected :: rest =>
      match collected.entry.intervention stateRoot with
      | none =>
          ⟨collected, false⟩ :: config.gateReworks stateRoot spentTodayUsd now
            overseer launches rest
      | some iv =>
          let (admitted, overseer', launches') := config.gate overseer iv spentTodayUsd launches now
          ⟨collected, admitted⟩ ::
            config.gateReworks stateRoot spentTodayUsd now overseer' launches' rest

def OverseerConfig.roomFor (config : OverseerConfig) (spentTodayUsd : Option ℚ) (launches : Nat) :
    Bool :=
  launches < maxLaunchesPerCycle &&
    !spentTodayUsd.any fun spent => !budgetAdmits config.dailyBudgetUsd spent

/-- A poll as the history of all cycles has it: the cycle, the verdict file it saw, and whether
the cycle had room for a launch. -/
structure CycleEntry where
  gated : Gated
  cycle : Nat
  verdict : Option (Except String MergeVerdictRecord)
  free : Bool

structure CycleRun where
  disk : ReworkDisk
  log : List CycleEntry
  cycles : Nat

def CycleRun.init : CycleRun := ⟨.empty, [], 0⟩

inductive CycleEvent where
  | write (rec : MergeVerdictRecord) (fault : Option String)
  | delete (repo : String) (pr : Nat) (fault : Option String)
  | cycle (cycle : ReworkCycle)

def ReworkSetup.root? (setup : ReworkSetup) : Option (List Char) :=
  if setup.enabled && setup.portWired then setup.stateRoot else none

def ReworkSetup.calls (setup : ReworkSetup) (cycle : ReworkCycle) : List ReworkCall :=
  cycle.candidates.map (reworkCall setup.overseerLogin)

def OverseerConfig.observeReworkCandidates (config : OverseerConfig) (setup : ReworkSetup)
    (s : CycleRun) (cycle : ReworkCycle) : CycleRun :=
  match setup.root? with
  | none => { s with cycles := s.cycles + 1 }
  | some root =>
      let (collected, disk) := collectReworks setup.maxAttempts s.disk (setup.calls cycle)
      let gated := config.gateReworks root cycle.spentTodayUsd cycle.now cycle.overseer
        cycle.launches collected
      let entries := gated.map fun gated => CycleEntry.mk gated s.cycles
        (s.disk.files gated.collected.entry.call.repo gated.collected.entry.call.pr).verdict
        (config.roomFor cycle.spentTodayUsd cycle.launches)
      ⟨disk, s.log ++ entries, s.cycles + 1⟩

def CycleRun.step (config : OverseerConfig) (setup : ReworkSetup) (s : CycleRun) :
    CycleEvent → CycleRun
  | .write rec fault => { s with disk := s.disk.writeRecord rec fault }
  | .delete repo pr fault => { s with disk := s.disk.deleteRecord repo pr fault }
  | .cycle cycle => config.observeReworkCandidates setup s cycle

def cycleMachine (config : OverseerConfig) (setup : ReworkSetup) : Machine CycleRun CycleEvent :=
  ⟨CycleRun.step config setup⟩

namespace CycleEntry

def entry (e : CycleEntry) : PollEntry := e.gated.collected.entry

/-- A later cycle with room for a launch that sees the same verdict. -/
def SeenAgain (e later : CycleEntry) : Prop :=
  e.cycle < later.cycle ∧ later.entry.subject = e.entry.subject ∧ later.verdict = e.verdict ∧
    later.free = true

def Launched (log : List CycleEntry) (e : CycleEntry) : Prop :=
  e.gated.collected.raised = true → e.gated.admitted = true ∨
    ((∃ later ∈ log, e.SeenAgain later) →
      ∃ later ∈ log, e.SeenAgain later ∧ later.entry.outcome.isRework = true)

/-- The pull request was given up for its number of attempts. -/
def CapReached (maxAttempts : Nat) (e : PollEntry) : Prop :=
  ∃ concern, e.outcome = .escalate (escalateReason e.call.repo e.call.pr concern
    ("rework attempt cap (" ++ toString maxAttempts ++ ") reached"))

def GivenUp (maxAttempts : Nat) (before : List CycleEntry) (e : CycleEntry) : Prop :=
  CapReached maxAttempts e.entry → maxAttempts ≤ (before.filter fun b =>
    b.entry.subject = e.entry.subject && b.entry.outcome.isRework && b.gated.admitted).length

end CycleEntry

structure CyclePromise (maxAttempts : Nat) (log : List CycleEntry) : Prop where
  launched : ∀ e ∈ log, e.Launched log
  givenUp : Kept (CycleEntry.GivenUp maxAttempts) log

/-- The verdict asks for a rework that was not dispatched last, of another's pull request, and
there are attempts left. -/
def ReworkDisk.due (disk : ReworkDisk) (maxAttempts : Nat) (call : ReworkCall) : Bool :=
  match reworkConcern (disk.readVerified call.repo call.pr call.runToken call.faults.verdictRead),
    foreignAuthor call.prAuthor call.overseerAuthorLogin,
    disk.readAttemptState call.repo call.pr call.faults.attemptsRead with
  | .ok concern, .ok (), .ok state =>
      state.bind AttemptState.lastDispatchKey ≠ some (dispatchKey call.runToken concern) &&
        (state.map AttemptState.attempts).getD 0 < maxAttempts &&
        (ReworkDisk.writeTarget (concernFilePath call.repo call.pr)
          call.faults.concernWrite).isOk &&
        (ReworkDisk.writeTarget (attemptStatePath call.repo call.pr)
          call.faults.attemptsWrite).isOk
  | _, _, _ => false

/-- Whenever a candidate is due, the launches of the cycle so far leave room for it. -/
def OverseerConfig.Fits (config : OverseerConfig) (maxAttempts : Nat) (spentTodayUsd : Option ℚ) :
    ReworkDisk → Nat → List ReworkCall → Prop
  | _, _, [] => True
  | disk, launches, call :: calls =>
      (disk.due maxAttempts call = true → config.roomFor spentTodayUsd launches = true) ∧
        config.Fits maxAttempts spentTodayUsd (disk.pollRework maxAttempts call).2
          (if disk.due maxAttempts call then launches + 1 else launches) calls

theorem isRework_pollRework (disk : ReworkDisk) (maxAttempts : Nat) (call : ReworkCall) :
    (disk.pollRework maxAttempts call).1.isRework = disk.due maxAttempts call := by
  unfold ReworkDisk.pollRework ReworkDisk.due
  cases reworkConcern
    (disk.readVerified call.repo call.pr call.runToken call.faults.verdictRead) with
  | error reason => rfl
  | ok concern =>
    cases foreignAuthor call.prAuthor call.overseerAuthorLogin with
    | error reason => rfl
    | ok =>
      cases disk.readAttemptState call.repo call.pr call.faults.attemptsRead with
      | error reason => rfl
      | ok state =>
        dsimp only
        split
        next hkey => simp [hkey, ReworkOutcome.isRework]
        next hfresh =>
        split
        next hcap => simp [hfresh, hcap, ReworkOutcome.isRework]
        next hroom =>
        rw [ReworkDisk.writeConcernFile_eq]
        cases ReworkDisk.writeTarget (concernFilePath call.repo call.pr)
            call.faults.concernWrite with
        | error reason => simp [Except.map, ReworkOutcome.isRework, Except.isOk, Except.toBool]
        | ok path =>
          dsimp only [Except.map]
          rw [ReworkDisk.writeAttemptState_eq]
          cases ReworkDisk.writeTarget (attemptStatePath call.repo call.pr)
              call.faults.attemptsWrite with
          | error reason => simp [Except.map, ReworkOutcome.isRework, Except.isOk, Except.toBool]
          | ok statePath =>
            simp [Except.map, ReworkOutcome.isRework, Except.isOk, Except.toBool, hfresh,
              Nat.lt_of_not_le hroom]

theorem isRework_of_raised {disk : ReworkDisk} {maxAttempts : Nat} {call : ReworkCall}
    (h : disk.counterOf call.repo call.pr <
      (disk.pollRework maxAttempts call).2.counterOf call.repo call.pr) :
    (disk.pollRework maxAttempts call).1.isRework = true := by
  have hcases := disk.pollRework_cases maxAttempts call
  generalize disk.pollRework maxAttempts call = result at hcases h ⊢
  cases hcases with
  | idle => exact absurd h (lt_irrefl _)
  | stopped => exact absurd h (lt_irrefl _)
  | reworked => rfl

section Gate

variable (config : OverseerConfig) (overseer : ActingOverseer) (spentTodayUsd : Option ℚ)
  (launches : Nat) (now : Int)

theorem gate_reworkPr (repo : List Char) (pr : Nat) (path : List Char) :
    config.gate overseer (.reworkPr repo pr path) spentTodayUsd launches now =
      if config.roomFor spentTodayUsd launches then (true, overseer, launches + 1)
      else (false, overseer, launches) := by
  have hheld : ((config.heldBy overseer (.reworkPr repo pr path) now).isSome ||
      !config.autonomy.admits (.reworkPr repo pr path)) = false := rfl
  unfold OverseerConfig.gate
  rw [hheld]
  by_cases hlaunches : launches < maxLaunchesPerCycle
  · cases hspent : spentTodayUsd.any fun spent => !budgetAdmits config.dailyBudgetUsd spent with
    | false =>
      simp [OverseerConfig.roomFor, Intervention.isCostBearing, hlaunches, hspent,
        ConflictSequencer.admits, OverseerConfig.sequenceGroupOf]
    | true => simp [OverseerConfig.roomFor, Intervention.isCostBearing, hspent]
  · simp [OverseerConfig.roomFor, Intervention.isCostBearing, hlaunches, Nat.le_of_not_lt hlaunches]

theorem gate_escalation : (config.gate overseer (.other .highRisk false) spentTodayUsd launches
    now).2 = (overseer, launches) := by
  unfold OverseerConfig.gate
  split
  · rfl
  · rfl

variable {config overseer spentTodayUsd launches now}

theorem collected_gateReworks (root : List Char) (collected : List Collected) :
    (config.gateReworks root spentTodayUsd now overseer launches collected).map Gated.collected =
      collected := by
  induction collected generalizing overseer launches with
  | nil => rfl
  | cons first rest ih =>
    unfold OverseerConfig.gateReworks
    split
    · rw [List.map_cons, ih]
    · rw [List.map_cons, ih]

theorem admitted_of_fits {maxAttempts : Nat} {disk : ReworkDisk} {calls : List ReworkCall}
    (hfits : config.Fits maxAttempts spentTodayUsd disk launches calls) (root : List Char) :
    ∀ gated ∈ config.gateReworks root spentTodayUsd now overseer launches
        (collectReworks maxAttempts disk calls).1,
      gated.collected.entry.outcome.isRework = true → gated.admitted = true := by
  induction calls generalizing disk overseer launches with
  | nil => exact List.forall_mem_nil _
  | cons call calls ih =>
    obtain ⟨hroom, hrest⟩ := hfits
    have hdue := isRework_pollRework disk maxAttempts call
    simp only [collectReworks]
    generalize disk.pollRework maxAttempts call = result at hdue hrest ⊢
    obtain ⟨outcome, polled⟩ := result
    rw [← hdue] at hroom hrest
    cases outcome with
    | rework path =>
      have hgate :=
        gate_reworkPr config overseer spentTodayUsd launches now call.repo.toList call.pr
        (pathText root path)
      rw [if_pos (hroom rfl)] at hgate
      simp only [OverseerConfig.gateReworks, PollEntry.intervention, hgate, List.forall_mem_cons]
      exact ⟨fun _ => trivial, ih hrest⟩
    | escalate reason =>
      have hgate := gate_escalation config overseer spentTodayUsd launches now
      simp only [OverseerConfig.gateReworks, PollEntry.intervention, List.forall_mem_cons, hgate]
      exact ⟨nofun, ih hrest⟩
    | skip reason =>
      simp only [OverseerConfig.gateReworks, PollEntry.intervention, List.forall_mem_cons]
      exact ⟨nofun, ih hrest⟩

end Gate

/-- The attempt file of a pull request counts its reworks. -/
def Tallied (s : ReworkRun) (repo : String) (pr : Nat) : Prop :=
  match (s.disk.files repo pr).attempts with
  | none => (reworksOf (repo, pr) s.log).length = 0
  | some (.error _) => False
  | some (.ok state) => (reworksOf (repo, pr) s.log).length = state.attempts

theorem Tallied.read {s : ReworkRun} {repo : String} {pr : Nat} (h : Tallied s repo pr)
    {fault : Option String} {state : Option AttemptState}
    (hread : s.disk.readAttemptState repo pr fault = .ok state) :
    (reworksOf (repo, pr) s.log).length = (state.map AttemptState.attempts).getD 0 := by
  unfold Tallied at h
  split at h
  next hnone =>
    unfold ReworkDisk.readAttemptState at hread
    split at hread
    · cases hread
    next path hpath =>
      simp only [ReworkDisk.files, fileAt, hpath, Except.toOption, Option.bind_some] at hnone
      rw [hnone] at hread
      cases fault with
      | some reason => cases hread
      | none =>
        obtain rfl := Except.ok.inj hread
        exact h
  · exact h.elim
  next found hfile =>
    rw [ReworkDisk.readAttemptState_of_file hread hfile]
    exact h

theorem Tallied.advanced {maxAttempts : Nat} {s s' : ReworkRun} {repo : String} {pr : Nat}
    (h : Tallied s repo pr) (hstep : Advanced maxAttempts repo pr s s') : Tallied s' repo pr := by
  cases hstep with
  | same hlog hattempts =>
    unfold Tallied
    rw [hlog, hattempts]
    exact h
  | rework hlog hconcern hstate hfresh hroom hattempts =>
    unfold Tallied
    rw [hlog, hattempts, List.length_append, List.length_singleton, h.read hstate]

theorem escalateReason_inj {repo : String} {pr : Nat} {concern concern' : List Char}
    {why why' : String}
    (h : escalateReason repo pr concern why = escalateReason repo pr concern' why') :
    why.toList ++ (". Outstanding concern: ".toList ++ concern) =
      why'.toList ++ (". Outstanding concern: ".toList ++ concern') := by
  have hlist := congrArg String.toList h
  unfold escalateReason at hlist
  simp only [String.toList_append, List.append_assoc, String.toList_ofList] at hlist
  exact List.append_cancel_left (List.append_cancel_left (List.append_cancel_left
    (List.append_cancel_left (List.append_cancel_left hlist))))

theorem escalateReason_corrupt_ne (repo : String) (pr : Nat) (concern concern' : List Char)
    (reason attempts : String) :
    escalateReason repo pr concern ("corrupt rework attempt state (" ++ reason ++ ")") ≠
      escalateReason repo pr concern' ("rework attempt cap (" ++ attempts ++ ") reached") := by
  intro h
  have hcorrupt : "corrupt rework attempt state (".toList.head? = some 'c' := by decide
  have hcap : "rework attempt cap (".toList.head? = some 'r' := by decide
  have hhead := congrArg List.head? (escalateReason_inj h)
  simp only [String.toList_append, List.append_assoc] at hhead
  rw [List.head?_append, hcorrupt, Option.some_or, List.head?_append, hcap, Option.some_or] at hhead
  cases hhead

theorem attempts_of_capReached {disk : ReworkDisk} {maxAttempts : Nat} {call : ReworkCall}
    {file : Option (List Char)}
    (h : CycleEntry.CapReached maxAttempts ⟨call, (disk.pollRework maxAttempts call).1, file⟩) :
    ∃ state, disk.readAttemptState call.repo call.pr call.faults.attemptsRead = .ok state ∧
      maxAttempts ≤ (state.map AttemptState.attempts).getD 0 := by
  obtain ⟨concern, houtcome⟩ := h
  dsimp only at houtcome
  unfold ReworkDisk.pollRework at houtcome
  split at houtcome
  · cases houtcome
  split at houtcome
  · cases houtcome
  split at houtcome
  · exact absurd (ReworkOutcome.escalate.inj houtcome) (escalateReason_corrupt_ne _ _ _ _ _ _)
  next state hstate =>
    dsimp only at houtcome
    split at houtcome
    · cases houtcome
    split at houtcome
    next hcap => exact ⟨state, hstate, hcap⟩
    · split at houtcome
      · cases houtcome
      · split at houtcome <;> cases houtcome

section Runs

variable {maxAttempts : Nat} {repos : Set String}

/-- A pull request is given up after as many reworks. -/
def CapLaw (maxAttempts : Nat) (before : List PollEntry) (entry : PollEntry) : Prop :=
  CycleEntry.CapReached maxAttempts entry →
    maxAttempts ≤ (reworksOf entry.subject before).length

structure TalliedRun (maxAttempts : Nat) (repos : Set String) (s : ReworkRun) : Prop where
  tallied : ∀ repo ∈ repos, ∀ pr, Tallied s repo pr
  cap : Kept (CapLaw maxAttempts) s.log

theorem talliedRun_start : TalliedRun maxAttempts repos ⟨.empty, []⟩ := by
  refine ⟨?_, Kept.nil⟩
  intro repo _ pr
  have hnone : (ReworkDisk.empty.files repo pr).attempts = none := by
    unfold ReworkDisk.files fileAt ReworkDisk.empty
    cases attemptStatePath repo pr <;> rfl
  unfold Tallied
  rw [hnone]
  rfl

theorem TalliedRun.step (hinj : Set.InjOn repoDir repos) {s : ReworkRun}
    (h : TalliedRun maxAttempts repos s) {e : ReworkEvent} (he : e.subject.1 ∈ repos) :
    TalliedRun maxAttempts repos (s.step maxAttempts e) := by
  refine ⟨?_, ?_⟩
  · intro repo hrepo pr
    refine (h.tallied repo hrepo pr).advanced (advanced_step s ?_)
    rw [Apart, or_iff_not_imp_right, not_not]
    intro hshared
    exact Prod.ext (hinj he hrepo hshared.1.symm) hshared.2.symm
  · cases e with
    | poll call =>
      simp only [ReworkRun.step, Kept.concat_iff]
      refine ⟨h.cap, ?_⟩
      intro hcap
      obtain ⟨state, hstate, hle⟩ := attempts_of_capReached hcap
      exact hle.trans (h.tallied call.repo he call.pr |>.read hstate).ge
    | write rec fault => exact h.cap
    | delete repo pr fault => exact h.cap

theorem collectReworks_run (disk : ReworkDisk) (log : List PollEntry) (calls : List ReworkCall) :
    (reworkMachine maxAttempts).run ⟨disk, log⟩ (calls.map .poll) =
      ⟨(collectReworks maxAttempts disk calls).2,
        log ++ (collectReworks maxAttempts disk calls).1.map Collected.entry⟩ := by
  induction calls generalizing disk log with
  | nil => simp [collectReworks]
  | cons call calls ih =>
    rw [List.map_cons, Machine.run_cons]
    simp only [reworkMachine, ReworkRun.step] at ih ⊢
    rw [ih]
    simp [collectReworks]

theorem TalliedRun.collect (hinj : Set.InjOn repoDir repos) {disk : ReworkDisk}
    {log : List PollEntry} (h : TalliedRun maxAttempts repos ⟨disk, log⟩) {calls : List ReworkCall}
    (hcalls : ∀ call ∈ calls, call.repo ∈ repos) :
    TalliedRun maxAttempts repos ⟨(collectReworks maxAttempts disk calls).2,
      log ++ (collectReworks maxAttempts disk calls).1.map Collected.entry⟩ := by
  rw [← collectReworks_run]
  generalize (⟨disk, log⟩ : ReworkRun) = s at h
  induction calls generalizing s with
  | nil => exact h
  | cons call calls ih =>
    rw [List.forall_mem_cons] at hcalls
    rw [List.map_cons, Machine.run_cons]
    exact ih hcalls.2 _ (h.step hinj (e := .poll call) hcalls.1)

theorem isRework_of_collected (disk : ReworkDisk) (calls : List ReworkCall) :
    ∀ collected ∈ (collectReworks maxAttempts disk calls).1,
      collected.raised = true → collected.entry.outcome.isRework = true := by
  induction calls generalizing disk with
  | nil => exact List.forall_mem_nil _
  | cons call calls ih =>
    simp only [collectReworks, List.forall_mem_cons]
    exact ⟨fun hraised => isRework_of_raised (of_decide_eq_true hraised), ih _⟩

end Runs

section Cycles

variable {config : OverseerConfig} {setup : ReworkSetup} {repos : Set String}

def CycleEvent.touches : CycleEvent → List String
  | .write rec _ => [rec.repo]
  | .delete repo _ _ => [repo]
  | .cycle pass => pass.candidates.map fun candidate => candidate.1.repo

def OverseerConfig.CycleFits (config : OverseerConfig) (setup : ReworkSetup) (s : CycleRun) :
    CycleEvent → Prop
  | .cycle cycle => config.Fits setup.maxAttempts cycle.spentTodayUsd s.disk cycle.launches
      (setup.calls cycle)
  | _ => True

/-- So far every rework was admitted, and the counters tell how many there were. -/
structure LaunchedAll (setup : ReworkSetup) (repos : Set String) (s : CycleRun) : Prop where
  admitted : ∀ e ∈ s.log, e.entry.outcome.isRework = true → e.gated.admitted = true
  raised : ∀ e ∈ s.log, e.gated.collected.raised = true → e.entry.outcome.isRework = true
  tallied : TalliedRun setup.maxAttempts repos ⟨s.disk, s.log.map CycleEntry.entry⟩

theorem launchedAll_init : LaunchedAll setup repos .init := by
  refine ⟨?_, ?_, talliedRun_start⟩
  · intro e he
    cases he
  · intro e he
    cases he

theorem LaunchedAll.step (hinj : Set.InjOn repoDir repos) {s : CycleRun}
    (h : LaunchedAll setup repos s) {e : CycleEvent} (hrepos : ∀ repo ∈ e.touches, repo ∈ repos)
    (hfits : config.CycleFits setup s e) : LaunchedAll setup repos (s.step config setup e) := by
  cases e with
  | write rec fault =>
    exact ⟨h.admitted, h.raised,
      h.tallied.step hinj (e := .write rec fault) (hrepos _ List.mem_cons_self)⟩
  | delete repo pr fault =>
    exact ⟨h.admitted, h.raised,
      h.tallied.step hinj (e := .delete repo pr fault) (hrepos _ List.mem_cons_self)⟩
  | cycle cycle =>
    simp only [CycleRun.step, OverseerConfig.observeReworkCandidates]
    split
    · exact ⟨h.admitted, h.raised, h.tallied⟩
    next root hroot =>
      generalize hgated : config.gateReworks root cycle.spentTodayUsd cycle.now cycle.overseer
        cycle.launches (collectReworks setup.maxAttempts s.disk (setup.calls cycle)).1 = gated
      have hcollected : gated.map Gated.collected =
          (collectReworks setup.maxAttempts s.disk (setup.calls cycle)).1 := by
        rw [← hgated, collected_gateReworks]
      constructor
      · rw [List.forall_mem_append, List.forall_mem_map, ← hgated]
        exact ⟨h.admitted, admitted_of_fits hfits root⟩
      · rw [List.forall_mem_append, List.forall_mem_map]
        refine ⟨h.raised, ?_⟩
        intro poll hpoll
        apply isRework_of_collected s.disk (setup.calls cycle)
        rw [← hcollected]
        exact List.mem_map_of_mem hpoll
      · have hcalls : ∀ call ∈ setup.calls cycle, call.repo ∈ repos := by
          rw [ReworkSetup.calls, List.forall_mem_map]
          intro candidate hcandidate
          exact hrepos candidate.1.repo (List.mem_map.mpr ⟨candidate, hcandidate, rfl⟩)
        have htallied := h.tallied.collect hinj hcalls
        rw [← hcollected] at htallied
        rw [List.map_append, List.map_map]
        rw [List.map_map] at htallied
        exact htallied

theorem LaunchedAll.promise {s : CycleRun} (h : LaunchedAll setup repos s) :
    CyclePromise setup.maxAttempts s.log := by
  constructor
  · intro e he hraised
    exact .inl (h.admitted e he (h.raised e he hraised))
  · intro before e after heq hcap
    have hle := Kept.map_iff.mp h.tallied.cap before e after heq hcap
    have hadmitted : (before.filter fun b => b.entry.subject = e.entry.subject &&
        b.entry.outcome.isRework && b.gated.admitted) =
        before.filter fun b => b.entry.subject = e.entry.subject && b.entry.outcome.isRework := by
      apply List.filter_congr
      intro b hb
      have hlog := h.admitted b (heq ▸ List.mem_append_left _ hb)
      cases hrework : b.entry.outcome.isRework with
      | true => simp [hlog hrework]
      | false => simp
    have hlength : (reworksOf e.entry.subject (before.map CycleEntry.entry)).length =
        (before.filter fun b => b.entry.subject = e.entry.subject &&
          b.entry.outcome.isRework).length := by
      unfold reworksOf ownEntries
      rw [List.filter_filter, List.filter_map, List.length_map]
      congr 1
      apply List.filter_congr
      intro b _
      exact Bool.and_comm _ _
    rw [hadmitted, ← hlength]
    exact hle

end Cycles

/-- In a run whose cycles all have room for whatever is due in them, every counted attempt was
launched and no pull request is given up before. -/
theorem counted_reworks_launched (config : OverseerConfig) (setup : ReworkSetup)
    (repos : Set String) (hinj : Set.InjOn repoDir repos) (events : List CycleEvent)
    (hrepos : ∀ e ∈ events, ∀ repo ∈ e.touches, repo ∈ repos)
    (hfits : ∀ t ∈ (cycleMachine config setup).trace .init events,
      config.CycleFits setup t.before t.event) :
    CyclePromise setup.maxAttempts ((cycleMachine config setup).run .init events).log := by
  have hstep (s : CycleRun) (e : CycleEvent)
      (hok : (∀ repo ∈ e.touches, repo ∈ repos) ∧ config.CycleFits setup s e)
      (h : LaunchedAll setup repos s) : LaunchedAll setup repos (s.step config setup e) :=
    h.step hinj hok.1 hok.2
  have hall := (cycleMachine config setup).invariant_run_of hstep launchedAll_init events ?_
  · exact hall.promise
  · intro t ht
    obtain ⟨left, right, hevents, -, -⟩ := Machine.mem_trace _ ht
    refine ⟨hrepos t.event ?_, hfits t ht⟩
    rw [hevents]
    exact List.mem_append_right _ List.mem_cons_self

def reworkConfig : OverseerConfig where
  text := ⟨id, fun _ => 0⟩
  identityConfigured := true
  whisperEnabled := true
  whisperSink := true
  notifier := true
  notifyDedupSecs := 3600
  hashOrder := .asEntered
  goalHealthEnabled := true
  mergeQueueReasoner := false
  mergeQueueEveryN := 1
  autonomy := ⟨false, false⟩
  dailyBudgetUsd := 0
  backoffBaseSecs := 600
  backoffMultiplier := 2
  backoffMaxSecs := 86400

def reworkSetup : ReworkSetup := ⟨true, true, some "/var/simard".toList, 3, "overseer"⟩

def oneCandidate (launches : Nat) : ReworkCycle where
  overseer := reworkConfig.buildOverseer true
  launches := launches
  spentTodayUsd := none
  now := 0
  candidates := [(⟨"rysweet/Simard", 7, "simard-bot", "t1"⟩, .none)]

theorem launched_in_its_cycle : CyclePromise 3 ((cycleMachine reworkConfig reworkSetup).run .init
    [.write (reworkVerdict "rysweet/Simard" 7) none, .cycle (oneCandidate 0)]).log := by
  refine counted_reworks_launched reworkConfig reworkSetup {"rysweet/Simard"}
    (Set.injOn_singleton _ _) _ ?_ ?_
  · simp [CycleEvent.touches, reworkVerdict, oneCandidate]
  · intro t ht
    simp only [Machine.trace, List.mem_cons, List.not_mem_nil, or_false] at ht
    rcases ht with rfl | rfl
    · trivial
    · exact ⟨fun _ => rfl, trivial⟩

def heldThenSeen : List CycleEvent :=
  [.write (reworkVerdict "rysweet/Simard" 7) none, .cycle (oneCandidate 2), .cycle (oneCandidate 0)]

/-- The attempt is counted in a cycle without room, and the next one, which has room, takes
the rework for one that was dispatched. -/
theorem held_rework_not_offered_again :
    ¬CyclePromise 3 ((cycleMachine reworkConfig reworkSetup).run .init heldThenSeen).log := by
  have hsaid : ((cycleMachine reworkConfig reworkSetup).run .init heldThenSeen).log.map (fun e =>
      (e.gated.collected.raised, e.gated.admitted, e.free, e.cycle, e.entry.outcome.isRework)) =
      [(true, false, false, 0, true), (false, false, true, 1, false)] := by decide +kernel
  have hsaw : ((cycleMachine reworkConfig reworkSetup).run .init heldThenSeen).log.map (fun e =>
      (e.entry.subject, e.verdict.bind Except.toOption)) =
      List.replicate 2 (("rysweet/Simard", 7), some (reworkVerdict "rysweet/Simard" 7)) := by
    decide +kernel
  generalize ((cycleMachine reworkConfig reworkSetup).run .init heldThenSeen).log = log
    at hsaid hsaw ⊢
  obtain ⟨held, rest, rfl, hheld, hrest⟩ := List.map_eq_cons_iff.mp hsaid
  obtain ⟨seen, rest, rfl, hseen, hnil⟩ := List.map_eq_cons_iff.mp hrest
  obtain rfl := List.map_eq_nil_iff.mp hnil
  simp only [Prod.mk.injEq] at hheld hseen
  simp only [List.map_cons, List.map_nil, List.replicate, List.cons.injEq, Prod.mk.injEq] at hsaw
  obtain ⟨⟨hsubject, hverdict⟩, ⟨hsubject', hverdict'⟩, -⟩ := hsaw
  have hread {file : Option (Except String MergeVerdictRecord)} {rec : MergeVerdictRecord}
      (h : file.bind Except.toOption = some rec) : file = some (.ok rec) := by
    match file, h with
    | some (.ok _), h => rw [Option.some.inj h]
  have hagain : held.SeenAgain seen := by
    refine ⟨?_, hsubject'.trans hsubject.symm, (hread hverdict').trans (hread hverdict).symm,
      hseen.2.2.1⟩
    rw [hheld.2.2.2.1, hseen.2.2.2.1]
    exact Nat.one_pos
  intro hpromise
  rcases hpromise.launched held List.mem_cons_self hheld.1 with hadmitted | hoffered
  · exact Bool.false_ne_true (hheld.2.1.symm.trans hadmitted)
  · obtain ⟨later, hlater, hsees, hrework⟩ := hoffered ⟨seen, by simp, hagain⟩
    simp only [List.mem_cons, List.not_mem_nil, or_false] at hlater
    rcases hlater with rfl | rfl
    · exact lt_irrefl _ hsees.1
    · exact Bool.false_ne_true (hseen.2.2.2.2.symm.trans hrework)

end Simard.Overseer
