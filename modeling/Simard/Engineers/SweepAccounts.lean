import Simard.Engineers.Reaper
import Simard.Library.Transcript

/-! The books of a sweep. The sweep asks its seams one thing at a time: the board, the ledger,
then for every claim the probe, the investigator, the ledger and the cleanup, each of which may
answer anything. What it returns is a count of what it asked and was answered. -/
namespace Simard.Engineers
open Simard.Library Simard.TypedOoda

inductive ReapCmd where
  | perpetualGoalIds
  | listEngineerClaims
  | assess (claimKey : String)
  | investigate (claimKey : String) (idleAgeSecs : Nat)
  | releaseEngineerClaim (claimKey : String)
  | cleanup (claimKey : String)

def ReapCmd.Answer (ι : Type) : ReapCmd → Type
  | .perpetualGoalIds => List String
  | .listEngineerClaims => List String
  | .assess _ => ClaimLiveness
  | .investigate _ _ => InvestigationOutcome ι
  | .releaseEngineerClaim _ => Except String Unit
  | .cleanup _ => Except String Unit

abbrev ReapProgram (ι : Type) := Program ReapCmd (ReapCmd.Answer ι)

section Sweeping

variable {ι : Type}

def ReapSummary.default : ReapSummary ι := ⟨[], 0, 0, []⟩

/-- The idle age a heartbeat has to exceed; eight times the usual one for a goal the board
calls perpetual, saturating at 64 bits. -/
def reapIdleThreshold (perpetual : List String) (staleSecs : Nat) (claimKey : String) : Nat :=
  if goalIdFromClaimKey claimKey ∈ perpetual then min (staleSecs * 8) (2 ^ 64 - 1) else staleSecs

/-- The reason and age a claim goes on with, unless it is skipped at once. -/
def confidentlyDead (perpetual : List String) (staleSecs : Nat) (claimKey : String) :
    ClaimLiveness → Option (DeadReason × Option Nat)
  | .live => none
  | .dead .noWorktree _ => some (.noWorktree, none)
  | .dead .heartbeatStale ageSecs =>
      match ageSecs with
      | some age =>
          if reapIdleThreshold perpetual staleSecs claimKey < age then
            some (.heartbeatStale, some age)
          else none
      | none => none
  | .dead .completed ageSecs =>
      match ageSecs with
      | some age => if staleSecs < age then some (.completed, some age) else none
      | none => none

def reclaim (claimKey : String) (summary : ReapSummary ι) : ReapProgram ι (ReapSummary ι) :=
  .step (.releaseEngineerClaim claimKey) fun
    | .error _ => pure { summary with errors := summary.errors + 1 }
    | .ok () =>
        let summary := { summary with reclaimed := summary.reclaimed ++ [claimKey] }
        .step (.cleanup claimKey) fun
          | .error _ => pure { summary with errors := summary.errors + 1 }
          | .ok () => pure summary

def reapClaim (perpetual : List String) (staleSecs : Nat) (claimKey : String)
    (summary : ReapSummary ι) : ReapProgram ι (ReapSummary ι) :=
  .step (.assess claimKey) fun liveness =>
    match confidentlyDead perpetual staleSecs claimKey liveness with
    | none => pure { summary with skipped := summary.skipped + 1 }
    | some (.heartbeatStale, ageSecs) =>
        .step (.investigate claimKey (ageSecs.getD 0)) fun (outcome : InvestigationOutcome ι) =>
          let summary := { summary with
            pendingInterventions := summary.pendingInterventions ++ outcome.interventions }
          if outcome.verdict.shouldReap then reclaim claimKey summary
          else pure { summary with skipped := summary.skipped + 1 }
    | some _ => reclaim claimKey summary

def reapClaims (perpetual : List String) (staleSecs : Nat) :
    List String → ReapSummary ι → ReapProgram ι (ReapSummary ι)
  | [], summary => pure summary
  | claimKey :: rest, summary => do
      let summary ← reapClaim perpetual staleSecs claimKey summary
      reapClaims perpetual staleSecs rest summary

def reapStaleClaims (enabled : Bool) (staleSecs : Nat) : ReapProgram ι (ReapSummary ι) :=
  if enabled then
    .step .perpetualGoalIds fun perpetual =>
      .step .listEngineerClaims fun claimKeys =>
        reapClaims perpetual staleSecs claimKeys .default
  else pure .default

end Sweeping

section Ledger

variable {ι : Type} (sweep : Sweep) (visit : String → ClaimVisit ι)

def reapSeams (ledger : Ledger) : (cmd : ReapCmd) → ReapCmd.Answer ι cmd × Ledger
  | .perpetualGoalIds => (perpetualGoalIds sweep.board, ledger)
  | .listEngineerClaims => (ledger.engineerClaims.map (·.claimKey), ledger)
  | .assess claimKey => (assess (visit claimKey).root claimKey, ledger)
  | .investigate claimKey age => ((visit claimKey).investigate claimKey age, ledger)
  | .releaseEngineerClaim claimKey =>
      match (visit claimKey).releaseError with
      | some error => (.error error, ledger)
      | none => (.ok (), ledger.deleteClaim claimKey)
  | .cleanup claimKey =>
      match (visit claimKey).cleanupError with
      | some error => (.error error, ledger)
      | none => (.ok (), ledger)

theorem exec_reclaim (claimKey : String) (summary : ReapSummary ι) (ledger : Ledger) :
    (reclaim claimKey summary).exec (reapSeams sweep visit) ledger =
      match (visit claimKey).releaseError with
      | some _ => ({ summary with errors := summary.errors + 1 }, ledger)
      | none => ({ summary with
          reclaimed := summary.reclaimed ++ [claimKey]
          errors := summary.errors + if (visit claimKey).cleanupError.isSome then 1 else 0 },
          ledger.deleteClaim claimKey) := by
  unfold reclaim
  cases hrelease : (visit claimKey).releaseError with
  | some error => simp [Program.exec, reapSeams, hrelease]
  | none =>
    cases hcleanup : (visit claimKey).cleanupError <;>
      simp [Program.exec, reapSeams, hrelease, hcleanup]

theorem confidentlyDead_eq (claimKey : String) (liveness : ClaimLiveness) :
    confidentlyDead (perpetualGoalIds sweep.board) sweep.staleSecs claimKey liveness =
      sweep.candidate claimKey liveness := by
  rcases liveness with _ | ⟨_ | _ | _, _ | age⟩
  all_goals
    simp only [confidentlyDead, Sweep.candidate, reapIdleThreshold, Sweep.idleThreshold,
      Option.filter, Option.map]
  all_goals grind

theorem exec_reapClaim (claimKey : String) (summary : ReapSummary ι) (ledger : Ledger) :
    (reapClaim (perpetualGoalIds sweep.board) sweep.staleSecs claimKey summary).exec
      (reapSeams sweep visit) ledger =
        sweep.reapClaim (visit claimKey) claimKey (summary, ledger) := by
  unfold reapClaim Sweep.reapClaim
  simp only [Program.exec, reapSeams, confidentlyDead_eq]
  rcases sweep.candidate claimKey (assess (visit claimKey).root claimKey) with
    _ | ⟨_ | _ | _, ageSecs⟩
  · rfl
  · cases hrelease : (visit claimKey).releaseError <;>
      simp [exec_reclaim, Sweep.investigation, hrelease]
  · cases hverdict : ((visit claimKey).investigate claimKey (ageSecs.getD 0)).verdict.shouldReap <;>
      cases hrelease : (visit claimKey).releaseError <;>
        simp [Program.exec, exec_reclaim, Sweep.investigation, reapSeams, hverdict, hrelease]
  · cases hrelease : (visit claimKey).releaseError <;>
      simp [exec_reclaim, Sweep.investigation, hrelease]

theorem exec_reapStaleClaims (ledger : Ledger) :
    (reapStaleClaims sweep.enabled sweep.staleSecs).exec (reapSeams sweep visit) ledger =
      sweep.reapStaleClaims visit ledger := by
  have hclaims (claimKeys : List String) (summary : ReapSummary ι) (ledger : Ledger) :
      (reapClaims (perpetualGoalIds sweep.board) sweep.staleSecs claimKeys summary).exec
        (reapSeams sweep visit) ledger =
          claimKeys.foldl (fun state claimKey => sweep.reapClaim (visit claimKey) claimKey state)
            (summary, ledger) := by
    induction claimKeys generalizing summary ledger with
    | nil => rfl
    | cons claimKey rest ih =>
      rw [reapClaims, Program.exec_bind, exec_reapClaim, ih]
      rfl
  unfold reapStaleClaims Sweep.reapStaleClaims
  cases sweep.enabled with
  | false => rfl
  | true => exact hclaims _ _ ledger

end Ledger

/-- What was asked about one claim and answered. -/
structure ReapVisit (ι : Type) where
  claimKey : String
  liveness : ClaimLiveness
  investigation : Option (Nat × InvestigationOutcome ι)
  released : Option (Except String Unit)
  cleaned : Option (Except String Unit)

namespace ReapVisit

variable {ι : Type} (visit : ReapVisit ι)

def log : List (Sigma (ReapCmd.Answer ι)) :=
  ⟨.assess visit.claimKey, visit.liveness⟩ ::
    ((visit.investigation.map fun found =>
        ⟨.investigate visit.claimKey found.1, found.2⟩).toList ++
      (visit.released.map fun answer => ⟨.releaseEngineerClaim visit.claimKey, answer⟩).toList ++
      (visit.cleaned.map fun answer => ⟨.cleanup visit.claimKey, answer⟩).toList)

def reclaims : Bool :=
  match visit.released with
  | some (.ok _) => true
  | _ => false

def releaseFails : Bool :=
  match visit.released with
  | some (.error _) => true
  | _ => false

def cleanupFails : Bool :=
  match visit.cleaned with
  | some (.error _) => true
  | _ => false

def interventions : List ι :=
  (visit.investigation.map fun found => found.2.interventions).getD []

def Overdue (perpetual : List String) (staleSecs age : Nat) : Prop :=
  visit.liveness = .dead .heartbeatStale (some age) ∧
    reapIdleThreshold perpetual staleSecs visit.claimKey < age

/-- Why a claim may be released. -/
@[mk_iff] inductive Condemned (perpetual : List String) (staleSecs : Nat) : Prop where
  | noWorktree (age : Option Nat) (h : visit.liveness = .dead .noWorktree age)
  | completed (age : Nat) (h : visit.liveness = .dead .completed (some age))
      (hold : staleSecs < age)
  | investigated (age : Nat) (outcome : InvestigationOutcome ι) (cause : InvestigationCause)
      (h : visit.Overdue perpetual staleSecs age)
      (hfound : visit.investigation = some (age, outcome))
      (hdead : outcome.verdict = .dead cause)

/-- The investigator is asked about overdue heartbeats, the ledger to release condemned claims
and the cleanup to follow a release that went through; each for nothing else. -/
structure Routed (perpetual : List String) (staleSecs : Nat) : Prop where
  investigated : ∀ age, (∃ outcome, visit.investigation = some (age, outcome)) ↔
    visit.Overdue perpetual staleSecs age
  released : visit.released.isSome ↔ visit.Condemned perpetual staleSecs
  cleaned : visit.cleaned.isSome ↔ visit.reclaims

def credit (summary : ReapSummary ι) : ReapSummary ι where
  reclaimed := summary.reclaimed ++ if visit.reclaims then [visit.claimKey] else []
  skipped := summary.skipped + if visit.released.isNone then 1 else 0
  errors := summary.errors + (if visit.releaseFails then 1 else 0) +
    if visit.cleanupFails then 1 else 0
  pendingInterventions := summary.pendingInterventions ++ visit.interventions

end ReapVisit

section Books

variable {ι : Type} {perpetual : List String} {staleSecs : Nat} {claimKey : String}
  {summary after : ReapSummary ι} {log : List (Sigma (ReapCmd.Answer ι))}

theorem transcript_reclaim (liveness : ClaimLiveness)
    (investigation : Option (Nat × InvestigationOutcome ι))
    (h : Transcript (reclaim claimKey { summary with
      pendingInterventions := summary.pendingInterventions ++
        (investigation.map fun found => found.2.interventions).getD [] }) log after) :
    ∃ visit : ReapVisit ι, visit.claimKey = claimKey ∧ visit.liveness = liveness ∧
      visit.investigation = investigation ∧ visit.released.isSome ∧
      (visit.cleaned.isSome ↔ visit.reclaims) ∧
      visit.log = ⟨.assess claimKey, liveness⟩ :: ((investigation.map fun found =>
        ⟨.investigate claimKey found.1, found.2⟩).toList ++ log) ∧
      after = visit.credit summary := by
  unfold reclaim at h
  obtain ⟨released, rest, rfl, hreleased⟩ := transcript_step_iff.mp h
  clear h
  rcases released with e | ⟨⟩
  · obtain ⟨rfl, rfl⟩ := transcript_done_iff.mp hreleased
    refine ⟨⟨claimKey, liveness, investigation, some (.error e), none⟩, rfl, rfl, rfl, rfl, ?_⟩
    simp [ReapVisit.credit, ReapVisit.reclaims, ReapVisit.releaseFails, ReapVisit.cleanupFails,
      ReapVisit.interventions, ReapVisit.log]
  · obtain ⟨cleaned, rest, rfl, hcleaned⟩ := transcript_step_iff.mp hreleased
    clear hreleased
    refine ⟨⟨claimKey, liveness, investigation, some (.ok ()), some cleaned⟩, rfl,
      rfl, rfl, rfl, ?_⟩
    rcases cleaned with e | ⟨⟩
    all_goals
      obtain ⟨rfl, rfl⟩ := transcript_done_iff.mp hcleaned
      simp [ReapVisit.credit, ReapVisit.reclaims, ReapVisit.releaseFails, ReapVisit.cleanupFails,
        ReapVisit.interventions, ReapVisit.log]

theorem credit_skipped (liveness : ClaimLiveness)
    (investigation : Option (Nat × InvestigationOutcome ι)) :
    (⟨claimKey, liveness, investigation, none, none⟩ : ReapVisit ι).credit summary =
      { summary with
        skipped := summary.skipped + 1
        pendingInterventions := summary.pendingInterventions ++
          (investigation.map fun found => found.2.interventions).getD [] } := by
  simp [ReapVisit.credit, ReapVisit.reclaims, ReapVisit.releaseFails, ReapVisit.cleanupFails,
    ReapVisit.interventions]

theorem transcript_skipped {liveness : ClaimLiveness}
    (hfresh : ∀ age, liveness = .dead .heartbeatStale (some age) →
      ¬ reapIdleThreshold perpetual staleSecs claimKey < age)
    (hkept : ∀ age, liveness ≠ .dead .noWorktree age)
    (hrecent : ∀ age, liveness = .dead .completed (some age) → ¬ staleSecs < age)
    (h : Transcript (pure { summary with skipped := summary.skipped + 1 } :
      ReapProgram ι (ReapSummary ι)) log after) :
    ∃ visit : ReapVisit ι, visit.claimKey = claimKey ∧
      (⟨.assess claimKey, liveness⟩ :: log : List (Sigma (ReapCmd.Answer ι))) = visit.log ∧
      visit.Routed perpetual staleSecs ∧ after = visit.credit summary := by
  obtain ⟨rfl, rfl⟩ := transcript_done_iff.mp h
  refine ⟨⟨claimKey, liveness, none, none, none⟩, rfl, rfl, ⟨?_, ?_, ?_⟩, ?_⟩
  · simpa [ReapVisit.Overdue] using hfresh
  · simpa [ReapVisit.condemned_iff, hkept] using hrecent
  · simp [ReapVisit.reclaims]
  · simp [credit_skipped]

theorem transcript_reclaimed {liveness : ClaimLiveness}
    (hfresh : ∀ age, liveness ≠ .dead .heartbeatStale age)
    (hcondemned : ∀ visit : ReapVisit ι, visit.liveness = liveness →
      visit.Condemned perpetual staleSecs)
    (h : Transcript (reclaim claimKey summary) log after) :
    ∃ visit : ReapVisit ι, visit.claimKey = claimKey ∧
      (⟨.assess claimKey, liveness⟩ :: log : List (Sigma (ReapCmd.Answer ι))) = visit.log ∧
      visit.Routed perpetual staleSecs ∧ after = visit.credit summary := by
  obtain ⟨visit, hkey, hliveness, hinvestigation, hreleased, hcleaned, hlog, hafter⟩ :=
    transcript_reclaim liveness none (by simpa using h)
  have hreleased := iff_of_true hreleased (hcondemned visit hliveness)
  refine ⟨visit, hkey, hlog.symm, ⟨?_, hreleased, hcleaned⟩, hafter⟩
  simp [ReapVisit.Overdue, hinvestigation, hliveness, hfresh]

theorem investigated_iff {visit : ReapVisit ι} {age : Nat} {outcome : InvestigationOutcome ι}
    (hoverdue : visit.Overdue perpetual staleSecs age)
    (hfound : visit.investigation = some (age, outcome)) (other : Nat) :
    (∃ outcome, visit.investigation = some (other, outcome)) ↔
      visit.Overdue perpetual staleSecs other := by
  constructor
  · rintro ⟨answer, hanswer⟩
    rw [hfound] at hanswer
    cases hanswer
    exact hoverdue
  · rintro ⟨hliveness, -⟩
    have hsame := hoverdue.1.symm.trans hliveness
    cases hsame
    exact ⟨outcome, hfound⟩

theorem transcript_investigated {age : Nat}
    (hold : reapIdleThreshold perpetual staleSecs claimKey < age)
    (outcome : InvestigationOutcome ι)
    (h : Transcript (if outcome.verdict.shouldReap then reclaim claimKey { summary with
          pendingInterventions := summary.pendingInterventions ++ outcome.interventions }
        else pure { summary with
          skipped := summary.skipped + 1
          pendingInterventions := summary.pendingInterventions ++ outcome.interventions })
      log after) :
    ∃ visit : ReapVisit ι, visit.claimKey = claimKey ∧
      (⟨.assess claimKey, .dead .heartbeatStale (some age)⟩ ::
        ⟨.investigate claimKey age, outcome⟩ ::
        log : List (Sigma (ReapCmd.Answer ι))) = visit.log ∧
      visit.Routed perpetual staleSecs ∧ after = visit.credit summary := by
  by_cases hreap : outcome.verdict.shouldReap
  · rw [if_pos hreap] at h
    obtain ⟨visit, hkey, hliveness, hinvestigation, hreleased, hcleaned, hlog, hafter⟩ :=
      transcript_reclaim (.dead .heartbeatStale (some age)) (some (age, outcome)) h
    obtain ⟨cause, hdead⟩ : ∃ cause, outcome.verdict = .dead cause := by
      cases hverdict : outcome.verdict with
      | dead cause => exact ⟨cause, rfl⟩
      | _ => simp [hverdict, InvestigationVerdict.shouldReap] at hreap
    have hoverdue : visit.Overdue perpetual staleSecs age := ⟨hliveness, by rwa [hkey]⟩
    have hcondemned :=
      ReapVisit.Condemned.investigated age outcome cause hoverdue hinvestigation hdead
    have hreleased := iff_of_true hreleased hcondemned
    exact ⟨visit, hkey, hlog.symm, ⟨investigated_iff hoverdue hinvestigation, hreleased, hcleaned⟩,
      hafter⟩
  · rw [if_neg hreap] at h
    obtain ⟨rfl, rfl⟩ := transcript_done_iff.mp h
    refine ⟨⟨claimKey, .dead .heartbeatStale (some age), some (age, outcome), none, none⟩, rfl, rfl,
      ⟨investigated_iff ⟨rfl, hold⟩ rfl, ?_, ?_⟩, ?_⟩
    · have hkept (cause : InvestigationCause) : outcome.verdict ≠ .dead cause := by
        rintro hdead
        exact hreap (by rw [hdead]; rfl)
      simp [ReapVisit.condemned_iff, hkept]
    · simp [ReapVisit.reclaims]
    · simp [credit_skipped]

theorem transcript_reapClaim
    (h : Transcript (reapClaim perpetual staleSecs claimKey summary) log after) :
    ∃ visit : ReapVisit ι, visit.claimKey = claimKey ∧ log = visit.log ∧
      visit.Routed perpetual staleSecs ∧ after = visit.credit summary := by
  unfold reapClaim at h
  obtain ⟨liveness, rest, rfl, hturn⟩ := transcript_step_iff.mp h
  clear h
  change ClaimLiveness at liveness
  rcases liveness with _ | ⟨_ | _ | _, _ | age⟩
  · exact transcript_skipped (by simp) (by simp) (by simp) hturn
  · exact transcript_reclaimed (by simp) (fun visit hliveness => .noWorktree _ hliveness) hturn
  · exact transcript_reclaimed (by simp) (fun visit hliveness => .noWorktree _ hliveness) hturn
  · exact transcript_skipped (by simp) (by simp) (by simp) hturn
  · by_cases hold : reapIdleThreshold perpetual staleSecs claimKey < age
    · simp only [confidentlyDead, hold, if_true] at hturn
      obtain ⟨outcome, rest, rfl, hverdict⟩ := transcript_step_iff.mp hturn
      exact transcript_investigated hold outcome hverdict
    · simp only [confidentlyDead, hold, if_false] at hturn
      exact transcript_skipped (by simpa using hold) (by simp) (by simp) hturn
  · exact transcript_skipped (by simp) (by simp) (by simp) hturn
  · by_cases hold : staleSecs < age
    · simp only [confidentlyDead, hold, if_true] at hturn
      exact transcript_reclaimed (by simp) (fun visit hliveness =>
        .completed age hliveness hold) hturn
    · simp only [confidentlyDead, hold, if_false] at hturn
      exact transcript_skipped (by simp) (by simp) (by simpa using hold) hturn

theorem transcript_reapClaims {claimKeys : List String}
    (h : Transcript (reapClaims perpetual staleSecs claimKeys summary) log after) :
    ∃ visits : List (ReapVisit ι), visits.map (·.claimKey) = claimKeys ∧
      log = visits.flatMap ReapVisit.log ∧ (∀ visit ∈ visits, visit.Routed perpetual staleSecs) ∧
      after = visits.foldl (fun summary visit => visit.credit summary) summary := by
  induction claimKeys generalizing summary log with
  | nil =>
    obtain ⟨rfl, rfl⟩ := transcript_done_iff.mp h
    exact ⟨[], rfl, rfl, by simp, rfl⟩
  | cons claimKey rest ih =>
    obtain ⟨left, right, middle, rfl, hturn, hrest⟩ := transcript_bind_iff.mp h
    obtain ⟨visit, rfl, rfl, hrouted, rfl⟩ := transcript_reapClaim hturn
    obtain ⟨visits, rfl, rfl, hall, rfl⟩ := ih hrest
    exact ⟨visit :: visits, rfl, rfl, by simpa using ⟨hrouted, hall⟩, rfl⟩

theorem foldl_credit (visits : List (ReapVisit ι)) (summary : ReapSummary ι) :
    visits.foldl (fun summary visit => visit.credit summary) summary = {
      reclaimed := summary.reclaimed ++ (visits.filter ReapVisit.reclaims).map (·.claimKey)
      skipped := summary.skipped + visits.countP (·.released.isNone)
      errors := summary.errors + visits.countP ReapVisit.releaseFails +
        visits.countP ReapVisit.cleanupFails
      pendingInterventions := summary.pendingInterventions ++
        visits.flatMap ReapVisit.interventions } := by
  induction visits generalizing summary with
  | nil => simp
  | cons visit rest ih =>
    rw [List.foldl_cons, ih]
    cases hreclaims : visit.reclaims <;> cases hnone : visit.released.isNone <;>
      cases hfails : visit.releaseFails <;> cases hcleanup : visit.cleanupFails <;>
        simp [ReapVisit.credit, hreclaims, hnone, hfails, hcleanup] <;> omega

theorem countP_visits (visits : List (ReapVisit ι)) :
    (visits.filter ReapVisit.reclaims).length + visits.countP (·.released.isNone) +
      visits.countP ReapVisit.releaseFails = visits.length := by
  induction visits with
  | nil => rfl
  | cons visit rest ih =>
    rcases hreleased : visit.released with _ | (_ | _) <;>
      simp [ReapVisit.reclaims, ReapVisit.releaseFails, hreleased] <;> omega

end Books

/-- The books of a sweep: which claims were listed, how each was visited, and what the summary
makes of the visits. -/
structure SweepAccount {ι : Type} (staleSecs : Nat) (log : List (Sigma (ReapCmd.Answer ι)))
    (summary : ReapSummary ι) (perpetual claimKeys : List String) (visits : List (ReapVisit ι)) :
    Prop where
  visited : visits.map (·.claimKey) = claimKeys
  asked : log = ⟨.perpetualGoalIds, perpetual⟩ :: ⟨.listEngineerClaims, claimKeys⟩ ::
    visits.flatMap ReapVisit.log
  routed : ∀ visit ∈ visits, visit.Routed perpetual staleSecs
  reclaimed : summary.reclaimed = (visits.filter ReapVisit.reclaims).map (·.claimKey)
  interventions : summary.pendingInterventions = visits.flatMap ReapVisit.interventions
  errors :
    summary.errors = visits.countP ReapVisit.releaseFails + visits.countP ReapVisit.cleanupFails
  total : summary.reclaimed.length + summary.skipped + visits.countP ReapVisit.releaseFails =
    claimKeys.length

/-- Whatever the seams answer, an enabled sweep keeps its books and a disabled one asks
nothing. -/
theorem sweep_keeps_books {ι : Type} {enabled : Bool} {staleSecs : Nat}
    {log : List (Sigma (ReapCmd.Answer ι))} {summary : ReapSummary ι}
    (h : Transcript (reapStaleClaims enabled staleSecs) log summary) :
    if enabled then
      ∃ perpetual claimKeys visits, SweepAccount staleSecs log summary perpetual claimKeys visits
    else log = [] ∧ summary = .default := by
  unfold reapStaleClaims at h
  cases enabled with
  | false => exact transcript_done_iff.mp h
  | true =>
    obtain ⟨perpetual, rest, rfl, hlisted⟩ := transcript_step_iff.mp h
    obtain ⟨claimKeys, rest, rfl, hloop⟩ := transcript_step_iff.mp hlisted
    obtain ⟨visits, rfl, rfl, hrouted, rfl⟩ := transcript_reapClaims hloop
    rw [foldl_credit]
    refine ⟨perpetual, _, visits, rfl, rfl, hrouted, ?_, ?_, ?_, ?_⟩
    · simp [ReapSummary.default]
    · simp [ReapSummary.default]
    · simp [ReapSummary.default]
    · simpa [ReapSummary.default] using countP_visits visits

def twoClaimSeams (u : Unit) : (cmd : ReapCmd) → ReapCmd.Answer Unit cmd × Unit
  | .perpetualGoalIds => ([], u)
  | .listEngineerClaims => (["o/r:gone", "o/r:here"], u)
  | .assess claimKey => (if claimKey = "o/r:gone" then .dead .noWorktree none else .live, u)
  | .investigate _ _ => (⟨.stillAlive, []⟩, u)
  | .releaseEngineerClaim _ => (.ok (), u)
  | .cleanup _ => (.ok (), u)

theorem two_claims_booked :
    let sweep := record twoClaimSeams (reapStaleClaims true 60) ()
    sweep.2.reclaimed = ["o/r:gone"] ∧ sweep.2.skipped = 1 ∧ ∃ perpetual claimKeys visits,
      SweepAccount 60 sweep.1 sweep.2 perpetual claimKeys visits := by
  intro sweep
  have hbooks := sweep_keeps_books (transcript_record twoClaimSeams (reapStaleClaims true 60) ())
  rw [if_pos rfl] at hbooks
  exact ⟨by decide, by decide, hbooks⟩

end Simard.Engineers
