import Simard.Engineers.Worktrees
import Simard.TypedOoda.Approvals

/-! The reaper of stale engineer claims. A sweep asks for every claim whether a
worktree stands behind it and releases those whose engineer it takes for dead;
recording, dispatch and sweeps interleave freely over one ledger. -/
namespace Simard.Engineers
open Simard.Library Simard.TypedOoda Simard.Goals

inductive DeadReason where
  | noWorktree
  | heartbeatStale
  | completed
  deriving DecidableEq

inductive ClaimLiveness where
  | live
  | dead (reason : DeadReason) (ageSecs : Option Nat)
  deriving DecidableEq

inductive InvestigationCause where
  | panic
  | oom
  | e2big
  | lockContention
  | simardBug
  | finishedUnreported
  | unknown
  deriving DecidableEq

inductive InvestigationVerdict where
  | stillAlive
  | blocked
  | recoverable
  | pending
  | dead (cause : InvestigationCause)
  deriving DecidableEq

def InvestigationVerdict.shouldReap : InvestigationVerdict → Bool
  | .dead _ => true
  | _ => false

structure InvestigationOutcome (ι : Type) where
  verdict : InvestigationVerdict
  interventions : List ι

/-- A directory of the worktrees root as the reaper reads it: the idle age of its
newest file, absent when not even the directory can be read, and the lines of its
session record, those that are no JSON left out as absent. -/
structure ReaperEntry extends WorktreeEntry where
  newestFileAgeSecs : Option Nat
  sessions : Option (List (Option Json))

def sessionStatus : Json → Option String
  | .obj fields =>
      match fields.reverse.lookup "status" with
      | some (.str status) => some status
      | _ => none
  | _ => none

def engineerSessionCompleted (entry : ReaperEntry) : Bool :=
  match entry.sessions with
  | none => false
  | some lines => (lines.filterMap fun line => line.bind sessionStatus).getLast? = some "completed"

def backs (goalId : String) (entry : ReaperEntry) : Bool :=
  entry.isDir && entry.name.any fun name => goalIdFromWorktreeDir name = goalId

def assess (root : Option (List ReaperEntry)) (claimKey : String) : ClaimLiveness :=
  match root with
  | none => .live
  | some entries =>
      match entries.find? (backs (goalIdFromClaimKey claimKey)) with
      | none => .dead .noWorktree none
      | some worktree =>
          match worktree.newestFileAgeSecs with
          | none => .live
          | some age =>
              .dead (if engineerSessionCompleted worktree then .completed else .heartbeatStale)
                (some age)

def perpetualGoalIds (board : GoalBoard) : List String :=
  (board.active.filter (·.isPerpetual)).map (·.id)

structure ClaimVisit (ι : Type) where
  root : Option (List ReaperEntry)
  investigate : String → Nat → InvestigationOutcome ι
  releaseError : Option String
  cleanupError : Option String

structure Sweep where
  enabled : Bool
  staleSecs : Nat
  board : GoalBoard

structure ReapSummary (ι : Type) where
  reclaimed : List String
  skipped : Nat
  errors : Nat
  pendingInterventions : List ι

namespace Sweep

variable {ι : Type} (sweep : Sweep)

/-- How long the claim's worktree may be idle: eight times as long for a standing
goal, saturating at 64 bits. -/
def idleThreshold (claimKey : String) : Nat :=
  if goalIdFromClaimKey claimKey ∈ perpetualGoalIds sweep.board then
    min (sweep.staleSecs * 8) (2 ^ 64 - 1)
  else sweep.staleSecs

def candidate (claimKey : String) : ClaimLiveness → Option (DeadReason × Option Nat)
  | .live => none
  | .dead .noWorktree _ => some (.noWorktree, none)
  | .dead .heartbeatStale ageSecs =>
      (ageSecs.filter (sweep.idleThreshold claimKey < ·)).map fun age =>
        (.heartbeatStale, some age)
  | .dead .completed ageSecs =>
      (ageSecs.filter (sweep.staleSecs < ·)).map fun age => (.completed, some age)

/-- Only an idle worktree is investigated before its claim is released. -/
def investigation (visit : ClaimVisit ι) (claimKey : String) :
    DeadReason × Option Nat → Option (InvestigationOutcome ι)
  | (.heartbeatStale, ageSecs) => some (visit.investigate claimKey (ageSecs.getD 0))
  | _ => none

def condemns (visit : ClaimVisit ι) (claimKey : String) : Bool :=
  sweep.enabled && (sweep.candidate claimKey (assess visit.root claimKey)).any fun found =>
    (investigation visit claimKey found).all (·.verdict.shouldReap)

def reapClaim (visit : ClaimVisit ι) (claimKey : String)
    (state : ReapSummary ι × Ledger) : ReapSummary ι × Ledger :=
  let (summary, ledger) := state
  match sweep.candidate claimKey (assess visit.root claimKey) with
  | none => ({ summary with skipped := summary.skipped + 1 }, ledger)
  | some found =>
      let outcome := investigation visit claimKey found
      let summary := { summary with
        pendingInterventions := summary.pendingInterventions ++
          (outcome.map InvestigationOutcome.interventions).getD [] }
      if outcome.any (!·.verdict.shouldReap) then
        ({ summary with skipped := summary.skipped + 1 }, ledger)
      else
        match visit.releaseError with
        | some _ => ({ summary with errors := summary.errors + 1 }, ledger)
        | none =>
            ({ summary with
              reclaimed := summary.reclaimed ++ [claimKey]
              errors := summary.errors + if visit.cleanupError.isSome then 1 else 0 },
              ledger.deleteClaim claimKey)

def reapStaleClaims (visit : String → ClaimVisit ι) (ledger : Ledger) : ReapSummary ι × Ledger :=
  let summary : ReapSummary ι := ⟨[], 0, 0, []⟩
  if sweep.enabled then
    (ledger.engineerClaims.map (·.claimKey)).foldl
      (fun state claimKey => sweep.reapClaim (visit claimKey) claimKey state) (summary, ledger)
  else (summary, ledger)

/-- The claim is left alone: the sweep is off, the root cannot be read, or the
first directory named for the goal is of unknown age, young enough, or not found
dead by its investigation. -/
def Spares (visit : ClaimVisit ι) (claimKey : String) : Prop :=
  sweep.enabled = false ∨ visit.root = none ∨
    ∃ entries worktree, visit.root = some entries ∧
      entries.find? (backs (goalIdFromClaimKey claimKey)) = some worktree ∧
      ∀ age, worktree.newestFileAgeSecs = some age →
        if engineerSessionCompleted worktree then age ≤ sweep.staleSecs
        else age ≤ sweep.idleThreshold claimKey ∨
          (visit.investigate claimKey age).verdict.shouldReap = false

theorem condemns_eq_false {visit : ClaimVisit ι} {claimKey : String} :
    sweep.condemns visit claimKey = false ↔ sweep.Spares visit claimKey := by
  unfold condemns Spares
  cases sweep.enabled with
  | false => simp
  | true =>
    cases hroot : visit.root with
    | none => simp [assess, candidate]
    | some entries =>
      cases hfind : entries.find? (backs (goalIdFromClaimKey claimKey)) with
      | none => simp [assess, hfind, candidate, investigation]
      | some worktree =>
        cases hage : worktree.newestFileAgeSecs with
        | none => simp [assess, hfind, hage, candidate]
        | some age =>
          by_cases hcompleted : engineerSessionCompleted worktree
          · rcases Nat.lt_or_ge sweep.staleSecs age with hold | hyoung
            · simp [assess, hfind, hage, hcompleted, candidate, investigation, Option.filter, hold]
            · simp [assess, hfind, hage, hcompleted, candidate, Option.filter,
                Nat.not_lt.mpr hyoung, hyoung]
          · rcases Nat.lt_or_ge (sweep.idleThreshold claimKey) age with hold | hyoung
            · simp [assess, hfind, hage, hcompleted, candidate, investigation, Option.filter, hold]
            · simp [assess, hfind, hage, hcompleted, candidate, Option.filter,
                Nat.not_lt.mpr hyoung, hyoung]

theorem reapClaim_ledger (visit : ClaimVisit ι) (claimKey : String)
    (state : ReapSummary ι × Ledger) (henabled : sweep.enabled) :
    (sweep.reapClaim visit claimKey state).2 =
      if sweep.condemns visit claimKey && visit.releaseError.isNone then
        state.2.deleteClaim claimKey
      else state.2 := by
  unfold reapClaim condemns
  cases hfound : sweep.candidate claimKey (assess visit.root claimKey) with
  | none => simp
  | some found =>
    cases houtcome : investigation visit claimKey found with
    | none => cases hrelease : visit.releaseError <;> simp [henabled, houtcome]
    | some outcome =>
      cases hverdict : outcome.verdict.shouldReap <;> cases hrelease : visit.releaseError <;>
        simp [henabled, houtcome, hverdict]

end Sweep

/-- The ledger with its clients and workers, the claims a sweep has condemned and
not released yet, the effects whose executor has allocated their worktree, and the
outcomes that lost their claim after that. -/
structure Fleet where
  pool : System
  doomed : List String
  allocated : List String
  declaredDead : List String

def Fleet.ledger (fleet : Fleet) : Ledger := fleet.pool.shared

def Fleet.init : Fleet := ⟨Pool.init Ledger.empty, [], [], []⟩

inductive FleetEvent (ι : Type) where
  /-- A step of a client or worker; an execution may allocate the worktree. -/
  | work (event : SystemEvent) (allocates : Bool)
  /-- A sweep looks at a claim. -/
  | assess (sweep : Sweep) (visit : ClaimVisit ι) (claimKey : String)
  /-- A sweep carries out the release it decided on, unless the ledger fails it. -/
  | release (claimKey : String) (succeeds : Bool)

def executedEffect (pool : System) (event : SystemEvent) : Option String :=
  match pool.issued event with
  | some (_, .execute job) => some job.effectId
  | _ => none

namespace Fleet

variable {ι : Type}

/-- The outcomes whose claim is gone afterwards although their worktree stood. -/
def lostClaims (fleet : Fleet) (after : Ledger) : List String :=
  (fleet.ledger.engineerClaims.filter fun claim =>
    after.engineerClaims.all (·.outcomeId ≠ claim.outcomeId) &&
      fleet.ledger.effectJobs.any fun effect =>
        effect.outcomeId = claim.outcomeId && effect.effectId ∈ fleet.allocated).map
    (·.outcomeId)

def releaseClaim (fleet : Fleet) (claimKey : String) : Fleet :=
  { fleet with
    pool := { fleet.pool with shared := fleet.ledger.deleteClaim claimKey }
    declaredDead := fleet.declaredDead ++ fleet.lostClaims (fleet.ledger.deleteClaim claimKey) }

def step (fleet : Fleet) : FleetEvent ι → Fleet
  | .work event allocates =>
      { fleet with
        pool := system.step fleet.pool event
        allocated := fleet.allocated ++
          if allocates then (executedEffect fleet.pool event).toList else []
        declaredDead := fleet.declaredDead ++
          fleet.lostClaims (system.step fleet.pool event).shared }
  | .assess sweep visit claimKey =>
      if sweep.condemns visit claimKey then { fleet with doomed := claimKey :: fleet.doomed }
      else fleet
  | .release claimKey succeeds =>
      if claimKey ∈ fleet.doomed then
        let settled := { fleet with doomed := fleet.doomed.erase claimKey }
        if succeeds then settled.releaseClaim claimKey else settled
      else fleet

end Fleet

def fleetMachine (ι : Type) : Machine Fleet (FleetEvent ι) := ⟨Fleet.step⟩

def Sweep.events {ι : Type} (sweep : Sweep) (visit : String → ClaimVisit ι)
    (claimKeys : List String) : List (FleetEvent ι) :=
  claimKeys.flatMap fun claimKey =>
    [.assess sweep (visit claimKey) claimKey,
      .release claimKey (visit claimKey).releaseError.isNone]

theorem visit_run {ι : Type} (sweep : Sweep) (visit : ClaimVisit ι) (claimKey : String)
    (fleet : Fleet) (hidle : fleet.doomed = []) :
    let visited := (fleet.step (.assess sweep visit claimKey)).step
      (.release claimKey visit.releaseError.isNone : FleetEvent ι)
    visited.doomed = [] ∧ visited.ledger =
      if sweep.condemns visit claimKey && visit.releaseError.isNone then
        fleet.ledger.deleteClaim claimKey
      else fleet.ledger := by
  cases hcondemned : sweep.condemns visit claimKey with
  | false => simp [Fleet.step, hcondemned, hidle]
  | true =>
    cases hrelease : visit.releaseError <;>
      simp [Fleet.step, hcondemned, hidle, Fleet.releaseClaim, Fleet.ledger]

theorem sweep_is_run {ι : Type} (sweep : Sweep) (visit : String → ClaimVisit ι) (fleet : Fleet)
    (hidle : fleet.doomed = []) (henabled : sweep.enabled) :
    ((fleetMachine ι).run fleet
        (sweep.events visit (fleet.ledger.engineerClaims.map (·.claimKey)))).ledger =
      (sweep.reapStaleClaims visit fleet.ledger).2 := by
  have hclaims (claimKeys : List String) (summary : ReapSummary ι) (fleet : Fleet)
      (hidle : fleet.doomed = []) :
      ((fleetMachine ι).run fleet (sweep.events visit claimKeys)).ledger =
        (claimKeys.foldl (fun state claimKey => sweep.reapClaim (visit claimKey) claimKey state)
          (summary, fleet.ledger)).2 := by
    induction claimKeys generalizing summary fleet with
    | nil => rfl
    | cons claimKey rest ih =>
      obtain ⟨hdoomed, hledger⟩ := visit_run sweep (visit claimKey) claimKey fleet hidle
      have hreaped := sweep.reapClaim_ledger (visit claimKey) claimKey (summary, fleet.ledger)
        henabled
      rw [List.foldl_cons]
      have hrest :=
        ih (sweep.reapClaim (visit claimKey) claimKey (summary, fleet.ledger)).1 _ hdoomed
      rw [hledger, ← hreaped] at hrest
      exact hrest
  unfold Sweep.reapStaleClaims
  rw [if_pos henabled]
  exact hclaims _ _ fleet hidle

/-- The effect is still to be carried out or being carried out. -/
def isOpen (effect : EffectRow) : Bool :=
  effect.state = .pending || effect.state = .running

section Moves

variable {policy : CapabilityPolicy} {env : Ambient} {ledger after : Ledger} {call : Call}

theorem draftApproval_privileged {authority : ApprovalAuthority} {effectId : String}
    {approval : PrivilegedApproval}
    (h : draftApproval env authority effectId ledger = .ok approval) :
    ∃ row, ∃ action : Action, ledger.effect effectId = some row ∧
      fromJson row.actionJson = some action ∧ action.privileged := by
  unfold draftApproval at h
  obtain ⟨found, hfound, h⟩ := bind_eq_ok.mp h
  rcases queryEffect_eq_ok hfound with ⟨-, rfl⟩ | ⟨row, job, hrow, rfl, hread⟩
  · cases h
  · simp only [bind_eq_ok, ensure_eq_ok] at h
    obtain ⟨_, _, _, hprivileged, -⟩ := h
    exact ⟨row, job.action, hrow, (readEffect_eq_ok hread).2.2.2.2.2.2.1, hprivileged⟩

theorem commit_spawn (hcommit : Commit policy env ledger call after) {effectId : String}
    {row : EffectRow} {spawn : SpawnEngineerAction} (hrow : ledger.effect effectId = some row)
    (hspawn : row.actionJson = toJson (Action.spawnEngineer spawn)) :
    ∃ row', after.effect effectId = some row' ∧ row.SameEffect row' ∧
      (isOpen row' → isOpen row) := by
  obtain ⟨row', hafter, hmove⟩ := commit_move hcommit hrow
  refine ⟨row', hafter, ?_⟩
  cases hmove with
  | same => exact ⟨⟨rfl, rfl, rfl, rfl, rfl⟩, id⟩
  | claimed _ _ hpending =>
    exact ⟨row.sameEffect_claimed _ _, fun _ => by simp [isOpen, hpending]⟩
  | recovered _ hexpired =>
    refine ⟨row.sameEffect_recovered, fun _ => ?_⟩
    simp only [EffectRow.expiredBy, Bool.and_eq_true, decide_eq_true_eq] at hexpired
    simp [isOpen, hexpired.1]
  | leased hchange hleased =>
    refine ⟨hchange.sameEffect row, fun _ => ?_⟩
    simp only [EffectRow.leasedTo, Bool.and_eq_true, decide_eq_true_eq] at hleased
    simp [isOpen, hleased.1.1.1.2]
  | @blocked _ _ reason =>
    refine ⟨row.sameEffect_blockedFor reason, fun hopen => ?_⟩
    have hclosed : isOpen (row.blockedFor reason) = false := rfl
    cases hclosed.symm.trans hopen
  | unblocked hcall hblocked =>
    -- only a privileged effect is unblocked, and a spawn is not
    exfalso
    subst hcall
    have hid := (Table.lookup_mem hrow).2
    cases hcommit with
    | approval hplan hfree hdraft hnew =>
      obtain ⟨found, action, hfound, haction, hprivileged⟩ := draftApproval_privileged hdraft
      rw [hid, hrow] at hfound
      cases hfound
      rw [hspawn, Serde.fromJson_toJson] at haction
      cases haction
      cases hprivileged
    | terminal =>
      have hsame : row = row.unblocked := Option.some.inj (hrow.symm.trans hafter)
      have hpending : row.state = .pending := congrArg EffectRow.state hsame
      exact absurd (hblocked.symm.trans hpending) (by decide)
    | claim hselects => cases hselects
    | leased hchange => cases hchange

/-- How a transaction may move the claims: not at all, adding no spawn either, or
by recording a spawn under a fresh outcome. -/
inductive ClaimMove (env : Ambient) (ledger after : Ledger) (call : Call) : Prop where
  | kept (hclaims : after.engineerClaims = ledger.engineerClaims)
      (hnew : ∀ effect ∈ after.effectJobs, ledger.effect effect.effectId = none →
        ∀ spawn, effect.actionJson ≠ toJson (Action.spawnEngineer spawn))
  | spawned (hcall : call = .recordAction actor request admission)
      (haction : request.action = .spawnEngineer spawn)
      (hfresh : ∀ old ∈ ledger.effectJobs, old.outcomeId ≠ outcome.outcomeId)
      (heffects : after.effectJobs =
        ledger.effectJobs ++ [newEffect effectId outcome (.spawnEngineer spawn)])
      (hclaims : ClaimsAfter env ledger.engineerClaims outcome (.spawnEngineer spawn)
        after.engineerClaims)

theorem claimMove_commit (hcommit : Commit policy env ledger call after)
    (hdirect : ∀ claimKey, call ≠ .releaseEngineerClaim claimKey) :
    ClaimMove env ledger after call := by
  have hnew (hcall : ∀ actor request admission, call ≠ .recordAction actor request admission) :
      ∀ effect ∈ after.effectJobs, ledger.effect effect.effectId = none →
        ∀ spawn, effect.actionJson ≠ toJson (Action.spawnEngineer spawn) := by
    intro effect heffect hnone
    rcases commit_absent hcommit hnone with habsent | ⟨actor, request, admission, hrecord⟩
    · exact absurd rfl (Table.lookup_eq_none.mp habsent effect heffect)
    · exact absurd hrecord (hcall actor request admission)
  have hsame (heffects : after.effectJobs = ledger.effectJobs) :
      ∀ effect ∈ after.effectJobs, ledger.effect effect.effectId = none →
        ∀ spawn, effect.actionJson ≠ toJson (Action.spawnEngineer spawn) := by
    intro effect heffect hnone
    rw [heffects] at heffect
    exact absurd rfl (Table.lookup_eq_none.mp hnone effect heffect)
  cases hcommit with
  | @release claimKey => exact (hdirect claimKey rfl).elim
  | @action actor request ticket admission claims hplan hfree hkey hadmitted hterminal
    hclaims heffect =>
    by_cases hspawn : ∃ spawn, request.action = .spawnEngineer spawn
    · obtain ⟨spawn, haction⟩ := hspawn
      rw [haction] at hclaims
      have heffects : ledger.effectJobs ++
            [newEffect (env.uuid 1) (actionOutcome env actor request admission) request.action] =
          ledger.effectJobs ++ [newEffect (env.uuid 1)
            (actionOutcome env actor request admission) (.spawnEngineer spawn)] := by
        rw [haction]
      exact .spawned rfl haction (fun old hold => (heffect old hold).2) heffects hclaims
    · have hunchanged : claims = ledger.engineerClaims := by
        generalize request.action = action at hclaims hspawn
        cases hclaims with
        | unchanged => rfl
        | added => exact absurd ⟨_, rfl⟩ hspawn
        | reclaimed => exact absurd ⟨_, rfl⟩ hspawn
      refine .kept hunchanged ?_
      intro effect hmem hnone spawn hjson
      rcases List.mem_append.mp hmem with hold | hadded
      · exact absurd rfl (Table.lookup_eq_none.mp hnone effect hold)
      · rw [List.mem_singleton.mp hadded] at hjson
        exact hspawn ⟨spawn, toJson_injective hjson⟩
  | claim hselects => exact .kept rfl (hnew (by cases hselects <;> simp))
  | leased hchange => exact .kept rfl (hnew (by cases hchange <;> simp))
  | reserve hplan hfree hslot =>
    have hframe := reserveProcessSlot_frame hslot
    have hclaims := congrArg Ledger.engineerClaims hframe
    have heffects := congrArg Ledger.effectJobs hframe
    exact .kept hclaims (hsame heffects)
  | terminal => exact .kept rfl (hsame rfl)
  | approval => exact .kept rfl (hnew (by simp))
  | recover => exact .kept rfl (hnew (by simp))
  | block => exact .kept rfl (hnew (by simp))
  | _ => exact .kept rfl (hsame rfl)

end Moves

/-- The claim is committed and its effect is open, but no worktree has been
allocated for it yet. -/
def Fleet.InWindow (fleet : Fleet) (claimKey : String) : Prop :=
  ∃ claim ∈ fleet.ledger.engineerClaims, claim.claimKey = claimKey ∧
    ∃ effect ∈ fleet.ledger.effectJobs, effect.outcomeId = claim.outcomeId ∧ isOpen effect ∧
      effect.effectId ∉ fleet.allocated

def Fleet.Interleaves {ι : Type} (fleet : Fleet) : FleetEvent ι → Prop
  | .work event _ => ∀ op, operationOf fleet.pool event = some op →
      ∀ claimKey, op.call ≠ .releaseEngineerClaim claimKey
  | _ => True

/-- No claim in the window is taken for dead: a sweep that looks at one spares it,
a recording that collides with one is told that its engineer lives, and no spawn
is recorded under a key that a sweep is about to release. -/
def Fleet.SparesWindow {ι : Type} (fleet : Fleet) : FleetEvent ι → Prop
  | .work event _ => ∀ op actor request admission spawn,
      operationOf fleet.pool event = some op → op.call = .recordAction actor request admission →
      request.action = .spawnEngineer spawn → op.commit fleet.ledger ≠ fleet.ledger →
        spawn.claimKey ∉ fleet.doomed ∧
          (fleet.InWindow spawn.claimKey → TypedOoda.claimIsLive op.env spawn.claimKey)
  | .assess sweep visit claimKey => fleet.InWindow claimKey → sweep.Spares visit claimKey
  | .release .. => True

/-- What holds along every such run. -/
structure Fleet.Sound (fleet : Fleet) : Prop where
  keys : fleet.ledger.KeysUnique
  claimEffect : ∀ claim ∈ fleet.ledger.engineerClaims, ∃ effect ∈ fleet.ledger.effectJobs,
    effect.outcomeId = claim.outcomeId ∧
      ∃ spawn, effect.actionJson = toJson (Action.spawnEngineer spawn) ∧
        spawn.claimKey = claim.claimKey
  doomed : ∀ claimKey ∈ fleet.doomed, ¬ fleet.InWindow claimKey
  held : ∀ effect ∈ fleet.ledger.effectJobs, isOpen effect → ∀ spawn,
    effect.actionJson = toJson (Action.spawnEngineer spawn) →
      (∃ claim ∈ fleet.ledger.engineerClaims, claim.claimKey = spawn.claimKey ∧
        claim.outcomeId = effect.outcomeId) ∨ effect.outcomeId ∈ fleet.declaredDead

theorem sound_init : Fleet.init.Sound where
  keys := keysUnique_empty
  claimEffect := by simp [Fleet.init, Fleet.ledger, Pool.init, Ledger.empty]
  doomed := by simp [Fleet.init]
  held := by simp [Fleet.init, Fleet.ledger, Pool.init, Ledger.empty]

section Preservation

variable {ι : Type} {fleet : Fleet}

theorem Fleet.Sound.claim_eq (h : fleet.Sound) {claim claim' : ClaimRow}
    (hclaim : claim ∈ fleet.ledger.engineerClaims) (hclaim' : claim' ∈ fleet.ledger.engineerClaims)
    (houtcome : claim.outcomeId = claim'.outcomeId) : claim = claim' := by
  obtain ⟨effect, heffect, hid, spawn, hjson, hkey⟩ := h.claimEffect claim hclaim
  obtain ⟨effect', heffect', hid', spawn', hjson', hkey'⟩ := h.claimEffect claim' hclaim'
  obtain rfl := h.keys.effectOutcome.eq_of_key heffect heffect'
    (hid.trans (houtcome.trans hid'.symm))
  have hspawn : Action.spawnEngineer spawn = .spawnEngineer spawn' :=
    toJson_injective (hjson.symm.trans hjson')
  cases hspawn
  exact h.keys.claim.eq_of_key hclaim hclaim' (hkey.symm.trans hkey')

theorem mem_lostClaims {after : Ledger} {claim : ClaimRow} {effect : EffectRow}
    (hclaim : claim ∈ fleet.ledger.engineerClaims)
    (hgone : ∀ other ∈ after.engineerClaims, other.outcomeId ≠ claim.outcomeId)
    (heffect : effect ∈ fleet.ledger.effectJobs) (hid : effect.outcomeId = claim.outcomeId)
    (hallocated : effect.effectId ∈ fleet.allocated) :
    claim.outcomeId ∈ fleet.lostClaims after := by
  refine List.mem_map.mpr ⟨claim, List.mem_filter.mpr ⟨hclaim, ?_⟩, rfl⟩
  simp only [Bool.and_eq_true, List.all_eq_true, List.any_eq_true, decide_eq_true_eq]
  exact ⟨hgone, effect, heffect, hid, hallocated⟩

theorem lost_outside_window {after : Ledger} {claim : ClaimRow} {effect : EffectRow}
    (hclaim : claim ∈ fleet.ledger.engineerClaims)
    (heffect : effect ∈ fleet.ledger.effectJobs) (hid : claim.outcomeId = effect.outcomeId)
    (hopen : isOpen effect) (hwindow : ¬ fleet.InWindow claim.claimKey)
    (hgone : ∀ other ∈ after.engineerClaims, other.outcomeId ≠ claim.outcomeId) :
    effect.outcomeId ∈ fleet.lostClaims after := by
  have hallocated : effect.effectId ∈ fleet.allocated := by
    by_contra hnot
    exact hwindow ⟨claim, hclaim, rfl, effect, heffect, hid.symm, hopen, hnot⟩
  rw [← hid]
  exact mem_lostClaims hclaim hgone heffect hid.symm hallocated

theorem Fleet.Sound.releaseClaim (h : fleet.Sound) {claimKey : String}
    (hwindow : ¬ fleet.InWindow claimKey) : (fleet.releaseClaim claimKey).Sound := by
  have hclaims {claim : ClaimRow} : claim ∈ (fleet.ledger.deleteClaim claimKey).engineerClaims ↔
      claim ∈ fleet.ledger.engineerClaims ∧ claim.claimKey ≠ claimKey := by
    simp [Ledger.deleteClaim, Table.mem_deleteWhere]
  refine ⟨?_, ?_, ?_, ?_⟩
  · exact { h.keys with claim := h.keys.claim.deleteWhere _ }
  · intro claim hclaim
    exact h.claimEffect claim (hclaims.mp hclaim).1
  · rintro key hkey ⟨claim, hclaim, hrest⟩
    exact h.doomed key hkey ⟨claim, (hclaims.mp hclaim).1, hrest⟩
  · intro effect heffect hopen spawn hjson
    rcases h.held effect heffect hopen spawn hjson with ⟨claim, hclaim, hkey, hid⟩ | hdead
    · by_cases hreleased : claim.claimKey = claimKey
      · right
        apply List.mem_append_right
        apply lost_outside_window hclaim heffect hid hopen (hreleased ▸ hwindow)
        intro other hother hsame
        obtain ⟨hmem, hne⟩ := hclaims.mp hother
        rw [h.claim_eq hmem hclaim hsame] at hne
        exact hne hreleased
      · exact .inl ⟨claim, hclaims.mpr ⟨hclaim, hreleased⟩, hkey, hid⟩
    · exact .inr (List.mem_append_left _ hdead)

theorem Fleet.Sound.successor (h : fleet.Sound) {policy : CapabilityPolicy} {env : Ambient}
    {call : Call} {after : Ledger} (hcommit : Commit policy env fleet.ledger call after)
    {claim : ClaimRow} (hclaim : claim ∈ fleet.ledger.engineerClaims) :
    ∃ effect ∈ fleet.ledger.effectJobs, ∃ effect' ∈ after.effectJobs,
      effect.outcomeId = claim.outcomeId ∧ effect.SameEffect effect' ∧
      (isOpen effect' → isOpen effect) ∧
      ∃ spawn, effect.actionJson = toJson (Action.spawnEngineer spawn) ∧
        spawn.claimKey = claim.claimKey := by
  obtain ⟨effect, heffect, hid, spawn, hjson, hkey⟩ := h.claimEffect claim hclaim
  obtain ⟨effect', hafter, hsame, hopen⟩ :=
    commit_spawn hcommit (h.keys.effect.lookup_eq heffect) hjson
  exact ⟨effect, heffect, effect', (Table.lookup_mem hafter).1, hid, hsame, hopen, spawn, hjson,
    hkey⟩

theorem Fleet.Sound.kept (h : fleet.Sound) {policy : CapabilityPolicy} {env : Ambient}
    {call : Call} {next : Fleet} (hcommit : Commit policy env fleet.ledger call next.ledger)
    (hclaims : next.ledger.engineerClaims = fleet.ledger.engineerClaims)
    (hnew : ∀ effect ∈ next.ledger.effectJobs, fleet.ledger.effect effect.effectId = none →
      ∀ spawn, effect.actionJson ≠ toJson (Action.spawnEngineer spawn))
    (hdoomed : next.doomed = fleet.doomed) (hallocated : fleet.allocated ⊆ next.allocated)
    (hdead : fleet.declaredDead ⊆ next.declaredDead) : next.Sound := by
  have hkeys := keysUnique_commit hcommit h.keys
  refine ⟨hkeys, ?_, ?_, ?_⟩
  · intro claim hclaim
    rw [hclaims] at hclaim
    obtain ⟨effect, -, effect', hafter, hid, hsame, -, spawn, hjson, hkey⟩ :=
      h.successor hcommit hclaim
    exact ⟨effect', hafter, hsame.outcomeId.trans hid, spawn, hsame.actionJson.trans hjson, hkey⟩
  · rintro key hkey ⟨claim, hclaim, hclaimKey, effect', heffect', hid', hopen', hnot⟩
    rw [hdoomed] at hkey
    rw [hclaims] at hclaim
    obtain ⟨effect, heffect, successor, hsuccessor, hid, hsame, hopen, -⟩ :=
      h.successor hcommit hclaim
    obtain rfl := hkeys.effectOutcome.eq_of_key hsuccessor heffect'
      ((hsame.outcomeId.trans hid).trans hid'.symm)
    refine h.doomed key hkey ⟨claim, hclaim, hclaimKey, effect, heffect, hid, hopen hopen', ?_⟩
    intro hmem
    rw [hsame.effectId] at hnot
    exact hnot (hallocated hmem)
  · intro effect' heffect' hopen' spawn hjson'
    cases hold : fleet.ledger.effect effect'.effectId with
    | none => exact absurd hjson' (hnew effect' heffect' hold spawn)
    | some effect =>
      obtain ⟨moved, hmoved, hmove⟩ := commit_move hcommit hold
      obtain rfl : moved = effect' :=
        Option.some.inj (hmoved.symm.trans (hkeys.effect.lookup_eq heffect'))
      have hjson : effect.actionJson = toJson (Action.spawnEngineer spawn) :=
        hmove.sameEffect.actionJson.symm.trans hjson'
      obtain ⟨successor, hsuccessor, hsame, hopen⟩ := commit_spawn hcommit hold hjson
      obtain rfl := Option.some.inj (hmoved.symm.trans hsuccessor)
      rw [hclaims, hsame.outcomeId]
      rcases h.held effect (Table.lookup_mem hold).1 (hopen hopen') spawn hjson with hclaim | hlost
      · exact .inl hclaim
      · exact .inr (hdead hlost)

theorem claimsAfter_spawn {env : Ambient} {claims claims' : List ClaimRow}
    {outcome : TerminalOutcome} {spawn : SpawnEngineerAction}
    (h : ClaimsAfter env claims outcome (.spawnEngineer spawn) claims') :
    (∀ claim, claim ∈ claims' ↔ (claim ∈ claims ∧ claim.claimKey ≠ spawn.claimKey) ∨
      claim = ⟨spawn.claimKey, outcome.outcomeId, outcome.requestId⟩) ∧
    ∀ old ∈ claims, old.claimKey = spawn.claimKey →
      TypedOoda.claimIsLive env spawn.claimKey = false := by
  cases h with
  | unchanged hne => exact absurd rfl (hne spawn)
  | added hkey houtcome =>
    constructor
    · intro claim
      rw [List.mem_append, List.mem_singleton]
      exact or_congr_left ⟨fun hmem => ⟨hmem, hkey claim hmem⟩, And.left⟩
    · intro old hold hsame
      exact absurd hsame (hkey old hold)
  | reclaimed hlive houtcome =>
    constructor
    · intro claim
      simp [Table.mem_deleteWhere]
    · intro _ _ _
      exact hlive

theorem Fleet.Sound.spawned (h : fleet.Sound) {env : Ambient} {next : Fleet}
    {spawn : SpawnEngineerAction} {outcome : TerminalOutcome} {effectId : String}
    (hkeys : next.ledger.KeysUnique)
    (hfresh : ∀ old ∈ fleet.ledger.effectJobs, old.outcomeId ≠ outcome.outcomeId)
    (heffects : next.ledger.effectJobs =
      fleet.ledger.effectJobs ++ [newEffect effectId outcome (.spawnEngineer spawn)])
    (hclaims : ClaimsAfter env fleet.ledger.engineerClaims outcome (.spawnEngineer spawn)
      next.ledger.engineerClaims)
    (hguard : spawn.claimKey ∉ fleet.doomed ∧
      (fleet.InWindow spawn.claimKey → TypedOoda.claimIsLive env spawn.claimKey))
    (hdoomed : next.doomed = fleet.doomed) (hallocated : fleet.allocated ⊆ next.allocated)
    (hdead : fleet.declaredDead ++ fleet.lostClaims next.ledger ⊆ next.declaredDead) :
    next.Sound := by
  obtain ⟨hmem, hreclaimed⟩ := claimsAfter_spawn hclaims
  have hclaimFresh {claim : ClaimRow} (hclaim : claim ∈ fleet.ledger.engineerClaims) :
      claim.outcomeId ≠ outcome.outcomeId := by
    obtain ⟨effect, heffect, hid, -⟩ := h.claimEffect claim hclaim
    rw [← hid]
    exact hfresh effect heffect
  refine ⟨hkeys, ?_, ?_, ?_⟩
  · intro claim hclaim
    rw [heffects]
    rcases (hmem claim).mp hclaim with ⟨hold, -⟩ | rfl
    · obtain ⟨effect, heffect, hrest⟩ := h.claimEffect claim hold
      exact ⟨effect, List.mem_append_left _ heffect, hrest⟩
    · exact ⟨_, List.mem_append_right _ (List.mem_singleton.mpr rfl), rfl, spawn, rfl, rfl⟩
  · rintro key hkey ⟨claim, hclaim, hclaimKey, effect, heffect, hid, hopen, hnot⟩
    rw [hdoomed] at hkey
    rw [heffects] at heffect
    rcases (hmem claim).mp hclaim with ⟨hold, -⟩ | rfl
    · rcases List.mem_append.mp heffect with hmemEffect | hadded
      · exact h.doomed key hkey ⟨claim, hold, hclaimKey, effect, hmemEffect, hid, hopen,
          fun hallocatedBefore => hnot (hallocated hallocatedBefore)⟩
      · rw [List.mem_singleton.mp hadded] at hid
        exact hclaimFresh hold hid.symm
    · subst hclaimKey
      exact hguard.1 hkey
  · intro effect heffect hopen other hjson
    rw [heffects] at heffect
    rcases List.mem_append.mp heffect with hold | hadded
    · rcases h.held effect hold hopen other hjson with ⟨claim, hclaim, hkey, hid⟩ | hlost
      · by_cases hcollides : claim.claimKey = spawn.claimKey
        · have hwindow : ¬ fleet.InWindow claim.claimKey := by
            intro hin
            rw [hcollides] at hin
            exact absurd (hguard.2 hin) (by simp [hreclaimed claim hclaim hcollides])
          right
          apply hdead
          apply List.mem_append_right
          apply lost_outside_window hclaim hold hid hopen hwindow
          intro after hafter hsame
          rcases (hmem after).mp hafter with ⟨hmemAfter, hne⟩ | rfl
          · rw [h.claim_eq hmemAfter hclaim hsame] at hne
            exact hne hcollides
          · exact hclaimFresh hclaim hsame.symm
        · exact .inl ⟨claim, (hmem claim).mpr (.inl ⟨hclaim, hcollides⟩), hkey, hid⟩
      · exact .inr (hdead (List.mem_append_left _ hlost))
    · rw [List.mem_singleton.mp hadded] at hjson ⊢
      have hspawn : Action.spawnEngineer spawn = .spawnEngineer other := toJson_injective hjson
      cases hspawn
      exact .inl ⟨_, (hmem _).mpr (.inr rfl), rfl, rfl⟩

theorem Fleet.Sound.idle (h : fleet.Sound) {next : Fleet} (hledger : next.ledger = fleet.ledger)
    (hdoomed : next.doomed ⊆ fleet.doomed) (hallocated : fleet.allocated ⊆ next.allocated)
    (hdead : fleet.declaredDead ⊆ next.declaredDead) : next.Sound := by
  refine ⟨hledger ▸ h.keys, hledger ▸ h.claimEffect, ?_, ?_⟩
  · rintro key hkey ⟨claim, hclaim, hclaimKey, effect, heffect, hid, hopen, hnot⟩
    rw [hledger] at hclaim heffect
    exact h.doomed key (hdoomed hkey) ⟨claim, hclaim, hclaimKey, effect, heffect, hid, hopen,
      fun hbefore => hnot (hallocated hbefore)⟩
  · intro effect heffect hopen spawn hjson
    rw [hledger] at heffect ⊢
    rcases h.held effect heffect hopen spawn hjson with hclaim | hlost
    · exact .inl hclaim
    · exact .inr (hdead hlost)

theorem sound_step (event : FleetEvent ι)
    (hok : fleet.Interleaves event ∧ fleet.SparesWindow event) (h : fleet.Sound) :
    (fleet.step event).Sound := by
  obtain ⟨hdirect, hspares⟩ := hok
  cases event with
  | work event allocates =>
    have hallocated :
        fleet.allocated ⊆ (fleet.step (.work event allocates : FleetEvent ι)).allocated :=
      List.subset_append_left _ _
    have hdead : fleet.declaredDead ++ fleet.lostClaims (system.step fleet.pool event).shared ⊆
        (fleet.step (.work event allocates : FleetEvent ι)).declaredDead := fun _ hid => hid
    rcases step_ledger_cases fleet.pool event with hsame | ⟨op, hop, hcommit⟩
    · exact h.idle hsame (fun _ hkey => hkey) hallocated
        (fun _ hid => hdead (List.mem_append_left _ hid))
    · have hmove := claimMove_commit hcommit (hdirect op hop)
      have hafter : op.commit fleet.ledger = (system.step fleet.pool event).shared := by
        rw [step_ledger, hop]
        rfl
      cases hmove with
      | kept hclaims hnew =>
        exact h.kept hcommit hclaims hnew rfl hallocated
          (fun _ hid => hdead (List.mem_append_left _ hid))
      | spawned hcall haction hfresh heffects hclaims =>
        have hchanged : op.commit fleet.ledger ≠ fleet.ledger := by
          intro hunchanged
          rw [hafter] at hunchanged
          have hlength := congrArg (fun ledger => ledger.effectJobs.length) hunchanged
          simp only [heffects] at hlength
          simp [Fleet.ledger] at hlength
        have hguard := hspares op _ _ _ _ hop hcall haction hchanged
        exact h.spawned (keysUnique_commit hcommit h.keys) hfresh heffects hclaims hguard rfl
          hallocated hdead
  | assess sweep visit claimKey =>
    by_cases hcondemned : sweep.condemns visit claimKey
    · have hwindow : ¬ fleet.InWindow claimKey := by
        intro hin
        have hspared := sweep.condemns_eq_false.mpr (hspares hin)
        cases hspared.symm.trans hcondemned
      rw [Fleet.step, if_pos hcondemned]
      refine ⟨h.keys, h.claimEffect, ?_, h.held⟩
      intro key hkey
      rcases List.mem_cons.mp hkey with rfl | hkey
      · exact hwindow
      · exact h.doomed key hkey
    · rw [Fleet.step, if_neg hcondemned]
      exact h
  | release claimKey succeeds =>
    by_cases hdoomed : claimKey ∈ fleet.doomed
    · have hsettled : Fleet.Sound { fleet with doomed := fleet.doomed.erase claimKey } :=
        h.idle rfl (fun _ hkey => List.mem_of_mem_erase hkey) (fun _ hid => hid) (fun _ hid => hid)
      rw [Fleet.step, if_pos hdoomed]
      cases succeeds with
      | true => exact hsettled.releaseClaim (h.doomed claimKey hdoomed)
      | false => exact hsettled
    · rw [Fleet.step, if_neg hdoomed]
      exact h

theorem Fleet.Sound.one_open (h : fleet.Sound) {first second : EffectRow}
    {spawn spawn' : SpawnEngineerAction} (hfirst : first ∈ fleet.ledger.effectJobs)
    (hsecond : second ∈ fleet.ledger.effectJobs) (hne : first ≠ second)
    (hopen : isOpen first) (hopen' : isOpen second)
    (hjson : first.actionJson = toJson (Action.spawnEngineer spawn))
    (hjson' : second.actionJson = toJson (Action.spawnEngineer spawn'))
    (hkey : spawn.claimKey = spawn'.claimKey) :
    first.outcomeId ∈ fleet.declaredDead ∨ second.outcomeId ∈ fleet.declaredDead := by
  rcases h.held first hfirst hopen spawn hjson with ⟨claim, hclaim, hclaimKey, hid⟩ | hdead
  · rcases h.held second hsecond hopen' spawn' hjson' with ⟨claim', hclaim',
      hclaimKey', hid'⟩ | hdead
    · exfalso
      obtain rfl := h.keys.claim.eq_of_key hclaim hclaim'
        (hclaimKey.trans (hkey.trans hclaimKey'.symm))
      exact hne (h.keys.effectOutcome.eq_of_key hfirst hsecond (hid.symm.trans hid'))
    · exact .inr hdead
  · exact .inl hdead

end Preservation

/-- As long as no claim in the window is taken for dead, no sweep releases one,
and of two open spawns under one key one lost its claim after its worktree stood. -/
theorem sweeps_spare_open_spawns {ι : Type} (events : List (FleetEvent ι))
    (hinterleaves : ∀ step ∈ (fleetMachine ι).trace Fleet.init events,
      step.before.Interleaves step.event)
    (hspares : ∀ step ∈ (fleetMachine ι).trace Fleet.init events,
      step.before.SparesWindow step.event) :
    (∀ step ∈ (fleetMachine ι).trace Fleet.init events, ∀ claimKey succeeds,
      step.event = .release claimKey succeeds → claimKey ∈ step.before.doomed →
        ¬ step.before.InWindow claimKey) ∧
    ∀ first ∈ ((fleetMachine ι).run Fleet.init events).ledger.effectJobs,
      ∀ second ∈ ((fleetMachine ι).run Fleet.init events).ledger.effectJobs,
      ∀ spawn spawn', first ≠ second → isOpen first → isOpen second →
        first.actionJson = toJson (Action.spawnEngineer spawn) →
        second.actionJson = toJson (Action.spawnEngineer spawn') →
        spawn.claimKey = spawn'.claimKey →
          first.outcomeId ∈ ((fleetMachine ι).run Fleet.init events).declaredDead ∨
            second.outcomeId ∈ ((fleetMachine ι).run Fleet.init events).declaredDead := by
  have hstep (fleet : Fleet) (event : FleetEvent ι)
      (hok : fleet.Interleaves event ∧ fleet.SparesWindow event) (h : fleet.Sound) :
      ((fleetMachine ι).step fleet event).Sound := sound_step event hok h
  have hok : ∀ step ∈ (fleetMachine ι).trace Fleet.init events,
      step.before.Interleaves step.event ∧ step.before.SparesWindow step.event :=
    fun step hmem => ⟨hinterleaves step hmem, hspares step hmem⟩
  constructor
  · intro step hmem claimKey succeeds _ hdoomed
    exact ((fleetMachine ι).invariant_trace_of hstep sound_init hok hmem).doomed claimKey hdoomed
  · intro first hfirst second hsecond spawn spawn' hne hopen hopen' hjson hjson' hkey
    exact ((fleetMachine ι).invariant_run_of hstep sound_init events hok).one_open
      hfirst hsecond hne
      hopen hopen' hjson hjson' hkey

def simard : RepositoryRef := ⟨"rysweet", "Simard"⟩

def recordSpawn (session request : String) : Call :=
  .recordAction { spawnActor simard "goal-1" with sessionId := session }
    { spawnRequest simard "goal-1" with identity := ⟨request, session, "cycle-1", "goal-1"⟩ }
    ⟨0, 0, ∅, "policy-1"⟩

def hourlySweep : Sweep := ⟨true, 3600, .new⟩

/-- A readable worktrees root with these directories; nobody is investigated. -/
def visitOf (entries : List ReaperEntry) : ClaimVisit Unit :=
  ⟨some entries, fun _ _ => ⟨.stillAlive, []⟩, none, none⟩

def earlierWorktree : ReaperEntry :=
  ⟨⟨some "goal-1-1783168109-b000d0", true, none⟩, some 60, none⟩

def sparedSpawn : List (FleetEvent Unit) :=
  [.work (.start (.call (spawnPolicy simard) (recordSpawn "session-1" "request-1") rfl)) false,
    .work (.advance 0 (sampleWorld "a" false 0)) false,
    .assess hourlySweep (visitOf [earlierWorktree]) "rysweet/Simard:goal-1",
    .release "rysweet/Simard:goal-1" true]

theorem sparedSpawn_interleaves : ∀ step ∈ (fleetMachine Unit).trace Fleet.init sparedSpawn,
    step.before.Interleaves step.event := by
  intro step hstep
  rcases List.mem_cons.mp hstep with rfl | hstep
  · intro op hop
    cases hop
  rcases List.mem_cons.mp hstep with rfl | hstep
  · intro op hop claimKey hcall
    cases hop
    cases hcall
  rcases List.mem_cons.mp hstep with rfl | hstep
  · trivial
  rcases List.mem_cons.mp hstep with rfl | hstep
  · trivial
  cases hstep

theorem sparedSpawn_spares : ∀ step ∈ (fleetMachine Unit).trace Fleet.init sparedSpawn,
    step.before.SparesWindow step.event := by
  intro step hstep
  rcases List.mem_cons.mp hstep with rfl | hstep
  · intro op actor request admission spawn hop
    cases hop
  rcases List.mem_cons.mp hstep with rfl | hstep
  · intro op actor request admission spawn hop hcall haction hchanged
    refine ⟨List.not_mem_nil, ?_⟩
    rintro ⟨claim, hclaim, -⟩
    cases hclaim
  rcases List.mem_cons.mp hstep with rfl | hstep
  · intro hwindow
    rw [← hourlySweep.condemns_eq_false]
    decide
  rcases List.mem_cons.mp hstep with rfl | hstep
  · trivial
  cases hstep

theorem spared_spawn_stands :
    ((fleetMachine Unit).run Fleet.init sparedSpawn).InWindow "rysweet/Simard:goal-1" ∧
    (∀ step ∈ (fleetMachine Unit).trace Fleet.init sparedSpawn, ∀ claimKey succeeds,
      step.event = .release claimKey succeeds → claimKey ∈ step.before.doomed →
        ¬ step.before.InWindow claimKey) :=
  ⟨⟨_, .head _, rfl, _, .head _, rfl, rfl, List.not_mem_nil⟩,
    (sweeps_spare_open_spawns sparedSpawn sparedSpawn_interleaves sparedSpawn_spares).1⟩

/-- A spawn is recorded and, before its dispatch, a sweep finds no worktree yet;
the next recording of the goal finds the key free. -/
def sweptSpawn : List (FleetEvent Unit) :=
  [.work (.start (.call (spawnPolicy simard) (recordSpawn "session-1" "request-1") rfl)) false,
    .work (.advance 0 (sampleWorld "a" false 0)) false,
    .assess hourlySweep (visitOf []) "rysweet/Simard:goal-1",
    .release "rysweet/Simard:goal-1" true,
    .work (.start (.call (spawnPolicy simard) (recordSpawn "session-2" "request-2") rfl)) false,
    .work (.advance 1 (sampleWorld "b" false 0)) false]

theorem sweptSpawn_interleaves : ∀ step ∈ (fleetMachine Unit).trace Fleet.init sweptSpawn,
    step.before.Interleaves step.event := by
  intro step hstep
  rcases List.mem_cons.mp hstep with rfl | hstep
  · intro op hop
    cases hop
  rcases List.mem_cons.mp hstep with rfl | hstep
  · intro op hop claimKey hcall
    cases hop
    cases hcall
  rcases List.mem_cons.mp hstep with rfl | hstep
  · trivial
  rcases List.mem_cons.mp hstep with rfl | hstep
  · trivial
  rcases List.mem_cons.mp hstep with rfl | hstep
  · intro op hop
    cases hop
  rcases List.mem_cons.mp hstep with rfl | hstep
  · intro op hop claimKey hcall
    cases hop
    cases hcall
  cases hstep

/-- The sweep releases a claim whose effect is pending, and two spawns of one key
are pending at once though no engineer was declared dead after its worktree stood. -/
theorem swept_spawn_doubled :
    (∀ step ∈ (fleetMachine Unit).trace Fleet.init sweptSpawn,
      step.before.Interleaves step.event) ∧
    (∃ step ∈ (fleetMachine Unit).trace Fleet.init sweptSpawn,
      step.event = .release "rysweet/Simard:goal-1" true ∧
        "rysweet/Simard:goal-1" ∈ step.before.doomed ∧
        step.before.InWindow "rysweet/Simard:goal-1") ∧
    (∃ first ∈ ((fleetMachine Unit).run Fleet.init sweptSpawn).ledger.effectJobs,
      ∃ second ∈ ((fleetMachine Unit).run Fleet.init sweptSpawn).ledger.effectJobs,
        first ≠ second ∧ isOpen first ∧ isOpen second ∧
        first.actionJson = toJson (Action.spawnEngineer (plainSpawn simard "goal-1")) ∧
        second.actionJson = toJson (Action.spawnEngineer (plainSpawn simard "goal-1"))) ∧
    ((fleetMachine Unit).run Fleet.init sweptSpawn).declaredDead = [] := by
  let recorded := (fleetMachine Unit).run Fleet.init (sweptSpawn.take 3)
  refine ⟨sweptSpawn_interleaves, ?_, ?_, rfl⟩
  · refine ⟨⟨recorded, _, (fleetMachine Unit).step recorded _⟩,
      .tail _ (.tail _ (.tail _ (.head _))), rfl, by decide, ?_⟩
    exact ⟨_, .head _, rfl, _, .head _, rfl, rfl, List.not_mem_nil⟩
  · exact ⟨_, .head _, _, .tail _ (.head _), by decide, rfl, rfl, rfl, rfl⟩

end Simard.Engineers
