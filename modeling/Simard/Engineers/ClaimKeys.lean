import Simard.Goals.Board
import Simard.TypedOoda.System

/-! The claim of an engineer is named by one key, `owner/name:goal`. It is built
when an action is recorded, when the board is summarised for admission and when
an engineer's claim is released, and taken apart again to ask whether the
engineer lives and whether its claim is stale. -/
namespace Simard.Engineers
open Simard.Library Simard.TypedOoda Simard.Goals

structure FilesystemStats where
  blocks : Nat
  blocksAvailable : Nat
  deriving DecidableEq

/-- Used space in whole percent; the multiplication saturates at 64 bits. -/
def diskUsedPercent (stats : Option FilesystemStats) : Option Nat :=
  stats.bind fun stats =>
    if stats.blocks = 0 then none
    else
      let used := stats.blocks - stats.blocksAvailable
      some (min (min (used * 100) (2 ^ 64 - 1) / stats.blocks) 100)

/-- An assigned goal occupies a slot and a claim, under its slug as stored. -/
def admitGoal (seen : Nat × BTreeSet String) (goal : ActiveGoal) : Nat × BTreeSet String :=
  if goal.assignedTo.isSome then
    (seen.1 + 1, seen.2.insert (goal.repo.getD "rysweet/Simard" ++ ":" ++ goal.id))
  else seen

def admissionSnapshot (board : GoalBoard) (stats : Option FilesystemStats)
    (policyRevision : String) : AdmissionSnapshot :=
  let seen := board.active.foldl admitGoal (0, ∅)
  { concurrentEngineers := seen.1
    diskUsedPercent := (diskUsedPercent stats).getD 100
    activeClaims := seen.2
    policyRevision := policyRevision }

def goalRepository (goal : ActiveGoal) : RepositoryRef := .fromGoalSlug goal.repo

def spawnClaim (goal : ActiveGoal) : String := expectedClaim (goalRepository goal) goal.id

def releaseEngineerClaimForGoal (board : GoalBoard) (goalId : String) (ledger : Ledger) :
    CapabilityResult (Unit × Ledger) :=
  let repoSlug := (board.active.find? (·.id = goalId)).bind (·.repo)
  let repository := RepositoryRef.fromGoalSlug repoSlug
  releaseEngineerClaim (repository.owner ++ "/" ++ repository.name ++ ":" ++ goalId) ledger

def livenessGoalId (claimKey : String) : Option String := (splitOnce ':' claimKey).map Prod.snd

def goalIdFromClaimKey (claimKey : String) : String :=
  match rsplitOnce ':' claimKey with
  | some (_, goal) => goal
  | none => claimKey

theorem contains_admitGoal (goals : List ActiveGoal) (seen : Nat × BTreeSet String) (key : String) :
    (goals.foldl admitGoal seen).2.contains key ↔
      seen.2.contains key ∨ ∃ goal ∈ goals, goal.assignedTo.isSome ∧
        goal.repo.getD "rysweet/Simard" ++ ":" ++ goal.id = key := by
  induction goals generalizing seen with
  | nil => simp
  | cons goal rest ih =>
    rw [List.foldl_cons, ih]
    unfold admitGoal
    by_cases hassigned : goal.assignedTo.isSome <;> simp [hassigned]
    grind

theorem contains_activeClaims {board : GoalBoard} {stats : Option FilesystemStats}
    {policyRevision key : String} :
    (admissionSnapshot board stats policyRevision).activeClaims.contains key ↔
      ∃ goal ∈ board.active, goal.assignedTo.isSome ∧
        goal.repo.getD "rysweet/Simard" ++ ":" ++ goal.id = key := by
  unfold admissionSnapshot
  rw [contains_admitGoal]
  simp [BTreeSet.contains, EmptyCollection.emptyCollection, BTreeSet.empty]

def qualifiedSlug : Option String → String
  | none => "rysweet/Simard"
  | some slug => if '/' ∈ slug.toList then slug else "rysweet/" ++ slug

theorem fromGoalSlug_fullName (slug : Option String) :
    (RepositoryRef.fromGoalSlug slug).owner ++ "/" ++ (RepositoryRef.fromGoalSlug slug).name =
      qualifiedSlug slug := by
  cases slug with
  | none => rfl
  | some slug =>
    simp only [RepositoryRef.fromGoalSlug, qualifiedSlug]
    by_cases hslash : '/' ∈ slug.toList
    · obtain ⟨owner, name, hslug, howner⟩ := List.eq_append_cons_of_mem hslash
      have hsplit : splitOnce '/' slug = some (String.ofList owner, String.ofList name) := by
        rw [splitOnce_eq_some]
        simpa using ⟨hslug, howner⟩
      rw [hsplit, if_pos hslash]
      apply String.toList_injective
      simp [hslug]
    · rw [splitOnce_of_notMem hslash, if_neg hslash]
      rfl

theorem spawnClaim_eq (goal : ActiveGoal) :
    spawnClaim goal = qualifiedSlug goal.repo ++ ":" ++ goal.id := by
  unfold spawnClaim expectedClaim goalRepository
  rw [fromGoalSlug_fullName]

theorem releaseEngineerClaimForGoal_eq (board : GoalBoard) (goalId : String) (ledger : Ledger) :
    releaseEngineerClaimForGoal board goalId ledger = .ok ((), ledger.deleteClaim
      (qualifiedSlug ((board.active.find? (·.id = goalId)).bind (·.repo)) ++ ":" ++ goalId)) := by
  simp only [releaseEngineerClaimForGoal, releaseEngineerClaim, fromGoalSlug_fullName]

/-- The board summary, the admission check and the release all name the claim a
spawn for this goal has to carry. -/
structure ClaimNamed (board : GoalBoard) (stats : Option FilesystemStats)
    (policyRevision : String) (goal : ActiveGoal) : Prop where
  listed : (admissionSnapshot board stats policyRevision).activeClaims.contains (spawnClaim goal)
  refused : ∀ (policy : CapabilityPolicy) (spawn : SpawnEngineerAction),
    spawn.claimKey = spawnClaim goal → ∃ error,
      admitAction policy (.spawnEngineer spawn) (admissionSnapshot board stats policyRevision) =
        .error error
  released : ∀ ledger, releaseEngineerClaimForGoal board goal.id ledger =
    .ok ((), ledger.deleteClaim (spawnClaim goal))

/-- An assigned goal whose stored slug and id spell the claim of this one. -/
def SpelledBy (goal other : ActiveGoal) : Prop :=
  other.assignedTo.isSome ∧
    other.repo.getD "rysweet/Simard" ++ ":" ++ other.id = spawnClaim goal

theorem admit_listed {policy : CapabilityPolicy} {spawn : SpawnEngineerAction}
    {snapshot : AdmissionSnapshot} (h : snapshot.activeClaims.contains spawn.claimKey) :
    ∃ error, admitAction policy (.spawnEngineer spawn) snapshot = .error error := by
  cases hadmitted : admitAction policy (.spawnEngineer spawn) snapshot with
  | error error => exact ⟨error, rfl⟩
  | ok u =>
    simp [admitAction, bind_eq_ok, h] at hadmitted

theorem deleteClaim_injective {key key' : String}
    (h : ∀ ledger : Ledger, ledger.deleteClaim key = ledger.deleteClaim key') : key = key' := by
  have hrow := congrArg Ledger.engineerClaims
    (h { Ledger.empty with engineerClaims := [⟨key, "", ""⟩] })
  by_contra hne
  simp [Ledger.deleteClaim, Table.deleteWhere, hne] at hrow

theorem bare_not_spelled {slug : String} (h : '/' ∉ slug.toList) (id id' : String) :
    slug ++ ":" ++ id ≠ "rysweet/" ++ slug ++ ":" ++ id' := by
  intro heq
  have hlist : slug.toList ++ ':' :: id.toList =
      "rysweet".toList ++ '/' :: (slug.toList ++ ':' :: id'.toList) := by
    simpa using congrArg String.toList heq
  rcases List.append_eq_append_iff.mp hlist with ⟨rest, howner, hrest⟩ | ⟨rest, hslug, hrest⟩
  · cases rest with
    | nil => simp at hrest
    | cons c rest =>
      obtain rfl : ':' = c := by simpa using (List.cons.inj hrest).1
      have hcolon : ':' ∈ "rysweet".toList := by
        rw [howner]
        simp
      exact absurd hcolon (by decide)
  · cases rest with
    | nil => simp at hrest
    | cons c rest =>
      obtain rfl : '/' = c := by simpa using (List.cons.inj hrest).1
      rw [hslug] at h
      simp at h

theorem qualifiedSlug_of_qualified {repo : Option String}
    (h : ∀ slug, repo = some slug → '/' ∈ slug.toList) :
    repo.getD "rysweet/Simard" = qualifiedSlug repo := by
  cases repo with
  | none => rfl
  | some slug => simp [qualifiedSlug, h slug rfl]

theorem spelled_of_bare {goal other : ActiveGoal} {slug : String} (hrepo : goal.repo = some slug)
    (hbare : '/' ∉ slug.toList) (h : SpelledBy goal other) : other.repo ≠ goal.repo := by
  intro hsame
  have hspelled := h.2
  rw [spawnClaim_eq, hsame, hrepo] at hspelled
  simp only [Option.getD_some, qualifiedSlug, if_neg hbare] at hspelled
  exact bare_not_spelled hbare other.id goal.id hspelled

/-- The three places name one claim exactly when the slug is absent or carries
its owner, or another assigned goal happens to be stored under the qualified
spelling, and no goal of the same id and another repository stands before it. -/
theorem claim_named_iff (board : GoalBoard) (stats : Option FilesystemStats)
    (policyRevision : String) (goal : ActiveGoal) (hactive : goal ∈ board.active)
    (hassigned : goal.assignedTo.isSome) :
    ClaimNamed board stats policyRevision goal ↔
      ((∀ slug, goal.repo = some slug → '/' ∈ slug.toList) ∨
          ∃ other ∈ board.active, other.repo ≠ goal.repo ∧ SpelledBy goal other) ∧
        ∀ first, board.active.find? (·.id = goal.id) = some first →
          qualifiedSlug first.repo = qualifiedSlug goal.repo := by
  constructor
  · rintro ⟨hlisted, -, hreleased⟩
    constructor
    · obtain ⟨other, hother, hspelled⟩ := contains_activeClaims.mp hlisted
      by_cases hqualified : ∀ slug, goal.repo = some slug → '/' ∈ slug.toList
      · exact .inl hqualified
      · push Not at hqualified
        obtain ⟨slug, hrepo, hbare⟩ := hqualified
        exact .inr ⟨other, hother, spelled_of_bare hrepo hbare hspelled, hspelled⟩
    · intro first hfirst
      have hkeys : qualifiedSlug first.repo ++ ":" ++ goal.id = spawnClaim goal := by
        apply deleteClaim_injective
        intro ledger
        have hledger := hreleased ledger
        rw [releaseEngineerClaimForGoal_eq, hfirst] at hledger
        exact congrArg Prod.snd (Except.ok.inj hledger)
      rw [spawnClaim_eq] at hkeys
      apply String.toList_injective
      simpa using congrArg String.toList hkeys
  · rintro ⟨hslug, hfirst⟩
    have hlisted : (admissionSnapshot board stats policyRevision).activeClaims.contains
        (spawnClaim goal) := by
      rw [contains_activeClaims]
      rcases hslug with hqualified | ⟨other, hother, -, hspelled⟩
      · refine ⟨goal, hactive, hassigned, ?_⟩
        rw [spawnClaim_eq, qualifiedSlug_of_qualified hqualified]
      · exact ⟨other, hother, hspelled⟩
    refine ⟨hlisted, ?_, ?_⟩
    · intro policy spawn hkey
      exact admit_listed (hkey ▸ hlisted)
    · intro ledger
      obtain ⟨first, hfind⟩ : ∃ first, board.active.find? (·.id = goal.id) = some first := by
        rw [← Option.isSome_iff_exists, List.find?_isSome]
        exact ⟨goal, hactive, by simp⟩
      rw [releaseEngineerClaimForGoal_eq, spawnClaim_eq, hfind, ← hfirst first hfind]
      rfl

def bareGoal : ActiveGoal :=
  { ActiveGoal.new "goal-1" "Port the parser" 1 with
    assignedTo := some "engineer-1"
    repo := some "skwaq" }

/-- Its claim is not in the board summary, so a second spawn for it is admitted. -/
theorem bare_slug_claim_unlisted :
    ¬ ClaimNamed ⟨[bareGoal], []⟩ (some ⟨100, 50⟩) "policy-1" bareGoal ∧
      admitAction (.new "policy-1") (.spawnEngineer ⟨⟨[1]⟩, ⟨"rysweet", "skwaq"⟩, .copilot,
        BTreeSet.ofList ["repo_read"], spawnClaim bareGoal⟩)
        (admissionSnapshot ⟨[bareGoal], []⟩ (some ⟨100, 50⟩) "policy-1") = .ok () := by
  constructor
  · intro hnamed
    exact absurd hnamed.listed (by decide)
  · decide

theorem qualified_slug_claim_named :
    ClaimNamed ⟨[{ bareGoal with repo := some "rysweet/skwaq" }], []⟩ (some ⟨100, 50⟩) "policy-1"
      { bareGoal with repo := some "rysweet/skwaq" } := by
  apply (claim_named_iff ⟨[{ bareGoal with repo := some "rysweet/skwaq" }], []⟩ (some ⟨100, 50⟩)
    "policy-1" { bareGoal with repo := some "rysweet/skwaq" } (by simp) rfl).mpr
  refine ⟨.inl ?_, ?_⟩
  · intro slug hslug
    obtain rfl : "rysweet/skwaq" = slug := Option.some.inj hslug
    decide
  · intro first hfirst
    cases hfirst
    rfl

/-- A call that records the spawn itself: it succeeds, it does not repeat an
earlier call, and what it records is the action and not a denial. -/
def SpawnAdmitted (spawn : SpawnEngineerAction) (goalId : String) : Prop :=
  ∃ policy env actor request admission ledger outcome after,
    recordAction policy env actor request admission ledger = .ok (outcome, after) ∧
      after ≠ ledger ∧ outcome.payload.action? = some (.spawnEngineer spawn) ∧
      request.identity.goalId = goalId

theorem orDenied_granted {check : CapabilityResult Unit} {policy : CapabilityPolicy}
    {observeOnly : Bool} {actor : AuthenticatedToolContext} {request : RecordActionRequest}
    {grant : CapabilityGrant} {next : CapabilityResult ActionPlan} {ticket : Ticket}
    (h : orDenied check (recordActionDenied policy observeOnly actor request grant) next =
      .ok (.granted ticket)) : check = .ok () ∧ next = .ok (.granted ticket) := by
  unfold orDenied at h
  cases check with
  | ok u => exact ⟨rfl, h⟩
  | error error =>
    simp only at h
    split at h
    · simp [recordActionDenied, bind_eq_ok] at h
    · cases h

theorem granted_validated {policy : CapabilityPolicy} {observeOnly : Bool}
    {actor : AuthenticatedToolContext} {request : RecordActionRequest} {ticket : Ticket}
    (h : recordActionPlan policy observeOnly actor request = .ok (.granted ticket)) :
    validateActorTarget actor request.identity = .ok () ∧
      validateAction policy request.action = .ok () := by
  unfold recordActionPlan at h
  obtain ⟨⟨⟩, htarget, h⟩ := bind_eq_ok.mp h
  refine ⟨htarget, ?_⟩
  simp only at h
  split at h
  · simp [recordActionDenied, bind_eq_ok] at h
  · obtain ⟨-, -, h⟩ := bind_eq_ok.mp h
    obtain ⟨-, h⟩ := orDenied_granted h
    obtain ⟨-, -, h⟩ := bind_eq_ok.mp h
    obtain ⟨-, -, h⟩ := bind_eq_ok.mp h
    exact (orDenied_granted h).1

theorem validateIdentifier_eq_ok {name value : String} {u : Unit} :
    validateIdentifier name value = .ok u ↔ isIdentifier value := by
  unfold validateIdentifier
  rw [ensure_eq_ok]

structure SpawnChecked (spawn : SpawnEngineerAction) (goalId : String) : Prop where
  owner : isIdentifier spawn.repository.owner
  name : isIdentifier spawn.repository.name
  goal : isIdentifier goalId
  key : isIdentifier spawn.claimKey
  expected : spawn.claimKey = expectedClaim spawn.repository goalId

theorem spawnAdmitted_checked {spawn : SpawnEngineerAction} {goalId : String}
    (h : SpawnAdmitted spawn goalId) : SpawnChecked spawn goalId := by
  obtain ⟨policy, env, actor, request, admission, ledger, outcome, after, hrecord, hnew, haction,
    rfl⟩ := h
  unfold recordAction at hrecord
  obtain ⟨plan, hplan, hrecord⟩ := bind_eq_ok.mp hrecord
  rcases recordActionPlan_cases hplan with rfl | ⟨payload, hpayload, rfl⟩
  · rcases once_eq_ok hrecord with ⟨rfl, -⟩ | ⟨-, hbody⟩
    · exact absurd rfl hnew
    simp only [bind_eq_ok] at hbody
    obtain ⟨⟨⟩, hkey, _, _, _, _, _, _, _, _, _, _, hresult⟩ := hbody
    cases hresult
    have hspawn : request.action = .spawnEngineer spawn := Option.some.inj haction
    obtain ⟨htarget, hvalid⟩ := granted_validated hplan
    rw [hspawn] at hkey hvalid
    simp only [validateActorTarget, validateIdentity, bind_eq_ok,
      validateIdentifier_eq_ok] at htarget
    simp only [validateAction, validateGovernedRepository, validateRepository, bind_eq_ok,
      validateIdentifier_eq_ok] at hvalid
    obtain ⟨_, ⟨_, _, _, _, _, _, hgoal⟩, -⟩ := htarget
    obtain ⟨_, _, _, _, _, ⟨_, ⟨_, howner, hname⟩, _⟩, _, hclaim, -⟩ := hvalid
    exact ⟨howner, hname, hgoal, hclaim, by simpa [checkClaimKey] using hkey⟩
  · rcases once_eq_ok hrecord with ⟨rfl, -⟩ | ⟨-, hbody⟩
    · exact absurd rfl hnew
    simp only [bind_eq_ok] at hbody
    obtain ⟨_, _, _, _, hresult⟩ := hbody
    cases hresult
    cases hpayload.symm.trans haction

/-- A spawn of any repository for any goal, under the key it has to carry. -/
def plainSpawn (repository : RepositoryRef) (goalId : String) : SpawnEngineerAction where
  task := ⟨[1]⟩
  repository := repository
  baseType := .copilot
  requestedPermissions := BTreeSet.ofList ["repo_read"]
  claimKey := expectedClaim repository goalId

def spawnPolicy (repository : RepositoryRef) : CapabilityPolicy :=
  { samplePolicy with allowedRepositories := [repository] }

def spawnActor (repository : RepositoryRef) (goalId : String) : AuthenticatedToolContext :=
  { sampleActor with
    grants := BTreeSet.ofList [.recordAction .spawnEngineer]
    boundRepository := some repository
    boundGoalId := some goalId
    engineerPermissions := BTreeSet.ofList ["repo_read"] }

def spawnRequest (repository : RepositoryRef) (goalId : String) : RecordActionRequest :=
  ⟨⟨"request-1", "session-1", "cycle-1", goalId⟩, .spawnEngineer (plainSpawn repository goalId),
    ⟨[]⟩, []⟩

theorem spawnRequest_granted {repository : RepositoryRef} {goalId : String}
    (howner : isIdentifier repository.owner) (hname : isIdentifier repository.name)
    (hgoal : isIdentifier goalId) (hkey : isIdentifier (expectedClaim repository goalId)) :
    recordActionPlan (spawnPolicy repository) false (spawnActor repository goalId)
        (spawnRequest repository goalId) =
      .ok (.granted (terminalTicket (spawnPolicy repository) (spawnActor repository goalId)
        (spawnRequest repository goalId).identity (toJson (spawnRequest repository goalId)))) := by
  have htarget : validateActorTarget (spawnActor repository goalId)
      (spawnRequest repository goalId).identity = .ok () := by
    have hplain : isIdentifier "request-1" ∧ isIdentifier "session-1" ∧ isIdentifier "cycle-1" ∧
        isIdentifier "engineer" := by decide
    obtain ⟨hrequest, hsession, hcycle, hactor⟩ := hplain
    simp only [validateActorTarget, validateIdentity, bind_eq_ok, validateIdentifier_eq_ok,
      ensure_eq_ok]
    exact ⟨(), ⟨(), hrequest, (), hsession, (), hcycle, hgoal⟩, (), rfl, (), hactor,
      by simp [spawnActor, spawnRequest, sampleActor]⟩
  have hgrant : authorize (spawnPolicy repository) (spawnActor repository goalId)
      (spawnRequest repository goalId).identity (.recordAction .spawnEngineer) = .ok () := by
    simp only [authorize, bind_eq_ok, ensure_eq_ok]
    exact ⟨(), htarget, rfl⟩
  have hscope : authorizeActionScope (spawnActor repository goalId)
      (.spawnEngineer (plainSpawn repository goalId)) = .ok () := by
    simp [authorizeActionScope, Action.repository, plainSpawn, spawnActor, ensure]
  have haction : validateAction (spawnPolicy repository)
      (.spawnEngineer (plainSpawn repository goalId)) = .ok () := by
    simp only [validateAction, plainSpawn, validateGovernedRepository, validateRepository,
      bind_eq_ok, validateIdentifier_eq_ok, ensure_eq_ok]
    exact ⟨(), rfl, (), rfl, (), ⟨(), ⟨(), howner, hname⟩, by simp [spawnPolicy]⟩, (), hkey, (),
      rfl, rfl⟩
  unfold recordActionPlan
  rw [htarget]
  change (authorize (spawnPolicy repository) (spawnActor repository goalId)
    (spawnRequest repository goalId).identity (.recordAction .spawnEngineer) >>= _) = _
  rw [hgrant]
  change orDenied (authorizeActionScope (spawnActor repository goalId)
    (.spawnEngineer (plainSpawn repository goalId))) _ _ = _
  rw [hscope]
  change orDenied (validateAction (spawnPolicy repository)
    (.spawnEngineer (plainSpawn repository goalId))) _ _ = _
  rw [haction]
  rfl

theorem plainSpawn_admitted {repository : RepositoryRef} {goalId : String}
    (howner : isIdentifier repository.owner) (hname : isIdentifier repository.name)
    (hgoal : isIdentifier goalId) (hkey : isIdentifier (expectedClaim repository goalId)) :
    SpawnAdmitted (plainSpawn repository goalId) goalId := by
  have hrecord : recordAction (spawnPolicy repository) (sampleWorld "a" false 0).toAmbient
      (spawnActor repository goalId) (spawnRequest repository goalId) ⟨0, 0, ∅, "policy-1"⟩
      .empty = recordGranted (spawnPolicy repository) (sampleWorld "a" false 0).toAmbient
      (spawnActor repository goalId) (spawnRequest repository goalId) ⟨0, 0, ∅, "policy-1"⟩
      (terminalTicket (spawnPolicy repository) (spawnActor repository goalId)
        (spawnRequest repository goalId).identity (toJson (spawnRequest repository goalId)))
      .empty := by
    unfold recordAction
    change (recordActionPlan (spawnPolicy repository) false _ _ >>= _) = _
    rw [spawnRequest_granted howner hname hgoal hkey]
    rfl
  have hcheck : checkClaimKey (spawnRequest repository goalId).identity
      (spawnRequest repository goalId).action = .ok () := by
    simp [checkClaimKey, spawnRequest, plainSpawn, ensure]
  unfold recordGranted at hrecord
  rw [once_of_unrecorded rfl, hcheck] at hrecord
  refine ⟨_, _, _, _, _, _, _, _, hrecord, ?_, rfl, rfl⟩
  intro hafter
  cases congrArg Ledger.effectJobs hafter

theorem expectedClaim_toList (repository : RepositoryRef) (goalId : String) :
    (expectedClaim repository goalId).toList =
      (repository.owner.toList ++ '/' :: repository.name.toList) ++ ':' :: goalId.toList := by
  simp [expectedClaim]

theorem livenessGoalId_eq_some {repository : RepositoryRef} {goalId : String} :
    livenessGoalId (expectedClaim repository goalId) = some goalId ↔
      ':' ∉ repository.owner.toList ∧ ':' ∉ repository.name.toList := by
  have hsplit : livenessGoalId (expectedClaim repository goalId) = some goalId ↔
      ∃ before : String, (expectedClaim repository goalId).toList =
        before.toList ++ ':' :: goalId.toList ∧ ':' ∉ before.toList := by
    unfold livenessGoalId
    rw [Option.map_eq_some_iff]
    constructor
    · rintro ⟨⟨before, after⟩, hkey, rfl⟩
      exact ⟨before, splitOnce_eq_some.mp hkey⟩
    · rintro ⟨before, hkey⟩
      exact ⟨(before, goalId), splitOnce_eq_some.mpr hkey, rfl⟩
  rw [hsplit, expectedClaim_toList]
  constructor
  · rintro ⟨before, hkey, hcolon⟩
    rw [← List.append_cancel_right hkey] at hcolon
    simpa using hcolon
  · intro hcolon
    exact ⟨repository.owner ++ "/" ++ repository.name, by simp, by simpa using hcolon⟩

theorem goalIdFromClaimKey_eq {repository : RepositoryRef} {goalId : String} :
    goalIdFromClaimKey (expectedClaim repository goalId) = goalId ↔ ':' ∉ goalId.toList := by
  unfold goalIdFromClaimKey
  constructor
  · intro h
    split at h
    next before goal hsplit =>
      subst h
      exact (rsplitOnce_eq_some.mp hsplit).2
    next =>
      have hlength := congrArg (fun s : String => s.toList.length) h
      simp [expectedClaim_toList] at hlength
      omega
  · intro hcolon
    have hsplit : rsplitOnce ':' (expectedClaim repository goalId) =
        some (repository.owner ++ "/" ++ repository.name, goalId) := by
      rw [rsplitOnce_eq_some, expectedClaim_toList]
      simpa using hcolon
    rw [hsplit]

theorem isIdentifier_part {a b part : String} (h : isIdentifier (a ++ part ++ b))
    (hpart : part.toList ≠ []) : isIdentifier part := by
  simp only [isIdentifier, Bool.and_eq_true, decide_eq_true_eq, String.utf8ByteSize_append,
    String.toList_append, List.all_append, Bool.not_eq_true', List.isEmpty_eq_false_iff] at h ⊢
  exact ⟨⟨hpart, by omega⟩, h.2.1.2⟩

/-- The claim names one repository and one goal, and both readings of the key
find the goal. -/
structure ClaimUnambiguous (spawn : SpawnEngineerAction) (goalId : String) : Prop where
  unique : ∀ (other : SpawnEngineerAction) (otherGoal : String), SpawnAdmitted other otherGoal →
    other.claimKey = spawn.claimKey → other.repository = spawn.repository ∧ otherGoal = goalId
  liveness : livenessGoalId spawn.claimKey = some goalId
  reaper : goalIdFromClaimKey spawn.claimKey = goalId

/-- No colon in any part, and no slash at which the repository could be cut into
another owner and another name. -/
structure PlainNames (repository : RepositoryRef) (goalId : String) : Prop where
  ownerColon : ':' ∉ repository.owner.toList
  nameColon : ':' ∉ repository.name.toList
  goalColon : ':' ∉ goalId.toList
  ownerSlash : '/' ∉ repository.owner.toList.tail
  nameSlash : '/' ∉ repository.name.toList.dropLast

theorem slash_cut_unique {owner name owner' name' : List Char}
    (heq : owner' ++ '/' :: name' = owner ++ '/' :: name) (howner : owner' ≠ [])
    (hname : name' ≠ []) (hownerSlash : '/' ∉ owner.tail) (hnameSlash : '/' ∉ name.dropLast) :
    owner' = owner ∧ name' = name := by
  rcases List.append_eq_append_iff.mp heq with ⟨rest, hrest, hcut⟩ | ⟨rest, hrest, hcut⟩
  · cases rest with
    | nil => simp_all
    | cons c rest =>
      obtain ⟨rfl, -⟩ := List.cons.inj hcut
      obtain ⟨d, owner', rfl⟩ := List.exists_cons_of_ne_nil howner
      simp [hrest] at hownerSlash
  · cases rest with
    | nil => simp_all
    | cons c rest =>
      obtain ⟨rfl, htail⟩ : '/' = c ∧ name = rest ++ '/' :: name' := by simpa using hcut
      rw [htail, List.dropLast_append_of_ne_nil (by simp),
        List.dropLast_cons_of_ne_nil hname] at hnameSlash
      simp at hnameSlash

theorem unique_of_plainNames {spawn other : SpawnEngineerAction} {goalId otherGoal : String}
    (hspawn : SpawnChecked spawn goalId) (hother : SpawnChecked other otherGoal)
    (hplain : PlainNames spawn.repository goalId) (hkey : other.claimKey = spawn.claimKey) :
    other.repository = spawn.repository ∧ otherGoal = goalId := by
  obtain ⟨hownerColon, hnameColon, hgoalColon, hownerSlash, hnameSlash⟩ := hplain
  have hlist : (other.repository.owner.toList ++ '/' :: other.repository.name.toList) ++
        ':' :: otherGoal.toList =
      (spawn.repository.owner.toList ++ '/' :: spawn.repository.name.toList) ++
        ':' :: goalId.toList := by
    rw [← expectedClaim_toList, ← expectedClaim_toList, ← hspawn.expected, ← hother.expected, hkey]
  -- the key has one colon, so the other spawn's repository has none
  have hcount := congrArg (List.count ':') hlist
  simp only [List.count_append, List.count_cons, List.count_eq_zero_of_not_mem hownerColon,
    List.count_eq_zero_of_not_mem hnameColon, List.count_eq_zero_of_not_mem hgoalColon] at hcount
  have hnone : ':' ∉ other.repository.owner.toList ++ '/' :: other.repository.name.toList := by
    rw [← List.count_eq_zero]
    simp at hcount ⊢
    omega
  obtain ⟨hrepository, hgoal⟩ := append_sep_inj hnone (by simp [hownerColon, hnameColon]) hlist
  have hnonempty {s : String} (h : isIdentifier s) : s.toList ≠ [] := by
    simp only [isIdentifier, Bool.and_eq_true] at h
    simpa using h.1.1
  obtain ⟨howner, hname⟩ := slash_cut_unique hrepository (hnonempty hother.owner)
    (hnonempty hother.name) hownerSlash hnameSlash
  refine ⟨?_, String.toList_injective hgoal⟩
  calc other.repository
      = ⟨other.repository.owner, other.repository.name⟩ := rfl
    _ = ⟨spawn.repository.owner, spawn.repository.name⟩ := by
        rw [String.toList_injective howner, String.toList_injective hname]

theorem admitted_elsewhere {spawn : SpawnEngineerAction} {goalId owner name : String}
    (hspawn : SpawnChecked spawn goalId) (howner : owner.toList ≠ []) (hname : name.toList ≠ [])
    (hcut : owner ++ "/" ++ name = spawn.repository.owner ++ "/" ++ spawn.repository.name) :
    SpawnAdmitted (plainSpawn ⟨owner, name⟩ goalId) goalId ∧
      (plainSpawn ⟨owner, name⟩ goalId).claimKey = spawn.claimKey := by
  have hkey : expectedClaim ⟨owner, name⟩ goalId = spawn.claimKey := by
    rw [hspawn.expected]
    simp only [expectedClaim, hcut]
  have hvalid : isIdentifier (owner ++ ("/" ++ name ++ ":" ++ goalId)) := by
    rw [show owner ++ ("/" ++ name ++ ":" ++ goalId) = expectedClaim ⟨owner, name⟩ goalId by
      simp [expectedClaim, String.append_assoc], hkey]
    exact hspawn.key
  refine ⟨plainSpawn_admitted ?_ ?_ hspawn.goal (hkey ▸ hspawn.key), hkey⟩
  · exact isIdentifier_part (a := "") (by simpa using hvalid) howner
  · refine isIdentifier_part (a := owner ++ "/") (b := ":" ++ goalId) ?_ hname
    simpa [String.append_assoc] using hvalid

theorem plainNames_of_unambiguous {spawn : SpawnEngineerAction} {goalId : String}
    (hspawn : SpawnChecked spawn goalId) (h : ClaimUnambiguous spawn goalId) :
    PlainNames spawn.repository goalId := by
  obtain ⟨hunique, hliveness, hreaper⟩ := h
  have hother (owner name : String) (howner : owner.toList ≠ []) (hname : name.toList ≠ [])
      (hcut : owner ++ "/" ++ name = spawn.repository.owner ++ "/" ++ spawn.repository.name) :
      owner = spawn.repository.owner := by
    obtain ⟨hadmitted, hkey⟩ := admitted_elsewhere hspawn howner hname hcut
    exact congrArg RepositoryRef.owner (hunique _ _ hadmitted hkey).1
  rw [hspawn.expected] at hliveness hreaper
  obtain ⟨hownerColon, hnameColon⟩ := livenessGoalId_eq_some.mp hliveness
  refine ⟨hownerColon, hnameColon, goalIdFromClaimKey_eq.mp hreaper, ?_, ?_⟩
  · intro hslash
    obtain ⟨front, back, htail⟩ := List.append_of_mem hslash
    cases howner : spawn.repository.owner.toList with
    | nil => simp [howner] at hslash
    | cons c rest =>
      obtain rfl : rest = front ++ '/' :: back := by simpa [howner] using htail
      have hsame := hother (String.ofList (c :: front))
        (String.ofList back ++ "/" ++ spawn.repository.name) (by simp) (by simp) (by
          apply String.toList_injective
          simp [howner])
      have hlength := congrArg (fun s : String => s.toList.length) hsame
      simp [howner] at hlength
  · intro hslash
    obtain ⟨front, back, hinit⟩ := List.append_of_mem hslash
    obtain ⟨last, hname⟩ : ∃ last, spawn.repository.name.toList = front ++
        '/' :: back ++ [last] := by
      have hne : spawn.repository.name.toList ≠ [] := by
        intro hnil
        simp [hnil] at hslash
      exact ⟨_, by rw [← hinit, List.dropLast_append_getLast hne]⟩
    have hsame := hother (spawn.repository.owner ++ "/" ++ String.ofList front)
      (String.ofList (back ++ [last])) (by simp) (by simp) (by
        apply String.toList_injective
        simp [hname])
    have hlength := congrArg (fun s : String => s.toList.length) hsame
    simp at hlength

/-- The key of an admitted spawn is unambiguous exactly when its parts hold no
colon and its repository no second place to cut. -/
theorem claim_unambiguous_iff (spawn : SpawnEngineerAction) (goalId : String)
    (hadmitted : SpawnAdmitted spawn goalId) :
    ClaimUnambiguous spawn goalId ↔ PlainNames spawn.repository goalId := by
  have hspawn := spawnAdmitted_checked hadmitted
  constructor
  · exact plainNames_of_unambiguous hspawn
  · intro hplain
    refine ⟨?_, ?_, ?_⟩
    · intro other otherGoal hother hkey
      exact unique_of_plainNames hspawn (spawnAdmitted_checked hother) hplain hkey
    · rw [hspawn.expected]
      exact livenessGoalId_eq_some.mpr ⟨hplain.ownerColon, hplain.nameColon⟩
    · rw [hspawn.expected]
      exact goalIdFromClaimKey_eq.mpr hplain.goalColon

theorem plain_claim_unambiguous :
    ClaimUnambiguous (plainSpawn ⟨"rysweet", "Simard"⟩ "goal-1") "goal-1" :=
  (claim_unambiguous_iff (plainSpawn ⟨"rysweet", "Simard"⟩ "goal-1") "goal-1"
    (plainSpawn_admitted (by decide) (by decide) (by decide) (by decide))).mpr
    ⟨by decide, by decide, by decide, by decide, by decide⟩

/-- Two admitted spawns under one key, for different goals of different
repositories; the liveness check asks about neither of the first one's names. -/
theorem colon_claim_ambiguous :
    SpawnAdmitted (plainSpawn ⟨"rysweet", "b:c"⟩ "d") "d" ∧
      SpawnAdmitted (plainSpawn ⟨"rysweet", "b"⟩ "c:d") "c:d" ∧
      (plainSpawn ⟨"rysweet", "b:c"⟩ "d").claimKey =
        (plainSpawn ⟨"rysweet", "b"⟩ "c:d").claimKey ∧
      ¬ ClaimUnambiguous (plainSpawn ⟨"rysweet", "b:c"⟩ "d") "d" ∧
      livenessGoalId (plainSpawn ⟨"rysweet", "b:c"⟩ "d").claimKey = some "c:d" ∧
      goalIdFromClaimKey (plainSpawn ⟨"rysweet", "b"⟩ "c:d").claimKey = "d" := by
  refine ⟨plainSpawn_admitted (by decide) (by decide) (by decide) (by decide),
    plainSpawn_admitted (by decide) (by decide) (by decide) (by decide), by decide, ?_, by decide,
    by decide⟩
  intro hunambiguous
  exact absurd hunambiguous.liveness (by decide)

end Simard.Engineers
