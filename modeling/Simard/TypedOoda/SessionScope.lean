import Simard.TypedOoda.ProcessRuns

/-! Actor sessions over whole runs. A session's row is the one its latest
registration wrote, so a token authenticates exactly the scope it was minted
for, and a session that is neither expired nor purged keeps its scope. -/
namespace Simard.TypedOoda
open Simard.Library

/-- A registration as it was carried out: for whom, for which cycle and goal, and
the lease it minted. -/
structure Registration where
  actor : AuthenticatedToolContext
  cycleId : String
  goalId : String
  lease : ActorSessionLease
  deriving DecidableEq

/-- The six fields that no later registration of a live session may change. -/
structure SessionScope where
  actorIdentity : String
  grants : BTreeSet CapabilityGrant
  repository : Option RepositoryRef
  engineerPermissions : BTreeSet String
  workingDirectory : Option String
  observeOnly : Bool

def AuthenticatedToolContext.sessionScope (actor : AuthenticatedToolContext) : SessionScope where
  actorIdentity := actor.actorIdentity
  grants := actor.grants
  repository := actor.boundRepository
  engineerPermissions := actor.engineerPermissions
  workingDirectory := actor.boundWorkingDirectory
  observeOnly := actor.observeOnly

/-- The registration a call makes, unless it fails or is answered from the
registry. -/
def Operation.registers (op : Operation) (ledger : Ledger) : Option Registration :=
  match op with
  | ⟨policy, env, .registerActorSession actor requestId cycleId goalId ttl⟩ =>
      if Call.isFresh policy env ledger
        (.registerActorSession actor requestId cycleId goalId ttl) then
        match registerActorSession policy env actor requestId cycleId goalId ttl ledger with
        | .ok (lease, _) => some ⟨actor, cycleId, goalId, lease⟩
        | .error _ => none
      else none
  | _ => none

def Operation.purges (op : Operation) : Bool :=
  match op.call with
  | .purgeActorSessions => true
  | _ => false

def Operation.track (sessionId : String) (ledger : Ledger) (held : Option Registration)
    (op : Operation) : Option Registration :=
  if op.purges then none
  else match op.registers ledger with
    | some registration =>
        if registration.actor.sessionId = sessionId then some registration else held
    | none => held

def trackStep (sessionId : String) (held : Option Registration) (step : SystemStep) :
    Option Registration :=
  match operationOf step.before step.event with
  | some op => op.track sessionId step.before.shared held
  | none => held

/-- The most recent registration of a session in a run, unless purged since. -/
def latestRegistration (sessionId : String) (events : List SystemEvent) : Option Registration :=
  (system.trace (Pool.init Ledger.empty) events).foldl (trackStep sessionId) none

def Registration.row (registration : Registration) (repository : RepositoryRef) : SessionRow :=
  (ActorBinding.new registration.actor registration.cycleId registration.goalId repository).row
    registration.actor.sessionId (sha256Hex (utf8 registration.lease.token.toList))
    registration.lease.expiresAtUnixMillis

@[simp] theorem Registration.row_sessionId (registration : Registration)
    (repository : RepositoryRef) :
    (registration.row repository).sessionId = registration.actor.sessionId := rfl

theorem session_upsertSession (ledger : Ledger) (row : SessionRow) (sessionId : String) :
    (ledger.upsertSession row).session sessionId =
      if row.sessionId = sessionId then some row else ledger.session sessionId := by
  unfold Ledger.upsertSession Ledger.session
  simp only
  by_cases hany : ledger.actorSessions.any (·.sessionId = row.sessionId)
  · rw [if_pos hany]
    by_cases hkey : row.sessionId = sessionId
    · rw [if_pos hkey, ← hkey]
      exact Table.lookup_replace hany
    · rw [if_neg hkey]
      apply Table.lookup_updateWhere_other
      intro old hold
      exact ⟨fun h => hkey ((of_decide_eq_true hold).symm.trans h), hkey⟩
  · rw [if_neg hany, Table.lookup_append]
    by_cases hkey : row.sessionId = sessionId
    · have hnone : Table.lookup SessionRow.sessionId sessionId ledger.actorSessions = none := by
        apply Table.lookup_eq_none.mpr
        intro old hold hsame
        apply hany
        exact List.any_eq_true.mpr ⟨old, hold, decide_eq_true (hsame.trans hkey.symm)⟩
      rw [if_pos hkey, hnone, Option.none_or, if_pos hkey]
    · rw [if_neg hkey, if_neg hkey, Option.or_none]

theorem session_deleteExpiredSessions {ledger : Ledger} (h : ledger.KeysUnique) (now : Int)
    (sessionId : String) :
    (ledger.deleteExpiredSessions now).session sessionId =
      (ledger.session sessionId).filter fun row => decide (now ≤ row.expiresAt) := by
  have hlookup := h.session.lookup_deleteWhere (fun row => row.expiresAt < now) sessionId
  unfold Ledger.deleteExpiredSessions Ledger.session
  rw [hlookup]
  congr 1
  funext row
  simp [← decide_not]

section Operations

variable {policy : CapabilityPolicy} {env : Ambient} {ledger after : Ledger}

theorem registerActorSession_eq_ok {actor : AuthenticatedToolContext}
    {requestId cycleId goalId : String} {ttl : Duration} {lease : ActorSessionLease}
    (h : registerActorSession policy env actor requestId cycleId goalId ttl ledger =
      .ok (lease, after)) :
    (Call.isFresh policy env ledger (.registerActorSession actor requestId cycleId goalId ttl) =
        false ∧ after = ledger) ∨
      (Call.isFresh policy env ledger (.registerActorSession actor requestId cycleId goalId ttl) ∧
        ∃ repository, actor.boundRepository = some repository ∧
          ((loadActorBinding (ledger.deleteExpiredSessions (env.nowMillis 0)) actor.sessionId).all
            fun existing => existing.scopeKey =
              (ActorBinding.new actor cycleId goalId repository).scopeKey) ∧
          after.actorSessions = ((ledger.deleteExpiredSessions (env.nowMillis 0)).upsertSession
            (Registration.row ⟨actor, cycleId, goalId, lease⟩ repository)).actorSessions) := by
  unfold registerActorSession at h
  obtain ⟨plan, hplan, h⟩ := bind_eq_ok.mp h
  have hfresh : Call.isFresh policy env ledger
      (.registerActorSession actor requestId cycleId goalId ttl) =
        (ledger.request plan.ticket.requestId).isNone := by
    let op : Operation := ⟨policy, env, .registerActorSession actor requestId cycleId goalId ttl⟩
    apply op.isFresh_of_ticket
    change some ((registerPlan policy actor requestId cycleId goalId ttl).map (·.ticket)) = _
    rw [hplan]
    rfl
  rcases once_eq_ok h with ⟨rfl, row, -, hrow, -⟩ | ⟨hfree, h⟩
  · left
    rw [hfresh, hrow]
    exact ⟨rfl, rfl⟩
  · right
    obtain ⟨repository, hrepository, rfl⟩ := registerPlan_eq_ok hplan
    simp only [bind_eq_ok, ensure_eq_ok, recordRequest_record] at h
    obtain ⟨-, hscope, -, ⟨-, rfl⟩, hresult⟩ := h
    cases hresult
    rw [hfresh, hfree]
    exact ⟨rfl, repository, hrepository, hscope, rfl⟩

theorem Commit.actorSessions_eq {call : Call} (h : Commit policy env ledger call after)
    (hregister : ∀ actor requestId cycleId goalId ttl,
      call ≠ .registerActorSession actor requestId cycleId goalId ttl)
    (hpurge : call ≠ .purgeActorSessions) : after.actorSessions = ledger.actorSessions := by
  cases h with
  | session => exact absurd rfl (hregister _ _ _ _ _)
  | purge => exact absurd rfl hpurge
  | reserve hplan hfree hslot hnew =>
    rw [reserveProcessSlot_frame hslot]
    rfl
  | _ => rfl

/-- The three things an operation can do to the sessions: nothing, clear them, or
carry out a registration. -/
inductive SessionMove (op : Operation) (ledger after : Ledger) : Prop where
  | kept (hpurge : op.purges = false) (hregisters : op.registers ledger = none)
      (hrows : after.actorSessions = ledger.actorSessions)
  | purged (hpurge : op.purges) (hrows : after.actorSessions = [])
  | registered {registration : Registration} {repository : RepositoryRef}
      (hpurge : op.purges = false) (hregisters : op.registers ledger = some registration)
      (hrepository : registration.actor.boundRepository = some repository)
      (hscope : (loadActorBinding (ledger.deleteExpiredSessions (op.env.nowMillis 0))
        registration.actor.sessionId).all fun existing => existing.scopeKey =
          (ActorBinding.new registration.actor registration.cycleId registration.goalId
            repository).scopeKey)
      (hrows : after.actorSessions =
        ((ledger.deleteExpiredSessions (op.env.nowMillis 0)).upsertSession
          (registration.row repository)).actorSessions)

theorem sessionMove_register (actor : AuthenticatedToolContext)
    (requestId cycleId goalId : String) (ttl : Duration) :
    SessionMove ⟨policy, env, .registerActorSession actor requestId cycleId goalId ttl⟩ ledger
      (commit policy env ledger (.registerActorSession actor requestId cycleId goalId ttl)) := by
  let op : Operation := ⟨policy, env, .registerActorSession actor requestId cycleId goalId ttl⟩
  have hregisters : op.registers ledger =
      if op.isFresh ledger then
        match registerActorSession policy env actor requestId cycleId goalId ttl ledger with
        | .ok (lease, _) => some ⟨actor, cycleId, goalId, lease⟩
        | .error _ => none
      else none := rfl
  change SessionMove op ledger (op.commit ledger)
  cases hresult : registerActorSession policy env actor requestId cycleId goalId ttl ledger with
  | error error =>
    rw [hresult, ite_self] at hregisters
    rw [op.commit_of_error hresult]
    exact .kept rfl hregisters rfl
  | ok result =>
    obtain ⟨lease, after⟩ := result
    rw [hresult] at hregisters
    rw [op.commit_of_ok hresult]
    rcases registerActorSession_eq_ok hresult with ⟨hfresh, rfl⟩ | ⟨hfresh, repository, hbound,
      hscope, hrows⟩
    · rw [Operation.isFresh, hfresh] at hregisters
      exact .kept rfl hregisters rfl
    · rw [Operation.isFresh, hfresh] at hregisters
      exact .registered rfl hregisters hbound hscope hrows

theorem sessionMove_commit (op : Operation) (ledger : Ledger) :
    SessionMove op ledger (op.commit ledger) := by
  obtain ⟨policy, env, call⟩ := op
  have hkept (hregister : ∀ actor requestId cycleId goalId ttl,
      call ≠ .registerActorSession actor requestId cycleId goalId ttl)
      (hpurge : call ≠ .purgeActorSessions) :
      (commit policy env ledger call).actorSessions = ledger.actorSessions := by
    rcases commit_cases policy env ledger call with hsame | hcommit
    · rw [hsame]
    · exact hcommit.actorSessions_eq hregister hpurge
  cases call with
  | registerActorSession actor requestId cycleId goalId ttl =>
    exact sessionMove_register actor requestId cycleId goalId ttl
  | purgeActorSessions => exact .purged rfl rfl
  | _ => exact .kept rfl rfl (hkept (fun _ _ _ _ _ => nofun) nofun)

end Operations

/-- The session's row, if there is one, is what the tracked registration wrote. -/
def Bound (sessionId : String) (held : Option Registration) (ledger : Ledger) : Prop :=
  ∀ row, ledger.session sessionId = some row →
    ∃ registration repository, held = some registration ∧
      registration.actor.sessionId = sessionId ∧
      registration.actor.boundRepository = some repository ∧ row = registration.row repository

/-- A tracked registration that lasts until `now` still has its row. -/
def Alive (sessionId : String) (now : Int) (held : Option Registration) (ledger : Ledger) : Prop :=
  ∀ registration, held = some registration →
    now ≤ registration.lease.expiresAtUnixMillis → (ledger.session sessionId).isSome

section Invariants

variable {sessionId : String} {held : Option Registration} {ledger after : Ledger} {op : Operation}

theorem session_of_rows {sessions : Ledger} (hrows : after.actorSessions = sessions.actorSessions) :
    after.session sessionId = sessions.session sessionId := by
  unfold Ledger.session
  rw [hrows]

theorem Operation.track_registered {registration : Registration} (hpurge : op.purges = false)
    (hregisters : op.registers ledger = some registration) :
    op.track sessionId ledger held =
      if registration.actor.sessionId = sessionId then some registration else held := by
  unfold Operation.track
  rw [hpurge, hregisters]
  rfl

theorem Operation.track_kept (hpurge : op.purges = false)
    (hregisters : op.registers ledger = none) : op.track sessionId ledger held = held := by
  unfold Operation.track
  rw [hpurge, hregisters]
  rfl

theorem Bound.commit (h : Bound sessionId held ledger) (hkeys : ledger.KeysUnique)
    (hmove : SessionMove op ledger after) :
    Bound sessionId (op.track sessionId ledger held) after := by
  intro row hrow
  cases hmove with
  | kept hpurge hregisters hrows =>
    rw [session_of_rows hrows] at hrow
    rw [Operation.track_kept hpurge hregisters]
    exact h row hrow
  | purged hpurge hrows =>
    have hempty : after.actorSessions = Ledger.empty.actorSessions := hrows
    rw [session_of_rows hempty] at hrow
    cases hrow
  | @registered registration repository hpurge hregisters hrepository hscope hrows =>
    rw [session_of_rows hrows, session_upsertSession, Registration.row_sessionId] at hrow
    rw [Operation.track_registered hpurge hregisters]
    by_cases hsession : registration.actor.sessionId = sessionId
    · rw [if_pos hsession]
      rw [if_pos hsession] at hrow
      exact ⟨registration, repository, rfl, hsession, hrepository, (Option.some.inj hrow).symm⟩
    · rw [if_neg hsession]
      rw [if_neg hsession, session_deleteExpiredSessions hkeys] at hrow
      exact h row (Option.filter_eq_some_iff.mp hrow).1

theorem Alive.commit {now : Int} (h : Alive sessionId now held ledger)
    (hbound : Bound sessionId held ledger) (hkeys : ledger.KeysUnique)
    (hclock : op.env.nowMillis 0 ≤ now) (hmove : SessionMove op ledger after) :
    Alive sessionId now (op.track sessionId ledger held) after := by
  intro latest hlatest hlasts
  cases hmove with
  | kept hpurge hregisters hrows =>
    rw [Operation.track_kept hpurge hregisters] at hlatest
    rw [session_of_rows hrows]
    exact h latest hlatest hlasts
  | purged hpurge hrows =>
    unfold Operation.track at hlatest
    rw [if_pos hpurge] at hlatest
    cases hlatest
  | @registered registration repository hpurge hregisters hrepository hscope hrows =>
    rw [Operation.track_registered hpurge hregisters] at hlatest
    rw [session_of_rows hrows, session_upsertSession, Registration.row_sessionId]
    by_cases hsession : registration.actor.sessionId = sessionId
    · rw [if_pos hsession]
      rfl
    · rw [if_neg hsession] at hlatest
      -- the sweep spares the row, which outlives this operation's clock
      obtain ⟨row, hrow⟩ := Option.isSome_iff_exists.mp (h latest hlatest hlasts)
      obtain ⟨bound, boundTo, hheld, -, -, rfl⟩ := hbound row hrow
      obtain rfl := Option.some.inj (hlatest.symm.trans hheld)
      have hspared : op.env.nowMillis 0 ≤ latest.lease.expiresAtUnixMillis := hclock.trans hlasts
      have hkept : (ledger.deleteExpiredSessions (op.env.nowMillis 0)).session sessionId =
          some (latest.row boundTo) := by
        rw [session_deleteExpiredSessions hkeys, hrow]
        exact Option.filter_some_pos (decide_eq_true hspared)
      rw [if_neg hsession, hkept]
      rfl

end Invariants

def ledgerAfter (events : List SystemEvent) : Ledger :=
  (system.run (Pool.init Ledger.empty) events).shared

/-- The clock never went back: no operation of the run read a later instant. -/
def ClockBefore (events : List SystemEvent) (env : Ambient) : Prop :=
  ∀ step ∈ system.trace (Pool.init Ledger.empty) events, ∀ earlier,
    operationOf step.before step.event = some earlier →
      ∀ m n, earlier.env.nowMillis m ≤ env.nowMillis n

theorem keysUnique_ledgerAfter (events : List SystemEvent) : (ledgerAfter events).KeysUnique :=
  keysUnique_run keysUnique_empty events

theorem latestRegistration_append (sessionId : String) (events : List SystemEvent)
    (event : SystemEvent) :
    latestRegistration sessionId (events ++ [event]) =
      match operationOf (system.run (Pool.init Ledger.empty) events) event with
      | some op => op.track sessionId (ledgerAfter events) (latestRegistration sessionId events)
      | none => latestRegistration sessionId events := by
  unfold latestRegistration
  rw [Machine.trace_append, List.foldl_append]
  rfl

theorem ledgerAfter_append (events : List SystemEvent) (event : SystemEvent) :
    ledgerAfter (events ++ [event]) =
      match operationOf (system.run (Pool.init Ledger.empty) events) event with
      | some op => op.commit (ledgerAfter events)
      | none => ledgerAfter events := by
  unfold ledgerAfter
  rw [Machine.run_append]
  exact step_ledger _ event

theorem bound_latestRegistration (sessionId : String) (events : List SystemEvent) :
    Bound sessionId (latestRegistration sessionId events) (ledgerAfter events) := by
  induction events using List.reverseRecOn with
  | nil =>
    intro row hrow
    cases hrow
  | append_singleton events event ih =>
    rw [latestRegistration_append, ledgerAfter_append]
    cases operationOf (system.run (Pool.init Ledger.empty) events) event with
    | none => exact ih
    | some op => exact ih.commit (keysUnique_ledgerAfter events) (sessionMove_commit op _)

theorem alive_latestRegistration (sessionId : String) {events : List SystemEvent} {env : Ambient}
    (hclock : ClockBefore events env) :
    Alive sessionId (env.nowMillis 0) (latestRegistration sessionId events)
      (ledgerAfter events) := by
  induction events using List.reverseRecOn with
  | nil =>
    intro latest hlatest
    cases hlatest
  | append_singleton events event ih =>
    unfold ClockBefore at hclock
    rw [Machine.trace_append] at hclock
    have hlast := hclock ⟨system.run (Pool.init Ledger.empty) events, event, _⟩
      (List.mem_append_right _ List.mem_cons_self)
    have hsofar := ih fun step hstep => hclock step (List.mem_append_left _ hstep)
    rw [latestRegistration_append, ledgerAfter_append]
    cases hop : operationOf (system.run (Pool.init Ledger.empty) events) event with
    | none => exact hsofar
    | some op =>
      exact hsofar.commit (bound_latestRegistration sessionId events)
        (keysUnique_ledgerAfter events) (hlast op hop 0 0) (sessionMove_commit op _)

theorem sessionScope_of_scopeKey {first next : AuthenticatedToolContext}
    {firstRepository nextRepository : RepositoryRef} {firstCycle firstGoal cycleId goalId : String}
    (hfirst : first.boundRepository = some firstRepository)
    (hnext : next.boundRepository = some nextRepository)
    (h : (ActorBinding.new first firstCycle firstGoal firstRepository).scopeKey =
      (ActorBinding.new next cycleId goalId nextRepository).scopeKey) :
    next.sessionScope = first.sessionScope := by
  unfold ActorBinding.new ActorBinding.scopeKey at h
  simp only [ActorScopeKey.mk.injEq] at h
  obtain ⟨hidentity, hrepository, hgrants, hpermissions, hdirectory, hobserve⟩ := h
  unfold AuthenticatedToolContext.sessionScope
  rw [hfirst, hnext, hidentity, hobserve, toJson_injective hrepository, toJson_injective hgrants,
    toJson_injective hpermissions, Option.map_injective toJson_injective hdirectory]

theorem intoContext_row {registration : Registration} {repository : RepositoryRef}
    (h : registration.actor.boundRepository = some repository) (sessionId : String) :
    (actorBindingFromRow (registration.row repository)).intoContext sessionId =
      .ok { registration.actor with
        sessionId
        boundCycleId := some registration.cycleId
        boundGoalId := some registration.goalId } := by
  unfold ActorBinding.intoContext actorBindingFromRow Registration.row ActorBinding.row
    ActorBinding.new
  cases hdirectory : registration.actor.boundWorkingDirectory with
  | none => simp [h, hdirectory, bind, Except.bind, pure, Except.pure]
  | some directory => simp [h, hdirectory, bind, Except.bind]

theorem authenticateActorSession_eq_ok {env : Ambient} {token sessionId cycleId goalId : String}
    {ledger : Ledger} {context : AuthenticatedToolContext}
    (h : authenticateActorSession env token sessionId cycleId goalId ledger = .ok context) :
    ∃ row, ledger.session sessionId = some row ∧ row.cycleId = cycleId ∧ row.goalId = goalId ∧
      env.nowMillis 0 ≤ row.expiresAt ∧ row.tokenHash = sha256Hex (utf8 token.toList) ∧
      (actorBindingFromRow row).intoContext sessionId = .ok context := by
  unfold authenticateActorSession at h
  iterate 3
    obtain ⟨-, -, h⟩ := bind_eq_ok.mp h
  cases hrow : ledger.session sessionId with
  | none => simp [hrow] at h
  | some row =>
    simp only [hrow] at h
    split at h
    · cases h
    next hmatch =>
      simp only [Bool.or_eq_true, bne_iff_ne, decide_eq_true_eq, not_or, not_not,
        not_lt] at hmatch
      obtain ⟨⟨⟨hcycle, hgoal⟩, hexpiry⟩, htoken⟩ := hmatch
      exact ⟨row, rfl, hcycle, hgoal, hexpiry, htoken, h⟩

/-- Authentication is sound and a live session's scope never drifts. At every
point of every run, a token opens a session only as its latest registration
minted it, and a further registration of a session that has neither expired nor
been purged has the scope of the one before, whatever its cycle and goal. -/
theorem sessions_sound_and_stable (events : List SystemEvent) :
    (∀ (env : Ambient) (token sessionId cycleId goalId : String)
        (context : AuthenticatedToolContext),
      (∀ held, latestRegistration sessionId events = some held →
        sha256Hex (utf8 token.toList) = sha256Hex (utf8 held.lease.token.toList) →
          token = held.lease.token) →
      authenticateActorSession env token sessionId cycleId goalId (ledgerAfter events) =
        .ok context →
      ∃ held, latestRegistration sessionId events = some held ∧ held.lease.token = token ∧
        held.cycleId = cycleId ∧ held.goalId = goalId ∧
        env.nowMillis 0 ≤ held.lease.expiresAtUnixMillis ∧
        context = { held.actor with
          sessionId
          boundCycleId := some cycleId
          boundGoalId := some goalId }) ∧
    (∀ (op : Operation) (sessionId : String) (first next : Registration),
      ClockBefore events op.env →
      latestRegistration sessionId events = some first →
      op.registers (ledgerAfter events) = some next → next.actor.sessionId = sessionId →
      op.env.nowMillis 0 ≤ first.lease.expiresAtUnixMillis →
        next.actor.sessionScope = first.actor.sessionScope) := by
  constructor
  · intro env token sessionId cycleId goalId context hcollision h
    obtain ⟨row, hrow, hcycle, hgoal, hexpiry, htoken, hcontext⟩ := authenticateActorSession_eq_ok h
    obtain ⟨held, repository, hheld, -, hrepository, rfl⟩ :=
      bound_latestRegistration sessionId events row hrow
    refine ⟨held, hheld, (hcollision held hheld htoken.symm).symm, hcycle, hgoal, hexpiry, ?_⟩
    rw [intoContext_row hrepository] at hcontext
    rw [← Except.ok.inj hcontext, ← hcycle, ← hgoal]
    rfl
  · intro op sessionId first next hclock hfirst hnext hsession hlive
    have hsome := alive_latestRegistration sessionId hclock first hfirst hlive
    obtain ⟨row, hrow⟩ := Option.isSome_iff_exists.mp hsome
    obtain ⟨held, repository, hheld, -, hrepository, rfl⟩ :=
      bound_latestRegistration sessionId events row hrow
    obtain rfl := Option.some.inj (hfirst.symm.trans hheld)
    have hmove := sessionMove_commit op (ledgerAfter events)
    cases hmove with
    | kept _ hnone _ => cases hnone.symm.trans hnext
    | purged hpurge _ =>
      obtain ⟨policy, env, call⟩ := op
      cases call <;> cases hpurge
      cases hnext
    | @registered registration nextRepository _ hregisters hbound hscope _ =>
      obtain rfl := Option.some.inj (hnext.symm.trans hregisters)
      have hkept : (ledgerAfter events |>.deleteExpiredSessions (op.env.nowMillis 0)).session
          next.actor.sessionId = some (first.row repository) := by
        rw [session_deleteExpiredSessions (keysUnique_ledgerAfter events), hsession, hrow]
        exact Option.filter_some_pos (decide_eq_true hlive)
      unfold loadActorBinding at hscope
      rw [hkept] at hscope
      exact sessionScope_of_scopeKey hrepository hbound (of_decide_eq_true hscope)

def registeredSample : List SystemEvent :=
  [.start (.call samplePolicy
      (.registerActorSession sampleActor "register-1" "cycle-1" "goal-1" 60000000000) rfl),
    .advance 0 (sampleWorld "a" false 0)]

def sampleRegistration : Registration := ⟨sampleActor, "cycle-1", "goal-1", "a-0", 60000⟩

def sampleActorNextCycle : AuthenticatedToolContext :=
  { sampleActor with boundCycleId := some "cycle-2", boundGoalId := some "goal-2" }

/-- A second registration of the same session, ten seconds later. -/
def registerAgain : Operation :=
  ⟨samplePolicy, (sampleWorld "b" false 10000).toAmbient,
    .registerActorSession sampleActorNextCycle "register-2" "cycle-2" "goal-2" 60000000000⟩

theorem clockBefore_registerAgain : ClockBefore registeredSample registerAgain.env := by
  intro step hstep earlier hop m n
  rcases List.mem_cons.mp hstep with rfl | hstep
  · cases hop
  · rcases List.mem_cons.mp hstep with rfl | hstep
    · cases hop
      exact (by decide : (0 : Int) ≤ 10000)
    · cases hstep

theorem registered_session_authenticates :
    (∃ held, latestRegistration "session-1" registeredSample = some held ∧
      held.lease.token = "a-0" ∧ held.cycleId = "cycle-1" ∧ held.goalId = "goal-1" ∧
      (1000 : Int) ≤ held.lease.expiresAtUnixMillis ∧
      sampleActor = { held.actor with
        sessionId := "session-1"
        boundCycleId := some "cycle-1"
        boundGoalId := some "goal-1" }) ∧
    sampleActorNextCycle.sessionScope = sampleActor.sessionScope := by
  have hlatest : latestRegistration "session-1" registeredSample = some sampleRegistration := by
    decide
  constructor
  · apply (sessions_sound_and_stable registeredSample).1 (sampleWorld "c" false 1000).toAmbient
      "a-0" "session-1" "cycle-1" "goal-1" sampleActor
    · intro held hheld _
      rw [hlatest] at hheld
      cases hheld
      rfl
    · decide +kernel
  · exact (sessions_sound_and_stable registeredSample).2 registerAgain "session-1"
      sampleRegistration ⟨sampleActorNextCycle, "cycle-2", "goal-2", "b-0", 70000⟩
      clockBefore_registerAgain hlatest (by decide) rfl (by decide)

end Simard.TypedOoda
