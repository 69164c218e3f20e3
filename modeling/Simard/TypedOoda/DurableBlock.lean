import Simard.TypedOoda.EffectLeases
import Simard.TypedOoda.ExactlyOnce

/-! Whether an effect that a worker reports as blocked is durably blocked. The
block is a mutation with a request id built from the effect, its generation and
the denial; where that id is recorded already, the block is answered from the
registry and the row stays as it is. -/
namespace Simard.TypedOoda
open Simard.Library

def CycleError.reportsDenial (error : CycleError) : Bool :=
  error = ⟨.downstreamFailed, observeOnlyDenial.report⟩ ||
    error = ⟨.downstreamFailed, approvalDenial.report⟩

def reportsDenial : Except CycleError α → Bool
  | .error error => error.reportsDenial
  | .ok _ => false

def Reply.reportsDenial : Reply → Bool
  | .drained result => TypedOoda.reportsDenial result
  | .dispatched result => TypedOoda.reportsDenial result
  | _ => false

/-- The block a thread issued last, and whether it was answered well. -/
structure AskedBlock where
  job : EffectJob
  requestId : String
  reason : String
  granted : Bool

def blockNext (_ : Option AskedBlock) : (cmd : Cmd) → cmd.Answer → Option AskedBlock
  | .call _ (.blockEffectAuthorization job requestId reason), .ok _ =>
      some ⟨job, requestId, reason, true⟩
  | .call _ (.blockEffectAuthorization job requestId reason), .error _ =>
      some ⟨job, requestId, reason, false⟩
  | _, _ => none

def blockProtocol : Protocol Cmd Cmd.Answer (Option AskedBlock) where
  allowed _ _ := True
  next := blockNext

/-- The block is one of a worker's two, and it was answered well. -/
structure AskedBlock.ByWorker (asked : AskedBlock) : Prop where
  granted : asked.granted
  denial : ∃ denial, (denial = observeOnlyDenial ∨ denial = approvalDenial) ∧
    asked.requestId = effectMutationRequestId asked.job denial.operation ∧
    asked.reason = denial.reason

/-- Where a denial is reported, a block issued last is a worker's own. -/
def ReportsBlock (asked : Option AskedBlock) (reports : Bool) : Prop :=
  ∀ block, asked = some block → reports → block.ByWorker

/-- The program reports denials only after a block of its own. -/
def Act.Reports (asked : Option AskedBlock) (program : Act (Except CycleError α)) : Prop :=
  program.Follows blockProtocol (fun asked result =>
    ReportsBlock asked (reportsDenial result)) asked

theorem reports_silent {asked : Option AskedBlock} {result : Except CycleError α}
    (h : reportsDenial result = false) : Act.Reports asked (.done result) := by
  intro block _ hreport
  rw [h] at hreport
  cases hreport

theorem reports_unasked (result : Except CycleError α) : Act.Reports none (.done result) := by
  intro block hasked
  cases hasked

theorem reports_orPersistenceFailed {asked : Option AskedBlock} {result : CapabilityResult α}
    {next : α → Act (Except CycleError β)} (h : ∀ a, result = .ok a → (next a).Reports asked) :
    (orPersistenceFailed result next).Reports asked := by
  cases result with
  | error e => exact reports_silent rfl
  | ok a => exact h a rfl

section Worker

variable (worker : OutboxWorker) (asked : Option AskedBlock)

theorem recoverStartup_reports : worker.recoverStartup.Reports asked := by
  refine ⟨trivial, fun id => ⟨trivial, fun now => ⟨trivial, fun recovered => ?_⟩⟩⟩
  exact reports_orPersistenceFailed fun _ _ => reports_silent rfl

theorem denyEffect_reports (job : EffectJob) {denial : Denial}
    (hdenial : denial = observeOnlyDenial ∨ denial = approvalDenial) :
    (worker.denyEffect job denial).Reports asked := by
  refine ⟨trivial, fun blocked => ?_⟩
  apply reports_orPersistenceFailed
  rintro _ rfl block hasked -
  cases hasked
  exact ⟨rfl, denial, hdenial, rfl, rfl⟩

theorem authorizeEffect_reports (job : EffectJob) {next : Act (Except CycleError Unit)}
    (hnext : next.Reports none) : (worker.authorizeEffect job next).Reports asked := by
  refine ⟨trivial, fun observeOnly => ?_⟩
  match observeOnly with
  | true => exact denyEffect_reports worker _ job (.inl rfl)
  | false =>
    change Act.Reports none (if job.action.privileged && job.approval.isNone then
      worker.denyEffect job approvalDenial else next)
    split
    · exact denyEffect_reports worker _ job (.inr rfl)
    · exact hnext

theorem finish_reports (job : EffectJob) (operation : String) (result : EffectResult)
    {next : Act (Except CycleError Unit)} (hnext : next.Reports none) :
    (worker.finish job operation result next).Reports asked := by
  refine ⟨trivial, fun now => ⟨trivial, fun finished => ?_⟩⟩
  exact reports_orPersistenceFailed fun _ _ => hnext

theorem executeClaimed_reports (job : EffectJob) : (worker.executeClaimed job).Reports asked := by
  apply authorizeEffect_reports
  refine ⟨trivial, fun executed => ?_⟩
  cases executed with
  | ok result =>
    apply finish_reports
    cases result <;> exact reports_unasked _
  | error error =>
    change Act.Reports none (if error.permanent then _ else _)
    split
    · exact finish_reports worker none job _ _ (reports_unasked _)
    · refine ⟨trivial, fun now => ⟨trivial, fun released => ?_⟩⟩
      exact reports_orPersistenceFailed fun _ _ => reports_unasked _

theorem drainLoop_reports (remaining completed : Nat) :
    (worker.drainLoop remaining completed).Reports asked := by
  induction remaining generalizing completed asked with
  | zero => exact reports_silent rfl
  | succ remaining ih =>
    refine ⟨trivial, fun id => ⟨trivial, fun now => ⟨trivial, fun claimed => ?_⟩⟩⟩
    apply reports_orPersistenceFailed
    intro job _
    cases job with
    | none => exact reports_silent rfl
    | some job =>
      apply Program.Follows.bind (executeClaimed_reports worker _ job)
      intro asked result hresult
      cases result with
      | error error => exact hresult
      | ok _ => exact ih asked (completed + 1)

theorem drainPending_reports (limit : Nat) : (worker.drainPending limit).Reports asked := by
  apply Program.Follows.bind (recoverStartup_reports worker asked)
  intro asked recovered hrecovered
  cases recovered with
  | error error => exact hrecovered
  | ok _ => exact drainLoop_reports worker asked limit 0

theorem claimAndExecute_reports (outcome : TerminalOutcome) :
    (worker.claimAndExecute outcome).Reports asked := by
  refine ⟨trivial, fun id => ⟨trivial, fun now => ⟨trivial, fun claimed => ?_⟩⟩⟩
  apply reports_orPersistenceFailed
  intro job _
  cases job with
  | none => exact reports_silent rfl
  | some job => exact executeClaimed_reports worker _ job

theorem dispatchOutcome_reports (outcome : TerminalOutcome) :
    (worker.dispatchOutcome outcome).Reports asked := by
  apply Program.Follows.bind (recoverStartup_reports worker asked)
  intro asked recovered hrecovered
  cases recovered with
  | error error => exact hrecovered
  | ok _ =>
    refine ⟨trivial, fun current => ?_⟩
    apply reports_orPersistenceFailed
    intro job _
    cases job with
    | none => exact reports_silent rfl
    | some job =>
      simp only
      split
      · exact authorizeEffect_reports worker _ job (claimAndExecute_reports worker _ outcome)
      · exact reports_unasked _

end Worker

theorem job_follows_block (job : Job) :
    job.program.Follows blockProtocol (fun asked reply => ReportsBlock asked reply.reportsDenial)
      none := by
  have hsilent {asked : Option AskedBlock} {reply : Reply} (h : reply.reportsDenial = false) :
      ReportsBlock asked reply.reportsDenial := by
    intro block _ hreport
    rw [h] at hreport
    cases hreport
  cases job with
  | call policy operation isPublic => exact ⟨trivial, fun _ => hsilent rfl⟩
  | executeProcess policy actor request =>
    exact (Program.follows_of_allowed (fun _ _ => trivial) _ none).bind fun _ _ _ => hsilent rfl
  | recoverStartup worker =>
    exact (recoverStartup_reports worker none).bind fun _ _ _ => hsilent rfl
  | drainPending worker limit =>
    exact (drainPending_reports worker none limit).bind fun _ _ h => h
  | dispatchOutcome worker outcome =>
    exact (dispatchOutcome_reports worker none outcome).bind fun _ _ h => h

def Ledger.isBlocked (ledger : Ledger) (effectId : String) : Bool :=
  (ledger.effect effectId).any (·.state = .blocked)

def Call.approves (effectId : String) : Call → Bool
  | .issuePrivilegedApproval _ _ approved => approved = effectId
  | _ => false

/-- The step issues a new privileged approval for the effect. -/
def approvesAt (effectId : String) (step : SystemStep) : Bool :=
  (operationOf step.before step.event).any fun op =>
    op.call.approves effectId && op.isFresh step.before.shared &&
      (op.result step.before.shared).isOk

/-- The effect is blocked, and until a new approval for it is issued it stays so
and no claim leases it, whatever happens. -/
def DurablyBlocked (effectId : String) (pool : System) : Prop :=
  pool.shared.isBlocked effectId ∧
    ∀ later, (∀ step ∈ system.trace pool later, approvesAt effectId step = false) →
      (system.run pool later).shared.isBlocked effectId ∧
        ∀ step ∈ system.trace pool later, leasesAt effectId step = false

section Blocked

variable {pool : System} {effectId : String} {ledger after : Ledger} {row : EffectRow}

theorem isBlocked_iff : ledger.isBlocked effectId ↔
    ∃ row, ledger.effect effectId = some row ∧ row.state = .blocked := by
  unfold Ledger.isBlocked
  simp [Option.any_eq_true]

theorem commit_blocked (op : Operation) (hkeys : ledger.KeysUnique)
    (hrow : ledger.effect effectId = some row) (hblocked : row.state = .blocked)
    (hno : (op.call.approves effectId && op.isFresh ledger && (op.result ledger).isOk) = false) :
    (op.commit ledger).effect effectId = some row ∧ op.leasesEffect ledger effectId = false := by
  have hid : row.effectId = effectId := (Table.lookup_mem hrow).2
  obtain ⟨row', hrow', hmove, hgeneration⟩ := commit_row op hkeys hrow
  have hsame : row' = row := by
    rcases hmove.closed (by rw [hblocked]; decide) (by rw [hblocked]; decide) with
      hsame | ⟨-, authority, requestId, hcall⟩
    · exact hsame
    -- an approval of this effect that is no new one leaves the ledger as it is
    · have hunchanged : op.commit ledger = ledger := by
        cases hresult : op.result ledger with
        | error error => exact op.commit_of_error hresult
        | ok value =>
          apply commit_of_recorded
          simpa [hcall, Call.approves, hid, hresult, Except.isOk, Except.toBool] using hno
      rw [hunchanged, hrow] at hrow'
      exact (Option.some.inj hrow').symm
  subst hsame
  refine ⟨hrow', ?_⟩
  by_contra hleases
  rw [if_pos (by simpa using hleases)] at hgeneration
  omega

theorem step_blocked (hkeys : pool.shared.KeysUnique) (event : SystemEvent)
    (hrow : pool.shared.effect effectId = some row) (hblocked : row.state = .blocked)
    (hno : approvesAt effectId ⟨pool, event, system.step pool event⟩ = false) :
    (system.step pool event).shared.effect effectId = some row ∧
      leasesAt effectId ⟨pool, event, system.step pool event⟩ = false := by
  unfold leasesAt
  unfold approvesAt at hno
  rw [step_ledger]
  cases hop : operationOf pool event with
  | none => exact ⟨hrow, rfl⟩
  | some op =>
    simp only [hop, Option.any_some] at hno ⊢
    exact commit_blocked op hkeys hrow hblocked hno

theorem durablyBlocked_of_blocked (hkeys : pool.shared.KeysUnique)
    (h : pool.shared.isBlocked effectId) : DurablyBlocked effectId pool := by
  refine ⟨h, ?_⟩
  intro later hno
  induction later generalizing pool with
  | nil => exact ⟨h, fun _ hstep => nomatch hstep⟩
  | cons event later ih =>
    obtain ⟨row, hrow, hblocked⟩ := isBlocked_iff.mp h
    obtain ⟨hrow', hleases⟩ :=
      step_blocked hkeys event hrow hblocked (hno _ List.mem_cons_self)
    obtain ⟨hrun, hlater⟩ := ih (step_keysUnique pool event hkeys)
      (isBlocked_iff.mpr ⟨row, hrow', hblocked⟩)
      fun step hstep => hno step (List.mem_cons_of_mem _ hstep)
    refine ⟨hrun, ?_⟩
    intro step hstep
    rcases List.mem_cons.mp hstep with rfl | hstep
    · exact hleases
    · exact hlater step hstep

theorem blockEffectAuthorization_blocks {policy : CapabilityPolicy} {env : Ambient}
    {job : EffectJob} {requestId reason : String} (hkeys : ledger.KeysUnique)
    (h : blockEffectAuthorization policy env job requestId reason ledger = .ok ((), after)) :
    after.isBlocked job.effectId ↔
      ledger.request requestId = none ∨ ledger.isBlocked job.effectId := by
  unfold blockEffectAuthorization at h
  obtain ⟨ticket, hplan, h⟩ := bind_eq_ok.mp h
  have hid : ticket.requestId = requestId := by
    simp only [blockPlan, bind_eq_ok] at hplan
    grind
  rcases once_eq_ok h with ⟨rfl, row, -, hrow, -⟩ | ⟨hfree, h⟩
  · rw [hid] at hrow
    simp [hrow]
  · rw [hid] at hfree
    simp only [bind_eq_ok, persist_eq_ok, Ledger.insertDecision_eq_ok, recordRequest_record] at h
    obtain ⟨-, ⟨-, -, rfl⟩, updated, hblock, -, ⟨-, rfl⟩, hresult⟩ := h
    obtain ⟨hone, rfl⟩ := blockRow_eq_ok hblock
    cases hresult
    have hsome : 0 < ledger.effectJobs.countP (blockable env job) := hone ▸ Nat.one_pos
    obtain ⟨row, hmem, hrow⟩ := List.countP_pos_iff.mp hsome
    have hfound : ledger.effect job.effectId = some row := by
      unfold Ledger.effect
      rw [← (blockable_open hrow).1]
      exact hkeys.effect.lookup_eq hmem
    have hafter := effect_setEffects (blockable env job)
      (fun row => row.sameEffect_blockedFor reason) hfound
    rw [if_pos hrow] at hafter
    exact iff_of_true (isBlocked_iff.mpr ⟨_, hafter, rfl⟩) (.inl hfree)

end Blocked

theorem report_granted {pool : System}
    (hfollowing : Pool.Following blockProtocol none
      (fun asked reply => ReportsBlock asked reply.reportsDenial) pool)
    {index : Nat} {world : World} {policy : CapabilityPolicy} {job : EffectJob}
    {requestId reason : String} {reply : Reply}
    (hissued : pool.issued (.advance index world : SystemEvent) =
      some (world, .call policy (.blockEffectAuthorization job requestId reason)))
    (hreply : (system.step pool (.advance index world)).returned index = some reply)
    (hreport : reply.reportsDenial) :
    AskedBlock.ByWorker ⟨job, requestId, reason, true⟩ ∧
      ∃ after, blockEffectAuthorization policy world.toAmbient job requestId reason pool.shared =
        .ok ((), after) := by
  obtain ⟨past, hpost⟩ := host.following_returned hfollowing hissued hreply
  cases hresult : blockEffectAuthorization policy world.toAmbient job requestId reason
      pool.shared with
  | error error =>
    have hanswer : (host.answer pool.shared world (.call policy
        (.blockEffectAuthorization job requestId reason))).1 = .error error := by
      simp only [host, respond, perform, hresult]
      rfl
    rw [hanswer] at hpost
    cases (hpost _ rfl hreport).granted
  | ok value =>
    have hanswer : (host.answer pool.shared world (.call policy
        (.blockEffectAuthorization job requestId reason))).1 = .ok () := by
      simp only [host, respond, perform, hresult]
      rfl
    rw [hanswer] at hpost
    exact ⟨hpost _ rfl hreport, value.2, rfl⟩

/-- In every run, when a worker's dispatch or drain returns at a block with the
report that the effect is denied, the effect is durably blocked exactly if the
block's request id was not recorded yet or the effect was blocked already. -/
theorem denied_effect_durably_blocked_iff (db : Database) (left : List SystemEvent) (index : Nat)
    (world : World) (policy : CapabilityPolicy) (job : EffectJob) (requestId reason : String)
    (reply : Reply)
    (hissued : (system.run (Pool.init db.ledger) left).issued
        (.advance index world : SystemEvent) =
      some (world, .call policy (.blockEffectAuthorization job requestId reason)))
    (hreply : (system.run (Pool.init db.ledger) (left ++ [.advance index world])).returned index =
      some reply)
    (hreport : reply.reportsDenial) :
    (∃ denial, (denial = observeOnlyDenial ∨ denial = approvalDenial) ∧
      requestId = effectMutationRequestId job denial.operation) ∧
    (DurablyBlocked job.effectId
        (system.run (Pool.init db.ledger) (left ++ [.advance index world])) ↔
      (system.run (Pool.init db.ledger) left).shared.request requestId = none ∨
        (system.run (Pool.init db.ledger) left).shared.isBlocked job.effectId) := by
  have hinit : Pool.Following blockProtocol none
      (fun asked reply => ReportsBlock asked reply.reportsDenial)
      (Pool.init db.ledger : System) := Pool.following_init db.ledger
  have hkeys : (system.run (Pool.init db.ledger) left).shared.KeysUnique :=
    keysUnique_run db.keys left
  have hafterKeys : (system.run (Pool.init db.ledger)
      (left ++ [.advance index world])).shared.KeysUnique := keysUnique_run db.keys _
  rw [Machine.run_append] at hreply hafterKeys ⊢
  obtain ⟨⟨-, denial, hdenial, hid, -⟩, after, hblock⟩ :=
    report_granted (host.following_run job_follows_block hinit left) hissued hreply hreport
  refine ⟨⟨denial, hdenial, hid⟩, ?_⟩
  have hshared : (system.run (system.run (Pool.init db.ledger) left)
      [.advance index world]).shared = after := by
    change (system.step _ _).shared = after
    rw [step_ledger]
    unfold operationOf
    rw [hissued]
    exact Operation.commit_of_ok ⟨policy, world.toAmbient,
      .blockEffectAuthorization job requestId reason⟩ hblock
  rw [← blockEffectAuthorization_blocks hkeys hblock, ← hshared]
  exact ⟨fun h => h.1, durablyBlocked_of_blocked hafterKeys⟩

/-- A dispatch of the sample outcome in observe-only mode, up to its block. -/
def dispatchSample (index : Nat) (label : String) : List SystemEvent :=
  .start (.dispatchOutcome sampleWorker sampleOutcome) ::
    List.replicate 5 (.advance index (sampleWorld label true 1))

theorem first_block_durable :
    DurablyBlocked "a-1" (system.run (Pool.init Ledger.empty)
      (recordSample ++ dispatchSample 1 "b" ++ [.advance 1 (sampleWorld "b" true 1)])) := by
  have h := denied_effect_durably_blocked_iff Database.empty
    (recordSample ++ dispatchSample 1 "b") 1 (sampleWorld "b" true 1) samplePolicy sampleSnapshot
    "a-1:0:observe-only-block" observeOnlyDenial.reason
    (.dispatched (downstreamFailed observeOnlyDenial.report)) rfl rfl (by decide)
  exact h.2.mpr (.inl rfl)

/-- Block, approve and block again at the same generation: the second dispatch
reports the effect as blocked, but it is still pending and the next claim leases
it. -/
theorem second_block_not_durable :
    let pool := system.run (Pool.init Ledger.empty)
      (recordSample ++ dispatchSample 1 "b" ++ [.advance 1 (sampleWorld "b" true 1)] ++
        [.start (.call samplePolicy (.issuePrivilegedApproval ⟨"operator", []⟩ "approve-1" "a-1")
          rfl), .advance 2 (sampleWorld "c" false 2)] ++
        dispatchSample 3 "d" ++ [.advance 3 (sampleWorld "d" true 3)])
    let claim : Operation := ⟨samplePolicy, (sampleWorld "e" false 4).toAmbient,
      .claimNextEffect "worker-2" "worker-2:claim:e" 4000000 60000000000⟩
    (pool.returned 3).any Reply.reportsDenial ∧ pool.shared.isBlocked "a-1" = false ∧
      claim.leasesEffect pool.shared "a-1" := by
  decide +kernel

end Simard.TypedOoda
