import Simard.TypedOoda.System

/-! Leases on effects. One transaction moves one row by one of a few moves, each
with the guard it was made under; fencing, single completion and the permanence
of settled effects are read off the moves. -/
namespace Simard.TypedOoda
open Simard.Library

/-- How a transaction may move the row of an effect. -/
inductive EffectMove (policy : CapabilityPolicy) (env : Ambient) (ledger : Ledger) (call : Call) :
    EffectRow → EffectRow → Prop where
  | same : EffectMove policy env ledger call row row
  | claimed (hselects : Selects policy ledger call ticket worker expiresAt selected)
      (hselected : selected row) (hpending : row.state = .pending) :
      EffectMove policy env ledger call row (row.claimed worker expiresAt)
  | recovered (hcall : call = .recoverExpiredEffects requestId time)
      (hexpired : row.expiredBy now) : EffectMove policy env ledger call row row.recovered
  | leased (hchange : LeasedChange policy call lease plan f)
      (hleased : row.leasedTo lease plan.owner plan.now) :
      EffectMove policy env ledger call row (f row)
  | blocked (hcall : call = .blockEffectAuthorization job requestId reason)
      (hblockable : blockable env job row) :
      EffectMove policy env ledger call row (row.blockedFor reason)
  | unblocked (hcall : call = .issuePrivilegedApproval authority requestId row.effectId)
      (hblocked : row.state = .blocked) : EffectMove policy env ledger call row row.unblocked

section Moves

variable {policy : CapabilityPolicy} {env : Ambient} {ledger after : Ledger} {call : Call}
  {effectId : String} {row : EffectRow}

theorem readEffect_eq_ok {job : EffectJob} (h : readEffect ledger row = .ok job) :
    job.effectId = row.effectId ∧ job.outcomeId = row.outcomeId ∧
      job.requestId = row.requestId ∧ job.state = row.state ∧
      job.leaseGeneration = row.leaseGeneration ∧ job.leaseOwner = row.leaseOwner ∧
      fromJson row.actionJson = some job.action ∧
      (latestApproval ledger row.effectId).mapM decode = .ok job.approval ∧
      ∃ outcome, terminalForOutcomeId ledger row.outcomeId = .ok outcome ∧
        job.goalId = outcome.goalId ∧ job.repository = outcome.repository := by
  unfold readEffect at h
  obtain ⟨-, -, h⟩ := bind_eq_ok.mp h
  obtain ⟨outcome, houtcome, h⟩ := bind_eq_ok.mp h
  obtain ⟨action, haction, h⟩ := bind_eq_ok.mp h
  obtain ⟨result, -, h⟩ := bind_eq_ok.mp h
  obtain ⟨approval, happroval, h⟩ := bind_eq_ok.mp h
  cases h
  exact ⟨rfl, rfl, rfl, rfl, rfl, rfl, decode_eq_ok.mp haction, happroval, outcome, houtcome,
    rfl, rfl⟩

theorem queryEffect_eq_ok {found : Option EffectRow} {job : Option EffectJob}
    (h : queryEffect ledger found = .ok job) :
    (found = none ∧ job = none) ∨
      ∃ row read, found = some row ∧ job = some read ∧ readEffect ledger row = .ok read := by
  unfold queryEffect at h
  cases found with
  | none =>
    cases h
    exact .inl ⟨rfl, rfl⟩
  | some row =>
    simp only [Option.mapM_some] at h
    cases hread : readEffect ledger row with
    | error e =>
      rw [hread] at h
      cases h
    | ok read =>
      rw [hread] at h
      cases h
      exact .inr ⟨row, read, rfl, rfl, hread⟩

theorem draftApproval_eq_ok {authority : ApprovalAuthority} {approval : PrivilegedApproval}
    (h : draftApproval env authority effectId ledger = .ok approval) :
    ∃ row job outcome payload, ledger.effect effectId = some row ∧
      readEffect ledger row = .ok job ∧ (job.state = .pending ∨ job.state = .blocked) ∧
      terminalForOutcomeId ledger job.outcomeId = .ok outcome ∧
      outcome.payload = .action payload ∧
      approval = authority.sign (unsignedApproval env authority.principal job outcome
        payload.admission.policyRevision) := by
  unfold draftApproval at h
  obtain ⟨found, hfound, h⟩ := bind_eq_ok.mp h
  rcases queryEffect_eq_ok hfound with ⟨-, rfl⟩ | ⟨row, job, hrow, rfl, hread⟩
  · cases h
  · simp only [bind_eq_ok, ensure_eq_ok] at h
    obtain ⟨-, hstate, -, -, outcome, houtcome, h⟩ := h
    split at h
    next payload hpayload =>
      cases h
      exact ⟨row, job, outcome, payload, hrow, hread, by simpa using hstate, houtcome, hpayload,
        rfl⟩
    next => cases h

theorem draftApproval_effectId {authority : ApprovalAuthority} {approval : PrivilegedApproval}
    (h : draftApproval env authority effectId ledger = .ok approval) :
    approval.effectId = effectId := by
  obtain ⟨row, job, outcome, payload, hrow, hread, -, -, -, rfl⟩ := draftApproval_eq_ok h
  exact (readEffect_eq_ok hread).1.trans (Table.lookup_mem hrow).2

theorem effect_setEffects (p : EffectRow → Bool) {f : EffectRow → EffectRow}
    (hf : ∀ row : EffectRow, row.SameEffect (f row)) (hrow : ledger.effect effectId = some row) :
    (ledger.setEffects p f).effect effectId = some (if p row then f row else row) := by
  unfold Ledger.effect Ledger.setEffects at *
  rw [Table.lookup_updateWhere fun row => (hf row).effectId, hrow]
  rfl

theorem commit_move (hcommit : Commit policy env ledger call after)
    (hrow : ledger.effect effectId = some row) :
    ∃ row', after.effect effectId = some row' ∧ EffectMove policy env ledger call row row' := by
  have hupdate {p : EffectRow → Bool} {f : EffectRow → EffectRow}
      (hf : ∀ row : EffectRow, row.SameEffect (f row))
      (hmove : p row → EffectMove policy env ledger call row (f row)) :
      ∃ row', (ledger.setEffects p f).effect effectId = some row' ∧
        EffectMove policy env ledger call row row' := by
    refine ⟨_, effect_setEffects p hf hrow, ?_⟩
    by_cases hp : p row
    · rw [if_pos hp]
      exact hmove hp
    · rw [if_neg hp]
      exact .same
  cases hcommit with
  | session => exact ⟨row, hrow, .same⟩
  | purge => exact ⟨row, hrow, .same⟩
  | release => exact ⟨row, hrow, .same⟩
  | approval hplan hfree hdraft hnew =>
    apply hupdate EffectRow.sameEffect_unblocked
    intro hp
    simp only [Bool.and_eq_true, decide_eq_true_eq, draftApproval_effectId hdraft] at hp
    exact .unblocked (by rw [hp.1]) hp.2
  | terminal => exact ⟨row, hrow, .same⟩
  | action => exact ⟨row, Table.lookup_append_of_some hrow, .same⟩
  | progress => exact ⟨row, hrow, .same⟩
  | claim hselects hfree hread =>
    apply hupdate (fun row => row.sameEffect_claimed _ _)
    intro hp
    simp only [Bool.and_eq_true, decide_eq_true_eq] at hp
    exact .claimed hselects hp.1 hp.2
  | recover hplan hfree =>
    apply hupdate EffectRow.sameEffect_recovered
    exact fun hp => .recovered rfl hp
  | leased hchange hfree hone =>
    apply hupdate hchange.sameEffect
    exact fun hp => .leased hchange hp
  | block hplan hfree hnew hone =>
    apply hupdate (fun row => row.sameEffect_blockedFor _)
    exact fun hp => .blocked rfl hp
  | reserve hplan hfree hslot hnew =>
    have hframe := reserveProcessSlot_frame hslot
    refine ⟨row, ?_, .same⟩
    rw [hframe]
    exact hrow
  | update => exact ⟨row, hrow, .same⟩

theorem commit_absent (hcommit : Commit policy env ledger call after)
    (hrow : ledger.effect effectId = none) :
    after.effect effectId = none ∨
      ∃ actor request admission, call = .recordAction actor request admission := by
  have hupdate (p : EffectRow → Bool) {f : EffectRow → EffectRow}
      (hf : ∀ row : EffectRow, row.SameEffect (f row)) :
      (ledger.setEffects p f).effect effectId = none := by
    unfold Ledger.effect Ledger.setEffects at *
    rw [Table.lookup_updateWhere fun row => (hf row).effectId, hrow]
    rfl
  cases hcommit with
  | approval => exact .inl (hupdate _ EffectRow.sameEffect_unblocked)
  | action => exact .inr ⟨_, _, _, rfl⟩
  | claim => exact .inl (hupdate _ fun row => row.sameEffect_claimed _ _)
  | recover => exact .inl (hupdate _ EffectRow.sameEffect_recovered)
  | leased hchange => exact .inl (hupdate _ hchange.sameEffect)
  | block => exact .inl (hupdate _ fun row => row.sameEffect_blockedFor _)
  | reserve hplan hfree hslot hnew =>
    rw [reserveProcessSlot_frame hslot]
    exact .inl hrow
  | _ => exact .inl hrow

theorem Selects.unique {ticket : Ticket} {worker : String} {expiresAt : Int}
    {selected : EffectRow → Bool} (hkeys : ledger.KeysUnique)
    (h : Selects policy ledger call ticket worker expiresAt selected) {a b : EffectRow}
    (ha : a ∈ ledger.effectJobs) (hb : b ∈ ledger.effectJobs) (hsa : selected a)
    (hsb : selected b) : a = b := by
  cases h with
  | next =>
    cases hfirst : ledger.effectJobs.find? (·.state = .pending) with
    | none => simp [hfirst] at hsa
    | some first =>
      simp only [hfirst, Option.any_some, decide_eq_true_eq] at hsa hsb
      exact hkeys.effect.eq_of_key ha hb (hsa.trans hsb.symm)
  | forOutcome =>
    simp only [decide_eq_true_eq] at hsa hsb
    exact hkeys.effectOutcome.eq_of_key ha hb (hsa.trans hsb.symm)

/-- What a claim that leases a job found and left. -/
structure Leased (ledger after : Ledger) (ticket : Ticket) (worker : String) (expiresAt : Int)
    (selected : EffectRow → Bool) (job : EffectJob) (row : EffectRow) : Prop where
  found : ledger.effect job.effectId = some row
  chosen : selected row
  pending : row.state = .pending
  after_eq : after = (ledger.setEffects (fun row => selected row && row.state = .pending)
    (·.claimed worker expiresAt)).record ticket (toJson (some job))
  read : readEffect (ledger.setEffects (fun row => selected row && row.state = .pending)
    (·.claimed worker expiresAt)) (row.claimed worker expiresAt) = .ok job

theorem claimWhere_fresh {ticket : Ticket} {worker : String} {expiresAt : Int}
    {selected : EffectRow → Bool} {claimed : Option EffectJob} (hkeys : ledger.KeysUnique)
    (hfree : ledger.request ticket.requestId = none)
    (h : claimWhere ledger ticket worker expiresAt selected = .ok (claimed, after)) :
    (claimed = none ∧ ∀ row ∈ ledger.effectJobs, selected row → row.state ≠ .pending) ∨
      ∃ job row, claimed = some job ∧
        Leased ledger after ticket worker expiresAt selected job row := by
  unfold claimWhere at h
  rw [once_of_unrecorded hfree] at h
  simp only [Ledger.updateEffects, bind_eq_ok, recordRequest_record] at h
  obtain ⟨job, hread, -, ⟨-, rfl⟩, hresult⟩ := h
  cases hresult
  rcases queryEffect_eq_ok hread with ⟨hnone, rfl⟩ | ⟨row', read, hsome, rfl, hread⟩
  · refine .inl ⟨rfl, ?_⟩
    intro row hrow hselected hpending
    have hp := List.find?_eq_none.mp (Option.map_eq_none_iff.mp hnone) row hrow
    simp [hselected, hpending] at hp
  · obtain ⟨row, hfind, rfl⟩ := Option.map_eq_some_iff.mp hsome
    have hp := List.find?_some hfind
    simp only [Bool.and_eq_true, decide_eq_true_eq] at hp
    have hid : read.effectId = row.effectId := (readEffect_eq_ok hread).1
    refine .inr ⟨read, row, rfl, ?_, hp.1, hp.2, rfl, hread⟩
    unfold Ledger.effect
    rw [hid]
    exact hkeys.effect.lookup_eq (List.mem_of_find?_eq_some hfind)

end Moves

def Call.claimedJob : (call : Call) → call.Result → Option EffectJob
  | .claimNextEffect .., job => job
  | .claimEffectForOutcome .., job => job
  | _, _ => none

def Call.claimRequestId : Call → Option String
  | .claimNextEffect _ requestId .. => some requestId
  | .claimEffectForOutcome _ _ requestId .. => some requestId
  | _ => none

theorem Call.claimedJob_of_not_claim {call : Call} (h : call.claimRequestId = none)
    (result : call.Result) : call.claimedJob result = none := by
  cases call with
  | claimNextEffect => cases h
  | claimEffectForOutcome => cases h
  | _ => rfl

def Operation.leases (op : Operation) (ledger : Ledger) : Option EffectJob :=
  match op.result ledger with
  | .ok (result, _) => if op.isFresh ledger then op.call.claimedJob result else none
  | .error _ => none

def Operation.leasesEffect (op : Operation) (ledger : Ledger) (effectId : String) : Bool :=
  (op.leases ledger).any (·.effectId = effectId)

def Call.leaseSnapshot : Call → Option (EffectJob × SystemTime)
  | .renewEffect lease _ now _ => some (lease, now)
  | .releaseEffectForRetry lease _ now _ => some (lease, now)
  | .finishEffect lease _ now _ => some (lease, now)
  | _ => none

def Call.finishes : Call → Bool
  | .finishEffect .. => true
  | _ => false

/-- The row runs under the snapshot's owner and generation, and its lease ends
strictly later than the caller's clock. -/
structure EffectRow.HeldBy (row : EffectRow) (lease : EffectJob) (now : SystemTime) : Prop where
  effectId : row.effectId = lease.effectId
  running : row.state = .running
  owner : row.leaseOwner = lease.leaseOwner
  owned : row.leaseOwner.isSome
  generation : row.leaseGeneration = lease.leaseGeneration
  unexpired : ∃ expiresAt, row.leaseExpiresAt = some expiresAt ∧ now / 1000000 < expiresAt

section Fencing

variable {policy : CapabilityPolicy} {env : Ambient} {ledger after : Ledger} {call : Call}
  {effectId : String} {row row' : EffectRow}

theorem LeasedChange.snapshot {lease : EffectJob} {plan : LeasePlan} {f : EffectRow → EffectRow}
    (h : LeasedChange policy call lease plan f) :
    ∃ now, call.leaseSnapshot = some (lease, now) ∧ plan.now = now / 1000000 ∧
      lease.leaseOwner = some plan.owner := by
  cases h with
  | renew hplan =>
    simp only [renewPlan, bind_eq_ok] at hplan
    obtain ⟨-, -, owner, howner, millis, hmillis, _, -, -, -, hplan⟩ := hplan
    cases hplan
    exact ⟨_, rfl, systemTimeMillis_eq_ok hmillis, effectLeaseOwner_eq_ok howner⟩
  | retry hplan =>
    simp only [retryPlan, bind_eq_ok] at hplan
    obtain ⟨-, -, owner, howner, millis, hmillis, hplan⟩ := hplan
    cases hplan
    exact ⟨_, rfl, systemTimeMillis_eq_ok hmillis, effectLeaseOwner_eq_ok howner⟩
  | finish hplan =>
    simp only [finishPlan, bind_eq_ok] at hplan
    obtain ⟨-, -, owner, howner, millis, hmillis, hplan⟩ := hplan
    cases hplan
    exact ⟨_, rfl, systemTimeMillis_eq_ok hmillis, effectLeaseOwner_eq_ok howner⟩

theorem Selects.claimRequestId {ticket : Ticket} {worker : String} {expiresAt : Int}
    {selected : EffectRow → Bool}
    (h : Selects policy ledger call ticket worker expiresAt selected) :
    call.claimRequestId = some ticket.requestId := by
  cases h with
  | next hplan =>
    simp only [claimNextPlan, bind_eq_ok] at hplan
    obtain ⟨-, -, -, -, _, -, _, -, hplan⟩ := hplan
    cases hplan
    rfl
  | forOutcome hplan =>
    simp only [claimForOutcomePlan, bind_eq_ok] at hplan
    obtain ⟨-, -, -, -, -, -, _, -, _, -, hplan⟩ := hplan
    cases hplan
    rfl

theorem Selects.not_snapshot {ticket : Ticket} {worker : String} {expiresAt : Int}
    {selected : EffectRow → Bool}
    (h : Selects policy ledger call ticket worker expiresAt selected) :
    call.leaseSnapshot = none := by
  cases h <;> rfl

theorem leasedTo_heldBy {lease : EffectJob} {owner : String} {now : SystemTime}
    (howner : lease.leaseOwner = some owner) (h : row.leasedTo lease owner (now / 1000000)) :
    row.HeldBy lease now := by
  simp only [EffectRow.leasedTo, Bool.and_eq_true, decide_eq_true_eq, Option.any_eq_true] at h
  obtain ⟨⟨⟨⟨hid, hrunning⟩, hrow⟩, hgeneration⟩, expiresAt, hexpires, hlater⟩ := h
  exact ⟨hid, hrunning, hrow.trans howner.symm, by simp [hrow], hgeneration, expiresAt, hexpires,
    hlater⟩

theorem EffectMove.heldBy {lease : EffectJob} {now : SystemTime}
    (hmove : EffectMove policy env ledger call row row')
    (hsnapshot : call.leaseSnapshot = some (lease, now)) (hchanged : row' ≠ row) :
    row.HeldBy lease now := by
  cases hmove with
  | same => exact absurd rfl hchanged
  | claimed hselects =>
    rw [hselects.not_snapshot] at hsnapshot
    cases hsnapshot
  | recovered hcall =>
    subst hcall
    cases hsnapshot
  | leased hchange hleased =>
    obtain ⟨time, hcall, hnow, howner⟩ := hchange.snapshot
    rw [hcall] at hsnapshot
    cases hsnapshot
    rw [hnow] at hleased
    exact leasedTo_heldBy howner hleased
  | blocked hcall =>
    subst hcall
    cases hsnapshot
  | unblocked hcall =>
    subst hcall
    cases hsnapshot

theorem blockable_open {job : EffectJob} (h : blockable env job row) :
    row.effectId = job.effectId ∧ (row.state = .pending ∨ row.state = .running) := by
  unfold blockable at h
  split at h
  · simp only [Option.any_eq_true, EffectRow.leasedTo, Bool.and_eq_true, decide_eq_true_eq] at h
    obtain ⟨owner, -, h⟩ := h
    exact ⟨h.1.1.1.1, .inr h.1.1.1.2⟩
  · simp only [Bool.and_eq_true, decide_eq_true_eq] at h
    exact ⟨h.1, .inl h.2⟩

theorem EffectMove.closed (hmove : EffectMove policy env ledger call row row')
    (hpending : row.state ≠ .pending) (hrunning : row.state ≠ .running) :
    row' = row ∨ (row.state = .blocked ∧
      ∃ authority requestId, call = .issuePrivilegedApproval authority requestId row.effectId) := by
  cases hmove with
  | same => exact .inl rfl
  | claimed _ _ h => exact absurd h hpending
  | recovered _ h =>
    simp only [EffectRow.expiredBy, Bool.and_eq_true, decide_eq_true_eq] at h
    exact absurd h.1 hrunning
  | leased _ h =>
    simp only [EffectRow.leasedTo, Bool.and_eq_true, decide_eq_true_eq] at h
    exact absurd h.1.1.1.2 hrunning
  | blocked _ h =>
    rcases (blockable_open h).2 with h | h
    · exact absurd h hpending
    · exact absurd h hrunning
  | unblocked hcall h => exact .inr ⟨h, _, _, hcall⟩

theorem EffectMove.settled (hmove : EffectMove policy env ledger call row row')
    (hsettled : row.state.settled) : row' = row := by
  have hne {state : EffectState} (h : state.settled = false) : row.state ≠ state := by
    intro hstate
    rw [hstate, h] at hsettled
    cases hsettled
  rcases hmove.closed (hne (by decide)) (hne (by decide)) with hsame | ⟨hblocked, -⟩
  · exact hsame
  · exact absurd hblocked (hne (by decide))

theorem EffectMove.generation (hmove : EffectMove policy env ledger call row row')
    (hcall : ∀ ticket worker expiresAt selected,
      ¬Selects policy ledger call ticket worker expiresAt selected) :
    row'.leaseGeneration = row.leaseGeneration := by
  cases hmove with
  | same => rfl
  | claimed hselects => exact absurd hselects (hcall _ _ _ _)
  | recovered => rfl
  | leased hchange => cases hchange <;> rfl
  | blocked => rfl
  | unblocked => rfl

theorem EffectMove.finishes (hmove : EffectMove policy env ledger call row row')
    (hfinishes : call.finishes) (hchanged : row' ≠ row) : row'.state.settled := by
  cases hmove with
  | same => exact absurd rfl hchanged
  | claimed hselects =>
    cases hselects <;> cases hfinishes
  | recovered hcall =>
    subst hcall
    cases hfinishes
  | leased hchange =>
    cases hchange with
    | renew => cases hfinishes
    | retry => cases hfinishes
    | finish =>
      rename_i result _
      cases result <;> rfl
  | blocked hcall =>
    subst hcall
    cases hfinishes
  | unblocked hcall =>
    subst hcall
    cases hfinishes

theorem claimWhere_generation {ticket : Ticket} {worker : String} {expiresAt : Int}
    {selected : EffectRow → Bool} {claimed : Option EffectJob} (hkeys : ledger.KeysUnique)
    (hselects : Selects policy ledger call ticket worker expiresAt selected)
    (hrow : ledger.effect effectId = some row)
    (h : claimWhere ledger ticket worker expiresAt selected = .ok (claimed, after)) :
    ∃ row', after.effect effectId = some row' ∧ row'.leaseGeneration = row.leaseGeneration +
      if (if (ledger.request ticket.requestId).isNone then claimed else none).any
        (·.effectId = effectId) then 1 else 0 := by
  obtain ⟨hmem, hid⟩ := Table.lookup_mem hrow
  cases hrecorded : ledger.request ticket.requestId with
  | some recorded =>
    rcases once_eq_ok h with ⟨rfl, -⟩ | ⟨hfree, -⟩
    · exact ⟨row, hrow, rfl⟩
    · rw [hfree] at hrecorded
      cases hrecorded
  | none =>
    simp only [Option.isNone_none, if_true]
    rcases claimWhere_fresh hkeys hrecorded h with ⟨rfl, hnone⟩ | ⟨job, found, rfl, hleased⟩
    · rcases once_eq_ok h with ⟨rfl, -⟩ | ⟨-, hbody⟩
      · exact ⟨row, hrow, rfl⟩
      · simp only [Ledger.updateEffects, bind_eq_ok, recordRequest_record] at hbody
        obtain ⟨job, -, -, ⟨-, rfl⟩, hresult⟩ := hbody
        cases hresult
        refine ⟨_, effect_setEffects _ (fun row => row.sameEffect_claimed _ _) hrow, ?_⟩
        have hp : (selected row && decide (row.state = .pending)) = false := by
          by_cases hselected : selected row
          · simp [hselected, hnone row hmem hselected]
          · simp [hselected]
        rw [if_neg (by rw [hp]; exact Bool.false_ne_true)]
        rfl
    · obtain ⟨hfoundMem, hfoundId⟩ := Table.lookup_mem hleased.found
      have hafter := effect_setEffects (fun row => selected row && row.state = .pending)
        (fun row => row.sameEffect_claimed worker expiresAt) hrow
      rw [hleased.after_eq]
      refine ⟨_, hafter, ?_⟩
      by_cases hsame : job.effectId = effectId
      · have heq : row = found :=
          hkeys.effect.eq_of_key hmem hfoundMem (by rw [hid, hfoundId, hsame])
        subst heq
        simp [hleased.chosen, hleased.pending, hsame, EffectRow.claimed]
      · have hselected : selected row = false := by
          by_contra hselected
          have heq := hselects.unique hkeys hmem hfoundMem (by simpa using hselected)
            hleased.chosen
          apply hsame
          rw [← hfoundId, ← heq, hid]
        simp [hselected, hsame]

/-- A call that claims: which row it selects, what it returns and what it leases. -/
structure Claims (op : Operation) (ledger : Ledger) (ticket : Ticket) (worker : String)
    (expiresAt : Int) (selected : EffectRow → Bool) (claimed : Option EffectJob) : Prop where
  selects : Selects op.policy ledger op.call ticket worker expiresAt selected
  ticket_eq : op.call.ticket op.policy op.env = some (.ok ticket)
  claim_eq : claimWhere ledger ticket worker expiresAt selected = .ok (claimed, op.commit ledger)
  leases_eq : op.leases ledger =
    if (ledger.request ticket.requestId).isNone then claimed else none

theorem Operation.leases_of_ok (op : Operation) {result : op.call.Result}
    (h : op.result ledger = .ok (result, after)) :
    op.leases ledger = if op.isFresh ledger then op.call.claimedJob result else none := by
  unfold leases
  rw [h]

theorem Operation.leases_of_error (op : Operation) {error : CapabilityError}
    (h : op.result ledger = .error error) : op.leases ledger = none := by
  unfold leases
  rw [h]

theorem perform_claim {requestId : String} (hid : call.claimRequestId = some requestId)
    {result : call.Result} (h : perform policy env ledger call = .ok (result, after)) :
    ∃ ticket worker expiresAt selected,
      Selects policy ledger call ticket worker expiresAt selected ∧
        call.ticket policy env = some (.ok ticket) ∧
        claimWhere ledger ticket worker expiresAt selected =
          .ok (call.claimedJob result, after) := by
  cases call with
  | claimNextEffect worker requestId now lease =>
    cases hid
    obtain ⟨⟨ticket, expiresAt⟩, hplan, hclaim⟩ := bind_eq_ok.mp h
    refine ⟨ticket, worker, expiresAt, _, .next hplan, ?_, hclaim⟩
    simp only [Call.ticket, hplan]
    rfl
  | claimEffectForOutcome outcomeId worker requestId now lease =>
    cases hid
    obtain ⟨⟨ticket, expiresAt⟩, hplan, hclaim⟩ := bind_eq_ok.mp h
    refine ⟨ticket, worker, expiresAt, _, .forOutcome hplan, ?_, hclaim⟩
    simp only [Call.ticket, hplan]
    rfl
  | _ => cases hid

theorem Operation.claims_or_not (op : Operation) (ledger : Ledger) :
    (op.leases ledger = none ∧ (op.commit ledger = ledger ∨
      ∀ ticket worker expiresAt selected,
        ¬Selects op.policy ledger op.call ticket worker expiresAt selected)) ∨
    ∃ ticket worker expiresAt selected claimed,
      Claims op ledger ticket worker expiresAt selected claimed := by
  cases hresult : op.result ledger with
  | error error => exact .inl ⟨op.leases_of_error hresult, .inl (op.commit_of_error hresult)⟩
  | ok value =>
    obtain ⟨result, after⟩ := value
    have hleases := op.leases_of_ok hresult
    cases hid : op.call.claimRequestId with
    | none =>
      refine .inl ⟨?_, .inr ?_⟩
      · rw [hleases, Call.claimedJob_of_not_claim hid]
        simp
      · intro ticket worker expiresAt selected hselects
        rw [hselects.claimRequestId] at hid
        cases hid
    | some requestId =>
      obtain ⟨ticket, worker, expiresAt, selected, hselects, hticket, hclaim⟩ :=
        perform_claim hid hresult
      rw [← op.commit_of_ok hresult] at hclaim
      rw [isFresh_of_ticket hticket] at hleases
      exact .inr ⟨ticket, worker, expiresAt, selected, _, hselects, hticket, hclaim, hleases⟩

theorem commit_generation (op : Operation) (hkeys : ledger.KeysUnique)
    (hrow : ledger.effect effectId = some row) :
    ∃ row', (op.commit ledger).effect effectId = some row' ∧
      row'.leaseGeneration =
        row.leaseGeneration + if op.leasesEffect ledger effectId then 1 else 0 := by
  unfold Operation.leasesEffect
  rcases op.claims_or_not ledger with
    ⟨hnone, hidle⟩ | ⟨ticket, worker, expiresAt, selected, claimed, hclaims⟩
  · rw [hnone]
    rcases hidle with hsame | hselects
    · rw [hsame]
      exact ⟨row, hrow, rfl⟩
    · rcases commit_cases op.policy op.env ledger op.call with hsame | hcommit
      · refine ⟨row, ?_, rfl⟩
        unfold Operation.commit
        rw [hsame]
        exact hrow
      · obtain ⟨row', hrow', hmove⟩ := commit_move hcommit hrow
        exact ⟨row', hrow', hmove.generation hselects⟩
  · rw [hclaims.leases_eq]
    exact claimWhere_generation hkeys hclaims.selects hrow hclaims.claim_eq

theorem commit_row (op : Operation) (hkeys : ledger.KeysUnique)
    (hrow : ledger.effect effectId = some row) :
    ∃ row', (op.commit ledger).effect effectId = some row' ∧
      EffectMove op.policy op.env ledger op.call row row' ∧
      row'.leaseGeneration =
        row.leaseGeneration + if op.leasesEffect ledger effectId then 1 else 0 := by
  obtain ⟨row', hrow', hgeneration⟩ := commit_generation op hkeys hrow
  refine ⟨row', hrow', ?_, hgeneration⟩
  rcases commit_cases op.policy op.env ledger op.call with hsame | hcommit
  · unfold Operation.commit at hrow'
    rw [hsame, hrow] at hrow'
    cases hrow'
    exact .same
  · obtain ⟨moved, hmoved, hmove⟩ := commit_move hcommit hrow
    change (op.commit ledger).effect effectId = some moved at hmoved
    rw [hrow'] at hmoved
    cases hmoved
    exact hmove

end Fencing

def leasesAt (effectId : String) (step : SystemStep) : Bool :=
  (operationOf step.before step.event).any fun op =>
    op.leasesEffect step.before.shared effectId

def finishesAt (effectId : String) (step : SystemStep) : Bool :=
  (operationOf step.before step.event).any fun op =>
    op.call.finishes && op.isFresh step.before.shared &&
      step.after.shared.effect effectId != step.before.shared.effect effectId

/-- What a step may do to the row of an effect. -/
structure Fenced (step : SystemStep) (row after : EffectRow) : Prop where
  generation : after.leaseGeneration =
    row.leaseGeneration + if leasesAt row.effectId step then 1 else 0
  underLease : ∀ op lease now, operationOf step.before step.event = some op →
    op.call.leaseSnapshot = some (lease, now) → after ≠ row → row.HeldBy lease now
  settled : row.state.settled → after = row

section Runs

variable {pool : System} {effectId : String} {row : EffectRow}

theorem step_fenced (hkeys : pool.shared.KeysUnique) (event : SystemEvent)
    (hrow : pool.shared.effect effectId = some row) :
    ∃ after, (system.step pool event).shared.effect effectId = some after ∧
      Fenced ⟨pool, event, system.step pool event⟩ row after := by
  have hid : row.effectId = effectId := (Table.lookup_mem hrow).2
  rw [step_ledger]
  cases hop : operationOf pool event with
  | none =>
    refine ⟨row, hrow, ?_, ?_, fun _ => rfl⟩
    · simp [leasesAt, hop]
    · intro _ _ _ _ _ hchanged
      exact absurd rfl hchanged
  | some op =>
    obtain ⟨after, hafter, hmove, hgeneration⟩ := commit_row op hkeys hrow
    refine ⟨after, hafter, ?_, ?_, hmove.settled⟩
    · simpa [leasesAt, hop, hid] using hgeneration
    · intro op' lease now hop' hsnapshot hchanged
      cases hop.symm.trans hop'
      exact hmove.heldBy hsnapshot hchanged

def Settled (effectId : String) (row : EffectRow) (pool : System) : Prop :=
  pool.shared.effect effectId = some row ∧ row.state.settled

theorem step_settled (hkeys : pool.shared.KeysUnique) (event : SystemEvent)
    (h : Settled effectId row pool) : Settled effectId row (system.step pool event) := by
  obtain ⟨after, hafter, hfenced⟩ := step_fenced hkeys event h.1
  rw [hfenced.settled h.2] at hafter
  exact ⟨hafter, h.2⟩

theorem step_keysUnique (pool : System) (event : SystemEvent) (h : pool.shared.KeysUnique) :
    (system.step pool event).shared.KeysUnique :=
  keysUnique_run h [event]

theorem run_settled (hkeys : pool.shared.KeysUnique) (h : Settled effectId row pool)
    (events : List SystemEvent) : Settled effectId row (system.run pool events) := by
  have hboth := Machine.invariant_run (P := fun pool : System =>
    pool.shared.KeysUnique ∧ Settled effectId row pool) system
    (fun pool event hpool => ⟨step_keysUnique pool event hpool.1,
      step_settled hpool.1 event hpool.2⟩) ⟨hkeys, h⟩ events
  exact hboth.2

theorem finishes_at_most_once (hkeys : pool.shared.KeysUnique) (events : List SystemEvent) :
    (system.trace pool events).countP (finishesAt effectId) ≤ 1 := by
  apply Machine.fires_at_most_once system (fun pool => pool.shared.KeysUnique)
    (finishesAt effectId) (fun pool => ∃ row, Settled effectId row pool) step_keysUnique
  · rintro pool event hpool ⟨row, hsettled⟩
    exact ⟨row, step_settled hpool event hsettled⟩
  · intro pool event hpool hfires
    simp only [finishesAt] at hfires
    cases hop : operationOf pool event with
    | none => simp [hop] at hfires
    | some op =>
      simp only [hop, Option.any_some, Bool.and_eq_true, bne_iff_ne, ne_eq] at hfires
      obtain ⟨⟨hfinishes, -⟩, hchanged⟩ := hfires
      have hledger := step_ledger pool event
      rw [hop] at hledger
      cases hrow : pool.shared.effect effectId with
      | none =>
        rw [hrow, hledger] at hchanged
        refine absurd ?_ hchanged
        rcases commit_cases op.policy op.env pool.shared op.call with hsame | hcommit
        · exact (congrArg (Ledger.effect · effectId) hsame).trans hrow
        · rcases commit_absent hcommit hrow with hnone | ⟨actor, request, admission, hcall⟩
          · exact hnone
          · rw [hcall] at hfinishes
            cases hfinishes
      | some row =>
        obtain ⟨after, hafter, hmove, -⟩ := commit_row op hpool hrow
        refine ⟨after, ?_, ?_⟩
        · rw [hledger]
          exact hafter
        · apply hmove.finishes hfinishes
          intro hsame
          rw [hledger] at hchanged
          apply hchanged
          simp only at hafter ⊢
          rw [hafter, hrow, hsame]
  · rintro pool event hpool ⟨row, hsettled⟩
    have hafter := (step_settled hpool event hsettled).1
    simp [finishesAt, hafter, hsettled.1]
  · exact hkeys

end Runs

/-- Over every run, whoever calls with whatever snapshot, request id and clock:
generations rise by exactly one at each fresh claim of the effect and at no other
step, a renewal, retry or finish changes only a row its snapshot holds, at most
one finish changes an effect, and a settled effect never changes again. -/
theorem effect_leases_fenced (db : Database) (events : List SystemEvent) (effectId : String) :
    (∀ step ∈ system.trace (Pool.init db.ledger) events, ∀ row,
      step.before.shared.effect effectId = some row →
        ∃ after, step.after.shared.effect effectId = some after ∧ Fenced step row after) ∧
    (system.trace (Pool.init db.ledger) events).countP (finishesAt effectId) ≤ 1 ∧
    (∀ left right row, events = left ++ right →
      (system.run (Pool.init db.ledger) left).shared.effect effectId = some row →
      row.state.settled →
        (system.run (Pool.init db.ledger) events).shared.effect effectId = some row) := by
  refine ⟨?_, finishes_at_most_once db.keys events, ?_⟩
  · intro step hstep row hrow
    obtain ⟨hkeys, hafter⟩ := Machine.invariant_trace (P := fun pool : System =>
      pool.shared.KeysUnique) system step_keysUnique db.keys hstep
    obtain ⟨before, event, after⟩ := step
    change after = system.step before event at hafter
    subst hafter
    exact step_fenced hkeys event hrow
  · rintro left right row rfl hrow hsettled
    rw [Machine.run_append]
    exact (run_settled (keysUnique_run db.keys left) ⟨hrow, hsettled⟩ right).1

end Simard.TypedOoda
