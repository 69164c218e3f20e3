import Simard.TypedOoda.ProcessRuns

/-! The tables of the ledger tell one story: every effect belongs to the action
its terminal recorded, every claim to a spawned engineer's terminal, every
terminal and progress row is registered under its own request, and a closed cycle
takes no more progress. -/
namespace Simard.TypedOoda
open Simard.Library

def TerminalRow.action? (row : TerminalRow) : Option Action :=
  (fromJson row.outcomeJson).bind fun outcome : TerminalOutcome => outcome.payload.action?

def Registered (requests : List MutationRow) (requestId : String) (mutationType : MutationType)
    (result : Json) : Prop :=
  ∃ row ∈ requests, row.requestId = requestId ∧ row.mutationType = mutationType ∧
    row.resultJson = result

/-- What holds between the tables after every transaction. -/
structure Ledger.Linked (ledger : Ledger) : Prop where
  keys : ledger.KeysUnique
  stored : ∀ terminal ∈ ledger.terminalOutcomes,
    ∃ outcome : TerminalOutcome, terminal.outcomeJson = toJson outcome
  effectTerminal : ∀ effect ∈ ledger.effectJobs, ∃ terminal ∈ ledger.terminalOutcomes,
    terminal.outcomeId = effect.outcomeId ∧ effect.requestId = terminal.requestId ∧
      ∃ action, terminal.action? = some action ∧ effect.actionJson = toJson action
  terminalEffect : ∀ terminal ∈ ledger.terminalOutcomes, terminal.action? ≠ none →
    ∃ effect ∈ ledger.effectJobs, effect.outcomeId = terminal.outcomeId
  claimTerminal : ∀ claim ∈ ledger.engineerClaims, ∃ terminal ∈ ledger.terminalOutcomes,
    terminal.outcomeId = claim.outcomeId ∧
      ∃ spawn, terminal.action? = some (.spawnEngineer spawn) ∧ spawn.claimKey = claim.claimKey
  terminalRequest : ∀ terminal ∈ ledger.terminalOutcomes,
    Registered ledger.mutationRequests terminal.requestId .terminal terminal.outcomeJson
  progressRequest : ∀ progress ∈ ledger.progressRecords,
    Registered ledger.mutationRequests progress.requestId .progress progress.progressJson

theorem linked_empty : Ledger.empty.Linked where
  keys := keysUnique_empty
  stored := by simp [Ledger.empty]
  effectTerminal := by simp [Ledger.empty]
  terminalEffect := by simp [Ledger.empty]
  claimTerminal := by simp [Ledger.empty]
  terminalRequest := by simp [Ledger.empty]
  progressRequest := by simp [Ledger.empty]

section Registry

variable {requests : List MutationRow} {requestId : String} {mutationType : MutationType}
  {result : Json}

theorem Registered.append (h : Registered requests requestId mutationType result)
    (row : MutationRow) : Registered (requests ++ [row]) requestId mutationType result := by
  obtain ⟨old, hold, hrest⟩ := h
  exact ⟨old, List.mem_append_left _ hold, hrest⟩

theorem registered_row (requests : List MutationRow) (ticket : Ticket) (result : Json) :
    Registered (requests ++ [ticket.row result]) ticket.requestId ticket.mutationType result :=
  ⟨ticket.row result, List.mem_append_right _ List.mem_cons_self, rfl, rfl, rfl⟩

theorem Registered.update {ledger : Ledger} (hkeys : ledger.KeysUnique)
    (h : Registered ledger.mutationRequests requestId mutationType result)
    (htype : mutationType ≠ .processExec) {record : ProcessExecutionRecord}
    (hprocess : ∃ row, ledger.request record.requestId = some row ∧
      row.mutationType = .processExec) :
    Registered (Table.updateWhere (·.requestId = record.requestId)
      (·.withResult (toJson record)) ledger.mutationRequests) requestId mutationType result := by
  obtain ⟨row, hrow, hid, hrowType, hresult⟩ := h
  obtain ⟨process, hfound, hprocessType⟩ := hprocess
  obtain ⟨hprocess, hprocessId⟩ := Table.lookup_mem hfound
  have hne : row.requestId ≠ record.requestId := by
    intro hsame
    have heq := hkeys.mutation.eq_of_key hrow hprocess (hsame.trans hprocessId.symm)
    subst heq
    exact htype (hrowType.symm.trans hprocessType)
  refine ⟨row, Table.mem_updateWhere.mpr ⟨row, hrow, ?_⟩, hid, hrowType, hresult⟩
  simp [hne]

end Registry

section Links

variable {policy : CapabilityPolicy} {env : Ambient} {ledger after : Ledger} {call : Call}

theorem effectTerminal_update {effects : List EffectRow} {terminals : List TerminalRow}
    (h : ∀ effect ∈ effects, ∃ terminal ∈ terminals, terminal.outcomeId = effect.outcomeId ∧
      effect.requestId = terminal.requestId ∧
      ∃ action, terminal.action? = some action ∧ effect.actionJson = toJson action)
    (p : EffectRow → Bool) {f : EffectRow → EffectRow}
    (hf : ∀ row : EffectRow, row.SameEffect (f row)) :
    ∀ effect ∈ Table.updateWhere p f effects, ∃ terminal ∈ terminals,
      terminal.outcomeId = effect.outcomeId ∧ effect.requestId = terminal.requestId ∧
      ∃ action, terminal.action? = some action ∧ effect.actionJson = toJson action := by
  intro effect heffect
  obtain ⟨old, hold, rfl⟩ := Table.mem_updateWhere.mp heffect
  obtain ⟨terminal, hterminal, houtcome, hrequest, action, haction, hjson⟩ := h old hold
  refine ⟨terminal, hterminal, ?_⟩
  by_cases hp : p old
  · rw [if_pos hp, (hf old).outcomeId, (hf old).requestId, (hf old).actionJson]
    exact ⟨houtcome, hrequest, action, haction, hjson⟩
  · rw [if_neg hp]
    exact ⟨houtcome, hrequest, action, haction, hjson⟩

theorem terminalEffect_update {effects : List EffectRow} {terminals : List TerminalRow}
    (h : ∀ terminal ∈ terminals, terminal.action? ≠ none →
      ∃ effect ∈ effects, effect.outcomeId = terminal.outcomeId)
    (p : EffectRow → Bool) {f : EffectRow → EffectRow}
    (hf : ∀ row : EffectRow, row.SameEffect (f row)) :
    ∀ terminal ∈ terminals, terminal.action? ≠ none →
      ∃ effect ∈ Table.updateWhere p f effects, effect.outcomeId = terminal.outcomeId := by
  intro terminal hterminal haction
  obtain ⟨effect, heffect, houtcome⟩ := h terminal hterminal haction
  refine ⟨_, Table.mem_updateWhere.mpr ⟨effect, heffect, rfl⟩, ?_⟩
  by_cases hp : p effect
  · rw [if_pos hp, (hf effect).outcomeId, houtcome]
  · rw [if_neg hp, houtcome]

theorem linked_setEffects (h : ledger.Linked) (p : EffectRow → Bool) {f : EffectRow → EffectRow}
    (hf : ∀ row : EffectRow, row.SameEffect (f row)) (hkeys : after.KeysUnique)
    (row : MutationRow)
    (hafter : after.terminalOutcomes = ledger.terminalOutcomes ∧
      after.progressRecords = ledger.progressRecords ∧
      after.engineerClaims = ledger.engineerClaims ∧
      after.effectJobs = Table.updateWhere p f ledger.effectJobs ∧
      after.mutationRequests = ledger.mutationRequests ++ [row]) : after.Linked := by
  obtain ⟨hterminals, hprogress, hclaims, heffects, hrequests⟩ := hafter
  constructor
  · exact hkeys
  · rw [hterminals]
    exact h.stored
  · rw [hterminals, heffects]
    exact effectTerminal_update h.effectTerminal p hf
  · rw [hterminals, heffects]
    exact terminalEffect_update h.terminalEffect p hf
  · rw [hterminals, hclaims]
    exact h.claimTerminal
  · rw [hterminals, hrequests]
    exact fun terminal hterminal => (h.terminalRequest terminal hterminal).append row
  · rw [hprogress, hrequests]
    exact fun progress hprogress => (h.progressRequest progress hprogress).append row

theorem mem_append_singleton {x y : α} {l : List α} : x ∈ l ++ [y] ↔ x ∈ l ∨ x = y := by
  simp

theorem action?_toJson {row : TerminalRow} {outcome : TerminalOutcome}
    (h : row.outcomeJson = toJson outcome) : row.action? = outcome.payload.action? := by
  unfold TerminalRow.action?
  rw [h]
  simp

theorem linked_terminal (h : ledger.Linked) {outcome : TerminalOutcome} {ticket : Ticket}
    (htype : ticket.mutationType = .terminal) (hid : ticket.requestId = outcome.requestId)
    (hpayload : outcome.payload.action? = none) (hfree : ledger.request ticket.requestId = none)
    (hnew : ledger.admitsTerminal outcome) :
    ((ledger.addTerminal outcome ticket).record ticket (toJson outcome)).Linked := by
  constructor
  · exact keysUnique_record (keysUnique_addTerminal h.keys hnew) hfree
  · intro terminal hterminal
    rcases mem_append_singleton.mp hterminal with hold | rfl
    · exact h.stored terminal hold
    · exact ⟨outcome, rfl⟩
  · intro effect heffect
    obtain ⟨terminal, hterminal, hrest⟩ := h.effectTerminal effect heffect
    exact ⟨terminal, List.mem_append_left _ hterminal, hrest⟩
  · intro terminal hterminal haction
    rcases mem_append_singleton.mp hterminal with hold | rfl
    · exact h.terminalEffect terminal hold haction
    · rw [action?_toJson rfl] at haction
      exact absurd hpayload haction
  · intro claim hclaim
    obtain ⟨terminal, hterminal, hrest⟩ := h.claimTerminal claim hclaim
    exact ⟨terminal, List.mem_append_left _ hterminal, hrest⟩
  · intro terminal hterminal
    rcases mem_append_singleton.mp hterminal with hold | rfl
    · exact (h.terminalRequest terminal hold).append _
    · have hregistered := registered_row ledger.mutationRequests ticket (toJson outcome)
      rw [hid, htype] at hregistered
      exact hregistered
  · intro progress hprogress
    exact (h.progressRequest progress hprogress).append _

theorem ClaimsAfter.claimTerminal {claims new : List ClaimRow} {outcome : TerminalOutcome}
    {action : Action} (hclaims : ClaimsAfter env claims outcome action new)
    {terminals : List TerminalRow} {row : TerminalRow}
    (h : ∀ claim ∈ claims, ∃ terminal ∈ terminals, terminal.outcomeId = claim.outcomeId ∧
      ∃ spawn, terminal.action? = some (.spawnEngineer spawn) ∧ spawn.claimKey = claim.claimKey)
    (hrow : row.outcomeId = outcome.outcomeId) (haction : row.action? = some action) :
    ∀ claim ∈ new, ∃ terminal ∈ terminals ++ [row], terminal.outcomeId = claim.outcomeId ∧
      ∃ spawn, terminal.action? = some (.spawnEngineer spawn) ∧
        spawn.claimKey = claim.claimKey := by
  have hold (claim : ClaimRow) (hclaim : claim ∈ claims) :
      ∃ terminal ∈ terminals ++ [row], terminal.outcomeId = claim.outcomeId ∧
        ∃ spawn, terminal.action? = some (.spawnEngineer spawn) ∧
          spawn.claimKey = claim.claimKey := by
    obtain ⟨terminal, hterminal, hrest⟩ := h claim hclaim
    exact ⟨terminal, List.mem_append_left _ hterminal, hrest⟩
  have hlast : row ∈ terminals ++ [row] := List.mem_append_right _ List.mem_cons_self
  cases hclaims with
  | unchanged => exact hold
  | added =>
    intro claim hclaim
    rcases mem_append_singleton.mp hclaim with hclaim | rfl
    · exact hold claim hclaim
    · exact ⟨row, hlast, hrow, _, haction, rfl⟩
  | reclaimed =>
    intro claim hclaim
    rcases mem_append_singleton.mp hclaim with hclaim | rfl
    · exact hold claim (Table.mem_deleteWhere.mp hclaim).1
    · exact ⟨row, hlast, hrow, _, haction, rfl⟩

theorem linked_commit (hcommit : Commit policy env ledger call after) (h : ledger.Linked)
    (hupdate : call.UpdatesRegistered ledger) : after.Linked := by
  have hkeys := keysUnique_commit hcommit h.keys
  cases hcommit with
  | session hplan hfree hscope =>
    exact { h with
      keys := hkeys
      terminalRequest := fun terminal hterminal => (h.terminalRequest terminal hterminal).append _
      progressRequest := fun progress hprogress =>
        (h.progressRequest progress hprogress).append _ }
  | purge => exact { h with keys := hkeys }
  | release =>
    exact { h with
      keys := hkeys
      claimTerminal := fun claim hclaim =>
        h.claimTerminal claim (Table.mem_deleteWhere.mp hclaim).1 }
  | approval =>
    exact linked_setEffects h _ EffectRow.sameEffect_unblocked hkeys _ ⟨rfl, rfl, rfl, rfl, rfl⟩
  | terminal hticket htype hid hpayload hfree hnew =>
    exact linked_terminal h htype hid hpayload hfree hnew
  | @action actor request ticket admission claims hplan hfree hkey hadmitted hnew hclaims heffect =>
    obtain rfl := recordActionPlan_granted hplan
    have haction {row : TerminalRow}
        (hjson : row.outcomeJson = toJson (actionOutcome env actor request admission)) :
        row.action? = some request.action := action?_toJson hjson
    constructor
    · exact hkeys
    · intro terminal hterminal
      rcases mem_append_singleton.mp hterminal with hold | rfl
      · exact h.stored terminal hold
      · exact ⟨_, rfl⟩
    · intro effect heffect
      rcases mem_append_singleton.mp heffect with hold | rfl
      · obtain ⟨terminal, hterminal, hrest⟩ := h.effectTerminal effect hold
        exact ⟨terminal, List.mem_append_left _ hterminal, hrest⟩
      · exact ⟨_, List.mem_append_right _ List.mem_cons_self, rfl, rfl, request.action,
          haction rfl, rfl⟩
    · intro terminal hterminal hsome
      rcases mem_append_singleton.mp hterminal with hold | rfl
      · obtain ⟨effect, heffect, houtcome⟩ := h.terminalEffect terminal hold hsome
        exact ⟨effect, List.mem_append_left _ heffect, houtcome⟩
      · exact ⟨_, List.mem_append_right _ List.mem_cons_self, rfl⟩
    · exact hclaims.claimTerminal h.claimTerminal rfl (haction rfl)
    · intro terminal hterminal
      rcases mem_append_singleton.mp hterminal with hold | rfl
      · exact (h.terminalRequest terminal hold).append _
      · exact registered_row ledger.mutationRequests
          (terminalTicket policy actor request.identity (toJson request))
          (toJson (actionOutcome env actor request admission))
    · intro progress hprogress
      exact (h.progressRequest progress hprogress).append _
  | @progress actor request ticket hplan hfree hopen =>
    have hticket : ticket.requestId = request.identity.requestId ∧
        ticket.mutationType = .progress := by
      simp only [recordProgressPlan, bind_eq_ok] at hplan
      grind
    exact { h with
      keys := hkeys
      terminalRequest := fun terminal hterminal => (h.terminalRequest terminal hterminal).append _
      progressRequest := by
        intro progress hprogress
        rcases mem_append_singleton.mp hprogress with hold | rfl
        · exact (h.progressRequest progress hold).append _
        · have hregistered := registered_row ledger.mutationRequests ticket
            (toJson (newProgress env actor request))
          rw [hticket.1, hticket.2] at hregistered
          exact hregistered }
  | claim =>
    exact linked_setEffects h _ (fun row => row.sameEffect_claimed _ _) hkeys _
      ⟨rfl, rfl, rfl, rfl, rfl⟩
  | recover =>
    exact linked_setEffects h _ EffectRow.sameEffect_recovered hkeys _ ⟨rfl, rfl, rfl, rfl, rfl⟩
  | leased hchange =>
    exact linked_setEffects h _ hchange.sameEffect hkeys _ ⟨rfl, rfl, rfl, rfl, rfl⟩
  | block =>
    exact linked_setEffects h _ (fun row => row.sameEffect_blockedFor _) hkeys _
      ⟨rfl, rfl, rfl, rfl, rfl⟩
  | reserve hplan hfree hslot hnew =>
    rw [reserveProcessSlot_frame hslot] at hkeys ⊢
    exact { h with
      keys := hkeys
      terminalRequest := fun terminal hterminal => (h.terminalRequest terminal hterminal).append _
      progressRequest := fun progress hprogress =>
        (h.progressRequest progress hprogress).append _ }
  | update hone =>
    have hprocess := hupdate _ _ rfl
    exact { h with
      keys := hkeys
      terminalRequest := fun terminal hterminal =>
        (h.terminalRequest terminal hterminal).update h.keys (by decide) hprocess
      progressRequest := fun progress hprogress =>
        (h.progressRequest progress hprogress).update h.keys (by decide) hprocess }

end Links

theorem linked_run (events : List SystemEvent) :
    (system.run (Pool.init Ledger.empty) events).shared.Linked := by
  have hkept : KeptByCommits Ledger.Linked := fun _ _ _ _ _ hcommit hupdate h =>
    linked_commit hcommit h hupdate
  exact hkept.run [] linked_empty events

theorem commit_progress {policy : CapabilityPolicy} {env : Ambient} {ledger after : Ledger}
    {call : Call} (hcommit : Commit policy env ledger call after) :
    after.progressRecords = ledger.progressRecords ∨
      ∃ row, after.progressRecords = ledger.progressRecords ++ [row] ∧
        ledger.cycleOpen row.sessionId row.cycleId := by
  cases hcommit with
  | progress hplan hfree hopen => exact .inr ⟨_, rfl, hopen⟩
  | reserve hplan hfree hslot hnew =>
    rw [reserveProcessSlot_frame hslot]
    exact .inl rfl
  | _ => exact .inl rfl

/-- What the tables say about each other. -/
structure Ledger.Consistent (ledger : Ledger) : Prop where
  oneTerminal : ∀ sessionId cycleId, (ledger.terminalOutcomes.filter fun terminal =>
    (terminal.sessionId, terminal.cycleId) = (sessionId, cycleId)).length ≤ 1
  effects : ∀ terminal ∈ ledger.terminalOutcomes, ∃ outcome : TerminalOutcome,
    terminal.outcomeJson = toJson outcome ∧
      match outcome.payload with
      | .action value => ∃ effect,
          ledger.effectJobs.filter (·.outcomeId = terminal.outcomeId) = [effect] ∧
            effect.actionJson = toJson value.action ∧ effect.requestId = terminal.requestId
      | _ => ledger.effectJobs.filter (·.outcomeId = terminal.outcomeId) = []
  claims : ∀ claim ∈ ledger.engineerClaims, ∃ terminal ∈ ledger.terminalOutcomes,
    terminal.outcomeId = claim.outcomeId ∧
      ∃ (outcome : TerminalOutcome) (value : ActionOutcomePayload) (spawn : SpawnEngineerAction),
        terminal.outcomeJson = toJson outcome ∧ outcome.payload = .action value ∧
          value.action = .spawnEngineer spawn ∧ spawn.claimKey = claim.claimKey
  claimKeys : (ledger.engineerClaims.map (·.claimKey)).Nodup
  terminalRequests : ∀ terminal ∈ ledger.terminalOutcomes,
    Registered ledger.mutationRequests terminal.requestId .terminal terminal.outcomeJson
  progressRequests : ∀ progress ∈ ledger.progressRecords,
    Registered ledger.mutationRequests progress.requestId .progress progress.progressJson

theorem action?_eq_some {outcome : TerminalOutcome} {action : Action}
    (h : outcome.payload.action? = some action) :
    ∃ value, outcome.payload = .action value ∧ value.action = action := by
  cases hpayload : outcome.payload with
  | action value =>
    rw [hpayload] at h
    exact ⟨value, rfl, Option.some.inj h⟩
  | _ =>
    rw [hpayload] at h
    cases h

section Story

variable {ledger : Ledger}

theorem Ledger.Linked.effect_of_action (h : ledger.Linked) {terminal : TerminalRow}
    (hterminal : terminal ∈ ledger.terminalOutcomes) {action : Action}
    (haction : terminal.action? = some action) :
    ∃ effect, ledger.effectJobs.filter (·.outcomeId = terminal.outcomeId) = [effect] ∧
      effect.actionJson = toJson action ∧ effect.requestId = terminal.requestId := by
  obtain ⟨effect, heffect, houtcome⟩ := h.terminalEffect terminal hterminal (by simp [haction])
  obtain ⟨owner, howner, hsame, hrequest, stored, hstored, hjson⟩ :=
    h.effectTerminal effect heffect
  have heq : owner = terminal :=
    h.keys.terminalOutcome.eq_of_key howner hterminal (hsame.trans houtcome)
  subst heq
  rw [haction] at hstored
  cases hstored
  refine ⟨effect, ?_, hjson, hrequest⟩
  rw [hsame]
  exact h.keys.effectOutcome.filter_eq heffect

theorem Ledger.Linked.no_effect (h : ledger.Linked) {terminal : TerminalRow}
    (hterminal : terminal ∈ ledger.terminalOutcomes) (haction : terminal.action? = none) :
    ledger.effectJobs.filter (·.outcomeId = terminal.outcomeId) = [] := by
  apply List.filter_eq_nil_iff.mpr
  intro effect heffect houtcome
  obtain ⟨owner, howner, hsame, -, action, hstored, -⟩ := h.effectTerminal effect heffect
  have heq : owner = terminal :=
    h.keys.terminalOutcome.eq_of_key howner hterminal (hsame.trans (of_decide_eq_true houtcome))
  subst heq
  rw [haction] at hstored
  cases hstored

theorem Ledger.Linked.consistent (h : ledger.Linked) : ledger.Consistent where
  oneTerminal sessionId cycleId := h.keys.terminalCycle.filter_length_le_one (sessionId, cycleId)
  effects terminal hterminal := by
    obtain ⟨outcome, hjson⟩ := h.stored terminal hterminal
    have haction := action?_toJson hjson
    refine ⟨outcome, hjson, ?_⟩
    cases hpayload : outcome.payload with
    | action value =>
      rw [hpayload] at haction
      exact h.effect_of_action hterminal haction
    | _ =>
      rw [hpayload] at haction
      exact h.no_effect hterminal haction
  claims claim hclaim := by
    obtain ⟨terminal, hterminal, houtcome, spawn, haction, hkey⟩ := h.claimTerminal claim hclaim
    obtain ⟨outcome, hjson⟩ := h.stored terminal hterminal
    rw [action?_toJson hjson] at haction
    obtain ⟨value, hpayload, hvalue⟩ := action?_eq_some haction
    exact ⟨terminal, hterminal, houtcome, outcome, value, spawn, hjson, hpayload, hvalue, hkey⟩
  claimKeys := h.keys.claim
  terminalRequests := h.terminalRequest
  progressRequests := h.progressRequest

end Story

/-- From an empty ledger, whatever is called in whatever order, the tables stay
consistent, and no step adds progress to a cycle that has its terminal. -/
theorem ledger_stays_consistent (events : List SystemEvent) :
    (system.run (Pool.init Ledger.empty) events).shared.Consistent ∧
    ∀ step ∈ system.trace (Pool.init Ledger.empty) events,
      step.after.shared.progressRecords = step.before.shared.progressRecords ∨
        ∃ row, step.after.shared.progressRecords = step.before.shared.progressRecords ++ [row] ∧
          ∀ terminal ∈ step.before.shared.terminalOutcomes,
            ¬(terminal.sessionId = row.sessionId ∧ terminal.cycleId = row.cycleId) := by
  refine ⟨(linked_run events).consistent, ?_⟩
  intro step hstep
  obtain ⟨left, right, -, -, hafter⟩ := system.mem_trace hstep
  rw [hafter]
  rcases step_ledger_cases step.before step.event with hsame | ⟨op, -, hcommit⟩
  · rw [hsame]
    exact .inl rfl
  · exact commit_progress hcommit

end Simard.TypedOoda
