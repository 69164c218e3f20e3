import Simard.TypedOoda.EffectLeases

/-! The shape of an effect row. Every statement rewrites some of the columns only, and what the
others hold is known from the state it can fire in: a lease stands exactly while the effect runs
or is left undecided, and a result exactly once it has finished. -/
namespace Simard.TypedOoda
open Simard.Library

namespace EffectState

def named : List EffectState := [pending, running, blocked, succeeded, failed, indeterminate]

def holdsLease (state : EffectState) : Bool :=
  state = running || state = indeterminate

def holdsResult (state : EffectState) : Bool :=
  state = succeeded || state = failed

end EffectState

namespace EffectRow

structure Shaped (row : EffectRow) : Prop where
  attempt : row.attempt = row.leaseGeneration
  state : row.state ∈ EffectState.named
  leaseOwner : row.leaseOwner.isSome = row.state.holdsLease
  leaseExpiresAt : row.leaseExpiresAt.isSome = row.state.holdsLease
  leaseGeneration : row.state.holdsLease ∨ row.state.holdsResult → 0 < row.leaseGeneration
  resultJson : row.resultJson.isSome = row.state.holdsResult
  result : ∀ document, row.resultJson = some document → ∃ result : EffectResult,
    fromJson document = some result ∧ row.state = result.state ∧
      (row.state = .failed → row.error = result.error)

theorem shaped_newEffect (effectId : String) (outcome : TerminalOutcome) (action : Action) :
    (newEffect effectId outcome action).Shaped where
  attempt := rfl
  state := List.mem_cons_self
  leaseOwner := rfl
  leaseExpiresAt := rfl
  leaseGeneration h := by
    change EffectState.pending.holdsLease ∨ EffectState.pending.holdsResult at h
    exact absurd h (by decide)
  resultJson := rfl
  result _ h := nomatch h

section Statements

variable {row : EffectRow}

theorem Shaped.resultJson_eq_none (h : row.Shaped) (hopen : row.state.holdsResult = false) :
    row.resultJson = none := by
  have hnone := h.resultJson
  rwa [hopen, Option.isSome_eq_false_iff, Option.isNone_iff_eq_none] at hnone

theorem Shaped.cleared (h : row.Shaped) (hopen : row.state.holdsResult = false)
    {state : EffectState} (hnamed : state ∈ EffectState.named) (hlease : state.holdsLease = false)
    (hresult : state.holdsResult = false) (error : Option String) :
    { row with state, error, leaseOwner := none, leaseExpiresAt := none : EffectRow }.Shaped where
  attempt := h.attempt
  state := hnamed
  leaseOwner := hlease.symm
  leaseExpiresAt := hlease.symm
  leaseGeneration hheld := by simp [hlease, hresult] at hheld
  resultJson := by simp [h.resultJson_eq_none hopen, hresult]
  result := by simp [h.resultJson_eq_none hopen]

theorem Shaped.claimed (h : row.Shaped) (hpending : row.state = .pending) (worker : String)
    (expiresAt : Int) : (row.claimed worker expiresAt).Shaped where
  attempt := congrArg (· + 1) h.attempt
  state := by simp [EffectRow.claimed, EffectState.named]
  leaseOwner := rfl
  leaseExpiresAt := rfl
  leaseGeneration _ := Nat.succ_pos _
  resultJson := by
    change row.resultJson.isSome = false
    rw [h.resultJson, hpending]
    rfl
  result := by
    change ∀ document, row.resultJson = some document → _
    simp [h.resultJson_eq_none (by rw [hpending]; rfl)]

theorem Shaped.recovered (h : row.Shaped) (hrunning : row.state = .running) :
    row.recovered.Shaped where
  attempt := h.attempt
  state := by simp [EffectRow.recovered, EffectState.named]
  leaseOwner := by
    change row.leaseOwner.isSome = true
    rw [h.leaseOwner, hrunning]
    rfl
  leaseExpiresAt := by
    change row.leaseExpiresAt.isSome = true
    rw [h.leaseExpiresAt, hrunning]
    rfl
  leaseGeneration _ := h.leaseGeneration (.inl (by rw [hrunning]; rfl))
  resultJson := by
    change row.resultJson.isSome = false
    rw [h.resultJson, hrunning]
    rfl
  result := by
    change ∀ document, row.resultJson = some document → _
    simp [h.resultJson_eq_none (by rw [hrunning]; rfl)]

theorem Shaped.renewed (h : row.Shaped) (hrunning : row.state = .running) (expiresAt : Int) :
    (row.renewed expiresAt).Shaped where
  attempt := h.attempt
  state := h.state
  leaseOwner := h.leaseOwner
  leaseExpiresAt := by
    change true = row.state.holdsLease
    rw [hrunning]
    rfl
  leaseGeneration := h.leaseGeneration
  resultJson := h.resultJson
  result := h.result

theorem Shaped.finished (h : row.Shaped) (hrunning : row.state = .running)
    (result : EffectResult) : (row.finished result).Shaped where
  attempt := h.attempt
  state := by cases result <;> simp [EffectRow.finished, EffectResult.state, EffectState.named]
  leaseOwner := by cases result <;> rfl
  leaseExpiresAt := by cases result <;> rfl
  leaseGeneration _ := h.leaseGeneration (.inl (by rw [hrunning]; rfl))
  resultJson := by cases result <;> rfl
  result := by
    intro document hdocument
    cases hdocument
    exact ⟨result, Serde.fromJson_toJson result, rfl, fun _ => rfl⟩

end Statements

end EffectRow

def Ledger.EffectsShaped (ledger : Ledger) : Prop :=
  ∀ row ∈ ledger.effectJobs, row.Shaped

section Commits

variable {ledger after : Ledger} {policy : CapabilityPolicy} {env : Ambient} {call : Call}

theorem effectsShaped_setEffects (h : ledger.EffectsShaped) {p : EffectRow → Bool}
    {f : EffectRow → EffectRow} (hf : ∀ row : EffectRow, p row → row.Shaped → (f row).Shaped) :
    (ledger.setEffects p f).EffectsShaped := by
  intro row hrow
  obtain ⟨old, hold, rfl⟩ := Table.mem_updateWhere.mp hrow
  split
  next hselected => exact hf old hselected (h old hold)
  next => exact h old hold

theorem running_of_leasedTo {row : EffectRow} {lease : EffectJob} {owner : String} {now : Int}
    (h : row.leasedTo lease owner now) : row.state = .running := by
  simp only [EffectRow.leasedTo, Bool.and_eq_true, decide_eq_true_eq] at h
  exact h.1.1.1.2

theorem LeasedChange.shaped {lease : EffectJob} {plan : LeasePlan} {f : EffectRow → EffectRow}
    (hchange : LeasedChange policy call lease plan f) {row : EffectRow} (h : row.Shaped)
    (hrunning : row.state = .running) : (f row).Shaped := by
  cases hchange with
  | renew => exact h.renewed hrunning _
  | retry => exact h.cleared (by rw [hrunning]; rfl) (by decide) (by decide) (by decide) _
  | finish => exact h.finished hrunning _

theorem effectsShaped_commit (hcommit : Commit policy env ledger call after)
    (h : ledger.EffectsShaped) : after.EffectsShaped := by
  cases hcommit with
  | approval hplan hfree hdraft hnew =>
    refine effectsShaped_setEffects h ?_
    intro row hblocked hrow
    have hstate : row.state = .blocked := by simpa using (Bool.and_eq_true_iff.mp hblocked).2
    exact hrow.cleared (by rw [hstate]; rfl) (by decide) (by decide) (by decide) _
  | action hplan hfree hkey hadmitted hnew hclaims heffect =>
    intro row hrow
    rcases List.mem_append.mp hrow with hold | hadded
    · exact h row hold
    · rw [List.mem_singleton.mp hadded]
      exact EffectRow.shaped_newEffect _ _ _
  | claim hselects hfree hread =>
    refine effectsShaped_setEffects h ?_
    intro row hpending hrow
    have hstate : row.state = .pending := by simpa using (Bool.and_eq_true_iff.mp hpending).2
    exact hrow.claimed hstate _ _
  | recover hplan hfree =>
    refine effectsShaped_setEffects h ?_
    intro row hexpired hrow
    have hstate : row.state = .running := by simpa using (Bool.and_eq_true_iff.mp hexpired).1
    exact hrow.recovered hstate
  | leased hchange hfree hone =>
    refine effectsShaped_setEffects h ?_
    intro row hleased hrow
    exact hchange.shaped hrow (running_of_leasedTo hleased)
  | block hplan hfree hnew hone =>
    refine effectsShaped_setEffects h ?_
    intro row hblockable hrow
    have hopen : row.state.holdsResult = false := by
      rcases (blockable_open hblockable).2 with hstate | hstate <;> rw [hstate] <;> rfl
    exact hrow.cleared hopen (by decide) (by decide) (by decide) _
  | reserve hplan hfree hslot hnew =>
    rw [reserveProcessSlot_frame hslot]
    exact h
  | _ => exact h

end Commits

/-- In every ledger that any order of calls reaches from an empty one, every effect row has its
shape. -/
theorem effect_rows_shaped (events : List SystemEvent) :
    (system.run (Pool.init Ledger.empty) events).shared.EffectsShaped := by
  apply ledger_invariant
  · intro policy env ledger call after hcommit h
    exact effectsShaped_commit hcommit h
  · intro row hrow
    cases hrow

end Simard.TypedOoda
