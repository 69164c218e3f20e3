import Simard.Library.Sha256
import Simard.TypedOoda.Schema
import Simard.TypedOoda.Wire

/-! What a call reads from its surroundings, and the request registry every
mutation passes through: a recorded request id answers with the stored result,
provided the type, the canonical fingerprint and both format versions agree. -/
namespace Simard.TypedOoda
open Simard.Library

/-- The surroundings of one call. Clock readings and fresh identifiers are
numbered in the order the call draws them. -/
structure Ambient where
  observeOnlyEnabled : Bool
  nowMillis : Nat → Int
  uuid : Nat → String
  engineerLiveness : Option (String → Bool)
  isFile : String → Bool
  isDir : String → Bool

abbrev SystemTime := Int

abbrev Duration := Nat

def i64Max : Int := 2 ^ 63 - 1

def saturatingAdd (left right : Int) : Int :=
  max (-(2 ^ 63)) (min i64Max (left + right))

def systemTimeMillis (time : SystemTime) : CapabilityResult Int := do
  ensure (0 ≤ time) .invalidArgument "time must not precede the Unix epoch"
  ensure (time / 1000000 ≤ i64Max) .invalidArgument "time exceeds supported range"
  .ok (time / 1000000)

def durationMillis (duration : Duration) (message : String) : CapabilityResult Int := do
  ensure ((duration / 1000000 : Nat) ≤ i64Max) .invalidArgument message
  .ok (duration / 1000000 : Nat)

def canonicalRequest (actor : AuthenticatedToolContext) (policyRevision : String)
    (request : Json) : Json :=
  .arr [.str "simard-canonical-request-v2", .str "sha256", toJson actor.actorIdentity,
    toJson actor.sessionId, toJson actor.grants, toJson actor.boundRepository,
    toJson actor.boundCycleId, toJson actor.boundGoalId, toJson actor.boundWorkingDirectory,
    toJson actor.engineerPermissions, toJson actor.observeOnly, toJson policyRevision, request]

/-- A request as the registry knows it. -/
structure Ticket where
  requestId : String
  mutationType : MutationType
  canonical : Json
  deriving DecidableEq

def Ticket.fingerprint (ticket : Ticket) : String :=
  sha256Hex ticket.canonical.toVec

def requestConflict (requestId : String) : CapabilityError :=
  ⟨.requestConflict, "request id " ++ quoted requestId ++ " conflicts with a recorded mutation"⟩

def decode [Serde α] (document : Json) : CapabilityResult α :=
  match fromJson document with
  | some value => .ok value
  | none => .error (serialization "unexpected document")

def MutationRow.sameRequest (row : MutationRow) (ticket : Ticket) : Bool :=
  row.mutationType = ticket.mutationType && row.requestHash = ticket.fingerprint &&
    row.requestFormatVersion = 2 && row.resultFormatVersion = 1

def replayRequest [Serde α] (ledger : Ledger) (ticket : Ticket) : CapabilityResult (Option α) :=
  match ledger.request ticket.requestId with
  | none => .ok none
  | some row =>
      if row.sameRequest ticket then (decode row.resultJson).map some
      else .error (requestConflict ticket.requestId)

def Ticket.row (ticket : Ticket) (result : Json) : MutationRow :=
  ⟨ticket.requestId, ticket.mutationType, ticket.fingerprint, result, 2, 1⟩

def recordRequest (ledger : Ledger) (ticket : Ticket) (result : Json) : CapabilityResult Ledger :=
  (ledger.insertMutation (ticket.row result)).mapError fun error =>
    if isConstraint error then requestConflict ticket.requestId else persistence error

/-- Answer a recorded request from the registry, or else carry it out. -/
def once [Serde α] (ledger : Ledger) (ticket : Ticket) (answer : α → β)
    (body : CapabilityResult (β × Ledger)) : CapabilityResult (β × Ledger) := do
  match ← replayRequest ledger ticket with
  | some existing => .ok (answer existing, ledger)
  | none => body

@[simp] theorem decode_toJson [Serde α] (a : α) : decode (toJson a) = .ok a := by
  simp [decode]

theorem decode_eq_ok [Serde α] {document : Json} {a : α} :
    decode document = .ok a ↔ fromJson document = some a := by
  unfold decode
  cases fromJson (α := α) document with
  | none => simp
  | some value => simp

theorem once_of_unrecorded [Serde α] {ledger : Ledger} {ticket : Ticket} {answer : α → β}
    {body : CapabilityResult (β × Ledger)} (h : ledger.request ticket.requestId = none) :
    once ledger ticket answer body = body := by
  unfold once replayRequest
  rw [h]
  rfl

theorem once_of_recorded [Serde α] {ledger : Ledger} {ticket : Ticket} {answer : α → β}
    {body : CapabilityResult (β × Ledger)} {row : MutationRow}
    (h : ledger.request ticket.requestId = some row) :
    once ledger ticket answer body =
      if row.sameRequest ticket then
        (decode row.resultJson).map fun a => (answer a, ledger)
      else .error (requestConflict ticket.requestId) := by
  unfold once replayRequest
  rw [h]
  simp only
  by_cases hsame : row.sameRequest ticket
  · rw [if_pos hsame, if_pos hsame]
    cases decode (α := α) row.resultJson <;> rfl
  · rw [if_neg hsame, if_neg hsame]
    rfl

theorem once_eq_ok [Serde α] {ledger after : Ledger} {ticket : Ticket} {answer : α → β}
    {body : CapabilityResult (β × Ledger)} {b : β}
    (h : once ledger ticket answer body = .ok (b, after)) :
    (after = ledger ∧ ∃ row a, ledger.request ticket.requestId = some row ∧
      row.sameRequest ticket ∧ fromJson row.resultJson = some a ∧ b = answer a) ∨
    (ledger.request ticket.requestId = none ∧ body = .ok (b, after)) := by
  cases hrow : ledger.request ticket.requestId with
  | none =>
    rw [once_of_unrecorded hrow] at h
    exact .inr ⟨rfl, h⟩
  | some row =>
    rw [once_of_recorded hrow] at h
    by_cases hsame : row.sameRequest ticket
    · rw [if_pos hsame] at h
      cases hdecode : decode (α := α) row.resultJson with
      | error e =>
        rw [hdecode] at h
        cases h
      | ok a =>
        rw [hdecode] at h
        cases h
        exact .inl ⟨rfl, row, a, rfl, hsame, decode_eq_ok.mp hdecode, rfl⟩
    · rw [if_neg hsame] at h
      cases h

theorem recordRequest_eq_ok {ledger after : Ledger} {ticket : Ticket} {result : Json} :
    recordRequest ledger ticket result = .ok after ↔
      ledger.request ticket.requestId = none ∧
        after = { ledger with
          mutationRequests := ledger.mutationRequests ++ [ticket.row result] } := by
  unfold recordRequest
  rw [mapError_eq_ok, Ledger.insertMutation_eq_ok]
  rfl

end Simard.TypedOoda
