import Mathlib

/-! Temporary grants of access-control rights. A guard owns the closure that takes the grant
back and runs it when it is asked to, or when it goes out of scope, by a return or by an
unwinding panic. -/
namespace Simard.Guards

inductive Outcome (α : Type) where
  | returned (value : α)
  | panicked
  deriving DecidableEq

/-- How a scope ends that owns a guard; a panic of the guard's drop while another unwinds
aborts the process. -/
inductive Ended (α : Type) where
  | returned (value : α)
  | panicked
  | aborted
  deriving DecidableEq

inductive AclCall where
  | grant
  | body
  | revoke
  deriving DecidableEq

/-- What the closure does the next time it runs, after so many runs of it. -/
abbrev RevokeFn := Nat → Outcome (Except String Unit)

structure ScopedAclGrant where
  revoke : Option RevokeFn
  description : String

namespace ScopedAclGrant

def acquire (description : String) (grant : Outcome (Except String Unit)) (revoke : RevokeFn)
    (log : List AclCall) : Outcome (Except String ScopedAclGrant) × List AclCall :=
  match grant with
  | .panicked => (.panicked, log ++ [.grant])
  | .returned (.error e) =>
      (.returned (.error ("ACL grant '" ++ description ++ "' failed (nothing to revoke): " ++ e)),
        log ++ [.grant])
  | .returned (.ok ()) => (.returned (.ok ⟨some revoke, description⟩), log ++ [.grant])

def isActive (guard : ScopedAclGrant) : Bool := guard.revoke.isSome

def revokeNow (guard : ScopedAclGrant) (log : List AclCall) :
    Outcome (Except String Unit) × ScopedAclGrant × List AclCall :=
  match guard.revoke with
  | some revoke => (revoke (log.count .revoke), { guard with revoke := none }, log ++ [.revoke])
  | none => (.returned (.ok ()), guard, log)

def drop (guard : ScopedAclGrant) (log : List AclCall) : Outcome Unit × List AclCall :=
  if guard.isActive then
    match guard.revokeNow log with
    | (.returned _, _, log) => (.returned (), log)
    | (.panicked, _, log) => (.panicked, log)
  else (.returned (), log)

def leave {α : Type} (work : Outcome α) (guard : ScopedAclGrant) (log : List AclCall) :
    Ended α × List AclCall :=
  match work, guard.drop log with
  | .returned value, (.returned (), log) => (.returned value, log)
  | .returned _, (.panicked, log) => (.panicked, log)
  | .panicked, (.returned (), log) => (.panicked, log)
  | .panicked, (.panicked, log) => (.aborted, log)

end ScopedAclGrant

section Body

variable {α : Type} (description : String) (grant : Outcome (Except String Unit))
  (revoke : RevokeFn) (body : Outcome (Except String α))

def scopedResult : Except String α → Except String Unit → Except String α
  | .ok value, .ok () => .ok value
  | .ok _, .error re => .error ("body succeeded but ACL revoke failed: " ++ re)
  | .error be, .ok () => .error be
  | .error be, .error re => .error (be ++ "; additionally ACL revoke failed: " ++ re)

def withScopedAclGrant : Ended (Except String α) × List AclCall :=
  match ScopedAclGrant.acquire description grant revoke [] with
  | (.panicked, log) => (.panicked, log)
  | (.returned (.error e), log) => (.returned (.error e), log)
  | (.returned (.ok guard), log) =>
      match body with
      | .panicked => guard.leave .panicked (log ++ [.body])
      | .returned bodyResult =>
          match guard.revokeNow (log ++ [.body]) with
          | (.panicked, guard, log) => guard.leave .panicked log
          | (.returned revokeResult, guard, log) =>
              guard.leave (.returned (scopedResult bodyResult revokeResult)) log

end Body

/-- What a scope does while it owns a guard: work that may panic, or an early revoke whose
panic, if it panics, is caught or not. -/
inductive GuardUse where
  | work (panics : Bool)
  | revokeNow (caught : Bool)
  deriving DecidableEq

def useGuard : List GuardUse → ScopedAclGrant → List AclCall →
    Outcome Unit × ScopedAclGrant × List AclCall
  | [], guard, log => (.returned (), guard, log)
  | .work panics :: rest, guard, log =>
      if panics then (.panicked, guard, log ++ [.body]) else useGuard rest guard (log ++ [.body])
  | .revokeNow caught :: rest, guard, log =>
      match guard.revokeNow log with
      | (.returned _, guard, log) => useGuard rest guard log
      | (.panicked, guard, log) =>
          if caught then useGuard rest guard log else (.panicked, guard, log)

def holdGrant (description : String) (grant : Outcome (Except String Unit)) (revoke : RevokeFn)
    (uses : List GuardUse) : Ended (Except String Unit) × List AclCall :=
  match ScopedAclGrant.acquire description grant revoke [] with
  | (.panicked, log) => (.panicked, log)
  | (.returned (.error e), log) => (.returned (.error e), log)
  | (.returned (.ok guard), log) =>
      match useGuard uses guard log with
      | (.returned (), guard, log) => guard.leave (.returned (.ok ())) log
      | (.panicked, guard, log) => guard.leave .panicked log

def Accounted (guard : ScopedAclGrant) (log : List AclCall) : Prop :=
  log.count .revoke = if guard.isActive then 0 else 1

namespace Accounted

variable {guard : ScopedAclGrant} {log : List AclCall}

theorem revokeNow (h : Accounted guard log) :
    Accounted (guard.revokeNow log).2.1 (guard.revokeNow log).2.2 := by
  unfold Accounted ScopedAclGrant.isActive at h
  unfold ScopedAclGrant.revokeNow
  cases hrevoke : guard.revoke with
  | none =>
    rw [hrevoke] at h
    unfold Accounted ScopedAclGrant.isActive
    rw [hrevoke]
    exact h
  | some revoke =>
    rw [hrevoke] at h
    change (log ++ [AclCall.revoke]).count AclCall.revoke = 1
    rw [List.count_append, h]
    rfl

theorem work (h : Accounted guard log) : Accounted guard (log ++ [.body]) := by
  unfold Accounted
  rw [List.count_append, h]
  rfl

theorem useGuard (uses : List GuardUse) (h : Accounted guard log) :
    Accounted (useGuard uses guard log).2.1 (useGuard uses guard log).2.2 := by
  induction uses generalizing guard log with
  | nil => exact h
  | cons use uses ih =>
    cases use with
    | work panics =>
      cases panics with
      | true => exact h.work
      | false => exact ih h.work
    | revokeNow caught =>
      have hnext := h.revokeNow
      rw [Guards.useGuard]
      generalize guard.revokeNow log = revoked at hnext
      obtain ⟨outcome, guard', log'⟩ := revoked
      cases outcome with
      | returned result => exact ih hnext
      | panicked =>
        cases caught with
        | true => exact ih hnext
        | false => exact hnext

theorem leave {α : Type} (work : Outcome α) (h : Accounted guard log) :
    (guard.leave work log).2.count .revoke = 1 := by
  have hlog : (guard.leave work log).2 = (guard.drop log).2 := by
    unfold ScopedAclGrant.leave
    cases work <;> rcases guard.drop log with ⟨_ | _, log'⟩ <;> rfl
  rw [hlog]
  unfold ScopedAclGrant.drop
  cases hactive : guard.isActive with
  | false =>
    unfold Accounted at h
    rw [hactive] at h
    exact h
  | true =>
    have hnext := h.revokeNow
    have htaken : (guard.revokeNow log).2.1.isActive = false := by
      obtain ⟨revoke, hrevoke⟩ := Option.isSome_iff_exists.mp hactive
      unfold ScopedAclGrant.revokeNow
      rw [hrevoke]
      rfl
    unfold Accounted at hnext
    rw [htaken] at hnext
    rw [if_pos rfl]
    generalize guard.revokeNow log = revoked at hnext ⊢
    rcases revoked with ⟨_ | _, guard', log'⟩ <;> exact hnext

end Accounted

theorem accounted_acquired (revoke : RevokeFn) (description : String) :
    Accounted ⟨some revoke, description⟩ [.grant] := rfl

theorem count_holdGrant (description : String) (grant : Outcome (Except String Unit))
    (revoke : RevokeFn) (uses : List GuardUse) :
    (holdGrant description grant revoke uses).2.count .revoke =
      if grant = .returned (.ok ()) then 1 else 0 := by
  cases grant with
  | panicked => rfl
  | returned result =>
    cases result with
    | error e => rfl
    | ok =>
      have hused := (accounted_acquired revoke description).useGuard uses
      rw [if_pos rfl]
      unfold holdGrant ScopedAclGrant.acquire
      dsimp only [List.nil_append]
      generalize useGuard uses ⟨some revoke, description⟩ [.grant] = used at hused ⊢
      obtain ⟨outcome, guard, log⟩ := used
      cases outcome with
      | returned => exact hused.leave _
      | panicked => exact hused.leave _

section Scoped

variable {α : Type} (description : String) (grant : Outcome (Except String Unit))
  (revoke : RevokeFn) (body : Outcome (Except String α))

def grantedEnd : Ended (Except String α) :=
  match body, revoke 0 with
  | .returned bodyResult, .returned revokeResult => .returned (scopedResult bodyResult revokeResult)
  | .returned _, .panicked => .panicked
  | .panicked, .returned _ => .panicked
  | .panicked, .panicked => .aborted

theorem withScopedAclGrant_granted :
    withScopedAclGrant description (.returned (.ok ())) revoke body =
      (grantedEnd revoke body, [.grant, .body, .revoke]) := by
  have hfirst : [AclCall.grant, .body].count .revoke = 0 := rfl
  unfold withScopedAclGrant grantedEnd
  cases body with
  | returned bodyResult =>
    simp only [ScopedAclGrant.acquire, ScopedAclGrant.revokeNow, List.nil_append,
      List.cons_append, hfirst]
    cases revoke 0 with
    | returned revokeResult => rfl
    | panicked => rfl
  | panicked =>
    simp only [ScopedAclGrant.acquire, ScopedAclGrant.leave, ScopedAclGrant.drop,
      ScopedAclGrant.isActive, Option.isSome_some, if_true, ScopedAclGrant.revokeNow,
      List.nil_append, List.cons_append, hfirst]
    cases revoke 0 with
    | returned revokeResult => rfl
    | panicked => rfl

theorem withScopedAclGrant_refused (h : grant ≠ .returned (.ok ())) :
    (withScopedAclGrant description grant revoke body).2 = [.grant] ∧
      ∀ value, (withScopedAclGrant description grant revoke body).1 ≠ .returned (.ok value) := by
  cases grant with
  | panicked => exact ⟨rfl, nofun⟩
  | returned result =>
    cases result with
    | error e => exact ⟨rfl, nofun⟩
    | ok => exact absurd rfl h

theorem scopedResult_error (bodyResult : Except String α) (revokeResult : Except String Unit)
    (h : (∃ be, bodyResult = .error be) ∨ ∃ re, revokeResult = .error re) :
    ∃ e, scopedResult bodyResult revokeResult = .error e ∧
      (∀ be, bodyResult = .error be → be.toList <:+: e.toList) ∧
      ∀ re, revokeResult = .error re → re.toList <:+: e.toList := by
  rcases bodyResult with be | value
  · rcases revokeResult with re | _
    · refine ⟨_, rfl, ?_, ?_⟩
      · rintro _ ⟨rfl⟩
        rw [String.toList_append, String.toList_append]
        exact ((List.prefix_append _ _).trans (List.prefix_append _ _)).isInfix
      · rintro _ ⟨rfl⟩
        rw [String.toList_append]
        exact (List.suffix_append _ _).isInfix
    · refine ⟨_, rfl, ?_, nofun⟩
      rintro _ ⟨rfl⟩
      exact List.infix_rfl
  · rcases revokeResult with re | _
    · refine ⟨_, rfl, nofun, ?_⟩
      rintro _ ⟨rfl⟩
      rw [String.toList_append]
      exact (List.suffix_append _ _).isInfix
    · rcases h with ⟨_, ⟨⟩⟩ | ⟨_, ⟨⟩⟩

/-- A grant is taken back exactly once if it was given and never otherwise, around a body
after the body; only a body and a revoke that both succeed give a result, and what either of
them returned as an error is told. -/
theorem acl_grant_revoked_once (uses : List GuardUse) :
    (holdGrant description grant revoke uses).2.count .revoke =
      (if grant = .returned (.ok ()) then 1 else 0) ∧
    (withScopedAclGrant description grant revoke body).2 =
      (if grant = .returned (.ok ()) then [.grant, .body, .revoke] else [.grant]) ∧
    (∀ value, (withScopedAclGrant description grant revoke body).1 = .returned (.ok value) →
      grant = .returned (.ok ()) ∧ body = .returned (.ok value) ∧
        revoke 0 = .returned (.ok ())) ∧
    ∀ bodyResult revokeResult, grant = .returned (.ok ()) → body = .returned bodyResult →
      revoke 0 = .returned revokeResult →
      ((∃ be, bodyResult = .error be) ∨ ∃ re, revokeResult = .error re) →
      ∃ e, (withScopedAclGrant description grant revoke body).1 = .returned (.error e) ∧
        (∀ be, bodyResult = .error be → be.toList <:+: e.toList) ∧
        ∀ re, revokeResult = .error re → re.toList <:+: e.toList := by
  refine ⟨count_holdGrant description grant revoke uses, ?_, ?_, ?_⟩
  · split
    next hgranted => rw [hgranted, withScopedAclGrant_granted]
    next hrefused => exact (withScopedAclGrant_refused description grant revoke body hrefused).1
  · intro value hvalue
    by_cases hgranted : grant = .returned (.ok ())
    · rw [hgranted, withScopedAclGrant_granted] at hvalue
      refine ⟨hgranted, ?_⟩
      unfold grantedEnd at hvalue
      rcases body with (be | bodyValue) | _
      · rcases hrevoke : revoke 0 with (re | _) | _ <;> rw [hrevoke] at hvalue <;> cases hvalue
      · rcases hrevoke : revoke 0 with (re | _) | _ <;> rw [hrevoke] at hvalue <;> cases hvalue
        exact ⟨rfl, rfl⟩
      · rcases hrevoke : revoke 0 with _ | _ <;> rw [hrevoke] at hvalue <;> cases hvalue
    · exact absurd hvalue
        ((withScopedAclGrant_refused description grant revoke body hgranted).2 value)
  · rintro bodyResult revokeResult rfl rfl hrevoke hfailed
    obtain ⟨e, he, hbody, hreason⟩ := scopedResult_error bodyResult revokeResult hfailed
    refine ⟨e, ?_, hbody, hreason⟩
    rw [withScopedAclGrant_granted]
    unfold grantedEnd
    rw [hrevoke]
    exact congrArg Ended.returned he

end Scoped

end Simard.Guards
