import Simard.Ooda.ConcurrentDispatch

/-! What holds of a round in every order of its steps: no more threads than permits are past the
semaphore, no goal has two sessions, every action gets its outcome, and as long as the round is not
over some thread can go on, which it cannot do for ever. -/
namespace Simard.Ooda
open Simard.Library Simard.Goals
open Simard.Goals.Coverage (PlannedAction)

def Stage.result : Stage → Option ActionOutcome
  | .finished result => result
  | _ => none

def Stage.isSpawned : Stage → Bool
  | .unspawned => false
  | _ => true

def Stage.isRunning : Stage → Bool
  | .unspawned | .finished _ => false
  | _ => true

/-- How many steps a thread has left at most, whose session has so many edits. -/
def Stage.rank (edits : Nat) : Stage → Nat
  | .unspawned => 14 + 2 * edits
  | .acquiring => 13 + 2 * edits
  | .woken => 13 + 2 * edits
  | .testing => 12 + 2 * edits
  | .sleeping => 11 + 2 * edits
  | .admitted => 11 + 2 * edits
  | .looking _ => 10 + 2 * edits
  | .inspecting _ => 9 + 2 * edits
  | .claiming .. => 8 + 2 * edits
  | .inserting .. => 7 + 2 * edits
  | .editing _ rest => 7 + 2 * rest.length
  | .session rest => 6 + 2 * rest.length
  | .returning _ => 5
  | .releasing _ => 4
  | .finished _ => 0

def Move.isWake : Move → Bool
  | .wake _ => true
  | _ => false

namespace Round

variable {setup : RoundSetup} {round next : Round}

inductive Advances (setup : RoundSetup) (round : Round) (k : Nat) : Round → Prop where
  | locks (h : round.stages k = .acquiring ∨ round.stages k = .woken)
      (hfree : round.permitsLock = none) :
      Advances setup round k { round.moved k .testing with permitsLock := some k }
  | sleeps (h : round.stages k = .testing) (hpermits : round.permits = 0) :
      Advances setup round k { round.moved k .sleeping with permitsLock := none }
  | passes (h : round.stages k = .testing) (hpermits : 0 < round.permits) :
      Advances setup round k
        { round.moved k .admitted with permits := round.permits - 1, permitsLock := none }
  | turnsBack (h : round.stages k = .admitted) (outcome : ActionOutcome) :
      Advances setup round k (round.moved k (.returning (some outcome)))
  | goesOn (h : round.stages k = .admitted) (goalId : String) :
      Advances setup round k (round.moved k (.looking goalId))
  | locksState {goalId : String} (h : round.stages k = .looking goalId)
      (hfree : round.stateLock = none) :
      Advances setup round k { round.moved k (.inspecting goalId) with stateLock := some k }
  | refuses {goalId : String} (h : round.stages k = .inspecting goalId) (outcome : ActionOutcome) :
      Advances setup round k { round.moved k (.returning (some outcome)) with stateLock := none }
  | finds {goalId : String} {goal : ActiveGoal} {state : OodaState}
      (h : round.stages k = .inspecting goalId)
      (hclaimable : inspect round.state goalId = .claimable goal state) :
      Advances setup round k
        { round.moved k (.claiming goalId round.state.active goal) with state := state }
  | locksClaims {goalId : String} {board : List ActiveGoal} {found : ActiveGoal}
      (h : round.stages k = .claiming goalId board found) (hfree : round.claimsLock = none) :
      Advances setup round k
        { round.moved k (.inserting goalId board found) with claimsLock := some k }
  | skips {goalId : String} {board : List ActiveGoal} {found : ActiveGoal}
      (h : round.stages k = .inserting goalId board found) (outcome : ActionOutcome) :
      Advances setup round k
        { round.moved k (.returning (some outcome)) with claimsLock := none, stateLock := none }
  | starts {goalId : String} {board : List ActiveGoal} {found : ActiveGoal}
      (h : round.stages k = .inserting goalId board found) (hnew : goalId ∉ round.claims) :
      Advances setup round k
        { round.moved k (.session (setup.scripts k).edits) with
          claimsLock := none
          stateLock := none
          claims := round.claims ++ [goalId]
          sessions := round.sessions ++
            [⟨k, goalId, board, found, (round.state.goal? goalId).getD found⟩] }
  | ends (h : round.stages k = .session []) :
      Advances setup round k (round.moved k (.returning (setup.scripts k).ending))
  | locksEdit {edit : OodaState → OodaState} {rest : List (OodaState → OodaState)}
      (h : round.stages k = .session (edit :: rest)) (hfree : round.stateLock = none) :
      Advances setup round k { round.moved k (.editing edit rest) with stateLock := some k }
  | edits {edit : OodaState → OodaState} {rest : List (OodaState → OodaState)}
      (h : round.stages k = .editing edit rest) :
      Advances setup round k
        { round.moved k (.session rest) with stateLock := none, state := edit round.state }
  | relocks {result : Option ActionOutcome} (h : round.stages k = .returning result)
      (hfree : round.permitsLock = none) :
      Advances setup round k { round.moved k (.releasing result) with permitsLock := some k }
  | releases {result : Option ActionOutcome} (h : round.stages k = .releasing result)
      (hnone : ∀ j < setup.actions.length, (round.stages j).gate ≠ .sleeping) :
      Advances setup round k
        { round.moved k (.finished result) with permits := round.permits + 1, permitsLock := none }
  | notifies {result : Option ActionOutcome} {j : Nat} (h : round.stages k = .releasing result)
      (hj : j < setup.actions.length) (hsleeping : round.stages j = .sleeping) :
      Advances setup round k
        { (round.moved k (.finished result)).moved j .woken with
          permits := round.permits + 1
          permitsLock := none }

theorem of_ite_some {p : Prop} [Decidable p] {result : Round}
    (h : (if p then some result else none) = some next) : p ∧ result = next := by
  split at h
  next hp => exact ⟨hp, Option.some.inj h⟩
  next => cases h

theorem eq_sleeping_of_gate {stage : Stage} (h : stage.gate = .sleeping) : stage = .sleeping := by
  cases stage <;> first | rfl | cases h

theorem ne_of_sleeping {j k : Nat} {result : Option ActionOutcome}
    (h : round.stages k = .releasing result) (hsleeping : round.stages j = .sleeping) : j ≠ k := by
  rintro rfl
  rw [h] at hsleeping
  cases hsleeping

theorem advances_of_advance {k : Nat} {action : PlannedAction} {notified : Option Nat}
    (h : round.advance setup k action notified = some next) : Advances setup round k next := by
  unfold advance at h
  split at h
  · cases h
  · cases h
  · cases h
  next hstage =>
    obtain ⟨hfree, rfl⟩ := of_ite_some h
    exact .locks (.inl hstage) hfree
  next hstage =>
    obtain ⟨hfree, rfl⟩ := of_ite_some h
    exact .locks (.inr hstage) hfree
  next hstage =>
    split at h
    next hpermits =>
      obtain rfl := Option.some.inj h
      exact .sleeps hstage hpermits
    next hpermits =>
      obtain rfl := Option.some.inj h
      exact .passes hstage (Nat.pos_of_ne_zero hpermits)
  next hstage =>
    split at h
    all_goals obtain rfl := Option.some.inj h
    · exact .turnsBack hstage _
    · exact .goesOn hstage _
  next hstage =>
    obtain ⟨hfree, rfl⟩ := of_ite_some h
    exact .locksState hstage hfree
  next hstage =>
    split at h
    · obtain rfl := Option.some.inj h
      exact .refuses hstage _
    next hclaimable =>
      obtain rfl := Option.some.inj h
      exact .finds hstage hclaimable
  next hstage =>
    obtain ⟨hfree, rfl⟩ := of_ite_some h
    exact .locksClaims hstage hfree
  next hstage =>
    split at h
    · obtain rfl := Option.some.inj h
      exact .skips hstage _
    next hnew =>
      obtain rfl := Option.some.inj h
      exact .starts hstage hnew
  next hstage =>
    obtain rfl := Option.some.inj h
    exact .ends hstage
  next hstage =>
    obtain ⟨hfree, rfl⟩ := of_ite_some h
    exact .locksEdit hstage hfree
  next hstage =>
    obtain rfl := Option.some.inj h
    exact .edits hstage
  next hstage =>
    obtain ⟨hfree, rfl⟩ := of_ite_some h
    exact .relocks hstage hfree
  next hstage =>
    split at h
    · obtain ⟨hnone, rfl⟩ := of_ite_some h
      exact .releases hstage hnone
    · obtain ⟨⟨hj, hsleeping⟩, rfl⟩ := of_ite_some h
      exact .notifies hstage hj (eq_sleeping_of_gate hsleeping)

/-- What can happen in a round. -/
inductive Steps (setup : RoundSetup) (round : Round) : Round → Prop where
  | spawns (h : round.spawned < setup.actions.length) :
      Steps setup round { round.moved round.spawned .acquiring with spawned := round.spawned + 1 }
  | joins {action : PlannedAction} {result : Option ActionOutcome}
      (haction : setup.actions[round.joined]? = some action)
      (h : round.stages round.joined = .finished result) :
      Steps setup round { round with
        joined := round.joined + 1
        results := Function.update round.results round.joined (some (outcomeOf action result))
        written := round.written ++ [round.joined] }
  | advances {k : Nat} {after : Round} (hk : k < setup.actions.length)
      (h : Advances setup round k after) : Steps setup round after
  | wakes {k : Nat} (hk : k < setup.actions.length) (h : round.stages k = .sleeping) :
      Steps setup round (round.moved k .woken)

theorem steps_of_step {move : Move} (h : round.step setup move = some next) :
    Steps setup round next := by
  cases move with
  | spawn =>
    obtain ⟨hspawned, rfl⟩ := of_ite_some h
    exact .spawns hspawned
  | join =>
    rw [step] at h
    split at h
    next haction hfinished =>
      obtain ⟨-, rfl⟩ := of_ite_some h
      exact .joins haction hfinished
    · cases h
  | thread k notified =>
    obtain ⟨action, haction, hadvance⟩ := Option.bind_eq_some_iff.mp h
    exact .advances (List.getElem?_eq_some_iff.mp haction).1 (advances_of_advance hadvance)
  | wake k =>
    obtain ⟨⟨hk, hsleeping⟩, rfl⟩ := of_ite_some h
    exact .wakes hk (eq_sleeping_of_gate hsleeping)

def semaphore (round : Round) : Semaphore :=
  ⟨round.permits, round.permitsLock, fun k => (round.stages k).gate⟩

theorem gates_update (stages : Nat → Stage) (k : Nat) (stage : Stage) :
    (fun i => (Function.update stages k stage i).gate) =
      Function.update (fun i => (stages i).gate) k stage.gate := by
  funext i
  by_cases hi : i = k
  · rw [hi, Function.update_self, Function.update_self]
  · rw [Function.update_of_ne hi, Function.update_of_ne hi]

theorem semaphore_moves {n : Nat} {s : Semaphore} {stages : Nat → Stage} {k : Nat} (stage : Stage)
    {permits : Nat} {lock : Option Nat}
    (h : Semaphore.Step n s
      ⟨permits, lock, Function.update (fun i => (stages i).gate) k stage.gate⟩) :
    Semaphore.Step n s ⟨permits, lock, fun i => (Function.update stages k stage i).gate⟩ := by
  rw [gates_update]
  exact h

theorem semaphore_stays {n k : Nat} {old : Stage} (hstage : round.stages k = old) (stage : Stage)
    (hsame : old.gate = stage.gate) :
    Semaphore.Step n round.semaphore (round.moved k stage).semaphore := by
  apply semaphore_moves
  rw [← hsame, ← hstage]
  have hsame : Function.update (fun i => (round.stages i).gate) k (round.stages k).gate =
      fun i => (round.stages i).gate := Function.update_eq_self k _
  change Semaphore.Step n round.semaphore ⟨round.permits, round.permitsLock, _⟩
  rw [hsame]
  exact .stays

theorem Advances.semaphore {k : Nat} (hk : k < setup.actions.length)
    (h : Advances setup round k next) :
    Semaphore.Step setup.actions.length round.semaphore next.semaphore := by
  have hgate {stage : Stage} (hstage : round.stages k = stage) :
      round.semaphore.gates k = stage.gate := congrArg Stage.gate hstage
  have hleaves {stage : Stage} (hstage : round.stages k = stage) (hinside : stage.gate = .inside)
      (result : Option ActionOutcome) : Semaphore.Step setup.actions.length round.semaphore
        (round.moved k (.returning result)).semaphore :=
    semaphore_moves (.returning result) (.leaves hk ((hgate hstage).trans hinside))
  cases h with
  | locks h hfree => exact semaphore_moves .testing (.locks hk (h.imp hgate hgate) hfree)
  | sleeps h hpermits => exact semaphore_moves .sleeping (.sleeps hk (hgate h) hpermits)
  | passes h hpermits => exact semaphore_moves .admitted (.passes hk (hgate h) hpermits)
  | turnsBack h outcome => exact hleaves h rfl _
  | goesOn h goalId => exact semaphore_stays h (.looking goalId) rfl
  | locksState h hfree => exact semaphore_stays h (.inspecting _) rfl
  | refuses h outcome => exact hleaves h rfl _
  | finds h hclaimable => exact semaphore_stays h (.claiming _ _ _) rfl
  | locksClaims h hfree => exact semaphore_stays h (.inserting _ _ _) rfl
  | skips h outcome => exact hleaves h rfl _
  | starts h hnew => exact semaphore_stays h (.session _) rfl
  | ends h => exact hleaves h rfl _
  | locksEdit h hfree => exact semaphore_stays h (.editing _ _) rfl
  | edits h => exact semaphore_stays h (.session _) rfl
  | relocks h hfree => exact semaphore_moves (.releasing _) (.relocks hk (hgate h) hfree)
  | releases h hnone => exact semaphore_moves (.finished _) (.releases hk (hgate h) hnone)
  | @notifies result j h hj hsleeping =>
    apply semaphore_moves .woken
    have hfirst := gates_update round.stages k (.finished result)
    change Semaphore.Step _ _ ⟨round.permits + 1, none, Function.update
      (fun i => (Function.update round.stages k (.finished result) i).gate) j .woken⟩
    rw [hfirst]
    exact .notifies hk (hgate h) hj (congrArg Stage.gate hsleeping)

/-- The caller's part is as it was: no thread was started or ceased to have finished. -/
structure SameCaller (round next : Round) : Prop where
  spawned : next.spawned = round.spawned
  joined : next.joined = round.joined
  results : next.results = round.results
  written : next.written = round.written
  unspawned : ∀ i, next.stages i = .unspawned ↔ round.stages i = .unspawned
  finished : ∀ i result, round.stages i = .finished result → next.stages i = .finished result

theorem sameCaller_moved {k : Nat} {old : Stage} (hstage : round.stages k = old) (stage : Stage)
    (hrunning : old.isRunning = true) (hspawned : stage.isSpawned = true) :
    SameCaller round (round.moved k stage) where
  spawned := rfl
  joined := rfl
  results := rfl
  written := rfl
  unspawned i := by
    change Function.update round.stages k stage i = _ ↔ _
    by_cases hi : i = k
    · rw [hi, Function.update_self, hstage]
      refine iff_of_false ?_ ?_
      · rintro rfl
        cases hspawned
      · rintro rfl
        cases hrunning
    · rw [Function.update_of_ne hi]
  finished i result hfinished := by
    have hi : i ≠ k := by
      rintro rfl
      rw [← hstage, hfinished] at hrunning
      cases hrunning
    exact (Function.update_of_ne hi ..).trans hfinished

theorem Advances.sameCaller {k : Nat} (h : Advances setup round k next) :
    SameCaller round next := by
  have hmoved {old : Stage} (hstage : round.stages k = old) (stage : Stage)
      (hrunning : old.isRunning = true) (hstarted : stage.isSpawned = true) {after : Round}
      (hspawned : after.spawned = round.spawned) (hjoined : after.joined = round.joined)
      (hresults : after.results = round.results)
      (hwritten : after.written = round.written)
      (hstages : after.stages = Function.update round.stages k stage) : SameCaller round after := by
    have hsame := sameCaller_moved hstage stage hrunning hstarted
    exact ⟨hspawned, hjoined, hresults, hwritten, hstages ▸ hsame.unspawned,
      hstages ▸ hsame.finished⟩
  cases h with
  | locks h hfree =>
    rcases h with h | h <;> exact hmoved h .testing rfl rfl rfl rfl rfl rfl rfl
  | sleeps h => exact hmoved h .sleeping rfl rfl rfl rfl rfl rfl rfl
  | passes h => exact hmoved h .admitted rfl rfl rfl rfl rfl rfl rfl
  | turnsBack h => exact hmoved h (.returning _) rfl rfl rfl rfl rfl rfl rfl
  | goesOn h => exact hmoved h (.looking _) rfl rfl rfl rfl rfl rfl rfl
  | locksState h => exact hmoved h (.inspecting _) rfl rfl rfl rfl rfl rfl rfl
  | refuses h => exact hmoved h (.returning _) rfl rfl rfl rfl rfl rfl rfl
  | finds h => exact hmoved h (.claiming _ _ _) rfl rfl rfl rfl rfl rfl rfl
  | locksClaims h => exact hmoved h (.inserting _ _ _) rfl rfl rfl rfl rfl rfl rfl
  | skips h => exact hmoved h (.returning _) rfl rfl rfl rfl rfl rfl rfl
  | starts h => exact hmoved h (.session _) rfl rfl rfl rfl rfl rfl rfl
  | ends h => exact hmoved h (.returning _) rfl rfl rfl rfl rfl rfl rfl
  | locksEdit h => exact hmoved h (.editing _ _) rfl rfl rfl rfl rfl rfl rfl
  | edits h => exact hmoved h (.session _) rfl rfl rfl rfl rfl rfl rfl
  | relocks h => exact hmoved h (.releasing _) rfl rfl rfl rfl rfl rfl rfl
  | releases h => exact hmoved h (.finished _) rfl rfl rfl rfl rfl rfl rfl
  | @notifies result j h hj hsleeping =>
    have hne := ne_of_sleeping h hsleeping
    have hstill : (round.moved k (.finished result)).stages j = .sleeping :=
      (Function.update_of_ne hne ..).trans hsleeping
    have hfirst := sameCaller_moved h (.finished result) rfl rfl
    have hsecond := sameCaller_moved hstill .woken rfl rfl
    exact ⟨rfl, rfl, rfl, rfl, fun i => (hsecond.unspawned i).trans (hfirst.unspawned i),
      fun i ended hended => hsecond.finished i ended (hfirst.finished i ended hended)⟩

theorem Advances.stateLock {k : Nat} (hk : k < setup.actions.length)
    (hlock : Guarded setup.actions.length round.stateLock Stage.holdsState round.stages)
    (h : Advances setup round k next) :
    Guarded setup.actions.length next.stateLock Stage.holdsState next.stages := by
  cases h with
  | locks h =>
    rcases h with h | h
    · exact hlock.keep h .testing rfl
    · exact hlock.keep h .testing rfl
  | sleeps h => exact hlock.keep h .sleeping rfl
  | passes h => exact hlock.keep h .admitted rfl
  | turnsBack h => exact hlock.keep h (.returning _) rfl
  | goesOn h => exact hlock.keep h (.looking _) rfl
  | locksState h hfree => exact hlock.update hk h (.inspecting _) fun _ => .inr hfree
  | refuses h => exact hlock.update hk h (.returning _) nofun
  | finds h => exact hlock.keep h (.claiming _ _ _) rfl
  | locksClaims h => exact hlock.keep h (.inserting _ _ _) rfl
  | skips h => exact hlock.update hk h (.returning _) nofun
  | starts h => exact hlock.update hk h (.session _) nofun
  | ends h => exact hlock.keep h (.returning _) rfl
  | locksEdit h hfree => exact hlock.update hk h (.editing _ _) fun _ => .inr hfree
  | edits h => exact hlock.update hk h (.session _) nofun
  | relocks h => exact hlock.keep h (.releasing _) rfl
  | releases h => exact hlock.keep h (.finished _) rfl
  | @notifies result j h hj hsleeping =>
    have hmoved := hlock.keep h (.finished result) rfl
    have hne := ne_of_sleeping h hsleeping
    exact hmoved.keep ((Function.update_of_ne hne ..).trans hsleeping) .woken rfl

theorem Advances.claimsLock {k : Nat} (hk : k < setup.actions.length)
    (hlock : Guarded setup.actions.length round.claimsLock Stage.holdsClaims round.stages)
    (h : Advances setup round k next) :
    Guarded setup.actions.length next.claimsLock Stage.holdsClaims next.stages := by
  cases h with
  | locks h =>
    rcases h with h | h
    · exact hlock.keep h .testing rfl
    · exact hlock.keep h .testing rfl
  | sleeps h => exact hlock.keep h .sleeping rfl
  | passes h => exact hlock.keep h .admitted rfl
  | turnsBack h => exact hlock.keep h (.returning _) rfl
  | goesOn h => exact hlock.keep h (.looking _) rfl
  | locksState h => exact hlock.keep h (.inspecting _) rfl
  | refuses h => exact hlock.keep h (.returning _) rfl
  | finds h => exact hlock.keep h (.claiming _ _ _) rfl
  | locksClaims h hfree => exact hlock.update hk h (.inserting _ _ _) fun _ => .inr hfree
  | skips h => exact hlock.update hk h (.returning _) nofun
  | starts h => exact hlock.update hk h (.session _) nofun
  | ends h => exact hlock.keep h (.returning _) rfl
  | locksEdit h => exact hlock.keep h (.editing _ _) rfl
  | edits h => exact hlock.keep h (.session _) rfl
  | relocks h => exact hlock.keep h (.releasing _) rfl
  | releases h => exact hlock.keep h (.finished _) rfl
  | @notifies result j h hj hsleeping =>
    have hmoved := hlock.keep h (.finished result) rfl
    have hne := ne_of_sleeping h hsleeping
    exact hmoved.keep ((Function.update_of_ne hne ..).trans hsleeping) .woken rfl

/-- Goals are claimed that were on the board, that nobody works on, and whose status lets them. -/
def Claimable (goal : ActiveGoal) : Prop :=
  goal.assignedTo = none ∧ goal.status ≠ .completed ∧ goal.status ≠ .proposed ∧
    goal.status ≠ .paused ∧
    ∀ reason, goal.status = .blocked reason → isBrainFailureMarker reason = true

theorem claimable_of_inspect {state after : OodaState} {goalId : String} {goal : ActiveGoal}
    (h : inspect state goalId = .claimable goal after) :
    state.goal? goalId = some goal ∧ Claimable goal := by
  unfold inspect at h
  split at h
  · cases h
  next found hfound =>
    split at h
    · cases h
    next hunassigned =>
      have hnone : found.assignedTo = none := by simpa using hunassigned
      split at h
      next reason hstatus =>
        split at h
        next hmarker =>
          cases h
          refine ⟨hfound, hnone, ?_⟩
          rw [hstatus]
          refine ⟨nofun, nofun, nofun, ?_⟩
          rintro other heq
          cases heq
          exact hmarker
        · cases h
      · cases h
      · cases h
      · cases h
      next hstatus =>
        cases h
        refine ⟨hfound, hnone, ?_⟩
        rw [hstatus]
        exact ⟨nofun, nofun, nofun, nofun⟩
      next hstatus =>
        cases h
        refine ⟨hfound, hnone, ?_⟩
        rw [hstatus]
        exact ⟨nofun, nofun, nofun, nofun⟩

/-- The goal was looked up on that board and may be claimed. -/
def Justified (goalId : String) (board : List ActiveGoal) (found : ActiveGoal) : Prop :=
  board.find? (·.id = goalId) = some found ∧ Claimable found

/-- Sessions are for different goals, each of which could be claimed; so can those that are about to
be. -/
structure FairlyClaimed (round : Round) : Prop where
  listed : round.claims = round.sessions.map StartedSession.goalId
  once : round.claims.Nodup
  justified : ∀ session ∈ round.sessions, Justified session.goalId session.board session.found
  pending : ∀ k goalId board found, round.stages k = .claiming goalId board found ∨
    round.stages k = .inserting goalId board found → Justified goalId board found

theorem FairlyClaimed.moved (h : FairlyClaimed round) (k : Nat) {stage : Stage}
    (hstage : ∀ goalId board found, stage = .claiming goalId board found ∨
      stage = .inserting goalId board found → Justified goalId board found) :
    FairlyClaimed (round.moved k stage) where
  listed := h.listed
  once := h.once
  justified := h.justified
  pending i goalId board found hi := by
    change Function.update round.stages k stage i = _ ∨
      Function.update round.stages k stage i = _ at hi
    by_cases hk : i = k
    · rw [hk, Function.update_self] at hi
      exact hstage goalId board found hi
    · rw [Function.update_of_ne hk] at hi
      exact h.pending i goalId board found hi

theorem FairlyClaimed.of_eq {other : Round} (h : FairlyClaimed other)
    (hclaims : round.claims = other.claims) (hsessions : round.sessions = other.sessions)
    (hstages : round.stages = other.stages) : FairlyClaimed round := by
  refine ⟨?_, ?_, ?_, ?_⟩
  · rw [hclaims, hsessions, h.listed]
  · rw [hclaims]
    exact h.once
  · rw [hsessions]
    exact h.justified
  · rw [hstages]
    exact h.pending

theorem Advances.fairlyClaimed {k : Nat} (hclaimed : FairlyClaimed round)
    (h : Advances setup round k next) : FairlyClaimed next := by
  have hmoved (stage : Stage) (hstage : ∀ goalId board found, stage ≠ .claiming goalId board found ∧
      stage ≠ .inserting goalId board found) : FairlyClaimed (round.moved k stage) :=
    hclaimed.moved k fun goalId board found hclaim =>
      (hclaim.elim (hstage goalId board found).1 (hstage goalId board found).2).elim
  cases h with
  | locks => exact (hmoved .testing fun _ _ _ => ⟨nofun, nofun⟩).of_eq rfl rfl rfl
  | sleeps => exact (hmoved .sleeping fun _ _ _ => ⟨nofun, nofun⟩).of_eq rfl rfl rfl
  | passes => exact (hmoved .admitted fun _ _ _ => ⟨nofun, nofun⟩).of_eq rfl rfl rfl
  | turnsBack => exact hmoved _ fun _ _ _ => ⟨nofun, nofun⟩
  | goesOn => exact hmoved _ fun _ _ _ => ⟨nofun, nofun⟩
  | locksState => exact (hmoved (.inspecting _) fun _ _ _ => ⟨nofun, nofun⟩).of_eq rfl rfl rfl
  | refuses => exact (hmoved (.returning _) fun _ _ _ => ⟨nofun, nofun⟩).of_eq rfl rfl rfl
  | finds h hclaimable =>
    refine (hclaimed.moved k ?_).of_eq rfl rfl rfl
    rintro goalId board found (heq | heq)
    · cases heq
      exact claimable_of_inspect hclaimable
    · cases heq
  | locksClaims h hfree =>
    refine (hclaimed.moved k ?_).of_eq rfl rfl rfl
    rintro goalId board found (heq | heq)
    · cases heq
    · cases heq
      exact hclaimed.pending k _ _ _ (.inl h)
  | skips => exact (hmoved (.returning _) fun _ _ _ => ⟨nofun, nofun⟩).of_eq rfl rfl rfl
  | starts h hnew =>
    have hpending := (hmoved (.session (setup.scripts k).edits) fun _ _ _ => ⟨nofun, nofun⟩).pending
    refine ⟨?_, ?_, ?_, hpending⟩
    · dsimp only [Round.moved]
      rw [List.map_append, ← hclaimed.listed]
      rfl
    · exact List.nodup_append.mpr ⟨hclaimed.once, List.nodup_singleton _, fun a ha b hb => by
        rw [List.mem_singleton.mp hb]
        exact fun heq => hnew (heq ▸ ha)⟩
    · intro session hsession
      rcases List.mem_append.mp hsession with hsession | hsession
      · exact hclaimed.justified session hsession
      · rw [List.mem_singleton.mp hsession]
        exact hclaimed.pending k _ _ _ (.inr h)
  | ends => exact hmoved _ fun _ _ _ => ⟨nofun, nofun⟩
  | locksEdit => exact (hmoved (.editing _ _) fun _ _ _ => ⟨nofun, nofun⟩).of_eq rfl rfl rfl
  | edits => exact (hmoved (.session _) fun _ _ _ => ⟨nofun, nofun⟩).of_eq rfl rfl rfl
  | relocks => exact (hmoved (.releasing _) fun _ _ _ => ⟨nofun, nofun⟩).of_eq rfl rfl rfl
  | releases => exact (hmoved (.finished _) fun _ _ _ => ⟨nofun, nofun⟩).of_eq rfl rfl rfl
  | @notifies result j =>
    have hfirst := hmoved (.finished result) fun _ _ _ => ⟨nofun, nofun⟩
    have hsecond : FairlyClaimed ((round.moved k (.finished result)).moved j .woken) :=
      hfirst.moved j fun _ _ _ hclaim => hclaim.elim nofun nofun
    exact hsecond.of_eq rfl rfl rfl

/-- The caller has started so many threads, and written the outcomes of so many that have
finished. -/
structure Collected (setup : RoundSetup) (round : Round) : Prop where
  unspawned : ∀ k, round.stages k = .unspawned ↔ round.spawned ≤ k
  spawned : round.spawned ≤ setup.actions.length
  joined : round.joined ≤ setup.actions.length
  written : round.written = List.range round.joined
  finished : ∀ k < round.joined, ∃ result, round.stages k = .finished result
  results : ∀ k, round.results k = if k < round.joined then
    (setup.actions[k]?).map fun action => outcomeOf action (round.stages k).result else none

theorem Collected.same (h : Collected setup round) (hsame : SameCaller round next) :
    Collected setup next where
  unspawned k := by
    rw [hsame.unspawned, hsame.spawned]
    exact h.unspawned k
  spawned := hsame.spawned ▸ h.spawned
  joined := hsame.joined ▸ h.joined
  written := by rw [hsame.written, hsame.joined, h.written]
  finished k hk := by
    rw [hsame.joined] at hk
    obtain ⟨result, hresult⟩ := h.finished k hk
    exact ⟨result, hsame.finished k result hresult⟩
  results k := by
    rw [hsame.results, hsame.joined, h.results]
    split
    next hk =>
      obtain ⟨result, hresult⟩ := h.finished k hk
      rw [hresult, hsame.finished k result hresult]
    · rfl

theorem Collected.ne_spawned (h : Collected setup round) {k : Nat} {result : Option ActionOutcome}
    (hresult : round.stages k = .finished result) : k ≠ round.spawned := by
  rintro rfl
  rw [(h.unspawned round.spawned).mpr le_rfl] at hresult
  cases hresult

theorem Collected.spawns (h : Collected setup round)
    (hspawned : round.spawned < setup.actions.length) :
    Collected setup { round.moved round.spawned .acquiring with spawned := round.spawned + 1 } where
  unspawned k := by
    change Function.update round.stages round.spawned .acquiring k = _ ↔ round.spawned + 1 ≤ k
    by_cases hk : k = round.spawned
    · rw [hk, Function.update_self]
      exact iff_of_false nofun (Nat.not_succ_le_self _)
    · rw [Function.update_of_ne hk, h.unspawned]
      omega
  spawned := hspawned
  joined := h.joined
  written := h.written
  finished k hk := by
    obtain ⟨result, hresult⟩ := h.finished k hk
    have hne := h.ne_spawned hresult
    exact ⟨result, (Function.update_of_ne hne ..).trans hresult⟩
  results k := by
    change round.results k = if k < round.joined then (setup.actions[k]?).map fun action =>
      outcomeOf action (Function.update round.stages round.spawned .acquiring k).result else none
    rw [h.results]
    split
    next hk =>
      obtain ⟨result, hresult⟩ := h.finished k hk
      rw [Function.update_of_ne (h.ne_spawned hresult)]
    · rfl

theorem Collected.joins (h : Collected setup round) {action : PlannedAction}
    {result : Option ActionOutcome} (haction : setup.actions[round.joined]? = some action)
    (hfinished : round.stages round.joined = .finished result) :
    Collected setup { round with
      joined := round.joined + 1
      results := Function.update round.results round.joined (some (outcomeOf action result))
      written := round.written ++ [round.joined] } where
  unspawned := h.unspawned
  spawned := h.spawned
  joined := (List.getElem?_eq_some_iff.mp haction).1
  written := by
    dsimp only
    rw [h.written, List.range_succ]
  finished k hk := by
    rcases Nat.lt_succ_iff_lt_or_eq.mp hk with hk | rfl
    · exact h.finished k hk
    · exact ⟨result, hfinished⟩
  results k := by
    dsimp only
    by_cases hk : k = round.joined
    · subst hk
      rw [Function.update_self, if_pos (Nat.lt_succ_self _), haction, hfinished]
      rfl
    · rw [Function.update_of_ne hk, h.results]
      have hlt : k < round.joined ↔ k < round.joined + 1 := by omega
      simp only [hlt]

/-- Everything a round keeps. -/
structure Sound (setup : RoundSetup) (round : Round) : Prop where
  semaphore : round.semaphore.Sound setup.actions.length (max setup.maxConcurrency 1)
  stateLock : Guarded setup.actions.length round.stateLock Stage.holdsState round.stages
  claimsLock : Guarded setup.actions.length round.claimsLock Stage.holdsClaims round.stages
  collected : Collected setup round
  claimed : FairlyClaimed round

theorem collected_init (setup : RoundSetup) : Collected setup (init setup) where
  unspawned k := iff_of_true rfl (Nat.zero_le k)
  spawned := Nat.zero_le _
  joined := Nat.zero_le _
  written := rfl
  finished k hk := absurd hk (Nat.not_lt_zero k)
  results k := (if_neg (Nat.not_lt_zero k)).symm

theorem fairlyClaimed_init (setup : RoundSetup) : FairlyClaimed (init setup) where
  listed := rfl
  once := List.nodup_nil
  justified session hsession := absurd hsession List.not_mem_nil
  pending k goalId board found hclaim := by
    change Stage.unspawned = _ ∨ Stage.unspawned = _ at hclaim
    rcases hclaim with heq | heq
    · cases heq
    · cases heq

theorem sound_init (setup : RoundSetup) : (init setup).Sound setup where
  semaphore := Semaphore.sound_init (max setup.maxConcurrency 1) (fun _ => rfl) rfl rfl
  stateLock _ := iff_of_false nofun fun hheld => absurd hheld.2 Bool.false_ne_true
  claimsLock _ := iff_of_false nofun fun hheld => absurd hheld.2 Bool.false_ne_true
  collected := collected_init setup
  claimed := fairlyClaimed_init setup

theorem Sound.advances (h : round.Sound setup) {k : Nat} (hk : k < setup.actions.length)
    (hadvances : Advances setup round k next) : next.Sound setup where
  semaphore := h.semaphore.step (hadvances.semaphore hk)
  stateLock := hadvances.stateLock hk h.stateLock
  claimsLock := hadvances.claimsLock hk h.claimsLock
  collected := h.collected.same hadvances.sameCaller
  claimed := hadvances.fairlyClaimed h.claimed

theorem Sound.wakes (h : round.Sound setup) {k : Nat} (hk : k < setup.actions.length)
    (hsleeping : round.stages k = .sleeping) : (round.moved k .woken).Sound setup where
  semaphore := h.semaphore.step
    (semaphore_moves .woken (.wakes hk (congrArg Stage.gate hsleeping)))
  stateLock := h.stateLock.keep hsleeping .woken rfl
  claimsLock := h.claimsLock.keep hsleeping .woken rfl
  collected := h.collected.same (sameCaller_moved hsleeping .woken rfl rfl)
  claimed := h.claimed.moved k fun _ _ _ hclaim => hclaim.elim nofun nofun

theorem Sound.spawns (h : round.Sound setup) (hspawned : round.spawned < setup.actions.length) :
    Sound setup { round.moved round.spawned .acquiring with spawned := round.spawned + 1 } := by
  have hunspawned : round.stages round.spawned = .unspawned :=
    (h.collected.unspawned round.spawned).mpr le_rfl
  have hclaimed : FairlyClaimed (round.moved round.spawned .acquiring) :=
    h.claimed.moved round.spawned fun _ _ _ hclaim => hclaim.elim nofun nofun
  refine ⟨?_, h.stateLock.keep hunspawned .acquiring rfl,
    h.claimsLock.keep hunspawned .acquiring rfl, ?_, hclaimed.of_eq rfl rfl rfl⟩
  · exact h.semaphore.step
      (semaphore_moves .acquiring (.arrives hspawned (congrArg Stage.gate hunspawned)))
  · exact h.collected.spawns hspawned

theorem Sound.joins (h : round.Sound setup) {action : PlannedAction} {result : Option ActionOutcome}
    (haction : setup.actions[round.joined]? = some action)
    (hfinished : round.stages round.joined = .finished result) :
    Sound setup { round with
      joined := round.joined + 1
      results := Function.update round.results round.joined (some (outcomeOf action result))
      written := round.written ++ [round.joined] } := by
  exact ⟨h.semaphore, h.stateLock, h.claimsLock, h.collected.joins haction hfinished,
    h.claimed.of_eq rfl rfl rfl⟩

theorem Sound.step (h : round.Sound setup) (hsteps : Steps setup round next) :
    next.Sound setup := by
  cases hsteps with
  | spawns hspawned => exact h.spawns hspawned
  | joins haction hfinished => exact h.joins haction hfinished
  | advances hk hadvances => exact h.advances hk hadvances
  | wakes hk hsleeping => exact h.wakes hk hsleeping

def CanGoOn (setup : RoundSetup) (round : Round) (k : Nat) : Prop :=
  ∃ notified, (round.step setup (.thread k notified)).isSome = true

theorem canGoOn_of_advance {k : Nat} (hk : k < setup.actions.length) (notified : Option Nat)
    (h : ∀ action, (round.advance setup k action notified).isSome = true) :
    CanGoOn setup round k := by
  refine ⟨notified, ?_⟩
  rw [step, List.getElem?_eq_getElem hk, Option.bind_some]
  exact h _

theorem canGoOn_of_releasing {k : Nat} (hk : k < setup.actions.length)
    {result : Option ActionOutcome} (hstage : round.stages k = .releasing result) :
    CanGoOn setup round k := by
  by_cases hsleeping : ∃ j < setup.actions.length, (round.stages j).gate = .sleeping
  · obtain ⟨j, hj, hgate⟩ := hsleeping
    refine canGoOn_of_advance hk (some j) fun action => ?_
    simp [advance, hstage, hj, hgate]
  · push Not at hsleeping
    refine canGoOn_of_advance hk none fun action => ?_
    simp only [advance, hstage]
    rw [if_pos hsleeping]
    rfl

theorem canGoOn_of_free {k : Nat} (hk : k < setup.actions.length)
    (hpermits : round.permitsLock = none) (hstate : round.stateLock = none)
    (hclaims : round.claimsLock = none)
    (houtside : (round.stages k).gate ≠ .outside) (hsleeping : (round.stages k).gate ≠ .sleeping) :
    CanGoOn setup round k := by
  cases hstage : round.stages k with
  | unspawned => exact absurd (congrArg Stage.gate hstage) houtside
  | finished result => exact absurd (congrArg Stage.gate hstage) houtside
  | sleeping => exact absurd (congrArg Stage.gate hstage) hsleeping
  | releasing result => exact canGoOn_of_releasing hk hstage
  | acquiring => exact canGoOn_of_advance hk none fun action => by simp [advance, hstage, hpermits]
  | woken => exact canGoOn_of_advance hk none fun action => by simp [advance, hstage, hpermits]
  | returning result =>
    exact canGoOn_of_advance hk none fun action => by simp [advance, hstage, hpermits]
  | testing =>
    refine canGoOn_of_advance hk none fun action => ?_
    simp only [advance, hstage]
    split <;> rfl
  | admitted =>
    refine canGoOn_of_advance hk none fun action => ?_
    simp only [advance, hstage]
    split <;> rfl
  | looking goalId =>
    exact canGoOn_of_advance hk none fun action => by simp [advance, hstage, hstate]
  | inspecting goalId =>
    refine canGoOn_of_advance hk none fun action => ?_
    simp only [advance, hstage]
    split <;> rfl
  | claiming goalId board found =>
    exact canGoOn_of_advance hk none fun action => by simp [advance, hstage, hclaims]
  | inserting goalId board found =>
    refine canGoOn_of_advance hk none fun action => ?_
    simp only [advance, hstage]
    split <;> rfl
  | session edits =>
    cases edits with
    | nil => exact canGoOn_of_advance hk none fun action => by simp [advance, hstage]
    | cons edit rest =>
      exact canGoOn_of_advance hk none fun action => by simp [advance, hstage, hstate]
  | editing edit rest => exact canGoOn_of_advance hk none fun action => by simp [advance, hstage]

theorem canGoOn_of_claimsLock (h : round.Sound setup) {k : Nat}
    (hlock : round.claimsLock = some k) : CanGoOn setup round k := by
  obtain ⟨hk, hheld⟩ := (h.claimsLock k).mp hlock
  cases hstage : round.stages k with
  | inserting goalId board found =>
    refine canGoOn_of_advance hk none fun action => ?_
    simp only [advance, hstage]
    split <;> rfl
  | _ =>
    rw [hstage] at hheld
    cases hheld

theorem canGoOn_of_stateLock (h : round.Sound setup) (hclaims : round.claimsLock = none) {k : Nat}
    (hlock : round.stateLock = some k) : CanGoOn setup round k := by
  obtain ⟨hk, hheld⟩ := (h.stateLock k).mp hlock
  cases hstage : round.stages k with
  | inspecting goalId =>
    refine canGoOn_of_advance hk none fun action => ?_
    simp only [advance, hstage]
    split <;> rfl
  | claiming goalId board found =>
    exact canGoOn_of_advance hk none fun action => by simp [advance, hstage, hclaims]
  | inserting goalId board found =>
    refine canGoOn_of_advance hk none fun action => ?_
    simp only [advance, hstage]
    split <;> rfl
  | editing edit rest => exact canGoOn_of_advance hk none fun action => by simp [advance, hstage]
  | _ =>
    rw [hstage] at hheld
    cases hheld

theorem canGoOn_of_permitsLock (h : round.Sound setup) {k : Nat}
    (hlock : round.permitsLock = some k) : CanGoOn setup round k := by
  obtain ⟨hk, hheld⟩ := (h.semaphore.locked k).mp hlock
  change (round.stages k).gate.locks = true at hheld
  cases hstage : round.stages k with
  | testing =>
    refine canGoOn_of_advance hk none fun action => ?_
    simp only [advance, hstage]
    split <;> rfl
  | releasing result => exact canGoOn_of_releasing hk hstage
  | _ =>
    rw [hstage] at hheld
    cases hheld

theorem Sound.finished_of_stuck (h : round.Sound setup)
    (hspawned : round.spawned = setup.actions.length)
    (hstuck : ∀ k, ¬ CanGoOn setup round k) {k : Nat} (hk : k < setup.actions.length) :
    ∃ result, round.stages k = .finished result := by
  have hclaims : round.claimsLock = none := by
    cases hlock : round.claimsLock with
    | none => rfl
    | some i => exact absurd (canGoOn_of_claimsLock h hlock) (hstuck i)
  have hstate : round.stateLock = none := by
    cases hlock : round.stateLock with
    | none => rfl
    | some i => exact absurd (canGoOn_of_stateLock h hclaims hlock) (hstuck i)
  have hpermits : round.permitsLock = none := by
    cases hlock : round.permitsLock with
    | none => rfl
    | some i => exact absurd (canGoOn_of_permitsLock h hlock) (hstuck i)
  -- A sleeper would not be the only one left.
  have hawake (i : Nat) (hi : i < setup.actions.length) : (round.stages i).gate ≠ .sleeping := by
    intro hsleeping
    obtain ⟨j, hj, houtside, hnotAsleep⟩ :=
      h.semaphore.exists_awake (Nat.lt_of_lt_of_le Nat.zero_lt_one (le_max_right _ _)) hi hsleeping
    exact hstuck j (canGoOn_of_free hj hpermits hstate hclaims houtside hnotAsleep)
  have houtside : (round.stages k).gate = .outside := by
    by_contra houtside
    exact hstuck k (canGoOn_of_free hk hpermits hstate hclaims houtside (hawake k hk))
  have hstarted : round.stages k ≠ .unspawned := by
    rw [Ne, h.collected.unspawned, hspawned]
    omega
  cases hstage : round.stages k with
  | unspawned => exact absurd hstage hstarted
  | finished result => exact ⟨result, rfl⟩
  | _ =>
    rw [hstage] at houtside
    cases houtside

theorem Sound.exists_move (h : round.Sound setup) (hjoined : round.joined < setup.actions.length) :
    ∃ move, move.isWake = false ∧ (round.step setup move).isSome = true := by
  by_cases hspawned : round.spawned < setup.actions.length
  · exact ⟨.spawn, rfl, by simp [Round.step, hspawned]⟩
  · have hspawned : round.spawned = setup.actions.length :=
      Nat.le_antisymm h.collected.spawned (Nat.le_of_not_lt hspawned)
    by_cases hgoes : ∃ k, CanGoOn setup round k
    · obtain ⟨k, notified, hsome⟩ := hgoes
      exact ⟨.thread k notified, rfl, hsome⟩
    · push Not at hgoes
      obtain ⟨result, hfinished⟩ := h.finished_of_stuck hspawned hgoes hjoined
      refine ⟨.join, rfl, ?_⟩
      rw [Round.step, List.getElem?_eq_getElem hjoined, hfinished]
      dsimp only
      rw [if_pos hspawned]
      rfl

def threadRank (setup : RoundSetup) (stages : Nat → Stage) : Nat :=
  total (fun k => Stage.rank (setup.scripts k).edits.length) stages setup.actions.length

def rank (setup : RoundSetup) (round : Round) : Nat :=
  threadRank setup round.stages + (setup.actions.length - round.joined)

theorem threadRank_update {stages : Nat → Stage} {k : Nat} (hk : k < setup.actions.length)
    {old : Stage} (hold : stages k = old) (stage : Stage) :
    threadRank setup (Function.update stages k stage) + old.rank (setup.scripts k).edits.length =
      threadRank setup stages + stage.rank (setup.scripts k).edits.length := by
  subst hold
  exact total_update hk stage

theorem Advances.rank_lt {k : Nat} (hk : k < setup.actions.length)
    (h : Advances setup round k next) : next.rank setup < round.rank setup := by
  have hmoves {old : Stage} (hstage : round.stages k = old) (stage : Stage)
      (hless : stage.rank (setup.scripts k).edits.length <
        old.rank (setup.scripts k).edits.length) :
      threadRank setup (Function.update round.stages k stage) +
        (setup.actions.length - round.joined) < round.rank setup := by
    have hsum := threadRank_update hk hstage stage
    unfold rank
    omega
  cases h with
  | locks h =>
    rcases h with h | h
    · exact hmoves h .testing (by simp only [Stage.rank]; omega)
    · exact hmoves h .testing (by simp only [Stage.rank]; omega)
  | sleeps h => exact hmoves h .sleeping (by simp only [Stage.rank]; omega)
  | passes h => exact hmoves h .admitted (by simp only [Stage.rank]; omega)
  | turnsBack h => exact hmoves h (.returning _) (by simp only [Stage.rank]; omega)
  | goesOn h => exact hmoves h (.looking _) (by simp only [Stage.rank]; omega)
  | locksState h => exact hmoves h (.inspecting _) (by simp only [Stage.rank]; omega)
  | refuses h => exact hmoves h (.returning _) (by simp only [Stage.rank]; omega)
  | finds h => exact hmoves h (.claiming _ _ _) (by simp only [Stage.rank]; omega)
  | locksClaims h => exact hmoves h (.inserting _ _ _) (by simp only [Stage.rank]; omega)
  | skips h => exact hmoves h (.returning _) (by simp only [Stage.rank]; omega)
  | starts h => exact hmoves h (.session _) (by simp only [Stage.rank]; omega)
  | ends h => exact hmoves h (.returning _) (by simp [Stage.rank])
  | locksEdit h => exact hmoves h (.editing _ _) (by simp [Stage.rank]; omega)
  | edits h => exact hmoves h (.session _) (by simp only [Stage.rank]; omega)
  | relocks h => exact hmoves h (.releasing _) (by simp only [Stage.rank]; omega)
  | releases h => exact hmoves h (.finished _) (by simp only [Stage.rank]; omega)
  | @notifies result j h hj hsleeping =>
    have hne := ne_of_sleeping h hsleeping
    have hstill : Function.update round.stages k (.finished result) j = .sleeping :=
      (Function.update_of_ne hne ..).trans hsleeping
    -- The one that is woken gains less than the one that has finished loses.
    have hends := threadRank_update hk h (.finished result)
    have hwakes := threadRank_update hj hstill .woken
    simp only [Stage.rank] at hends hwakes
    change threadRank setup (Function.update (Function.update round.stages k (.finished result)) j
      .woken) + (setup.actions.length - round.joined) < round.rank setup
    unfold rank
    omega

theorem rank_step (h : round.Sound setup) {move : Move}
    (hstep : round.step setup move = some next) :
    next.rank setup + 1 ≤ round.rank setup + if move.isWake then 3 else 0 := by
  cases move with
  | spawn =>
    obtain ⟨hspawned, rfl⟩ := of_ite_some hstep
    have hunspawned : round.stages round.spawned = .unspawned :=
      (h.collected.unspawned round.spawned).mpr le_rfl
    have hsum := threadRank_update hspawned hunspawned .acquiring
    change threadRank setup (Function.update round.stages round.spawned .acquiring) +
      (setup.actions.length - round.joined) + 1 ≤ round.rank setup + 0
    simp only [Stage.rank] at hsum
    unfold rank
    omega
  | join =>
    rw [step] at hstep
    split at hstep
    next haction _ =>
      obtain ⟨-, rfl⟩ := of_ite_some hstep
      have hjoined := (List.getElem?_eq_some_iff.mp haction).1
      change threadRank setup round.stages + (setup.actions.length - (round.joined + 1)) + 1 ≤
        round.rank setup + 0
      unfold rank
      omega
    · cases hstep
  | thread k notified =>
    obtain ⟨action, haction, hadvance⟩ := Option.bind_eq_some_iff.mp hstep
    exact (advances_of_advance hadvance).rank_lt (List.getElem?_eq_some_iff.mp haction).1
  | wake k =>
    obtain ⟨⟨hk, hgate⟩, rfl⟩ := of_ite_some hstep
    have hsum := threadRank_update hk (eq_sleeping_of_gate hgate) .woken
    change threadRank setup (Function.update round.stages k .woken) +
      (setup.actions.length - round.joined) + 1 ≤ round.rank setup + 3
    simp only [Stage.rank] at hsum
    unfold rank
    omega

def runFrom (setup : RoundSetup) (round : Round) (moves : List Move) : Option Round :=
  moves.foldlM (fun round move => round.step setup move) round

theorem Sound.run_from (h : round.Sound setup) {moves : List Move}
    (hrun : runFrom setup round moves = some next) :
    next.Sound setup ∧ next.rank setup + moves.length ≤
      round.rank setup + 3 * moves.countP Move.isWake := by
  induction moves generalizing round with
  | nil =>
    obtain rfl := Option.some.inj hrun
    exact ⟨h, le_rfl⟩
  | cons move moves ih =>
    rw [runFrom, List.foldlM_cons] at hrun
    obtain ⟨middle, hstep, hrest⟩ := Option.bind_eq_some_iff.mp hrun
    obtain ⟨hsound, hrank⟩ := ih (h.step (steps_of_step hstep)) hrest
    have hfirst := rank_step h hstep
    refine ⟨hsound, ?_⟩
    rw [List.length_cons, List.countP_cons]
    split at hfirst
    next hwake =>
      rw [if_pos hwake]
      omega
    next hwake =>
      rw [if_neg hwake]
      omega

theorem Sound.finishes (h : round.Sound setup) :
    ∃ moves done, runFrom setup round moves = some done ∧ done.joined = setup.actions.length := by
  induction hrank : round.rank setup using Nat.strong_induction_on generalizing round with
  | h rank ih =>
    rcases Nat.lt_or_eq_of_le h.collected.joined with hjoined | hjoined
    · obtain ⟨move, hwake, hsome⟩ := h.exists_move hjoined
      obtain ⟨middle, hstep⟩ := Option.isSome_iff_exists.mp hsome
      have hless := rank_step h hstep
      rw [hwake, if_neg Bool.false_ne_true, hrank] at hless
      obtain ⟨moves, done, hrun, hdone⟩ := ih _ hless (h.step (steps_of_step hstep)) rfl
      refine ⟨move :: moves, done, ?_, hdone⟩
      rw [runFrom, List.foldlM_cons, hstep]
      exact hrun
    · exact ⟨[], round, rfl, hjoined⟩

theorem rank_init (setup : RoundSetup) : (init setup).rank setup =
    ∑ k ∈ Finset.range setup.actions.length, (14 + 2 * (setup.scripts k).edits.length) +
      setup.actions.length :=
  rfl

end Round

/-- The thread has been let through and has not given its permit back. -/
def Stage.pastSemaphore : Stage → Bool
  | .unspawned | .acquiring | .testing | .sleeping | .woken | .finished _ => false
  | _ => true

theorem Stage.holds_gate (stage : Stage) :
    stage.gate.holds = if stage.pastSemaphore then 1 else 0 := by
  cases stage <;> rfl

/-- What holds of a round after so many moves. The outcomes that have been written are those of the
first threads, each written once; as long as there are others to write the round can go on, and it
comes to an end: only waking sleepers for no reason makes it longer. -/
structure RoundPromise (setup : RoundSetup) (moves : List Move) (round : Round) : Prop where
  bounded : ((Finset.range setup.actions.length).filter fun k =>
    (round.stages k).pastSemaphore = true).card ≤ max setup.maxConcurrency 1
  once : (round.sessions.map StartedSession.goalId).Nodup
  justified : ∀ session ∈ round.sessions,
    Round.Justified session.goalId session.board session.found
  written : round.written = List.range round.joined
  outcomes : ∀ k action, setup.actions[k]? = some action → k < round.joined →
    ∃ result, round.stages k = .finished result ∧
      round.results k = some (Round.outcomeOf action result)
  unwritten : ∀ k, round.joined ≤ k → round.results k = none
  goesOn : round.joined < setup.actions.length →
    ∃ move, move.isWake = false ∧ (round.step setup move).isSome = true
  finishes : ∃ rest done, Round.run setup (moves ++ rest) = some done ∧
    done.joined = setup.actions.length
  limited : moves.length ≤
    ∑ k ∈ Finset.range setup.actions.length, (14 + 2 * (setup.scripts k).edits.length) +
      setup.actions.length + 3 * moves.countP Move.isWake

theorem Round.Sound.bounded {setup : RoundSetup} {round : Round} (h : round.Sound setup) :
    ((Finset.range setup.actions.length).filter fun k =>
      (round.stages k).pastSemaphore = true).card ≤ max setup.maxConcurrency 1 := by
  have hheld : Semaphore.held round.semaphore.gates setup.actions.length =
      ((Finset.range setup.actions.length).filter fun k =>
        (round.stages k).pastSemaphore = true).card := by
    rw [Finset.card_filter]
    change ∑ k ∈ Finset.range setup.actions.length, (round.stages k).gate.holds = _
    exact Finset.sum_congr rfl fun k _ => Stage.holds_gate (round.stages k)
  rw [← hheld]
  exact h.semaphore.held_le

theorem Round.Collected.outcome {setup : RoundSetup} {round : Round} (h : round.Collected setup)
    {k : Nat} {action : PlannedAction} (haction : setup.actions[k]? = some action)
    (hk : k < round.joined) :
    ∃ result, round.stages k = .finished result ∧
      round.results k = some (outcomeOf action result) := by
  obtain ⟨result, hresult⟩ := h.finished k hk
  refine ⟨result, hresult, ?_⟩
  rw [h.results, if_pos hk, haction, hresult]
  rfl

/-- Whatever the actions, the cap, the board and what the sessions do, and in whatever order the
threads go on: a round is bounded, claims no goal twice, and gives every action its outcome. -/
theorem dispatch_round_bounded_single_claim_complete (setup : RoundSetup) :
    ∀ moves round, Round.run setup moves = some round → RoundPromise setup moves round := by
  intro moves round hrun
  obtain ⟨hsound, hrank⟩ := (Round.sound_init setup).run_from hrun
  rw [Round.rank_init] at hrank
  obtain ⟨rest, done, hrest, hdone⟩ := hsound.finishes
  refine ⟨hsound.bounded, ?_, hsound.claimed.justified, hsound.collected.written,
    fun k action => hsound.collected.outcome, ?_, hsound.exists_move, ⟨rest, done, ?_, hdone⟩, ?_⟩
  · rw [← hsound.claimed.listed]
    exact hsound.claimed.once
  · intro k hk
    rw [hsound.collected.results, if_neg (Nat.not_lt_of_le hk)]
  · rw [Round.run, List.foldlM_append]
    exact Option.bind_eq_some_iff.mpr ⟨round, hrun, hrest⟩
  · omega

/-- Two actions for one goal, one permit, and a session that panics. -/
def doubledSetup : RoundSetup where
  actions := [⟨.advanceGoal, some "g", "advance"⟩, ⟨.advanceGoal, some "g", "advance"⟩]
  maxConcurrency := 0
  state :=
    ⟨[⟨"g", "goal", 1, .notStarted, none, none, none, [], none, none, false, []⟩], fun _ => none⟩
  scripts _ := ⟨[], none⟩

/-- The second thread sleeps until the first has panicked, and finds the goal claimed. -/
def doubledMoves : List Move :=
  [.spawn, .spawn, .thread 0 none, .thread 0 none, .thread 1 none, .thread 1 none,
    .thread 0 none, .thread 0 none, .thread 0 none, .thread 0 none, .thread 0 none, .thread 0 none,
    .thread 0 none, .thread 0 (some 1), .thread 1 none, .thread 1 none, .thread 1 none,
    .thread 1 none, .thread 1 none, .thread 1 none, .thread 1 none, .thread 1 none, .thread 1 none,
    .join, .join]

theorem doubled_round_promise : ∃ round, Round.run doubledSetup doubledMoves = some round ∧
    round.joined = 2 ∧ round.sessions.length = 1 ∧
    RoundPromise doubledSetup doubledMoves round := by
  have hrun : (Round.run doubledSetup doubledMoves).map
      (fun round => (round.joined, round.sessions.length)) = some (2, 1) := by decide
  obtain ⟨round, hround, hcounts⟩ := Option.map_eq_some_iff.mp hrun
  obtain ⟨hjoined, hsessions⟩ := Prod.mk.inj hcounts
  have hpromise :=
    dispatch_round_bounded_single_claim_complete doubledSetup doubledMoves round hround
  exact ⟨round, hround, hjoined, hsessions, hpromise⟩

end Simard.Ooda
