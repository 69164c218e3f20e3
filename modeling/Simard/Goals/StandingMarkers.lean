import Simard.Goals.Curation

/-! The reconciliation of standing markers with the seeds. A standing seed puts the marker on
a goal that does not read as standing; a seed that is declared not to be standing takes one
marker off the beginning. Of two markers at the beginning one is left for the next pass. -/
namespace Simard.Goals
open Simard.Library

def SeedGoal.authorizesStandingReversal (seed : SeedGoal) : Bool :=
  seed.standingExplicit && !seed.standing

def ActiveGoal.unmarkStanding (goal : ActiveGoal) : Option ActiveGoal :=
  (stripPrefix standingMarkerPrefix.toList goal.description.toList).map fun rest =>
    { goal with description := String.ofList rest }

def standingTrue (seeds : List SeedGoal) : List String :=
  (seeds.filter SeedGoal.standing).map fun seed => goalSlug seed.title

def standingFalse (seeds : List SeedGoal) : List String :=
  ((seeds.filter SeedGoal.authorizesStandingReversal).map fun seed => goalSlug seed.title).filter
    fun slug => slug ∉ standingTrue seeds

structure StandingReconciliation where
  added : Nat
  removed : Nat
  deriving DecidableEq

def reconcileActive (seeds : List SeedGoal) :
    List ActiveGoal → StandingReconciliation × List ActiveGoal
  | [] => (⟨0, 0⟩, [])
  | goal :: rest =>
      let (out, rest) := reconcileActive seeds rest
      if goal.id ∈ standingTrue seeds then
        if goal.isPerpetual then (out, goal :: rest)
        else ({ out with added := out.added + 1 }, goal.markStanding :: rest)
      else if goal.id ∈ standingFalse seeds ∧ sourceSeed ∈ goal.labels then
        match goal.unmarkStanding with
        | some goal => ({ out with removed := out.removed + 1 }, goal :: rest)
        | none => (out, goal :: rest)
      else (out, goal :: rest)

def reconcileStandingMarkers (board : GoalBoard) (seeds : List SeedGoal) :
    StandingReconciliation × GoalBoard :=
  if standingTrue seeds = [] ∧ standingFalse seeds = [] then (⟨0, 0⟩, board)
  else
    let (out, active) := reconcileActive seeds board.active
    (out, { board with active := active })

section Goal

variable (seeds : List SeedGoal) (goal : ActiveGoal)

def Marks : Prop := goal.id ∈ standingTrue seeds ∧ goal.isPerpetual = false

def Reverses : Prop := goal.id ∈ standingFalse seeds ∧ sourceSeed ∈ goal.labels

def Unmarks : Prop :=
  Reverses seeds goal ∧ standingMarkerPrefix.toList <+: goal.description.toList

instance : Decidable (Marks seeds goal) := inferInstanceAs (Decidable (_ ∧ _))

instance : Decidable (Reverses seeds goal) := inferInstanceAs (Decidable (_ ∧ _))

instance : Decidable (Unmarks seeds goal) := inferInstanceAs (Decidable (_ ∧ _))

def reconciled : ActiveGoal :=
  if Marks seeds goal then goal.markStanding
  else if Unmarks seeds goal then goal.unmarkStanding.getD goal
  else goal

theorem standingFalse_not_standingTrue {seeds : List SeedGoal} {slug : String}
    (h : slug ∈ standingFalse seeds) : slug ∉ standingTrue seeds :=
  of_decide_eq_true (List.mem_filter.mp h).2

theorem unmarkStanding_eq_some {goal unmarked : ActiveGoal} :
    goal.unmarkStanding = some unmarked ↔
      ∃ rest, goal.description.toList = standingMarkerPrefix.toList ++ rest ∧
        unmarked = { goal with description := String.ofList rest } := by
  unfold ActiveGoal.unmarkStanding
  rw [Option.map_eq_some_iff]
  apply exists_congr
  intro rest
  rw [stripPrefix_eq_some, eq_comm (a := unmarked)]

theorem unmarkStanding_eq_none {goal : ActiveGoal} :
    goal.unmarkStanding = none ↔ ¬ standingMarkerPrefix.toList <+: goal.description.toList := by
  rw [ActiveGoal.unmarkStanding, Option.map_eq_none_iff, stripPrefix, ite_eq_right_iff,
    List.isPrefixOf_iff_prefix]
  constructor
  · intro h hbegins
    cases h hbegins
  · intro h hbegins
    exact absurd hbegins h

theorem reconcileActive_eq (active : List ActiveGoal) :
    reconcileActive seeds active =
      (⟨active.countP fun goal => Marks seeds goal, active.countP fun goal => Unmarks seeds goal⟩,
        active.map (reconciled seeds)) := by
  induction active with
  | nil => rfl
  | cons goal rest ih =>
    rw [reconcileActive, ih, List.countP_cons, List.countP_cons, List.map_cons]
    dsimp only
    unfold reconciled
    by_cases htrue : goal.id ∈ standingTrue seeds
    · have hkeeps : ¬ Unmarks seeds goal := fun h => standingFalse_not_standingTrue h.1.1 htrue
      by_cases hperpetual : goal.isPerpetual = true
      · have hmarked : ¬ Marks seeds goal := fun h =>
          Bool.false_ne_true (h.2.symm.trans hperpetual)
        simp [htrue, hperpetual, hmarked, hkeeps]
      · have hmarks : Marks seeds goal := ⟨htrue, Bool.eq_false_iff.mpr hperpetual⟩
        simp [htrue, hperpetual, hmarks, hkeeps]
    · have hmarked : ¬ Marks seeds goal := fun h => htrue h.1
      by_cases hreverses : Reverses seeds goal
      · rw [if_neg htrue, if_pos (show _ ∧ _ from hreverses)]
        cases hunmarked : goal.unmarkStanding with
        | none =>
          have hkeeps : ¬ Unmarks seeds goal := fun h => unmarkStanding_eq_none.mp hunmarked h.2
          simp [hmarked, hkeeps]
        | some unmarked =>
          obtain ⟨tail, htext, -⟩ := unmarkStanding_eq_some.mp hunmarked
          have hunmarks : Unmarks seeds goal := ⟨hreverses, tail, htext.symm⟩
          simp [hmarked, hunmarks]
      · have hkeeps : ¬ Unmarks seeds goal := fun h => hreverses h.1
        rw [if_neg htrue, if_neg (show ¬ (_ ∧ _) from hreverses)]
        simp [hmarked, hkeeps]

theorem reconcileStandingMarkers_eq (board : GoalBoard) :
    reconcileStandingMarkers board seeds =
      (⟨board.active.countP fun goal => Marks seeds goal,
        board.active.countP fun goal => Unmarks seeds goal⟩,
        { board with active := board.active.map (reconciled seeds) }) := by
  unfold reconcileStandingMarkers
  split
  next hnone =>
    have hmarks (goal : ActiveGoal) : ¬ Marks seeds goal := by
      intro h
      have hmem := h.1
      rw [hnone.1] at hmem
      cases hmem
    have hkeeps (goal : ActiveGoal) : ¬ Unmarks seeds goal := by
      intro h
      have hmem := h.1.1
      rw [hnone.2] at hmem
      cases hmem
    have hsame : reconciled seeds = id := by
      funext goal
      rw [reconciled, if_neg (hmarks goal), if_neg (hkeeps goal)]
      rfl
    rw [hsame, List.map_id]
    simp [hmarks, hkeeps]
  next =>
    rw [reconcileActive_eq]

theorem markStanding_isPerpetual : goal.markStanding.isPerpetual = true := by
  unfold ActiveGoal.markStanding
  split
  next hperpetual => exact hperpetual
  next =>
    have hbegins : standingSentinel.toList <+:
        asciiLowercase (standingMarkerPrefix ++ goal.description) := by
      rw [asciiLowercase, String.toList_append, List.map_append]
      exact ⟨' ' :: goal.description.toList.map Char.toLower, rfl⟩
    unfold ActiveGoal.isPerpetual descriptionMarksStanding
    dsimp only
    rw [Bool.or_eq_true]
    exact .inl (containsText_iff.mpr hbegins.isInfix)

theorem reconciled_of_marks (h : Marks seeds goal) :
    reconciled seeds goal =
      { goal with description := standingMarkerPrefix ++ goal.description } := by
  rw [reconciled, if_pos h, ActiveGoal.markStanding, h.2, if_neg Bool.false_ne_true]

variable {seeds goal}

theorem not_marks_of_reverses (h : Reverses seeds goal) : ¬ Marks seeds goal :=
  fun hmarks => standingFalse_not_standingTrue h.1 hmarks.1

theorem reconciled_of_unmarks (h : Unmarks seeds goal) :
    ∃ rest, goal.description.toList = standingMarkerPrefix.toList ++ rest ∧
      reconciled seeds goal = { goal with description := String.ofList rest } := by
  obtain ⟨rest, htext⟩ := h.2
  refine ⟨rest, htext.symm, ?_⟩
  rw [reconciled, if_neg (not_marks_of_reverses h.1), if_pos h,
    unmarkStanding_eq_some.mpr ⟨rest, htext.symm, rfl⟩]
  rfl

theorem reconciled_of_neither (hmarks : ¬ Marks seeds goal) (hunmarks : ¬ Unmarks seeds goal) :
    reconciled seeds goal = goal := by
  rw [reconciled, if_neg hmarks, if_neg hunmarks]

theorem reconciled_cases :
    Marks seeds goal ∧ reconciled seeds goal =
        { goal with description := standingMarkerPrefix ++ goal.description } ∨
      (∃ rest, Unmarks seeds goal ∧
        goal.description.toList = standingMarkerPrefix.toList ++ rest ∧
        reconciled seeds goal = { goal with description := String.ofList rest }) ∨
      ¬ Marks seeds goal ∧ ¬ Unmarks seeds goal ∧ reconciled seeds goal = goal := by
  by_cases hmarks : Marks seeds goal
  · exact .inl ⟨hmarks, reconciled_of_marks seeds goal hmarks⟩
  · by_cases hunmarks : Unmarks seeds goal
    · obtain ⟨rest, htext, hgoal⟩ := reconciled_of_unmarks hunmarks
      exact .inr (.inl ⟨rest, hunmarks, htext, hgoal⟩)
    · exact .inr (.inr ⟨hmarks, hunmarks, reconciled_of_neither hmarks hunmarks⟩)

theorem reconciled_id : (reconciled seeds goal).id = goal.id := by
  obtain ⟨-, h⟩ | ⟨_, -, -, h⟩ | ⟨-, -, h⟩ := @reconciled_cases seeds goal <;> rw [h]

theorem reconciled_labels : (reconciled seeds goal).labels = goal.labels := by
  obtain ⟨-, h⟩ | ⟨_, -, -, h⟩ | ⟨-, -, h⟩ := @reconciled_cases seeds goal <;> rw [h]

theorem reconciled_isPerpetual (h : goal.id ∈ standingTrue seeds) :
    (reconciled seeds goal).isPerpetual = true := by
  by_cases hperpetual : goal.isPerpetual = true
  · rw [reconciled_of_neither]
    · exact hperpetual
    · exact fun hmarks => Bool.false_ne_true (hmarks.2.symm.trans hperpetual)
    · exact fun hunmarks => standingFalse_not_standingTrue hunmarks.1.1 h
  · rw [reconciled, if_pos ⟨h, Bool.eq_false_iff.mpr hperpetual⟩]
    exact markStanding_isPerpetual goal

theorem not_marks_reconciled : ¬ Marks seeds (reconciled seeds goal) := by
  intro hmarks
  have htrue := hmarks.1
  rw [reconciled_id] at htrue
  exact Bool.false_ne_true (hmarks.2.symm.trans (reconciled_isPerpetual htrue))

theorem unmarks_reconciled_iff : Unmarks seeds (reconciled seeds goal) ↔
    Reverses seeds goal ∧
      (standingMarkerPrefix ++ standingMarkerPrefix).toList <+: goal.description.toList := by
  have hreverses : Reverses seeds (reconciled seeds goal) ↔ Reverses seeds goal := by
    rw [Reverses, Reverses, reconciled_id, reconciled_labels]
  rw [Unmarks, hreverses, String.toList_append]
  apply and_congr_right
  intro h
  by_cases hunmarks : Unmarks seeds goal
  · obtain ⟨rest, htext, hgoal⟩ := reconciled_of_unmarks hunmarks
    rw [hgoal, htext]
    dsimp only
    rw [String.toList_ofList, List.prefix_append_right_inj]
  · rw [reconciled_of_neither (not_marks_of_reverses h) hunmarks]
    have hnone : ¬ standingMarkerPrefix.toList <+: goal.description.toList :=
      fun hbegins => hunmarks ⟨h, hbegins⟩
    refine iff_of_false hnone ?_
    intro htwice
    exact hnone ((List.prefix_append _ _).trans htwice)

end Goal

/-- What a pass changed in a goal: nothing, or a marker was put on a goal of a standing seed,
or one was taken off a seeded goal of a seed that is declared not to be standing. -/
inductive MarkerChange (seeds : List SeedGoal) (goal : ActiveGoal) : ActiveGoal → Prop where
  | none : MarkerChange seeds goal goal
  | gained (hid : goal.id ∈ standingTrue seeds) :
      MarkerChange seeds goal { goal with description := standingMarkerPrefix ++ goal.description }
  | lost (hid : goal.id ∈ standingFalse seeds) (hlabel : sourceSeed ∈ goal.labels) (rest : String)
      (htext : goal.description = standingMarkerPrefix ++ rest) :
      MarkerChange seeds goal { goal with description := rest }

structure Settles (board : GoalBoard) (seeds : List SeedGoal) : Prop where
  again : reconcileStandingMarkers (reconcileStandingMarkers board seeds).2 seeds =
    (⟨0, 0⟩, (reconcileStandingMarkers board seeds).2)
  perpetual : ∀ goal ∈ (reconcileStandingMarkers board seeds).2.active,
    goal.id ∈ standingTrue seeds → goal.isPerpetual = true
  narrow : List.Forall₂ (MarkerChange seeds) board.active
    (reconcileStandingMarkers board seeds).2.active
  backlog : (reconcileStandingMarkers board seeds).2.backlog = board.backlog

section Pass

variable {board : GoalBoard} {seeds : List SeedGoal}

theorem markerChange_reconciled (goal : ActiveGoal) :
    MarkerChange seeds goal (reconciled seeds goal) := by
  obtain ⟨hmarks, h⟩ | ⟨rest, hunmarks, htext, h⟩ | ⟨-, -, h⟩ := @reconciled_cases seeds goal
  · rw [h]
    exact .gained hmarks.1
  · rw [h]
    apply MarkerChange.lost hunmarks.1.1 hunmarks.1.2
    rw [← String.toList_inj, htext, String.toList_append, String.toList_ofList]
  · rw [h]
    exact .none

theorem again_iff :
    reconcileStandingMarkers (reconcileStandingMarkers board seeds).2 seeds =
        (⟨0, 0⟩, (reconcileStandingMarkers board seeds).2) ↔
      ∀ goal ∈ board.active, goal.id ∈ standingFalse seeds → sourceSeed ∈ goal.labels →
        ¬ (standingMarkerPrefix ++ standingMarkerPrefix).toList <+: goal.description.toList := by
  rw [reconcileStandingMarkers_eq, reconcileStandingMarkers_eq]
  dsimp only
  have hmarks :
      ((board.active.map (reconciled seeds)).countP fun goal => Marks seeds goal) = 0 := by
    rw [List.countP_eq_zero]
    intro goal hgoal
    obtain ⟨before, -, rfl⟩ := List.mem_map.mp hgoal
    rw [decide_eq_true_eq]
    exact not_marks_reconciled
  have hunmarks :
    ((board.active.map (reconciled seeds)).countP fun goal => Unmarks seeds goal) = 0 ↔
      ∀ goal ∈ board.active, goal.id ∈ standingFalse seeds → sourceSeed ∈ goal.labels →
        ¬ (standingMarkerPrefix ++ standingMarkerPrefix).toList <+: goal.description.toList := by
    rw [List.countP_eq_zero, List.forall_mem_map]
    refine forall₂_congr fun goal _ => ?_
    rw [decide_eq_true_eq, unmarks_reconciled_iff, not_and, Reverses, and_imp]
  rw [hmarks, ← hunmarks]
  constructor
  · intro h
    exact (StandingReconciliation.mk.inj (Prod.mk.inj h).1).2
  · intro h
    have hsame : (board.active.map (reconciled seeds)).map (reconciled seeds) =
        board.active.map (reconciled seeds) := by
      rw [List.map_map]
      apply List.map_congr_left
      intro goal hgoal
      have hkept := List.countP_eq_zero.mp h _ (List.mem_map_of_mem hgoal)
      exact reconciled_of_neither not_marks_reconciled fun hlost => hkept (decide_eq_true hlost)
    rw [h, hsame]

/-- One pass settles the board exactly if no seeded goal of a seed that is declared not to be
standing begins with two markers. -/
theorem standing_markers_settle_iff (board : GoalBoard) (seeds : List SeedGoal) :
    Settles board seeds ↔
      ∀ goal ∈ board.active, goal.id ∈ standingFalse seeds → sourceSeed ∈ goal.labels →
        ¬ (standingMarkerPrefix ++ standingMarkerPrefix).toList <+: goal.description.toList := by
  constructor
  · intro hsettles
    exact again_iff.mp hsettles.again
  · intro honce
    refine ⟨again_iff.mpr honce, ?_, ?_, ?_⟩
    · intro goal hgoal htrue
      rw [reconcileStandingMarkers_eq] at hgoal
      obtain ⟨before, -, rfl⟩ := List.mem_map.mp hgoal
      rw [reconciled_id] at htrue
      exact reconciled_isPerpetual htrue
    · rw [reconcileStandingMarkers_eq, List.forall₂_map_right_iff, List.forall₂_same]
      intro goal _
      exact markerChange_reconciled goal
    · rw [reconcileStandingMarkers_eq]

end Pass

/-- Of two markers the second pass takes the other. -/
theorem two_markers_not_settled :
    ¬ ∀ (board : GoalBoard) (seeds : List SeedGoal), Settles board seeds := by
  intro hclaim
  have hsettles := hclaim
    ⟨[{ ActiveGoal.new (goalSlug "keep-ci-green") "[standing] [standing] keep CI green" 1 with
      labels := [sourceSeed] }], []⟩
    [⟨1, "keep-ci-green", "keep CI green", none, false, true⟩]
  refine again_iff.mp hsettles.again _ List.mem_cons_self ?_ List.mem_cons_self ?_
  · exact List.mem_filter.mpr ⟨List.mem_cons_self, rfl⟩
  · rw [String.toList_append]
    exact ⟨"keep CI green".toList, by decide⟩

end Simard.Goals
