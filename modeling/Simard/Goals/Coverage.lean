import Simard.Goals.Board

/-! Coverage of goals by engineers. Before the actions of a cycle are dispatched, every incomplete
goal without an engineer is given one action, in the order of priority, ahead of all else that is
planned; the plan is then cut to the cap. -/
namespace Simard.Goals.Coverage

inductive ActionKind where
  | advanceGoal
  | runImprovement
  | consolidateMemory
  | researchQuery
  | runGymEval
  | buildSkill
  | launchSession
  | pollDeveloperActivity
  | extractIdeas
  | safeUpdate
  deriving DecidableEq

structure PlannedAction where
  kind : ActionKind
  goalId : Option String
  description : String
  deriving DecidableEq

structure CoverageReport where
  covered : Nat
  incomplete : Nat
  deferred : Nat
  deriving DecidableEq

def isIncomplete : GoalProgress → Bool
  | .notStarted | .inProgress _ => true
  | _ => false

def lacksEngineer (goal : ActiveGoal) : Bool := isIncomplete goal.status && goal.assignedTo.isNone

/-- The incomplete goals without an engineer, by priority; equal ones as on the board. -/
def needsCoverage (active : List ActiveGoal) : List ActiveGoal :=
  (active.filter lacksEngineer).insertionSort fun left right => left.priority ≤ right.priority

def slotOf (needs : List ActiveGoal) (goalId : String) : Option Nat :=
  (needs.reverse.findIdx? (·.id = goalId)).map (needs.length - 1 - ·)

/-- The slot an action is claimed for: a spawn for a goal in need whose slot is free. -/
def claimFor (needs : List ActiveGoal) (claimed : List (Option PlannedAction))
    (action : PlannedAction) : Option Nat :=
  if action.kind = .advanceGoal then
    (action.goalId.bind (slotOf needs)).filter fun slot => claimed[slot]? = some none
  else none

def claimActions (needs : List ActiveGoal) : List (Option PlannedAction) → List PlannedAction →
    List PlannedAction → List (Option PlannedAction) × List PlannedAction
  | claimed, other, [] => (claimed, other)
  | claimed, other, action :: planned =>
      match claimFor needs claimed action with
      | some slot => claimActions needs (claimed.set slot (some action)) other planned
      | none => claimActions needs claimed (other ++ [action]) planned

def coverageAction (goal : ActiveGoal) : PlannedAction where
  kind := .advanceGoal
  goalId := some goal.id
  description := "coverage: ensure a live engineer for incomplete goal '" ++ goal.id ++ "'"

def others (active : List ActiveGoal) (planned : List PlannedAction) : List PlannedAction :=
  let needs := needsCoverage active
  (claimActions needs (needs.map fun _ => none) [] planned).2

def coverageActions (active : List ActiveGoal) (planned : List PlannedAction) :
    List PlannedAction :=
  let needs := needsCoverage active
  List.zipWith (fun goal claimed => claimed.getD (coverageAction goal)) needs
    (claimActions needs (needs.map fun _ => none) [] planned).1

def ensureGoalCoverage (active : List ActiveGoal) (planned : List PlannedAction) (cap : Nat) :
    List PlannedAction × CoverageReport :=
  let incomplete := active.filter fun goal => isIncomplete goal.status
  let withEngineer := incomplete.countP fun goal => goal.assignedTo.isSome
  let coverage := coverageActions active planned
  let newlyCovered := min coverage.length cap
  ((coverage ++ others active planned).take cap,
    ⟨withEngineer + newlyCovered, incomplete.length, coverage.length - newlyCovered⟩)

def advances (id : String) (action : PlannedAction) : Bool :=
  action.kind = .advanceGoal && action.goalId = some id

theorem slotOf_eq_some {needs : List ActiveGoal} {goalId : String} {slot : Nat}
    (h : slotOf needs goalId = some slot) : ∃ goal, needs[slot]? = some goal ∧
      goal.id = goalId := by
  simp only [slotOf, Option.map_eq_some_iff] at h
  obtain ⟨i, hi, rfl⟩ := h
  rw [List.findIdx?_eq_some_iff_getElem] at hi
  obtain ⟨hlt, hid, -⟩ := hi
  rw [List.length_reverse] at hlt
  refine ⟨needs.reverse[i], ?_, of_decide_eq_true hid⟩
  rw [List.getElem_reverse, List.getElem?_eq_getElem]

def Claims (needs : List ActiveGoal) (claimed : List (Option PlannedAction)) : Prop :=
  List.Forall₂ (fun goal claim => ∀ action ∈ claim, advances goal.id action) needs claimed

theorem claimFor_eq_some {needs : List ActiveGoal} {claimed : List (Option PlannedAction)}
    {action : PlannedAction} {slot : Nat} (h : claimFor needs claimed action = some slot) :
    ∃ goal, needs[slot]? = some goal ∧ advances goal.id action := by
  unfold claimFor at h
  split at h
  · next hkind =>
    rw [Option.filter_eq_some_iff, Option.bind_eq_some_iff] at h
    obtain ⟨⟨goalId, hgoal, hslot⟩, -⟩ := h
    obtain ⟨goal, hneeds, rfl⟩ := slotOf_eq_some hslot
    exact ⟨goal, hneeds, by simp [advances, hkind, hgoal]⟩
  · cases h

theorem Claims.set {needs : List ActiveGoal} {claimed : List (Option PlannedAction)}
    (h : Claims needs claimed) {slot : Nat} {goal : ActiveGoal} (hslot : needs[slot]? = some goal)
    {action : PlannedAction} (haction : advances goal.id action) :
    Claims needs (claimed.set slot (some action)) := by
  induction h generalizing slot with
  | nil => exact .nil
  | cons hhead htail ih =>
    cases slot with
    | zero =>
      cases hslot
      refine .cons ?_ htail
      rintro _ ⟨⟩
      exact haction
    | succ slot => exact .cons hhead (ih hslot)

theorem claims_claimActions {needs : List ActiveGoal} {claimed : List (Option PlannedAction)}
    (h : Claims needs claimed) (other planned : List PlannedAction) :
    Claims needs (claimActions needs claimed other planned).1 := by
  induction planned generalizing claimed other with
  | nil => exact h
  | cons action planned ih =>
    simp only [claimActions]
    split
    · next slot hclaim =>
      obtain ⟨goal, hslot, haction⟩ := claimFor_eq_some hclaim
      exact ih (h.set hslot haction) other
    · exact ih h _

theorem claims_none (needs : List ActiveGoal) : Claims needs (needs.map fun _ => none) := by
  induction needs with
  | nil => exact .nil
  | cons goal needs ih => exact .cons nofun ih

theorem mem_claimActions {needs : List ActiveGoal} {action : PlannedAction}
    (hnone : ∀ goal ∈ needs, advances goal.id action = false)
    {claimed : List (Option PlannedAction)} {other planned : List PlannedAction}
    (h : action ∈ other ∨ action ∈ planned) :
    action ∈ (claimActions needs claimed other planned).2 := by
  induction planned generalizing claimed other with
  | nil => exact h.resolve_right List.not_mem_nil
  | cons first planned ih =>
    simp only [claimActions]
    split
    · next slot hclaim =>
      obtain ⟨goal, hslot, hfirst⟩ := claimFor_eq_some hclaim
      apply ih
      refine h.imp_right fun hmem => ?_
      rcases List.mem_cons.mp hmem with rfl | hmem
      · rw [hnone goal (List.mem_of_getElem? hslot)] at hfirst
        cases hfirst
      · exact hmem
    · apply ih
      rcases h with h | h
      · exact .inl (List.mem_append_left _ h)
      · rcases List.mem_cons.mp h with rfl | h
        · exact .inl (List.mem_append_right _ List.mem_cons_self)
        · exact .inr h

theorem Claims.advance {needs : List ActiveGoal} {claimed : List (Option PlannedAction)}
    (h : Claims needs claimed) :
    List.Forall₂ (fun goal action => action.kind = .advanceGoal ∧ action.goalId = some goal.id)
      needs (List.zipWith (fun goal claim => claim.getD (coverageAction goal)) needs claimed) := by
  induction h with
  | nil => exact .nil
  | @cons goal claim needs claimed hhead htail ih =>
    refine .cons ?_ ih
    cases claim with
    | none => exact ⟨rfl, rfl⟩
    | some action =>
      have haction := hhead action rfl
      simpa [advances] using haction

theorem coverageActions_advance (active : List ActiveGoal) (planned : List PlannedAction) :
    List.Forall₂ (fun goal action => action.kind = .advanceGoal ∧ action.goalId = some goal.id)
      (needsCoverage active) (coverageActions active planned) :=
  (claims_claimActions (claims_none (needsCoverage active)) [] planned).advance

theorem length_coverageActions (active : List ActiveGoal) (planned : List PlannedAction) :
    (coverageActions active planned).length = (needsCoverage active).length :=
  (coverageActions_advance active planned).length_eq.symm

theorem findIdx_advances {needs : List ActiveGoal} {actions : List PlannedAction}
    (h : List.Forall₂ (fun goal action => action.kind = .advanceGoal ∧
      action.goalId = some goal.id) needs actions) (id : String) :
    actions.findIdx (advances id) = needs.findIdx (·.id = id) := by
  induction h with
  | nil => rfl
  | @cons goal action needs actions hhead htail ih =>
    have hsame : advances id action = decide (goal.id = id) := by
      simp [advances, hhead.1, hhead.2]
    rw [List.findIdx_cons, List.findIdx_cons, hsame, ih]

theorem any_take_iff {α : Type} {p : α → Bool} {l : List α} {n : Nat} :
    (l.take n).any p ↔ l.findIdx p < n ∧ l.any p := by
  rw [List.any_eq_true, List.any_eq_true]
  constructor
  · rintro ⟨a, hmem, hp⟩
    obtain ⟨i, hlt, rfl⟩ := List.mem_take_iff_getElem.mp hmem
    refine ⟨?_, _, List.mem_of_mem_take hmem, hp⟩
    by_contra hge
    have hbefore : i < l.findIdx p := by omega
    rw [List.not_of_lt_findIdx hbefore] at hp
    cases hp
  · rintro ⟨hlt, a, hmem, hp⟩
    have hlength : l.findIdx p < l.length := List.findIdx_lt_length_of_exists ⟨a, hmem, hp⟩
    refine ⟨l[l.findIdx p], List.mem_take_iff_getElem.mpr ⟨l.findIdx p, ?_, rfl⟩,
      List.findIdx_getElem⟩
    omega

theorem dispatched_of_need {active : List ActiveGoal} {id : String}
    (hneed : ∃ goal ∈ needsCoverage active, goal.id = id) (planned : List PlannedAction)
    (cap : Nat) : (ensureGoalCoverage active planned cap).1.any (advances id) ↔
      (needsCoverage active).findIdx (·.id = id) < cap := by
  have hidx := findIdx_advances (coverageActions_advance active planned) id
  have hlt : (coverageActions active planned).findIdx (advances id) <
      (coverageActions active planned).length := by
    rw [hidx, length_coverageActions]
    obtain ⟨goal, hmem, hid⟩ := hneed
    exact List.findIdx_lt_length_of_exists ⟨goal, hmem, by simpa using hid⟩
  have hany : (coverageActions active planned ++ others active planned).any (advances id) := by
    rw [List.any_append, Bool.or_eq_true]
    left
    rw [List.any_eq_true]
    exact ⟨_, List.getElem_mem hlt, List.findIdx_getElem⟩
  rw [ensureGoalCoverage, any_take_iff, List.findIdx_append, if_pos hlt, hidx]
  exact and_iff_left hany

theorem dispatched_of_extra {active : List ActiveGoal} {id : String}
    (hneed : ∀ goal ∈ needsCoverage active, goal.id ≠ id) {planned : List PlannedAction}
    (hplanned : planned.any (advances id)) (cap : Nat) :
    (ensureGoalCoverage active planned cap).1.any (advances id) ↔
      (needsCoverage active).length + (others active planned).findIdx (advances id) < cap := by
  have hidx := findIdx_advances (coverageActions_advance active planned) id
  have hnone : (needsCoverage active).findIdx (·.id = id) = (needsCoverage active).length := by
    rw [List.findIdx_eq_length]
    intro goal hmem
    simpa using hneed goal hmem
  have hother : (others active planned).any (advances id) := by
    obtain ⟨action, hmem, haction⟩ := List.any_eq_true.mp hplanned
    rw [List.any_eq_true]
    refine ⟨action, mem_claimActions ?_ (.inr hmem), haction⟩
    intro goal hgoal
    simp only [advances, Bool.and_eq_true, decide_eq_true_eq] at haction
    simpa [advances, haction.1, haction.2] using (hneed goal hgoal).symm
  rw [ensureGoalCoverage, any_take_iff, List.findIdx_append, if_neg, List.any_append, hother,
    Bool.or_true, length_coverageActions, Nat.add_comm]
  · exact and_iff_left rfl
  · rw [hidx, hnone, length_coverageActions]
    exact Nat.lt_irrefl _

/-- What Decide planned, and the cap. -/
structure Cycle where
  planned : List PlannedAction
  cap : Nat

/-- The goals of a board are dispatched for, and nothing else gives one an engineer. -/
def Carries (dispatched : String → Bool) (before after : ActiveGoal) : Prop :=
  after.id = before.id ∧ after.priority = before.priority ∧
    (after.assignedTo.isSome → before.assignedTo.isSome ∨ dispatched before.id)

/-- Cycles without end over one board, whose goals stay incomplete. -/
structure CoverageRun where
  boards : Nat → List ActiveGoal
  cycles : Nat → Cycle
  capped : ∀ n, 1 ≤ (cycles n).cap
  incomplete : ∀ n, ∀ goal ∈ boards n, isIncomplete goal.status
  carried : ∀ n, List.Forall₂
    (Carries fun id =>
      (ensureGoalCoverage (boards n) (cycles n).planned (cycles n).cap).1.any (advances id))
    (boards n) (boards (n + 1))

namespace CoverageRun

variable (run : CoverageRun) (n : Nat) (id : String)

def Dispatched : Prop :=
  (ensureGoalCoverage (run.boards n) (run.cycles n).planned (run.cycles n).cap).1.any (advances id)

def Uncovered : Prop := ∃ goal ∈ run.boards n, goal.id = id ∧ goal.assignedTo = none

def Assigned : Prop := ∃ goal ∈ run.boards n, goal.id = id ∧ goal.assignedTo.isSome

/-- Every goal with the id has an engineer, and Decide planned an action for it. -/
def Heartbeat : Prop :=
  run.Assigned n id ∧ ¬ run.Uncovered n id ∧ (run.cycles n).planned.any (advances id)

def NoStarvation : Prop :=
  (∀ n id, run.Uncovered n id → ∃ m ≥ n, run.Dispatched m id ∨ run.Assigned m id) ∧
    ∀ n id, (∀ m ≥ n, run.Heartbeat m id) → ∃ m ≥ n, run.Dispatched m id

/-- Fewer goals without an engineer than the cap are ahead, by priority and place on the board. -/
def InFront : Prop :=
  run.Uncovered n id ∧ (needsCoverage (run.boards n)).findIdx (·.id = id) < (run.cycles n).cap

/-- There is room for the heartbeat behind all goals without an engineer and the rest of the plan
before it. -/
def BeatFits : Prop :=
  (needsCoverage (run.boards n)).length +
    (others (run.boards n) (run.cycles n).planned).findIdx (advances id) < (run.cycles n).cap

/-- A goal that is dispatched for gets an engineer, and engineers stay. -/
def Settles : Prop :=
  ∀ n, ∀ goal ∈ run.boards (n + 1), run.Dispatched n goal.id ∨ run.Assigned n goal.id →
    goal.assignedTo.isSome

end CoverageRun

theorem countP_le_of_forall₂ {α : Type} {p : α → Bool} {l l' : List α}
    (h : List.Forall₂ (fun a b => p b → p a) l l') : l'.countP p ≤ l.countP p := by
  induction h with
  | nil => exact Nat.le_refl _
  | @cons a b l l' hhead htail ih =>
    rw [List.countP_cons, List.countP_cons]
    by_cases hb : p b
    · simp only [hb, hhead hb, if_true]
      omega
    · simp only [hb, if_false, Bool.false_eq_true]
      omega

theorem countP_lt_of_forall₂ {α : Type} {p q : α → Bool} {l l' : List α}
    (h : List.Forall₂ (fun a b => (p b → p a) ∧ (q a → p b = false)) l l')
    (hex : ∃ a ∈ l, p a ∧ q a) : l'.countP p < l.countP p := by
  induction h with
  | nil =>
    obtain ⟨a, hmem, -⟩ := hex
    cases hmem
  | @cons a b l l' hhead htail ih =>
    have hrest : l'.countP p ≤ l.countP p := countP_le_of_forall₂ (htail.imp fun _ _ h => h.1)
    rw [List.countP_cons, List.countP_cons]
    obtain ⟨c, hmem, hp, hq⟩ := hex
    rcases List.mem_cons.mp hmem with rfl | hmem
    · simp only [hp, hhead.2 hq, if_true, if_false, Bool.false_eq_true]
      omega
    · have hlt := ih ⟨c, hmem, hp, hq⟩
      by_cases hb : p b
      · simp only [hb, hhead.1 hb, if_true]
        omega
      · simp only [hb, if_false, Bool.false_eq_true]
        omega

theorem forall₂_mem {α β : Type} {R : α → β → Prop} {l : List α} {l' : List β}
    (h : List.Forall₂ R l l') : List.Forall₂ (fun a b => a ∈ l ∧ b ∈ l' ∧ R a b) l l' := by
  rw [List.forall₂_iff_get] at h ⊢
  exact ⟨h.1, fun i hi hi' => ⟨List.get_mem l _, List.get_mem l' _, h.2 i hi hi'⟩⟩

namespace CoverageRun

variable {run : CoverageRun} {n : Nat} {id : String}

theorem mem_needsCoverage {goal : ActiveGoal} :
    goal ∈ needsCoverage (run.boards n) ↔ goal ∈ run.boards n ∧ goal.assignedTo = none := by
  rw [needsCoverage, List.mem_insertionSort, List.mem_filter, lacksEngineer, Bool.and_eq_true,
    Option.isNone_iff_eq_none]
  constructor
  · rintro ⟨hmem, -, hnone⟩
    exact ⟨hmem, hnone⟩
  · rintro ⟨hmem, hnone⟩
    exact ⟨hmem, run.incomplete n goal hmem, hnone⟩

theorem uncovered_iff : run.Uncovered n id ↔ ∃ goal ∈ needsCoverage (run.boards n),
    goal.id = id := by
  constructor
  · rintro ⟨goal, hmem, hid, hnone⟩
    exact ⟨goal, mem_needsCoverage.mpr ⟨hmem, hnone⟩, hid⟩
  · rintro ⟨goal, hmem, hid⟩
    obtain ⟨hboard, hnone⟩ := mem_needsCoverage.mp hmem
    exact ⟨goal, hboard, hid, hnone⟩

theorem dispatched_iff (h : run.Uncovered n id) : run.Dispatched n id ↔ run.InFront n id := by
  rw [InFront, and_iff_right h]
  exact dispatched_of_need (uncovered_iff.mp h) _ _

theorem dispatched_heartbeat_iff (h : run.Heartbeat n id) :
    run.Dispatched n id ↔ run.BeatFits n id := by
  refine dispatched_of_extra ?_ h.2.2 _
  intro goal hmem hid
  exact h.2.1 (uncovered_iff.mpr ⟨goal, hmem, hid⟩)

theorem dispatched_first {first : ActiveGoal} {rest : List ActiveGoal}
    (h : needsCoverage (run.boards n) = first :: rest) : run.Dispatched n first.id := by
  have hneed : run.Uncovered n first.id := by
    rw [uncovered_iff, h]
    exact ⟨first, List.mem_cons_self, rfl⟩
  rw [dispatched_iff hneed, InFront, h]
  refine ⟨hneed, ?_⟩
  have hfirst : (first :: rest).findIdx (·.id = first.id) = 0 := by simp [List.findIdx_cons]
  rw [hfirst]
  exact run.capped n

theorem length_needsCoverage_lt (hsettles : run.Settles)
    (hneed : needsCoverage (run.boards n) ≠ []) :
    (needsCoverage (run.boards (n + 1))).length < (needsCoverage (run.boards n)).length := by
  obtain ⟨first, rest, hfirst⟩ := List.exists_cons_of_ne_nil hneed
  have hdispatched := dispatched_first hfirst
  have hmem : first ∈ needsCoverage (run.boards n) := hfirst ▸ List.mem_cons_self
  simp only [needsCoverage, List.length_insertionSort, ← List.countP_eq_length_filter]
  refine countP_lt_of_forall₂ (q := fun goal => goal.id = first.id) ?_
    ⟨first, (mem_needsCoverage.mp hmem).1, ?_, by simp⟩
  · refine (forall₂_mem (run.carried n)).imp ?_
    rintro before after ⟨hbefore, hmemAfter, hid, -⟩
    have hafter := hsettles n after hmemAfter
    constructor
    · intro hlacks
      simp only [lacksEngineer, Bool.and_eq_true, Option.isNone_iff_eq_none] at hlacks ⊢
      refine ⟨run.incomplete n before hbefore, ?_⟩
      by_contra hassigned
      have hsome := hafter (.inr ⟨before, hbefore, hid.symm,
        Option.isSome_iff_ne_none.mpr hassigned⟩)
      rw [hlacks.2] at hsome
      cases hsome
    · intro hsame
      have hsome := hafter (.inl (by rw [hid, of_decide_eq_true hsame]; exact hdispatched))
      simp [lacksEngineer, Option.isNone_eq_false_iff.mpr hsome]
  · simp [lacksEngineer, run.incomplete n first (mem_needsCoverage.mp hmem).1,
      (mem_needsCoverage.mp hmem).2]

theorem uncovered_succ (h : run.Uncovered n id) (hnot : ¬ run.Dispatched n id) :
    run.Uncovered (n + 1) id := by
  obtain ⟨goal, hmem, hid, hnone⟩ := h
  obtain ⟨i, hi⟩ := List.mem_iff_getElem?.mp hmem
  obtain ⟨hlt, rfl⟩ := List.getElem?_eq_some_iff.mp hi
  have hlength := (run.carried n).length_eq
  obtain ⟨hsame, -, hgained⟩ := (run.carried n).get hlt (hlength ▸ hlt)
  refine ⟨_, List.getElem_mem (hlength ▸ hlt), hsame.trans hid, ?_⟩
  by_contra hassigned
  rcases hgained (Option.isSome_iff_ne_none.mpr hassigned) with hbefore | hdispatched
  · rw [List.get_eq_getElem, hnone] at hbefore
    cases hbefore
  · exact hnot (hid ▸ hdispatched)

theorem dispatched_of_settles (hsettles : run.Settles) (h : run.Uncovered n id) :
    ∃ m ≥ n, run.Dispatched m id := by
  induction hk : (needsCoverage (run.boards n)).length using Nat.strong_induction_on
    generalizing n with
  | _ k ih =>
    by_cases hnow : run.Dispatched n id
    · exact ⟨n, Nat.le_refl n, hnow⟩
    · obtain ⟨goal, hmem, -⟩ := uncovered_iff.mp h
      have hless := length_needsCoverage_lt hsettles (List.ne_nil_of_mem hmem)
      obtain ⟨m, hm, hdispatched⟩ := ih _ (hk ▸ hless) (uncovered_succ h hnow) rfl
      exact ⟨m, by omega, hdispatched⟩

/-- A goal without an engineer is served once few enough goals are ahead of it, so all are where
engineers come and stay. A heartbeat is sent exactly when there is room behind all these goals and
the rest of the plan before it. -/
theorem coverage_serves (run : CoverageRun) :
    (∀ n id, run.Uncovered n id → (∃ m ≥ n, run.InFront m id ∨ run.Assigned m id) →
      ∃ m ≥ n, run.Dispatched m id ∨ run.Assigned m id) ∧
    (run.Settles → ∀ n id, run.Uncovered n id → ∃ m ≥ n, run.Dispatched m id) ∧
    ∀ n id, (∀ m ≥ n, run.Heartbeat m id) →
      ((∃ m ≥ n, run.Dispatched m id) ↔ ∃ m ≥ n, run.BeatFits m id) := by
  refine ⟨?_, fun hsettles n id h => dispatched_of_settles hsettles h, ?_⟩
  · rintro n id - ⟨m, hm, hserved⟩
    exact ⟨m, hm, hserved.imp_left fun hfront => (dispatched_iff hfront.1).mpr hfront⟩
  · intro n id hbeats
    constructor
    · rintro ⟨m, hm, hdispatched⟩
      exact ⟨m, hm, (dispatched_heartbeat_iff (hbeats m hm)).mp hdispatched⟩
    · rintro ⟨m, hm, hfits⟩
      exact ⟨m, hm, (dispatched_heartbeat_iff (hbeats m hm)).mpr hfits⟩

def plainGoal (id : String) (priority : Nat) (assignedTo : Option String) : ActiveGoal where
  id := id
  description := id
  priority := priority
  status := .notStarted
  assignedTo := assignedTo
  repo := none
  currentActivity := none
  wipRefs := []
  lastProgressUpdateAt := none
  parentGoalId := none
  priorityExplicit := false
  labels := []

def starvingBoard : List ActiveGoal :=
  [plainGoal "first" 1 none, plainGoal "second" 2 none, plainGoal "third" 3 (some "engineer")]

/-- The spawn for the first goal fails in every cycle; one action is dispatched in each. -/
def starving : CoverageRun where
  boards _ := starvingBoard
  cycles _ := ⟨[⟨.advanceGoal, some "third", "heartbeat"⟩], 1⟩
  capped _ := Nat.le_refl 1
  incomplete _ := by decide
  carried _ := List.forall₂_same.mpr fun _ _ => ⟨rfl, rfl, .inl⟩

/-- The second goal is never dispatched for, nor is the heartbeat of the third. -/
theorem starving_starves :
    starving.Uncovered 0 "second" ∧
      (∀ m, ¬ starving.Dispatched m "second" ∧ ¬ starving.Assigned m "second") ∧
      (∀ m, starving.Heartbeat m "third" ∧ ¬ starving.Dispatched m "third") ∧
      ¬ starving.NoStarvation := by
  have huncovered : starving.Uncovered 0 "second" :=
    ⟨plainGoal "second" 2 none, by decide, rfl, rfl⟩
  -- every cycle finds the same board and the same plan
  have hsecond : ¬ starving.Dispatched 0 "second" ∧
      ¬ ∃ goal ∈ starvingBoard, goal.id = "second" ∧ goal.assignedTo.isSome := by
    constructor
    · change ¬ (ensureGoalCoverage starvingBoard _ 1).1.any (advances "second")
      decide
    · decide
  have hthird : (∃ goal ∈ starvingBoard, goal.id = "third" ∧ goal.assignedTo.isSome) ∧
      (¬ ∃ goal ∈ starvingBoard, goal.id = "third" ∧ goal.assignedTo = none) ∧
      ¬ starving.Dispatched 0 "third" := by
    refine ⟨by decide, by decide, ?_⟩
    change ¬ (ensureGoalCoverage starvingBoard _ 1).1.any (advances "third")
    decide
  have hnever (m : Nat) : ¬ starving.Dispatched m "second" ∧ ¬ starving.Assigned m "second" :=
    hsecond
  have hbeat (m : Nat) : starving.Heartbeat m "third" ∧ ¬ starving.Dispatched m "third" :=
    ⟨⟨hthird.1, hthird.2.1, rfl⟩, hthird.2.2⟩
  refine ⟨huncovered, hnever, hbeat, fun h => ?_⟩
  obtain ⟨m, -, hserved⟩ := h.1 0 "second" huncovered
  exact hserved.elim (hnever m).1 (hnever m).2

end CoverageRun

def unclaimed (needs : List ActiveGoal) (action : PlannedAction) : Bool :=
  !needs.any fun goal => advances goal.id action

def claimsOf (needs : List ActiveGoal) (planned : List PlannedAction) :
    List (Option PlannedAction) :=
  needs.map fun goal => planned.find? (advances goal.id)

theorem advances_inj {id other : String} {action : PlannedAction} (h : advances id action = true)
    (hother : advances other action = true) : id = other := by
  simp only [advances, Bool.and_eq_true, decide_eq_true_eq] at h hother
  exact Option.some.inj (h.2.symm.trans hother.2)

theorem slotOf_of_getElem {needs : List ActiveGoal} (hids : (needs.map ActiveGoal.id).Nodup)
    {slot : Nat} {goal : ActiveGoal} (hslot : needs[slot]? = some goal) :
    slotOf needs goal.id = some slot := by
  obtain ⟨hlt, -⟩ := List.getElem?_eq_some_iff.mp hslot
  have hsome : (needs.reverse.findIdx? (·.id = goal.id)).isSome := by
    rw [List.findIdx?_isSome, List.any_eq_true]
    exact ⟨goal, List.mem_reverse.mpr (List.mem_of_getElem? hslot), decide_eq_true rfl⟩
  obtain ⟨found, hfound⟩ : ∃ found, slotOf needs goal.id = some found := by
    obtain ⟨i, hi⟩ := Option.isSome_iff_exists.mp hsome
    exact ⟨_, by rw [slotOf, hi, Option.map_some]⟩
  obtain ⟨other, hother, hid⟩ := slotOf_eq_some hfound
  have hsame : (needs.map ActiveGoal.id)[slot]? = (needs.map ActiveGoal.id)[found]? := by
    rw [List.getElem?_map, List.getElem?_map, hother, hslot, Option.map_some, Option.map_some, hid]
  rw [hfound, (List.getElem?_inj (by rwa [List.length_map]) hids).mp hsame]

theorem claimFor_of_unclaimed {needs : List ActiveGoal} {action : PlannedAction}
    (h : unclaimed needs action = true) (claimed : List (Option PlannedAction)) :
    claimFor needs claimed action = none := by
  rw [Option.eq_none_iff_forall_ne_some]
  intro slot hclaim
  obtain ⟨goal, hgoal, haction⟩ := claimFor_eq_some hclaim
  have hany : needs.any (fun goal => advances goal.id action) = true :=
    List.any_eq_true.mpr ⟨goal, List.mem_of_getElem? hgoal, haction⟩
  rw [unclaimed, hany] at h
  cases h

theorem claimFor_of_advances {needs : List ActiveGoal} (hids : (needs.map ActiveGoal.id).Nodup)
    {slot : Nat} {goal : ActiveGoal} (hslot : needs[slot]? = some goal)
    {action : PlannedAction} (haction : advances goal.id action = true)
    {before : List PlannedAction} (hfirst : before.find? (advances goal.id) = none) :
    claimFor needs (claimsOf needs before) action = some slot := by
  have hkind : action.kind = .advanceGoal ∧ action.goalId = some goal.id := by
    simpa [advances] using haction
  have hfree : (claimsOf needs before)[slot]? = some none := by
    rw [claimsOf, List.getElem?_map, hslot, Option.map_some, hfirst]
  rw [claimFor, if_pos hkind.1, hkind.2, Option.bind_some, slotOf_of_getElem hids hslot,
    Option.filter_some, if_pos (decide_eq_true hfree)]

theorem claimsOf_append_unclaimed {needs : List ActiveGoal} {action : PlannedAction}
    (h : unclaimed needs action = true) (before : List PlannedAction) :
    claimsOf needs (before ++ [action]) = claimsOf needs before := by
  apply List.map_congr_left
  intro goal hgoal
  have hnot : advances goal.id action = false := by
    rw [unclaimed, Bool.not_eq_true', List.any_eq_false] at h
    exact Bool.eq_false_iff.mpr (h goal hgoal)
  rw [List.find?_append, List.find?_cons, hnot, List.find?_nil, Option.or_none]

theorem claimsOf_append_spawn {needs : List ActiveGoal} (hids : (needs.map ActiveGoal.id).Nodup)
    {slot : Nat} {goal : ActiveGoal} (hslot : needs[slot]? = some goal)
    {action : PlannedAction} (haction : advances goal.id action = true)
    {before : List PlannedAction} (hfirst : before.find? (advances goal.id) = none) :
    claimsOf needs (before ++ [action]) = (claimsOf needs before).set slot (some action) := by
  obtain ⟨hlt, hgoal⟩ := List.getElem?_eq_some_iff.mp hslot
  apply List.ext_getElem
  · rw [List.length_set, claimsOf, claimsOf, List.length_map, List.length_map]
  · intro i hi hi'
    have hbound : i < needs.length := by simpa [claimsOf] using hi
    simp only [claimsOf, List.getElem_map, List.getElem_set]
    split
    next hsame =>
      subst hsame
      rw [hgoal, List.find?_append, hfirst, List.find?_cons, haction, Option.none_or]
    next hdifferent =>
      have hnot : advances needs[i].id action = false := by
        rw [Bool.eq_false_iff]
        intro hother
        have hid : (needs.map ActiveGoal.id)[slot]? = (needs.map ActiveGoal.id)[i]? := by
          rw [List.getElem?_map, List.getElem?_map, hslot, List.getElem?_eq_getElem hbound,
            Option.map_some, Option.map_some, advances_inj haction hother]
        exact hdifferent ((List.getElem?_inj (by rwa [List.length_map]) hids).mp hid)
      rw [List.find?_append, List.find?_cons, hnot, List.find?_nil, Option.or_none]

theorem claimActions_eq {needs : List ActiveGoal} (hids : (needs.map ActiveGoal.id).Nodup)
    (before planned : List PlannedAction)
    (honce : ∀ id, (before ++ planned).countP (advances id) ≤ 1) :
    claimActions needs (claimsOf needs before) (before.filter (unclaimed needs)) planned =
      (claimsOf needs (before ++ planned), (before ++ planned).filter (unclaimed needs)) := by
  induction planned generalizing before with
  | nil => rw [List.append_nil, claimActions]
  | cons action planned ih =>
    have hrest := ih (before ++ [action]) (by simpa using honce)
    rw [List.append_assoc, List.singleton_append] at hrest
    rw [claimActions]
    cases hunclaimed : unclaimed needs action with
    | true =>
      rw [claimFor_of_unclaimed hunclaimed]
      rw [claimsOf_append_unclaimed hunclaimed, List.filter_append,
        List.filter_cons_of_pos hunclaimed, List.filter_nil] at hrest
      exact hrest
    | false =>
      rw [unclaimed, Bool.not_eq_false', List.any_eq_true] at hunclaimed
      obtain ⟨goal, hgoal, haction⟩ := hunclaimed
      obtain ⟨slot, hslot⟩ := List.getElem?_of_mem hgoal
      have hfirst : before.find? (advances goal.id) = none := by
        have hcount := honce goal.id
        rw [List.countP_append, List.countP_cons_of_pos haction] at hcount
        have hnone : before.countP (advances goal.id) = 0 := by omega
        rw [List.find?_eq_none]
        exact List.countP_eq_zero.mp hnone
      have hclaimed : unclaimed needs action = false := by
        rw [unclaimed, Bool.not_eq_false', List.any_eq_true]
        exact ⟨goal, hgoal, haction⟩
      rw [claimFor_of_advances hids hslot haction hfirst]
      rw [claimsOf_append_spawn hids hslot haction hfirst, List.filter_append,
        List.filter_cons_of_neg (by rw [hclaimed]; exact Bool.false_ne_true), List.filter_nil,
        List.append_nil] at hrest
      exact hrest

theorem nodup_needsCoverage {active : List ActiveGoal} (hids : (active.map ActiveGoal.id).Nodup) :
    ((needsCoverage active).map ActiveGoal.id).Nodup := by
  have hperm : (needsCoverage active).Perm (active.filter lacksEngineer) :=
    List.perm_insertionSort _ _
  rw [(hperm.map ActiveGoal.id).nodup_iff]
  exact hids.sublist (List.filter_sublist.map _)

section Laws

variable {active : List ActiveGoal} {planned : List PlannedAction}

theorem coverageActions_eq (hids : (active.map ActiveGoal.id).Nodup)
    (honce : ∀ id, planned.countP (advances id) ≤ 1) :
    coverageActions active planned = (needsCoverage active).map fun goal =>
      (planned.find? (advances goal.id)).getD (coverageAction goal) := by
  have hclaims := claimActions_eq (nodup_needsCoverage hids) [] planned honce
  have hnone : claimsOf (needsCoverage active) [] = (needsCoverage active).map fun _ => none := rfl
  rw [hnone, List.filter_nil, List.nil_append] at hclaims
  simp only [coverageActions, hclaims]
  rw [claimsOf, List.zipWith_map_right, List.zipWith_self]

theorem others_eq (hids : (active.map ActiveGoal.id).Nodup)
    (honce : ∀ id, planned.countP (advances id) ≤ 1) :
    others active planned = planned.filter (unclaimed (needsCoverage active)) := by
  have hclaims := claimActions_eq (nodup_needsCoverage hids) [] planned honce
  have hnone : claimsOf (needsCoverage active) [] = (needsCoverage active).map fun _ => none := rfl
  rw [hnone, List.filter_nil, List.nil_append] at hclaims
  simp only [others, hclaims]

end Laws

theorem filter_orderedInsert_priority (p : Nat) (goal : ActiveGoal) (goals : List ActiveGoal) :
    (goals.orderedInsert (fun left right => left.priority ≤ right.priority) goal).filter
        (·.priority = p) =
      (goal :: goals).filter (·.priority = p) := by
  induction goals with
  | nil => rfl
  | cons head goals ih =>
    rw [List.orderedInsert_cons]
    split
    · rfl
    next hgt =>
      rw [List.filter_cons, ih, List.filter_cons, List.filter_cons, List.filter_cons]
      by_cases hgoal : goal.priority = p
      · have hhead : head.priority ≠ p := by omega
        simp [hgoal, hhead]
      · simp [hgoal]

theorem needsCoverage_ties (active : List ActiveGoal) (p : Nat) :
    (needsCoverage active).filter (·.priority = p) =
      (active.filter lacksEngineer).filter (·.priority = p) := by
  unfold needsCoverage
  induction active.filter lacksEngineer with
  | nil => rfl
  | cons goal goals ih =>
    rw [List.insertionSort_cons, filter_orderedInsert_priority, List.filter_cons, ih,
      List.filter_cons]

theorem needsCoverage_sorted (active : List ActiveGoal) :
    (needsCoverage active).Pairwise fun left right => left.priority ≤ right.priority := by
  have : Std.Total fun left right : ActiveGoal => left.priority ≤ right.priority :=
    ⟨fun left right => le_total left.priority right.priority⟩
  have : IsTrans ActiveGoal fun left right => left.priority ≤ right.priority :=
    ⟨fun _ _ _ => le_trans⟩
  exact List.pairwise_insertionSort _ _

/-- The goals in need by priority, each with its planned spawn if there is one, come first; then
what else was planned, as far as there is room. -/
structure Allocated (active : List ActiveGoal) (planned : List PlannedAction) (cap : Nat)
    (needs : List ActiveGoal) (plan : List PlannedAction) (report : CoverageReport) : Prop where
  needed : needs.Perm (active.filter lacksEngineer)
  sorted : needs.Pairwise fun left right => left.priority ≤ right.priority
  ties : ∀ p, needs.filter (·.priority = p) =
    (active.filter lacksEngineer).filter (·.priority = p)
  length : plan.length = min cap (needs.length + (planned.filter (unclaimed needs)).length)
  front : plan.take (min cap needs.length) = (needs.take (min cap needs.length)).map fun goal =>
    (planned.find? (advances goal.id)).getD (coverageAction goal)
  rest : plan.drop (min cap needs.length) <+: planned.filter (unclaimed needs)
  once : ∀ goal ∈ needs, plan.countP (advances goal.id) ≤ 1
  incomplete : report.incomplete = active.countP fun goal => isIncomplete goal.status
  accounted : report.covered + report.deferred = report.incomplete
  deferred : report.deferred = needs.length - min cap needs.length

theorem countP_coverage {needs : List ActiveGoal} (hids : (needs.map ActiveGoal.id).Nodup)
    {actions : List PlannedAction}
    (h : List.Forall₂ (fun goal action => action.kind = .advanceGoal ∧
      action.goalId = some goal.id) needs actions) (id : String) :
    actions.countP (advances id) ≤ 1 := by
  have hcount : actions.countP (advances id) = (needs.map ActiveGoal.id).count id := by
    induction h with
    | nil => rfl
    | @cons goal action needs actions hhead htail ih =>
      have hsame : advances id action = (goal.id == id) := by
        simp [advances, hhead.1, hhead.2, beq_eq_decide]
      rw [List.countP_cons, hsame, ih (List.nodup_cons.mp hids).2, List.map_cons,
        List.count_cons]
  rw [hcount]
  exact List.nodup_iff_count_le_one.mp hids id

/-- Coverage allocates by priority and loses nothing it need not. -/
theorem ensureGoalCoverage_allocates (active : List ActiveGoal) (planned : List PlannedAction)
    (cap : Nat) (hids : (active.map ActiveGoal.id).Nodup)
    (honce : ∀ id, planned.countP (advances id) ≤ 1) :
    Allocated active planned cap (needsCoverage active) (ensureGoalCoverage active planned cap).1
      (ensureGoalCoverage active planned cap).2 := by
  have hlength := length_coverageActions active planned
  have hothers := others_eq hids honce
  have hsplit : (active.filter fun goal => isIncomplete goal.status).length =
      (active.filter fun goal => isIncomplete goal.status).countP (fun goal =>
        goal.assignedTo.isSome) + (needsCoverage active).length := by
    rw [needsCoverage, List.length_insertionSort,
      List.length_eq_countP_add_countP (fun goal => goal.assignedTo.isSome), Nat.add_right_inj,
      List.countP_filter, List.countP_eq_length_filter]
    congr 1
    apply List.filter_congr
    intro goal _
    rw [lacksEngineer, Bool.and_comm]
    cases goal.assignedTo <;> rfl
  have hplan : (ensureGoalCoverage active planned cap).1 =
      (coverageActions active planned ++ others active planned).take cap := rfl
  refine ⟨List.perm_insertionSort _ _, needsCoverage_sorted active, needsCoverage_ties active,
    ?_, ?_, ?_, ?_, ?_, ?_, ?_⟩
  · rw [hplan, List.length_take, List.length_append, hlength, hothers]
  · rw [hplan, List.take_take, List.take_append_of_le_length (by omega),
      coverageActions_eq hids honce,
      List.map_take]
    congr 1
    omega
  · have hdrop : (ensureGoalCoverage active planned cap).1.drop
        (min cap (needsCoverage active).length) =
          (planned.filter (unclaimed (needsCoverage active))).take
            (cap - (needsCoverage active).length) := by
      rw [hplan, hothers, List.take_append, hlength]
      rcases Nat.le_total cap (needsCoverage active).length with hcap | hcap
      · rw [Nat.min_eq_left hcap, Nat.sub_eq_zero_of_le hcap, List.take_zero, List.append_nil]
        apply List.drop_eq_nil_of_le
        rw [List.length_take]
        omega
      · rw [Nat.min_eq_right hcap, List.take_of_length_le (by omega), ← hlength, List.drop_left]
    rw [hdrop]
    exact List.take_prefix _ _
  · intro goal hgoal
    have hnone : (others active planned).countP (advances goal.id) = 0 := by
      rw [hothers, List.countP_eq_zero]
      intro action haction hadvances
      have hunclaimed := (List.mem_filter.mp haction).2
      rw [unclaimed, Bool.not_eq_true', List.any_eq_false] at hunclaimed
      exact hunclaimed goal hgoal hadvances
    rw [hplan]
    calc ((coverageActions active planned ++ others active planned).take cap).countP
          (advances goal.id)
        ≤ (coverageActions active planned ++ others active planned).countP (advances goal.id) :=
          (List.take_sublist _ _).countP_le
      _ = (coverageActions active planned).countP (advances goal.id) := by
          rw [List.countP_append, hnone, Nat.add_zero]
      _ ≤ 1 := countP_coverage (nodup_needsCoverage hids) (coverageActions_advance active planned) _
  · exact (List.countP_eq_length_filter).symm
  · simp only [ensureGoalCoverage]
    omega
  · simp only [ensureGoalCoverage]
    omega

theorem starvingBoard_allocated :
    Allocated CoverageRun.starvingBoard
      [⟨.runGymEval, none, "evaluate"⟩, ⟨.advanceGoal, some "second", "spawn"⟩,
        ⟨.buildSkill, none, "build"⟩] 3 (needsCoverage CoverageRun.starvingBoard)
      [coverageAction (CoverageRun.plainGoal "first" 1 none),
        ⟨.advanceGoal, some "second", "spawn"⟩,
        ⟨.runGymEval, none, "evaluate"⟩] ⟨3, 3, 0⟩ :=
  ensureGoalCoverage_allocates CoverageRun.starvingBoard
    [⟨.runGymEval, none, "evaluate"⟩, ⟨.advanceGoal, some "second", "spawn"⟩,
      ⟨.buildSkill, none, "build"⟩] 3 (by decide) (by
    intro id
    calc _ ≤ [false, decide (some "second" = some id), false].countP (· = true) := by
          simp [List.countP_cons, advances]
      _ ≤ 1 := by cases decide (some "second" = some id) <;> decide)

end Simard.Goals.Coverage
