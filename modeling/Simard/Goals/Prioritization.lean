import Simard.Goals.Curation

/-! Priorities from the graph of goals. The pass is meant to see who waits for whom and nothing else
of the lists it is given; it counts how often a goal is named, though, and takes a goal with an
empty list for one that waits. -/
namespace Simard.Goals
open Simard.Library

def ownScore (goal : ActiveGoal) (now : Int) : Int := signalScore goal 0 false now

theorem signalScore_eq (goal : ActiveGoal) (dependents : Nat) (waits : Bool) (now : Int) :
    signalScore goal dependents waits now =
      3 * dependents + (if waits then 1 else 0) + ownScore goal now := by
  unfold ownScore signalScore
  simp only [Nat.cast_zero, mul_zero, Bool.false_eq_true, if_false, zero_add]
  omega

theorem neg_five_le_ownScore (goal : ActiveGoal) (now : Int) : -5 ≤ ownScore goal now := by
  have hstale (last : Int) : 0 ≤ min (max (now - last) 0 / nanosPerWeek) maxStalenessBonus :=
    le_min (Int.ediv_nonneg (le_max_right _ _) (by decide)) (by decide)
  have hrefs : (0 : Int) ≤ if goal.wipRefs.isEmpty then 0 else 1 := by split <;> omega
  have hstanding : (-2 : Int) ≤ if goal.isPerpetual then -2 else 0 := by split <;> omega
  unfold ownScore signalScore
  cases goal.lastProgressUpdateAt with
  | none => cases goal.status <;> simp only [Bool.false_eq_true, if_false] <;> omega
  | some last =>
    have hlast := hstale last
    cases goal.status <;> simp only [Bool.false_eq_true, if_false] <;> omega

theorem scoreToPriority_antitone {s s' : Int} (h : s ≤ s') :
    scoreToPriority s' ≤ scoreToPriority s := by
  unfold scoreToPriority
  split_ifs <;> omega

theorem scoreToPriority_mem (s : Int) : 1 ≤ scoreToPriority s ∧ scoreToPriority s ≤ 5 := by
  unfold scoreToPriority
  split_ifs <;> omega

def occurrences (signals : PrioritizationSignals) (id : String) : Nat :=
  (signals.flatMap (·.2)).count id

def isKey (signals : PrioritizationSignals) (id : String) : Bool := signals.any (·.1 = id)

def dependents (signals : PrioritizationSignals) (id : String) : Nat :=
  signals.countP fun entry => id ∈ entry.2

def reprioritized (signals : PrioritizationSignals) (now : Int) (goal : ActiveGoal) : ActiveGoal :=
  if goal.priorityExplicit then goal
  else
    { goal with
      priority := scoreToPriority
        (signalScore goal (occurrences signals goal.id) (isKey signals goal.id) now) }

theorem prioritize_eq (goals : List ActiveGoal) (signals : PrioritizationSignals) (now : Int) :
    prioritize goals signals now = goals.map (reprioritized signals now) := rfl

def WaitsFor (signals : PrioritizationSignals) (dependent blocker : String) : Prop :=
  ∃ entry ∈ signals, entry.1 = dependent ∧ blocker ∈ entry.2

/-- The same relation, written down with one entry a dependent goal and every blocker once. -/
structure Plain (signals plain : PrioritizationSignals) : Prop where
  keys : (plain.map (·.1)).Nodup
  once : ∀ entry ∈ plain, entry.2 ≠ [] ∧ entry.2.Nodup
  same : ∀ dependent blocker, WaitsFor plain dependent blocker ↔ WaitsFor signals dependent blocker

def addBlocker (dependent blocker : String) : PrioritizationSignals → PrioritizationSignals
  | [] => [(dependent, [blocker])]
  | entry :: rest =>
      if entry.1 = dependent then (entry.1, entry.2 ++ [blocker]) :: rest
      else entry :: addBlocker dependent blocker rest

/-- What the pass does to a list of goals, and what it may not depend on. -/
structure PassLaws (goals : List ActiveGoal) (signals : PrioritizationSignals)
    (now : Int) : Prop where
  rest : List.Forall₂ (fun goal out => { out with priority := goal.priority } = goal) goals
    (prioritize goals signals now)
  explicit : List.Forall₂ (fun goal out => goal.priorityExplicit → out = goal) goals
    (prioritize goals signals now)
  band : List.Forall₂ (fun goal out => goal.priorityExplicit = false →
    1 ≤ out.priority ∧ out.priority ≤ 5) goals (prioritize goals signals now)
  again : prioritize (prioritize goals signals now) signals now = prioritize goals signals now
  relation : ∀ plain, Plain signals plain →
    prioritize goals plain now = prioritize goals signals now
  grows : ∀ dependent blocker, ¬ WaitsFor signals dependent blocker →
    List.Forall₂ (fun old new => new.priority ≤ old.priority) (prioritize goals signals now)
      (prioritize goals (addBlocker dependent blocker signals) now)

section Laws

variable {signals : PrioritizationSignals} {now : Int}

theorem forall₂_prioritize {R : ActiveGoal → ActiveGoal → Prop} {goals : List ActiveGoal}
    (h : ∀ goal, R goal (reprioritized signals now goal)) :
    List.Forall₂ R goals (prioritize goals signals now) := by
  rw [prioritize_eq, List.forall₂_map_right_iff]
  exact List.forall₂_same.mpr fun goal _ => h goal

theorem reprioritized_again (goal : ActiveGoal) :
    reprioritized signals now (reprioritized signals now goal) =
      reprioritized signals now goal := by
  by_cases hexplicit : goal.priorityExplicit
  · simp [reprioritized, hexplicit]
  · simp only [reprioritized, if_neg hexplicit]
    rfl

theorem occurrences_cons (entry : String × List String) (signals : PrioritizationSignals)
    (id : String) :
      occurrences (entry :: signals) id = entry.2.count id + occurrences signals id := by
  rw [occurrences, List.flatMap_cons, List.count_append]
  rfl

theorem occurrences_le_addBlocker (dependent blocker id : String) :
    occurrences signals id ≤ occurrences (addBlocker dependent blocker signals) id := by
  induction signals with
  | nil => exact Nat.zero_le _
  | cons entry rest ih =>
    rw [addBlocker]
    split
    · rw [occurrences_cons, occurrences_cons, List.count_append]
      omega
    · rw [occurrences_cons, occurrences_cons]
      omega

theorem isKey_addBlocker {id : String} (h : isKey signals id) (dependent blocker : String) :
    isKey (addBlocker dependent blocker signals) id := by
  induction signals with
  | nil => cases h
  | cons entry rest ih =>
    rw [addBlocker]
    unfold isKey at *
    split
    · simpa using h
    · simp only [List.any_cons, Bool.or_eq_true] at h ⊢
      exact h.imp_right ih

theorem priority_addBlocker (dependent blocker : String) (goal : ActiveGoal) :
    (reprioritized (addBlocker dependent blocker signals) now goal).priority ≤
      (reprioritized signals now goal).priority := by
  by_cases hexplicit : goal.priorityExplicit
  · simp [reprioritized, hexplicit]
  · simp only [reprioritized, if_neg hexplicit]
    apply scoreToPriority_antitone
    rw [signalScore_eq, signalScore_eq]
    have hcount := @occurrences_le_addBlocker signals dependent blocker goal.id
    have hkey : (if isKey signals goal.id then (1 : Int) else 0) ≤
        if isKey (addBlocker dependent blocker signals) goal.id then 1 else 0 := by
      by_cases hkey : isKey signals goal.id
      · rw [if_pos hkey, if_pos (isKey_addBlocker hkey dependent blocker)]
      · rw [if_neg hkey]
        split <;> omega
    omega

end Laws

def NamedOnce (signals : PrioritizationSignals) (id : String) : Prop :=
  ∀ entry ∈ signals, entry.2.count id ≤ 1 ∧ (entry.1 = id → entry.2 ≠ [])

section Relation

variable {signals plain : PrioritizationSignals} {id : String}

theorem dependents_cons (entry : String × List String) (signals : PrioritizationSignals)
    (id : String) : dependents (entry :: signals) id =
      dependents signals id + if id ∈ entry.2 then 1 else 0 := by
  simp [dependents, List.countP_cons]

theorem dependents_le_occurrences (signals : PrioritizationSignals) (id : String) :
    dependents signals id ≤ occurrences signals id := by
  induction signals with
  | nil => exact Nat.zero_le _
  | cons entry rest ih =>
    rw [dependents_cons, occurrences_cons]
    split
    next hmem =>
      have hcount := List.count_pos_iff.mpr hmem
      omega
    next => omega

theorem dependents_lt_occurrences {entry : String × List String} (hentry : entry ∈ signals)
    (htwice : 1 < entry.2.count id) : dependents signals id < occurrences signals id := by
  induction signals with
  | nil => cases hentry
  | cons first rest ih =>
    have hrest := dependents_le_occurrences rest id
    rw [dependents_cons, occurrences_cons]
    rcases List.mem_cons.mp hentry with rfl | hentry
    · split <;> omega
    · have hless := ih hentry
      split
      next hmem =>
        have hcount := List.count_pos_iff.mpr hmem
        omega
      next => omega

theorem occurrences_of_once (h : ∀ entry ∈ signals, entry.2.count id ≤ 1) :
    occurrences signals id = dependents signals id := by
  induction signals with
  | nil => rfl
  | cons entry rest ih =>
    rw [List.forall_mem_cons] at h
    rw [dependents_cons, occurrences_cons, ih h.2]
    split
    next hmem =>
      have hcount := List.count_pos_iff.mpr hmem
      omega
    next hmem => rw [List.count_eq_zero_of_not_mem hmem, Nat.zero_add, Nat.add_zero]

theorem dependents_congr (hkeys : (signals.map (·.1)).Nodup) (h : Plain signals plain) :
    dependents plain id = dependents signals id := by
  have hlength (signals : PrioritizationSignals) : dependents signals id =
      ((signals.filter fun entry => id ∈ entry.2).map (·.1)).length := by
    rw [List.length_map, dependents, List.countP_eq_length_filter]
  have hmem (signals : PrioritizationSignals) (dependent : String) :
      dependent ∈ (signals.filter fun entry => id ∈ entry.2).map (·.1) ↔
        WaitsFor signals dependent id := by
    simp only [List.mem_map, List.mem_filter, decide_eq_true_eq]
    exact exists_congr fun entry => by tauto
  have hnodup (signals : PrioritizationSignals) (hkeys : (signals.map (·.1)).Nodup) :
      ((signals.filter fun entry => id ∈ entry.2).map (·.1)).Nodup :=
    hkeys.sublist (List.filter_sublist.map _)
  rw [hlength, hlength]
  refine List.Perm.length_eq ?_
  rw [List.perm_ext_iff_of_nodup (hnodup plain h.keys) (hnodup signals hkeys)]
  intro dependent
  rw [hmem, hmem, h.same]

theorem isKey_iff : isKey signals id ↔ ∃ entry ∈ signals, entry.1 = id := by
  simp [isKey]

theorem isKey_plain (h : Plain signals plain) :
    isKey plain id ↔ ∃ blocker, WaitsFor signals id blocker := by
  rw [isKey_iff]
  constructor
  · rintro ⟨entry, hentry, hid⟩
    obtain ⟨blocker, hblocker⟩ := List.exists_mem_of_ne_nil _ (h.once entry hentry).1
    exact ⟨blocker, (h.same id blocker).mp ⟨entry, hentry, hid, hblocker⟩⟩
  · rintro ⟨blocker, hwaits⟩
    obtain ⟨entry, hentry, hid, -⟩ := (h.same id blocker).mpr hwaits
    exact ⟨entry, hentry, hid⟩

theorem exists_plain (hkeys : (signals.map (·.1)).Nodup) : ∃ plain, Plain signals plain := by
  refine ⟨(signals.filter (·.2 ≠ [])).map fun entry => (entry.1, entry.2.dedup), ?_, ?_, ?_⟩
  · rw [List.map_map]
    exact hkeys.sublist (List.filter_sublist.map _)
  · intro entry hentry
    obtain ⟨source, hsource, rfl⟩ := List.mem_map.mp hentry
    have hne : source.2 ≠ [] := by simpa using (List.mem_filter.mp hsource).2
    refine ⟨fun hnil => hne ?_, List.nodup_dedup _⟩
    rwa [List.dedup_eq_nil] at hnil
  · intro dependent blocker
    constructor
    · rintro ⟨entry, hentry, hid, hblocker⟩
      obtain ⟨source, hsource, rfl⟩ := List.mem_map.mp hentry
      exact ⟨source, List.mem_of_mem_filter hsource, hid, List.mem_dedup.mp hblocker⟩
    · rintro ⟨source, hsource, hid, hblocker⟩
      refine ⟨_, List.mem_map.mpr ⟨source, List.mem_filter.mpr ⟨hsource, ?_⟩, rfl⟩, hid,
        List.mem_dedup.mpr hblocker⟩
      simpa using List.ne_nil_of_mem hblocker

theorem signalScore_plain (hkeys : (signals.map (·.1)).Nodup) (h : Plain signals plain)
    (hnamed : NamedOnce signals id) :
    occurrences plain id = occurrences signals id ∧ isKey plain id = isKey signals id := by
  constructor
  · have hplain : ∀ entry ∈ plain, entry.2.count id ≤ 1 := fun entry hentry =>
      List.nodup_iff_count_le_one.mp (h.once entry hentry).2 id
    rw [occurrences_of_once hplain, occurrences_of_once fun entry hentry => (hnamed entry hentry).1,
      dependents_congr hkeys h]
  · rw [Bool.eq_iff_iff, isKey_plain h, isKey_iff]
    constructor
    · rintro ⟨blocker, entry, hentry, hid, -⟩
      exact ⟨entry, hentry, hid⟩
    · rintro ⟨entry, hentry, hid⟩
      obtain ⟨blocker, hblocker⟩ := List.exists_mem_of_ne_nil _ ((hnamed entry hentry).2 hid)
      exact ⟨blocker, entry, hentry, hid, hblocker⟩

theorem scores_more (hkeys : (signals.map (·.1)).Nodup) (h : Plain signals plain)
    (hnamed : ¬ NamedOnce signals id) :
    3 * (occurrences plain id : Int) + (if isKey plain id then 1 else 0) <
      3 * occurrences signals id + if isKey signals id then 1 else 0 := by
  have hplain : occurrences plain id = dependents signals id := by
    rw [occurrences_of_once fun entry hentry =>
      List.nodup_iff_count_le_one.mp (h.once entry hentry).2 id, dependents_congr hkeys h]
  have hcount := dependents_le_occurrences signals id
  have hkey : isKey plain id → isKey signals id := by
    rw [isKey_plain h, isKey_iff]
    rintro ⟨blocker, entry, hentry, hid, -⟩
    exact ⟨entry, hentry, hid⟩
  unfold NamedOnce at hnamed
  push Not at hnamed
  obtain ⟨entry, hentry, htwice⟩ := hnamed
  by_cases honce : entry.2.count id ≤ 1
  · obtain ⟨hid, hempty⟩ := htwice honce
    have hnone : ¬ isKey plain id := by
      rw [isKey_plain h]
      rintro ⟨blocker, other, hother, hid', hblocker⟩
      have hsame := List.inj_on_of_nodup_map hkeys hother hentry (hid'.trans hid.symm)
      rw [hsame, hempty] at hblocker
      cases hblocker
    rw [if_neg hnone, if_pos (isKey_iff.mpr ⟨entry, hentry, hid⟩)]
    omega
  · have hless := dependents_lt_occurrences hentry (Nat.lt_of_not_le honce)
    split <;> split <;> omega

end Relation

theorem scoreToPriority_top {s : Int} (h : 6 ≤ s) : scoreToPriority s = 1 := if_pos h

theorem priority_of_many {signals : PrioritizationSignals} {goal : ActiveGoal} {now : Int}
    (hmany : 4 ≤ dependents signals goal.id) {count : Nat}
    (hcount : dependents signals goal.id ≤ count)
    (waits : Bool) : scoreToPriority (signalScore goal count waits now) = 1 := by
  apply scoreToPriority_top
  rw [signalScore_eq]
  have hown := neg_five_le_ownScore goal now
  split <;> omega

theorem reprioritized_plain {signals plain : PrioritizationSignals}
    (hkeys : (signals.map (·.1)).Nodup) (h : Plain signals plain) {goal : ActiveGoal} (now : Int)
    (hgoal : 4 ≤ dependents signals goal.id ∨ NamedOnce signals goal.id) :
    reprioritized plain now goal = reprioritized signals now goal := by
  unfold reprioritized
  split
  · rfl
  · rcases hgoal with hmany | hnamed
    · have hplain : dependents signals goal.id ≤ occurrences plain goal.id := by
        rw [← dependents_congr hkeys h]
        exact dependents_le_occurrences plain goal.id
      rw [priority_of_many hmany hplain, priority_of_many hmany (dependents_le_occurrences _ _)]
    · obtain ⟨hcount, hkey⟩ := signalScore_plain hkeys h hnamed
      rw [hcount, hkey]

def probe (id : String) (status : GoalProgress) (standing wip : Bool) : ActiveGoal :=
  { ActiveGoal.new id (if standing then standingSentinel else "") 3 with
    status := status
    wipRefs := if wip then [⟨"branch", "main", "main", none⟩] else [] }

theorem ownScore_probe (id : String) (status : GoalProgress) (standing wip : Bool) :
    ownScore (probe id status standing wip) 0 =
      (if wip then 1 else 0) +
        (match status with
          | .blocked _ | .inProgress _ => 2
          | .paused => -1
          | .completed => -3
          | .notStarted | .proposed => 0) + if standing then -2 else 0 := by
  have hstanding : (probe id status standing wip).isPerpetual = standing := by
    cases standing
    · change descriptionMarksStanding "" = false
      decide
    · change descriptionMarksStanding standingSentinel = true
      decide
  unfold ownScore signalScore
  rw [hstanding]
  cases status <;> cases wip <;> simp [probe, ActiveGoal.new]

theorem exists_probe {count : Nat} (hfew : count < 4) (waits : Bool) (id : String) :
    ∃ goal : ActiveGoal, goal.id = id ∧ goal.priorityExplicit = false ∧
      (3 * (count : Int) + (if waits then 1 else 0) + ownScore goal 0 = 2 ∨
        3 * (count : Int) + (if waits then 1 else 0) + ownScore goal 0 = 5) := by
  have hown (status : GoalProgress) (standing wip : Bool) := ownScore_probe id status standing wip
  cases waits with
  | false =>
    match count, hfew with
    | 0, _ => exact ⟨probe id (.inProgress 0) false false, rfl, rfl, .inl (by rw [hown]; rfl)⟩
    | 1, _ => exact ⟨probe id .paused false false, rfl, rfl, .inl (by rw [hown]; rfl)⟩
    | 2, _ => exact ⟨probe id .paused false false, rfl, rfl, .inr (by rw [hown]; rfl)⟩
    | 3, _ => exact ⟨probe id .completed true true, rfl, rfl, .inr (by rw [hown]; rfl)⟩
  | true =>
    match count, hfew with
    | 0, _ => exact ⟨probe id .notStarted false true, rfl, rfl, .inl (by rw [hown]; rfl)⟩
    | 1, _ => exact ⟨probe id .notStarted false true, rfl, rfl, .inr (by rw [hown]; rfl)⟩
    | 2, _ => exact ⟨probe id .notStarted true false, rfl, rfl, .inr (by rw [hown]; rfl)⟩
    | 3, _ => exact ⟨probe id .completed true false, rfl, rfl, .inr (by rw [hown]; rfl)⟩

theorem scoreToPriority_edge {s s' : Int} (hedge : s = 2 ∨ s = 5) (hmore : s < s') :
    scoreToPriority s' ≠ scoreToPriority s := by
  unfold scoreToPriority
  split_ifs <;> omega

theorem namedOnce_of_laws {signals : PrioritizationSignals} (hkeys : (signals.map (·.1)).Nodup)
    {id : String} (hlaws : ∀ goal, PassLaws [goal] signals 0) (hfew : dependents signals id < 4) :
    NamedOnce signals id := by
  by_contra hnamed
  obtain ⟨plain, hplain⟩ := exists_plain hkeys
  have hmore := scores_more hkeys hplain hnamed
  have hcount : occurrences plain id < 4 := by
    rw [occurrences_of_once fun entry hentry =>
      List.nodup_iff_count_le_one.mp (hplain.once entry hentry).2 id, dependents_congr hkeys hplain]
    exact hfew
  obtain ⟨goal, rfl, hexplicit, hedge⟩ := exists_probe hcount (isKey plain id) id
  have hsame := (hlaws goal).relation plain hplain
  rw [prioritize_eq, prioritize_eq, List.map_singleton, List.map_singleton] at hsame
  have hpriority := congrArg ActiveGoal.priority (List.cons.inj hsame).1
  simp only [reprioritized, hexplicit, Bool.false_eq_true, if_false, signalScore_eq] at hpriority
  exact scoreToPriority_edge hedge (by omega) hpriority.symm

/-- The pass keeps its laws on all goals at all times exactly if every goal with fewer than four
dependents is named at most once in each list and has no empty list itself. -/
theorem passLaws_iff {signals : PrioritizationSignals} (hkeys : (signals.map (·.1)).Nodup) :
    (∀ goals now, PassLaws goals signals now) ↔
      ∀ id, 4 ≤ dependents signals id ∨ NamedOnce signals id := by
  constructor
  · intro hlaws id
    rcases Nat.lt_or_ge (dependents signals id) 4 with hfew | hmany
    · exact .inr (namedOnce_of_laws hkeys (fun goal => hlaws [goal] 0) hfew)
    · exact .inl hmany
  · intro h goals now
    refine ⟨forall₂_prioritize fun goal => ?_, forall₂_prioritize fun goal hexplicit => ?_,
      forall₂_prioritize fun goal hexplicit => ?_, ?_, fun plain hplain => ?_,
      fun dependent blocker _ => ?_⟩
    · unfold reprioritized
      split <;> rfl
    · rw [reprioritized, if_pos hexplicit]
    · rw [reprioritized, if_neg (by simp [hexplicit])]
      exact scoreToPriority_mem _
    · rw [prioritize_eq, prioritize_eq, List.map_map]
      exact List.map_congr_left fun goal _ => reprioritized_again goal
    · rw [prioritize_eq, prioritize_eq]
      exact List.map_congr_left fun goal _ => reprioritized_plain hkeys hplain now (h goal.id)
    · rw [prioritize_eq, prioritize_eq, List.forall₂_map_left_iff, List.forall₂_map_right_iff]
      exact List.forall₂_same.mpr fun goal _ => priority_addBlocker dependent blocker goal

theorem passLaws_chain : PassLaws [ActiveGoal.new "a" "" 3] [("b", ["a"])] 0 := by
  refine (passLaws_iff (by decide)).mpr (fun id => .inr ?_) _ _
  intro entry hentry
  obtain rfl : entry = ("b", ["a"]) := by simpa using hentry
  exact ⟨List.nodup_iff_count_le_one.mp (by decide) id, fun _ => by decide⟩

/-- A blocker that is named twice counts as two. -/
theorem repeated_blocker_counts :
    ([("b", ["a", "a"])].map Prod.fst).Nodup ∧
      ¬ PassLaws [ActiveGoal.new "a" "" 3] [("b", ["a", "a"])] 0 := by
  refine ⟨by decide, fun h => ?_⟩
  have hplain : Plain [("b", ["a", "a"])] [("b", ["a"])] :=
    ⟨by decide, by decide, fun dependent blocker => by simp [WaitsFor]⟩
  have hsame := h.relation _ hplain
  revert hsame
  decide

end Simard.Goals
