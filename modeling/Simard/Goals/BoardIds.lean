import Simard.Goals.Curation
import Simard.Library.Machine

/-! The ids of a goal board. Each operation looks at one list, or at the room there is,
or at nothing; together they keep every id in one place only if what is added is new to
the whole board. -/
namespace Simard.Goals
open Simard.Library Action

/-- An id names one goal, active or in the backlog, and the active goals fit. -/
structure UniqueIds (board : GoalBoard) : Prop where
  active : (activeIds board).Nodup
  backlog : (backlogIds board).Nodup
  disjoint : ∀ id ∈ activeIds board, id ∉ backlogIds board
  capped : board.active.length ≤ maxActiveGoals

theorem uniqueIds_iff {board : GoalBoard} :
    UniqueIds board ↔ (listings board).Nodup ∧ board.active.length ≤ maxActiveGoals := by
  constructor
  · rintro ⟨hactive, hbacklog, hdisjoint, hcapped⟩
    exact ⟨List.nodup_append'.mpr ⟨hactive, hbacklog, hdisjoint⟩, hcapped⟩
  · rintro ⟨hnodup, hcapped⟩
    obtain ⟨hactive, hbacklog, hdisjoint⟩ := List.nodup_append'.mp hnodup
    exact ⟨hactive, hbacklog, fun _ hid => hdisjoint hid, hcapped⟩

section Listings

variable {board board' : GoalBoard}

theorem UniqueIds.of_perm (h : UniqueIds board) (hperm : (listings board').Perm (listings board))
    (hcapped : board'.active.length ≤ maxActiveGoals) : UniqueIds board' :=
  uniqueIds_iff.mpr ⟨hperm.nodup_iff.mpr (uniqueIds_iff.mp h).1, hcapped⟩

theorem UniqueIds.added_iff (h : UniqueIds board) {ids : List String} (hids : ids.Nodup)
    (hperm : (listings board').Perm (ids ++ listings board))
    (hcapped : board'.active.length ≤ maxActiveGoals) :
    UniqueIds board' ↔ ∀ id ∈ ids, id ∉ listings board := by
  rw [uniqueIds_iff, hperm.nodup_iff, List.nodup_append']
  constructor
  · rintro ⟨⟨-, -, hdisjoint⟩, -⟩ id hid
    exact hdisjoint hid
  · intro hnew
    exact ⟨⟨hids, (uniqueIds_iff.mp h).1, fun id => hnew id⟩, hcapped⟩

theorem listings_addActive (goal : ActiveGoal) :
    (listings { board with active := board.active ++ [goal] }).Perm
      ([goal.id] ++ listings board) := by
  simp only [listings, activeIds, backlogIds, List.map_append, List.map_cons, List.map_nil,
    List.append_assoc]
  exact List.perm_middle

theorem listings_addBacklog (items : List BacklogItem) :
    (listings { board with backlog := board.backlog ++ items }).Perm
      (items.map (·.id) ++ listings board) := by
  simp only [listings, activeIds, backlogIds, List.map_append]
  rw [← List.append_assoc]
  exact List.perm_append_comm

theorem listings_promote {position : Nat} {item : BacklogItem} {goal : ActiveGoal}
    (hposition : board.backlog[position]? = some item) (hid : goal.id = item.id) :
    (listings ⟨board.active ++ [goal], board.backlog.eraseIdx position⟩).Perm (listings board) := by
  obtain ⟨hlt, hitem⟩ := List.getElem?_eq_some_iff.mp hposition
  have hbacklog := (List.getElem_cons_eraseIdx_perm hlt).map (·.id)
  rw [hitem] at hbacklog
  simp only [listings, activeIds, backlogIds, List.map_append, List.map_cons, List.map_nil,
    List.append_assoc, hid]
  exact List.Perm.append_left _ hbacklog

theorem listings_promoteFromBacklog (board : GoalBoard) :
    (listings (promoteFromBacklog board)).Perm (listings board) := by
  have hsorted : ((sortBacklog board).backlog.map (·.id)).Perm (backlogIds board) :=
    (List.mergeSort_perm board.backlog _).map _
  have hsplit : (promotable (sortBacklog board)).map (·.id) ++
      ((sortBacklog board).backlog.drop (promotable (sortBacklog board)).length).map (·.id) =
      (sortBacklog board).backlog.map (·.id) := by
    rw [← List.map_append]
    congr 1
    conv_lhs => enter [1]; rw [promotable_take]
    exact List.take_append_drop _ _
  rw [promoteFromBacklog_eq]
  simp only [listings, activeIds, backlogIds, List.map_append, List.map_map, List.append_assoc]
  refine List.Perm.append_left _ ?_
  change ((promotable (sortBacklog board)).map (·.id) ++ _).Perm _
  rw [hsplit]
  exact hsorted

theorem length_promoteFromBacklog (h : board.active.length ≤ maxActiveGoals) :
    (promoteFromBacklog board).active.length ≤ maxActiveGoals := by
  have hroom : (promotable (sortBacklog board)).length ≤ board.activeSlotsRemaining :=
    List.length_take_le _ _
  unfold GoalBoard.activeSlotsRemaining at hroom
  rw [promoteFromBacklog_eq]
  simp only [List.length_append, List.length_map]
  omega

theorem listings_archiveCompleted :
    (listings (archiveCompleted board).1).Sublist (listings board) := by
  refine List.Sublist.append ?_ (List.Sublist.refl _)
  unfold activeIds archiveCompleted
  induction board.active with
  | nil => exact List.Sublist.refl _
  | cons goal rest ih =>
    rw [List.filterMap_cons]
    split
    next => exact ih.trans (List.sublist_cons_self _ _)
    next kept hkept =>
      have hid : kept.id = goal.id := by
        split at hkept
        · cases hkept
          rfl
        · split at hkept
          · cases hkept
            rfl
          · cases hkept
      simp only [List.map_cons, hid]
      exact List.Sublist.cons_cons _ ih

end Listings

theorem childId_injective (goalId : String) : Function.Injective (childId goalId) := by
  intro m n h
  have hlist := congrArg String.toList h
  simp only [childId, String.toList_append, List.append_cancel_left_eq] at hlist
  have hnumber : toString (m + 1) = toString (n + 1) := String.toList_injective hlist
  exact Nat.succ.inj (Nat.repr_injective hnumber)

theorem proposeChildren_ok {decomposer : GoalDecomposer} {goalId : String} {maxChildren : Nat}
    {board : GoalBoard} {split : Decomposition}
    (h : proposeChildren decomposer goalId maxChildren board = .ok split) :
    split.parent ∈ board.active ∧ split.parent.id = goalId ∧
      ∃ count ≤ maxSubgoals, split.childIds = (List.range' 0 count).map (childId goalId) := by
  unfold proposeChildren at h
  dsimp only at h
  split at h
  next found hfound =>
    rw [pure_bind] at h
    obtain ⟨proposed, -, h⟩ := bind_eq_ok.mp h
    split at h
    · obtain ⟨_, hthrown, _⟩ := bind_eq_ok.mp h
      cases hthrown
    obtain ⟨_, -, h⟩ := bind_eq_ok.mp h
    obtain ⟨_, -, h⟩ := bind_eq_ok.mp h
    cases pure_eq_ok.mp h
    refine ⟨List.mem_of_find?_eq_some hfound, by simpa using List.find?_some hfound, ?_⟩
    have hcount := List.length_take_le (min (max maxChildren minSubgoals) maxSubgoals) proposed
    generalize List.take _ proposed = proposals at hcount ⊢
    refine ⟨proposals.length, hcount.trans (Nat.min_le_right _ _), ?_⟩
    rw [← List.zipIdx_map_snd 0 proposals, Decomposition.childIds, List.map_map, List.map_map]
    rfl
  next =>
    obtain ⟨_, hthrown, _⟩ := bind_eq_ok.mp h
    cases hthrown

theorem nodup_childIds {decomposer : GoalDecomposer} {goalId : String} {maxChildren : Nat}
    {board : GoalBoard} {split : Decomposition}
    (h : proposeChildren decomposer goalId maxChildren board = .ok split) :
    split.childIds.Nodup := by
  obtain ⟨-, -, count, -, hids⟩ := proposeChildren_ok h
  rw [hids]
  exact (List.nodup_range' (s := 0)).map (childId_injective goalId)

theorem ids_goals (split : Decomposition) (now : Int) :
    (split.goals now).map (·.id) = split.childIds := by
  unfold Decomposition.goals prioritize Decomposition.childIds
  rw [List.map_map, List.map_map]
  apply List.map_congr_left
  intro child _
  simp only [Function.comp]
  split <;> rfl

section Decomposed

variable {board : GoalBoard} {split : Decomposition}

theorem perm_without (h : (activeIds board).Nodup) {goal : ActiveGoal}
    (hgoal : goal ∈ board.active) :
    (goal :: board.active.filter (·.id ≠ goal.id)).Perm board.active := by
  obtain ⟨before, after, hactive⟩ := List.append_of_mem hgoal
  rw [activeIds, hactive, List.map_append, List.map_cons] at h
  have hothers (other : ActiveGoal) (hother : other ∈ before ++ after) : other.id ≠ goal.id := by
    have hmiddle := (List.nodup_middle.mp h).notMem
    intro hsame
    apply hmiddle
    rw [← List.map_append, ← hsame]
    exact List.mem_map_of_mem hother
  have hfilter : board.active.filter (·.id ≠ goal.id) = before ++ after := by
    rw [hactive, List.filter_append, List.filter_cons_of_neg (by simp), ← List.filter_append]
    exact List.filter_eq_self.mpr fun other hother => by simpa using hothers other hother
  rw [hfilter, hactive]
  exact List.perm_middle.symm

theorem listings_place (h : UniqueIds board) (hparent : split.parent ∈ board.active) (now : Int) :
    (listings (split.place now board)).Perm (split.childIds ++ listings board) := by
  unfold Decomposition.place
  split
  · have hactive := (perm_without h.active hparent).map (·.id)
    simp only [listings, activeIds, backlogIds, List.map_append, List.map_cons, List.map_nil,
      ids_goals] at hactive ⊢
    generalize (board.active.filter (·.id ≠ split.parent.id)).map (·.id) = others at hactive ⊢
    generalize board.backlog.map (·.id) = backlog
    calc List.Perm (others ++ split.childIds ++ (backlog ++ [split.parent.id]))
          ([split.parent.id] ++ (others ++ split.childIds ++ backlog)) := by
            rw [← List.append_assoc]
            exact List.perm_append_comm
      List.Perm _ ((split.parent.id :: others) ++ (split.childIds ++ backlog)) := by simp
      List.Perm _ (board.active.map (·.id) ++ (split.childIds ++ backlog)) :=
        hactive.append_right _
      List.Perm _ (split.childIds ++ (board.active.map (·.id) ++ backlog)) :=
        List.perm_append_comm_assoc _ _ _
  · have hitems : split.items.map (·.id) = split.childIds := by
      simp [Decomposition.items, Decomposition.childIds]
    rw [← hitems]
    exact listings_addBacklog split.items

theorem length_place (h : UniqueIds board) (hparent : split.parent ∈ board.active) (now : Int) :
    (split.place now board).active.length ≤ maxActiveGoals := by
  have hwithout := (perm_without h.active hparent).length_eq
  have hgoals : (split.goals now).length = split.children.length := by
    have hids := congrArg List.length (ids_goals split now)
    simpa [Decomposition.childIds] using hids
  unfold Decomposition.place
  split
  next hroom =>
    unfold Decomposition.placement at hroom
    split at hroom
    · rw [List.length_cons] at hwithout
      simp only [List.length_append, hgoals]
      omega
    · cases hroom
  next => exact h.capped

end Decomposed

section Merging

variable {persisted inFlight : GoalBoard}

theorem mem_activeIds_mergeBoards {id : String}
    (h : id ∈ activeIds (mergeBoards persisted inFlight)) :
    id ∈ activeIds inFlight ∨ id ∈ activeIds persisted ∧ id ∉ listings inFlight := by
  obtain ⟨goal, hgoal, rfl⟩ := List.mem_map.mp h
  obtain ⟨entry, hentry, rfl⟩ := List.mem_map.mp hgoal
  have hvalue : entry ∈ (mergedActive persisted inFlight).values :=
    (keepFirst_subperm originRank maxActiveGoals _).subset hentry
  have hkept := (BTreeMap.mem_values_iff keyed_mergedActive).mp hvalue
  have hcontender := @get?_mergedActive persisted inFlight entry.1.id
  rw [hkept, mergeContender] at hcontender
  rcases Option.or_eq_some_iff.mp hcontender.symm with hfound | ⟨-, hfound⟩
  · exact .inl (BTreeMap.isSome_last.mp (Option.isSome_of_eq_some hfound))
  · split at hfound
    next => cases hfound
    next hunlisted =>
      exact .inr ⟨BTreeMap.isSome_last.mp (Option.isSome_of_eq_some hfound), hunlisted⟩

theorem mem_backlogIds_mergeBoards {id : String}
    (h : id ∈ backlogIds (mergeBoards persisted inFlight)) :
    id ∈ backlogIds inFlight ∨ id ∈ backlogIds persisted ∧ id ∉ listings inFlight := by
  obtain ⟨item, hitem, rfl⟩ := List.mem_map.mp h
  have hcontender := mem_mergeBoards_backlog.mp hitem
  rw [mergeBacklogContender] at hcontender
  rcases Option.or_eq_some_iff.mp hcontender with hfound | ⟨-, hfound⟩
  · exact .inl (BTreeMap.isSome_last.mp (Option.isSome_of_eq_some hfound))
  · split at hfound
    next => cases hfound
    next hunlisted =>
      exact .inr ⟨BTreeMap.isSome_last.mp (Option.isSome_of_eq_some hfound), hunlisted⟩

theorem UniqueIds.mergeBoards (hpersisted : UniqueIds persisted) (hinFlight : UniqueIds inFlight) :
    UniqueIds (mergeBoards persisted inFlight) := by
  refine ⟨?_, ?_, ?_, ?_⟩
  · have hvalues : ((mergedActive persisted inFlight).values.map (·.1.id)).Nodup :=
      BTreeMap.nodup_values keyed_mergedActive
    obtain ⟨kept, hperm, hsub⟩ := keepFirst_subperm originRank maxActiveGoals
      (mergedActive persisted inFlight).values
    have hkept := (hperm.map (·.1.id)).nodup_iff.mp (hvalues.sublist (hsub.map (·.1.id)))
    unfold activeIds Goals.mergeBoards
    rw [List.map_map]
    exact hkept
  · exact BTreeMap.nodup_values fun _ _ h => BTreeMap.key_of_union h
  · intro id hactive hbacklog
    have hlisted {id : String} (h : id ∈ activeIds inFlight ∨ id ∈ backlogIds inFlight) :
        id ∈ listings inFlight := List.mem_append.mpr h
    rcases mem_activeIds_mergeBoards hactive with hin | ⟨hold, hunlisted⟩
    · rcases mem_backlogIds_mergeBoards hbacklog with hin' | ⟨-, hunlisted⟩
      · exact hinFlight.disjoint id hin hin'
      · exact hunlisted (hlisted (.inl hin))
    · rcases mem_backlogIds_mergeBoards hbacklog with hin' | ⟨hold', -⟩
      · exact hunlisted (hlisted (.inr hin'))
      · exact hpersisted.disjoint id hold hold'
  · unfold Goals.mergeBoards
    rw [List.length_map]
    exact length_keepFirst_le originRank maxActiveGoals _

end Merging

abbrev KeptBoard := { board : GoalBoard // UniqueIds board }

inductive BoardOp where
  | addActive (goal : ActiveGoal)
  | addBacklog (item : BacklogItem)
  | promote (backlogId : String) (priority : Nat) (assignedTo : Option String)
  | promoteFromBacklog
  | updateProgress (goalId : String) (progress : GoalProgress)
  | archive
  | decompose (store : GraphWrite → Except SimardError Unit) (goalId : String)
      (decomposer : GoalDecomposer) (maxChildren : Nat) (now : Int)
  | seed (seeds : List SeedGoal)
  | mergeOver (persisted : KeptBoard)
  | mergeInto (inFlight : KeptBoard)

def BoardOp.call : BoardOp → GoalBoard → Except SimardError Unit × GoalBoard
  | .addActive goal, board => Action.call (addActiveGoal goal) board
  | .addBacklog item, board => Action.call (addBacklogItem item) board
  | .promote backlogId priority assignedTo, board =>
      Action.call (promoteToActive backlogId priority assignedTo) board
  | .promoteFromBacklog, board => (.ok (), Goals.promoteFromBacklog board)
  | .updateProgress goalId progress, board =>
      Action.call (updateGoalProgress goalId progress) board
  | .archive, board => (.ok (), (archiveCompleted board).1)
  | .decompose store goalId decomposer maxChildren now, board =>
      let (result, board) :=
        Action.call (decomposeGoal store goalId decomposer maxChildren now) board
      (result.map fun _ => (), board)
  | .seed seeds, board => (.ok (), (seedBoardFromSeedGoals seeds board).2)
  | .mergeOver persisted, board => (.ok (), mergeBoards persisted board)
  | .mergeInto inFlight, board => (.ok (), mergeBoards board inFlight)

def curation : Machine GoalBoard BoardOp where
  step board op := (op.call board).2

/-- What an operation adds is new to the board: a goal that would be added is not in the
backlog, an item not active, children nowhere; and seeds have ids of their own, few
enough to fit, that the backlog does not list. -/
def AddsNewIds (board : GoalBoard) : BoardOp → Prop
  | .addActive goal => validateActiveGoal goal = .ok () → board.active.length < maxActiveGoals →
      goal.id ∉ activeIds board → goal.id ∉ backlogIds board
  | .addBacklog item => validateBacklogItem item = .ok () → item.id ∉ backlogIds board →
      item.id ∉ activeIds board
  | .decompose store goalId decomposer maxChildren _ =>
      ∀ split, proposeChildren decomposer goalId maxChildren board = .ok split →
        (graphWrites split).forM (writeGraph store) = .ok () →
          ∀ id ∈ split.childIds, id ∉ listings board
  | .seed seeds => board.active = [] → (seeds.map fun seed => goalSlug seed.title).Nodup ∧
      seeds.length ≤ maxActiveGoals ∧ ∀ seed ∈ seeds, goalSlug seed.title ∉ backlogIds board
  | _ => True

theorem markStanding_id (goal : ActiveGoal) : goal.markStanding.id = goal.id := by
  unfold ActiveGoal.markStanding
  split <;> rfl

theorem seededGoal_id (seed : SeedGoal) : (seededGoal seed).id = goalSlug seed.title := by
  simp only [seededGoal, apply_ite ActiveGoal.id, markStanding_id, ite_self, ActiveGoal.new]

theorem ids_seeded (seeds : List SeedGoal) :
    (seeds.map seededGoal).map (·.id) = seeds.map fun seed => goalSlug seed.title := by
  rw [List.map_map]
  apply List.map_congr_left
  intro seed _
  exact seededGoal_id seed

section Steps

variable {board : GoalBoard} (h : UniqueIds board)
include h

theorem addActive_iff (goal : ActiveGoal) :
    UniqueIds (curation.step board (.addActive goal)) ↔ AddsNewIds board (.addActive goal) := by
  rcases @addActiveGoal_call board goal with
    ⟨⟨e, hrefused⟩, hactive⟩ | ⟨hdone, hvalid, hroom, hnew⟩
  · have hsame : curation.step board (.addActive goal) = board := congrArg Prod.snd hrefused
    rw [hsame]
    exact iff_of_true h fun hvalid hroom hnew => absurd (hactive hvalid hroom) hnew
  · have hstep : curation.step board (.addActive goal) =
        { board with active := board.active ++ [goal] } := congrArg Prod.snd hdone
    rw [hstep, h.added_iff (List.nodup_singleton goal.id) (listings_addActive goal)
      (by simpa using hroom)]
    simp [AddsNewIds, listings, hvalid, hroom, hnew]

theorem addBacklog_iff (item : BacklogItem) :
    UniqueIds (curation.step board (.addBacklog item)) ↔ AddsNewIds board (.addBacklog item) := by
  rcases @addBacklogItem_call board item with
    ⟨⟨e, hrefused⟩, hlisted⟩ | ⟨hdone, hvalid, hnew⟩
  · have hsame : curation.step board (.addBacklog item) = board := congrArg Prod.snd hrefused
    rw [hsame]
    exact iff_of_true h fun hvalid hnew => absurd (hlisted hvalid) hnew
  · have hstep : curation.step board (.addBacklog item) =
        { board with backlog := board.backlog ++ [item] } := congrArg Prod.snd hdone
    rw [hstep, h.added_iff (List.nodup_singleton item.id) (listings_addBacklog [item]) h.capped]
    simp [AddsNewIds, listings, hvalid, hnew]

theorem promote_unique (backlogId : String) (priority : Nat) (assignedTo : Option String) :
    UniqueIds (curation.step board (.promote backlogId priority assignedTo)) := by
  rcases @promoteToActive_call board backlogId priority assignedTo with
    ⟨⟨e, hrefused⟩, -⟩ | ⟨position, item, hfound, hroom, -, hdone⟩
  · have hsame : curation.step board (.promote backlogId priority assignedTo) = board :=
      congrArg Prod.snd hrefused
    rw [hsame]
    exact h
  · have hstep : curation.step board (.promote backlogId priority assignedTo) =
        ⟨board.active ++ [promotedGoal priority assignedTo item],
          board.backlog.eraseIdx position⟩ := congrArg Prod.snd hdone
    rw [hstep]
    exact h.of_perm (listings_promote (findItem_ok hfound).1 rfl) (by simpa using hroom)

theorem updateProgress_unique (goalId : String) (progress : GoalProgress) :
    UniqueIds (curation.step board (.updateProgress goalId progress)) := by
  rcases @updateGoalProgress_call board goalId progress with ⟨e, hrefused⟩ | hdone
  · have hsame : curation.step board (.updateProgress goalId progress) = board :=
      congrArg Prod.snd hrefused
    rw [hsame]
    exact h
  · let update (goal : ActiveGoal) : ActiveGoal := { goal with status := progress }
    have hstep : curation.step board (.updateProgress goalId progress) =
        { board with active := updateFirst goalId update board.active } := congrArg Prod.snd hdone
    have hids : (updateFirst goalId update board.active).map (·.id) = board.active.map (·.id) :=
      ids_updateFirst goalId (f := update) (fun _ => rfl) board.active
    rw [hstep]
    refine h.of_perm ?_ ?_
    · simp only [listings, activeIds, backlogIds, hids]
      exact List.Perm.refl _
    · have hlength := congrArg List.length hids
      rw [List.length_map, List.length_map] at hlength
      exact hlength ▸ h.capped

theorem archive_unique : UniqueIds (curation.step board .archive) := by
  have hsub := @listings_archiveCompleted board
  refine uniqueIds_iff.mpr ⟨(uniqueIds_iff.mp h).1.sublist hsub, ?_⟩
  exact (List.length_filterMap_le _ _).trans h.capped

theorem decompose_iff (store : GraphWrite → Except SimardError Unit) (goalId : String)
    (decomposer : GoalDecomposer) (maxChildren : Nat) (now : Int) :
    UniqueIds (curation.step board (.decompose store goalId decomposer maxChildren now)) ↔
      AddsNewIds board (.decompose store goalId decomposer maxChildren now) := by
  rcases @decomposeGoal_call board store goalId decomposer maxChildren now with
    ⟨⟨e, hrefused⟩, hnever⟩ | ⟨split, hsplit, hwritten, hdone⟩
  · have hsame : curation.step board (.decompose store goalId decomposer maxChildren now) = board :=
      congrArg Prod.snd hrefused
    rw [hsame]
    exact iff_of_true h fun split hsplit hwritten => absurd hwritten (hnever split hsplit)
  · have hstep : curation.step board (.decompose store goalId decomposer maxChildren now) =
        split.place now board := congrArg Prod.snd hdone
    have hparent := (proposeChildren_ok hsplit).1
    rw [hstep, h.added_iff (nodup_childIds hsplit) (listings_place h hparent now)
      (length_place h hparent now)]
    constructor
    · intro hnew split' hsplit' _
      rw [hsplit] at hsplit'
      cases hsplit'
      exact hnew
    · intro hadds
      exact hadds split hsplit hwritten

theorem seed_iff (seeds : List SeedGoal) :
    UniqueIds (curation.step board (.seed seeds)) ↔ AddsNewIds board (.seed seeds) := by
  by_cases hempty : board.active = []
  · have hstep : curation.step board (.seed seeds) =
        { board with active := board.active ++ seeds.map seededGoal } := by
      simp [curation, BoardOp.call, seedBoardFromSeedGoals, hempty]
    have hids := ids_seeded seeds
    rw [hstep, uniqueIds_iff, listings, List.nodup_append']
    simp only [activeIds, backlogIds, hempty, List.nil_append, hids, List.length_map, AddsNewIds,
      forall_const, List.disjoint_left, List.forall_mem_map]
    have hbacklog := h.backlog
    unfold backlogIds at hbacklog
    tauto
  · have hstep : curation.step board (.seed seeds) = board := by
      simp [curation, BoardOp.call, seedBoardFromSeedGoals, hempty]
    rw [hstep]
    exact iff_of_true h fun hnone => absurd hnone hempty

theorem uniqueIds_step_iff (op : BoardOp) :
    UniqueIds (curation.step board op) ↔ AddsNewIds board op := by
  cases op with
  | addActive goal => exact addActive_iff h goal
  | addBacklog item => exact addBacklog_iff h item
  | promote backlogId priority assignedTo =>
    exact iff_of_true (promote_unique h backlogId priority assignedTo) trivial
  | promoteFromBacklog =>
    exact iff_of_true (h.of_perm (listings_promoteFromBacklog board)
      (length_promoteFromBacklog h.capped)) trivial
  | updateProgress goalId progress =>
    exact iff_of_true (updateProgress_unique h goalId progress) trivial
  | archive => exact iff_of_true (archive_unique h) trivial
  | decompose store goalId decomposer maxChildren now =>
    exact decompose_iff h store goalId decomposer maxChildren now
  | seed seeds => exact seed_iff h seeds
  | mergeOver persisted => exact iff_of_true (persisted.property.mergeBoards h) trivial
  | mergeInto inFlight => exact iff_of_true (h.mergeBoards inFlight.property) trivial

end Steps

theorem atomic_addActiveGoal (goal : ActiveGoal) : Atomic (addActiveGoal goal) := by
  refine .check_bind fun _ _ => .get_bind fun board => .check_bind fun _ _ =>
    .check_bind fun _ _ => ?_
  exact .set _

theorem atomic_addBacklogItem (item : BacklogItem) : Atomic (addBacklogItem item) := by
  refine .check_bind fun _ _ => .get_bind fun board => .check_bind fun _ _ => ?_
  exact .set _

theorem atomic_promoteToActive (backlogId : String) (priority : Nat)
    (assignedTo : Option String) : Atomic (promoteToActive backlogId priority assignedTo) := by
  refine .check_bind fun _ _ => .get_bind fun board => .check_bind fun _ _ => ?_
  refine .check_bind fun found _ => .check_bind fun _ _ => ?_
  exact .set _

theorem atomic_updateGoalProgress (goalId : String) (progress : GoalProgress) :
    Atomic (updateGoalProgress goalId progress) := by
  refine .check_bind fun _ _ => .get_bind fun board => .check_bind fun _ _ => ?_
  exact .set _

theorem atomic_decomposeGoal (store : GraphWrite → Except SimardError Unit) (goalId : String)
    (decomposer : GoalDecomposer) (maxChildren : Nat) (now : Int) :
    Atomic (decomposeGoal store goalId decomposer maxChildren now) := by
  refine .get_bind fun board => .check_bind fun split _ => .check_bind fun _ _ => ?_
  exact .set_pure _ _

theorem board_of_error (op : BoardOp) {board board' : GoalBoard} {e : SimardError}
    (h : op.call board = (.error e, board')) : board' = board := by
  cases op with
  | addActive goal => exact atomic_addActiveGoal goal board e board' h
  | addBacklog item => exact atomic_addBacklogItem item board e board' h
  | promote backlogId priority assignedTo =>
    exact atomic_promoteToActive backlogId priority assignedTo board e board' h
  | updateProgress goalId progress =>
    exact atomic_updateGoalProgress goalId progress board e board' h
  | decompose store goalId decomposer maxChildren now =>
    have hcall : ∃ e', call (decomposeGoal store goalId decomposer maxChildren now) board =
        (.error e', board') := by
      rw [BoardOp.call] at h
      rcases hresult : call (decomposeGoal store goalId decomposer maxChildren now) board with
        ⟨result, left⟩
      rw [hresult] at h
      cases result with
      | error e' =>
        cases h
        exact ⟨e, rfl⟩
      | ok outcome => cases h
    obtain ⟨e', hcall⟩ := hcall
    exact atomic_decomposeGoal store goalId decomposer maxChildren now board e' board' hcall
  | promoteFromBacklog => cases h
  | archive => cases h
  | seed seeds => cases h
  | mergeOver persisted => cases h
  | mergeInto inFlight => cases h

/-- From an empty board on, every board of a run keeps ids unique and the active goals
within bounds exactly if every step adds only what is new; and no call that fails
changes the board. -/
theorem board_ids_unique_iff (ops : List BoardOp) :
    ((∀ t ∈ curation.trace .new ops, UniqueIds t.after) ↔
      ∀ t ∈ curation.trace .new ops, AddsNewIds t.before t.event) ∧
    ∀ t ∈ curation.trace .new ops, ∀ e, (t.event.call t.before).1 = .error e →
      t.after = t.before := by
  have hempty : UniqueIds .new :=
    ⟨List.nodup_nil, List.nodup_nil, nofun, Nat.zero_le _⟩
  refine ⟨curation.throughout_iff (P := UniqueIds) (fun _ op h =>
    uniqueIds_step_iff h op) hempty ops, ?_⟩
  intro t ht e herror
  obtain ⟨-, -, -, -, hafter⟩ := curation.mem_trace ht
  rw [hafter]
  exact board_of_error t.event (Prod.ext herror rfl)

/-- The same id in both lists, and after a promotion twice in one. -/
theorem board_ids_clash :
    ¬ UniqueIds (curation.run .new [.addActive (.new "port" "Port the parser" 1),
      .addBacklog ⟨"port", "Port the parser", "operator:cli", 1⟩]) ∧
    ¬ (activeIds (curation.run .new [.addActive (.new "port" "Port the parser" 1),
      .addBacklog ⟨"port", "Port the parser", "operator:cli", 1⟩,
      .promote "port" 1 none])).Nodup := by
  refine ⟨fun h => ?_, by decide⟩
  exact h.disjoint "port" (by decide) (by decide)

end Simard.Goals
