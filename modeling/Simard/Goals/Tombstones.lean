import Simard.Goals.BoardStore
import Simard.Library.Pool

/-! Removed goals under concurrent operators and commits. The tombstone file is read,
then written, outside the store's lock, and a commit samples it before it takes the
lock; a removed goal stays removed in every interleaving that slips nothing between
the two. -/
namespace Simard.Goals
open Simard.Library

def storeHost : Pool.Host BoardFiles StoreJob Unit StoreCmd StoreAns StoreReply where
  program := StoreJob.program
  answer files _ cmd := files.answer cmd

/-- The tombstones a call has saved, those it loaded last and those it committed a
board with. -/
structure Sampling where
  saved : Finset String
  sampled : Option (Finset String)
  committed : Option (Finset String)

def Sampling.start : Sampling := ⟨∅, none, none⟩

def sampling : Protocol StoreCmd StoreAns Sampling where
  allowed g
    | .commitBoard _ _ _ tombstones _ => g.sampled = some tombstones
    | _ => True
  next g
    | .loadTombstones, tombstones => { g with sampled := some tombstones }
    | .saveTombstones tombstones, _ => { g with saved := g.saved ∪ tombstones }
    | .commitBoard _ _ _ tombstones _, _ => { g with committed := some tombstones }
    | _, _ => g

/-- A finished call has saved what it was to tombstone; a commit has committed. -/
def Sampled (g : Sampling) (reply : StoreReply) : Prop :=
  (∀ id ∈ reply.tombstoned, id ∈ g.saved) ∧
    ∀ ids board, reply = .committed ids board → g.committed.isSome

theorem tombstoneGoals_follows (ids : List String) (g : Sampling) :
    (tombstoneGoals ids).Follows sampling (fun g' _ => ∀ id ∈ ids, id ∈ g'.saved) g := by
  refine ⟨trivial, fun tombstones => ⟨trivial, fun _ => ?_⟩⟩
  intro id hid
  simp [sampling, hid]

theorem clearDoneGatePins_follows (ids : List String) (g : Sampling) :
    (clearDoneGatePins ids).Follows sampling (fun g' _ => g' = g) g := by
  unfold clearDoneGatePins
  split
  · rfl
  · refine ⟨trivial, fun pins => ?_⟩
    dsimp only [Program.bind]
    split
    · exact ⟨trivial, fun _ => rfl⟩
    · rfl

theorem commitCycle_follows (inFlight : GoalBoard) (tracker : NoProgressTracker) (cycleCount : Nat)
    (newTombstones : List String) (g : Sampling) :
    (commitCycle inFlight tracker cycleCount newTombstones).Follows sampling
      (fun g' _ => (∀ id ∈ newTombstones, id ∈ g'.saved) ∧ g'.committed.isSome) g := by
  have hrest (g : Sampling) (hsaved : ∀ id ∈ newTombstones, id ∈ g.saved) :
      (ask .loadTombstones >>= fun tombstones => ask .loadDoneGatePins >>= fun pins =>
        ask (.commitBoard inFlight tracker cycleCount tombstones pins)).Follows sampling
        (fun g' _ => (∀ id ∈ newTombstones, id ∈ g'.saved) ∧ g'.committed.isSome) g :=
    ⟨trivial, fun _ => ⟨trivial, fun _ => ⟨rfl, fun _ => ⟨hsaved, rfl⟩⟩⟩⟩
  unfold commitCycle
  split
  next hempty =>
    apply hrest
    simp [List.isEmpty_iff.mp hempty]
  next =>
    apply ((tombstoneGoals_follows newTombstones g).bind fun g₁ _ hsaved =>
      (clearDoneGatePins_follows newTombstones g₁).mono fun g₂ _ heq => heq ▸ hsaved).bind
    intro g' _ hsaved
    exact hrest g' hsaved

theorem program_follows (job : StoreJob) :
    job.program.Follows sampling Sampled Sampling.start := by
  cases job with
  | add priorityText description repo standing =>
    change (handleAdd priorityText description repo standing).Follows sampling Sampled .start
    unfold handleAdd
    split
    · exact ⟨by simp [StoreReply.tombstoned], by simp⟩
    · refine ⟨trivial, fun added => ?_⟩
      cases added
      · exact ⟨by simp [StoreReply.tombstoned], by simp⟩
      · exact ⟨by simp [StoreReply.tombstoned], by simp⟩
  | remove ids =>
    change (handleRemove ids).Follows sampling Sampled .start
    unfold handleRemove
    split
    · exact ⟨by simp [StoreReply.tombstoned], by simp⟩
    · refine ⟨trivial, fun _ => (tombstoneGoals_follows ids _).bind ?_⟩
      intro g _ hsaved
      exact ⟨hsaved, by simp⟩
  | complete goalId =>
    refine ⟨trivial, fun outcome => ?_⟩
    cases outcome with
    | reopened => exact ⟨by simp [StoreReply.tombstoned], by simp⟩
    | completed | absent =>
      apply (tombstoneGoals_follows [goalId] _).bind
      intro g _ hsaved
      exact ⟨hsaved, by simp⟩
  | commit inFlight tracker cycleCount newTombstones =>
    apply (commitCycle_follows inFlight tracker cycleCount newTombstones _).bind
    intro g board hdone
    exact ⟨hdone.1, fun _ _ _ => hdone.2⟩

/-- Nothing slips between a read of the tombstones and what is done with them: a call
writes the file over nothing it has not read, and commits no board that lists the
tombstoned goal without having read its tombstone. The goal is not added again. -/
def undisturbed (x : String) (files : BoardFiles) (_ : Sampling) : StoreCmd → Bool
  | .saveTombstones tombstones => files.tombstones ⊆ tombstones
  | .commitBoard inFlight _ _ tombstones _ =>
      x ∈ files.tombstones → x ∈ listings inFlight → x ∈ tombstones
  | .addGoal goal => goal.id ≠ x
  | _ => true

theorem listings_removeFrom (ids : List String) (board : GoalBoard) :
    listings (removeFrom ids board) ⊆ listings board := by
  intro id hid
  simp only [listings, activeIds, backlogIds, removeFrom, List.mem_append, List.mem_map,
    List.mem_filter] at hid ⊢
  grind

theorem map_id_rollFirst (goalId : String) (goals : List ActiveGoal) :
    (rollFirst goalId goals).map (·.id) = goals.map (·.id) := by
  induction goals with
  | nil => rfl
  | cons goal rest ih =>
    unfold rollFirst
    split
    · rfl
    · rw [List.map_cons, ih, List.map_cons]

theorem listings_completeOn (goalId : String) (board : GoalBoard) :
    listings (completeOn goalId board).2 ⊆ listings board := by
  unfold completeOn
  split
  · simp [listings, activeIds, backlogIds, map_id_rollFirst]
  · exact listings_removeFrom [goalId] board

section Undisturbed

variable {x : String} {files : BoardFiles} {g : Sampling} {cmd : StoreCmd}

theorem tombstones_grow (hok : undisturbed x files g cmd) :
    files.tombstones ⊆ (files.answer cmd).2.tombstones := by
  cases cmd with
  | saveTombstones tombstones => exact of_decide_eq_true hok
  | addGoal goal =>
    unfold BoardFiles.answer
    dsimp only
    split <;> exact Finset.Subset.refl _
  | _ => exact Finset.Subset.refl _

theorem stays_away (hok : undisturbed x files g cmd) (htomb : x ∈ files.tombstones)
    (hoff : x ∉ listings files.state.board) :
    x ∉ listings (files.answer cmd).2.state.board := by
  cases cmd with
  | addGoal goal =>
    have hne : goal.id ≠ x := of_decide_eq_true hok
    unfold BoardFiles.answer addTo
    dsimp only
    split_ifs
    · exact hoff
    · exact hoff
    · simp only [listings, activeIds, backlogIds, List.mem_append] at hoff ⊢
      simp only [BoardFiles.withBoard, List.map_append, List.map_cons, List.map_nil,
        List.mem_append, List.mem_singleton]
      tauto
  | removeGoals ids => exact fun hin => hoff (listings_removeFrom ids _ hin)
  | completeGoal goalId => exact fun hin => hoff (listings_completeOn goalId _ hin)
  | commitBoard inFlight tracker cycleCount tombstones pins =>
    have hsampled : x ∈ files.tombstones → x ∈ listings inFlight → x ∈ tombstones :=
      of_decide_eq_true hok
    intro hin
    change x ∈ listings (applyDoneGatePins pins _) at hin
    rw [listings_applyDoneGatePins] at hin
    obtain hstored | hflying := listed_of_reconcile hin
    · exact hoff hstored
    · exact not_tombstoned_of_listed hin (hsampled htomb hflying)
  | _ => exact hoff

end Undisturbed

/-- What a call may rely on: its samples and what it saved are still on file, and a
goal whose tombstone it committed with is off the board. -/
structure Relies (x : String) (files : BoardFiles) (g : Sampling) : Prop where
  saved : g.saved ⊆ files.tombstones
  sampled : ∀ tombstones, g.sampled = some tombstones → tombstones ⊆ files.tombstones
  committed : ∀ tombstones, g.committed = some tombstones →
    tombstones ⊆ files.tombstones ∧ (x ∈ tombstones → x ∉ listings files.state.board)

section Relies

variable {x : String} {files : BoardFiles} {g other : Sampling} {cmd : StoreCmd}

theorem relies_stable (hok : undisturbed x files g cmd) (h : Relies x files other) :
    Relies x (files.answer cmd).2 other := by
  have hgrow := tombstones_grow hok
  refine ⟨h.saved.trans hgrow, fun t ht => (h.sampled t ht).trans hgrow, ?_⟩
  intro t ht
  obtain ⟨hfile, hoff⟩ := h.committed t ht
  exact ⟨hfile.trans hgrow, fun hx => stays_away hok (hfile hx) (hoff hx)⟩

theorem relies_next (hok : undisturbed x files g cmd) (h : Relies x files g)
    (hallowed : sampling.allowed g cmd) :
    Relies x (files.answer cmd).2 (sampling.next g cmd (files.answer cmd).1) := by
  have hstable := relies_stable hok h
  cases cmd with
  | loadTombstones =>
    refine ⟨hstable.saved, ?_, hstable.committed⟩
    intro t ht
    cases ht
    exact Finset.Subset.refl _
  | saveTombstones tombstones =>
    exact ⟨Finset.union_subset hstable.saved (Finset.Subset.refl _), hstable.sampled,
      hstable.committed⟩
  | commitBoard inFlight tracker cycleCount tombstones pins =>
    refine ⟨hstable.saved, hstable.sampled, ?_⟩
    intro t ht
    cases ht
    refine ⟨hstable.sampled tombstones hallowed, ?_⟩
    intro hx hin
    change x ∈ listings (applyDoneGatePins pins _) at hin
    rw [listings_applyDoneGatePins] at hin
    exact not_tombstoned_of_listed hin hx
  | _ => exact hstable

theorem guardRules (x : String) :
    Pool.GuardRules storeHost sampling .start (undisturbed x) (fun _ => True) (Relies x) where
  start _ _ := ⟨Finset.empty_subset _, by simp [Sampling.start], by simp [Sampling.start]⟩
  shared _ _ _ _ _ _ _ _ := trivial
  next _ _ _ _ hok _ h hallowed := relies_next hok h hallowed
  stable _ _ _ _ _ hok _ _ _ hother := relies_stable hok hother

end Relies

theorem storeRun_relies {x : String} (files : BoardFiles)
    (events : List (Pool.Event StoreJob Unit))
    (hmeets : Pool.meets storeHost sampling .start (undisturbed x) (Pool.init files) events) :
    Pool.Guarded sampling .start (fun _ => True) (Relies x)
      (storeHost.machine.run (Pool.init files) events) :=
  storeHost.guarded_run (guardRules x) program_follows (Pool.following_init files)
    (Pool.guarded_init trivial) events hmeets

theorem storeRun_following (files : BoardFiles) (events : List (Pool.Event StoreJob Unit)) :
    Pool.Following sampling .start Sampled (storeHost.machine.run (Pool.init files) events) :=
  storeHost.following_run program_follows (Pool.following_init files) events

theorem sampled_of_returned {pool : Pool BoardFiles StoreCmd StoreAns StoreReply}
    (h : Pool.Following sampling .start Sampled pool) {index : Nat} {reply : StoreReply}
    (hreply : pool.returned index = some reply) :
    ∃ thread, pool.threads[index]? = some thread ∧
      Sampled (Pool.ghost sampling .start thread.past) reply := by
  obtain ⟨thread, hthread, hresult⟩ := Option.bind_eq_some_iff.mp hreply
  have hfollows := h thread (List.mem_of_getElem? hthread)
  cases hprogram : thread.program with
  | step cmd next =>
    rw [hprogram] at hresult
    cases hresult
  | done value =>
    rw [hprogram] at hresult hfollows
    cases hresult
    exact ⟨thread, hthread, hfollows⟩

theorem saved_of_past {past : List (Exchange StoreCmd StoreAns)}
    {exchange : Exchange StoreCmd StoreAns} (h : exchange ∈ past) {tombstones : Finset String}
    (hcmd : exchange.cmd = .saveTombstones tombstones) :
    tombstones ⊆ (Pool.ghost sampling .start past).saved := by
  induction past using List.reverseRecOn with
  | nil => cases h
  | append_singleton past latest ih =>
    rw [Pool.ghost_append]
    have hkeep : (Pool.ghost sampling .start past).saved ⊆
        (sampling.next (Pool.ghost sampling .start past) latest.cmd latest.answer).saved := by
      obtain ⟨cmd, answer⟩ := latest
      cases cmd <;> simp [sampling]
    rcases List.mem_append.mp h with hearlier | hlast
    · exact (ih hearlier).trans hkeep
    · obtain rfl := List.mem_singleton.mp hlast
      obtain ⟨cmd, answer⟩ := exchange
      cases hcmd
      exact Finset.subset_union_right

/-- Every tombstone the call has read, and every one it committed with, names the goal. -/
def Informed (x : String) (g : Sampling) : Prop :=
  (∀ tombstones, g.sampled = some tombstones → x ∈ tombstones) ∧
    ∀ tombstones, g.committed = some tombstones → x ∈ tombstones

theorem informed_next {x : String} {files : BoardFiles} (htomb : x ∈ files.tombstones)
    {cmd : StoreCmd} {g : Sampling} (hallowed : sampling.allowed g cmd) (h : Informed x g) :
    Informed x (sampling.next g cmd (files.answer cmd).1) := by
  cases cmd with
  | loadTombstones =>
    refine ⟨?_, h.2⟩
    intro t ht
    cases ht
    exact htomb
  | commitBoard inFlight tracker cycleCount tombstones pins =>
    refine ⟨h.1, ?_⟩
    intro t ht
    cases ht
    exact h.1 tombstones hallowed
  | _ => exact h

/-- Once a call has tombstoned the goal and a commit that began after it has finished,
the goal is off the board; and no tombstone is ever lost. -/
theorem removed_goal_stays_removed (x : String) (files : BoardFiles)
    (left right : List (Pool.Event StoreJob Unit))
    (hmeets : Pool.meets storeHost sampling .start (undisturbed x) (Pool.init files)
      (left ++ right))
    (command commit : Nat) (reply : StoreReply) (newTombstones : List String) (board : GoalBoard)
    (hcommand : (storeHost.machine.run (Pool.init files) left).returned command = some reply)
    (hx : x ∈ reply.tombstoned)
    (hfresh : ∀ thread, (storeHost.machine.run (Pool.init files) left).threads[commit]? =
      some thread → thread.past = [])
    (hcommit : (storeHost.machine.run (Pool.init files) (left ++ right)).returned commit =
      some (.committed newTombstones board)) :
    x ∉ listings (storeHost.machine.run (Pool.init files) (left ++ right)).shared.state.board ∧
      ∀ thread ∈ (storeHost.machine.run (Pool.init files) (left ++ right)).threads,
        (∀ reply, thread.program.result? = some reply → ∀ id ∈ reply.tombstoned,
          id ∈ (storeHost.machine.run (Pool.init files) (left ++ right)).shared.tombstones) ∧
        ∀ exchange ∈ thread.past, ∀ saved, exchange.cmd = .saveTombstones saved →
          saved ⊆ (storeHost.machine.run (Pool.init files) (left ++ right)).shared.tombstones := by
  obtain ⟨hleft, hright⟩ := Pool.meets_append.mp hmeets
  have hrelies := storeRun_relies files (left ++ right) hmeets
  have hfollowing := storeRun_following files (left ++ right)
  constructor
  · have htomb : x ∈ (storeHost.machine.run (Pool.init files) left).shared.tombstones := by
      obtain ⟨thread, hthread, hsampled⟩ :=
        sampled_of_returned (storeRun_following files left) hcommand
      exact ((storeRun_relies files left hleft).2 thread (List.mem_of_getElem? hthread)).saved
        (hsampled.1 x hx)
    obtain ⟨-, hinformed⟩ := storeHost.thread_run (P := fun files => x ∈ files.tombstones)
      (Q := Informed x) commit (by simp [Informed, Sampling.start])
      (fun _ _ _ _ hok htomb => tombstones_grow hok htomb)
      (fun _ _ _ _ htomb hallowed h => informed_next htomb hallowed h) program_follows
      (storeRun_following files left) htomb
      (fun thread hthread => by simp [hfresh thread hthread, Informed, Sampling.start]) right hright
    rw [← Machine.run_append] at hinformed
    obtain ⟨thread, hthread, hsampled⟩ := sampled_of_returned hfollowing hcommit
    obtain ⟨tombstones, hcommitted⟩ :=
      Option.isSome_iff_exists.mp (hsampled.2 newTombstones board rfl)
    exact ((hrelies.2 thread (List.mem_of_getElem? hthread)).committed tombstones hcommitted).2
      ((hinformed thread hthread).2 tombstones hcommitted)
  · intro thread hthread
    have hsaved := (hrelies.2 thread hthread).saved
    constructor
    · intro reply hreply id hid
      have hfollows := hfollowing thread hthread
      cases hprogram : thread.program with
      | step cmd next =>
        rw [hprogram] at hreply
        cases hreply
      | done value =>
        rw [hprogram] at hreply hfollows
        cases hreply
        exact hsaved (hfollows.1 id hid)
    · intro exchange hexchange saved hcmd
      exact (saved_of_past hexchange hcmd).trans hsaved

def boardWith (ids : List String) : GoalBoard := ⟨ids.map fun id => .new id "" 1, []⟩

def filesWith (ids : List String) : BoardFiles :=
  ⟨⟨boardWith ids, .new, 0⟩, ∅, BTreeMap.empty⟩

def advances (index count : Nat) : List (Pool.Event StoreJob Unit) :=
  List.replicate count (.advance index ())

theorem removed_goal_stays_removed_alone :
    "a" ∉ listings (storeHost.machine.run (Pool.init (filesWith ["a"]))
      ((.start (.remove ["a"]) :: advances 0 3) ++
        (.start (.commit (boardWith ["a"]) .new 1 []) :: advances 1 3))).shared.state.board := by
  have hmeets : Pool.meets storeHost sampling .start (undisturbed "a")
      (Pool.init (filesWith ["a"])) ((.start (.remove ["a"]) :: advances 0 3) ++
        (.start (.commit (boardWith ["a"]) .new 1 []) :: advances 1 3)) = true := by
    decide
  have hunstarted : (storeHost.machine.run (Pool.init (filesWith ["a"]))
      (.start (.remove ["a"]) :: advances 0 3)).threads[1]? = none := rfl
  exact (removed_goal_stays_removed "a" (filesWith ["a"]) (.start (.remove ["a"]) :: advances 0 3)
    (.start (.commit (boardWith ["a"]) .new 1 []) :: advances 1 3) hmeets 0 1 (.removed ["a"]) []
    (boardWith []) (by rfl) (by simp [StoreReply.tombstoned])
    (fun _ h => absurd (hunstarted ▸ h) (by simp)) (by rfl)).1

/-- Two removals load the empty tombstone file one after the other; the second save
loses the first. -/
def racingRemovals : List (Pool.Event StoreJob Unit) :=
  [.start (.remove ["a"]), .start (.remove ["b"])] ++ advances 0 2 ++ advances 1 2 ++
    advances 0 1 ++ advances 1 1

def laterCommit : List (Pool.Event StoreJob Unit) :=
  .start (.commit (boardWith ["a", "b"]) .new 1 []) :: advances 2 3

theorem removed_goal_returns :
    ((storeHost.machine.run (Pool.init (filesWith ["a", "b"])) racingRemovals).returned 0).map
        (·.tombstoned) = some ["a"] ∧
      ((storeHost.machine.run (Pool.init (filesWith ["a", "b"]))
        (racingRemovals ++ laterCommit)).returned 2).isSome ∧
      "a" ∉ (storeHost.machine.run (Pool.init (filesWith ["a", "b"]))
        racingRemovals).shared.tombstones ∧
      "a" ∈ activeIds (storeHost.machine.run (Pool.init (filesWith ["a", "b"]))
        (racingRemovals ++ laterCommit)).shared.state.board := by
  decide

end Simard.Goals
