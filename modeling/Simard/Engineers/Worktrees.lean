import Simard.Engineers.ClaimKeys
import Simard.Library.Bytes

/-! The worktrees of engineers: how they are named, and the two ways to find the
living one of a goal, by the beginning of the name and by taking it apart. -/
namespace Simard.Engineers
open Simard.Library

structure EngineerClaim where
  pid : Int
  starttime : Option Nat
  deriving DecidableEq

/-- What the kernel answers about processes: which exist, and when they began. -/
structure ProcessTable where
  running : Int → Bool
  starttime : Int → Option Nat

def isPidAlive (processes : ProcessTable) (pid : Int) : Bool :=
  if pid ≤ 0 then false else processes.running pid

def readPidStarttime (processes : ProcessTable) (pid : Int) : Option Nat :=
  if pid ≤ 0 then none else processes.starttime pid

/-- An entry of the worktrees root. A name is absent when it is not valid text,
the claim file when it cannot be read. -/
structure WorktreeEntry where
  name : Option String
  isDir : Bool
  claimFile : Option String
  deriving DecidableEq

/-- The first line is the process id, the second, if there is one, its start time. -/
def readEngineerClaimFull (entry : WorktreeEntry) : Option EngineerClaim := do
  let raw ← entry.claimFile
  let pid ← (lines raw.toList)[0]?.bind fun line => parseSigned 32 (trim line)
  some ⟨pid, (lines raw.toList)[1]?.bind fun line => parseUnsigned 64 (trim line)⟩

def claimIsLive (processes : ProcessTable) (claim : EngineerClaim) : Bool :=
  if isPidAlive processes claim.pid then
    match claim.starttime with
    | some recorded =>
        match readPidStarttime processes claim.pid with
        | some current => current = recorded
        | none => false
    | none => true
  else false

def maxGoalIdLen : Nat := 200

def validateGoalId (goalId : String) : Except String Unit :=
  checkName "goal_id" maxGoalIdLen goalId

/-- The clock, the process and its counter, as an allocation reads them. -/
structure AllocationMoment where
  epochSecs : Nat
  subsecNanos : Nat
  counter : Nat
  pid : Nat
  deriving DecidableEq

/-- The low 24 bits of the mixed clock, counter and process id. -/
def allocationTag (moment : AllocationMoment) : Nat :=
  (moment.subsecNanos * 0x9E3779B97F4A7C15 + moment.counter * 0xBF58476D1CE4E5B9 +
    moment.pid * 0x94D049BB133111EB) % 2 ^ 64 % 2 ^ 24

def hex6 (n : Nat) : List Char :=
  [n / 16 ^ 5 % 16, n / 16 ^ 4 % 16, n / 16 ^ 3 % 16, n / 16 ^ 2 % 16, n / 16 % 16, n % 16].map
    hexDigit

def uniqueSuffix (moment : AllocationMoment) : String :=
  toString moment.epochSecs ++ "-" ++ String.ofList (hex6 (allocationTag moment))

/-- The goal id is what stands before a time of six digits or more and a tag of
six hexadecimal digits; any other name stands for itself. -/
def goalIdFromWorktreeDir (name : String) : String :=
  match rsplitOnce '-' name with
  | none => name
  | some (front, hex) =>
      match rsplitOnce '-' front with
      | none => name
      | some (goal, secs) =>
          if goal.toList ≠ [] ∧ 6 ≤ secs.toList.length ∧ secs.toList.all Char.isDigit ∧
              hex.toList.length = 6 ∧ hex.toList.all TypedOoda.isHexDigit then goal
          else name

structure LiveEngineerWorktree where
  goalId : String
  pid : Int
  worktree : WorktreeEntry
  deriving DecidableEq

def liveEngineer (processes : ProcessTable) (entry : WorktreeEntry) :
    Option LiveEngineerWorktree := do
  guard entry.isDir
  let claim ← readEngineerClaimFull entry
  guard (claimIsLive processes claim)
  some ⟨(entry.name.map goalIdFromWorktreeDir).getD "", claim.pid, entry⟩

def liveClaimedEngineers (processes : ProcessTable) (root : Option (List WorktreeEntry)) :
    List LiveEngineerWorktree :=
  match root with
  | none => []
  | some entries => entries.filterMap (liveEngineer processes)

/-- The start time a sentinel records, if any, is still that of the process. -/
def starttimeMatches (processes : ProcessTable) (claim : EngineerClaim) : Bool :=
  match claim.starttime with
  | some recorded => readPidStarttime processes claim.pid = some recorded
  | none => true

def isLiveEngineerFor (processes : ProcessTable) (goalId : String) (entry : WorktreeEntry) : Bool :=
  match entry.name with
  | none => false
  | some name =>
      (goalId ++ "-").toList.isPrefixOf name.toList &&
        match readEngineerClaimFull entry with
        | none => false
        | some claim => isPidAlive processes claim.pid && starttimeMatches processes claim

def findLiveEngineerForGoal (processes : ProcessTable) (root : Option (List WorktreeEntry))
    (goalId : String) : Option WorktreeEntry :=
  root.bind fun entries => entries.find? (isLiveEngineerFor processes goalId)

/-- The liveness the ledger asks for when a claim key collides: anything short of
a listing without a living engineer of the goal counts as alive. -/
def isClaimLive (processes : ProcessTable) (root : Option (List WorktreeEntry))
    (claimKey : String) : Bool :=
  match livenessGoalId claimKey with
  | none => true
  | some goalId => root.isNone || (findLiveEngineerForGoal processes root goalId).isSome

/-- A worktree as it was allocated, with whatever its claim file holds now. -/
structure AllocatedWorktree where
  goalId : String
  valid : validateGoalId goalId = .ok ()
  moment : AllocationMoment
  claimFile : Option String

namespace AllocatedWorktree

def dirName (worktree : AllocatedWorktree) : String :=
  worktree.goalId ++ "-" ++ uniqueSuffix worktree.moment

def entry (worktree : AllocatedWorktree) : WorktreeEntry :=
  ⟨some worktree.dirName, true, worktree.claimFile⟩

def live (processes : ProcessTable) (worktree : AllocatedWorktree) : Bool :=
  (readEngineerClaimFull worktree.entry).any (claimIsLive processes)

end AllocatedWorktree

variable {processes : ProcessTable}

theorem dirName_toList (worktree : AllocatedWorktree) :
    worktree.dirName.toList = (worktree.goalId.toList ++
      '-' :: Nat.toDigits 10 worktree.moment.epochSecs) ++
      '-' :: hex6 (allocationTag worktree.moment) := by
  simp [AllocatedWorktree.dirName, uniqueSuffix]

theorem isHexDigit_hexDigit {n : Nat} (h : n < 16) : TypedOoda.isHexDigit (hexDigit n) := by
  revert n
  decide

theorem hyphen_notMem_hexDigit {n : Nat} (h : n < 16) : hexDigit n ≠ '-' := by
  revert n
  decide

theorem all_isHexDigit_hex6 (n : Nat) : (hex6 n).all TypedOoda.isHexDigit := by
  have hdigit (m : Nat) : TypedOoda.isHexDigit (hexDigit (m % 16)) :=
    isHexDigit_hexDigit (Nat.mod_lt _ (by decide))
  simp [hex6, hdigit]

theorem hyphen_notMem_hex6 (n : Nat) : '-' ∉ hex6 n := by
  have hdigit (m : Nat) : '-' ≠ hexDigit (m % 16) :=
    (hyphen_notMem_hexDigit (Nat.mod_lt _ (by decide))).symm
  simp [hex6, hdigit]

theorem hyphen_notMem_toDigits (n : Nat) : '-' ∉ Nat.toDigits 10 n := by
  intro h
  exact absurd (Nat.isDigit_of_mem_toDigits (by decide) (by decide) h) (by decide)

theorem goalId_ne_nil {goalId : String} (h : validateGoalId goalId = .ok ()) :
    goalId.toList ≠ [] := by
  intro hnil
  simp [validateGoalId, checkName, hnil, utf8] at h

theorem goalIdFromWorktreeDir_dirName (worktree : AllocatedWorktree) :
    goalIdFromWorktreeDir worktree.dirName =
      if 10 ^ 5 ≤ worktree.moment.epochSecs then worktree.goalId else worktree.dirName := by
  have houter : rsplitOnce '-' worktree.dirName = some
      (worktree.goalId ++ "-" ++ toString worktree.moment.epochSecs,
        String.ofList (hex6 (allocationTag worktree.moment))) := by
    rw [rsplitOnce_eq_some, dirName_toList]
    simpa using hyphen_notMem_hex6 _
  have hinner : rsplitOnce '-' (worktree.goalId ++ "-" ++ toString worktree.moment.epochSecs) =
      some (worktree.goalId, toString worktree.moment.epochSecs) := by
    rw [rsplitOnce_eq_some]
    simpa using hyphen_notMem_toDigits _
  have hlength : 6 ≤ (Nat.toDigits 10 worktree.moment.epochSecs).length ↔
      10 ^ 5 ≤ worktree.moment.epochSecs := by
    have hle := @Nat.length_toDigits_le_iff 10 worktree.moment.epochSecs 5 (by decide) (by decide)
    omega
  have hdigits : (Nat.toDigits 10 worktree.moment.epochSecs).all Char.isDigit := by
    rw [List.all_eq_true]
    intro c hc
    exact Nat.isDigit_of_mem_toDigits (by decide) (by decide) hc
  have hhex := all_isHexDigit_hex6 (allocationTag worktree.moment)
  unfold goalIdFromWorktreeDir
  rw [houter]
  simp only [hinner]
  apply if_congr _ rfl rfl
  rw [String.toList_ofList, Nat.toString_eq_repr, Nat.toList_repr, hlength]
  have hsix : (hex6 (allocationTag worktree.moment)).length = 6 := rfl
  simp only [goalId_ne_nil worktree.valid, hdigits, hhex, hsix, ne_eq, not_false_eq_true,
    true_and, and_true]

theorem isLiveEngineerFor_entry (goalId : String) (worktree : AllocatedWorktree) :
    isLiveEngineerFor processes goalId worktree.entry =
      ((goalId ++ "-").toList.isPrefixOf worktree.dirName.toList && worktree.live processes) := by
  unfold isLiveEngineerFor AllocatedWorktree.live
  cases hclaim : readEngineerClaimFull worktree.entry with
  | none => rfl
  | some claim =>
    have hlive : (isPidAlive processes claim.pid && starttimeMatches processes claim) =
        claimIsLive processes claim := by
      unfold starttimeMatches claimIsLive
      cases isPidAlive processes claim.pid with
      | false => rfl
      | true => cases claim.starttime <;> cases readPidStarttime processes claim.pid <;> simp
    simp only [AllocatedWorktree.entry, Option.any_some, hlive]

theorem findLiveEngineerForGoal_isSome {worktrees : List AllocatedWorktree} {goalId : String} :
    (findLiveEngineerForGoal processes (some (worktrees.map (·.entry))) goalId).isSome ↔
      ∃ worktree ∈ worktrees, worktree.live processes ∧
        (goalId ++ "-").toList <+: worktree.dirName.toList := by
  simp [findLiveEngineerForGoal, List.find?_isSome, isLiveEngineerFor_entry, and_comm]

theorem liveEngineer_entry {worktree : AllocatedWorktree} {goalId : String} :
    (∃ engineer, liveEngineer processes worktree.entry = some engineer ∧
        engineer.goalId = goalId) ↔
      worktree.live processes ∧ goalIdFromWorktreeDir worktree.dirName = goalId := by
  unfold liveEngineer AllocatedWorktree.live
  cases hclaim : readEngineerClaimFull worktree.entry with
  | none => simp
  | some claim =>
    by_cases hlive : claimIsLive processes claim
    · simp [AllocatedWorktree.entry, hlive]
    · simp [hlive]

theorem mem_liveClaimedEngineers {worktrees : List AllocatedWorktree} {goalId : String} :
    (∃ engineer ∈ liveClaimedEngineers processes (some (worktrees.map (·.entry))),
        engineer.goalId = goalId) ↔
      ∃ worktree ∈ worktrees, worktree.live processes ∧
        goalIdFromWorktreeDir worktree.dirName = goalId := by
  simp only [← liveEngineer_entry, liveClaimedEngineers, List.mem_filterMap, List.mem_map,
    exists_exists_and_eq_and]
  constructor
  · rintro ⟨engineer, ⟨worktree, hmem, hengineer⟩, hgoal⟩
    exact ⟨worktree, hmem, engineer, hengineer, hgoal⟩
  · rintro ⟨worktree, hmem, engineer, hengineer, hgoal⟩
    exact ⟨engineer, ⟨worktree, hmem, hengineer⟩, hgoal⟩

theorem own_prefix (worktree : AllocatedWorktree) :
    (worktree.goalId ++ "-").toList <+: worktree.dirName.toList := by
  refine ⟨(uniqueSuffix worktree.moment).toList, ?_⟩
  simp [AllocatedWorktree.dirName]

/-- Both ways of looking agree on a goal, in whatever order the directory is
listed: the prefix finds only worktrees of the goal, and one exactly when taking
the names apart finds one. -/
def DiscoveryAgrees (processes : ProcessTable) (worktrees : List AllocatedWorktree)
    (goalId : String) : Prop :=
  ∀ listing : List AllocatedWorktree, listing.Perm worktrees →
    (∀ found, findLiveEngineerForGoal processes (some (listing.map (·.entry))) goalId = some found →
      ∀ worktree ∈ worktrees, worktree.entry = found → worktree.goalId = goalId) ∧
    ((findLiveEngineerForGoal processes (some (listing.map (·.entry))) goalId).isSome ↔
      ∃ engineer ∈ liveClaimedEngineers processes (some (listing.map (·.entry))),
        engineer.goalId = goalId)

theorem isSome_iff_listed {worktrees : List AllocatedWorktree} {goalId : String}
    (hforeign : ∀ worktree ∈ worktrees, worktree.live processes → worktree.goalId ≠ goalId →
      ¬ (goalId ++ "-").toList <+: worktree.dirName.toList) :
    ((findLiveEngineerForGoal processes (some (worktrees.map (·.entry))) goalId).isSome ↔
      ∃ engineer ∈ liveClaimedEngineers processes (some (worktrees.map (·.entry))),
        engineer.goalId = goalId) ↔
    ((∃ worktree ∈ worktrees, worktree.live processes ∧ worktree.goalId = goalId) ↔
      ∃ worktree ∈ worktrees, worktree.live processes ∧
        if 10 ^ 5 ≤ worktree.moment.epochSecs then worktree.goalId = goalId
        else worktree.dirName = goalId) := by
  have hstarts (worktree : AllocatedWorktree) (hmem : worktree ∈ worktrees)
      (hlive : worktree.live processes) :
      (goalId ++ "-").toList <+: worktree.dirName.toList ↔ worktree.goalId = goalId := by
    constructor
    · intro hpre
      by_contra hne
      exact hforeign worktree hmem hlive hne hpre
    · rintro rfl
      exact own_prefix worktree
  have hparsed (worktree : AllocatedWorktree) :
      goalIdFromWorktreeDir worktree.dirName = goalId ↔
        if 10 ^ 5 ≤ worktree.moment.epochSecs then worktree.goalId = goalId
        else worktree.dirName = goalId := by
    rw [goalIdFromWorktreeDir_dirName]
    split <;> rfl
  rw [findLiveEngineerForGoal_isSome, mem_liveClaimedEngineers]
  simp only [hparsed]
  apply iff_congr _ Iff.rfl
  constructor
  · rintro ⟨worktree, hmem, hlive, hpre⟩
    exact ⟨worktree, hmem, hlive, (hstarts worktree hmem hlive).mp hpre⟩
  · rintro ⟨worktree, hmem, hlive, hgoal⟩
    exact ⟨worktree, hmem, hlive, (hstarts worktree hmem hlive).mpr hgoal⟩

theorem findLiveEngineerForGoal_cons {worktree : AllocatedWorktree}
    {rest : List AllocatedWorktree} {goalId : String} (hlive : worktree.live processes)
    (hpre : (goalId ++ "-").toList <+: worktree.dirName.toList) :
    findLiveEngineerForGoal processes (some ((worktree :: rest).map (·.entry))) goalId =
      some worktree.entry := by
  have hpasses : isLiveEngineerFor processes goalId worktree.entry := by
    rw [isLiveEngineerFor_entry, hlive, List.isPrefixOf_iff_prefix.mpr hpre]
    rfl
  exact List.find?_cons_of_pos hpasses

/-- The two ways to find a goal's engineer agree exactly when no living worktree
of another goal has a name that the goal's prefix opens, and the goal has a living
worktree just when one allocated after the clock's first hundred thousand seconds
lives, or one allocated before them is named like the goal. -/
theorem discovery_agrees_iff (processes : ProcessTable) (worktrees : List AllocatedWorktree)
    (goalId : String) :
    DiscoveryAgrees processes worktrees goalId ↔
      (∀ worktree ∈ worktrees, worktree.live processes → worktree.goalId ≠ goalId →
        ¬ (goalId ++ "-").toList <+: worktree.dirName.toList) ∧
      ((∃ worktree ∈ worktrees, worktree.live processes ∧ worktree.goalId = goalId) ↔
        ∃ worktree ∈ worktrees, worktree.live processes ∧
          if 10 ^ 5 ≤ worktree.moment.epochSecs then worktree.goalId = goalId
          else worktree.dirName = goalId) := by
  constructor
  · intro hagrees
    have hforeign : ∀ worktree ∈ worktrees, worktree.live processes →
        worktree.goalId ≠ goalId → ¬ (goalId ++ "-").toList <+: worktree.dirName.toList := by
      intro worktree hmem hlive hne hpre
      obtain ⟨front, back, rfl⟩ := List.append_of_mem hmem
      have hfirst := (hagrees (worktree :: (front ++ back)) List.perm_middle.symm).1 worktree.entry
        (findLiveEngineerForGoal_cons hlive hpre) worktree hmem rfl
      exact hne hfirst
    exact ⟨hforeign, (isSome_iff_listed hforeign).mp (hagrees worktrees (.refl _)).2⟩
  · rintro ⟨hforeign, hlisted⟩ listing hperm
    constructor
    · intro found hfound worktree hmem hentry
      have hpasses := List.find?_some hfound
      rw [← hentry, isLiveEngineerFor_entry, Bool.and_eq_true,
        List.isPrefixOf_iff_prefix] at hpasses
      by_contra hne
      exact hforeign worktree hmem hpasses.2 hne hpasses.1
    · rw [isSome_iff_listed]
      · simpa only [hperm.mem_iff] using hlisted
      · simpa only [hperm.mem_iff] using hforeign

def fixTests : AllocatedWorktree where
  goalId := "fix-tests"
  valid := by decide
  moment := ⟨1783168109, 0, 1, 7⟩
  claimFile := some "7\n"

/-- The goal `fix` has no engineer, but the prefix finds that of `fix-tests`. -/
theorem prefix_finds_other_goal :
    ¬ DiscoveryAgrees ⟨fun pid => pid = 7, fun _ => none⟩ [fixTests] "fix" ∧
      findLiveEngineerForGoal ⟨fun pid => pid = 7, fun _ => none⟩ (some [fixTests.entry]) "fix" =
        some fixTests.entry ∧
      liveClaimedEngineers ⟨fun pid => pid = 7, fun _ => none⟩ (some [fixTests.entry]) =
        [⟨"fix-tests", 7, fixTests.entry⟩] := by
  have hfound : findLiveEngineerForGoal ⟨fun pid => pid = 7, fun _ => none⟩
      (some [fixTests.entry]) "fix" = some fixTests.entry := by decide
  refine ⟨?_, hfound, by decide⟩
  intro hagrees
  have hgoal := (hagrees [fixTests] (.refl _)).1 fixTests.entry hfound fixTests
    List.mem_cons_self rfl
  exact absurd hgoal (by decide)

end Simard.Engineers
