import Simard.Disk.WorktreeGc
import Simard.Library.Machine

/-! Disk reclamation: an agent proposes paths, the rails vet each one right before it is
removed, and the executor removes the largest first until the disk is below its target.
The rails look at the path alone; a removal takes everything below it. -/
namespace Simard.Disk
open Simard.Library

inductive CandidateKind where
  | trackedWorktree
  | orphanDir
  | staleBuildCache
  deriving DecidableEq

structure ReclaimCandidate where
  path : String
  kind : CandidateKind
  deriving DecidableEq

inductive ReclaimPrimitive where
  | gitWorktreeRemoveForce
  | removeDir
  deriving DecidableEq

inductive RejectReason where
  | protectedPath
  | liveProcess
  | uncommittedOrUnpushed
  | activeWorktree
  | outsideAllowRoot
  | unknownPrState
  deriving DecidableEq

inductive Verdict where
  | allow (primitive : ReclaimPrimitive) (bytes : Nat)
  | reject (reason : RejectReason)
  deriving DecidableEq

inductive WorktreeVerdict where
  | reclaimable
  | reject (reason : RejectReason)
  deriving DecidableEq

/-- Each protected path, and its real path when the set was made. -/
structure ProtectedDenySet where
  paths : List (String × Option String)

def ProtectedDenySet.fromPaths (disk : Disk) (paths : List String) : ProtectedDenySet :=
  ⟨paths.map fun path => (path, disk.canonicalize path)⟩

def ProtectedDenySet.asPaths (set : ProtectedDenySet) : List String := set.paths.map (·.1)

def ProtectedDenySet.contains (set : ProtectedDenySet) (disk : Disk) (candidate : String) : Bool :=
  set.paths.any fun (deny, denyReal) =>
    match disk.canonicalize candidate, denyReal with
    | some real, some denyReal => samePath real denyReal || startsWith real denyReal
    | _, _ => samePath candidate deny || startsWith candidate deny

/-- Equal to a protected path or below it; one that does not resolve is taken literally. -/
def deniedBy (disk : Disk) (real deny : String) : Bool :=
  match disk.canonicalize deny with
  | some denyReal => samePath real denyReal || startsWith real denyReal
  | none => samePath real deny || startsWith real deny

def insideRoot (disk : Disk) (real root : String) : Bool :=
  match disk.canonicalize root with
  | some realRoot => !samePath real realRoot && startsWith real realRoot
  | none => false

def isSafeToDelete (disk : Disk) (candidate : String) (allowRoots denyPaths : List String) : Bool :=
  match disk.isSymlink candidate with
  | none => false
  | some true => false
  | some false =>
      match disk.canonicalize candidate with
      | none => false
      | some real =>
          allowRoots.any (insideRoot disk real) && !denyPaths.any (deniedBy disk real)

structure GuardContext where
  allowRoots : List String
  protectedSet : ProtectedDenySet
  measure : String → Nat

/-- What the guard meets at a candidate: the disk, the process table and the worktree. -/
structure Moment where
  disk : Disk
  usedPct : Nat
  live : Bool
  worktree : WorktreeVerdict
  removal : Except String Unit

/-- A label may send a path to the worktree vetoes, but not keep it from them. -/
def isGitWorktree (disk : Disk) (candidate : ReclaimCandidate) : Bool :=
  candidate.kind = .trackedWorktree || (disk.entryIn candidate.path ".git").isSome

def vetCandidate (ctx : GuardContext) (moment : Moment) (candidate : ReclaimCandidate) : Verdict :=
  if ctx.protectedSet.contains moment.disk candidate.path then .reject .protectedPath
  else if !isSafeToDelete moment.disk candidate.path ctx.allowRoots ctx.protectedSet.asPaths then
    .reject .outsideAllowRoot
  else if moment.live then .reject .liveProcess
  else if isGitWorktree moment.disk candidate then
    match moment.worktree with
    | .reclaimable => .allow .gitWorktreeRemoveForce (ctx.measure candidate.path)
    | .reject reason => .reject reason
  else .allow .removeDir (ctx.measure candidate.path)

inductive ReclaimMode where
  | dryRun
  | apply
  deriving DecidableEq

structure RemovedPath where
  path : String
  kind : CandidateKind
  bytes : Nat
  primitive : ReclaimPrimitive
  deriving DecidableEq

structure ReclaimReport where
  mode : ReclaimMode
  usedPctBefore : Nat
  usedPctAfter : Nat
  targetPct : Nat
  bytesFreed : Nat
  removed : List RemovedPath
  wouldRemove : List RemovedPath
  skipped : List (String × CandidateKind × RejectReason)
  failures : List (String × String)
  deriving DecidableEq

/-- A call of the remover: the path, what the guard met, and the worktrees, by their real
paths, that were judged reclaimable by then. -/
structure RemoverCall where
  path : String
  moment : Moment
  judged : List String

/-- The loop between two candidates; `stopped` once the disk is below the target. -/
structure Reclaiming where
  report : ReclaimReport
  stopped : Bool
  judged : List String
  calls : List RemoverCall

/-- The real path of a worktree the probe clears while a candidate is vetted. -/
def judgedNow (ctx : GuardContext) (moment : Moment) (candidate : ReclaimCandidate) : List String :=
  match vetCandidate ctx moment candidate with
  | .allow .gitWorktreeRemoveForce _ => (moment.disk.canonicalize candidate.path).toList
  | _ => []

def saturatingAdd (a b : Nat) : Nat := min (a + b) (2 ^ 64 - 1)

def dispose (ctx : GuardContext) (mode : ReclaimMode) (s : Reclaiming)
    (candidate : ReclaimCandidate)
    (moment : Moment) : Reclaiming :=
  match vetCandidate ctx moment candidate with
  | .reject reason =>
      { s with report.skipped := s.report.skipped ++ [(candidate.path, candidate.kind, reason)] }
  | .allow primitive bytes =>
      let entry : RemovedPath := ⟨candidate.path, candidate.kind, bytes, primitive⟩
      let judged := s.judged ++ judgedNow ctx moment candidate
      match mode with
      | .dryRun =>
          { s with judged := judged, report.wouldRemove := s.report.wouldRemove ++ [entry] }
      | .apply =>
          let s := { s with
            judged := judged, calls :=
              s.calls ++ [(⟨candidate.path, moment, judged⟩ : RemoverCall)] }
          match moment.removal with
          | .ok _ =>
              { s with
                report.bytesFreed := saturatingAdd s.report.bytesFreed bytes
                report.removed := s.report.removed ++ [entry] }
          | .error e =>
              { s with report.failures := s.report.failures ++ [(candidate.path, e)] }

/-- The disk is looked at before each candidate, unless nothing will be removed. -/
def reclaiming (ctx : GuardContext) (mode : ReclaimMode) (targetPct : Nat) :
    Machine Reclaiming (ReclaimCandidate × Moment) where
  step s event :=
    if s.stopped then s
    else if mode = .apply then
      let s := { s with report.usedPctAfter := event.2.usedPct }
      if event.2.usedPct ≤ targetPct then { s with stopped := true }
      else dispose ctx mode s event.1 event.2
    else dispose ctx mode s event.1 event.2

def largestFirst (ctx : GuardContext) (candidates : List ReclaimCandidate) :
    List ReclaimCandidate :=
  candidates.mergeSort fun a b => ctx.measure b.path ≤ ctx.measure a.path

def startReclaim (mode : ReclaimMode) (targetPct usedPct : Nat) : Reclaiming :=
  ⟨⟨mode, usedPct, usedPct, targetPct, 0, [], [], [], []⟩, false, [], []⟩

def meetings (ctx : GuardContext) (candidates : List ReclaimCandidate) (moments : Nat → Moment) :
    List (ReclaimCandidate × Moment) :=
  (largestFirst ctx candidates).zipIdx.map fun (candidate, i) => (candidate, moments i)

def execReclaim (ctx : GuardContext) (mode : ReclaimMode) (targetPct usedBefore usedAfter : Nat)
    (moments : Nat → Moment) (candidates : List ReclaimCandidate) : Reclaiming :=
  let s := (reclaiming ctx mode targetPct).run
    (startReclaim mode targetPct usedBefore) (meetings ctx candidates moments)
  { s with report.usedPctAfter := usedAfter }

/-- The real path of a protected path, which is taken literally when it has none. -/
def denyReal (disk : Disk) (deny : String) : String := (disk.canonicalize deny).getD deny

/-- No link, strictly inside an allowed root, apart from every protected path, without a
live process, and every repository in it judged reclaimable. -/
structure SafeCall (ctx : GuardContext) (call : RemoverCall) : Prop where
  notSymlink : call.moment.disk.isSymlink call.path = some false
  inside : ∃ real, call.moment.disk.canonicalize call.path = some real ∧
    (∃ root ∈ ctx.allowRoots, ∃ realRoot, call.moment.disk.canonicalize root = some realRoot ∧
      samePath real realRoot = false ∧ startsWith real realRoot = true) ∧
    (∀ deny ∈ ctx.protectedSet.asPaths,
      startsWith real (denyReal call.moment.disk deny) = false ∧
      startsWith (denyReal call.moment.disk deny) real = false) ∧
    ∀ dir, startsWith dir real = true → (call.moment.disk.entry dir ".git").isSome →
      dir ∈ call.judged
  idle : call.moment.live = false

/-- Nothing protected and no repository that was not judged lies below a path that passes
the rails. -/
def SparesBelow (ctx : GuardContext) (judged : List String) (candidate : ReclaimCandidate)
    (moment : Moment) : Prop :=
  ∀ primitive bytes real, vetCandidate ctx moment candidate = .allow primitive bytes →
    moment.disk.canonicalize candidate.path = some real →
    (∀ deny ∈ ctx.protectedSet.asPaths, startsWith (denyReal moment.disk deny) real = false) ∧
    ∀ dir, dir ≠ real → startsWith dir real = true → (moment.disk.entry dir ".git").isSome →
      dir ∈ judged

section Rails

variable {ctx : GuardContext} {moment : Moment} {candidate : ReclaimCandidate}

theorem deniedBy_eq (disk : Disk) (real deny : String) :
    deniedBy disk real deny = startsWith real (denyReal disk deny) := by
  have hsame (other : String) : (samePath real other || startsWith real other) =
      startsWith real other := by
    cases hother : samePath real other with
    | false => rfl
    | true => rw [startsWith_of_samePath hother]; rfl
  unfold deniedBy denyReal
  cases disk.canonicalize deny with
  | none => exact hsame deny
  | some found => exact hsame found

theorem isSafeToDelete_iff {disk : Disk} {path : String} {allowRoots denyPaths : List String} :
    isSafeToDelete disk path allowRoots denyPaths = true ↔
      disk.isSymlink path = some false ∧ ∃ real, disk.canonicalize path = some real ∧
        (∃ root ∈ allowRoots, ∃ realRoot, disk.canonicalize root = some realRoot ∧
          samePath real realRoot = false ∧ startsWith real realRoot = true) ∧
        ∀ deny ∈ denyPaths, startsWith real (denyReal disk deny) = false := by
  have hinside (real root : String) : insideRoot disk real root = true ↔
      ∃ realRoot, disk.canonicalize root = some realRoot ∧
        samePath real realRoot = false ∧ startsWith real realRoot = true := by
    unfold insideRoot
    cases disk.canonicalize root <;> simp
  unfold isSafeToDelete
  rcases disk.isSymlink path with _ | (_ | _)
  · simp
  · cases disk.canonicalize path with
    | none => simp
    | some real => simp [hinside, deniedBy_eq]
  · simp

theorem vetCandidate_allow {primitive : ReclaimPrimitive} {bytes : Nat}
    (h : vetCandidate ctx moment candidate = .allow primitive bytes) :
    isSafeToDelete moment.disk candidate.path ctx.allowRoots ctx.protectedSet.asPaths = true ∧
      moment.live = false ∧
      (isGitWorktree moment.disk candidate = true → primitive = .gitWorktreeRemoveForce) := by
  unfold vetCandidate at h
  split at h
  · cases h
  split at h
  · cases h
  next hsafe =>
    split at h
    · cases h
    next hidle =>
      refine ⟨by simpa using hsafe, Bool.eq_false_iff.mpr hidle, fun hgit => ?_⟩
      rw [if_pos hgit] at h
      split at h
      · cases h
        rfl
      · cases h

theorem safeCall_iff {primitive : ReclaimPrimitive} {bytes : Nat}
    (h : vetCandidate ctx moment candidate = .allow primitive bytes) (judged : List String) :
    SafeCall ctx ⟨candidate.path, moment, judged ++ judgedNow ctx moment candidate⟩ ↔
      SparesBelow ctx judged candidate moment := by
  obtain ⟨hsafe, hidle, hgit⟩ := vetCandidate_allow h
  obtain ⟨hlink, real, hreal, hroot, hdeny⟩ := isSafeToDelete_iff.mp hsafe
  have hjudged : judgedNow ctx moment candidate =
      if primitive = .gitWorktreeRemoveForce then [real] else [] := by
    unfold judgedNow
    rw [h, hreal]
    cases primitive <;> rfl
  constructor
  · rintro ⟨-, ⟨real', hreal', -, hapart, hnested⟩, -⟩ _ _ found - hfound
    dsimp only at hreal' hnested hapart
    rw [hreal'] at hfound
    cases hfound
    refine ⟨fun deny hmem => (hapart deny hmem).2, fun dir hother hbelow hentry => ?_⟩
    rcases List.mem_append.mp (hnested dir hbelow hentry) with hbefore | hnow
    · exact hbefore
    · rw [hreal] at hreal'
      cases hreal'
      rw [hjudged] at hnow
      split at hnow
      · exact absurd (List.mem_singleton.mp hnow) hother
      · cases hnow
  · intro hspares
    obtain ⟨hbelow, hnested⟩ := hspares primitive bytes real h hreal
    refine ⟨hlink, ⟨real, hreal, hroot, fun deny hmem => ⟨hdeny deny hmem, hbelow deny hmem⟩, ?_⟩,
      hidle⟩
    intro dir hdir hentry
    refine List.mem_append.mpr ?_
    by_cases hown : dir = real
    · subst hown
      have hworktree : isGitWorktree moment.disk candidate = true := by
        unfold isGitWorktree Disk.entryIn
        rw [hreal]
        simp [hentry]
      rw [hjudged, if_pos (hgit hworktree)]
      exact .inr List.mem_cons_self
    · exact .inl (hnested dir hown hdir hentry)

end Rails

theorem calls_step (ctx : GuardContext) (mode : ReclaimMode) (targetPct : Nat) (s : Reclaiming)
    (event : ReclaimCandidate × Moment) :
    (((reclaiming ctx mode targetPct).step s event).calls = s.calls ∧
      ¬ (mode = .apply ∧ s.stopped = false ∧ targetPct < event.2.usedPct ∧
        ∃ primitive bytes, vetCandidate ctx event.2 event.1 = .allow primitive bytes)) ∨
    (((reclaiming ctx mode targetPct).step s event).calls = s.calls ++
        [⟨event.1.path, event.2, s.judged ++ judgedNow ctx event.2 event.1⟩] ∧
      mode = .apply ∧ s.stopped = false ∧ targetPct < event.2.usedPct ∧
        ∃ primitive bytes, vetCandidate ctx event.2 event.1 = .allow primitive bytes) := by
  unfold reclaiming
  dsimp only
  split
  next hstopped => exact .inl ⟨rfl, fun h => by rw [hstopped] at h; cases h.2.1⟩
  next hrunning =>
    split
    next hmode =>
      split
      next hlow => exact .inl ⟨rfl, fun h => absurd h.2.2.1 (Nat.not_lt.mpr hlow)⟩
      next hhigh =>
        unfold dispose
        cases hvet : vetCandidate ctx event.2 event.1 with
        | reject reason => exact .inl ⟨rfl, by simp⟩
        | allow primitive bytes =>
          refine .inr ⟨?_, hmode, Bool.eq_false_iff.mpr hrunning, Nat.not_le.mp hhigh, _, _, rfl⟩
          subst hmode
          dsimp only
          cases event.2.removal <;> rfl
    next hmode =>
      refine .inl ⟨?_, fun h => hmode h.1⟩
      unfold dispose
      cases vetCandidate ctx event.2 event.1 with
      | reject reason => rfl
      | allow primitive bytes =>
        cases mode with
        | dryRun => rfl
        | apply => exact absurd rfl hmode

/-- Everything the remover is called on is safe to remove, exactly if below no path that
passes the rails lies anything protected or a repository that was not judged; and a dry
run calls it on nothing. -/
theorem removals_safe_iff (ctx : GuardContext) (mode : ReclaimMode)
    (targetPct usedBefore usedAfter : Nat) (moments : Nat → Moment)
    (candidates : List ReclaimCandidate) :
    ((∀ call ∈ (execReclaim ctx mode targetPct usedBefore usedAfter moments candidates).calls,
        SafeCall ctx call) ↔
      ∀ t ∈ (reclaiming ctx mode targetPct).trace (startReclaim mode targetPct usedBefore)
          (meetings ctx candidates moments),
        mode = .apply → t.before.stopped = false → targetPct < t.event.2.usedPct →
          SparesBelow ctx t.before.judged t.event.1 t.event.2) ∧
      (mode = .dryRun →
        (execReclaim ctx mode targetPct usedBefore usedAfter moments candidates).calls = []) := by
  constructor
  · have hstep (s : Reclaiming) (event : ReclaimCandidate × Moment) :
        (∀ call ∈ ((reclaiming ctx mode targetPct).step s event).calls, SafeCall ctx call) ↔
          (∀ call ∈ s.calls, SafeCall ctx call) ∧
            (mode = .apply → s.stopped = false → targetPct < event.2.usedPct →
              SparesBelow ctx s.judged event.1 event.2) := by
      rcases calls_step ctx mode targetPct s event with
        ⟨hsame, hnone⟩ | ⟨hcalled, hmode, hrunning, hhigh, primitive, bytes, hvet⟩
      · rw [hsame]
        refine ⟨fun h => ⟨h, ?_⟩, And.left⟩
        intro hmode hrunning hhigh primitive bytes _ hvet
        exact absurd ⟨hmode, hrunning, hhigh, primitive, bytes, hvet⟩ hnone
      · rw [hcalled, List.forall_mem_append, List.forall_mem_singleton, safeCall_iff hvet]
        exact and_congr_right fun _ => ⟨fun h _ _ _ => h, fun h => h hmode hrunning hhigh⟩
    have hrun := (reclaiming ctx mode targetPct).run_iff
      (P := fun s => ∀ call ∈ s.calls, SafeCall ctx call) hstep
      (startReclaim mode targetPct usedBefore) (meetings ctx candidates moments)
    refine hrun.trans ?_
    simp [startReclaim]
  · intro hmode
    refine (reclaiming ctx mode targetPct).invariant_run (P := fun s => s.calls = []) ?_ rfl _
    intro s event h
    rcases calls_step ctx mode targetPct s event with ⟨hsame, -⟩ | ⟨-, happly, -⟩
    · rw [hsame, h]
    · rw [hmode] at happly
      cases happly

/-- The daemon's worktree, two levels below a directory that is no repository itself. -/
def nestedDisk : Disk where
  canonicalize path :=
    if path ∈ ["/src", "/src/proj", "/src/proj/worktrees/main"] then some path else none
  isSymlink path :=
    if path ∈ ["/src", "/src/proj", "/src/proj/worktrees/main"] then some false else none
  entry dir name := if dir = "/src/proj/worktrees/main" ∧ name = ".git" then some false else none

def nestedContext : GuardContext where
  allowRoots := ["/src"]
  protectedSet := .fromPaths nestedDisk ["/src/proj/worktrees/main"]
  measure _ := 1

def fullDisk : Moment := ⟨nestedDisk, 95, false, .reject .uncommittedOrUnpushed, .ok ()⟩

theorem protected_worktree_removed :
    ¬ ∀ call ∈ (execReclaim nestedContext .apply 80 95 40 (fun _ => fullDisk)
      [⟨"/src/proj", .orphanDir⟩]).calls, SafeCall nestedContext call := by
  intro h
  have hmeetings : meetings nestedContext [⟨"/src/proj", .orphanDir⟩] (fun _ => fullDisk) =
      [(⟨"/src/proj", .orphanDir⟩, fullDisk)] := by simp [meetings, largestFirst]
  have hvet : vetCandidate nestedContext fullDisk ⟨"/src/proj", .orphanDir⟩ =
      .allow .removeDir 1 := by decide
  unfold execReclaim at h
  rw [hmeetings] at h
  change ∀ call ∈ ((reclaiming nestedContext .apply 80).step (startReclaim .apply 80 95)
    (⟨"/src/proj", .orphanDir⟩, fullDisk)).calls, SafeCall nestedContext call at h
  rcases calls_step nestedContext .apply 80 (startReclaim .apply 80 95)
    (⟨"/src/proj", .orphanDir⟩, fullDisk) with ⟨-, hnone⟩ | ⟨hcalls, -⟩
  · exact hnone ⟨rfl, rfl, by decide, _, _, hvet⟩
  · rw [hcalls] at h
    have hsafe := h _ (List.mem_append_right _ List.mem_cons_self)
    obtain ⟨real, hreal, -, hapart, -⟩ := hsafe.inside
    have hfound : fullDisk.disk.canonicalize "/src/proj" = some "/src/proj" := by decide
    rw [hfound] at hreal
    cases hreal
    have hbelow := (hapart "/src/proj/worktrees/main" (by decide)).2
    revert hbelow
    decide

end Simard.Disk
