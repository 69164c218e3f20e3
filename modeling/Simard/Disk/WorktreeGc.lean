import Simard.Library.Action
import Simard.Library.Files

/-! Garbage collection of worktrees: the listing of the repository is filtered to the
configured roots, each worktree judged by what git, the hosting service and the process
table say, and the candidates are removed together with their branches. -/
namespace Simard.Disk
open Simard.Library Action

structure WorktreeEntry where
  path : String
  head : Option String
  branch : Option String
  isBare : Bool
  isDetached : Bool
  deriving DecidableEq

def WorktreeEntry.blank : WorktreeEntry := ⟨"", none, none, false, false⟩

def WorktreeEntry.line (entry : WorktreeEntry) (line : List Char) : WorktreeEntry :=
  match stripPrefix "worktree ".toList line with
  | some rest => { entry with path := String.ofList rest }
  | none =>
  match stripPrefix "HEAD ".toList line with
  | some rest => { entry with head := some (String.ofList rest) }
  | none =>
  match stripPrefix "branch ".toList line with
  | some rest =>
      { entry with
        branch := some (String.ofList ((stripPrefix "refs/heads/".toList rest).getD rest)) }
  | none =>
  if line = "bare".toList then { entry with isBare := true }
  else if line = "detached".toList then { entry with isDetached := true }
  else entry

/-- The entry under way, if it has a path, joins those that are complete. -/
def flush (entries : List WorktreeEntry) (current : Option WorktreeEntry) : List WorktreeEntry :=
  match current with
  | some entry => if entry.path = "" then entries else entries ++ [entry]
  | none => entries

def parseWorktreeList (input : String) : List WorktreeEntry :=
  let (entries, current) := (lines input.toList).foldl (fun (entries, current) line =>
    if line = [] then (flush entries current, none)
    else (entries, some ((current.getD .blank).line line))) ([], none)
  flush entries current

inductive PruneReason where
  | branchMerged (prNumbers : List Nat)
  | branchDeletedFromOrigin
  | idleTooLong (ageDays : Nat)
  deriving DecidableEq

structure GcCandidate where
  path : String
  branch : Option String
  reasons : List PruneReason
  deriving DecidableEq

structure CandidateInputs where
  mergedPrs : List Nat
  branchOnOrigin : Option Bool
  lastActivity : Option Int
  hasLiveProcess : Bool
  hasUncommittedOrUnpushedWork : Bool
  deriving DecidableEq

def idleReason (now : Int) (idleDays : UInt64) (lastActivity : Option Int) : List PruneReason :=
  match lastActivity with
  | none => []
  | some activity =>
      let age := now - activity
      let threshold : Int := (idleDays * 24 * 60 * 60).toNat * 1000000000
      if 0 ≤ age ∧ threshold ≤ age then
        [.idleTooLong ((age / 1000000000).toNat / (24 * 60 * 60))]
      else []

def evaluateCandidate (entry : WorktreeEntry) (inputs : CandidateInputs) (now : Int)
    (idleDays : UInt64) : Option GcCandidate :=
  if entry.isBare then none
  else if inputs.hasLiveProcess then none
  else if inputs.hasUncommittedOrUnpushedWork then none
  else
    let reasons :=
      (if inputs.mergedPrs.isEmpty then [] else [.branchMerged inputs.mergedPrs]) ++
      (if entry.branch.isSome && inputs.branchOnOrigin = some false then
        [.branchDeletedFromOrigin] else []) ++
      idleReason now idleDays inputs.lastActivity
    if reasons.isEmpty then none else some ⟨entry.path, entry.branch, reasons⟩

abbrev Commit := String

/-- What `@{u}` stands for: a remote-tracking ref by its tip, or a local branch. -/
inductive Upstream where
  | tracking (tip : Commit)
  | localBranch (name : String)
  deriving DecidableEq

/-- A worktree as it is when the collector looks at it: the lines of `git status`, or why
there are none, what is checked out, whether a process is in it, and its last activity. -/
structure Checkout where
  changes : Except String (List String)
  head : Commit
  upstream : Option Upstream
  live : Bool
  lastActivity : Option Int

/-- The commits a commit reaches, local branches by name, all other local refs (tags and
remote-tracking refs), the branches of remotes and the heads of merged pull requests. -/
structure Repository where
  history : Commit → Finset Commit
  branches : String → Option Commit
  refs : List Commit
  remotes : List Commit
  mergedHeads : List Commit
  checkout : String → Checkout
  tracked : ∀ path tip, (checkout path).upstream = some (.tracking tip) → tip ∈ refs

/-- `git rev-list --count @{u}..HEAD`. -/
def Repository.aheadOfUpstream (repo : Repository) (tree : Checkout) : Except String Nat :=
  let count (tip : Commit) := (repo.history tree.head \ repo.history tip).card
  match tree.upstream with
  | none => .error "no upstream configured"
  | some (.tracking tip) => .ok (count tip)
  | some (.localBranch name) =>
      match repo.branches name with
      | some tip => .ok (count tip)
      | none => .error "no such branch"

structure GhClient where
  mergedPrsForBranch : String → Except String (List Nat)
  branchExistsOnRemote : String → String → Except String (Option Bool)

def defaultRemote : String := "origin"

def worktreeHasUncommittedOrUnpushedWork (repo : Repository) (dir : String) : Bool :=
  match (repo.checkout dir).changes with
  | .ok (_ :: _) => true
  | .error _ => true
  | .ok [] =>
      match repo.aheadOfUpstream (repo.checkout dir) with
      | .ok count => count ≠ 0
      | .error _ => false

def gatherInputs (repo : Repository) (gh : GhClient) (entry : WorktreeEntry) : CandidateInputs :=
  let tree := repo.checkout entry.path
  let work := worktreeHasUncommittedOrUnpushedWork repo entry.path
  if tree.live || work then ⟨[], none, tree.lastActivity, tree.live, work⟩
  else
    let mergedPrs := match entry.branch with
      | some branch =>
          match gh.mergedPrsForBranch branch with
          | .ok numbers => numbers
          | .error _ => []
      | none => []
    let branchOnOrigin := match entry.branch with
      | some branch =>
          match gh.branchExistsOnRemote defaultRemote branch with
          | .ok answer => answer
          | .error _ => none
      | none => none
    ⟨mergedPrs, branchOnOrigin, tree.lastActivity, tree.live, work⟩

def underAnyRoot (disk : Disk) (dir : String) (roots : List String) : Bool :=
  match disk.canonicalize dir with
  | none => false
  | some real => roots.any fun root =>
      match disk.canonicalize root with
      | some realRoot => startsWith real realRoot
      | none => false

structure GcConfig where
  roots : List String
  apply : Bool
  idleDays : UInt64
  now : Int

structure Files where
  disk : Disk
  branches : String → Option Commit

abbrev GcAction := Action Files String

/-- How the commands of a removal go: whether git removes the worktree, what
`remove_dir_all` complains of, and whether git deletes the branch. -/
structure Commands where
  worktreeRemove : String → Bool
  removeDirAll : String → Option String
  branchDelete : String → Bool

def Files.deleteBranch (files : Files) (branch : String) : Files :=
  { files with branches := Function.update files.branches branch none }

def Files.removeDir (files : Files) (real : String) : Files :=
  { files with disk := files.disk.without real }

/-- Git first; what is left of the directory then is removed by hand. -/
def removeWorktree (commands : Commands) (roots : List String) (dir : String) : GcAction Unit := do
  let files ← get
  match files.disk.canonicalize dir with
  | none => return
  | some real =>
      if commands.worktreeRemove dir then set (files.removeDir real)
      else if underAnyRoot files.disk dir roots then
        match commands.removeDirAll real with
        | none => set (files.removeDir real)
        | some e => check (.error ("rm -rf " ++ real ++ " failed: " ++ e))
      else check (.error ("refusing to rmdir " ++ dir ++ " (canonical " ++ real ++
        "): not contained in any GC root"))

def pruneCandidate (commands : Commands) (roots : List String) (candidate : GcCandidate) :
    GcAction Unit := do
  let files ← get
  check (if underAnyRoot files.disk candidate.path roots then .ok ()
    else .error ("refusing to prune " ++ candidate.path ++ " — not under configured roots"))
  removeWorktree commands roots candidate.path
  match candidate.branch with
  | some branch => if commands.branchDelete branch then modify (·.deleteBranch branch)
  | none => return

structure GcReport where
  rootsScanned : List String
  worktreesExamined : Nat
  candidates : List GcCandidate
  pruned : List String
  failures : List (String × String)
  deriving DecidableEq

def pruneNext (commands : Commands) (roots : List String) (report : GcReport)
    (candidate : GcCandidate) : GcAction GcReport := do
  match ← Action.attempt (pruneCandidate commands roots candidate) with
  | .ok _ => return { report with pruned := report.pruned ++ [candidate.path] }
  | .error e => return { report with failures := report.failures ++ [(candidate.path, e)] }

def examined (cfg : GcConfig) (disk : Disk) (entries : List WorktreeEntry) : List WorktreeEntry :=
  entries.filter fun entry => !entry.isBare && underAnyRoot disk entry.path cfg.roots

def candidates (repo : Repository) (gh : GhClient) (cfg : GcConfig) (disk : Disk)
    (entries : List WorktreeEntry) : List GcCandidate :=
  (examined cfg disk entries).filterMap fun entry =>
    evaluateCandidate entry (gatherInputs repo gh entry) cfg.now cfg.idleDays

def runGc (repo : Repository) (gh : GhClient) (commands : Commands) (cfg : GcConfig)
    (listing : Except String String) : GcAction GcReport := do
  let raw ← check (listing.mapError ("git worktree list failed: " ++ ·))
  let files ← get
  let entries := parseWorktreeList raw
  let found := candidates repo gh cfg files.disk entries
  let report : GcReport := ⟨cfg.roots, (examined cfg files.disk entries).length, found, [], []⟩
  if cfg.apply then found.foldlM (pruneNext commands cfg.roots) report else return report

end Simard.Disk
