import Simard.Disk.WorktreeGc

/-! What a collection of worktrees loses. A removal takes everything in the directory, also
worktrees below it; the collector looks at the worktree alone, trusts an upstream where
there is one, and where there is none takes idleness and absence from the remote for proof
that nothing is lost. -/
namespace Simard.Disk
open Simard.Library Action

def removable (commands : Commands) (real : String) (candidate : GcCandidate) : Bool :=
  commands.worktreeRemove candidate.path || (commands.removeDirAll real).isNone

def Rooted (disk : Disk) (roots : List String) (candidate : GcCandidate) : Prop :=
  (disk.canonicalize candidate.path).isSome → underAnyRoot disk candidate.path roots = true

def Files.pruned (commands : Commands) (candidate : GcCandidate) (real : String) (files : Files) :
    Files :=
  match candidate.branch with
  | some branch =>
      if commands.branchDelete branch then (files.removeDir real).deleteBranch branch
      else files.removeDir real
  | none => files.removeDir real

section Removal

variable {commands : Commands} {roots : List String} {candidate : GcCandidate} {files : Files}

theorem pruneCandidate_gone (h : files.disk.canonicalize candidate.path = none) :
    (call (pruneCandidate commands roots candidate) files).2 = files := by
  unfold pruneCandidate underAnyRoot
  rw [call_get_bind, h]
  rfl

theorem removeWorktree_call (hrooted : Rooted files.disk roots candidate) {real : String}
    (h : files.disk.canonicalize candidate.path = some real) :
    (removable commands real candidate = true ∧
      call (removeWorktree commands roots candidate.path) files = (.ok (), files.removeDir real)) ∨
    (removable commands real candidate = false ∧
      ∃ e, call (removeWorktree commands roots candidate.path) files = (.error e, files)) := by
  have hunder : underAnyRoot files.disk candidate.path roots = true := hrooted (by rw [h]; rfl)
  unfold removeWorktree removable
  rw [call_get_bind, h]
  dsimp only
  rw [if_pos hunder]
  cases commands.worktreeRemove candidate.path with
  | true => exact .inl ⟨rfl, rfl⟩
  | false =>
    cases commands.removeDirAll real with
    | none => exact .inl ⟨rfl, rfl⟩
    | some e => exact .inr ⟨rfl, _, rfl⟩

theorem pruneCandidate_there (hrooted : Rooted files.disk roots candidate) {real : String}
    (h : files.disk.canonicalize candidate.path = some real) :
    (call (pruneCandidate commands roots candidate) files).2 =
      if removable commands real candidate then
        files.pruned commands candidate real else files := by
  have hunder : underAnyRoot files.disk candidate.path roots = true := hrooted (by rw [h]; rfl)
  unfold pruneCandidate Files.pruned
  rw [call_get_bind, if_pos hunder, call_check_ok, call_bind]
  rcases @removeWorktree_call commands roots candidate files hrooted real h with
    ⟨hremovable, hcall⟩ | ⟨hstays, e, hcall⟩
  · rw [hcall, if_pos hremovable]
    cases candidate.branch with
    | none => rfl
    | some branch =>
      dsimp only
      split <;> rfl
  · rw [hcall, hstays]
    rfl

/-- Some candidate that is removed lies at or above the path. -/
def enclosed (commands : Commands) (disk : Disk) (candidates : List GcCandidate) (real : String) :
    Bool :=
  candidates.any fun candidate =>
    match disk.canonicalize candidate.path with
    | some dir => removable commands dir candidate && startsWith real dir
    | none => false

/-- A branch is deleted with its candidate, unless an earlier removal took the directory. -/
def DeletesBranch (commands : Commands) (disk : Disk) (candidates : List GcCandidate)
    (branch : String) : Prop :=
  commands.branchDelete branch = true ∧ ∃ before candidate after real,
    candidates = before ++ candidate :: after ∧ candidate.branch = some branch ∧
      disk.canonicalize candidate.path = some real ∧
      removable commands real candidate = true ∧ enclosed commands disk before real = false

def sweep (commands : Commands) (roots : List String) (candidates : List GcCandidate)
    (files : Files) : Files :=
  candidates.foldl (fun files candidate =>
    (call (pruneCandidate commands roots candidate) files).2) files

theorem foldlM_pruneNext (candidates : List GcCandidate) (report : GcReport) (files : Files) :
    (call (candidates.foldlM (pruneNext commands roots) report) files).2 =
      sweep commands roots candidates files := by
  induction candidates generalizing report files with
  | nil => rfl
  | cons candidate rest ih =>
    have hnext : ∃ report', call (pruneNext commands roots report candidate) files =
        (.ok report', (call (pruneCandidate commands roots candidate) files).2) := by
      unfold pruneNext
      rw [call_attempt_bind]
      cases (call (pruneCandidate commands roots candidate) files).1 <;> exact ⟨_, rfl⟩
    obtain ⟨report', hnext⟩ := hnext
    rw [List.foldlM_cons, call_bind, hnext]
    exact ih report' _

theorem enclosed_without {disk : Disk} {dir real : String} (h : startsWith real dir = false)
    (candidates : List GcCandidate) :
    enclosed commands (disk.without dir) candidates real =
      enclosed commands disk candidates real := by
  unfold enclosed
  congr 1
  funext candidate
  rw [Disk.canonicalize_without]
  cases disk.canonicalize candidate.path with
  | none => rfl
  | some found =>
    by_cases hinside : startsWith found dir = true
    · have houtside : startsWith real found = false := by
        rw [Bool.eq_false_iff]
        intro hfound
        rw [startsWith_trans hfound hinside] at h
        cases h
      simp [Option.filter_some, hinside, houtside]
    · simp [Option.filter_some, hinside]

theorem Rooted.without {disk : Disk} (h : Rooted disk roots candidate) (dir : String) :
    Rooted (disk.without dir) roots candidate := by
  unfold Rooted underAnyRoot at *
  rw [Disk.canonicalize_without]
  intro hthere
  obtain ⟨real, hreal⟩ := Option.isSome_iff_exists.mp hthere
  obtain ⟨hfound, houtside⟩ := Option.filter_eq_some_iff.mp hreal
  have hunder := h (by rw [hfound]; rfl)
  rw [hfound] at hunder
  rw [hreal]
  obtain ⟨root, hroot, hinside⟩ := List.any_eq_true.mp hunder
  refine List.any_eq_true.mpr ⟨root, hroot, ?_⟩
  rw [Disk.canonicalize_without]
  cases hcanonical : disk.canonicalize root with
  | none =>
    rw [hcanonical] at hinside
    cases hinside
  | some realRoot =>
    rw [hcanonical] at hinside
    have hkept : startsWith realRoot dir = false := by
      rw [Bool.eq_false_iff]
      intro hgone
      rw [startsWith_trans hinside hgone] at houtside
      cases houtside
    simpa [Option.filter_some, hkept] using hinside

theorem disk_pruned (commands : Commands) (candidate : GcCandidate)
    (real : String) (files : Files) :
    (files.pruned commands candidate real).disk = files.disk.without real := by
  unfold Files.pruned
  split
  · split <;> rfl
  · rfl

theorem canonicalize_sweep (candidates : List GcCandidate) (files : Files)
    (hrooted : ∀ candidate ∈ candidates, Rooted files.disk roots candidate) (path : String) :
    (sweep commands roots candidates files).disk.canonicalize path =
      (files.disk.canonicalize path).filter fun real =>
        !enclosed commands files.disk candidates real := by
  induction candidates generalizing files with
  | nil =>
    cases hthere : files.disk.canonicalize path <;>
      simp [sweep, enclosed, hthere, Option.filter_some]
  | cons candidate rest ih =>
    have hfirst := hrooted candidate List.mem_cons_self
    have hrest := fun other hother => hrooted other (List.mem_cons_of_mem _ hother)
    change (sweep commands roots rest
      (call (pruneCandidate commands roots candidate) files).2).disk.canonicalize path = _
    have hcons (real : String) : enclosed commands files.disk (candidate :: rest) real =
        ((match files.disk.canonicalize candidate.path with
          | some dir => removable commands dir candidate && startsWith real dir
          | none => false) || enclosed commands files.disk rest real) := List.any_cons
    simp only [hcons]
    cases hthere : files.disk.canonicalize candidate.path with
    | none =>
      rw [pruneCandidate_gone hthere, ih files hrest]
      simp
    | some dir =>
      rw [pruneCandidate_there hfirst hthere]
      cases hremovable : removable commands dir candidate with
      | false =>
        rw [if_neg Bool.false_ne_true, ih files hrest]
        simp [hremovable]
      | true =>
        rw [if_pos rfl]
        have hkept : ∀ other ∈ rest,
            Rooted (files.pruned commands candidate dir).disk roots other := by
          intro other hother
          rw [disk_pruned]
          exact (hrest other hother).without dir
        rw [ih _ hkept, disk_pruned, Disk.canonicalize_without, Option.filter_filter]
        congr 1
        funext real
        cases hinside : startsWith real dir with
        | true => simp [hremovable, hinside]
        | false => simp [hinside, enclosed_without hinside]

theorem branches_pruned {real branch tip : String} :
    (files.pruned commands candidate real).branches branch = some tip ↔
      files.branches branch = some tip ∧
        ¬ (commands.branchDelete branch = true ∧ candidate.branch = some branch) := by
  unfold Files.pruned
  cases hown : candidate.branch with
  | none => simp [Files.removeDir]
  | some name =>
    by_cases hname : branch = name
    · subst hname
      cases hdelete : commands.branchDelete branch <;>
        simp [hdelete, Files.removeDir, Files.deleteBranch]
    · have hother : ¬ name = branch := fun heq => hname heq.symm
      cases hdelete : commands.branchDelete name <;>
        simp [hdelete, Files.removeDir, Files.deleteBranch, hname, hother]

theorem deletesBranch_cons {disk : Disk} {rest : List GcCandidate} {branch : String} :
    DeletesBranch commands disk (candidate :: rest) branch ↔
      commands.branchDelete branch = true ∧
        ((candidate.branch = some branch ∧ ∃ real, disk.canonicalize candidate.path = some real ∧
            removable commands real candidate = true) ∨
          ∃ before other after real, rest = before ++ other :: after ∧ other.branch = some branch ∧
            disk.canonicalize other.path = some real ∧ removable commands real other = true ∧
            enclosed commands disk (candidate :: before) real = false) := by
  unfold DeletesBranch
  refine and_congr_right fun _ => ?_
  constructor
  · rintro ⟨before, other, after, real, hsplit, hbranch, hreal, hremovable, hfree⟩
    rcases List.cons_eq_append_iff.mp hsplit with ⟨rfl, hsame⟩ | ⟨before', rfl, hrest⟩
    · cases hsame
      exact .inl ⟨hbranch, real, hreal, hremovable⟩
    · exact .inr ⟨before', other, after, real, hrest, hbranch, hreal, hremovable, hfree⟩
  · rintro (⟨hbranch, real, hreal, hremovable⟩ | ⟨before, other, after, real, rfl, h⟩)
    · exact ⟨[], candidate, rest, real, rfl, hbranch, hreal, hremovable, rfl⟩
    · exact ⟨candidate :: before, other, after, real, rfl, h⟩

theorem deletesBranch_without {disk : Disk} {dir : String} {rest : List GcCandidate}
    {branch : String} :
    DeletesBranch commands (disk.without dir) rest branch ↔
      commands.branchDelete branch = true ∧ ∃ before other after real,
        rest = before ++ other :: after ∧ other.branch = some branch ∧
          disk.canonicalize other.path = some real ∧ removable commands real other = true ∧
          (startsWith real dir || enclosed commands disk before real) = false := by
  unfold DeletesBranch
  refine and_congr_right fun _ => ?_
  constructor
  · rintro ⟨before, other, after, real, hsplit, hbranch, hreal, hremovable, hfree⟩
    rw [Disk.canonicalize_without] at hreal
    obtain ⟨hreal, houtside⟩ := Option.filter_eq_some_iff.mp hreal
    rw [Bool.not_eq_true'] at houtside
    rw [enclosed_without houtside] at hfree
    exact ⟨before, other, after, real, hsplit, hbranch, hreal,
      hremovable, by simp [houtside, hfree]⟩
  · rintro ⟨before, other, after, real, hsplit, hbranch, hreal, hremovable, hfree⟩
    rw [Bool.or_eq_false_iff] at hfree
    refine ⟨before, other, after, real, hsplit, hbranch, ?_, hremovable, ?_⟩
    · rw [Disk.canonicalize_without, hreal]
      simp [Option.filter_some, hfree.1]
    · rw [enclosed_without hfree.1]
      exact hfree.2

theorem branches_sweep (candidates : List GcCandidate) (files : Files)
    (hrooted : ∀ candidate ∈ candidates, Rooted files.disk roots candidate) (branch tip : String) :
    (sweep commands roots candidates files).branches branch = some tip ↔
      files.branches branch = some tip ∧ ¬ DeletesBranch commands files.disk candidates branch := by
  induction candidates generalizing files with
  | nil => simp [sweep, DeletesBranch]
  | cons candidate rest ih =>
    have hfirst := hrooted candidate List.mem_cons_self
    have hrest := fun other hother => hrooted other (List.mem_cons_of_mem _ hother)
    change (sweep commands roots rest
      (call (pruneCandidate commands roots candidate) files).2).branches branch = some tip ↔ _
    rw [deletesBranch_cons]
    have hcons (before : List GcCandidate) (real : String) :
        enclosed commands files.disk (candidate :: before) real =
        ((match files.disk.canonicalize candidate.path with
          | some dir => removable commands dir candidate && startsWith real dir
          | none => false) || enclosed commands files.disk before real) := List.any_cons
    simp only [hcons]
    cases hthere : files.disk.canonicalize candidate.path with
    | none =>
      rw [pruneCandidate_gone hthere, ih files hrest]
      simp [DeletesBranch]
    | some dir =>
      rw [pruneCandidate_there hfirst hthere]
      cases hremovable : removable commands dir candidate with
      | false =>
        rw [if_neg Bool.false_ne_true, ih files hrest]
        simp [DeletesBranch, hremovable]
      | true =>
        rw [if_pos rfl]
        have hkept : ∀ other ∈ rest,
            Rooted (files.pruned commands candidate dir).disk roots other := by
          intro other hother
          rw [disk_pruned]
          exact (hrest other hother).without dir
        rw [ih _ hkept, disk_pruned, branches_pruned, deletesBranch_without]
        simp only [Option.some.injEq, exists_eq_left', hremovable, Bool.true_and, and_true]
        rw [and_assoc, and_or_left, not_or]

end Removal

section Loss

variable (repo : Repository) (gh : GhClient) (commands : Commands) (cfg : GcConfig)
  (listing : Except String String) (disk : Disk)

def listed : List WorktreeEntry :=
  match listing with
  | .ok raw => parseWorktreeList raw
  | .error _ => []

def collected : Files :=
  (call (runGc repo gh commands cfg listing) ⟨disk, repo.branches⟩).2

def Gone (path : String) : Prop :=
  (disk.canonicalize path).isSome ∧
    (collected repo gh commands cfg listing disk).disk.canonicalize path = none

def Clean (tree : Checkout) : Prop := tree.changes = .ok []

/-- On a remote, in a merged pull request or in a local ref that is still there, the HEAD
of a worktree being one. -/
def Reachable (commit : Commit) : Prop :=
  ∃ tip, commit ∈ repo.history tip ∧
    (tip ∈ repo.remotes ++ repo.mergedHeads ++ repo.refs ∨
      (∃ branch, (collected repo gh commands cfg listing disk).branches branch = some tip) ∨
      ∃ entry ∈ listed listing, entry.isBare = false ∧ (disk.canonicalize entry.path).isSome ∧
        ¬ Gone repo gh commands cfg listing disk entry.path ∧
        (repo.checkout entry.path).head = tip)

structure LosesNothing : Prop where
  worktrees : ∀ entry ∈ listed listing, entry.isBare = false →
    Gone repo gh commands cfg listing disk entry.path →
      Clean (repo.checkout entry.path) ∧ (repo.checkout entry.path).live = false ∧
      ∀ commit ∈ repo.history (repo.checkout entry.path).head,
        Reachable repo gh commands cfg listing disk commit
  main : ∀ main, (listed listing).head? = some main →
    ¬ Gone repo gh commands cfg listing disk main.path
  inScope : ∀ path real, disk.canonicalize path = some real →
    Gone repo gh commands cfg listing disk path →
      ∃ root ∈ cfg.roots, ∃ realRoot, disk.canonicalize root = some realRoot ∧
        startsWith real realRoot = true

def found : List GcCandidate := candidates repo gh cfg disk (listed listing)

/-- A candidate that can be removed lies at or above the directory. -/
def Doomed (path : String) : Prop :=
  cfg.apply = true ∧ ∃ real, disk.canonicalize path = some real ∧
    enclosed commands disk (found repo gh cfg listing disk) real = true

def Judged (entry : WorktreeEntry) : Prop :=
  underAnyRoot disk entry.path cfg.roots = true ∧
    (evaluateCandidate entry (gatherInputs repo gh entry) cfg.now cfg.idleDays).isSome

def Tracked (entry : WorktreeEntry) : Prop :=
  ∃ tip, (repo.checkout entry.path).upstream = some (.tracking tip)

def StaysReachable (commit : Commit) : Prop :=
  ∃ tip, commit ∈ repo.history tip ∧
    (tip ∈ repo.remotes ++ repo.mergedHeads ++ repo.refs ∨
      (∃ branch, repo.branches branch = some tip ∧
        ¬ (cfg.apply = true ∧
          DeletesBranch commands disk (found repo gh cfg listing disk) branch)) ∨
      ∃ entry ∈ listed listing, entry.isBare = false ∧ (disk.canonicalize entry.path).isSome ∧
        ¬ Doomed repo gh commands cfg listing disk entry.path ∧
        (repo.checkout entry.path).head = tip)

/-- No removal reaches the main worktree. A worktree below a candidate that is none itself
is clean and idle all the same; and what a removed worktree has checked out, unless it is a
candidate with a tracking ref, is reachable from something that stays. -/
structure SparesWork : Prop where
  main : ∀ main, (listed listing).head? = some main →
    ¬ Doomed repo gh commands cfg listing disk main.path
  nested : ∀ entry ∈ listed listing, entry.isBare = false →
    Doomed repo gh commands cfg listing disk entry.path → ¬ Judged repo gh cfg disk entry →
      Clean (repo.checkout entry.path) ∧ (repo.checkout entry.path).live = false
  published : ∀ entry ∈ listed listing, entry.isBare = false →
    Doomed repo gh commands cfg listing disk entry.path →
      ¬ (Judged repo gh cfg disk entry ∧ Tracked repo entry) →
      ∀ commit ∈ repo.history (repo.checkout entry.path).head,
        StaysReachable repo gh commands cfg listing disk commit

variable {repo gh commands cfg listing disk}

theorem collected_eq :
    collected repo gh commands cfg listing disk =
      if cfg.apply then
        sweep commands cfg.roots (found repo gh cfg listing disk) ⟨disk, repo.branches⟩
      else ⟨disk, repo.branches⟩ := by
  unfold collected runGc found listed
  cases listing with
  | error e => cases cfg.apply <;> rfl
  | ok raw =>
    change (call (if cfg.apply = true then _ else _) _).2 = _
    cases cfg.apply with
    | false => rfl
    | true =>
      rw [if_pos rfl, if_pos rfl]
      exact foldlM_pruneNext _ _ _

theorem evaluateCandidate_some {entry : WorktreeEntry} {inputs : CandidateInputs} {now : Int}
    {idleDays : UInt64} {candidate : GcCandidate}
    (h : evaluateCandidate entry inputs now idleDays = some candidate) :
    inputs.hasLiveProcess = false ∧ inputs.hasUncommittedOrUnpushedWork = false ∧
      candidate.path = entry.path := by
  unfold evaluateCandidate at h
  simp only [Option.ite_none_left_eq_some, Bool.not_eq_true] at h
  obtain ⟨-, hidle, hguarded, -, hcandidate⟩ := h
  cases hcandidate
  exact ⟨hidle, hguarded, rfl⟩

theorem mem_found {candidate : GcCandidate} (h : candidate ∈ found repo gh cfg listing disk) :
    underAnyRoot disk candidate.path cfg.roots = true := by
  unfold found candidates examined at h
  obtain ⟨entry, hentry, hcandidate⟩ := List.mem_filterMap.mp h
  obtain ⟨-, hscope⟩ := List.mem_filter.mp hentry
  rw [(evaluateCandidate_some hcandidate).2.2]
  exact (Bool.and_eq_true_iff.mp hscope).2

theorem rooted_found : ∀ candidate ∈ found repo gh cfg listing disk,
    Rooted disk cfg.roots candidate := fun _ h _ => mem_found h

theorem gone_iff {path : String} :
    Gone repo gh commands cfg listing disk path ↔
      Doomed repo gh commands cfg listing disk path := by
  unfold Gone Doomed
  rw [collected_eq]
  cases cfg.apply with
  | false =>
    rw [if_neg Bool.false_ne_true]
    cases disk.canonicalize path <;> simp
  | true =>
    rw [if_pos rfl, canonicalize_sweep _ ⟨disk, repo.branches⟩ rooted_found]
    cases disk.canonicalize path <;> simp [Option.filter_some]

theorem branches_collected {branch tip : String} :
    (collected repo gh commands cfg listing disk).branches branch = some tip ↔
      repo.branches branch = some tip ∧ ¬ (cfg.apply = true ∧
        DeletesBranch commands disk (found repo gh cfg listing disk) branch) := by
  rw [collected_eq]
  cases cfg.apply with
  | false => simp
  | true =>
    rw [if_pos rfl, branches_sweep _ ⟨disk, repo.branches⟩ rooted_found]
    simp

theorem reachable_iff {commit : Commit} :
    Reachable repo gh commands cfg listing disk commit ↔
      StaysReachable repo gh commands cfg listing disk commit := by
  unfold Reachable StaysReachable
  simp only [branches_collected, gone_iff]

theorem Judged.guarded {entry : WorktreeEntry} (h : Judged repo gh cfg disk entry) :
    (repo.checkout entry.path).live = false ∧
      worktreeHasUncommittedOrUnpushedWork repo entry.path = false := by
  obtain ⟨candidate, hcandidate⟩ := Option.isSome_iff_exists.mp h.2
  have hinputs : (gatherInputs repo gh entry).hasLiveProcess = (repo.checkout entry.path).live ∧
      (gatherInputs repo gh entry).hasUncommittedOrUnpushedWork =
        worktreeHasUncommittedOrUnpushedWork repo entry.path := by
    unfold gatherInputs
    dsimp only
    split <;> exact ⟨rfl, rfl⟩
  obtain ⟨hidle, hguarded, -⟩ := evaluateCandidate_some hcandidate
  rw [hinputs.1] at hidle
  rw [hinputs.2] at hguarded
  exact ⟨hidle, hguarded⟩

theorem Judged.clean {entry : WorktreeEntry} (h : Judged repo gh cfg disk entry) :
    Clean (repo.checkout entry.path) := by
  have hguarded := h.guarded.2
  unfold worktreeHasUncommittedOrUnpushedWork at hguarded
  unfold Clean
  split at hguarded
  · cases hguarded
  · cases hguarded
  next hchanges => exact hchanges

theorem Judged.reachable {entry : WorktreeEntry} (h : Judged repo gh cfg disk entry)
    (htracked : Tracked repo entry) {commit : Commit}
    (hcommit : commit ∈ repo.history (repo.checkout entry.path).head) :
    StaysReachable repo gh commands cfg listing disk commit := by
  obtain ⟨tip, htip⟩ := htracked
  have hguarded := h.guarded.2
  unfold worktreeHasUncommittedOrUnpushedWork Repository.aheadOfUpstream at hguarded
  rw [h.clean, htip] at hguarded
  have hahead : (repo.history (repo.checkout entry.path).head \ repo.history tip).card = 0 := by
    simpa using hguarded
  refine ⟨tip, ?_, .inl (List.mem_append_right _ (repo.tracked entry.path tip htip))⟩
  by_contra hmissing
  have hlost : commit ∈ repo.history (repo.checkout entry.path).head \ repo.history tip :=
    Finset.mem_sdiff.mpr ⟨hcommit, hmissing⟩
  rw [Finset.card_eq_zero.mp hahead] at hlost
  cases hlost

theorem Doomed.inScope {path real : String} (h : Doomed repo gh commands cfg listing disk path)
    (hreal : disk.canonicalize path = some real) :
    ∃ root ∈ cfg.roots, ∃ realRoot, disk.canonicalize root = some realRoot ∧
      startsWith real realRoot = true := by
  obtain ⟨-, real', hreal', hencloses⟩ := h
  rw [hreal] at hreal'
  cases hreal'
  obtain ⟨candidate, hcandidate, hinside⟩ := List.any_eq_true.mp hencloses
  have hunder := mem_found hcandidate
  unfold underAnyRoot at hunder
  cases hdir : disk.canonicalize candidate.path with
  | none =>
    rw [hdir] at hunder
    cases hunder
  | some dir =>
    rw [hdir] at hunder hinside
    obtain ⟨root, hroot, hrooted⟩ := List.any_eq_true.mp hunder
    cases hrealRoot : disk.canonicalize root with
    | none =>
      rw [hrealRoot] at hrooted
      cases hrooted
    | some realRoot =>
      rw [hrealRoot] at hrooted
      have hbelow := (Bool.and_eq_true_iff.mp hinside).2
      exact ⟨root, hroot, realRoot, hrealRoot, startsWith_trans hbelow hrooted⟩

/-- A collection loses nothing exactly if it spares what it does not look at. -/
theorem loses_nothing_iff (repo : Repository) (gh : GhClient) (commands : Commands) (cfg : GcConfig)
    (listing : Except String String) (disk : Disk) :
    LosesNothing repo gh commands cfg listing disk ↔
      SparesWork repo gh commands cfg listing disk := by
  constructor
  · intro h
    refine ⟨fun main hmain hdoomed => h.main main hmain (gone_iff.mpr hdoomed), ?_, ?_⟩
    · intro entry hentry hbare hdoomed _
      obtain ⟨hclean, hidle, -⟩ := h.worktrees entry hentry hbare (gone_iff.mpr hdoomed)
      exact ⟨hclean, hidle⟩
    · intro entry hentry hbare hdoomed _ commit hcommit
      obtain ⟨-, -, hreachable⟩ := h.worktrees entry hentry hbare (gone_iff.mpr hdoomed)
      exact reachable_iff.mp (hreachable commit hcommit)
  · intro h
    refine ⟨?_, fun main hmain hgone => h.main main hmain (gone_iff.mp hgone), ?_⟩
    · intro entry hentry hbare hgone
      have hdoomed := gone_iff.mp hgone
      have hkept : Clean (repo.checkout entry.path) ∧ (repo.checkout entry.path).live = false := by
        by_cases hjudged : Judged repo gh cfg disk entry
        · exact ⟨hjudged.clean, hjudged.guarded.1⟩
        · exact h.nested entry hentry hbare hdoomed hjudged
      refine ⟨hkept.1, hkept.2, fun commit hcommit => reachable_iff.mpr ?_⟩
      by_cases hguarded : Judged repo gh cfg disk entry ∧ Tracked repo entry
      · exact hguarded.1.reachable hguarded.2 hcommit
      · exact h.published entry hentry hbare hdoomed hguarded commit hcommit
    · intro path real hreal hgone
      exact (gone_iff.mp hgone).inScope hreal

end Loss

/-- A clean worktree with one commit of its own, on a branch that the remote never had. -/
def unpushedRepo : Repository where
  history commit := if commit = "tip" then {"tip", "base"} else {commit}
  branches name := if name = "main" then some "base" else if name = "feat" then some "tip" else none
  refs := []
  remotes := ["base"]
  mergedHeads := []
  checkout path :=
    if path = "/wt/a" then ⟨.ok [], "tip", none, false, some 0⟩
    else ⟨.ok [], "base", none, false, some 0⟩
  tracked path tip h := by
    revert h
    split <;> nofun

def unpushedListing : String :=
  "worktree /repo\nHEAD base\nbranch refs/heads/main\n\n" ++
    "worktree /wt/a\nHEAD tip\nbranch refs/heads/feat\n"

def notOnRemote : GhClient where
  mergedPrsForBranch _ := .ok []
  branchExistsOnRemote _ branch := .ok (some (branch = "main"))

def everythingWorks : Commands where
  worktreeRemove _ := true
  removeDirAll _ := none
  branchDelete _ := true

def plainDisk : Disk where
  canonicalize path := if path ∈ ["/repo", "/wt", "/wt/a"] then some path else none
  isSymlink path := if path ∈ ["/repo", "/wt", "/wt/a"] then some false else none
  entry dir name := if dir ∈ ["/repo", "/wt/a"] ∧ name = ".git" then some false else none

def weekly : GcConfig := ⟨["/wt"], true, 7, 0⟩

theorem found_unpushed : found unpushedRepo notOnRemote weekly (.ok unpushedListing) plainDisk =
    [⟨"/wt/a", some "feat", [.branchDeletedFromOrigin]⟩] := by
  decide

/-- The worktree goes, the branch goes, and the commit is nowhere. -/
theorem unpushed_branch_lost :
    ¬ LosesNothing unpushedRepo notOnRemote everythingWorks weekly
      (.ok unpushedListing) plainDisk := by
  intro h
  have hdoomed : Doomed unpushedRepo notOnRemote everythingWorks weekly (.ok unpushedListing)
      plainDisk "/wt/a" := by
    refine ⟨rfl, "/wt/a", rfl, ?_⟩
    rw [found_unpushed]
    decide
  have hdeleted : DeletesBranch everythingWorks plainDisk
      (found unpushedRepo notOnRemote weekly (.ok unpushedListing) plainDisk) "feat" := by
    rw [found_unpushed]
    exact ⟨rfl, [], _, [], "/wt/a", rfl, rfl, rfl, rfl, rfl⟩
  obtain ⟨-, -, hreachable⟩ := h.worktrees ⟨"/wt/a", some "tip", some "feat", false, false⟩
    (by decide) rfl (gone_iff.mpr hdoomed)
  obtain ⟨tip, hcommit, hstays⟩ := reachable_iff.mp (hreachable "tip" (by decide))
  have htip : tip = "tip" := by
    by_contra hother
    simp [unpushedRepo, hother] at hcommit
    exact hother hcommit.symm
  subst htip
  rcases hstays with hremote | ⟨branch, hbranch, hkept⟩ | ⟨entry, hentry, -, -, hspared, hhead⟩
  · simp [unpushedRepo] at hremote
  · have hfeat : branch = "feat" := by
      by_contra hother
      simp [unpushedRepo, hother] at hbranch
    subst hfeat
    exact hkept ⟨rfl, hdeleted⟩
  · have hpath : entry.path = "/wt/a" := by
      by_contra hother
      simp [unpushedRepo, hother] at hhead
    rw [hpath] at hspared
    exact hspared hdoomed

end Simard.Disk
