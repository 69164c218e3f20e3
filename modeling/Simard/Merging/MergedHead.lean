import Simard.Library.Machine
import Simard.Merging.MergeGates

/-! Which commit a merge merges. A pull request has a head that pushes may change between any
two calls, and every call sees the head of its time. The merge names no commit: it takes the
head there is, and that is the one that was scanned and judged if no push came between. -/
namespace Simard.Merging
open Simard.Library

variable {Commit : Type}

/-- A merge under way: the head, what is left of the call, and what it issued at which head. -/
structure Underway (Commit : Type) where
  head : Commit
  rest : Program MergeCmd MergeAns (Except OverseerError Unit)
  log : List (Commit × Sigma MergeAns)

inductive HeadEvent (Commit : Type) where
  | push (commit : Commit)
  | call

/-- What the outside answers at a head, after so many calls. -/
abbrev Host (Commit : Type) := Commit → Nat → (cmd : MergeCmd) → MergeAns cmd

def Underway.call (host : Host Commit) (s : Underway Commit) : Underway Commit :=
  match s.rest with
  | .done _ => s
  | .step cmd next =>
      let answer := host s.head s.log.length cmd
      { s with rest := next answer, log := s.log ++ [(s.head, ⟨cmd, answer⟩)] }

def mergingMachine (host : Host Commit) : Machine (Underway Commit) (HeadEvent Commit) where
  step s
    | .push commit => { s with head := commit }
    | .call => s.call host

def MergePrOps.begin (ops : MergePrOps) (repo : String) (pr : Nat) (head : Commit) :
    Underway Commit :=
  ⟨head, (ops.merge repo pr).run, []⟩

/-- What came before a merge of this commit: the one diff that was fetched was of this commit
and passed its scans, and the last view and the judge's word on it were of this commit too. -/
def CheckedAt (ops : MergePrOps) (commit : Commit) (before : List (Commit × Sigma MergeAns)) :
    Prop :=
  (∃ diff, (before.filter fun entry => entry.2.1.isDiff) = [(commit, fetched diff)] ∧
    ∀ check ∈ runDiffScans ops.toLowercase diff, check.passed = true) ∧
  ∃ earlier snapshot outcome,
    before = earlier ++ [(commit, viewed snapshot), (commit, judged snapshot outcome)] ∧
    outcome.verdict = .ready

def MergesChecked (ops : MergePrOps) (log : List (Commit × Sigma MergeAns)) : Prop :=
  Kept (fun before entry => entry.2.1.isSquash → CheckedAt ops entry.1 before) log

def Unmerged (log : List (Commit × Sigma MergeAns)) : Prop :=
  ∀ entry ∈ log, entry.2.1.isSquash = false

def Checking (log : List (Commit × Sigma MergeAns)) : Prop :=
  (∃ entry ∈ log, entry.2.1.isDiff = true) ∧ Unmerged log

/-- No push changes the head between the diff and the merge. -/
def Steady (s : Underway Commit) : HeadEvent Commit → Prop
  | .push commit => Checking s.log → commit = s.head
  | .call => True

instance (log : List (Commit × Sigma MergeAns)) : Decidable (Checking log) :=
  inferInstanceAs (Decidable (_ ∧ ∀ entry ∈ log, _))

instance [DecidableEq Commit] (s : Underway Commit) : DecidablePred (Steady s)
  | .push commit => inferInstanceAs (Decidable (Checking s.log → commit = s.head))
  | .call => .isTrue trivial

def sinceDiff (log : List (Commit × Sigma MergeAns)) : List (Commit × Sigma MergeAns) :=
  log.dropWhile fun entry => !entry.2.1.isDiff

variable {log : List (Commit × Sigma MergeAns)} {entry : Commit × Sigma MergeAns}

theorem sinceDiff_append_of_mem {rest : List (Commit × Sigma MergeAns)} (hmem : entry ∈ log)
    (hdiff : entry.2.1.isDiff = true) : sinceDiff (log ++ rest) = sinceDiff log ++ rest := by
  unfold sinceDiff
  rw [List.dropWhile_append, if_neg]
  intro hempty
  have hall := List.dropWhile_eq_nil_iff.mp (List.isEmpty_iff.mp hempty) entry hmem
  simp [hdiff] at hall

theorem mem_sinceDiff (hmem : entry ∈ log) (hdiff : entry.2.1.isDiff = true) :
    entry ∈ sinceDiff log := by
  obtain ⟨before, after, rfl⟩ := List.append_of_mem hmem
  have hfirst : entry ∈ before ++ [entry] := List.mem_append_right _ (List.mem_singleton_self entry)
  rw [List.append_cons, sinceDiff_append_of_mem hfirst hdiff]
  apply List.mem_append_left
  unfold sinceDiff
  rw [List.dropWhile_append]
  split
  · simp [hdiff]
  · exact List.mem_append_right _ (List.mem_singleton_self entry)

theorem sinceDiff_concat {e : Commit × Sigma MergeAns} (he : e ∈ sinceDiff (log ++ [entry])) :
    e ∈ sinceDiff log ∨ e = entry := by
  unfold sinceDiff at he
  rw [List.dropWhile_append] at he
  split at he
  · exact .inr (List.mem_singleton.mp (List.dropWhile_sublist _ |>.mem he))
  · rcases List.mem_append.mp he with he | he
    · exact .inl he
    · exact .inr (List.mem_singleton.mp he)

/-- Until the merge, all that was issued from the diff on saw the head there is now; and the
merge saw it too. -/
structure Unmoved (s : Underway Commit) : Prop where
  unmerged : Unmerged s.log → ∀ entry ∈ sinceDiff s.log, entry.1 = s.head
  merged : Kept (fun before entry => entry.2.1.isSquash → Unmerged before →
    ∀ earlier ∈ sinceDiff before, earlier.1 = entry.1) s.log

theorem unmoved_push {s : Underway Commit} {commit : Commit} (hs : Unmoved s)
    (hsteady : Steady s (.push commit)) : Unmoved { s with head := commit } := by
  refine ⟨?_, hs.merged⟩
  intro hunmerged entry hentry
  have hdiff : ∃ entry ∈ s.log, entry.2.1.isDiff = true := by
    by_contra hnone
    push Not at hnone
    have hempty : sinceDiff s.log = [] :=
      List.dropWhile_eq_nil_iff.mpr fun e he => by simp [hnone e he]
    rw [show sinceDiff s.log = [] from hempty] at hentry
    cases hentry
  rw [hs.unmerged hunmerged entry hentry]
  exact (hsteady ⟨hdiff, hunmerged⟩).symm

theorem unmoved_call {s : Underway Commit} (host : Host Commit) (hs : Unmoved s) :
    Unmoved (s.call host) := by
  unfold Underway.call
  split
  · exact hs
  next cmd next hrest =>
    refine ⟨?_, Kept.concat_iff.mpr ⟨hs.merged, fun _ hunmerged => hs.unmerged hunmerged⟩⟩
    intro hunmerged entry hentry
    rcases sinceDiff_concat hentry with hentry | rfl
    · exact hs.unmerged (fun e he => hunmerged e (List.mem_append_left _ he)) entry hentry
    · rfl

theorem unmoved_step (host : Host Commit) (s : Underway Commit) (event : HeadEvent Commit)
    (hsteady : Steady s event) (hs : Unmoved s) : Unmoved ((mergingMachine host).step s event) := by
  cases event with
  | push commit => exact unmoved_push hs hsteady
  | call => exact unmoved_call host hs

theorem reaches_step {p : Program MergeCmd MergeAns (Except OverseerError Unit)}
    (host : Host Commit) (s : Underway Commit) (event : HeadEvent Commit)
    (hs : Reaches p (s.log.map Prod.snd) s.rest) :
    Reaches p (((mergingMachine host).step s event).log.map Prod.snd)
      ((mergingMachine host).step s event).rest := by
  cases event with
  | push commit => exact hs
  | call =>
    change Reaches p ((s.call host).log.map Prod.snd) (s.call host).rest
    unfold Underway.call
    split
    · exact hs
    next cmd next hrest =>
      rw [hrest] at hs
      rw [List.map_append]
      exact hs.answered (host s.head s.log.length cmd)

variable {ops : MergePrOps} {repo : String} {pr : Nat}

theorem needs_of_reaches {s : Underway Commit} (host : Host Commit)
    (h : Reaches (ops.merge repo pr).run (s.log.map Prod.snd) s.rest) :
    Kept (fun before entry => entry.2.1.isSquash → Unmerged before ∧
      ScansPassed ops (before.map Prod.snd) ∧ ApprovedLast ops (before.map Prod.snd)) s.log := by
  rintro before ⟨commit, cmd, answer⟩ after hlog hsquash
  cases cmd <;> cases hsquash
  have hruns : (ops.merge repo pr).Runs _ _ := h.transcript (transcript_record
    (fun (_ : Unit) cmd => (host s.head s.log.length cmd, ())) s.rest ())
  rw [hlog, List.map_append, List.map_cons, List.append_assoc, List.cons_append] at hruns
  rcases merge_cases hruns with ⟨hstage, -⟩ |
    ⟨prepared, snapshot, outcome, answer', tail, heq, hcompleted⟩
  · cases (hstage.preparing ⟨.squashMerge, answer⟩
      (List.mem_append_right _ List.mem_cons_self)).1
  obtain ⟨hbefore, -, -⟩ := hcompleted.split heq.symm
  rw [← hbefore]
  refine ⟨?_, hcompleted.needs.2⟩
  intro entry hentry
  have hpreparing :=
    (hcompleted.prepared.stage.append (stage_judge snapshot (.ok outcome))).preparing
  apply (hpreparing entry.2 _).1
  change entry.2 ∈ prepared ++ [viewed snapshot, judged snapshot outcome]
  rw [hbefore]
  exact List.mem_map_of_mem hentry

theorem checkedAt_of_sinceDiff {commit : Commit} (hscans : ScansPassed ops (log.map Prod.snd))
    (happroved : ApprovedLast ops (log.map Prod.snd))
    (hsince : ∀ entry ∈ sinceDiff log, entry.1 = commit) : CheckedAt ops commit log := by
  obtain ⟨diff, hdiff, hpassed⟩ := hscans
  obtain ⟨earlier, snapshot, outcome, hlog, -, -, hready⟩ := happroved
  rw [List.filter_map] at hdiff
  obtain ⟨⟨head, fetch⟩, hfilter, rfl⟩ := List.map_eq_singleton_iff.mp hdiff
  have hmem : (head, fetched diff) ∈ log ∧ (fetched diff).1.isDiff = true :=
    List.mem_filter.mp (hfilter ▸ List.mem_singleton_self _)
  obtain rfl := hsince _ (mem_sinceDiff hmem.1 hmem.2)
  refine ⟨⟨diff, hfilter, hpassed⟩, ?_⟩
  obtain ⟨before, last, rfl, -, hlast⟩ := List.map_eq_append_iff.mp hlog
  obtain ⟨⟨viewHead, view⟩, rest, rfl, rfl, hrest⟩ := List.map_eq_cons_iff.mp hlast
  obtain ⟨⟨judgeHead, judge⟩, rfl, rfl⟩ := List.map_eq_singleton_iff.mp hrest
  -- neither the view nor the judge's word is a diff, so the diff came before both
  have hbefore : (head, fetched diff) ∈ before := by
    rcases List.mem_append.mp hmem.1 with hmem | hmem
    · exact hmem
    · rcases List.mem_pair.mp hmem with hview | hjudge
      · cases congrArg (fun entry => entry.2.1.isDiff) hview
      · cases congrArg (fun entry => entry.2.1.isDiff) hjudge
  rw [sinceDiff_append_of_mem hbefore hmem.2] at hsince
  obtain rfl := hsince (viewHead, viewed snapshot) (by simp)
  obtain rfl := hsince (judgeHead, judged snapshot outcome) (by simp)
  exact ⟨before, snapshot, outcome, rfl, hready⟩

/-- In every run in which no push changes the head between the diff and the merge, every merge
merges the commit that was scanned and judged. -/
theorem merges_checked_head (host : Host Commit) (ops : MergePrOps) (repo : String) (pr : Nat)
    (head : Commit) (events : List (HeadEvent Commit))
    (hsteady : ∀ t ∈ (mergingMachine host).trace (ops.begin repo pr head) events,
      Steady t.before t.event) :
    MergesChecked ops ((mergingMachine host).run (ops.begin repo pr head) events).log := by
  have hunmoved := (mergingMachine host).invariant_run_of (unmoved_step host)
    (s := ops.begin repo pr head) ⟨fun _ => nofun, Kept.nil⟩ events hsteady
  have hreaches := (mergingMachine host).invariant_run (reaches_step host)
    (s := ops.begin repo pr head) .start events
  have hneeds := needs_of_reaches host hreaches
  intro before entry after hlog hsquash
  obtain ⟨hunmerged, hscans, happroved⟩ := hneeds before entry after hlog hsquash
  exact checkedAt_of_sinceDiff hscans happroved
    (hunmoved.merged before entry after hlog hsquash hunmerged)

/-- The answers of a host that shows, at commit 1, a diff that takes a public function away. -/
def headAnswer : Host Nat
  | 1, _, .diff => Except.ok
      "+++ b/src/reader.rs\n@@ -1,2 +1 @@\n mod a;\n-pub fn read() -> u8 \x7b 0 \x7d\n".toList
  | _, _, cmd => (readyAnswer () cmd).1

def headRun (events : List (HeadEvent Nat)) : Underway Nat :=
  (mergingMachine headAnswer).run (botOps.begin "rysweet/Simard" 7 0) events

theorem pushed_before_diff_merges_checked :
    (headRun ([.call, .push 2] ++ List.replicate 8 .call)).log.map
        (fun entry => (entry.1, entry.2.1.isSquash)) =
      [(0, false), (2, false), (2, false), (2, false), (2, false), (2, false), (2, true),
        (2, false), (2, false)] ∧
    MergesChecked botOps (headRun ([.call, .push 2] ++ List.replicate 8 .call)).log := by
  refine ⟨by decide, merges_checked_head headAnswer botOps "rysweet/Simard" 7 0 _ ?_⟩
  decide

/-- Commit 1 is pushed when the diff of commit 0 has been scanned and commit 0 judged, and is
merged with its own diff never looked at. -/
theorem pushed_after_diff_merges_unchecked :
    ¬MergesChecked botOps (headRun (List.replicate 6 .call ++ [.push 1, .call])).log := by
  intro hchecked
  have hlast : (headRun (List.replicate 6 .call ++ [.push 1, .call])).log =
      (headRun (List.replicate 6 .call)).log ++ [(1, squashed)] := by
    rfl
  rw [hlast] at hchecked
  obtain ⟨⟨diff, hdiff, -⟩, -⟩ := (Kept.concat_iff.mp hchecked).2 rfl
  have hheads : ((headRun (List.replicate 6 .call)).log.filter fun entry =>
      entry.2.1.isDiff).map Prod.fst = [1] := congrArg (List.map Prod.fst) hdiff
  revert hheads
  decide

end Simard.Merging
