import Simard.Merging.MergeGates

/-! Pull requests whose checks are pending at first and green later. The poll waits for
them, but the verification before it reads the first snapshot with the gates of the merge,
and these refuse a check that is not green yet. -/
namespace Simard.Merging
open Simard.Library

/-- What the outside knows about a pull request; the snapshots are those of successive
views. -/
structure Site where
  author : String
  snapshots : Nat → PrSnapshot
  diff : List Char
  judge : PrSnapshot → JudgeOutcome
  title : Except OverseerError String
  dispatched : MergeNotification → Bool

structure SiteState where
  views : Nat
  merged : Bool
  deriving DecidableEq

namespace Site

def answer (site : Site) (s : SiteState) : (cmd : MergeCmd) → MergeAns cmd × SiteState
  | .author => (Except.ok site.author, s)
  | .viewPr => (Except.ok (site.snapshots s.views), { s with views := s.views + 1 })
  | .diff => (Except.ok site.diff, s)
  | .sleep _ => ((), s)
  | .judge snapshot => (Except.ok (site.judge snapshot), s)
  | .squashMerge => (Except.ok (), { s with merged := true })
  | .title => (site.title, s)
  | .notify notification => (site.dispatched notification, s)

/-- The author, the diff, the judge and everything in a snapshot but the checks allow the
merge. -/
structure Clears (site : Site) (ops : MergePrOps) (repo : String) (pr : Nat) : Prop where
  author : ops.authorRefusal repo pr site.author = .ok ()
  scans : (runDiffScans ops.toLowercase site.diff).all CheckItem.passed = true
  judge : ∀ snapshot, (site.judge snapshot).verdict = .ready
  base : ∀ i, (site.snapshots i).baseRefName ∈ ops.baseAllowlist
  mergeable : ∀ i, (site.snapshots i).mergeable = "MERGEABLE"
  published : ∀ i, (site.snapshots i).isDraft = some false
  unlabelled : ∀ i, creativeIdeaPrLabel ∉ (site.snapshots i).labels

/-- So many snapshots have pending checks, and all later ones only passing ones. -/
structure PendingFor (site : Site) (n : Nat) : Prop where
  pending : ∀ i < n, ∃ check ∈ (site.snapshots i).checks, classifyState check.state = .pending
  unfailed : ∀ i < n, ∀ check ∈ (site.snapshots i).checks, classifyState check.state ≠ .failed
  passing : ∀ i, n ≤ i → ∀ check ∈ (site.snapshots i).checks, classifyState check.state = .passing

def merge (site : Site) (ops : MergePrOps) (repo : String) (pr : Nat) :
    Except OverseerError Unit × SiteState :=
  Fallible.exec site.answer (ops.merge repo pr) ⟨0, false⟩

def Merges (site : Site) (ops : MergePrOps) (repo : String) (pr : Nat) : Prop :=
  (site.merge ops repo pr).1 = .ok () ∧ (site.merge ops repo pr).2.merged = true

instance (site : Site) (ops : MergePrOps) (repo : String) (pr : Nat) :
    Decidable (site.Merges ops repo pr) := inferInstanceAs (Decidable (_ ∧ _))

end Site

theorem isPassingState_iff (state : String) :
    isPassingState state = true ↔ classifyState state = .passing := by
  unfold isPassingState classifyState
  split
  next h => exact iff_of_true h rfl
  next h =>
    refine iff_of_false h ?_
    split <;> exact nofun

section Stages

variable {site : Site} {ops : MergePrOps} {repo : String} {pr : Nat}
  (hclears : site.Clears ops repo pr) {s : SiteState}

include hclears

theorem exec_checkAuthor : Fallible.exec site.answer (ops.checkAuthor repo pr) s = (.ok (), s) := by
  unfold MergePrOps.checkAuthor
  split
  · rw [Fallible.exec_attempt]
    exact congrArg (·, s) hclears.author
  · rfl

theorem evaluateObjectiveGates_iff (i : Nat) :
    evaluateObjectiveGates (site.snapshots i) ops.baseAllowlist = .ok () ↔
      ∀ check ∈ (site.snapshots i).checks, classifyState check.state = .passing := by
  unfold evaluateObjectiveGates
  rw [if_neg (not_not.mpr (hclears.base i)), if_neg (not_not.mpr (hclears.mergeable i)),
    hclears.published i]
  cases hfound : (site.snapshots i).checks.find? fun check => !isPassingState check.state with
  | none =>
    refine iff_of_true rfl ?_
    intro check hcheck
    have hpassing := List.find?_eq_none.mp hfound check hcheck
    rw [Bool.not_eq_true', Bool.not_eq_false] at hpassing
    exact (isPassingState_iff _).mp hpassing
  | some check =>
    refine iff_of_false nofun ?_
    intro hall
    have hpassing := (isPassingState_iff _).mpr (hall check (List.mem_of_find?_eq_some hfound))
    have hnot := List.find?_some hfound
    rw [hpassing] at hnot
    cases hnot

theorem exec_verify : ∃ report,
    Fallible.exec site.answer ops.verify s = (.ok report, { s with views := s.views + 1 }) ∧
      (report.ready = true ↔
        ∀ check ∈ (site.snapshots s.views).checks, classifyState check.state = .passing) := by
  refine ⟨_, rfl, ?_⟩
  change (List.all (ops.objectiveCheck (site.snapshots s.views) ::
    runDiffScans ops.toLowercase site.diff) CheckItem.passed) = true ↔ _
  rw [List.all_cons, hclears.scans, Bool.and_true, ← evaluateObjectiveGates_iff hclears]
  unfold MergePrOps.objectiveCheck
  split
  next hgates => exact iff_of_true rfl hgates
  next e hgates => exact iff_of_false nofun (by rw [hgates]; exact nofun)

theorem pollVerdict_green {i : Nat}
    (hpassing : ∀ check ∈ (site.snapshots i).checks, classifyState check.state = .passing) :
    ops.pollVerdict (site.snapshots i) = .ok true := by
  have hnone : (site.snapshots i).checks.find? (fun check =>
      classifyState check.state = .failed) = none := by
    rw [List.find?_eq_none]
    intro check hcheck
    rw [hpassing check hcheck]
    decide
  have hpending : ((site.snapshots i).checks.any fun check =>
      classifyState check.state = .pending) = false := by
    rw [List.any_eq_false]
    intro check hcheck
    rw [hpassing check hcheck]
    decide
  unfold MergePrOps.pollVerdict
  rw [if_neg (not_not.mpr (hclears.base i)), hnone]
  dsimp only
  rw [hpending, if_neg Bool.false_ne_true, if_pos (hclears.mergeable i)]

theorem pollVerdict_pending {i : Nat}
    (hpending : ∃ check ∈ (site.snapshots i).checks, classifyState check.state = .pending)
    (hunfailed : ∀ check ∈ (site.snapshots i).checks, classifyState check.state ≠ .failed) :
    ops.pollVerdict (site.snapshots i) = .ok false := by
  have hnone : (site.snapshots i).checks.find? (fun check =>
      classifyState check.state = .failed) = none := by
    rw [List.find?_eq_none]
    intro check hcheck
    rw [decide_eq_true_eq]
    exact hunfailed check hcheck
  have hany : ((site.snapshots i).checks.any fun check =>
      classifyState check.state = .pending) = true := by
    obtain ⟨check, hcheck, hstate⟩ := hpending
    exact List.any_eq_true.mpr ⟨check, hcheck, decide_eq_true hstate⟩
  unfold MergePrOps.pollVerdict
  rw [if_neg (not_not.mpr (hclears.base i)), hnone]
  dsimp only
  rw [hany, if_pos rfl]

omit hclears in
theorem exec_pollOnce {green : Bool}
    (hverdict : ops.pollVerdict (site.snapshots s.views) = .ok green) :
    Fallible.exec site.answer ops.pollOnce s = (.ok green, { s with views := s.views + 1 }) :=
  congrArg (·, { s with views := s.views + 1 }) hverdict

theorem exec_pollUntilGreen {n attempts : Nat} (hpending : site.PendingFor n)
    (hattempts : n - s.views ≤ attempts) :
    Fallible.exec site.answer (ops.pollUntilGreen attempts) s =
      (.ok (), { s with views := max n s.views + 1 }) := by
  induction attempts generalizing s with
  | zero =>
    have hgreen := exec_pollOnce (s := s)
      (pollVerdict_green hclears (hpending.passing s.views (by omega)))
    rw [MergePrOps.pollUntilGreen, Fallible.exec_bind_ok hgreen, if_pos rfl,
      max_eq_right (by omega)]
    rfl
  | succ attempts ih =>
    by_cases hgreen : n ≤ s.views
    · have honce := exec_pollOnce (s := s)
        (pollVerdict_green hclears (hpending.passing s.views hgreen))
      rw [MergePrOps.pollUntilGreen, Fallible.exec_bind_ok honce, if_pos rfl, max_eq_right hgreen]
      rfl
    · have hless : s.views < n := by omega
      have honce := exec_pollOnce (s := s) (pollVerdict_pending hclears
        (hpending.pending s.views hless) (hpending.unfailed s.views hless))
      rw [MergePrOps.pollUntilGreen, Fallible.exec_bind_ok honce, if_neg Bool.false_ne_true,
        Fallible.exec_attempt_ok (a := ()) rfl]
      change Fallible.exec site.answer _ { s with views := s.views + 1 } = _
      rw [ih (show n - (s.views + 1) ≤ attempts by omega)]
      dsimp only
      rw [max_eq_left (by omega), max_eq_left (by omega)]

theorem exec_mergePrIfMergeReadyWithJudge
    (hpassing : ∀ check ∈ (site.snapshots s.views).checks, classifyState check.state = .passing) :
    Fallible.exec site.answer (ops.mergePrIfMergeReadyWithJudge repo pr) s =
      (.ok (.merged pr repo), ⟨s.views + 1, true⟩) := by
  have hview : Fallible.exec site.answer (MergePrOps.viewPr "merge") s =
      (.ok (site.snapshots s.views), { s with views := s.views + 1 }) := rfl
  have hready := hclears.judge (site.snapshots s.views)
  rw [MergePrOps.mergePrIfMergeReadyWithJudge, Fallible.exec_bind_ok hview,
    if_neg (hclears.unlabelled s.views), (evaluateObjectiveGates_iff hclears s.views).mpr hpassing]
  dsimp only
  rw [Fallible.exec_attempt_ok (a := site.judge (site.snapshots s.views)) rfl, if_pos hready]
  rfl

end Stages

theorem exec_announce (site : Site) (repo : String) (pr : Nat) (s : SiteState) :
    Fallible.exec site.answer (MergePrOps.announce repo pr) s = (.ok (), s) := by
  obtain ⟨author, snapshots, diff, judge, title, dispatched⟩ := site
  cases title <;> rfl

theorem merges_of_green {site : Site} {ops : MergePrOps} {repo : String} {pr : Nat}
    (hclears : site.Clears ops repo pr) (hgreen : site.PendingFor 0) : site.Merges ops repo pr := by
  obtain ⟨report, hverify, hready⟩ := exec_verify (s := ⟨0, false⟩) hclears
  have hpoll := exec_pollUntilGreen (s := ⟨1, false⟩) hclears hgreen
    (Nat.zero_le ops.poll.maxAttempts)
  have hmerge := exec_mergePrIfMergeReadyWithJudge (s := ⟨2, false⟩) hclears
    (hgreen.passing 2 (Nat.zero_le 2))
  unfold Site.Merges Site.merge
  rw [MergePrOps.merge, Fallible.exec_bind_ok (exec_checkAuthor hclears),
    Fallible.exec_bind_ok hverify, hready.mpr (hgreen.passing 0 (Nat.zero_le 0)),
    if_neg (by decide), Fallible.exec_bind_ok hpoll]
  change (Fallible.exec _ _ (⟨2, false⟩ : SiteState)).1 = _ ∧
    (Fallible.exec _ _ (⟨2, false⟩ : SiteState)).2.merged = _
  rw [Fallible.exec_bind_ok hmerge]
  dsimp only
  rw [exec_announce]
  exact ⟨rfl, rfl⟩

/-- Checks that are pending at first are waited for exactly if none is pending in the first
snapshot: the verification before the poll already refuses them. -/
theorem pending_checks_waited_iff {site : Site} {ops : MergePrOps} {repo : String} {pr n : Nat}
    (hclears : site.Clears ops repo pr) (_ : n ≤ ops.poll.maxAttempts)
    (hpending : site.PendingFor n) :
    site.Merges ops repo pr ↔
      ∀ check ∈ (site.snapshots 0).checks, classifyState check.state = .passing := by
  by_cases hfirst : ∀ check ∈ (site.snapshots 0).checks, classifyState check.state = .passing
  · refine iff_of_true ?_ hfirst
    obtain rfl : n = 0 := by
      by_contra hpositive
      obtain ⟨check, hcheck, hstate⟩ := hpending.pending 0 (Nat.pos_of_ne_zero hpositive)
      rw [hfirst check hcheck] at hstate
      cases hstate
    exact merges_of_green hclears hpending
  · refine iff_of_false ?_ hfirst
    obtain ⟨report, hverify, hready⟩ := exec_verify (s := ⟨0, false⟩) hclears
    have hnot : (!report.ready) = true := by
      rw [Bool.not_eq_true', ← Bool.not_eq_true]
      exact fun h => hfirst (hready.mp h)
    unfold Site.Merges Site.merge
    rw [MergePrOps.merge, Fallible.exec_bind_ok (exec_checkAuthor hclears),
      Fallible.exec_bind_ok hverify, if_pos hnot]
    exact fun h => nomatch h.1

def readerDiff : List Char := "+++ b/src/reader.rs\n@@ -1 +1,2 @@\n mod a;\n+mod b;\n".toList

/-- A bot's pull request whose build is still running at the first views. -/
def buildingSite (pendingViews : Nat) : Site where
  author := "Simard-Bot"
  snapshots i :=
    { readySnapshot with checks := [⟨"build", if i < pendingViews then "PENDING" else "SUCCESS"⟩] }
  diff := readerDiff
  judge _ := ⟨.ready, "complete", []⟩
  title := .ok "Add a reader"
  dispatched _ := true

theorem buildingSite_clears (pendingViews : Nat) :
    (buildingSite pendingViews).Clears botOps "rysweet/Simard" 7 where
  author := by
    change botOps.authorRefusal "rysweet/Simard" 7 "Simard-Bot" = .ok ()
    decide
  scans := by
    change (runDiffScans (List.map Char.toLower) readerDiff).all CheckItem.passed = true
    decide
  judge _ := rfl
  base _ := List.mem_cons_self
  mergeable _ := rfl
  published _ := rfl
  unlabelled _ := by
    change creativeIdeaPrLabel ∉ ["simard-autonomous"]
    decide

theorem buildingSite_pendingFor (pendingViews : Nat) :
    (buildingSite pendingViews).PendingFor pendingViews where
  pending i hi := by
    refine ⟨_, List.mem_cons_self, ?_⟩
    dsimp only [buildingSite]
    rw [if_pos hi]
    decide
  unfailed i hi check hcheck := by
    rw [List.mem_singleton.mp hcheck]
    dsimp only
    rw [if_pos hi]
    decide
  passing i hi check hcheck := by
    rw [List.mem_singleton.mp hcheck]
    dsimp only
    rw [if_neg (Nat.not_lt.mpr hi)]
    decide

theorem only_green_from_the_start_waited :
    (buildingSite 0).Merges botOps "rysweet/Simard" 7 ∧
      ¬ (buildingSite 2).Merges botOps "rysweet/Simard" 7 := by
  constructor
  · refine (pending_checks_waited_iff (buildingSite_clears 0) (Nat.zero_le _)
      (buildingSite_pendingFor 0)).mpr ?_
    exact (buildingSite_pendingFor 0).passing 0 (Nat.zero_le 0)
  · intro hmerges
    have hgreen := (pending_checks_waited_iff (buildingSite_clears 2) (by decide)
      (buildingSite_pendingFor 2)).mp hmerges _ List.mem_cons_self
    exact absurd hgreen (by decide)

/-- One pending snapshot, with twenty attempts to wait for it, is enough for a refusal. -/
theorem pending_check_refused :
    ¬ ∀ (site : Site) (ops : MergePrOps) (repo : String) (pr n : Nat), site.Clears ops repo pr →
      n ≤ ops.poll.maxAttempts → site.PendingFor n → site.Merges ops repo pr := by
  intro hclaim
  have hmerges := hclaim (buildingSite 1) botOps "rysweet/Simard" 7 1 (buildingSite_clears 1)
    (by decide) (buildingSite_pendingFor 1)
  have hrefused : ¬ (buildingSite 1).Merges botOps "rysweet/Simard" 7 := by decide
  exact hrefused hmerges

end Simard.Merging
