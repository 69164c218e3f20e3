import Simard.Merging.PendingChecks
import Simard.Merging.ReadySensors
import Simard.Overseer.Rework

/-! The Overseer keeps away from its own pull requests in four places: the recursion guard,
the merge, the projection of ready pull requests and the rework loop. A login is the same in
any case, but only the projection reads it so. -/
namespace Simard.Overseer
open Simard.Library Simard.Merging

section Refusals

variable (login author : String)

def AdmitRefuses : Prop :=
  ∀ repo pr, ∃ e, RecursionGuard.admits ⟨login⟩ repo pr author = .error e

/-- Whatever else holds of the pull request, it is not merged. -/
def MergeRefuses : Prop :=
  ∀ (site : Site) (ops : MergePrOps) (repo : String) (pr : Nat),
    ops.recursion = some ⟨login⟩ → site.author = author → ¬ site.Merges ops repo pr

def ProjectRefuses : Prop :=
  ∀ (candidate : ProjectionCandidate) (baseAllowlist : List String),
    candidate.authorLogin = author → projectReadyPrs [candidate] baseAllowlist login = []

/-- Whatever else holds of the pull request, its rework is skipped. -/
def ReworkRefuses : Prop :=
  ∀ (disk : ReworkDisk) (maxAttempts : Nat) (call : ReworkCall), call.prAuthor = author →
    call.overseerAuthorLogin = some login → ∃ reason,
      (disk.pollRework maxAttempts call).1 = .skip reason

end Refusals

section Decisions

variable {login author : String}

theorem admits_ok_iff (hlogin : login ≠ "") (repo : String) (pr : Nat) :
    RecursionGuard.admits ⟨login⟩ repo pr author = .ok () ↔ author ≠ login := by
  unfold RecursionGuard.admits
  rw [if_neg hlogin]
  split
  next hown => exact iff_of_false nofun (not_not.mpr hown)
  next hown => exact iff_of_true rfl hown

theorem admitRefuses_iff (hlogin : login ≠ "") : AdmitRefuses login author ↔ author = login := by
  constructor
  · intro hrefuses
    by_contra hother
    obtain ⟨e, he⟩ := hrefuses "" 0
    rw [(admits_ok_iff hlogin "" 0).mpr hother] at he
    cases he
  · intro hown repo pr
    cases hadmits : RecursionGuard.admits ⟨login⟩ repo pr author with
    | error e => exact ⟨e, rfl⟩
    | ok => exact absurd hown ((admits_ok_iff hlogin repo pr).mp hadmits)

/-- A ready pull request of an author, under a guard with a login. -/
def guardedOps (login : String) : MergePrOps :=
  { botOps with recursion := some ⟨login⟩, automergeAuthor := none }

theorem guarded_clears (hlogin : login ≠ "") (hother : author ≠ login) :
    Site.Clears { buildingSite 0 with author := author } (guardedOps login) "rysweet/Simard" 7 where
  author := by
    unfold MergePrOps.authorRefusal guardedOps
    rw [Option.elim_some, (admits_ok_iff hlogin _ _).mpr hother]
    rfl
  scans := (buildingSite_clears 0).scans
  judge := (buildingSite_clears 0).judge
  base := (buildingSite_clears 0).base
  mergeable := (buildingSite_clears 0).mergeable
  published := (buildingSite_clears 0).published
  unlabelled := (buildingSite_clears 0).unlabelled

theorem mergeRefuses_iff (hlogin : login ≠ "") : MergeRefuses login author ↔ author = login := by
  constructor
  · intro hrefuses
    by_contra hother
    have hpending : Site.PendingFor { buildingSite 0 with author := author } 0 :=
      ⟨(buildingSite_pendingFor 0).pending, (buildingSite_pendingFor 0).unfailed,
        (buildingSite_pendingFor 0).passing⟩
    exact hrefuses { buildingSite 0 with author := author } (guardedOps login) "rysweet/Simard" 7
      rfl rfl (merges_of_green (guarded_clears hlogin hother) hpending)
  · rintro rfl site ops repo pr hguard rfl hmerges
    obtain ⟨e, he⟩ := (admitRefuses_iff hlogin).mpr rfl repo pr
    have hrefusal : ops.authorRefusal repo pr site.author =
        .error (.capability "merge.recursion" e.display) := by
      unfold MergePrOps.authorRefusal
      rw [hguard, Option.elim_some, he]
    have hcheck : Fallible.exec site.answer (ops.checkAuthor repo pr) ⟨0, false⟩ =
        (.error (.capability "merge.recursion" e.display), ⟨0, false⟩) := by
      unfold MergePrOps.checkAuthor
      rw [hguard, Option.isSome_some, Bool.true_or, if_pos rfl, Fallible.exec_attempt]
      exact congrArg (·, (⟨0, false⟩ : SiteState)) hrefusal
    unfold Site.Merges Site.merge at hmerges
    rw [MergePrOps.merge, Fallible.exec_bind_error hcheck] at hmerges
    cases hmerges.1

def readyCandidate (author : String) : ProjectionCandidate :=
  ⟨⟨"rysweet/Simard", 7, .readyForMerge⟩, author, "engineer/reader", some false, readySnapshot⟩

theorem projectRefuses_iff :
    ProjectRefuses login author ↔ asciiLowercase author = asciiLowercase login := by
  constructor
  · intro hrefuses
    by_contra hother
    have hforeign : eqIgnoreAsciiCase author login = false := decide_eq_false hother
    have hnone := hrefuses (readyCandidate author) ["main"] rfl
    have hbranch : isEngineerBranch "engineer/reader" = true := by decide
    have hgates : passesGates readySnapshot ["main"] = true := by decide
    simp [projectReadyPrs, readyCandidate, hforeign, hbranch, hgates] at hnone
  · rintro hown candidate baseAllowlist rfl
    have hsame : eqIgnoreAsciiCase candidate.authorLogin login = true := decide_eq_true hown
    simp [projectReadyPrs, hsame]

theorem foreignAuthor_ok_iff : foreignAuthor author (some login) = .ok () ↔
    trim login.toList ≠ [] ∧ author.toList ≠ trim login.toList := by
  unfold foreignAuthor
  rw [Option.map_some]
  cases trim login.toList with
  | nil => exact iff_of_false nofun fun h => h.1 rfl
  | cons c rest =>
    dsimp only
    split
    next hown => exact iff_of_false nofun fun h => h.2 hown
    next hown => exact iff_of_true rfl ⟨List.cons_ne_nil _ _, hown⟩

def heldDisk : ReworkDisk :=
  { ReworkDisk.empty with verdicts := fun _ => some (.ok (reworkVerdict "rysweet/Simard" 1)) }

theorem heldDisk_rework (hforeign : foreignAuthor author (some login) = .ok ()) (reason : String) :
    (heldDisk.pollRework 1 { reworkPoll "rysweet/Simard" 1 with
      prAuthor := author, overseerAuthorLogin := some login }).1 ≠ .skip reason := by
  have hdir : repoDir "rysweet/Simard" = some "rysweet__Simard".toList := by decide
  have hfile : (heldDisk.files "rysweet/Simard" 1).verdict =
      some (.ok (reworkVerdict "rysweet/Simard" 1)) := by
    simp only [ReworkDisk.files, fileAt, recordPath, prPath_of_repoDir hdir, Except.toOption,
      Option.bind_some]
    rfl
  have hread := readVerified_of_file hdir hfile rfl rfl
  rw [if_pos (show (reworkVerdict "rysweet/Simard" 1).repo = "rysweet/Simard" from rfl)] at hread
  have htrim : trim "add a test".toList = "add a test".toList := by decide
  have hconcern : reworkConcern (.found (reworkVerdict "rysweet/Simard" 1)) =
      .ok "add a test".toList := by
    simp only [reworkConcern, reworkVerdict, Option.map_some, htrim]
    rfl
  have hattempts : heldDisk.readAttemptState "rysweet/Simard" 1 none = .ok none := by
    have hpath : attemptStatePath "rysweet/Simard" 1 = .ok _ := prPath_of_repoDir hdir 1
    simp only [ReworkDisk.readAttemptState, hpath, heldDisk, ReworkDisk.empty]
  have hpath : concernFilePath "rysweet/Simard" 1 = .ok _ := prPath_of_repoDir hdir 1
  have hstatePath : attemptStatePath "rysweet/Simard" 1 = .ok _ := prPath_of_repoDir hdir 1
  intro hskip
  simp only [ReworkDisk.pollRework, reworkPoll, ReworkFaults.none] at hskip
  rw [show heldDisk.readVerified "rysweet/Simard" 1 "t1" none = _ from hread, hconcern, hforeign,
    hattempts] at hskip
  simp only [Option.bind_none, Option.map_none, Option.getD_none, ReworkDisk.writeConcernFile,
    ReworkDisk.writeAttemptState, hpath, hstatePath] at hskip
  split at hskip
  next hkey => cases hkey
  · split at hskip <;> cases hskip

theorem reworkRefuses_iff : ReworkRefuses login author ↔
    trim login.toList = [] ∨ author.toList = trim login.toList := by
  constructor
  · intro hrefuses
    by_contra hnot
    rw [not_or] at hnot
    obtain ⟨reason, hskip⟩ := hrefuses heldDisk 1 { reworkPoll "rysweet/Simard" 1 with
      prAuthor := author, overseerAuthorLogin := some login } rfl rfl
    exact heldDisk_rework (foreignAuthor_ok_iff.mpr hnot) reason hskip
  · rintro hown disk maxAttempts call rfl hlogin
    unfold ReworkDisk.pollRework
    rw [hlogin]
    split
    · exact ⟨_, rfl⟩
    · cases hforeign : foreignAuthor call.prAuthor (some login) with
      | error reason => exact ⟨reason, rfl⟩
      | ok =>
        obtain ⟨hset, hother⟩ := foreignAuthor_ok_iff.mp hforeign
        rcases hown with hblank | hsame
        · exact absurd hblank hset
        · exact absurd hsame hother

end Decisions

/-- For two spellings of an author each place decides alike, and where they are spellings of
the login every place refuses both. -/
structure CaseBlind (login author author' : String) : Prop where
  admits : AdmitRefuses login author ↔ AdmitRefuses login author'
  merges : MergeRefuses login author ↔ MergeRefuses login author'
  projects : ProjectRefuses login author ↔ ProjectRefuses login author'
  reworks : ReworkRefuses login author ↔ ReworkRefuses login author'
  own : ∀ spelling ∈ [author, author'], asciiLowercase spelling = asciiLowercase login →
    AdmitRefuses login spelling ∧ MergeRefuses login spelling ∧ ProjectRefuses login spelling ∧
      ReworkRefuses login spelling

/-- The four places agree on two spellings exactly if spellings of the login are the login
itself, with nothing around it to trim, and the rework loop's trimmed login does not tell
them apart. -/
theorem own_pr_case_blind_iff {login author author' : String} (hlogin : login ≠ "")
    (hcase : asciiLowercase author = asciiLowercase author') :
    CaseBlind login author author' ↔
      (asciiLowercase author = asciiLowercase login → author = login ∧ author' = login ∧
        (trim login.toList = [] ∨ trim login.toList = login.toList)) ∧
      (trim login.toList = [] ∨
        (author.toList = trim login.toList ↔ author'.toList = trim login.toList)) := by
  constructor
  · intro hblind
    constructor
    · intro hsame
      obtain ⟨hadmits, -, -, hrework⟩ := hblind.own author List.mem_cons_self hsame
      obtain ⟨hadmits', -, -, -⟩ := hblind.own author' (List.mem_cons_of_mem _ List.mem_cons_self)
        (hcase.symm.trans hsame)
      have hown := (admitRefuses_iff hlogin).mp hadmits
      refine ⟨hown, (admitRefuses_iff hlogin).mp hadmits', ?_⟩
      rw [reworkRefuses_iff, hown] at hrework
      exact hrework.imp_right Eq.symm
    · have hreworks := hblind.reworks
      rw [reworkRefuses_iff, reworkRefuses_iff] at hreworks
      by_cases hblank : trim login.toList = []
      · exact .inl hblank
      · rw [or_iff_right hblank, or_iff_right hblank] at hreworks
        exact .inr hreworks
  · rintro ⟨hown, htrim⟩
    have hexact : author = login ↔ author' = login := by
      constructor
      · rintro rfl
        exact (hown rfl).2.1
      · rintro rfl
        exact (hown hcase).1
    refine ⟨?_, ?_, ?_, ?_, ?_⟩
    · rw [admitRefuses_iff hlogin, admitRefuses_iff hlogin]
      exact hexact
    · rw [mergeRefuses_iff hlogin, mergeRefuses_iff hlogin]
      exact hexact
    · rw [projectRefuses_iff, projectRefuses_iff, hcase]
    · rw [reworkRefuses_iff, reworkRefuses_iff]
      rcases htrim with hblank | hsame
      · exact iff_of_true (.inl hblank) (.inl hblank)
      · exact or_congr_right hsame
    · intro spelling hspelling hsame
      have hlower : asciiLowercase author = asciiLowercase login := by
        rcases List.mem_pair.mp hspelling with rfl | rfl
        · exact hsame
        · exact hcase.trans hsame
      obtain ⟨hauthor, hauthor', hsolid⟩ := hown hlower
      obtain rfl : spelling = login := by
        rcases List.mem_pair.mp hspelling with rfl | rfl
        · exact hauthor
        · exact hauthor'
      refine ⟨(admitRefuses_iff hlogin).mpr rfl, (mergeRefuses_iff hlogin).mpr rfl,
        projectRefuses_iff.mpr rfl, reworkRefuses_iff.mpr ?_⟩
      exact hsolid.imp_right Eq.symm

theorem case_blind_for_others_only :
    CaseBlind "overseer" "rysweet" "RySweet" ∧ ¬ CaseBlind "overseer" "overseer" "Overseer" := by
  constructor
  · refine (own_pr_case_blind_iff (by decide) (by decide)).mpr ⟨fun hsame => ?_, .inr ?_⟩
    · exact absurd hsame (by decide)
    · exact iff_of_false (by decide) (by decide)
  · intro hblind
    have hown := ((own_pr_case_blind_iff (by decide) (by decide)).mp hblind).1 rfl
    exact absurd hown.2.1 (by decide)

/-- The guard refuses its login and admits another spelling of it. -/
theorem own_pr_admitted_in_other_case :
    ¬ ∀ login author author' : String, login ≠ "" →
      asciiLowercase author = asciiLowercase author' → CaseBlind login author author' := by
  intro hclaim
  have hblind := hclaim "simard-overseer[bot]" "simard-overseer[bot]" "Simard-Overseer[bot]"
    (by decide) (by decide)
  have hrefused := hblind.admits.mp ((admitRefuses_iff (by decide)).mpr rfl)
  have hsame : "Simard-Overseer[bot]" = "simard-overseer[bot]" :=
    (admitRefuses_iff (by decide)).mp hrefused
  exact absurd hsame (by decide)

end Simard.Overseer
