import Simard.SupplyChain.Steward

/-! Whether a bump is ever abandoned. The tracking issue is filed first and is all that a later
scan knows, so the advisory is bumped only if whoever filed its issue went on to open the pull
request. -/
namespace Simard.SupplyChain
open Simard.Library Action

/-- Issues are kept; pull requests are only added. -/
structure Site.Onward (site next : Site) : Prop where
  others : next.others = site.others
  trackers : next.trackers = site.trackers
  pulls : site.pulls <+: next.pulls

instance : IsTrans Site Site.Onward where
  trans _ _ _ h h' :=
    ⟨h'.others.trans h.others, h'.trackers.trans h.trackers, h.pulls.trans h'.pulls⟩

theorem Site.Onward.refl (site : Site) : site.Onward site := ⟨rfl, rfl, List.prefix_refl _⟩

section Effects

variable {tools : Tools} {answers : Answers}

theorem leaves_pure {α : Type} (a : α) : Leaves Site.Onward (pure a : StewardAction α) := .refl

theorem leaves_check {α : Type} (result : Except StewardError α) :
    Leaves Site.Onward (check result : StewardAction α) := .refl

theorem leaves_report {α : Type} (outcome : Except String α) :
    Leaves Site.Onward (report outcome) := leaves_check _

theorem leaves_get : Leaves Site.Onward (get : StewardAction Site) := .refl

theorem leaves_tree (f : Site → Worktree) :
    Leaves Site.Onward (modify fun site => { site with tree := f site } : StewardAction PUnit) :=
  fun _ => ⟨rfl, rfl, List.prefix_refl _⟩

theorem leaves_resetToScanBase (base : Worktree) :
    Leaves Site.Onward (resetToScanBase answers base) :=
  (leaves_report _).bind fun _ => leaves_tree fun _ => base

theorem leaves_cargoUpdatePrecise (crateName target : String) :
    Leaves Site.Onward (cargoUpdatePrecise answers crateName target) :=
  (leaves_report _).bind fun _ => leaves_tree _

theorem leaves_editIgnores (editDeny editAudit : List Char → Except String (List Char)) :
    Leaves Site.Onward (editIgnores answers editDeny editAudit) := by
  unfold editIgnores
  refine (leaves_report _).bind fun _ => leaves_get.bind fun _ => (leaves_report _).bind fun _ => ?_
  refine (leaves_report _).bind fun _ => (leaves_tree _).bind fun _ =>
    (leaves_report _).bind fun _ => ?_
  refine leaves_get.bind fun _ => (leaves_report _).bind fun _ => (leaves_report _).bind fun _ => ?_
  exact leaves_tree _

theorem leaves_openRemediationPr (spec : PrSpec) :
    Leaves Site.Onward (openRemediationPr answers spec) := by
  intro site
  unfold openRemediationPr
  split
  · exact ⟨rfl, rfl, List.prefix_append _ _⟩
  · exact ⟨rfl, rfl, List.prefix_append _ _⟩
  · exact .refl site

def Files (answers : Answers) (advisory : Advisory) (body : String)
    (action : StewardAction RemediationOutcome) : Prop :=
  ∀ site, (call action site).2 = site ∨
    (answers.createIssue.happened ∧ ∃ issue : GhIssue, issue.body = body ∧
      ({ site with trackers := site.trackers ++ [⟨advisory, issue⟩] } : Site).Onward
        (call action site).2)

theorem files_createIssue_bind (advisory : Advisory) (title body : String)
    {next : GhIssue → StewardAction RemediationOutcome}
    (hnext : ∀ issue, Leaves Site.Onward (next issue)) :
    Files answers advisory body (createIssue answers advisory title body >>= next) := by
  intro site
  unfold createIssue
  split
  · next number url heq =>
    refine .inr ⟨by rw [heq]; rfl, ⟨number, url, title, body⟩, rfl, ?_⟩
    exact hnext ⟨number, url, title, body⟩ _
  · next number url reason heq =>
    exact .inr ⟨by rw [heq]; rfl, ⟨number, url, title, body⟩, rfl, .refl _⟩
  · exact .inl rfl

theorem files_executeBump (advisory : Advisory) (signature crateName installed target : String)
    (base : Worktree) :
    Files answers advisory (issueBody signature advisory (bumpNote crateName target))
      (executeBump tools answers advisory signature crateName installed target base) := by
  refine files_createIssue_bind _ _ _ fun issue => (leaves_resetToScanBase _).bind fun _ => ?_
  refine (leaves_cargoUpdatePrecise _ _).bind fun _ => (leaves_editIgnores _ _).bind fun _ => ?_
  refine (leaves_openRemediationPr _).bind fun _ => ?_
  dsimp only
  split
  · exact (leaves_report _).bind fun _ => leaves_pure _
  · exact (leaves_pure _).bind fun _ => leaves_pure _

theorem files_executeJustifiedIgnore (advisory : Advisory)
    (signature advisoryId crateName reason : String) (base : Worktree) :
    Files answers advisory (issueBody signature advisory ignoreNote)
      (executeJustifiedIgnore tools answers advisory signature advisoryId crateName
        reason base) := by
  refine files_createIssue_bind _ _ _ fun issue => ?_
  split
  · exact leaves_check _
  · refine (leaves_resetToScanBase _).bind fun _ => Leaves.bind ?_ fun _ => ?_
    · unfold addJustifiedIgnore
      split
      · exact leaves_check _
      · exact leaves_editIgnores _ _
    · exact (leaves_openRemediationPr _).bind fun _ => leaves_pure _

theorem files_executeEscalate (advisory : Advisory) (signature advisoryId reason : String) :
    Files answers advisory (issueBody signature advisory (escalationNote reason))
      (executeEscalate answers advisory signature advisoryId reason) :=
  files_createIssue_bind _ _ _ fun _ => leaves_pure _

end Effects

def Turn.note (turn : Turn) : Option String :=
  match turn.decision with
  | .bump crateName _ target => some (bumpNote crateName target)
  | .justifiedIgnore _ _ _ => some ignoreNote
  | .escalate _ reason => some (escalationNote reason)
  | .noAction => none

def Site.Untracked (site : Site) (signature : String) : Prop :=
  ∀ issue ∈ site.openIssues, ¬ carries signature issue

theorem findExisting_eq_none_iff {tools : Tools} {site : Site} {signature : String} :
    findExisting (tools.searchIssues signature site.openIssues) signature = none ↔
      site.Untracked signature := by
  unfold findExisting Site.Untracked
  rw [List.find?_eq_none]
  constructor
  · intro h issue hopen hcarries
    exact h issue ((tools.finds signature _ issue hcarries).mpr hopen) hcarries
  · intro h issue hfound hcarries
    exact h issue ((tools.finds signature _ issue hcarries).mp hfound) hcarries

theorem call_remediate_of_untracked {tools : Tools} {turn : Turn} {site : Site}
    (hsearch : turn.answers.search = .ok ()) (h : site.Untracked (signatureFor turn.advisory)) :
    call (remediate tools turn) site =
      call (carryOut tools turn.answers turn.decision turn.advisory turn.base) site := by
  unfold remediate execute
  simp only [hsearch, report, Except.mapError, call_check_ok, call_get_bind,
    findExisting_eq_none_iff.mpr h]

theorem call_remediate_of_tracked {tools : Tools} {turn : Turn} {site : Site}
    (hsearch : turn.answers.search = .ok ()) (h : ¬ site.Untracked (signatureFor turn.advisory)) :
    ∃ reason, call (remediate tools turn) site =
      (.ok (.skipped turn.advisory.id reason), site) := by
  unfold remediate execute
  simp only [hsearch, report, Except.mapError, call_check_ok, call_get_bind]
  cases hfound : findExisting (tools.searchIssues (signatureFor turn.advisory) site.openIssues)
      (signatureFor turn.advisory) with
  | some issue => exact ⟨_, rfl⟩
  | none => exact absurd (findExisting_eq_none_iff.mp hfound) h

theorem remediate_of_search_error {tools : Tools} {turn : Turn} {site : Site} {reason : String}
    (h : turn.answers.search = .error reason) :
    call (remediate tools turn) site = (.error (.remediationFailed reason), site) := by
  unfold remediate execute
  rw [h]
  rfl

theorem remediate_cases (tools : Tools) (turn : Turn) (site : Site) :
    (call (remediate tools turn) site).2 = site ∨
    (site.Untracked (signatureFor turn.advisory) ∧ turn.answers.search = .ok () ∧
      turn.answers.createIssue.happened ∧
      ∃ note issue, turn.note = some note ∧
        issue.body = issueBody (signatureFor turn.advisory) turn.advisory note ∧
        ({ site with trackers := site.trackers ++ [⟨turn.advisory, issue⟩] } : Site).Onward
          (call (remediate tools turn) site).2) := by
  cases hsearch : turn.answers.search with
  | error reason => exact .inl (congrArg Prod.snd (remediate_of_search_error hsearch))
  | ok _ =>
  by_cases huntracked : site.Untracked (signatureFor turn.advisory)
  case neg =>
    obtain ⟨reason, hcall⟩ := call_remediate_of_tracked hsearch huntracked
    exact .inl (congrArg Prod.snd hcall)
  rw [call_remediate_of_untracked hsearch huntracked]
  have hfiles : ∀ note, turn.note = some note → Files turn.answers turn.advisory
      (issueBody (signatureFor turn.advisory) turn.advisory note)
      (carryOut tools turn.answers turn.decision turn.advisory turn.base) := by
    unfold Turn.note
    cases turn.decision with
    | noAction => nofun
    | bump crateName installed target =>
      rintro _ ⟨⟩
      exact files_executeBump _ _ _ _ _ _
    | justifiedIgnore advisoryId crateName reason =>
      rintro _ ⟨⟩
      exact files_executeJustifiedIgnore _ _ _ _ _ _
    | escalate advisoryId reason =>
      rintro _ ⟨⟩
      exact files_executeEscalate _ _ _ _
  cases hnote : turn.note with
  | none =>
    unfold Turn.note at hnote
    split at hnote
    case h_4 hdecision =>
      rw [hdecision]
      exact .inl rfl
    all_goals cases hnote
  | some note =>
    refine (hfiles note hnote site).imp_right ?_
    rintro ⟨hhappened, issue, hbody, honward⟩
    exact ⟨huntracked, rfl, hhappened, note, issue, rfl, hbody, honward⟩

/-- The steps of a bump up to its pull request are carried out. -/
structure Answers.OpensPull (answers : Answers) : Prop where
  issue : ∃ number url, answers.createIssue = .done number url
  reset : answers.resetToScanBase = .ok ()
  update : answers.cargoUpdatePrecise = .ok ()
  deny : answers.readDeny = .ok () ∧ answers.writeDeny = .ok ()
  audit : answers.readAudit = .ok () ∧ answers.writeAudit = .ok ()
  pull : answers.openRemediationPr.happened

/-- The pull request updates the crate, and its commit names the advisory in neither file. -/
structure PullRequest.Remediates (tools : Tools) (id crateName : String) (pull : PullRequest) :
    Prop where
  branch : pull.spec.branch = branchName tools id
  updated : ∃ target, pull.commit.updated = some (crateName, target)
  deny : (lines pull.commit.deny).countP (names id) = 0
  audit : (lines pull.commit.audit).countP (names id) = 0

section Bump

variable {tools : Tools} {answers : Answers} {advisory : Advisory}
  {signature crateName installed target : String} {base : Worktree} {site : Site}

theorem pulls_executeBump (h : answers.OpensPull) :
    ∃ issueUrl, (call (executeBump tools answers advisory signature crateName installed target base)
      site).2.pulls = site.pulls ++
        [⟨bumpSpec tools advisory crateName target issueUrl answers.hasCiTriggerToken,
          some (crateName, target), removeIgnoreEntry base.deny advisory.id,
          removeIgnoreEntry base.audit advisory.id⟩] := by
  obtain ⟨number, url, hissue⟩ := h.issue
  have hpull := h.pull
  refine ⟨url, ?_⟩
  unfold executeBump createIssue resetToScanBase cargoUpdatePrecise removeIgnore editIgnores
    openRemediationPr
  rw [hissue, h.reset, h.update, h.deny.1, h.deny.2, h.audit.1, h.audit.2]
  cases hopen : answers.openRemediationPr with
  | refused reason => rw [hopen] at hpull; cases hpull
  | lost number url reason => rfl
  | done number url =>
    -- merging comes after the pull request
    cases htoken : answers.hasCiTriggerToken with
    | false => rfl
    | true => cases answers.selfMergeIfGreen <;> rfl

theorem remediates_executeBump (h : answers.OpensPull)
    (hdeny : (lines base.deny).countP (names advisory.id) ≤ 1)
    (haudit : (lines base.audit).countP (names advisory.id) ≤ 1) :
    ∃ pull ∈ (call (executeBump tools answers advisory signature crateName installed target base)
      site).2.pulls, pull.Remediates tools advisory.id crateName := by
  obtain ⟨issueUrl, hpulls⟩ := pulls_executeBump h
  rw [hpulls]
  refine ⟨_, List.mem_append_right _ List.mem_cons_self, ?_⟩
  exact {
    branch := rfl
    updated := ⟨target, rfl⟩
    deny := (removeIgnoreEntry_eq_zero_iff _ _).mpr hdeny
    audit := (removeIgnoreEntry_eq_zero_iff _ _).mpr haudit }

theorem call_report_ok {α : Type} {outcome : Except String α} {a : α} {site next : Site}
    (h : call (report outcome) site = (.ok a, next)) : outcome = .ok a ∧ next = site := by
  cases outcome with
  | error reason => cases h
  | ok b =>
    cases h
    exact ⟨rfl, rfl⟩

theorem opensPull_of_ok {outcome : RemediationOutcome}
    (h :
      (call (executeBump tools answers advisory signature crateName installed target base) site).1 =
      .ok outcome) : answers.OpensPull := by
  obtain ⟨issue, _, hissue, h⟩ := call_bind_ok.mp (Prod.ext h rfl)
  obtain ⟨_, _, hreset, h⟩ := call_bind_ok.mp h
  obtain ⟨_, _, hupdate, h⟩ := call_bind_ok.mp h
  obtain ⟨_, _, hremove, h⟩ := call_bind_ok.mp h
  obtain ⟨_, _, hpull, -⟩ := call_bind_ok.mp h
  obtain ⟨_, _, hreset, -⟩ := call_bind_ok.mp hreset
  obtain ⟨_, _, hupdate, -⟩ := call_bind_ok.mp hupdate
  obtain ⟨_, _, hreadDeny, hremove⟩ := call_bind_ok.mp hremove
  obtain ⟨_, _, -, hremove⟩ := call_bind_ok.mp hremove
  obtain ⟨_, _, -, hremove⟩ := call_bind_ok.mp hremove
  obtain ⟨_, _, hwriteDeny, hremove⟩ := call_bind_ok.mp hremove
  obtain ⟨_, _, -, hremove⟩ := call_bind_ok.mp hremove
  obtain ⟨_, _, hreadAudit, hremove⟩ := call_bind_ok.mp hremove
  obtain ⟨_, _, -, hremove⟩ := call_bind_ok.mp hremove
  obtain ⟨_, _, -, hremove⟩ := call_bind_ok.mp hremove
  obtain ⟨_, _, hwriteAudit, -⟩ := call_bind_ok.mp hremove
  exact {
    issue := by
      unfold createIssue at hissue
      split at hissue
      · next number url hdone => exact ⟨number, url, hdone⟩
      · cases hissue
      · cases hissue
    reset := (call_report_ok hreset).1
    update := (call_report_ok hupdate).1
    deny := ⟨(call_report_ok hreadDeny).1, (call_report_ok hwriteDeny).1⟩
    audit := ⟨(call_report_ok hreadAudit).1, (call_report_ok hwriteAudit).1⟩
    pull := by
      unfold openRemediationPr at hpull
      split at hpull
      · next hdone => rw [hdone]; rfl
      · cases hpull
      · cases hpull }

end Bump

namespace Site

/-- The site before the first scan, whatever is checked out. -/
def initial (tree : Worktree) : Site := ⟨[], [], [], tree⟩

end Site

def Turn.concerns (turn : Turn) (id crateName : String) : Bool :=
  turn.advisory.id = id && turn.advisory.crateName = crateName

def Tracker.concerns (tracker : Tracker) (id crateName : String) : Bool :=
  tracker.advisory.id = id && tracker.advisory.crateName = crateName

def Decision.isBump : Decision → Bool
  | .bump _ _ _ => true
  | _ => false

theorem Decision.isBump_iff {decision : Decision} :
    decision.isBump ↔ ∃ crateName installed target,
      decision = .bump crateName installed target := by
  cases decision <;> simp [isBump]

theorem Turn.signatureFor_advisory {turn : Turn} {id crateName : String}
    (h : turn.concerns id crateName) :
      signatureFor turn.advisory = failureSignature id crateName := by
  rw [Turn.concerns, Bool.and_eq_true, decide_eq_true_eq, decide_eq_true_eq] at h
  rw [signatureFor, h.1, h.2]

theorem carries_issueBody (signature : String) (advisory : Advisory) (note : String)
    {issue : GhIssue} (h : issue.body = issueBody signature advisory note) :
    carries signature issue := by
  have hinfix (before line after : String) : line.toList <:+: (before ++ line ++ after).toList := by
    rw [String.toList_append, String.toList_append]
    exact List.infix_append _ _ _
  rw [carries, h, containsText_iff]
  exact hinfix _ _ _

/-- After a turn that decides on a bump and returns without an error, a pull request bumps the
advisory and ignores it no longer. -/
def Completes (tools : Tools) (id crateName : String) (t : Machine.Transition Site SiteEvent) :
    Prop :=
  ∀ turn outcome, t.event = .turn turn → turn.concerns id crateName → turn.decision.isBump →
    (call (remediate tools turn) t.before).1 = .ok outcome →
      ∃ pull ∈ t.after.pulls, pull.Remediates tools id crateName

/-- The issue of a turn that files one: of the advisory only by a bump that gets to its pull
request, in files that name it once at most; of another advisory, and by anybody else, only
without its signature. -/
def Site.Orderly (id crateName : String) (site : Site) : SiteEvent → Prop
  | .issueOpened issue => ¬ carries (failureSignature id crateName) issue
  | .turn turn =>
      ∀ note, site.Untracked (signatureFor turn.advisory) → turn.answers.search = .ok () →
        turn.answers.createIssue.happened → turn.note = some note →
        if turn.concerns id crateName then
          turn.decision.isBump ∧ turn.answers.OpensPull ∧
            (lines turn.base.deny).countP (names id) ≤ 1 ∧
            (lines turn.base.audit).countP (names id) ≤ 1
        else
          ¬ containsText ("stewardship-signature: " ++ failureSignature id crateName).toList
            (issueBody (signatureFor turn.advisory) turn.advisory note).toList

section Runs

variable {tools : Tools} {id crateName : String} {site : Site}

theorem remediates_carryOut {turn : Turn} (hconcerns : turn.concerns id crateName)
    (hbump : turn.decision.isBump) (h : turn.answers.OpensPull)
    (hdeny : (lines turn.base.deny).countP (names id) ≤ 1)
    (haudit : (lines turn.base.audit).countP (names id) ≤ 1) :
    ∃ pull ∈
      (call (carryOut tools turn.answers turn.decision turn.advisory turn.base) site).2.pulls,
      pull.Remediates tools id crateName := by
  rw [Turn.concerns, Bool.and_eq_true, decide_eq_true_eq, decide_eq_true_eq] at hconcerns
  obtain ⟨rfl, rfl⟩ := hconcerns
  obtain ⟨name, installed, target, hdecision⟩ := Decision.isBump_iff.mp hbump
  obtain ⟨rfl, -⟩ := decide_bump hdecision
  rw [hdecision]
  exact remediates_executeBump h hdeny haudit

/-- Every tracking issue carries the signature of its advisory, and the advisory has one at most. -/
structure Site.Accounted (id crateName : String) (site : Site) : Prop where
  carried : ∀ tracker ∈ site.trackers, carries (signatureFor tracker.advisory) tracker.issue
  once : site.trackers.countP (·.concerns id crateName) ≤ 1

theorem Site.Accounted.file (h : site.Accounted id crateName) {advisory : Advisory}
    {issue : GhIssue} (hissue : carries (signatureFor advisory) issue)
    (huntracked : site.Untracked (signatureFor advisory)) {next : Site}
    (hnext : next.trackers = site.trackers ++ [⟨advisory, issue⟩]) :
      next.Accounted id crateName where
  carried := by
    rw [hnext]
    intro tracker htracker
    rcases List.mem_append.mp htracker with htracker | htracker
    · exact h.carried tracker htracker
    · rw [List.mem_singleton.mp htracker]
      exact hissue
  once := by
    rw [hnext, List.countP_append]
    by_cases hconcerns : (⟨advisory, issue⟩ : Tracker).concerns id crateName
    · -- an issue filed before would be open, and found
      have hnone : site.trackers.countP (·.concerns id crateName) = 0 := by
        rw [List.countP_eq_zero]
        intro tracker htracker htracks
        refine huntracked tracker.issue ?_ ?_
        · exact List.mem_append_right _ (List.mem_map_of_mem htracker)
        · have hcarried := h.carried tracker htracker
          rw [Tracker.concerns, Bool.and_eq_true, decide_eq_true_eq, decide_eq_true_eq]
            at hconcerns htracks
          rwa [signatureFor, htracks.1, htracks.2, ← hconcerns.1, ← hconcerns.2] at hcarried
      rw [hnone, List.countP_singleton, if_pos hconcerns]
    · rw [List.countP_singleton, if_neg hconcerns]
      exact h.once

theorem Site.Accounted.step (h : site.Accounted id crateName) (event : SiteEvent) :
    (site.step tools event).Accounted id crateName := by
  cases event with
  | issueOpened issue => exact ⟨h.carried, h.once⟩
  | turn turn =>
    obtain hsame | ⟨huntracked, -, -, note, issue, -, hbody, honward⟩ :=
      remediate_cases tools turn site
    · change Site.Accounted id crateName (call (remediate tools turn) site).2
      rwa [hsame]
    · exact h.file (carries_issueBody _ _ _ hbody) huntracked honward.trackers

/-- An open issue with the advisory's signature stands for a pull request that bumps it. -/
def Site.Backed (tools : Tools) (id crateName : String) (site : Site) : Prop :=
  ¬ site.Untracked (failureSignature id crateName) →
    ∃ pull ∈ site.pulls, pull.Remediates tools id crateName

theorem Site.Untracked.append {signature : String} (h : site.Untracked signature) {next : Site}
    {advisory : Advisory} {issue : GhIssue} (hothers : next.others = site.others)
    (htrackers : next.trackers = site.trackers ++ [⟨advisory, issue⟩])
    (hissue : ¬ carries signature issue) : next.Untracked signature := by
  intro other hother
  unfold Site.openIssues at hother
  rw [hothers, htrackers, List.map_append, ← List.append_assoc] at hother
  rcases List.mem_append.mp hother with hother | hother
  · exact h other hother
  · rw [List.map_singleton, List.mem_singleton] at hother
    rwa [hother]

theorem Site.Backed.step (h : site.Backed tools id crateName) {event : SiteEvent}
    (horderly : site.Orderly id crateName event) :
    (site.step tools event).Backed tools id crateName := by
  cases event with
  | issueOpened issue =>
    intro htracked
    apply h
    intro huntracked
    apply htracked
    intro other hother
    change other ∈ (site.others ++ [issue]) ++ site.trackers.map (·.issue) at hother
    rw [List.mem_append, List.mem_append, List.mem_singleton] at hother
    obtain (hother | rfl) | hother := hother
    · exact huntracked other (List.mem_append_left _ hother)
    · exact horderly
    · exact huntracked other (List.mem_append_right _ hother)
  | turn turn =>
    obtain hsame | ⟨huntracked, hsearch, hhappened, note, issue, hnote, hbody, honward⟩ :=
      remediate_cases tools turn site
    · change Site.Backed tools id crateName (call (remediate tools turn) site).2
      rwa [hsame]
    · have hfiled := horderly note huntracked hsearch hhappened hnote
      intro htracked
      split at hfiled
      · next hconcerns =>
        change ∃ pull ∈ (call (remediate tools turn) site).2.pulls, _
        rw [call_remediate_of_untracked hsearch huntracked]
        exact remediates_carryOut hconcerns hfiled.1 hfiled.2.1 hfiled.2.2.1 hfiled.2.2.2
      · have hissue : ¬ carries (failureSignature id crateName) issue := by
          rwa [carries, hbody]
        by_cases hbefore : site.Untracked (failureSignature id crateName)
        · exact absurd (hbefore.append honward.others honward.trackers hissue) htracked
        · obtain ⟨pull, hpull, hremediates⟩ := h hbefore
          exact ⟨pull, honward.pulls.mem hpull, hremediates⟩

theorem Site.Backed.completes (h : site.Backed tools id crateName) {event : SiteEvent}
    (horderly : site.Orderly id crateName event) :
    Completes tools id crateName ⟨site, event, site.step tools event⟩ := by
  intro turn outcome hevent hconcerns hbump hok
  cases hevent
  change ∃ pull ∈ (call (remediate tools turn) site).2.pulls, _
  change (call (remediate tools turn) site).1 = .ok outcome at hok
  cases hsearch : turn.answers.search with
  | error reason =>
    rw [remediate_of_search_error hsearch] at hok
    cases hok
  | ok _ =>
  by_cases huntracked : site.Untracked (signatureFor turn.advisory)
  · rw [call_remediate_of_untracked hsearch huntracked] at hok ⊢
    obtain ⟨name, installed, target, hdecision⟩ := Decision.isBump_iff.mp hbump
    have hopens : turn.answers.OpensPull := by
      rw [hdecision] at hok
      exact opensPull_of_ok hok
    obtain ⟨number, url, hissue⟩ := hopens.issue
    have hfiled := horderly (bumpNote name target) huntracked hsearch (by rw [hissue]; rfl)
      (by rw [Turn.note, hdecision])
    rw [if_pos hconcerns] at hfiled
    exact remediates_carryOut hconcerns hbump hopens hfiled.2.2.1 hfiled.2.2.2
  · obtain ⟨reason, hcall⟩ := call_remediate_of_tracked hsearch huntracked
    rw [hcall]
    rw [turn.signatureFor_advisory hconcerns] at huntracked
    exact h huntracked

end Runs

theorem Site.accounted_initial (id crateName : String) (tree : Worktree) :
    (initial tree).Accounted id crateName := ⟨nofun, Nat.zero_le 1⟩

theorem Site.backed_initial (tools : Tools) (id crateName : String) (tree : Worktree) :
    (initial tree).Backed tools id crateName := fun htracked => (htracked nofun).elim

/-- Runs in which the advisory's issue is filed only by a bump that gets to its pull request. -/
theorem bump_never_abandoned (tools : Tools) (id crateName : String) (tree : Worktree)
    (events : List SiteEvent)
    (horderly : ∀ t ∈ (siteMachine tools).trace (.initial tree) events,
      t.before.Orderly id crateName t.event) :
    ∀ t ∈ (siteMachine tools).trace (.initial tree) events,
      Completes tools id crateName t ∧ t.after.trackers.countP (·.concerns id crateName) ≤ 1 := by
  rintro ⟨before, event, after⟩ ht
  have hkept : ∀ site event, site.Accounted id crateName →
      ((siteMachine tools).step site event).Accounted id crateName := fun _ event h => h.step event
  have hserved : ∀ site event, site.Orderly id crateName event → site.Backed tools id crateName →
      ((siteMachine tools).step site event).Backed tools id crateName := fun _ _ hok h => h.step hok
  obtain ⟨haccounted, hafter⟩ := (siteMachine tools).invariant_trace hkept
    (Site.accounted_initial id crateName tree) ht
  have hbacked := (siteMachine tools).invariant_trace_of hserved
    (Site.backed_initial tools id crateName tree) horderly ht
  dsimp only at haccounted hafter hbacked
  subst hafter
  exact ⟨hbacked.completes (horderly _ ht), (haccounted.step event).once⟩

def filterTools : Tools where
  searchIssues signature issues := issues.filter (carries signature)
  finds signature issues issue h := by rw [List.mem_filter, and_iff_left h]
  ignoredIds content id := (lines content).any (names id)
  toLowercase s := String.ofList (asciiLowercase s)

def allDone : Answers where
  search := .ok ()
  createIssue := .done 7 "https://github.com/rysweet/Simard/issues/7"
  resetToScanBase := .ok ()
  cargoUpdatePrecise := .ok ()
  readDeny := .ok ()
  writeDeny := .ok ()
  readAudit := .ok ()
  writeAudit := .ok ()
  hasCiTriggerToken := false
  openRemediationPr := .done 8 "https://github.com/rysweet/Simard/pull/8"
  selfMergeIfGreen := .ok false

def checkedOut : Worktree where
  updated := none
  deny :=
    ("[advisories]\nignore = [\n    # no fix yet\n" ++
      "    \x7b id = \"RUSTSEC-1\", reason = \"\" \x7d,\n]\n").toList
  audit := "[advisories]\nignore = [\n    \"RUSTSEC-1\",\n]\n".toList

def fixedAdvisory : Advisory :=
  ⟨"RUSTSEC-1", "openssl", "0.10.1", .fixed ">= 0.10.2", "", ""⟩

def unresolvedTurn : Turn := ⟨fixedAdvisory, ⟨none, false, true⟩, checkedOut, allDone⟩

def resolvedTurn : Turn := ⟨fixedAdvisory, ⟨some "0.10.2", false, true⟩, checkedOut, allDone⟩

theorem orderly_resolvedTurn :
    (Site.initial checkedOut).Orderly "RUSTSEC-1" "openssl" (.turn resolvedTurn) := by
  intro note _ _ _ _
  rw [if_pos (by decide)]
  refine ⟨rfl, ?_, by decide, by decide⟩
  exact ⟨⟨_, _, rfl⟩, rfl, rfl, ⟨rfl, rfl⟩, ⟨rfl, rfl⟩, rfl⟩

theorem resolved_bumped :
    (∀ t ∈ (siteMachine filterTools).trace (.initial checkedOut) [.turn resolvedTurn],
      t.before.Orderly "RUSTSEC-1" "openssl" t.event) ∧
    ∀ t ∈ (siteMachine filterTools).trace (.initial checkedOut) [.turn resolvedTurn],
      Completes filterTools "RUSTSEC-1" "openssl" t ∧
        t.after.trackers.countP (·.concerns "RUSTSEC-1" "openssl") ≤ 1 := by
  have horderly : ∀ t ∈ (siteMachine filterTools).trace (.initial checkedOut) [.turn resolvedTurn],
      t.before.Orderly "RUSTSEC-1" "openssl" t.event := by
    intro t ht
    rw [Machine.trace, Machine.trace, List.mem_singleton] at ht
    rw [ht]
    exact orderly_resolvedTurn
  exact ⟨horderly, bump_never_abandoned filterTools "RUSTSEC-1" "openssl" checkedOut _ horderly⟩

def escalationIssue : GhIssue where
  number := 7
  url := "https://github.com/rysweet/Simard/issues/7"
  title := "[supply-chain] " ++ "RUSTSEC-1" ++ ": manual remediation required"
  body := issueBody (signatureFor fixedAdvisory) fixedAdvisory (escalationNote
    ("RUSTSEC-1" ++ ": a patched version exists but no version " ++
      "satisfying the advisory resolves against Cargo.lock's constraints"))

def escalatedSite : Site := ⟨[], [⟨fixedAdvisory, escalationIssue⟩], [], checkedOut⟩

theorem step_unresolvedTurn :
    (siteMachine filterTools).step (.initial checkedOut) (.turn unresolvedTurn) =
      escalatedSite := by
  have huntracked :
    (Site.initial checkedOut).Untracked (signatureFor unresolvedTurn.advisory) := nofun
  rw [siteMachine_turn, call_remediate_of_untracked rfl huntracked]
  rfl

/-- The escalation's issue is open when the fix resolves: the bump is skipped. -/
theorem escalated_never_bumped :
    ¬ ∀ t ∈ (siteMachine filterTools).trace (.initial checkedOut)
        [.turn unresolvedTurn, .turn resolvedTurn],
      Completes filterTools "RUSTSEC-1" "openssl" t ∧
        t.after.trackers.countP (·.concerns "RUSTSEC-1" "openssl") ≤ 1 := by
  intro h
  have htracked : ¬ escalatedSite.Untracked (signatureFor resolvedTurn.advisory) := fun h =>
    h escalationIssue List.mem_cons_self (carries_issueBody _ _ _ rfl)
  obtain ⟨reason, hcall⟩ := call_remediate_of_tracked rfl htracked
  rw [Machine.trace, Machine.trace, step_unresolvedTurn] at h
  have hlast := h _ (List.mem_cons_of_mem _ List.mem_cons_self)
  obtain ⟨pull, hpull, -⟩ := hlast.1 resolvedTurn _ rfl rfl rfl (congrArg Prod.fst hcall)
  rw [siteMachine_turn, hcall] at hpull
  cases hpull

end Simard.SupplyChain
