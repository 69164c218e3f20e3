import Simard.Library.History
import Simard.Merging.MergeOps

/-! What a merge has behind it. Whatever the outside answers, a pull request is merged at most
once, with its author checked and its diff scanned, on the word of the judge about the snapshot
viewed last, and the operator is told of every merge. -/
namespace Simard.Merging
open Simard.Library

abbrev MergeLog := List (Sigma MergeAns)

def MergeCmd.isView : MergeCmd → Bool
  | .viewPr => true
  | _ => false

def MergeCmd.isDiff : MergeCmd → Bool
  | .diff => true
  | _ => false

def MergeCmd.isSleep : MergeCmd → Bool
  | .sleep _ => true
  | _ => false

def MergeCmd.isSquash : MergeCmd → Bool
  | .squashMerge => true
  | _ => false

def MergeCmd.isNotify : MergeCmd → Bool
  | .notify _ => true
  | _ => false

def authored (author : String) : Sigma MergeAns := ⟨.author, Except.ok author⟩

def viewed (snapshot : PrSnapshot) : Sigma MergeAns := ⟨.viewPr, Except.ok snapshot⟩

def fetched (diff : List Char) : Sigma MergeAns := ⟨.diff, Except.ok diff⟩

def judged (snapshot : PrSnapshot) (outcome : JudgeOutcome) : Sigma MergeAns :=
  ⟨.judge snapshot, Except.ok outcome⟩

def squashed : Sigma MergeAns := ⟨.squashMerge, Except.ok ()⟩

section Needs

variable (ops : MergePrOps) (repo : String) (pr : Nat) (log : MergeLog)

def AuthorChecked : Prop :=
  ops.recursion.isSome || ops.automergeAuthor.isSome → ∃ author, authored author ∈ log ∧
    (∀ guard ∈ ops.recursion, guard.admits repo pr author = .ok ()) ∧
    ∀ expected ∈ ops.automergeAuthor, eqIgnoreAsciiCase author expected = true

def ScansPassed : Prop :=
  ∃ diff, (log.filter fun entry => entry.1.isDiff) = [fetched diff] ∧
    ∀ check ∈ runDiffScans ops.toLowercase diff, check.passed = true

/-- The log ends with a snapshot that passes the objective gates, without the label that asks
for a human, and with the judge's word that this snapshot is ready. -/
def ApprovedLast : Prop :=
  ∃ earlier snapshot outcome, log = earlier ++ [viewed snapshot, judged snapshot outcome] ∧
    evaluateObjectiveGates snapshot ops.baseAllowlist = .ok () ∧
    creativeIdeaPrLabel ∉ snapshot.labels ∧ outcome.verdict = .ready

/-- What a whole merge call did, and what it returned. -/
structure Gated (result : Except OverseerError Unit) : Prop where
  once : (log.countP fun entry => entry.1.isSquash) ≤ 1
  gated : ∀ before answer after, log = before ++ ⟨.squashMerge, answer⟩ :: after →
    AuthorChecked ops repo pr before ∧ ScansPassed ops before ∧ ApprovedLast ops before
  ok_iff : result = .ok () ↔ squashed ∈ log
  announced : result = .ok () → ∃ before after, log = before ++ squashed :: after ∧
    (before.countP fun entry => entry.1.isNotify) = 0 ∧
    (after.countP fun entry => entry.1.isNotify) = 1
  views : (log.countP fun entry => entry.1.isView) ≤ ops.poll.maxAttempts + 3
  sleeps : (log.countP fun entry => entry.1.isSleep) ≤ ops.poll.maxAttempts

end Needs

def Preparing (log : MergeLog) : Prop :=
  ∀ entry ∈ log, entry.1.isSquash = false ∧ entry.1.isNotify = false

/-- Part of a call that merges nothing, with so many views and sleeps at most. -/
structure Stage (views sleeps : Nat) (log : MergeLog) : Prop where
  preparing : Preparing log
  views : (log.countP fun entry => entry.1.isView) ≤ views
  sleeps : (log.countP fun entry => entry.1.isSleep) ≤ sleeps

variable {ops : MergePrOps} {repo : String} {pr : Nat} {log : MergeLog}

theorem Stage.mono {views sleeps views' sleeps' : Nat} (h : Stage views sleeps log)
    (hviews : views ≤ views') (hsleeps : sleeps ≤ sleeps') : Stage views' sleeps' log :=
  ⟨h.preparing, h.views.trans hviews, h.sleeps.trans hsleeps⟩

theorem Stage.append {views sleeps views' sleeps' : Nat} {rest : MergeLog}
    (h : Stage views sleeps log) (h' : Stage views' sleeps' rest) :
    Stage (views + views') (sleeps + sleeps') (log ++ rest) := by
  refine ⟨?_, ?_, ?_⟩
  · intro entry hentry
    rcases List.mem_append.mp hentry with hentry | hentry
    · exact h.preparing entry hentry
    · exact h'.preparing entry hentry
  · rw [List.countP_append]
    exact Nat.add_le_add h.views h'.views
  · rw [List.countP_append]
    exact Nat.add_le_add h.sleeps h'.sleeps

theorem stage_nil : Stage 0 0 [] := ⟨nofun, Nat.le_refl 0, Nat.le_refl 0⟩

theorem stage_view (answer : Except String PrSnapshot) : Stage 1 0 [⟨.viewPr, answer⟩] :=
  ⟨fun entry hentry => by rw [List.mem_singleton.mp hentry]; exact ⟨rfl, rfl⟩, Nat.le_refl 1,
    Nat.le_refl 0⟩

theorem stage_other {entry : Sigma MergeAns} (hsquash : entry.1.isSquash = false)
    (hnotify : entry.1.isNotify = false) (hview : entry.1.isView = false)
    (hsleep : entry.1.isSleep = false) : Stage 0 0 [entry] :=
  ⟨fun e he => by rw [List.mem_singleton.mp he]; exact ⟨hsquash, hnotify⟩, by simp [hview],
    by simp [hsleep]⟩

theorem stage_sleep (secs : Nat) : Stage 0 1 [⟨.sleep secs, ()⟩] :=
  ⟨fun entry hentry => by rw [List.mem_singleton.mp hentry]; exact ⟨rfl, rfl⟩, Nat.le_refl 0,
    Nat.le_refl 1⟩

def Undiffed (log : MergeLog) : Prop := (log.filter fun entry => entry.1.isDiff) = []

theorem viewPr_runs {what : String} {result : Except OverseerError PrSnapshot}
    (h : (MergePrOps.viewPr what).Runs log result) :
    (∃ e, log = [⟨.viewPr, Except.error e⟩] ∧ result = .error (.capability what e)) ∨
      ∃ snapshot, log = [viewed snapshot] ∧ result = .ok snapshot := by
  obtain ⟨answer, rfl, rfl⟩ := Fallible.runs_attempt.mp h
  cases answer with
  | error e => exact .inl ⟨e, rfl, rfl⟩
  | ok snapshot => exact .inr ⟨snapshot, rfl, rfl⟩

theorem authorRefusal_ok {author : String} (h : ops.authorRefusal repo pr author = .ok ()) :
    (∀ guard ∈ ops.recursion, guard.admits repo pr author = .ok ()) ∧
      ∀ expected ∈ ops.automergeAuthor, eqIgnoreAsciiCase author expected = true := by
  unfold MergePrOps.authorRefusal at h
  split at h
  · cases h
  next hadmits =>
    split at h
    · cases h
    next hmatch =>
      constructor
      · intro guard hguard
        rw [Option.mem_def.mp hguard] at hadmits
        exact hadmits
      · intro expected hexpected
        simpa [Option.mem_def.mp hexpected] using hmatch

theorem checkAuthor_runs {result : Except OverseerError Unit}
    (h : (ops.checkAuthor repo pr).Runs log result) :
    Stage 0 0 log ∧ Undiffed log ∧ (result = .ok () → AuthorChecked ops repo pr log) := by
  unfold MergePrOps.checkAuthor at h
  split at h
  · obtain ⟨answer, rfl, rfl⟩ := Fallible.runs_attempt.mp h
    refine ⟨stage_other rfl rfl rfl rfl, rfl, ?_⟩
    cases answer with
    | error e => exact nofun
    | ok author =>
      intro hok _
      exact ⟨author, List.mem_singleton_self _, authorRefusal_ok hok⟩
  next hunset =>
    obtain ⟨rfl, rfl⟩ := Fallible.runs_pure.mp h
    exact ⟨stage_nil, rfl, fun _ hset => absurd hset hunset⟩

theorem verify_runs {result : Except OverseerError VerifyReport}
    (h : ops.verify.Runs log result) :
    Stage 1 0 log ∧ ∀ report, result = .ok report → report.ready = true → ScansPassed ops log := by
  rcases Fallible.runs_bind.mp h with ⟨e, hview, rfl⟩ | ⟨left, right, snapshot, rfl, hview, hrest⟩
  · rcases viewPr_runs hview with ⟨e', rfl, -⟩ | ⟨_, -, hok⟩
    · exact ⟨stage_view _, nofun⟩
    · cases hok
  rcases viewPr_runs hview with ⟨_, -, hok⟩ | ⟨_, rfl, hok⟩
  · cases hok
  obtain rfl := Except.ok.inj hok
  rcases Fallible.runs_bind.mp hrest with ⟨e, hdiff, rfl⟩ | ⟨left, right, diff, rfl, hdiff, hend⟩
  · obtain ⟨answer, rfl, -⟩ := Fallible.runs_attempt.mp hdiff
    exact ⟨(stage_view (.ok snapshot)).append (stage_other rfl rfl rfl rfl), nofun⟩
  · obtain ⟨answer, rfl, hanswer⟩ := Fallible.runs_attempt.mp hdiff
    obtain ⟨rfl, rfl⟩ := Fallible.runs_pure.mp hend
    refine ⟨(stage_view (.ok snapshot)).append (stage_other rfl rfl rfl rfl), ?_⟩
    intro report hreport hready
    obtain rfl := Except.ok.inj hreport
    refine ⟨diff, ?_, fun check hcheck => ?_⟩
    · change [(⟨.diff, answer⟩ : Sigma MergeAns)] = _
      rw [show answer = Except.ok diff from hanswer.symm]
      rfl
    · exact List.all_eq_true.mp hready check (List.mem_cons_of_mem _ hcheck)

theorem pollOnce_runs {result : Except OverseerError Bool} (h : ops.pollOnce.Runs log result) :
    ∃ answer, log = [⟨.viewPr, answer⟩] := by
  obtain ⟨answer, rfl, -⟩ := Fallible.runs_attempt.mp h
  exact ⟨answer, rfl⟩

theorem pollUntilGreen_runs {attempts : Nat} {result : Except OverseerError Unit}
    (h : (ops.pollUntilGreen attempts).Runs log result) :
    Stage (attempts + 1) attempts log ∧ Undiffed log := by
  induction attempts generalizing log with
  | zero =>
    rcases Fallible.runs_bind.mp h with ⟨e, honce, -⟩ | ⟨left, right, green, rfl, honce, hrest⟩
    · obtain ⟨answer, rfl⟩ := pollOnce_runs honce
      exact ⟨stage_view answer, rfl⟩
    · obtain ⟨answer, rfl⟩ := pollOnce_runs honce
      obtain rfl : right = [] := by
        split at hrest
        · exact (Fallible.runs_pure.mp hrest).1
        · exact (Fallible.runs_throw.mp hrest).1
      exact ⟨stage_view answer, rfl⟩
  | succ attempts ih =>
    rcases Fallible.runs_bind.mp h with ⟨e, honce, -⟩ | ⟨left, right, green, rfl, honce, hrest⟩
    · obtain ⟨answer, rfl⟩ := pollOnce_runs honce
      exact ⟨(stage_view answer).mono (by omega) (by omega), rfl⟩
    · obtain ⟨answer, rfl⟩ := pollOnce_runs honce
      split at hrest
      · obtain ⟨rfl, -⟩ := Fallible.runs_pure.mp hrest
        exact ⟨(stage_view answer).mono (by omega) (by omega), rfl⟩
      · rcases Fallible.runs_bind.mp hrest with ⟨e, hsleep, -⟩ | ⟨left, again, _,
          rfl, hsleep, hagain⟩
        · obtain ⟨_, -, hok⟩ := Fallible.runs_attempt.mp hsleep
          cases hok
        · obtain ⟨_, rfl, -⟩ := Fallible.runs_attempt.mp hsleep
          obtain ⟨hstage, hundiffed⟩ := ih hagain
          have hpolls := (stage_view answer).append
            ((stage_sleep ops.poll.intervalSecs).append hstage)
          exact ⟨hpolls.mono (by omega) (by omega), hundiffed⟩

theorem stage_judge (snapshot : PrSnapshot) (answer : Except String JudgeOutcome) :
    Stage 1 0 [viewed snapshot, ⟨.judge snapshot, answer⟩] :=
  (stage_view (.ok snapshot)).append (stage_other rfl rfl rfl rfl)

theorem mergePrIfMergeReadyWithJudge_runs {result : Except OverseerError MergeOutcome}
    (h : (ops.mergePrIfMergeReadyWithJudge repo pr).Runs log result) :
    (Stage 1 0 log ∧ ∀ number name, result ≠ .ok (.merged number name)) ∨
    ∃ snapshot outcome answer,
      log = [viewed snapshot, judged snapshot outcome, ⟨.squashMerge, answer⟩] ∧
      evaluateObjectiveGates snapshot ops.baseAllowlist = .ok () ∧
      creativeIdeaPrLabel ∉ snapshot.labels ∧ outcome.verdict = .ready ∧
      ((∃ e, answer = Except.error e ∧ result = .error (.capability "merge" e)) ∨
        answer = Except.ok () ∧ result = .ok (.merged pr repo)) := by
  rcases Fallible.runs_bind.mp h with ⟨e, hview, rfl⟩ | ⟨left, right, snapshot, rfl, hview, hrest⟩
  · rcases viewPr_runs hview with ⟨e', rfl, -⟩ | ⟨_, -, hok⟩
    · exact .inl ⟨stage_view _, nofun⟩
    · cases hok
  rcases viewPr_runs hview with ⟨_, -, hok⟩ | ⟨_, rfl, hok⟩
  · cases hok
  obtain rfl := Except.ok.inj hok
  split at hrest
  · obtain ⟨rfl, rfl⟩ := Fallible.runs_pure.mp hrest
    exact .inl ⟨stage_view _, nofun⟩
  next hlabel =>
    split at hrest
    · obtain ⟨rfl, rfl⟩ := Fallible.runs_pure.mp hrest
      exact .inl ⟨stage_view _, nofun⟩
    next hgates =>
      rcases Fallible.runs_bind.mp hrest with
        ⟨e, hjudge, rfl⟩ | ⟨left, right, outcome, rfl, hjudge, hend⟩
      · obtain ⟨answer, rfl, -⟩ := Fallible.runs_attempt.mp hjudge
        exact .inl ⟨stage_judge snapshot answer, nofun⟩
      obtain ⟨answer, rfl, hanswer⟩ := Fallible.runs_attempt.mp hjudge
      cases answer with
      | error e => cases hanswer
      | ok given =>
        obtain rfl := Except.ok.inj hanswer
        split at hend
        next hready =>
          rcases Fallible.runs_bind.mp hend with
            ⟨e, hsquash, rfl⟩ | ⟨left, right, _, rfl, hsquash, hdone⟩
          · obtain ⟨answer, rfl, hanswer⟩ := Fallible.runs_attempt.mp hsquash
            cases answer with
            | error e' =>
              obtain rfl := Except.error.inj hanswer
              exact .inr ⟨snapshot, outcome, .error e', rfl, hgates, hlabel, hready,
                .inl ⟨e', rfl, rfl⟩⟩
            | ok _ => cases hanswer
          · obtain ⟨answer, rfl, hanswer⟩ := Fallible.runs_attempt.mp hsquash
            obtain ⟨rfl, rfl⟩ := Fallible.runs_pure.mp hdone
            cases answer with
            | error e' => cases hanswer
            | ok _ =>
              exact .inr ⟨snapshot, outcome, .ok (), rfl, hgates, hlabel, hready,
                .inr ⟨rfl, rfl⟩⟩
        · obtain ⟨rfl, rfl⟩ := Fallible.runs_pure.mp hend
          exact .inl ⟨stage_judge snapshot (.ok outcome), nofun⟩

theorem announce_runs {result : Except OverseerError Unit}
    (h : (MergePrOps.announce repo pr).Runs log result) :
    ∃ title notification dispatched,
      log = [⟨.title, title⟩, ⟨.notify notification, dispatched⟩] ∧ result = .ok () := by
  rcases Fallible.runs_bind.mp h with ⟨e, htitle, -⟩ | ⟨left, right, title, rfl, htitle, hnotify⟩
  · obtain ⟨answer, -, hok⟩ := Fallible.runs_attempt.mp htitle
    cases answer <;> cases hok
  · obtain ⟨answer, rfl, -⟩ := Fallible.runs_attempt.mp htitle
    obtain ⟨dispatched, rfl, rfl⟩ := Fallible.runs_attempt.mp hnotify
    exact ⟨answer, _, dispatched, rfl, rfl⟩

theorem gated_of_stage {e : OverseerError}
    (h : Stage (ops.poll.maxAttempts + 3) ops.poll.maxAttempts log) :
    Gated ops repo pr log (.error e) where
  once := by
    rw [List.countP_eq_zero.mpr fun entry hentry => by simp [(h.preparing entry hentry).1]]
    exact Nat.zero_le 1
  gated before answer after heq := by
    have hsquash := (h.preparing ⟨.squashMerge, answer⟩
      (heq ▸ List.mem_append_right before List.mem_cons_self)).1
    cases hsquash
  ok_iff := iff_of_false nofun fun hmem => nomatch (h.preparing squashed hmem).1
  announced := nofun
  views := h.views
  sleeps := h.sleeps

/-- The stages before the merge itself have all passed. -/
structure Prepared (ops : MergePrOps) (repo : String) (pr : Nat) (log : MergeLog) : Prop where
  stage : Stage (ops.poll.maxAttempts + 2) ops.poll.maxAttempts log
  author : AuthorChecked ops repo pr log
  scans : ScansPassed ops log

theorem merge_runs {result : Except OverseerError Unit} (h : (ops.merge repo pr).Runs log result) :
    (Stage (ops.poll.maxAttempts + 3) ops.poll.maxAttempts log ∧ ∃ e, result = .error e) ∨
    ∃ prepared last, log = prepared ++ last ∧ Prepared ops repo pr prepared ∧
      (ops.mergePrIfMergeReadyWithJudge repo pr >>= fun outcome =>
        match outcome with
        | .merged _ _ => MergePrOps.announce repo pr
        | .refused pr reason => throw (.notMergeReady pr reason)).Runs last result := by
  rcases Fallible.runs_bind.mp h with ⟨e, hauthor, rfl⟩ | ⟨authors, rest, _, rfl, hauthor, hrest⟩
  · exact .inl ⟨(checkAuthor_runs hauthor).1.mono (by omega) (by omega), e, rfl⟩
  obtain ⟨hstage, hundiffed, hauthor⟩ := checkAuthor_runs hauthor
  rcases Fallible.runs_bind.mp hrest with ⟨e, hverify, rfl⟩ | ⟨verified, rest, report,
    rfl, hverify, hrest⟩
  · exact .inl ⟨(hstage.append (verify_runs hverify).1).mono (by omega) (by omega), e, rfl⟩
  obtain ⟨hverified, hscans⟩ := verify_runs hverify
  split at hrest
  · obtain ⟨rfl, rfl⟩ := Fallible.runs_throw.mp hrest
    rw [List.append_nil]
    exact .inl ⟨(hstage.append hverified).mono (by omega) (by omega), _, rfl⟩
  next hready =>
    rcases Fallible.runs_bind.mp hrest with ⟨e, hpoll, rfl⟩ | ⟨polled, last, _, rfl, hpoll, hlast⟩
    · have hstages := hstage.append (hverified.append (pollUntilGreen_runs hpoll).1)
      exact .inl ⟨hstages.mono (by omega) (by omega), e, rfl⟩
    obtain ⟨hpolled, hpolledUndiffed⟩ := pollUntilGreen_runs hpoll
    obtain ⟨diff, hdiff, hpassed⟩ := hscans report rfl (by simpa using hready)
    refine .inr ⟨authors ++ (verified ++ polled), last, by simp, ⟨?_, ?_, ?_⟩, hlast⟩
    · exact (hstage.append (hverified.append hpolled)).mono (by omega) (by omega)
    · intro hset
      obtain ⟨author, hmem, hchecks⟩ := hauthor rfl hset
      exact ⟨author, List.mem_append_left _ hmem, hchecks⟩
    · refine ⟨diff, ?_, hpassed⟩
      rw [List.filter_append, List.filter_append, hundiffed, hdiff, hpolledUndiffed]
      rfl

/-- What a call does once it is prepared: the last view, the judge's word, the merge and what
follows it. -/
structure Completed (ops : MergePrOps) (repo : String) (pr : Nat) (prepared : MergeLog)
    (snapshot : PrSnapshot) (outcome : JudgeOutcome) (answer : Except String Unit)
    (tail : MergeLog) (result : Except OverseerError Unit) : Prop where
  prepared : Prepared ops repo pr prepared
  gates : evaluateObjectiveGates snapshot ops.baseAllowlist = .ok ()
  label : creativeIdeaPrLabel ∉ snapshot.labels
  ready : outcome.verdict = .ready
  quiet : ∀ entry ∈ tail, entry.1.isSquash = false ∧ entry.1.isView = false ∧
    entry.1.isSleep = false
  ok_iff : result = .ok () ↔ answer = .ok ()
  notify : answer = .ok () → (tail.countP fun entry => entry.1.isNotify) = 1

theorem merge_cases {result : Except OverseerError Unit}
    (h : (ops.merge repo pr).Runs log result) :
    (Stage (ops.poll.maxAttempts + 3) ops.poll.maxAttempts log ∧ ∃ e, result = .error e) ∨
    ∃ prepared snapshot outcome answer tail,
      log = prepared ++ [viewed snapshot, judged snapshot outcome] ++
        ⟨.squashMerge, answer⟩ :: tail ∧
      Completed ops repo pr prepared snapshot outcome answer tail result := by
  rcases merge_runs h with hnone | ⟨prepared, last, rfl, hprepared, hlast⟩
  · exact .inl hnone
  rcases Fallible.runs_bind.mp hlast with ⟨e, hmerge, rfl⟩ | ⟨left, right, outcome,
    rfl, hmerge, hend⟩
  · rcases mergePrIfMergeReadyWithJudge_runs hmerge with ⟨hstage, -⟩ |
      ⟨snapshot, outcome, answer, rfl, hgates, hlabel, hready, hresult⟩
    · exact .inl ⟨hprepared.stage.append hstage, e, rfl⟩
    · rcases hresult with ⟨e', rfl, -⟩ | ⟨-, hok⟩
      · exact .inr ⟨prepared, snapshot, outcome, .error e', [], by simp, hprepared, hgates, hlabel,
          hready, nofun, iff_of_false nofun nofun, nofun⟩
      · cases hok
  rcases mergePrIfMergeReadyWithJudge_runs hmerge with ⟨hstage, hrefused⟩ |
    ⟨snapshot, approval, answer, rfl, hgates, hlabel, hready, hresult⟩
  · cases outcome with
    | merged number name => exact absurd rfl (hrefused number name)
    | refused number reason =>
      obtain ⟨rfl, rfl⟩ := Fallible.runs_throw.mp hend
      rw [List.append_nil]
      exact .inl ⟨hprepared.stage.append hstage, _, rfl⟩
  · rcases hresult with ⟨_, -, hok⟩ | ⟨rfl, hok⟩
    · cases hok
    obtain rfl := Except.ok.inj hok
    obtain ⟨title, notification, dispatched, rfl, rfl⟩ := announce_runs hend
    refine .inr ⟨prepared, snapshot, approval, .ok (),
      [⟨.title, title⟩, ⟨.notify notification, dispatched⟩], by simp, hprepared, hgates, hlabel,
      hready, ?_, iff_of_true rfl rfl, fun _ => rfl⟩
    intro entry hentry
    rcases List.mem_pair.mp hentry with rfl | rfl
    · exact ⟨rfl, rfl, rfl⟩
    · exact ⟨rfl, rfl, rfl⟩

section Completed

variable {prepared tail : MergeLog} {snapshot : PrSnapshot} {outcome : JudgeOutcome}
  {answer : Except String Unit} {result : Except OverseerError Unit}
  (h : Completed ops repo pr prepared snapshot outcome answer tail result)
include h

theorem Completed.split {before after : MergeLog} {answer' : Except String Unit}
    (heq : prepared ++ [viewed snapshot, judged snapshot outcome] ++
      (⟨.squashMerge, answer⟩ : Sigma MergeAns) :: tail =
      before ++ ⟨.squashMerge, answer'⟩ :: after) :
    prepared ++ [viewed snapshot, judged snapshot outcome] = before ∧
      (⟨.squashMerge, answer⟩ : Sigma MergeAns) = ⟨.squashMerge, answer'⟩ ∧ tail = after := by
  have hleft := h.prepared.stage.append (stage_judge snapshot (.ok outcome))
  refine split_unique (p := fun entry => entry.1.isSquash = true) ?_ ?_ rfl heq
  · intro entry hentry
    simp [(hleft.preparing entry hentry).1]
  · intro entry hentry
    simp [(h.quiet entry hentry).1]

theorem Completed.needs :
    AuthorChecked ops repo pr (prepared ++ [viewed snapshot, judged snapshot outcome]) ∧
    ScansPassed ops (prepared ++ [viewed snapshot, judged snapshot outcome]) ∧
    ApprovedLast ops (prepared ++ [viewed snapshot, judged snapshot outcome]) := by
  refine ⟨?_, ?_, prepared, snapshot, outcome, rfl, h.gates, h.label, h.ready⟩
  · intro hset
    obtain ⟨author, hmem, hchecks⟩ := h.prepared.author hset
    exact ⟨author, List.mem_append_left _ hmem, hchecks⟩
  · obtain ⟨diff, hdiff, hpassed⟩ := h.prepared.scans
    refine ⟨diff, ?_, hpassed⟩
    rw [List.filter_append, hdiff]
    rfl

theorem gated_of_completed :
    Gated ops repo pr (prepared ++ [viewed snapshot, judged snapshot outcome] ++
      ⟨.squashMerge, answer⟩ :: tail) result := by
  have hleft := h.prepared.stage.append (stage_judge snapshot (.ok outcome))
  have hcount (p : MergeCmd → Bool) (hp : p .squashMerge = false)
      (hnone : ∀ entry ∈ tail, p entry.1 = false) :
      ((prepared ++ [viewed snapshot, judged snapshot outcome] ++
        (⟨.squashMerge, answer⟩ : Sigma MergeAns) :: tail).countP fun entry => p entry.1) =
      (prepared ++ [viewed snapshot, judged snapshot outcome]).countP fun entry => p entry.1 := by
    have htail : (tail.countP fun entry => p entry.1) = 0 :=
      List.countP_eq_zero.mpr fun entry hentry => by simp [hnone entry hentry]
    rw [List.countP_append, List.countP_cons, htail]
    simp [hp]
  constructor
  case once =>
    have hbefore : ((prepared ++ [viewed snapshot, judged snapshot outcome]).countP
        fun entry => entry.1.isSquash) = 0 :=
      List.countP_eq_zero.mpr fun entry hentry => by simp [(hleft.preparing entry hentry).1]
    have hafter : (tail.countP fun entry => entry.1.isSquash) = 0 :=
      List.countP_eq_zero.mpr fun entry hentry => by simp [(h.quiet entry hentry).1]
    rw [List.countP_append, List.countP_cons, hbefore, hafter]
    exact Nat.le_refl 1
  case gated =>
    intro before answer' after heq
    obtain ⟨rfl, -, -⟩ := h.split heq
    exact h.needs
  case ok_iff =>
    rw [h.ok_iff]
    constructor
    · rintro rfl
      exact List.mem_append_right _ List.mem_cons_self
    · intro hmem
      obtain ⟨before, after, heq⟩ := List.append_of_mem hmem
      have hsame := (h.split heq).2.1
      exact eq_of_heq (Sigma.mk.inj hsame).2
  case announced =>
    intro hok
    obtain rfl := h.ok_iff.mp hok
    refine ⟨_, tail, rfl, ?_, h.notify rfl⟩
    exact List.countP_eq_zero.mpr fun entry hentry => by simp [(hleft.preparing entry hentry).2]
  case views =>
    rw [hcount MergeCmd.isView rfl fun entry hentry => (h.quiet entry hentry).2.1]
    exact hleft.views
  case sleeps =>
    rw [hcount MergeCmd.isSleep rfl fun entry hentry => (h.quiet entry hentry).2.2]
    exact hleft.sleeps

end Completed

/-- Whatever the outside answers, a merge call is gated: it merges at most once, only what was
checked, and tells of it. -/
theorem merge_gated (ops : MergePrOps) (repo : String) (pr : Nat) (log : MergeLog)
    (result : Except OverseerError Unit) (h : (ops.merge repo pr).Runs log result) :
    Gated ops repo pr log result := by
  rcases merge_cases h with ⟨hstage, e, rfl⟩ | ⟨prepared, snapshot, outcome, answer,
    tail, rfl, hcompleted⟩
  · exact gated_of_stage hstage
  · exact gated_of_completed hcompleted

/-- A bot's pull request that is green at once and found ready. -/
def readySnapshot : PrSnapshot where
  body := "Adds a reader for the new format."
  mergeable := "MERGEABLE"
  reviewDecision := ""
  checks := [⟨"build", "SUCCESS"⟩, ⟨"lint", "SKIPPED"⟩]
  baseRefName := "main"
  labels := ["simard-autonomous"]
  isDraft := some false

def readyAnswer : Unit → (cmd : MergeCmd) → MergeAns cmd × Unit
  | _, .author => (Except.ok "Simard-Bot", ())
  | _, .viewPr => (Except.ok readySnapshot, ())
  | _, .diff => (Except.ok "+++ b/src/reader.rs\n@@ -1 +1,2 @@\n mod a;\n+mod b;\n".toList, ())
  | _, .sleep _ => ((), ())
  | _, .judge _ => (Except.ok ⟨.ready, "complete", []⟩, ())
  | _, .squashMerge => (Except.ok (), ())
  | _, .title => (Except.ok "Add a reader", ())
  | _, .notify _ => (true, ())

def botOps : MergePrOps where
  baseAllowlist := ["main"]
  poll := ⟨20, 30⟩
  recursion := some ⟨"simard-overseer"⟩
  automergeAuthor := some "simard-bot"
  toLowercase := List.map Char.toLower

theorem bot_merge_gated :
    (record readyAnswer (botOps.merge "rysweet/Simard" 7).run ()).2 = .ok () ∧
      Gated botOps "rysweet/Simard" 7
        (record readyAnswer (botOps.merge "rysweet/Simard" 7).run ()).1
        (record readyAnswer (botOps.merge "rysweet/Simard" 7).run ()).2 :=
  ⟨by decide, merge_gated _ _ _ _ _ (transcript_record _ _ _)⟩

end Simard.Merging
