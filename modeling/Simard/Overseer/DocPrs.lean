import Simard.Library.Drain

/-! Reconciliation of documentation pull requests. A pass lists the open pull requests, keeps the
newest of those that the automation wrote, and closes the others, no more than a batch of them. A
close that fails leaves its pull request where it is, and the next pass meets it again. -/
namespace Simard.Overseer.DocPrs
open Simard.Library

structure OpenPrSummary where
  number : Nat
  title : String
  mergeable : String
  author : String
  labels : List String
  isDraft : Option Bool
  deriving DecidableEq

def autoDocPrTitleMarker : String := "Update documentation with"

def autoDocPrLabel : String := "simard-autonomous"

def docPrListLimit : Nat := 200

def maxClosesPerCycle : Nat := 25

inductive CloseReason where
  | supersededDuplicate
  | staleConflictingDraft
  deriving DecidableEq

structure DocPrClose where
  number : Nat
  reason : CloseReason
  comment : String

structure DocPrReconcileDecision where
  canonical : Option Nat
  toClose : List DocPrClose

structure DocPrReconcileReport where
  canonical : Option Nat
  closed : List Nat
  skipped : Nat
  errors : List String

def isAutoDocPr (pr : OpenPrSummary) (expectedAuthor : String) : Bool :=
  !expectedAuthor.isEmpty && autoDocPrTitleMarker.toList.isPrefixOf pr.title.toList &&
    !pr.author.isEmpty && pr.author = expectedAuthor && pr.isDraft = some true &&
    pr.labels.any (· = autoDocPrLabel)

def candidates (prs : List OpenPrSummary) (expectedAuthor : String) : List OpenPrSummary :=
  prs.filter (isAutoDocPr · expectedAuthor)

def canonical (prs : List OpenPrSummary) (expectedAuthor : String) : Option Nat :=
  ((candidates prs expectedAuthor).map OpenPrSummary.number).max?

def closeReason (pr : OpenPrSummary) : CloseReason :=
  if pr.mergeable = "CONFLICTING" then .staleConflictingDraft else .supersededDuplicate

def closeComment (canonical : Nat) : CloseReason → String
  | .supersededDuplicate =>
      "Auto-closing this superseded auto-generated documentation PR: it is an older duplicate " ++
        "superseded by the canonical open auto-doc PR #" ++ toString canonical ++
        ". Enforcing the single-open auto-doc PR invariant (goal_hygiene)."
  | .staleConflictingDraft =>
      "Auto-closing this stale CONFLICTING auto-generated documentation draft: it can no longer " ++
        "merge cleanly and is superseded by the canonical open auto-doc PR #" ++
        toString canonical ++ ". Enforcing the single-open auto-doc PR invariant (goal_hygiene)."

def reconcileDocPrs (prs : List OpenPrSummary) (expectedAuthor : String) :
    DocPrReconcileDecision :=
  match canonical prs expectedAuthor with
  | none => ⟨none, []⟩
  | some newest => ⟨some newest, ((candidates prs expectedAuthor).filter (·.number ≠ newest)).map
      fun pr => ⟨pr.number, closeReason pr, closeComment newest (closeReason pr)⟩⟩

/-- What a pass asks of the host. -/
structure PrGhClient (σ : Type) where
  listOpenPrs : Nat → σ → Except String (List OpenPrSummary)
  closePr : Nat → String → σ → Except String Unit × σ

section Pass

variable {σ : Type} (gh : PrGhClient σ)

def closeAll : List DocPrClose → DocPrReconcileReport → σ → DocPrReconcileReport × σ
  | [], report, host => (report, host)
  | close :: closes, report, host =>
      match gh.closePr close.number close.comment host with
      | (.ok (), host) =>
        closeAll closes { report with closed := report.closed ++ [close.number] } host
      | (.error e, host) => closeAll closes { report with
          errors := report.errors ++ ["close #" ++ toString close.number ++ ": " ++ e] } host

def runDocPrReconcileWithAuthor (expectedAuthor : String) (host : σ) :
    Except String DocPrReconcileReport × σ :=
  match gh.listOpenPrs docPrListLimit host with
  | .error e => (.error e, host)
  | .ok prs =>
      let decision := reconcileDocPrs prs expectedAuthor
      let (report, host) := closeAll gh (decision.toClose.take maxClosesPerCycle)
        ⟨decision.canonical, [], prs.length - (candidates prs expectedAuthor).length, []⟩ host
      (.ok report, host)

end Pass

/-- A repository whose state is its open pull requests, where the close of some always fails. -/
def repository (refuses : Nat → Option String) : PrGhClient (List OpenPrSummary) where
  listOpenPrs limit prs := .ok (prs.take limit)
  closePr number _ prs :=
    match refuses number with
    | some e => (.error e, prs)
    | none => (.ok (), prs.filter (·.number ≠ number))

section Passes

variable (refuses : Nat → Option String) (expectedAuthor : String)

def pass (prs : List OpenPrSummary) : List OpenPrSummary :=
  (runDocPrReconcileWithAuthor (repository refuses) expectedAuthor prs).2

def closedBy (prs : List OpenPrSummary) : List Nat :=
  match (runDocPrReconcileWithAuthor (repository refuses) expectedAuthor prs).1 with
  | .ok report => report.closed
  | .error _ => []

def isRefused (pr : OpenPrSummary) : Bool := (refuses pr.number).isSome

def superseded (prs : List OpenPrSummary) : List OpenPrSummary :=
  (candidates prs expectedAuthor).filter fun pr => canonical prs expectedAuthor ≠ some pr.number

/-- The newest candidate and all that is no candidate stay open, no pass closes more than a batch,
and after some passes every other candidate is closed, but for those whose close fails. -/
structure Converges (prs : List OpenPrSummary) : Prop where
  kept : ∀ n, ∀ pr ∈ prs, isAutoDocPr pr expectedAuthor = false ∨
    canonical prs expectedAuthor = some pr.number → pr ∈ (pass refuses expectedAuthor)^[n] prs
  bounded : ∀ n, (closedBy refuses expectedAuthor
    ((pass refuses expectedAuthor)^[n] prs)).length ≤ maxClosesPerCycle
  drained : ∃ n, ∀ pr ∈ (pass refuses expectedAuthor)^[n] prs,
    isAutoDocPr pr expectedAuthor = true →
    canonical prs expectedAuthor ≠ some pr.number → isRefused refuses pr = true

end Passes

section Closing

variable {refuses : Nat → Option String} {expectedAuthor : String} {prs : List OpenPrSummary}

theorem toClose_eq (prs : List OpenPrSummary) (expectedAuthor : String) :
    (reconcileDocPrs prs expectedAuthor).toClose.map DocPrClose.number =
      (superseded expectedAuthor prs).map OpenPrSummary.number := by
  rw [reconcileDocPrs, superseded]
  cases hnewest : canonical prs expectedAuthor with
  | none =>
    have hnone : candidates prs expectedAuthor = [] := by
      rw [canonical, List.max?_eq_none_iff, List.map_eq_nil_iff] at hnewest
      exact hnewest
    rw [hnone]
    rfl
  | some newest =>
    rw [List.map_map]
    simp only [ne_eq, Option.some.injEq, eq_comm (a := newest)]
    rfl

theorem closeAll_repository (closes : List DocPrClose) (report : DocPrReconcileReport)
    (prs : List OpenPrSummary) :
    (closeAll (repository refuses) closes report prs).2 = prs.filter (fun pr =>
        !(closes.any (·.number = pr.number) && (refuses pr.number).isNone)) ∧
      (closeAll (repository refuses) closes report prs).1.closed.length ≤
        report.closed.length + closes.length := by
  induction closes generalizing report prs with
  | nil =>
    refine ⟨?_, Nat.le_refl _⟩
    simp [closeAll]
  | cons close closes ih =>
    cases hrefused : refuses close.number with
    | some e =>
      simp only [closeAll, repository, hrefused]
      obtain ⟨hleft, hclosed⟩ := ih { report with
        errors := report.errors ++ ["close #" ++ toString close.number ++ ": " ++ e] } prs
      refine ⟨hleft.trans ?_, hclosed.trans (Nat.le_succ _)⟩
      apply List.filter_congr
      intro pr _
      by_cases hsame : close.number = pr.number
      · rw [List.any_cons, ← hsame, hrefused]
        simp
      · simp [List.any_cons, hsame]
    | none =>
      simp only [closeAll, repository, hrefused]
      obtain ⟨hleft, hclosed⟩ := ih { report with closed := report.closed ++ [close.number] }
        (prs.filter (·.number ≠ close.number))
      constructor
      · refine hleft.trans ?_
        rw [List.filter_filter]
        apply List.filter_congr
        intro pr _
        by_cases hsame : pr.number = close.number
        · simp [List.any_cons, hsame, hrefused]
        · simp [List.any_cons, hsame, eq_comm (a := close.number)]
      · refine hclosed.trans ?_
        dsimp only
        rw [List.length_append, List.length_singleton, List.length_cons]
        omega

def closes (refuses : Nat → Option String) (expectedAuthor : String) (prs : List OpenPrSummary)
    (pr : OpenPrSummary) : Bool :=
  ((superseded expectedAuthor prs).take maxClosesPerCycle).any (·.number = pr.number) &&
    (refuses pr.number).isNone

theorem run_repository (prs : List OpenPrSummary) : ∃ report,
    runDocPrReconcileWithAuthor (repository refuses) expectedAuthor prs =
      ((closeAll (repository refuses) ((reconcileDocPrs (prs.take docPrListLimit)
        expectedAuthor).toClose.take maxClosesPerCycle) report prs).map .ok id) ∧
      report.closed = [] := ⟨_, rfl, rfl⟩

theorem pass_eq (hvisible : prs.length ≤ docPrListLimit) :
    pass refuses expectedAuthor prs =
      prs.filter fun pr => !closes refuses expectedAuthor prs pr := by
  have hlisted : prs.take docPrListLimit = prs := List.take_of_length_le hvisible
  have hnumbers : ((reconcileDocPrs prs expectedAuthor).toClose.take maxClosesPerCycle).map
        DocPrClose.number =
      ((superseded expectedAuthor prs).take maxClosesPerCycle).map OpenPrSummary.number := by
    rw [List.map_take, toClose_eq, List.map_take]
  obtain ⟨report, hrun, -⟩ := @run_repository refuses expectedAuthor prs
  rw [pass, hrun, Prod.map_snd, id_eq, (closeAll_repository _ _ _).1, hlisted]
  apply List.filter_congr
  intro pr _
  have hany (number : Nat) : ((reconcileDocPrs prs expectedAuthor).toClose.take
        maxClosesPerCycle).any (·.number = number) =
      ((superseded expectedAuthor prs).take maxClosesPerCycle).any (·.number = number) := by
    have hmapped := congrArg (List.any · (· = number)) hnumbers
    simpa only [List.any_map, Function.comp_def] using hmapped
  rw [hany, closes]

theorem length_closedBy (prs : List OpenPrSummary) :
    (closedBy refuses expectedAuthor prs).length ≤ maxClosesPerCycle := by
  obtain ⟨report, hrun, hfresh⟩ := @run_repository refuses expectedAuthor prs
  rw [closedBy, hrun, Prod.map_fst]
  refine (closeAll_repository _ _ _).2.trans ?_
  rw [hfresh, List.length_nil, Nat.zero_add, List.length_take]
  exact Nat.min_le_left _ _

end Closing

section Runs

variable {refuses : Nat → Option String} {expectedAuthor : String} {prs : List OpenPrSummary}

theorem mem_superseded {pr : OpenPrSummary} : pr ∈ superseded expectedAuthor prs ↔
    pr ∈ prs ∧ isAutoDocPr pr expectedAuthor = true ∧
      canonical prs expectedAuthor ≠ some pr.number := by
  rw [superseded, candidates, List.mem_filter, List.mem_filter, decide_eq_true_eq, and_assoc]

theorem closes_eq_false {pr : OpenPrSummary} (hdistinct : (prs.map OpenPrSummary.number).Nodup)
    (hpr : pr ∈ prs) (h : isAutoDocPr pr expectedAuthor = false ∨
      canonical prs expectedAuthor = some pr.number) :
    closes refuses expectedAuthor prs pr = false := by
  rw [Bool.eq_false_iff]
  intro hcloses
  rw [closes, Bool.and_eq_true, List.any_eq_true] at hcloses
  obtain ⟨⟨other, hother, hnumber⟩, -⟩ := hcloses
  obtain ⟨hmem, hauto, hnewest⟩ := mem_superseded.mp (List.mem_of_mem_take hother)
  have hsame : other = pr :=
    List.inj_on_of_nodup_map hdistinct hmem hpr (of_decide_eq_true hnumber)
  subst hsame
  rcases h with h | h
  · rw [h] at hauto
    cases hauto
  · exact hnewest h

theorem candidates_pass (hvisible : prs.length ≤ docPrListLimit) :
    candidates (pass refuses expectedAuthor prs) expectedAuthor =
      (candidates prs expectedAuthor).filter fun pr => !closes refuses expectedAuthor prs pr := by
  rw [pass_eq hvisible, candidates, candidates, List.filter_comm]

theorem canonical_pass (hdistinct : (prs.map OpenPrSummary.number).Nodup)
    (hvisible : prs.length ≤ docPrListLimit) :
    canonical (pass refuses expectedAuthor prs) expectedAuthor = canonical prs expectedAuthor := by
  rw [canonical, candidates_pass hvisible]
  cases hnewest : canonical prs expectedAuthor with
  | none =>
    rw [canonical, List.max?_eq_none_iff, List.map_eq_nil_iff] at hnewest
    rw [hnewest]
    rfl
  | some newest =>
    have hmax := hnewest
    rw [canonical, List.max?_eq_some_iff] at hmax
    rw [List.max?_eq_some_iff]
    constructor
    · obtain ⟨pr, hpr, hnumber⟩ := List.mem_map.mp hmax.1
      have hopen : pr ∈ prs := (List.mem_filter.mp hpr).1
      have hkept : closes refuses expectedAuthor prs pr = false :=
        closes_eq_false hdistinct hopen (.inr (by rw [hnewest, hnumber]))
      refine List.mem_map.mpr ⟨pr, List.mem_filter.mpr ⟨hpr, ?_⟩, hnumber⟩
      rw [hkept]
      rfl
    · intro number hnumber
      exact hmax.2 number ((List.filter_sublist.map _).subset hnumber)

theorem superseded_pass (hdistinct : (prs.map OpenPrSummary.number).Nodup)
    (hvisible : prs.length ≤ docPrListLimit) :
    superseded expectedAuthor (pass refuses expectedAuthor prs) =
      drain maxClosesPerCycle (isRefused refuses) (superseded expectedAuthor prs) := by
  have hqueue : superseded expectedAuthor (pass refuses expectedAuthor prs) =
      (superseded expectedAuthor prs).filter fun pr =>
        !closes refuses expectedAuthor prs pr := by
    rw [superseded, canonical_pass hdistinct hvisible, candidates_pass hvisible, superseded,
      List.filter_comm]
  have hnumbers : ((superseded expectedAuthor prs).map OpenPrSummary.number).Nodup :=
    hdistinct.sublist ((List.filter_sublist.trans List.filter_sublist).map _)
  rw [hqueue]
  simp only [closes]
  generalize superseded expectedAuthor prs = queue at hnumbers ⊢
  conv_lhs => rw [← List.take_append_drop maxClosesPerCycle queue, List.filter_append]
  rw [List.take_append_drop, drain]
  rw [← List.take_append_drop maxClosesPerCycle queue, List.map_append,
    List.nodup_append] at hnumbers
  congr 1
  · apply List.filter_congr
    intro pr hpr
    have hany : (queue.take maxClosesPerCycle).any (·.number = pr.number) = true :=
      List.any_eq_true.mpr ⟨pr, hpr, decide_eq_true rfl⟩
    rw [hany, Bool.true_and, isRefused, Option.not_isNone]
  · rw [List.filter_eq_self]
    intro pr hpr
    have hany : (queue.take maxClosesPerCycle).any (·.number = pr.number) = false := by
      rw [List.any_eq_false]
      intro other hother hsame
      exact hnumbers.2.2 _ (List.mem_map_of_mem hother) _ (List.mem_map_of_mem hpr)
        (of_decide_eq_true hsame)
    rw [hany]
    rfl

/-- What holds of every pass of a run. -/
structure After (refuses : Nat → Option String) (expectedAuthor : String)
    (prs : List OpenPrSummary) (n : Nat) : Prop where
  shrinks : ((pass refuses expectedAuthor)^[n] prs).Sublist prs
  newest : canonical ((pass refuses expectedAuthor)^[n] prs) expectedAuthor =
    canonical prs expectedAuthor
  queue : superseded expectedAuthor ((pass refuses expectedAuthor)^[n] prs) =
    (drain maxClosesPerCycle (isRefused refuses))^[n] (superseded expectedAuthor prs)
  kept : ∀ pr ∈ prs, isAutoDocPr pr expectedAuthor = false ∨
    canonical prs expectedAuthor = some pr.number → pr ∈ (pass refuses expectedAuthor)^[n] prs

theorem after_passes (hdistinct : (prs.map OpenPrSummary.number).Nodup)
    (hvisible : prs.length ≤ docPrListLimit) (n : Nat) : After refuses expectedAuthor prs n := by
  induction n with
  | zero => exact ⟨.refl _, rfl, rfl, fun pr hpr _ => hpr⟩
  | succ n ih =>
    have hdistinct' := hdistinct.sublist (ih.shrinks.map OpenPrSummary.number)
    have hvisible' := ih.shrinks.length_le.trans hvisible
    constructor
    · rw [Function.iterate_succ_apply', pass_eq hvisible']
      exact List.filter_sublist.trans ih.shrinks
    · rw [Function.iterate_succ_apply', canonical_pass hdistinct' hvisible', ih.newest]
    · rw [Function.iterate_succ_apply', Function.iterate_succ_apply',
        superseded_pass hdistinct' hvisible', ih.queue]
    · intro pr hpr h
      have hopen := ih.kept pr hpr h
      rw [Function.iterate_succ_apply', pass_eq hvisible']
      refine List.mem_filter.mpr ⟨hopen, ?_⟩
      rw [closes_eq_false hdistinct' hopen (by rwa [ih.newest])]
      rfl

/-- Reconciliation converges exactly if fewer closes than a batch fail before each pull request
that could be closed. -/
theorem converges_iff (refuses : Nat → Option String) (expectedAuthor : String)
    (prs : List OpenPrSummary) (hdistinct : (prs.map OpenPrSummary.number).Nodup)
    (hvisible : prs.length ≤ docPrListLimit) :
    Converges refuses expectedAuthor prs ↔
      Unblocked maxClosesPerCycle (isRefused refuses) (superseded expectedAuthor prs) := by
  have hafter := @after_passes refuses expectedAuthor prs hdistinct hvisible
  rw [← drains_iff]
  have hleft (n : Nat) : (∀ pr ∈ (pass refuses expectedAuthor)^[n] prs,
        isAutoDocPr pr expectedAuthor = true → canonical prs expectedAuthor ≠ some pr.number →
          isRefused refuses pr = true) ↔
      ∀ pr ∈ (drain maxClosesPerCycle (isRefused refuses))^[n] (superseded expectedAuthor prs),
        isRefused refuses pr = true := by
    rw [← (hafter n).queue]
    refine forall_congr' fun pr => ?_
    rw [mem_superseded, (hafter n).newest, and_imp, and_imp]
  constructor
  · intro h
    exact h.drained.imp fun n => (hleft n).mp
  · intro h
    exact ⟨fun n => (hafter n).kept, fun n => length_closedBy _, h.imp fun n => (hleft n).mpr⟩

end Runs

def docPr (number : Nat) : OpenPrSummary :=
  ⟨number, "Update documentation with 3 changed files", "MERGEABLE", "simard",
    ["simard-autonomous"],
    some true⟩

theorem isAutoDocPr_docPr (number : Nat) : isAutoDocPr (docPr number) "simard" = true := by
  change isAutoDocPr (docPr 0) "simard" = true
  decide

theorem candidates_docPrs (numbers : List Nat) :
    candidates (numbers.map docPr) "simard" = numbers.map docPr := by
  rw [candidates, List.filter_eq_self, List.forall_mem_map]
  exact fun number _ => isAutoDocPr_docPr number

theorem canonical_docPrs (numbers : List Nat) :
    canonical (numbers.map docPr) "simard" = numbers.max? := by
  have hid : OpenPrSummary.number ∘ docPr = id := rfl
  rw [canonical, candidates_docPrs, List.map_map, hid, List.map_id]

theorem superseded_docPrs (numbers : List Nat) :
    superseded "simard" (numbers.map docPr) =
      (numbers.filter fun number => numbers.max? ≠ some number).map docPr := by
  rw [superseded, candidates_docPrs, canonical_docPrs, List.filter_map]
  rfl

def refusesNewer (number : Nat) : Option String := if 1 < number then some "forbidden" else none

theorem mixed_docPrs_converge : Converges refusesNewer "simard" ([3, 2, 1].map docPr) := by
  refine (converges_iff _ _ _ (by decide) (by decide)).mpr ?_
  rw [superseded_docPrs]
  intro before pr after hqueue _
  have hlength := congrArg List.length hqueue
  have htwo :
      (([3, 2, 1].filter fun number => [3, 2, 1].max? ≠ some number).map docPr).length = 2 :=
    rfl
  rw [htwo, List.length_append, List.length_cons] at hlength
  have hshort : before.length < 2 := by omega
  exact (List.countP_le_length.trans_lt hshort).trans (by decide)

def newestFirst : List Nat := (List.range' 1 27).reverse

/-- A batch of closes that fail stands before one that would not. -/
theorem blocked_docPrs_stay : ¬ Converges refusesNewer "simard" (newestFirst.map docPr) := by
  intro h
  obtain ⟨n, hn⟩ := h.drained
  have hqueue :=
    (@after_passes refusesNewer "simard" (newestFirst.map docPr) (by decide) (by decide)
    n).queue
  have hsplit : superseded "simard" (newestFirst.map docPr) =
      ((List.range' 2 25).reverse).map docPr ++ docPr 1 :: [] := by
    rw [superseded_docPrs]
    rfl
  have hstays : docPr 1 ∈ superseded "simard" ((pass refusesNewer "simard")^[n]
      (newestFirst.map docPr)) := by
    rw [hqueue]
    exact mem_iterate_drain hsplit (by decide) n
  have hrefused := hn (docPr 1) (mem_superseded.mp hstays).1 (isAutoDocPr_docPr 1)
    (by rw [canonical_docPrs]; decide)
  exact Bool.false_ne_true hrefused

end Simard.Overseer.DocPrs
