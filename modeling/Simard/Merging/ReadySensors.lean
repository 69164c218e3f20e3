import Simard.Library.Store
import Simard.Merging.MergeOps

/-! The two sensors that say which of Simard's pull requests are ready. One surveys the author's
pull requests of every repository; the other takes the reasoner's proposals and narrows them by
what the open listing shows. The first reads labels from the listing, the second from a snapshot
of it, and the snapshot has none. -/
namespace Simard.Merging
open Simard.Library

/-- A row of a listing of open pull requests. -/
structure OpenPrSummary where
  number : Nat
  headRefName : String
  baseRefName : String
  mergeable : String
  checks : List CheckRollupEntry
  author : String
  labels : List String
  isDraft : Option Bool

def OpenPrSummary.toSnapshot (row : OpenPrSummary) : PrSnapshot where
  body := ""
  mergeable := row.mergeable
  reviewDecision := ""
  checks := row.checks
  baseRefName := row.baseRefName
  labels := []
  isDraft := row.isDraft

@[simp] theorem OpenPrSummary.labels_toSnapshot (row : OpenPrSummary) :
    row.toSnapshot.labels = [] := rfl

/-- What `gh pr list` answers, for an author and for all. -/
structure PrListings where
  listPrsByAuthor : String → String → Except String (List OpenPrSummary)
  listOpenPrs : String → Except String (List OpenPrSummary)

structure PrRef where
  repo : String
  pr : Nat
  deriving DecidableEq

inductive PrDisposition where
  | readyForMerge
  | needsWork
  | stale
  | duplicate
  deriving DecidableEq

structure ReasonedPr where
  repo : String
  pr : Nat
  disposition : PrDisposition

def simardEngineerPrLabel : String := "simard-autonomous"

def engineerBranchPrefixes : List (List Char) := ["engineer/".toList, "chore/advisory-".toList]

def isEngineerPrLabel (label : String) : Bool := label = simardEngineerPrLabel

def isEngineerBranch (head : String) : Bool :=
  engineerBranchPrefixes.any fun p => p.isPrefixOf head.toList

def passesGates (snapshot : PrSnapshot) (baseAllowlist : List String) : Bool :=
  (evaluateObjectiveGates snapshot baseAllowlist).isOk

def surveyed (baseAllowlist : List String) (author : String) (row : OpenPrSummary) : Bool :=
  eqIgnoreAsciiCase row.author author &&
    (row.labels.any isEngineerPrLabel || isEngineerBranch row.headRefName) &&
    row.isDraft = some false && passesGates row.toSnapshot baseAllowlist

namespace MergePrOps

variable (ops : MergePrOps) (gh : PrListings)

def surveyReadyPrs (repos : List String) : List PrRef :=
  match ops.automergeAuthor with
  | none => []
  | some author =>
      repos.flatMap fun repo =>
        match gh.listPrsByAuthor repo author with
        | .error _ => []
        | .ok rows =>
            (rows.filter (surveyed ops.baseAllowlist author)).map fun row => ⟨repo, row.number⟩

end MergePrOps

structure ProjectionCandidate where
  reasoned : ReasonedPr
  authorLogin : String
  headRef : String
  isDraft : Option Bool
  snapshot : PrSnapshot

def projectReadyPrs (candidates : List ProjectionCandidate) (baseAllowlist : List String)
    (overseerLogin : String) : List PrRef :=
  (candidates.filter fun c =>
    c.reasoned.disposition = .readyForMerge && !eqIgnoreAsciiCase c.authorLogin overseerLogin &&
      (c.snapshot.labels.any isEngineerPrLabel || isEngineerBranch c.headRef) &&
      c.isDraft = some false && passesGates c.snapshot baseAllowlist).map fun c =>
    ⟨c.reasoned.repo, c.reasoned.pr⟩

/-- A proposal with what the open listing shows of it; each repository is listed once. -/
def projectionCandidate (gh : PrListings) (reasoned : ReasonedPr) : Option ProjectionCandidate :=
  match gh.listOpenPrs reasoned.repo with
  | .error _ => none
  | .ok rows =>
      (rows.find? fun row => row.number = reasoned.pr).map fun row =>
        ⟨reasoned, row.author, row.headRefName, row.isDraft, row.toSnapshot⟩

def MergePrOps.projectReasonedReadyPrs (ops : MergePrOps) (gh : PrListings)
    (reasoned : List ReasonedPr) (overseerLogin : String) : List PrRef :=
  let ready := reasoned.filter fun r => r.disposition = .readyForMerge
  projectReadyPrs (ready.filterMap (projectionCandidate gh)) ops.baseAllowlist overseerLogin

/-- Both listings of a repository are there, show the same rows of the author, and list every
pull request once. -/
structure SameRows (gh : PrListings) (author repo : String) (rows : List OpenPrSummary) : Prop where
  open_eq : gh.listOpenPrs repo = .ok rows
  author_eq : ∃ own, gh.listPrsByAuthor repo author = .ok own ∧
    (own.filter fun row => eqIgnoreAsciiCase row.author author) =
      rows.filter fun row => eqIgnoreAsciiCase row.author author
  once : (rows.map OpenPrSummary.number).Nodup

/-- Only the label shows whose work it is, and nothing else keeps it back. -/
def LabelOnly (baseAllowlist : List String) (row : OpenPrSummary) : Prop :=
  row.labels.any isEngineerPrLabel = true ∧ isEngineerBranch row.headRefName = false ∧
    row.isDraft = some false ∧ passesGates row.toSnapshot baseAllowlist = true

variable {ops : MergePrOps} {gh : PrListings} {author : String} {rows : List OpenPrSummary}

theorem filter_surveyed (baseAllowlist : List String) (rows : List OpenPrSummary) :
    rows.filter (surveyed baseAllowlist author) =
      (rows.filter fun row => eqIgnoreAsciiCase row.author author).filter
        (surveyed baseAllowlist author) := by
  rw [List.filter_filter]
  apply List.filter_congr
  intro row _
  cases hauthor : eqIgnoreAsciiCase row.author author with
  | false => simp [surveyed, hauthor]
  | true => simp

theorem mem_surveyReadyPrs {repos : List String} {repo : String} {pr : Nat}
    (hauthor : ops.automergeAuthor = some author) (hrepo : repo ∈ repos)
    (hrows : SameRows gh author repo rows) :
    ⟨repo, pr⟩ ∈ ops.surveyReadyPrs gh repos ↔
      ∃ row ∈ rows, row.number = pr ∧ surveyed ops.baseAllowlist author row = true := by
  obtain ⟨own, hown, hsame⟩ := hrows.author_eq
  have hfilter : own.filter (surveyed ops.baseAllowlist author) =
      rows.filter (surveyed ops.baseAllowlist author) := by
    rw [filter_surveyed, hsame, ← filter_surveyed]
  simp only [MergePrOps.surveyReadyPrs, hauthor, List.mem_flatMap]
  constructor
  · intro ⟨other, _, hmem⟩
    have hsameRepo : other = repo := by
      split at hmem
      · cases hmem
      · obtain ⟨row, -, href⟩ := List.mem_map.mp hmem
        exact congrArg PrRef.repo href
    rw [hsameRepo, hown] at hmem
    obtain ⟨row, hrow, href⟩ := List.mem_map.mp hmem
    rw [hfilter] at hrow
    obtain ⟨hrow, hsurveyed⟩ := List.mem_filter.mp hrow
    exact ⟨row, hrow, congrArg PrRef.pr href, hsurveyed⟩
  · intro ⟨row, hrow, hnumber, hsurveyed⟩
    refine ⟨repo, hrepo, ?_⟩
    rw [hown]
    refine List.mem_map.mpr ⟨row, ?_, by rw [hnumber]⟩
    rw [hfilter]
    exact List.mem_filter.mpr ⟨hrow, hsurveyed⟩

def projected (baseAllowlist : List String) (login : String) (row : OpenPrSummary) : Bool :=
  !eqIgnoreAsciiCase row.author login && isEngineerBranch row.headRefName &&
    row.isDraft = some false && passesGates row.toSnapshot baseAllowlist

theorem projectionCandidate_eq_some {r : ReasonedPr} {c : ProjectionCandidate}
    (hrows : SameRows gh author r.repo rows) :
    projectionCandidate gh r = some c ↔ ∃ row ∈ rows, row.number = r.pr ∧
      c = ⟨r, row.author, row.headRefName, row.isDraft, row.toSnapshot⟩ := by
  have hkeyed : Table.Keyed OpenPrSummary.number rows := hrows.once
  simp only [projectionCandidate, hrows.open_eq, Option.map_eq_some_iff]
  constructor
  · intro ⟨row, hfind, hc⟩
    have hnumber : row.number = r.pr := by simpa using List.find?_some hfind
    exact ⟨row, List.mem_of_find?_eq_some hfind, hnumber, hc.symm⟩
  · intro ⟨row, hrow, hnumber, hc⟩
    refine ⟨row, ?_, hc.symm⟩
    rw [← hnumber]
    exact hkeyed.lookup_eq hrow

theorem mem_projectReasonedReadyPrs {reasoned : List ReasonedPr} {login : String} {r : ReasonedPr}
    (hr : r ∈ reasoned) (hready : r.disposition = .readyForMerge)
    (hrows : SameRows gh author r.repo rows) :
    ⟨r.repo, r.pr⟩ ∈ ops.projectReasonedReadyPrs gh reasoned login ↔
      ∃ row ∈ rows, row.number = r.pr ∧ projected ops.baseAllowlist login row = true := by
  simp only [MergePrOps.projectReasonedReadyPrs, projectReadyPrs, List.mem_map, List.mem_filter,
    List.mem_filterMap]
  constructor
  · intro ⟨c, ⟨⟨r', _, hc⟩, hkept⟩, href⟩
    have hsame : r'.repo = r.repo ∧ r'.pr = r.pr := by
      have hreasoned : c.reasoned = r' := by
        unfold projectionCandidate at hc
        split at hc
        · cases hc
        · obtain ⟨row, -, rfl⟩ := Option.map_eq_some_iff.mp hc
          rfl
      rw [← hreasoned]
      exact ⟨congrArg PrRef.repo href, congrArg PrRef.pr href⟩
    rw [← hsame.1] at hrows
    obtain ⟨row, hrow, hnumber, rfl⟩ := (projectionCandidate_eq_some hrows).mp hc
    refine ⟨row, hrow, hnumber.trans hsame.2, ?_⟩
    simp_all [projected]
  · intro ⟨row, hrow, hnumber, hkept⟩
    refine ⟨⟨r, row.author, row.headRefName, row.isDraft, row.toSnapshot⟩, ⟨⟨r, ⟨hr, ?_⟩, ?_⟩, ?_⟩,
      rfl⟩
    · simpa using hready
    · exact (projectionCandidate_eq_some hrows).mpr ⟨row, hrow, hnumber, rfl⟩
    · simp_all [projected]

theorem surveyed_iff (baseAllowlist : List String) {login : String} {row : OpenPrSummary}
    (hlogin : eqIgnoreAsciiCase author login = false)
    (hauthor : eqIgnoreAsciiCase row.author author = true) :
    surveyed baseAllowlist author row = true ↔
      projected baseAllowlist login row = true ∨ LabelOnly baseAllowlist row := by
  have hother : eqIgnoreAsciiCase row.author login = false := by
    simp only [eqIgnoreAsciiCase, decide_eq_true_eq, decide_eq_false_iff_not] at hlogin hauthor ⊢
    rwa [hauthor]
  simp only [surveyed, projected, LabelOnly, hauthor, hother]
  cases row.labels.any isEngineerPrLabel <;> cases isEngineerBranch row.headRefName <;> simp

theorem LabelOnly.not_projected {login : String} {row : OpenPrSummary}
    (h : LabelOnly ops.baseAllowlist row) : projected ops.baseAllowlist login row = false := by
  simp [projected, h.2.1]

/-- A proposed pull request of the author is projected where it is surveyed, unless only its
label shows that it is an engineer's. -/
theorem projected_iff_surveyed_iff (ops : MergePrOps) (gh : PrListings) (repos : List String)
    (reasoned : List ReasonedPr) (author login : String) (r : ReasonedPr)
    (rows : List OpenPrSummary) (hauthor : ops.automergeAuthor = some author)
    (hlogin : eqIgnoreAsciiCase author login = false) (hr : r ∈ reasoned)
    (hready : r.disposition = .readyForMerge) (hrepo : r.repo ∈ repos)
    (hrows : SameRows gh author r.repo rows)
    (hown : ∀ row ∈ rows, row.number = r.pr → eqIgnoreAsciiCase row.author author = true) :
    (⟨r.repo, r.pr⟩ ∈ ops.projectReasonedReadyPrs gh reasoned login ↔
        ⟨r.repo, r.pr⟩ ∈ ops.surveyReadyPrs gh repos) ↔
      ∀ row ∈ rows, row.number = r.pr → ¬LabelOnly ops.baseAllowlist row := by
  rw [mem_projectReasonedReadyPrs hr hready hrows,
    mem_surveyReadyPrs hauthor hrepo hrows]
  constructor
  · intro hsame row hrow hnumber hlabel
    have hsurveyed := (surveyed_iff _ hlogin (hown row hrow hnumber)).mpr (.inr hlabel)
    obtain ⟨other, hother, hnumber', hprojected⟩ := hsame.mpr ⟨row, hrow, hnumber, hsurveyed⟩
    have hkeyed : Table.Keyed OpenPrSummary.number rows := hrows.once
    have heq : other = row := hkeyed.eq_of_key hother hrow (hnumber'.trans hnumber.symm)
    rw [heq, hlabel.not_projected] at hprojected
    cases hprojected
  · intro hnone
    refine exists_congr fun row => and_congr_right fun hrow => and_congr_right fun hnumber => ?_
    rw [surveyed_iff _ hlogin (hown row hrow hnumber)]
    exact (or_iff_left (hnone row hrow hnumber)).symm

def readyRow (branch : String) (labels : List String) : OpenPrSummary where
  number := 41
  headRefName := branch
  baseRefName := "main"
  mergeable := "MERGEABLE"
  checks := [⟨"build", "SUCCESS"⟩]
  author := "rysweet"
  labels := labels
  isDraft := some false

def oneRow (row : OpenPrSummary) : PrListings := ⟨fun _ _ => .ok [row], fun _ => .ok [row]⟩

theorem sameRows_oneRow (author repo : String) (row : OpenPrSummary) :
    SameRows (oneRow row) author repo [row] :=
  ⟨rfl, ⟨[row], rfl, rfl⟩, List.nodup_singleton _⟩

def queueOps : MergePrOps where
  baseAllowlist := ["main"]
  poll := ⟨20, 30⟩
  recursion := none
  automergeAuthor := some "rysweet"
  toLowercase := List.map Char.toLower

def queueProposal : ReasonedPr := ⟨"rysweet/Simard", 41, .readyForMerge⟩

theorem engineer_branch_projected_iff_surveyed :
    ⟨"rysweet/Simard", 41⟩ ∈ queueOps.projectReasonedReadyPrs
        (oneRow (readyRow "engineer/reader" [])) [queueProposal] "overseer" ↔
      ⟨"rysweet/Simard", 41⟩ ∈ queueOps.surveyReadyPrs (oneRow (readyRow "engineer/reader" []))
        ["rysweet/Simard"] := by
  refine (projected_iff_surveyed_iff queueOps (oneRow (readyRow "engineer/reader" []))
    ["rysweet/Simard"] [queueProposal] "rysweet" "overseer" queueProposal
    [readyRow "engineer/reader" []] rfl (by decide) List.mem_cons_self rfl
    List.mem_cons_self (sameRows_oneRow _ _ _) ?_).mpr ?_
  · intro row hrow _
    rw [List.mem_singleton.mp hrow]
    decide
  · intro row hrow _ hlabel
    rw [List.mem_singleton.mp hrow] at hlabel
    exact Bool.false_ne_true hlabel.1

/-- With the label on another branch the survey returns it and the projection does not. -/
theorem labelled_surveyed_not_projected :
    eqIgnoreAsciiCase "rysweet" "overseer" = false ∧
      SameRows (oneRow (readyRow "feat/reader" ["simard-autonomous"])) "rysweet" "rysweet/Simard"
        [readyRow "feat/reader" ["simard-autonomous"]] ∧
      ⟨"rysweet/Simard", 41⟩ ∈ queueOps.surveyReadyPrs
        (oneRow (readyRow "feat/reader" ["simard-autonomous"])) ["rysweet/Simard"] ∧
      ⟨"rysweet/Simard", 41⟩ ∉ queueOps.projectReasonedReadyPrs
        (oneRow (readyRow "feat/reader" ["simard-autonomous"])) [queueProposal] "overseer" := by
  refine ⟨by decide, sameRows_oneRow _ _ _, ?_, ?_⟩
  · decide
  · decide

end Simard.Merging
