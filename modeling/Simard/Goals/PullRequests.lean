import Simard.Goals.CompletionGate

/-! Pull requests as evidence. The gate reads them through `gh`; at the start of a
cycle references to pull requests that are no longer open are pruned from the
board, and the gate then falls back on the issue they closed. -/
namespace Simard.Goals
open Simard.Library

inductive RefKind where
  | pr
  | issue
  deriving DecidableEq

def RefKind.name : RefKind → String
  | pr => "pr"
  | issue => "issue"

def isRefOf (kind : RefKind) (ref : WipRef) : Bool := eqIgnoreAsciiCase ref.kind kind.name

def firstRefOfKind (goal : ActiveGoal) (want : RefKind) : Option String :=
  (goal.wipRefs.find? (isRefOf want)).map (·.refId)

def parseRefNumber (kind : RefKind) (refId : String) : Except String Nat :=
  match parseUnsigned 64 (trim refId.toList) with
  | some n =>
      if 0 < n then .ok n
      else .error (kind.name ++ " ref_id " ++ quoted refId ++ " is not a positive integer")
  | none => .error (kind.name ++ " ref_id " ++ quoted refId ++ " is not a positive integer")

def isSlugChar (c : Char) : Bool := c.isAlphanum || c = '.' || c = '_' || c = '-'

def isSegment (segment : List Char) : Bool :=
  !segment.isEmpty && segment != ['.'] && segment != ['.', '.'] &&
    !containsText ['.', '.'] segment && segment.all isSlugChar

def validateRepoSlug (slug : String) : Except String Unit :=
  match slug.toList.splitOn '/' with
  | [owner, name] =>
      if isSegment owner && isSegment name then .ok ()
      else .error ("repo slug " ++ quoted slug ++ " is not a safe `owner/repo`")
  | _ => .error ("repo slug " ++ quoted slug ++ " is not a safe `owner/repo`")

def defaultRepo : String := "rysweet/Simard"

/-- The repository whose pull requests and issues the gate looks at. -/
def repoSlug (goal : ActiveGoal) : String :=
  match goal.repo with
  | none => defaultRepo
  | some repo =>
      if eqIgnoreAsciiCase repo "Simard" then defaultRepo
      else if '/' ∈ repo.toList then repo
      else "rysweet/" ++ repo

inductive RefState where
  | opened
  | merged
  | closed
  deriving DecidableEq

/-- What `gh` would answer: the state of every pull request and issue, and the
pull requests that closed each issue. -/
structure GitHub where
  state : RefKind → String → Nat → RefState
  closedBy : String → Nat → List (String × Nat)

def ghState (github : GitHub) (kind : RefKind) (repo num : String) : Except String RefState := do
  validateRepoSlug repo
  let n ← parseRefNumber kind num
  return github.state kind repo n

def mergedPrClosesIssue (github : GitHub) (repo : String) (issue : Nat) : Bool :=
  ((github.closedBy repo issue).take 50).any fun pr => github.state .pr pr.1 pr.2 = .merged

def anyPrMerged (github : GitHub) (goal : ActiveGoal) : Except String Bool :=
  match firstRefOfKind goal .pr with
  | some num => do
      let state ← ghState github .pr (repoSlug goal) num
      return state = .merged
  | none =>
      -- The reference may have been pruned after the merge: ask the issue.
      match firstRefOfKind goal .issue with
      | none => .ok false
      | some issueRef => do
          let issue ← parseRefNumber .issue issueRef
          validateRepoSlug (repoSlug goal)
          return mergedPrClosesIssue github (repoSlug goal) issue

def issueClosed (github : GitHub) (goal : ActiveGoal) : Except String Bool :=
  match firstRefOfKind goal .issue with
  | none => .ok true
  | some num => do
      let state ← ghState github .issue (repoSlug goal) num
      return state = .closed

def ghCliEvidenceSource (github : GitHub) (deployed : Bool) : EvidenceSource where
  anyPrMerged := anyPrMerged github
  issueClosed := issueClosed github
  isDeployed _ := .ok deployed

def isPrRef (ref : WipRef) : Bool :=
  eqIgnoreAsciiCase (String.ofList (trim ref.kind.toList)) "pr"

def prNumber (ref : WipRef) : Option Nat :=
  parseUnsigned 32 (ref.refId.toList.dropWhile (· = '#'))

def isOpenPrRef (openPrs : Nat → Bool) (ref : WipRef) : Bool :=
  !isPrRef ref ||
    match prNumber ref with
    | some n => openPrs n
    | none => true

def retainOpenPrRefs (openPrs : Nat → Bool) (goal : ActiveGoal) :
    ActiveGoal × List (String × String) :=
  ({ goal with wipRefs := goal.wipRefs.filter (isOpenPrRef openPrs) },
    (goal.wipRefs.filter (!isOpenPrRef openPrs ·)).map fun ref => (goal.id, ref.refId))

/-- Each goal against the open pull requests of its own repository; a repository
that could not be listed is left alone. -/
def pruneMergedPrRefsScoped (repoOf : ActiveGoal → String)
    (openByRepo : String → Option (Nat → Bool)) (board : GoalBoard) :
    GoalBoard × List (String × String) :=
  let pruned := board.active.map fun goal =>
    match openByRepo (repoOf goal) with
    | none => (goal, [])
    | some openPrs => retainOpenPrRefs openPrs goal
  ({ board with active := pruned.map (·.1) }, pruned.flatMap (·.2))

def validRepoSegment (segment : List Char) : Bool :=
  !segment.isEmpty && (String.ofList segment).utf8ByteSize ≤ 64 &&
    !containsText ['.', '.'] segment &&
    segment.head? != some '-' && segment.head? != some '.' && segment.all isSlugChar

/-- The repository whose open pull requests the pruner asks for. -/
def repoSlugForGoal (goal : ActiveGoal) : Option String :=
  match goal.repo.map fun repo => trim repo.toList with
  | none => some defaultRepo
  | some [] => some defaultRepo
  | some repo =>
      if eqIgnoreAsciiCase (String.ofList repo) "simard" then some defaultRepo
      else
        match splitAtFirst '/' repo with
        | some (owner, name) =>
            if '/' ∈ name || !validRepoSegment owner || !validRepoSegment name then none
            else some (String.ofList (owner ++ '/' :: name))
        | none => if validRepoSegment repo then some ("rysweet/" ++ String.ofList repo) else none

def hasPr (goal : ActiveGoal) : Bool := goal.wipRefs.any isPrRef

def openPrs (github : GitHub) (slug : String) (n : Nat) : Bool :=
  github.state .pr slug n = .opened

/-- The exact open pull requests of every repository an active goal with a pull
request names. -/
def openByRepo (github : GitHub) (board : GoalBoard) (slug : String) : Option (Nat → Bool) :=
  if board.active.any fun goal => hasPr goal && repoSlugForGoal goal = some slug then
    some (openPrs github slug)
  else none

def reconcileMergedPrs (github : GitHub) (board : GoalBoard) :
    GoalBoard × List (String × String) :=
  if !board.active.any hasPr then (board, [])
  else pruneMergedPrRefsScoped (fun goal => (repoSlugForGoal goal).getD "")
    (openByRepo github board) board

def certified (github : GitHub) (deployed : Bool) (goal : ActiveGoal) : Bool :=
  (evaluate (ghCliEvidenceSource github deployed) goal).isComplete

/-- A reference the pruner can read, to a pull request that is not open. -/
def prunable (github : GitHub) (goal : ActiveGoal) (ref : WipRef) : Bool :=
  isPrRef ref &&
    match repoSlugForGoal goal, prNumber ref with
    | some slug, some n => github.state .pr slug n ≠ .opened
    | _, _ => false

def prunedGoal (github : GitHub) (goal : ActiveGoal) : ActiveGoal :=
  { goal with wipRefs := goal.wipRefs.filter (!prunable github goal ·) }

section Pruned

variable {github : GitHub} {board : GoalBoard} {goal : ActiveGoal}

theorem prunedGoal_of_not_hasPr (h : hasPr goal = false) : prunedGoal github goal = goal := by
  have hkeep : goal.wipRefs.filter (!prunable github goal ·) = goal.wipRefs := by
    rw [List.filter_eq_self]
    intro ref href
    have := List.any_eq_false.mp h ref href
    simp [prunable, this]
  unfold prunedGoal
  rw [hkeep]

theorem retainOpenPrRefs_of_not_hasPr (h : hasPr goal = false) (openPrs : Nat → Bool) :
    (retainOpenPrRefs openPrs goal).1 = goal := by
  have hkeep : goal.wipRefs.filter (isOpenPrRef openPrs) = goal.wipRefs := by
    rw [List.filter_eq_self]
    intro ref href
    have := List.any_eq_false.mp h ref href
    simp [isOpenPrRef, this]
  unfold retainOpenPrRefs
  rw [hkeep]

theorem retainOpenPrRefs_eq {slug : String} (h : repoSlugForGoal goal = some slug) :
    (retainOpenPrRefs (openPrs github slug) goal).1 = prunedGoal github goal := by
  have hkeep : goal.wipRefs.filter (isOpenPrRef (openPrs github slug)) =
      goal.wipRefs.filter (!prunable github goal ·) := by
    apply List.filter_congr
    intro ref _
    unfold isOpenPrRef prunable openPrs
    rw [h]
    cases isPrRef ref <;> cases prNumber ref <;> simp
  unfold retainOpenPrRefs prunedGoal
  rw [hkeep]

theorem repoSlugForGoal_ne_empty (goal : ActiveGoal) : repoSlugForGoal goal ≠ some "" := by
  have hslug (l : List Char) : ("rysweet/" ++ String.ofList l : String) ≠ "" := by
    intro h
    have := congrArg String.toList h
    simp at this
  unfold repoSlugForGoal
  split
  · decide
  · decide
  split
  · decide
  split
  · split
    · simp
    · intro h
      have := congrArg String.toList (Option.some_inj.mp h)
      simp at this
  · split
    · exact fun h => hslug _ (Option.some_inj.mp h)
    · simp

theorem reconcileMergedPrs_active :
    (reconcileMergedPrs github board).1.active = board.active.map (prunedGoal github) := by
  unfold reconcileMergedPrs
  split
  · rename_i hnone
    have hall : ∀ goal ∈ board.active, prunedGoal github goal = goal := by
      intro goal hgoal
      apply prunedGoal_of_not_hasPr
      have := List.any_eq_false.mp (by simpa using hnone) goal hgoal
      simpa using this
    exact (List.map_id'' (fun _ => rfl) board.active).symm.trans
      (List.map_congr_left fun goal hgoal => (hall goal hgoal).symm)
  · unfold pruneMergedPrRefsScoped
    simp only [List.map_map]
    apply List.map_congr_left
    intro goal hgoal
    simp only [Function.comp_apply]
    cases hslug : repoSlugForGoal goal with
    | none =>
      have hunlisted : openByRepo github board "" = none := by
        unfold openByRepo
        rw [if_neg]
        simp [repoSlugForGoal_ne_empty]
      have hkeep : prunedGoal github goal = goal := by
        unfold prunedGoal
        simp [prunable, hslug]
      simp [hunlisted, hkeep]
    | some slug =>
      by_cases hpr : hasPr goal
      · have hlisted : openByRepo github board slug = some (openPrs github slug) := by
          unfold openByRepo
          rw [if_pos]
          exact List.any_eq_true.mpr ⟨goal, hgoal, by simp [hpr, hslug]⟩
        simp only [Option.getD_some, hlisted]
        exact retainOpenPrRefs_eq hslug
      · have hpr : hasPr goal = false := by simpa using hpr
        rw [prunedGoal_of_not_hasPr hpr]
        simp only [Option.getD_some]
        cases openByRepo github board slug with
        | none => rfl
        | some openPrs => exact retainOpenPrRefs_of_not_hasPr hpr openPrs

theorem not_prunable_of_issue {ref : WipRef} (h : isRefOf .issue ref) :
    prunable github goal ref = false := by
  have hkind : asciiLowercase ref.kind = asciiLowercase "issue" := of_decide_eq_true h
  have htrim : trim ref.kind.toList = ref.kind.toList :=
    trim_of_asciiLowercase (by decide) hkind
  have hnot : isPrRef ref = false := by
    unfold isPrRef eqIgnoreAsciiCase
    rw [htrim, String.ofList_toList, hkind]
    decide
  simp [prunable, hnot]

theorem firstIssue_prunedGoal :
    firstRefOfKind (prunedGoal github goal) .issue = firstRefOfKind goal .issue := by
  unfold firstRefOfKind prunedGoal
  rw [List.find?_filter]
  refine congrArg (fun p => (goal.wipRefs.find? p).map (·.refId)) ?_
  funext ref
  by_cases hissue : isRefOf .issue ref
  · simp [hissue, not_prunable_of_issue hissue]
  · simp [hissue]

theorem isSelfAffecting_of_prunedGoal (h : isSelfAffecting (prunedGoal github goal)) :
    isSelfAffecting goal := by
  have hany : (goal.wipRefs.filter (!prunable github goal ·)).any mentionsCargo →
      goal.wipRefs.any mentionsCargo := by
    intro hmentions
    obtain ⟨ref, href, hcargo⟩ := List.any_eq_true.mp hmentions
    exact List.any_eq_true.mpr ⟨ref, (List.mem_filter.mp href).1, hcargo⟩
  have hpin : bumpsSimardPin (prunedGoal github goal) → bumpsSimardPin goal := by
    unfold bumpsSimardPin
    rw [Bool.or_eq_true, Bool.or_eq_true]
    exact Or.imp_right hany
  unfold isSelfAffecting at h ⊢
  rw [Bool.and_eq_true, Bool.or_eq_true] at h ⊢
  exact ⟨h.1, h.2.imp_right hpin⟩

theorem certified_prunedGoal {deployed : Bool} (h : certified github deployed goal) :
    certified github deployed (prunedGoal github goal) ↔
      anyPrMerged github (prunedGoal github goal) = .ok true := by
  obtain ⟨-, hissue, hdeployed⟩ := (evaluate_isComplete _ _).mp h
  unfold certified
  rw [evaluate_isComplete]
  refine and_iff_left ⟨?_, fun hself => hdeployed (isSelfAffecting_of_prunedGoal hself)⟩
  have hsame : issueClosed github (prunedGoal github goal) = issueClosed github goal := by
    unfold issueClosed
    rw [firstIssue_prunedGoal]
    rfl
  exact hsame.trans hissue

end Pruned

def namesMerged (github : GitHub) (goal : ActiveGoal) (ref : WipRef) : Prop :=
  ghState github .pr (repoSlug goal) ref.refId = .ok .merged

/-- The merge evidence of a goal outlives the pruning: its first pull request is
not prunable, or the first one that is not is merged, or all are prunable and a
merged pull request closed its issue. -/
def EvidenceSurvives (github : GitHub) (goal : ActiveGoal) : Prop :=
  (∀ ref, goal.wipRefs.find? (isRefOf .pr) = some ref → prunable github goal ref = false) ∨
  (∃ ref, goal.wipRefs.find? (fun ref => !prunable github goal ref && isRefOf .pr ref) = some ref ∧
    namesMerged github goal ref) ∨
  ((∀ ref ∈ goal.wipRefs, isRefOf .pr ref → prunable github goal ref) ∧
    ∃ issueRef issue, firstRefOfKind goal .issue = some issueRef ∧
      parseRefNumber .issue issueRef = .ok issue ∧ mergedPrClosesIssue github (repoSlug goal) issue)

section Survival

variable {github : GitHub} {deployed : Bool} {goal : ActiveGoal}

theorem anyPrMerged_of_first {ref : WipRef} (h : goal.wipRefs.find? (isRefOf .pr) = some ref) :
    anyPrMerged github goal = .ok true ↔ namesMerged github goal ref := by
  have hfirst : firstRefOfKind goal .pr = some ref.refId := by
    unfold firstRefOfKind
    rw [h]
    rfl
  unfold anyPrMerged namesMerged
  rw [hfirst]
  cases hstate : ghState github .pr (repoSlug goal) ref.refId with
  | error detail => simp [hstate, bind, Except.bind]
  | ok state => simp [hstate, bind, Except.bind, pure, Except.pure]

theorem anyPrMerged_of_none (h : goal.wipRefs.find? (isRefOf .pr) = none)
    (hissue : issueClosed github goal = .ok true) :
    anyPrMerged github goal = .ok true ↔
      ∃ issueRef issue, firstRefOfKind goal .issue = some issueRef ∧
        parseRefNumber .issue issueRef = .ok issue ∧
        mergedPrClosesIssue github (repoSlug goal) issue := by
  have hnone : firstRefOfKind goal .pr = none := by
    unfold firstRefOfKind
    rw [h]
    rfl
  unfold anyPrMerged
  rw [hnone]
  unfold issueClosed ghState at hissue
  cases hfirst : firstRefOfKind goal .issue with
  | none => simp
  | some issueRef =>
    rw [hfirst] at hissue
    -- The closed issue was looked up, so slug and number are well formed.
    cases hslug : validateRepoSlug (repoSlug goal) with
    | error detail => simp [hslug, bind, Except.bind] at hissue
    | ok _ =>
      cases hnum : parseRefNumber .issue issueRef with
      | error detail => simp [hslug, hnum, bind, Except.bind] at hissue
      | ok issue => simp [hnum, bind, Except.bind, pure, Except.pure]

theorem find?_prunedGoal :
    (prunedGoal github goal).wipRefs.find? (isRefOf .pr) =
      goal.wipRefs.find? (fun ref => !prunable github goal ref && isRefOf .pr ref) := by
  unfold prunedGoal
  rw [List.find?_filter]
  refine congrArg (fun p => goal.wipRefs.find? p) ?_
  funext ref
  simp

theorem find?_and_eq {α : Type} {p q : α → Bool} {l : List α} {a : α} (h : l.find? q = some a)
    (hp : p a) : l.find? (fun x => p x && q x) = some a := by
  obtain ⟨hq, before, after, rfl, hbefore⟩ := List.find?_eq_some_iff_append.mp h
  refine List.find?_eq_some_iff_append.mpr ⟨by simp [hp, hq], before, after, rfl, ?_⟩
  intro x hx
  simp [by simpa using hbefore x hx]

theorem certified_prunedGoal_iff (h : certified github deployed goal) :
    certified github deployed (prunedGoal github goal) ↔ EvidenceSurvives github goal := by
  obtain ⟨hmerged, hissue, -⟩ := (evaluate_isComplete _ _).mp h
  change anyPrMerged github goal = .ok true at hmerged
  have hissuePruned : issueClosed github (prunedGoal github goal) = .ok true := by
    unfold issueClosed
    rw [firstIssue_prunedGoal]
    exact hissue
  rw [certified_prunedGoal h]
  have hfind := @find?_prunedGoal github goal
  cases hkept : goal.wipRefs.find? (fun ref => !prunable github goal ref && isRefOf .pr ref) with
  | some ref =>
    rw [hkept] at hfind
    have hpass := List.find?_some hkept
    simp only [Bool.and_eq_true, Bool.not_eq_true'] at hpass
    rw [anyPrMerged_of_first hfind]
    change namesMerged github goal ref ↔ _
    constructor
    · intro hnames
      exact Or.inr (Or.inl ⟨ref, hkept, hnames⟩)
    · rintro (hfirst | ⟨other, hother, hnames⟩ | ⟨hall, -⟩)
      · obtain ⟨first, hfound⟩ := Option.isSome_iff_exists.mp
          (List.find?_isSome.mpr ⟨ref, List.mem_of_find?_eq_some hkept, hpass.2⟩)
        have hsame := find?_and_eq (p := fun ref => !prunable github goal ref) hfound
          (by simp [hfirst first hfound])
        rw [hkept] at hsame
        cases hsame
        exact (anyPrMerged_of_first hfound).mp hmerged
      · rw [hkept] at hother
        cases hother
        exact hnames
      · have hgone := hall ref (List.mem_of_find?_eq_some hkept) hpass.2
        rw [hpass.1] at hgone
        cases hgone
  | none =>
    rw [hkept] at hfind
    have hall : ∀ ref ∈ goal.wipRefs, isRefOf .pr ref → prunable github goal ref := by
      intro ref href hpr
      have := List.find?_eq_none.mp hkept ref href
      simpa [hpr] using this
    rw [anyPrMerged_of_none hfind hissuePruned, firstIssue_prunedGoal]
    change (∃ issueRef issue, _ ∧ _ ∧ mergedPrClosesIssue github (repoSlug goal) issue) ↔ _
    constructor
    · intro hclosed
      exact Or.inr (Or.inr ⟨hall, hclosed⟩)
    · rintro (hfirst | ⟨other, hother, -⟩ | ⟨-, hclosed⟩)
      · cases hfound : goal.wipRefs.find? (isRefOf .pr) with
        | none => exact (anyPrMerged_of_none hfound hissue).mp hmerged
        | some first =>
          have hgone := hall first (List.mem_of_find?_eq_some hfound)
            (by simpa using List.find?_some hfound)
          rw [hfirst first hfound] at hgone
          cases hgone
      · rw [hkept] at hother
        cases hother
      · exact hclosed

end Survival

/-- Pruning hides no completion exactly when the merge evidence of every certified
goal outlives it. -/
theorem pruning_keeps_completions_iff (github : GitHub) (deployed : Bool) (board : GoalBoard) :
    (∀ (i : Nat) goal, board.active[i]? = some goal → certified github deployed goal →
      ∃ pruned, (reconcileMergedPrs github board).1.active[i]? = some pruned ∧
        certified github deployed pruned) ↔
      ∀ goal ∈ board.active, certified github deployed goal → EvidenceSurvives github goal := by
  rw [reconcileMergedPrs_active]
  constructor
  · intro h goal hgoal hcertified
    obtain ⟨i, hi⟩ := List.mem_iff_getElem?.mp hgoal
    obtain ⟨pruned, hpruned, hstill⟩ := h i goal hi hcertified
    rw [List.getElem?_map, hi] at hpruned
    cases hpruned
    exact (certified_prunedGoal_iff hcertified).mp hstill
  · intro h i goal hi hcertified
    refine ⟨prunedGoal github goal, by rw [List.getElem?_map, hi]; rfl, ?_⟩
    exact (certified_prunedGoal_iff hcertified).mpr (h goal (List.mem_of_getElem? hi) hcertified)

/-- A documentation goal whose only reference is its merged pull request. -/
def mergedOnly : ActiveGoal :=
  { ActiveGoal.new "g" "docs-only" 1 with wipRefs := [⟨"pr", "7", "", none⟩] }

def allMerged : GitHub := ⟨fun _ _ _ => .merged, fun _ _ => []⟩

theorem pruning_hides_completion :
    certified allMerged true mergedOnly ∧
      (reconcileMergedPrs allMerged ⟨[mergedOnly], []⟩).1.active.map
        (certified allMerged true) = [false] := by
  decide

end Simard.Goals
