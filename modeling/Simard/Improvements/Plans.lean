import Simard.Library.Labels
import Simard.Library.Store
import Simard.Runtime.Kernel

/-! The plan of an improvement curation: the directives of a review and of the operator, one a line.
-/
namespace Simard.Improvements
open Simard.Library
open Simard.Runtime (GoalStatus)

structure InvalidImprovementRecord where
  field : List Char
  reason : List Char
  deriving DecidableEq

def refuse {α : Type} (field reason : List Char) : Except InvalidImprovementRecord α :=
  .error ⟨field, reason⟩

def requiredImprovementField (field value : List Char) :
    Except InvalidImprovementRecord (List Char) :=
  let trimmed := trim value
  if trimmed.isEmpty then refuse field "value cannot be empty".toList else .ok trimmed

def parseStatus (raw : List Char) : Option GoalStatus :=
  let label := (trim raw).map Char.toLower
  if label = "proposed".toList then some .proposed
  else if label = "active".toList then some .active
  else if label = "paused".toList then some .paused
  else if label = "completed".toList then some .completed
  else none

structure ImprovementProposalRecord where
  category : List Char
  title : List Char
  rationale : List Char
  suggestedChange : List Char
  evidence : List (List Char)
  deriving DecidableEq

structure ImprovementDirective where
  title : List Char
  priority : Nat
  status : GoalStatus
  rationale : List Char
  deriving DecidableEq

structure DeferredImprovement where
  title : List Char
  rationale : List Char
  deriving DecidableEq

structure ImprovementPromotionPlan where
  reviewId : List Char := []
  reviewTarget : List Char := []
  proposals : List ImprovementProposalRecord := []
  approvals : List ImprovementDirective := []
  deferrals : List DeferredImprovement := []
  deriving DecidableEq

def segments (raw : List Char) : List (List Char) :=
  ((raw.splitOn '|').map trim).filter (! ·.isEmpty)

def directiveTitle (directive what : String) (parts : List (List Char)) :
    Except InvalidImprovementRecord (List Char) :=
  match parts with
  | [] =>
    refuse directive.toList (directive.toList ++ " entries must include a ".toList ++ what.toList)
  | title :: _ => requiredImprovementField (directive.toList ++ ".title".toList) title

def readAttribute (directive : String) (segment : List Char) :
    Except InvalidImprovementRecord (List Char × List Char) :=
  match splitAtFirst '=' segment with
  | none => refuse directive.toList (directive.toList ++ " attribute '".toList ++ segment ++
      "' must look like key=value".toList)
  | some (key, value) => .ok ((trim key).map Char.toLower, trim value)

def unsupported {α : Type} (directive : String) (key : List Char) :
    Except InvalidImprovementRecord α :=
  refuse key ("unsupported ".toList ++ directive.toList ++ " attribute".toList)

def proposalAttribute (proposal : ImprovementProposalRecord) (segment : List Char) :
    Except InvalidImprovementRecord ImprovementProposalRecord := do
  let (key, value) ← readAttribute "proposal" segment
  if key = "category".toList then
    return { proposal with category := ← requiredImprovementField "proposal.category".toList value }
  else if key = "rationale".toList then
    return { proposal with
      rationale := ← requiredImprovementField "proposal.rationale".toList value }
  else if key = "suggested_change".toList ∨ key = "suggested-change".toList then
    return { proposal with
      suggestedChange := ← requiredImprovementField "proposal.suggested_change".toList value }
  else if key = "evidence".toList then
    return { proposal with evidence := ((splitPairs ';' value).map trim).filter (! ·.isEmpty) }
  else unsupported "proposal" key

def parseProposalRecord (raw : List Char) :
    Except InvalidImprovementRecord ImprovementProposalRecord := do
  let parts := segments raw
  let title ← directiveTitle "proposal" "title before attributes" parts
  let proposal ← parts.tail.foldlM proposalAttribute ⟨[], title, [], [], []⟩
  let category ← requiredImprovementField "proposal.category".toList proposal.category
  let rationale ← requiredImprovementField "proposal.rationale".toList proposal.rationale
  let suggestedChange ←
    requiredImprovementField "proposal.suggested_change".toList proposal.suggestedChange
  return { proposal with category, rationale, suggestedChange }

def approvalAttribute (approval : ImprovementDirective) (segment : List Char) :
    Except InvalidImprovementRecord ImprovementDirective := do
  let (key, value) ← readAttribute "approve" segment
  if key = "priority".toList then
    match parseUnsigned 8 value with
    | none => refuse "approve.priority".toList "priority must be a positive integer".toList
    | some priority =>
        if priority = 0 then refuse "approve.priority".toList "priority must be at least 1".toList
        else return { approval with priority }
  else if key = "status".toList then
    match parseStatus value with
    | none =>
        refuse "approve.status".toList
          "status must be active, proposed, paused, or completed".toList
    | some status => return { approval with status }
  else if key = "rationale".toList then
    return { approval with
      rationale := ← requiredImprovementField "approve.rationale".toList value }
  else unsupported "approve" key

def parseApprovalDirective (raw : List Char) (defaultPriority : Nat) :
    Except InvalidImprovementRecord ImprovementDirective := do
  let parts := segments raw
  let title ← directiveTitle "approve" "proposal title" parts
  parts.tail.foldlM approvalAttribute
    ⟨title, max defaultPriority 1, .proposed,
      "operator approved this improvement proposal for durable tracking".toList⟩

def deferralAttribute (deferral : DeferredImprovement) (segment : List Char) :
    Except InvalidImprovementRecord DeferredImprovement := do
  let (key, value) ← readAttribute "defer" segment
  if key = "rationale".toList then
    return { deferral with rationale := ← requiredImprovementField "defer.rationale".toList value }
  else unsupported "defer" key

def parseDeferralDirective (raw : List Char) :
    Except InvalidImprovementRecord DeferredImprovement := do
  let parts := segments raw
  let title ← directiveTitle "defer" "proposal title" parts
  parts.tail.foldlM deferralAttribute ⟨title,
    "operator deferred this proposal for later review".toList⟩

def ImprovementPromotionPlan.directive (plan : ImprovementPromotionPlan) (label value : List Char) :
    Except InvalidImprovementRecord ImprovementPromotionPlan :=
  if label = "review-id".toList then do
    return { plan with reviewId := ← requiredImprovementField "review-id".toList value }
  else if label = "review-target".toList then do
    return { plan with reviewTarget := ← requiredImprovementField "review-target".toList value }
  else if label = "proposal".toList then do
    return { plan with proposals := plan.proposals ++ [← parseProposalRecord value] }
  else if label = "approve".toList ∨ label = "promote".toList then do
    -- The number of approvals so far and one more, as long as it fits into a byte.
    let priority := if plan.approvals.length + 1 < 2 ^ 8 then plan.approvals.length + 1 else 255
    return { plan with approvals := plan.approvals ++ [← parseApprovalDirective value priority] }
  else if label = "defer".toList then do
    return { plan with deferrals := plan.deferrals ++ [← parseDeferralDirective value] }
  else .ok plan

def ImprovementPromotionPlan.line (plan : ImprovementPromotionPlan) (line : List Char) :
    Except InvalidImprovementRecord ImprovementPromotionPlan :=
  match splitAtFirst ':' (trim line) with
  | none => .ok plan
  | some (label, value) =>
      if (trim value).isEmpty then .ok plan
      else plan.directive ((trim label).map Char.toLower) (trim value)

def checkDecided (proposed : List (List Char)) :
    List (List Char) → List (List Char) → Except InvalidImprovementRecord Unit
  | _, [] => .ok ()
  | decided, title :: titles =>
      if !proposed.contains title then refuse "decision".toList
        ("decision references unknown proposal '".toList ++ title ++ "'".toList)
      else if decided.contains title then refuse "decision".toList
        ("proposal '".toList ++ title ++ "' cannot be decided more than once".toList)
      else checkDecided proposed (title :: decided) titles

def ImprovementPromotionPlan.finish (plan : ImprovementPromotionPlan) :
    Except InvalidImprovementRecord ImprovementPromotionPlan :=
  if plan.reviewId.isEmpty then
    refuse "review-id".toList "a review-id line is required".toList
  else if plan.proposals.isEmpty then
    refuse "proposal".toList "at least one proposal line is required".toList
  else if plan.approvals.isEmpty && plan.deferrals.isEmpty then
    refuse "decision".toList "at least one approve: or defer: line is required".toList
  else do
    checkDecided (plan.proposals.map (·.title)) []
      (plan.approvals.map (·.title) ++ plan.deferrals.map (·.title))
    return plan

def ImprovementPromotionPlan.parse (raw : List Char) :
    Except InvalidImprovementRecord ImprovementPromotionPlan := do
  (← (lines raw).foldlM ImprovementPromotionPlan.line {}).finish

structure ImprovementProposal where
  category : List Char
  title : List Char
  rationale : List Char
  suggestedChange : List Char
  evidence : List (List Char)

structure ReviewArtifact where
  reviewId : List Char
  targetLabel : List Char
  proposals : List ImprovementProposal

def collapsePairs (c : Char) : List Char → List Char
  | [] => []
  | [d] => [d]
  | a :: b :: rest => if a = c ∧ b = c then c :: collapsePairs c rest else a ::
    collapsePairs c (b :: rest)

def sanitizeDirectiveValue (value : List Char) : List Char :=
  trim (collapsePairs ';' ((value.map fun c => if c = '\n' then ' ' else c).map
    fun c => if c = '|' then '/' else c))

def renderProposalDirective (proposal : ImprovementProposal) : List Char :=
  let evidence :=
    if proposal.evidence.isEmpty then "none".toList
    else List.intercalate " ;; ".toList (proposal.evidence.map sanitizeDirectiveValue)
  "proposal: ".toList ++ sanitizeDirectiveValue proposal.title ++ " | category=".toList ++
    sanitizeDirectiveValue proposal.category ++ " | rationale=".toList ++
    sanitizeDirectiveValue proposal.rationale ++ " | suggested_change=".toList ++
    sanitizeDirectiveValue proposal.suggestedChange ++ " | evidence=".toList ++ evidence

def reviewDirectives (review : ReviewArtifact) : List (List Char) :=
  ["review-id: ".toList ++ sanitizeDirectiveValue review.reviewId,
    "review-target: ".toList ++ sanitizeDirectiveValue review.targetLabel] ++
    review.proposals.map renderProposalDirective

def renderReviewContextDirectives (review : ReviewArtifact) : List Char :=
  List.intercalate ['\n'] (reviewDirectives review)

def curationObjective (review : ReviewArtifact) (operatorObjective : List Char) : List Char :=
  renderReviewContextDirectives review ++ '\n' :: operatorObjective

end Simard.Improvements
