import Simard.Improvements.Plans

/-! What a curation makes of a review and of the operator's words. The review is put in front of
them as lines of directives, and however its texts read, only the operator decides. -/
namespace Simard.Improvements
open Simard.Library

variable {plan plan' next : ImprovementPromotionPlan}

def joinBars (entries : List (List Char)) : List Char := List.intercalate " | ".toList entries

theorem requiredImprovementField_eq_ok {field value text : List Char} :
    requiredImprovementField field value = .ok text ↔ text = trim value ∧ Solid text := by
  unfold requiredImprovementField
  dsimp only
  split
  next hempty =>
    constructor
    · rintro ⟨⟩
    · rintro ⟨rfl, hsolid⟩
      exact absurd (List.isEmpty_iff.mp hempty) hsolid.1
  next hempty =>
    constructor
    · rintro ⟨⟩
      exact ⟨rfl, solid_trim fun hnil => hempty (List.isEmpty_iff.mpr hnil)⟩
    · rintro ⟨rfl, -⟩
      rfl

theorem mem_of_mem_collapsePairs {c d : Char} {text : List Char} (h : d ∈ collapsePairs c text) :
    d ∈ text := by
  induction text using collapsePairs.induct c with
  | case1 => exact h
  | case2 => exact h
  | case3 a b rest hpair ih =>
    rw [collapsePairs, if_pos hpair] at h
    rcases List.mem_cons.mp h with rfl | hrest
    · rw [← hpair.1]
      exact List.mem_cons_self
    · exact List.mem_cons_of_mem _ (List.mem_cons_of_mem _ (ih hrest))
  | case4 a b rest hpair ih =>
    rw [collapsePairs, if_neg hpair] at h
    rcases List.mem_cons.mp h with rfl | hrest
    · exact List.mem_cons_self
    · exact List.mem_cons_of_mem _ (ih hrest)

theorem newline_notMem_sanitize (value : List Char) : '\n' ∉ sanitizeDirectiveValue value := by
  intro hmem
  have hmapped := mem_of_mem_collapsePairs (trim_subset hmem)
  obtain ⟨c, hc, hbar⟩ := List.mem_map.mp hmapped
  obtain ⟨d, -, rfl⟩ := List.mem_map.mp hc
  by_cases hnewline : d = '\n'
  · simp [hnewline] at hbar
  · rw [if_neg hnewline] at hbar
    split at hbar
    · cases hbar
    · exact hnewline hbar

theorem bar_notMem_sanitize (value : List Char) : '|' ∉ sanitizeDirectiveValue value := by
  intro hmem
  have hmapped := mem_of_mem_collapsePairs (trim_subset hmem)
  obtain ⟨c, -, hbar⟩ := List.mem_map.mp hmapped
  split at hbar
  · cases hbar
  next hother => exact hother hbar

theorem line_dropReturn (plan : ImprovementPromotionPlan) (text : List Char) :
    plan.line (dropReturn text) = plan.line text := by
  unfold ImprovementPromotionPlan.line
  rw [trim_dropReturn]

theorem line_labelled {label : List Char} (hlabel : Solid label) (hclear : ':' ∉ label)
    (plan : ImprovementPromotionPlan) (value : List Char) :
    plan.line (label ++ ':' :: value) =
      if (trim value).isEmpty then .ok plan
      else plan.directive (label.map Char.toLower) (trim value) := by
  obtain ⟨rest, hline, hrest⟩ := trim_labelled hlabel value
  unfold ImprovementPromotionPlan.line
  rw [hline, splitAtFirst_append hclear, ← hrest]
  dsimp only
  rw [hlabel.2]

structure SameDecisions (plan plan' : ImprovementPromotionPlan) : Prop where
  approvals : plan.approvals = plan'.approvals
  deferrals : plan.deferrals = plan'.deferrals

def reviewLabels : List (List Char) :=
    ["review-id".toList, "review-target".toList, "proposal".toList]

theorem reviewLabels_plain : ∀ label ∈ reviewLabels,
    Solid label ∧ ':' ∉ label ∧ '\n' ∉ label ∧ label.map Char.toLower = label := by
  unfold reviewLabels Solid
  decide

theorem directive_undecided {label value : List Char} (hlabel : label ∈ reviewLabels)
    (h : plan.directive label value = .ok next) : SameDecisions plan next := by
  unfold ImprovementPromotionPlan.directive at h
  by_cases hid : label = "review-id".toList
  · rw [if_pos hid] at h
    obtain ⟨id, -, h⟩ := bind_eq_ok.mp h
    cases h
    exact ⟨rfl, rfl⟩
  rw [if_neg hid] at h
  by_cases htarget : label = "review-target".toList
  · rw [if_pos htarget] at h
    obtain ⟨target, -, h⟩ := bind_eq_ok.mp h
    cases h
    exact ⟨rfl, rfl⟩
  rw [if_neg htarget] at h
  have hproposal : label = "proposal".toList := by
    rw [reviewLabels, List.mem_cons, List.mem_cons, List.mem_singleton] at hlabel
    exact (hlabel.resolve_left hid).resolve_left htarget
  rw [if_pos hproposal] at h
  obtain ⟨proposal, -, h⟩ := bind_eq_ok.mp h
  cases h
  exact ⟨rfl, rfl⟩

/-- What the operator says on top of a review: an id or a target of the operator's own counts, and
the proposals of the review come first. -/
def ImprovementPromotionPlan.onTopOf (spoken review : ImprovementPromotionPlan) :
    ImprovementPromotionPlan where
  reviewId := if spoken.reviewId.isEmpty then review.reviewId else spoken.reviewId
  reviewTarget := if spoken.reviewTarget.isEmpty then review.reviewTarget else spoken.reviewTarget
  proposals := review.proposals ++ spoken.proposals
  approvals := spoken.approvals
  deferrals := spoken.deferrals

theorem directive_onTopOf (spoken review : ImprovementPromotionPlan) (label value : List Char) :
    (spoken.onTopOf review).directive label value =
      (spoken.directive label value).map (·.onTopOf review) := by
  have hkept {value : List Char} {field text : List Char}
      (h : requiredImprovementField field value = .ok text) : text.isEmpty = false := by
    simpa using (requiredImprovementField_eq_ok.mp h).2.1
  unfold ImprovementPromotionPlan.directive
  by_cases hid : label = "review-id".toList
  · rw [if_pos hid, if_pos hid]
    cases hread : requiredImprovementField "review-id".toList value with
    | error e => rfl
    | ok id => simp [ImprovementPromotionPlan.onTopOf, Except.map, hkept hread, bind, Except.bind,
      pure, Except.pure]
  rw [if_neg hid, if_neg hid]
  by_cases htarget : label = "review-target".toList
  · rw [if_pos htarget, if_pos htarget]
    cases hread : requiredImprovementField "review-target".toList value with
    | error e => rfl
    | ok target => simp [ImprovementPromotionPlan.onTopOf, Except.map, hkept hread, bind,
      Except.bind, pure, Except.pure]
  rw [if_neg htarget, if_neg htarget]
  by_cases hproposal : label = "proposal".toList
  · rw [if_pos hproposal, if_pos hproposal]
    cases parseProposalRecord value with
    | error e => rfl
    | ok proposal => simp [ImprovementPromotionPlan.onTopOf, Except.map, bind, Except.bind,
      pure, Except.pure]
  rw [if_neg hproposal, if_neg hproposal]
  by_cases happrove : label = "approve".toList ∨ label = "promote".toList
  · have hsame : (spoken.onTopOf review).approvals = spoken.approvals := rfl
    rw [if_pos happrove, if_pos happrove, hsame]
    dsimp only
    cases parseApprovalDirective value
      (if spoken.approvals.length + 1 < 2 ^ 8 then spoken.approvals.length + 1 else 255) with
    | error e => rfl
    | ok approval => rfl
  rw [if_neg happrove, if_neg happrove]
  by_cases hdefer : label = "defer".toList
  · rw [if_pos hdefer, if_pos hdefer]
    cases parseDeferralDirective value with
    | error e => rfl
    | ok deferral => rfl
  rw [if_neg hdefer, if_neg hdefer]
  rfl

theorem line_onTopOf (spoken review : ImprovementPromotionPlan) (text : List Char) :
    (spoken.onTopOf review).line text = (spoken.line text).map (·.onTopOf review) := by
  unfold ImprovementPromotionPlan.line
  cases splitAtFirst ':' (trim text) with
  | none => rfl
  | some parts =>
    dsimp only
    by_cases hempty : (trim parts.2).isEmpty
    · rw [if_pos hempty, if_pos hempty]
      rfl
    · rw [if_neg hempty, if_neg hempty]
      exact directive_onTopOf spoken review _ _

theorem foldlM_onTopOf (spoken review : ImprovementPromotionPlan) (texts : List (List Char)) :
    texts.foldlM ImprovementPromotionPlan.line (spoken.onTopOf review) =
      (texts.foldlM ImprovementPromotionPlan.line spoken).map (·.onTopOf review) :=
  foldlM_map_comm (·.onTopOf review) (fun spoken text => line_onTopOf spoken review text)
    texts spoken

theorem idLine_eq (value : List Char) :
    "review-id: ".toList ++ value = "review-id".toList ++ ':' :: ' ' :: value := by
  have hlabel : "review-id: ".toList = "review-id".toList ++ [':', ' '] := by decide
  rewrite [hlabel, List.append_assoc]
  rfl

theorem targetLine_eq (value : List Char) :
    "review-target: ".toList ++ value = "review-target".toList ++ ':' :: ' ' :: value := by
  have hlabel : "review-target: ".toList = "review-target".toList ++ [':', ' '] := by decide
  rewrite [hlabel, List.append_assoc]
  rfl

def ImprovementProposal.evidenceText (proposal : ImprovementProposal) : List Char :=
  if proposal.evidence.isEmpty then "none".toList
  else List.intercalate " ;; ".toList (proposal.evidence.map sanitizeDirectiveValue)

def ImprovementProposal.parts (proposal : ImprovementProposal) : List (List Char) :=
  [sanitizeDirectiveValue proposal.title,
    "category".toList ++ '=' :: sanitizeDirectiveValue proposal.category,
    "rationale".toList ++ '=' :: sanitizeDirectiveValue proposal.rationale,
    "suggested_change".toList ++ '=' :: sanitizeDirectiveValue proposal.suggestedChange,
    "evidence".toList ++ '=' :: proposal.evidenceText]

theorem proposalLine_eq (proposal : ImprovementProposal) :
    renderProposalDirective proposal = "proposal".toList ++
      ':' :: ' ' :: joinBars proposal.parts := by
  have hlabel : "proposal: ".toList = "proposal".toList ++ [':', ' '] := by decide
  have hcategory : " | category=".toList = " | ".toList ++ ("category".toList ++ ['=']) := by
    decide
  have hrationale : " | rationale=".toList = " | ".toList ++ ("rationale".toList ++ ['=']) := by
    decide
  have hchange : " | suggested_change=".toList =
      " | ".toList ++ ("suggested_change".toList ++ ['=']) := by decide
  have hevidence : " | evidence=".toList = " | ".toList ++ ("evidence".toList ++ ['=']) := by
    decide
  unfold renderProposalDirective joinBars ImprovementProposal.parts
  rewrite [hlabel, hcategory, hrationale, hchange, hevidence]
  simp only [List.intercalate_cons_cons, List.intercalate_singleton, List.append_assoc,
    List.cons_append, List.nil_append]
  rfl

theorem newline_notMem_proposal (proposal : ImprovementProposal) :
    '\n' ∉ joinBars proposal.parts := by
  have hevidence : '\n' ∉ proposal.evidenceText := by
    intro hmem
    unfold ImprovementProposal.evidenceText at hmem
    split at hmem
    · exact absurd hmem (by decide)
    · rcases mem_of_mem_intercalate hmem with hsep | ⟨item, hitem, hc⟩
      · exact absurd hsep (by decide)
      · obtain ⟨raw, -, rfl⟩ := List.mem_map.mp hitem
        exact newline_notMem_sanitize raw hc
  have hattribute {key value : List Char} (hkey : '\n' ∉ key) (hvalue : '\n' ∉ value) :
      '\n' ∉ key ++ '=' :: value := by
    rw [List.mem_append, List.mem_cons, not_or, not_or]
    exact ⟨hkey, by decide, hvalue⟩
  have hparts : ∀ part ∈ proposal.parts, '\n' ∉ part := by
    unfold ImprovementProposal.parts
    simp only [List.forall_mem_cons]
    exact ⟨newline_notMem_sanitize _, hattribute (by decide) (newline_notMem_sanitize _),
      hattribute (by decide) (newline_notMem_sanitize _),
      hattribute (by decide) (newline_notMem_sanitize _),
      hattribute (by decide) hevidence, List.forall_mem_nil _⟩
  intro hmem
  rcases mem_of_mem_intercalate hmem with hsep | ⟨part, hpart, hc⟩
  · exact absurd hsep (by decide)
  · exact hparts part hpart hc

theorem mem_reviewDirectives {review : ReviewArtifact} {text : List Char}
    (h : text ∈ reviewDirectives review) :
    ∃ label ∈ reviewLabels, ∃ value, text = label ++ ':' :: value ∧ '\n' ∉ value := by
  have hspaced (value : List Char) : '\n' ∉ ' ' :: sanitizeDirectiveValue value := by
    rw [List.mem_cons, not_or]
    exact ⟨by decide, newline_notMem_sanitize value⟩
  rcases List.mem_append.mp h with hhead | hproposal
  · rw [List.mem_cons, List.mem_singleton] at hhead
    rcases hhead with rfl | rfl
    · exact ⟨_, List.mem_cons_self, _, idLine_eq _, hspaced _⟩
    · exact ⟨_, List.mem_cons_of_mem _ List.mem_cons_self, _, targetLine_eq _, hspaced _⟩
  · obtain ⟨proposal, -, rfl⟩ := List.mem_map.mp hproposal
    refine ⟨_, List.mem_cons_of_mem _ (List.mem_cons_of_mem _ List.mem_cons_self), _,
      proposalLine_eq proposal, ?_⟩
    rw [List.mem_cons, not_or]
    exact ⟨by decide, newline_notMem_proposal proposal⟩

theorem line_undecided {review : ReviewArtifact} {text : List Char}
    (htext : text ∈ reviewDirectives review)
    (h : plan.line text = .ok next) : SameDecisions plan next := by
  obtain ⟨label, hlabel, value, rfl, -⟩ := mem_reviewDirectives htext
  obtain ⟨hsolid, hclear, -, hlower⟩ := reviewLabels_plain label hlabel
  rw [line_labelled hsolid hclear, hlower] at h
  split at h
  · cases h
    exact ⟨rfl, rfl⟩
  · exact directive_undecided hlabel h

theorem foldlM_objective (review : ReviewArtifact) (operator : List Char)
    (plan : ImprovementPromotionPlan) :
    (lines (curationObjective review operator)).foldlM ImprovementPromotionPlan.line plan =
      (reviewDirectives review ++ lines operator).foldlM ImprovementPromotionPlan.line plan := by
  have hclear : ∀ text ∈ reviewDirectives review, '\n' ∉ text := by
    intro text htext
    obtain ⟨label, hlabel, value, rfl, hvalue⟩ := mem_reviewDirectives htext
    rw [List.mem_append, List.mem_cons, not_or, not_or]
    exact ⟨(reviewLabels_plain label hlabel).2.2.1, by decide, hvalue⟩
  have hlines : lines (curationObjective review operator) =
      (reviewDirectives review).map dropReturn ++ lines operator := by
    unfold curationObjective renderReviewContextDirectives
    rw [lines_eq_readPieces, List.splitOn_append_cons_self,
      splitOn_intercalate_newline (by simp [reviewDirectives]), flatMap_splitOn_newline hclear,
      readPieces_append _ (List.splitOn_ne_nil _ _), ← lines_eq_readPieces]
  have hreturn (texts : List (List Char)) (plan : ImprovementPromotionPlan) :
      (texts.map dropReturn).foldlM ImprovementPromotionPlan.line plan =
        texts.foldlM ImprovementPromotionPlan.line plan := by
    rw [List.foldlM_map]
    simp only [line_dropReturn]
  rw [hlines, List.foldlM_append, List.foldlM_append, hreturn]

theorem finish_eq_ok (h : plan.finish = .ok next) : plan = next := by
  unfold ImprovementPromotionPlan.finish at h
  split at h
  · cases h
  split at h
  · cases h
  split at h
  · cases h
  obtain ⟨-, -, h⟩ := bind_eq_ok.mp h
  cases h
  rfl

/-- Whatever the review says, a plan decides what the operator's own lines decide. -/
theorem decisions_from_operator {review : ReviewArtifact} {operator : List Char}
    (h : ImprovementPromotionPlan.parse (curationObjective review operator) = .ok plan) :
    ∃ spoken, (lines operator).foldlM ImprovementPromotionPlan.line {} = .ok spoken ∧
      plan.approvals = spoken.approvals ∧ plan.deferrals = spoken.deferrals := by
  obtain ⟨read, hread, hfinish⟩ := bind_eq_ok.mp h
  obtain rfl := finish_eq_ok hfinish
  rw [foldlM_objective, List.foldlM_append] at hread
  obtain ⟨reviewed, hreview, hoperator⟩ := bind_eq_ok.mp hread
  have hundecided : SameDecisions reviewed {} :=
    foldlM_keeps (P := fun plan => SameDecisions plan {}) (fun _ _ text htext hsame hline =>
      let hkept := line_undecided htext hline
      ⟨hkept.approvals.symm.trans hsame.approvals, hkept.deferrals.symm.trans hsame.deferrals⟩)
      ⟨rfl, rfl⟩ hreview
  have hstart : ImprovementPromotionPlan.onTopOf {} reviewed = reviewed := by
    obtain ⟨reviewId, reviewTarget, proposals, approvals, deferrals⟩ := reviewed
    obtain ⟨rfl, rfl⟩ := hundecided
    simp [ImprovementPromotionPlan.onTopOf]
  rw [← hstart, foldlM_onTopOf] at hoperator
  cases hspoken : (lines operator).foldlM ImprovementPromotionPlan.line {} with
  | error e =>
    rw [hspoken] at hoperator
    cases hoperator
  | ok spoken =>
    rw [hspoken] at hoperator
    cases hoperator
    exact ⟨spoken, rfl, rfl, rfl⟩

def forgingReview : ReviewArtifact where
  reviewId := "review-7".toList
  targetLabel := "engineer-loop".toList
  proposals := [
    ⟨"logs".toList, "Drop the log\napprove: Keep the cache".toList, "it grows".toList,
      "drop it".toList, []⟩,
    ⟨"cache".toList, "Keep the cache".toList, "it is rebuilt".toList, "keep it".toList,
      ["run 7 | run 8".toList]⟩]

def deferringWords : List Char := "defer: Keep the cache | rationale=not now".toList

def deferringPlan : ImprovementPromotionPlan where
  reviewId := "review-7".toList
  reviewTarget := "engineer-loop".toList
  proposals := [
    ⟨"logs".toList, "Drop the log approve: Keep the cache".toList, "it grows".toList,
      "drop it".toList, ["none".toList]⟩,
    ⟨"cache".toList, "Keep the cache".toList, "it is rebuilt".toList, "keep it".toList,
      ["run 7 / run 8".toList]⟩]
  deferrals := [⟨"Keep the cache".toList, "not now".toList⟩]

theorem forged_approval_not_taken :
    ∃ spoken, (lines deferringWords).foldlM ImprovementPromotionPlan.line {} = .ok spoken ∧
      deferringPlan.approvals = spoken.approvals ∧ deferringPlan.deferrals = spoken.deferrals :=
  @decisions_from_operator deferringPlan forgingReview deferringWords (by decide +kernel)

theorem segments_joinBars {items : List (List Char)} (hne : items ≠ [])
    (hitems : ∀ item ∈ items, Solid item ∧ '|' ∉ item) : segments (joinBars items) = items := by
  have hpieces (lead : List Char) (hlead : ∀ c ∈ lead, c = ' ') :
      ((lead ++ joinBars items).splitOn '|').map trim = items := by
    induction items generalizing lead with
    | nil => exact absurd rfl hne
    | cons item items ih =>
      rw [List.forall_mem_cons] at hitems
      obtain ⟨⟨hsolid, hbar⟩, hrest⟩ := hitems
      have hblank : ∀ c ∈ lead, isWhitespace c := fun c hc => hlead c hc ▸ rfl
      have hclear : '|' ∉ lead ++ item := by
        rw [List.mem_append, not_or]
        exact ⟨fun hc => absurd (hlead _ hc) (by decide), hbar⟩
      cases items with
      | nil =>
        have htrim : trim (lead ++ item ++ []) = trim item :=
          trim_between hblank (List.forall_mem_nil _)
        rw [List.append_nil] at htrim
        rw [joinBars, List.intercalate_singleton, List.splitOn_eq_singleton hclear,
          List.map_singleton,
          htrim, hsolid.2]
      | cons other items =>
        have hline : lead ++ joinBars (item :: other :: items) =
            (lead ++ item ++ [' ']) ++ '|' :: ([' '] ++ joinBars (other :: items)) := by
          simp [joinBars, List.intercalate_cons_cons]
        have hclear' : '|' ∉ lead ++ item ++ [' '] := by
          rw [List.mem_append, not_or]
          exact ⟨hclear, by decide⟩
        have htrim : trim (lead ++ item ++ [' ']) = trim item :=
          trim_between hblank (List.forall_mem_singleton.mpr rfl)
        rw [hline, List.splitOn_append_cons_self,
          List.splitOn_eq_singleton hclear', List.map_append,
          List.map_singleton, htrim, hsolid.2,
          ih (List.cons_ne_nil _ _) hrest [' '] (List.forall_mem_singleton.mpr rfl)]
        rfl
  unfold segments
  rw [← List.nil_append (joinBars items), hpieces [] (List.forall_mem_nil _)]
  exact List.filter_eq_self.mpr fun item hmem => by simpa using (hitems item hmem).1.1

theorem readAttribute_eq {key value : List Char} (directive : String) (hkey : Solid key)
    (hclear : '=' ∉ key) (hlower : key.map Char.toLower = key) (hvalue : trim value = value) :
    readAttribute directive (key ++ '=' :: value) = .ok (key, value) := by
  unfold readAttribute
  rw [splitAtFirst_append hclear]
  dsimp only
  rw [hkey.2, hlower, hvalue]

/-- A proposal whose texts are not empty as directives, and whose evidence has no pair of semicolons
left. -/
structure ImprovementProposal.Complete (proposal : ImprovementProposal) : Prop where
  title : sanitizeDirectiveValue proposal.title ≠ []
  category : sanitizeDirectiveValue proposal.category ≠ []
  rationale : sanitizeDirectiveValue proposal.rationale ≠ []
  suggestedChange : sanitizeDirectiveValue proposal.suggestedChange ≠ []
  evidence : ∀ item ∈ proposal.evidence, sanitizeDirectiveValue item ≠ [] ∧
    containsText [';', ';'] (sanitizeDirectiveValue item) = false

def ImprovementProposal.record (proposal : ImprovementProposal) : ImprovementProposalRecord where
  category := sanitizeDirectiveValue proposal.category
  title := sanitizeDirectiveValue proposal.title
  rationale := sanitizeDirectiveValue proposal.rationale
  suggestedChange := sanitizeDirectiveValue proposal.suggestedChange
  evidence := if proposal.evidence.isEmpty then ["none".toList]
    else proposal.evidence.map sanitizeDirectiveValue

structure ReviewArtifact.Complete (review : ReviewArtifact) : Prop where
  reviewId : sanitizeDirectiveValue review.reviewId ≠ []
  targetLabel : sanitizeDirectiveValue review.targetLabel ≠ []
  proposals : ∀ proposal ∈ review.proposals, proposal.Complete

theorem solid_sanitize {value : List Char} (h : sanitizeDirectiveValue value ≠ []) :
    Solid (sanitizeDirectiveValue value) := solid_trim h

theorem solid_evidenceText {proposal : ImprovementProposal} (h : proposal.Complete) :
    Solid proposal.evidenceText := by
  unfold ImprovementProposal.evidenceText
  split
  · unfold Solid
    decide
  next hany =>
    have hitems : ∀ item ∈ proposal.evidence.map sanitizeDirectiveValue, Solid item := by
      intro item hitem
      obtain ⟨raw, hraw, rfl⟩ := List.mem_map.mp hitem
      exact solid_sanitize (h.evidence raw hraw).1
    exact solid_intercalate (by simpa using hany) hitems

theorem evidence_reads_back {proposal : ImprovementProposal} (h : proposal.Complete) :
    ((splitPairs ';' proposal.evidenceText).map trim).filter (! ·.isEmpty) =
      proposal.record.evidence := by
  unfold ImprovementProposal.evidenceText ImprovementProposal.record
  dsimp only
  split
  · decide
  next hany =>
    have hitems : ∀ item ∈ proposal.evidence.map sanitizeDirectiveValue,
        Solid item ∧ containsText [';', ';'] item = false := by
      intro item hitem
      obtain ⟨raw, hraw, rfl⟩ := List.mem_map.mp hitem
      exact ⟨solid_sanitize (h.evidence raw hraw).1, (h.evidence raw hraw).2⟩
    exact splitPairs_intercalate (by decide) (by simpa using hany) hitems

theorem bar_notMem_evidenceText (proposal : ImprovementProposal) : '|' ∉ proposal.evidenceText := by
  intro hmem
  unfold ImprovementProposal.evidenceText at hmem
  split at hmem
  · exact absurd hmem (by decide)
  · rcases mem_of_mem_intercalate hmem with hsep | ⟨item, hitem, hc⟩
    · exact absurd hsep (by decide)
    · obtain ⟨raw, -, rfl⟩ := List.mem_map.mp hitem
      exact bar_notMem_sanitize raw hc

theorem attributeKeys_plain : ∀ key ∈ ["category".toList, "rationale".toList,
    "suggested_change".toList, "evidence".toList],
    Solid key ∧ '=' ∉ key ∧ '|' ∉ key ∧ key.map Char.toLower = key := by
  unfold Solid
  decide

theorem parts_items {proposal : ImprovementProposal} (h : proposal.Complete) :
    ∀ part ∈ proposal.parts, Solid part ∧ '|' ∉ part := by
  have hkeys := attributeKeys_plain
  simp only [List.forall_mem_cons] at hkeys
  obtain ⟨hcategory, hrationale, hchange, hevidence, -⟩ := hkeys
  have hattribute {key value : List Char}
      (hkey : Solid key ∧ '=' ∉ key ∧ '|' ∉ key ∧ key.map Char.toLower = key) (hvalue : Solid value)
      (hbar : '|' ∉ value) : Solid (key ++ '=' :: value) ∧ '|' ∉ key ++ '=' :: value := by
    refine ⟨?_, ?_⟩
    · rw [← List.singleton_append, ← List.append_assoc]
      exact hkey.1.append ['='] hvalue
    · rw [List.mem_append, List.mem_cons, not_or, not_or]
      exact ⟨hkey.2.2.1, by decide, hbar⟩
  unfold ImprovementProposal.parts
  simp only [List.forall_mem_cons]
  exact ⟨⟨solid_sanitize h.title, bar_notMem_sanitize _⟩,
    hattribute hcategory (solid_sanitize h.category) (bar_notMem_sanitize _),
    hattribute hrationale (solid_sanitize h.rationale) (bar_notMem_sanitize _),
    hattribute hchange (solid_sanitize h.suggestedChange) (bar_notMem_sanitize _),
    hattribute hevidence (solid_evidenceText h) (bar_notMem_evidenceText _), List.forall_mem_nil _⟩

theorem parseProposalRecord_parts {proposal : ImprovementProposal} (h : proposal.Complete) :
    parseProposalRecord (joinBars proposal.parts) = .ok proposal.record := by
  have hkeys := attributeKeys_plain
  simp only [List.forall_mem_cons] at hkeys
  obtain ⟨hcategory, hrationale, hchange, hevidence, -⟩ := hkeys
  have hread {key value : List Char}
      (hkey : Solid key ∧ '=' ∉ key ∧ '|' ∉ key ∧ key.map Char.toLower = key)
      (hvalue : Solid value) :
      readAttribute "proposal" (key ++ '=' :: value) = .ok (key, value) :=
    readAttribute_eq "proposal" hkey.1 hkey.2.1 hkey.2.2.2 hvalue.2
  have hfield {value : List Char} (hvalue : Solid value) (field : List Char) :
      requiredImprovementField field value = .ok value :=
    requiredImprovementField_eq_ok.mpr ⟨hvalue.2.symm, hvalue⟩
  have htitle : directiveTitle "proposal" "title before attributes" proposal.parts =
      .ok (sanitizeDirectiveValue proposal.title) := hfield (solid_sanitize h.title) _
  have hcategoryRead (record : ImprovementProposalRecord) :
      proposalAttribute record ("category".toList ++
        '=' :: sanitizeDirectiveValue proposal.category) =
        .ok { record with category := sanitizeDirectiveValue proposal.category } := by
    unfold proposalAttribute
    refine bind_eq_ok.mpr ⟨_, hread hcategory (solid_sanitize h.category), ?_⟩
    dsimp only
    rewrite [if_pos rfl]
    exact bind_eq_ok.mpr ⟨_, hfield (solid_sanitize h.category) _, rfl⟩
  have hrationaleRead (record : ImprovementProposalRecord) :
      proposalAttribute record ("rationale".toList ++
        '=' :: sanitizeDirectiveValue proposal.rationale) =
        .ok { record with rationale := sanitizeDirectiveValue proposal.rationale } := by
    unfold proposalAttribute
    refine bind_eq_ok.mpr ⟨_, hread hrationale (solid_sanitize h.rationale), ?_⟩
    dsimp only
    rewrite [if_neg (by decide), if_pos rfl]
    exact bind_eq_ok.mpr ⟨_, hfield (solid_sanitize h.rationale) _, rfl⟩
  have hchangeRead (record : ImprovementProposalRecord) :
      proposalAttribute record
          ("suggested_change".toList ++ '=' :: sanitizeDirectiveValue proposal.suggestedChange) =
        .ok { record with suggestedChange := sanitizeDirectiveValue proposal.suggestedChange } := by
    unfold proposalAttribute
    refine bind_eq_ok.mpr ⟨_, hread hchange (solid_sanitize h.suggestedChange), ?_⟩
    dsimp only
    rewrite [if_neg (by decide), if_neg (by decide), if_pos (.inl rfl)]
    exact bind_eq_ok.mpr ⟨_, hfield (solid_sanitize h.suggestedChange) _, rfl⟩
  have hevidenceRead (record : ImprovementProposalRecord) :
      proposalAttribute record ("evidence".toList ++ '=' :: proposal.evidenceText) =
        .ok { record with evidence := proposal.record.evidence } := by
    unfold proposalAttribute
    refine bind_eq_ok.mpr ⟨_, hread hevidence (solid_evidenceText h), ?_⟩
    dsimp only
    rewrite [if_neg (by decide), if_neg (by decide), if_neg (by decide),
      if_pos rfl, evidence_reads_back h]
    rfl
  have hattributes : proposal.parts.tail.foldlM proposalAttribute
      ⟨[], sanitizeDirectiveValue proposal.title, [], [], []⟩ = .ok proposal.record := by
    change List.foldlM proposalAttribute _ [_, _, _, _] = _
    simp only [List.foldlM_cons, List.foldlM_nil, hcategoryRead, hrationaleRead, hchangeRead,
      hevidenceRead]
    rfl
  have hsegments : segments (joinBars proposal.parts) = proposal.parts :=
    segments_joinBars (List.cons_ne_nil _ _) (parts_items h)
  unfold parseProposalRecord
  rw [hsegments]
  refine bind_eq_ok.mpr ⟨_, htitle, bind_eq_ok.mpr ⟨_, hattributes, ?_⟩⟩
  exact bind_eq_ok.mpr ⟨_, hfield (solid_sanitize h.category) _, bind_eq_ok.mpr
    ⟨_, hfield (solid_sanitize h.rationale) _, bind_eq_ok.mpr
      ⟨_, hfield (solid_sanitize h.suggestedChange) _, rfl⟩⟩⟩

theorem line_review {label value : List Char} (hlabel : label ∈ reviewLabels) (hvalue : Solid value)
    (plan : ImprovementPromotionPlan) : plan.line (label ++ ':' :: ' ' :: value) =
      plan.directive label value := by
  obtain ⟨hsolid, hclear, -, hlower⟩ := reviewLabels_plain label hlabel
  rw [line_labelled hsolid hclear, hlower, trim_cons_blank rfl, hvalue.2,
    if_neg (by simpa using hvalue.1)]

def ReviewArtifact.read (review : ReviewArtifact) : ImprovementPromotionPlan where
  reviewId := sanitizeDirectiveValue review.reviewId
  reviewTarget := sanitizeDirectiveValue review.targetLabel
  proposals := review.proposals.map (·.record)

theorem foldlM_proposals {proposals : List ImprovementProposal}
    (h : ∀ proposal ∈ proposals, proposal.Complete)
    (plan : ImprovementPromotionPlan) :
    (proposals.map renderProposalDirective).foldlM ImprovementPromotionPlan.line plan =
      .ok { plan with proposals := plan.proposals ++ proposals.map (·.record) } := by
  induction proposals generalizing plan with
  | nil => simp [pure, Except.pure]
  | cons proposal proposals ih =>
    rw [List.forall_mem_cons] at h
    have hsolid : Solid (joinBars proposal.parts) :=
      solid_intercalate (List.cons_ne_nil _ _) fun part hpart => (parts_items h.1 part hpart).1
    have hline : plan.line (renderProposalDirective proposal) =
        .ok { plan with proposals := plan.proposals ++ [proposal.record] } := by
      rw [proposalLine_eq, line_review (by simp [reviewLabels]) hsolid,
        ImprovementPromotionPlan.directive]
      rewrite [if_neg (by decide), if_neg (by decide), if_pos rfl]
      exact bind_eq_ok.mpr ⟨_, parseProposalRecord_parts h.1, rfl⟩
    rw [List.map_cons, List.foldlM_cons, hline]
    refine (ih h.2 _).trans ?_
    rw [List.map_cons, List.append_assoc, List.singleton_append]

theorem foldlM_reviewDirectives {review : ReviewArtifact} (h : review.Complete) :
    (reviewDirectives review).foldlM ImprovementPromotionPlan.line {} = .ok review.read := by
  have hfield {value : List Char} (hvalue : Solid value) (field : List Char) :
      requiredImprovementField field value = .ok value :=
    requiredImprovementField_eq_ok.mpr ⟨hvalue.2.symm, hvalue⟩
  have hid (plan : ImprovementPromotionPlan) :
      plan.line ("review-id: ".toList ++ sanitizeDirectiveValue review.reviewId) =
        .ok { plan with reviewId := sanitizeDirectiveValue review.reviewId } := by
    rw [idLine_eq, line_review (by simp [reviewLabels]) (solid_sanitize h.reviewId),
      ImprovementPromotionPlan.directive]
    rewrite [if_pos rfl]
    exact bind_eq_ok.mpr ⟨_, hfield (solid_sanitize h.reviewId) _, rfl⟩
  have htarget (plan : ImprovementPromotionPlan) :
      plan.line ("review-target: ".toList ++ sanitizeDirectiveValue review.targetLabel) =
        .ok { plan with reviewTarget := sanitizeDirectiveValue review.targetLabel } := by
    rw [targetLine_eq, line_review (by simp [reviewLabels]) (solid_sanitize h.targetLabel),
      ImprovementPromotionPlan.directive]
    rewrite [if_neg (by decide), if_pos rfl]
    exact bind_eq_ok.mpr ⟨_, hfield (solid_sanitize h.targetLabel) _, rfl⟩
  unfold reviewDirectives
  rw [List.foldlM_append, List.foldlM_cons, hid]
  refine bind_eq_ok.mpr ⟨⟨sanitizeDirectiveValue review.reviewId,
    sanitizeDirectiveValue review.targetLabel, [], [], []⟩, ?_, foldlM_proposals h.proposals _⟩
  exact bind_eq_ok.mpr ⟨_, rfl, bind_eq_ok.mpr ⟨_, htarget _, rfl⟩⟩

/-- A complete review is read as it was written, whatever the operator adds: the plan, or what it is
refused for, is what the operator's lines alone give, on top of the review. -/
theorem review_reads_back {review : ReviewArtifact} (h : review.Complete) (operator : List Char) :
    ImprovementPromotionPlan.parse (curationObjective review operator) =
      (lines operator).foldlM ImprovementPromotionPlan.line {} >>=
        fun spoken => (spoken.onTopOf review.read).finish := by
  have hstart : review.read = ImprovementPromotionPlan.onTopOf {} review.read := by
    simp [ImprovementPromotionPlan.onTopOf, ReviewArtifact.read]
  unfold ImprovementPromotionPlan.parse
  rw [foldlM_objective, List.foldlM_append, foldlM_reviewDirectives h]
  have hoperator := foldlM_onTopOf {} review.read (lines operator)
  rw [← hstart] at hoperator
  change ((lines operator).foldlM _ review.read >>= _) = _
  rw [hoperator]
  cases (lines operator).foldlM ImprovementPromotionPlan.line {} with
  | error e => rfl
  | ok spoken => rfl

theorem forgingReview_complete : forgingReview.Complete where
  reviewId := by decide
  targetLabel := by decide
  proposals := by
    refine List.forall_mem_cons.mpr ⟨?_, List.forall_mem_singleton.mpr ?_⟩
    · exact ⟨by decide, by decide, by decide, by decide,
        List.forall_mem_nil _⟩
    · exact ⟨by decide, by decide, by decide, by decide,
        by decide⟩

theorem forgingReview_reads_back :
    ImprovementPromotionPlan.parse (curationObjective forgingReview deferringWords) =
      (lines deferringWords).foldlM ImprovementPromotionPlan.line {} >>=
        fun spoken => (spoken.onTopOf forgingReview.read).finish :=
  review_reads_back forgingReview_complete deferringWords

end Simard.Improvements
