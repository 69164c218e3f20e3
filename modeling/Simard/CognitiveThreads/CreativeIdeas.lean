import Simard.Memory.Consolidation
import Mathlib.Data.Rat.Defs
import Mathlib.Data.Finset.Basic

/-! One tick of the creative ideas thread. Every candidate of the batch is judged against the ideas
that were listed at the start; what is done with it changes the memory at once. -/
namespace Simard.CognitiveThreads
open Simard.Library Simard.Memory

def tokenize (text : String) : Finset (List Char) :=
  (((text.toList.splitOnP fun c => !c.isAlphanum).filter (· ≠ [])).map
    (List.map Char.toLower)).toFinset

def jaccard (a b : String) : ℚ :=
  let sa := tokenize a
  let sb := tokenize b
  if sa = ∅ ∧ sb = ∅ then 1
  else if (sa ∪ sb).card = 0 then 0
  else (sa ∩ sb).card / (sa ∪ sb).card

def defaultDedupThreshold : ℚ := 3 / 5

def isNearDuplicate (candidate prior : String) (threshold : ℚ) : Bool :=
  threshold ≤ jaccard candidate prior

theorem jaccard_comm (a b : String) : jaccard a b = jaccard b a := by
  simp only [jaccard, and_comm, Finset.union_comm (tokenize a), Finset.inter_comm (tokenize a)]

structure RawIdea (Kind : Type) where
  idea : String
  links : List (MemoryLink Kind)
  rationale : String

structure ExistingIdeaView where
  nodeId : String
  ideaId : String
  idea : String
  rationale : String

structure IdeaDedupCtx where
  candidateIdea : String
  candidateRationale : String
  existingShortlist : List ExistingIdeaView

inductive IdeaDedupDecision where
  | createNew
  | skip (rationale : String)
  | enhanceExisting (targetNodeId rationale : String)

inductive PlannedAction where
  | create
  | skip (rationale : String)
  | enhance (targetNodeId rationale : String)
  | failClosed (reason : String)
  deriving DecidableEq

section Plan

variable {Status Kind Other : Type}

def viewOf (idea : StoredIdea Status Kind Other) : ExistingIdeaView :=
  ⟨idea.nodeId, idea.ideaId, idea.idea, idea.rest.context.rationale⟩

/-- The listed ideas that share a word, the most similar first, as many as are asked for. -/
def coarseShortlist (candidate : RawIdea Kind) (pool : List (StoredIdea Status Kind Other))
    (k : Nat) : List ExistingIdeaView :=
  ((((pool.map fun i => (jaccard candidate.idea i.idea, i)).filter fun scored =>
    0 < scored.1).mergeSort
    fun a b => b.1 ≤ a.1).take (max k 1)).map fun scored => viewOf scored.2

def deterministicBackstop (candidate : RawIdea Kind) (pool : List (StoredIdea Status Kind Other))
    (threshold : ℚ) : PlannedAction :=
  if pool.any fun p => isNearDuplicate candidate.idea p.idea threshold then
    .skip "deterministic word-set backstop: near-duplicate of an existing idea"
  else .create

def planCandidate (candidate : RawIdea Kind) (pool : List (StoredIdea Status Kind Other))
    (brain : IdeaDedupCtx → Except String IdeaDedupDecision) (enabled : Bool) (shortlistK : Nat)
    (threshold : ℚ) : PlannedAction :=
  if pool = [] then .create
  else if !enabled then deterministicBackstop candidate pool threshold
  else
    let shortlist := coarseShortlist candidate pool shortlistK
    if shortlist = [] then .create
    else
      match brain ⟨candidate.idea, candidate.rationale, shortlist⟩ with
      | .ok .createNew => .create
      | .ok (.skip rationale) => .skip rationale
      | .ok (.enhanceExisting target rationale) =>
          if shortlist.any fun view => view.nodeId = target then .enhance target rationale
          else .failClosed ("enhance target '" ++ target ++ "' not in the candidate's shortlist")
      | .error error => .failClosed error

end Plan

inductive RouteOutcome where
  | goal
  | issue
  | parked
  | dryRun

structure GenerationReport where
  generated : Nat
  surviving : Nat
  persisted : Nat
  reviewed : Nat
  routedGoal : Nat
  routedIssue : Nat
  reviewErrors : Nat
  skipped : Nat
  enhanced : Nat
  dedupErrors : Nat
  dryRun : Bool

/-- What is fixed for the thread and the tick: the size of a batch, whether the brain is asked, how
many ideas it is shown, and what a new idea starts with. -/
structure TickSettings (Status Other : Type) where
  batch : Nat
  semanticEnabled : Bool
  shortlistK : Nat
  newStatus : Status
  currentGoals : List String
  recentActivity : Nat
  unmeasured : Other

/-- How a new idea fares in review: the revision that the pipeline stores at its end, if it gets
there, and what it reports. -/
structure Reviewed (Status Other : Type) where
  revision : Option (Status × List ReviewFlags × Other)
  outcome : Option RouteOutcome

/-- A candidate with what it will meet: whether the thread is to stop before it, the brain's answer,
and its review. -/
structure Candidate (Status Kind Other : Type) where
  raw : RawIdea Kind
  shutdown : Bool
  brain : IdeaDedupCtx → Except String IdeaDedupDecision
  reviewed : Reviewed Status Other

def previousIdeasLimit : Nat := 256

/-- Ids for new ideas: none that an idea has. -/
structure NewIds {Status Kind Other : Type} (backend : IdeaBackend Status Kind Other) where
  mint : IdeaMemory backend → String
  named : ∀ memory, mint memory ≠ ""
  fresh : ∀ memory : IdeaMemory backend, memory.current (mint memory) = none

section Tick

variable {Status Kind Other : Type} [DecidableEq Kind] {backend : IdeaBackend Status Kind Other}
  (settings : TickSettings Status Other) (ids : NewIds backend)

def addLink (links : List (MemoryLink Kind)) (link : MemoryLink Kind) : List (MemoryLink Kind) :=
  if links.any fun l => l.kind = link.kind && l.nodeId = link.nodeId then links else links ++ [link]

def enhancedIdea (existing : StoredIdea Status Kind Other) (candidate : RawIdea Kind)
    (rationale : String) : StoredIdea Status Kind Other :=
  let context := { existing.rest.context with
    rationale := mergeRationale existing.rest.context.rationale [candidate.rationale, rationale] }
  { existing with rest := { existing.rest with
      context := context, links := candidate.links.foldl addLink existing.rest.links } }

@[simp] theorem enhancedIdea_ideaId (existing : StoredIdea Status Kind Other)
    (candidate : RawIdea Kind) (rationale : String) :
    (enhancedIdea existing candidate rationale).ideaId = existing.ideaId := by
  dsimp only [enhancedIdea]

@[simp] theorem enhancedIdea_idea (existing : StoredIdea Status Kind Other)
    (candidate : RawIdea Kind) (rationale : String) :
    (enhancedIdea existing candidate rationale).idea = existing.idea := by
  dsimp only [enhancedIdea]

@[simp] theorem enhancedIdea_status (existing : StoredIdea Status Kind Other)
    (candidate : RawIdea Kind) (rationale : String) :
    (enhancedIdea existing candidate rationale).status = existing.status := by
  dsimp only [enhancedIdea]

def applyEnhance (dryRun : Bool) (memory : IdeaMemory backend) (target : String)
    (candidate : RawIdea Kind) (rationale : String) : Option (IdeaMemory backend) :=
  (memory.get target).map fun existing =>
    if dryRun then memory else memory.update (enhancedIdea existing candidate rationale)

def rawToCreativeIdea (memory : IdeaMemory backend) (raw : RawIdea Kind) :
    StoredIdea Status Kind Other where
  ideaId := ids.mint memory
  revision := 0
  nodeId := ""
  idea := raw.idea
  status := settings.newStatus
  rest := ⟨⟨"creative_ideas", settings.currentGoals, "entries=" ++ toString settings.recentActivity,
    raw.rationale⟩, raw.links, [], settings.unmeasured⟩

def reviewedIdea (idea : StoredIdea Status Kind Other)
    (revision : Status × List ReviewFlags × Other) : StoredIdea Status Kind Other :=
  { idea with
    status := revision.1
    rest := { idea.rest with flags := revision.2.1, other := revision.2.2 } }

def GenerationReport.addOutcome (report : GenerationReport) : Option RouteOutcome → GenerationReport
  | some .goal =>
    { report with reviewed := report.reviewed + 1, routedGoal := report.routedGoal + 1 }
  | some .issue =>
    { report with reviewed := report.reviewed + 1, routedIssue := report.routedIssue + 1 }
  | some .parked | some .dryRun => { report with reviewed := report.reviewed + 1 }
  | none => { report with reviewErrors := report.reviewErrors + 1 }

def createCandidate (dryRun : Bool) (state : IdeaMemory backend × GenerationReport)
    (candidate : Candidate Status Kind Other) : IdeaMemory backend × GenerationReport :=
  let idea := rawToCreativeIdea settings ids state.1 candidate.raw
  if dryRun then (state.1, state.2.addOutcome candidate.reviewed.outcome)
  else
    let stored := { idea with nodeId := state.1.nextName }
    let memory := state.1.create idea
    let memory := candidate.reviewed.revision.elim memory fun revision =>
      memory.update (reviewedIdea stored revision)
    (memory,
      { state.2 with persisted := state.2.persisted + 1 }.addOutcome candidate.reviewed.outcome)

def plan (pool : List (StoredIdea Status Kind Other)) (candidate : Candidate Status Kind Other) :
    PlannedAction :=
  planCandidate candidate.raw pool candidate.brain settings.semanticEnabled settings.shortlistK
    defaultDedupThreshold

def takeCandidate (dryRun : Bool) (pool : List (StoredIdea Status Kind Other))
    (state : IdeaMemory backend × GenerationReport) (candidate : Candidate Status Kind Other) :
    IdeaMemory backend × GenerationReport :=
  match plan settings pool candidate with
  | .create => createCandidate settings ids dryRun state candidate
  | .skip _ => (state.1, { state.2 with skipped := state.2.skipped + 1 })
  | .enhance target rationale =>
      match applyEnhance dryRun state.1 target candidate.raw rationale with
      | some memory => (memory, { state.2 with enhanced := state.2.enhanced + 1 })
      | none => createCandidate settings ids dryRun state candidate
  | .failClosed _ => (state.1, { state.2 with dedupErrors := state.2.dedupErrors + 1 })

/-- The candidates of the batch, up to the first before which the thread is to stop. -/
def taken (candidates : List (Candidate Status Kind Other)) : List (Candidate Status Kind Other) :=
  (candidates.take settings.batch).takeWhile fun candidate => !candidate.shutdown

def takeAll (dryRun : Bool) (pool : List (StoredIdea Status Kind Other))
    (state : IdeaMemory backend × GenerationReport)
    (candidates : List (Candidate Status Kind Other)) : IdeaMemory backend × GenerationReport :=
  candidates.foldl (takeCandidate settings ids dryRun pool) state

def runTick (dryRun : Bool) (memory : IdeaMemory backend)
    (candidates : List (Candidate Status Kind Other)) : IdeaMemory backend × GenerationReport :=
  takeAll settings ids dryRun (memory.list (some previousIdeasLimit))
    (memory, ⟨candidates.length, (candidates.take settings.batch).length, 0, 0, 0, 0, 0, 0, 0, 0,
      dryRun⟩) (taken settings candidates)

end Tick

section Step

variable {Status Kind Other : Type} [DecidableEq Kind] {backend : IdeaBackend Status Kind Other}
  {settings : TickSettings Status Other} {ids : NewIds backend}
  {pool : List (StoredIdea Status Kind Other)}

/-- A new idea, with the text of the candidate. -/
structure Creates (ids : NewIds backend) (memory after : IdeaMemory backend)
    (candidate : Candidate Status Kind Other) (new : StoredIdea Status Kind Other) : Prop where
  puts : IdeaMemory.Puts memory after new
  id : new.ideaId = ids.mint memory
  text : new.idea = candidate.raw.idea

omit [DecidableEq Kind] in
theorem createCandidate_creates (state : IdeaMemory backend × GenerationReport)
    (candidate : Candidate Status Kind Other) :
    ∃ new,
      Creates ids state.1 (createCandidate settings ids false state candidate).1 candidate new := by
  have hcreate : IdeaMemory.Puts state.1
      (state.1.create (rawToCreativeIdea settings ids state.1 candidate.raw)) _ :=
    IdeaMemory.puts_create (ids.named state.1) (ids.fresh state.1)
  unfold createCandidate
  cases candidate.reviewed.revision with
  | none => exact ⟨_, hcreate, rfl, rfl⟩
  | some revision =>
    refine ⟨_, hcreate.trans (IdeaMemory.puts_update ?_) rfl, rfl, rfl⟩
    exact ids.named state.1

variable (settings ids pool) in
theorem takeCandidate_cases (state : IdeaMemory backend × GenerationReport)
    (candidate : Candidate Status Kind Other) :
    (∃ target rationale existing, plan settings pool candidate = .enhance target rationale ∧
      state.1.get target = some existing ∧
      IdeaMemory.Puts state.1 (takeCandidate settings ids false pool state candidate).1
        (state.1.updated (enhancedIdea existing candidate.raw rationale))) ∨
    ((plan settings pool candidate = .create ∨ ∃ target rationale,
      plan settings pool candidate = .enhance target rationale ∧ state.1.get target = none) ∧
      ∃ new, Creates ids state.1 (takeCandidate settings ids false pool state candidate).1
        candidate new) ∨
    ((∀ target rationale, plan settings pool candidate ≠ .enhance target rationale) ∧
      plan settings pool candidate ≠ .create ∧
      (takeCandidate settings ids false pool state candidate).1 = state.1) := by
  unfold takeCandidate
  cases hplan : plan settings pool candidate with
  | create => exact .inr (.inl ⟨.inl rfl, createCandidate_creates state candidate⟩)
  | skip rationale => exact .inr (.inr ⟨nofun, nofun, rfl⟩)
  | failClosed reason => exact .inr (.inr ⟨nofun, nofun, rfl⟩)
  | enhance target rationale =>
    cases hget : state.1.get target with
    | none =>
      simp only [applyEnhance, hget, Option.map_none]
      exact .inr
        (.inl ⟨.inr ⟨target, rationale, rfl, hget⟩, createCandidate_creates state candidate⟩)
    | some existing =>
      simp only [applyEnhance, hget, Option.map_some]
      refine .inl ⟨target, rationale, existing, rfl, hget, IdeaMemory.puts_update ?_⟩
      have hcurrent := (IdeaMemory.get_eq_some.mp hget).1
      have hexisting := IdeaMemory.mem_revisions_of_current hcurrent
      rw [enhancedIdea_ideaId]
      exact IdeaMemory.ideaId_ne_empty hexisting

theorem takeCandidate_grown (state : IdeaMemory backend × GenerationReport)
    (candidate : Candidate Status Kind Other) {i : StoredIdea Status Kind Other}
    (h : i ∈ state.1.revisions) :
    i ∈ (takeCandidate settings ids false pool state candidate).1.revisions := by
  rcases takeCandidate_cases settings ids pool state candidate with
    ⟨_, _, _, -, -, hputs⟩ | ⟨-, new, hcreates⟩ | ⟨-, -, hsame⟩
  · exact hputs.grown i h
  · exact hcreates.puts.grown i h
  · rw [hsame]
    exact h

theorem takeAll_grown (candidates : List (Candidate Status Kind Other))
    (state : IdeaMemory backend × GenerationReport) {i : StoredIdea Status Kind Other}
    (h : i ∈ state.1.revisions) :
    i ∈ (takeAll settings ids false pool state candidates).1.revisions := by
  induction candidates generalizing state with
  | nil => exact h
  | cons candidate candidates ih => exact ih _ (takeCandidate_grown state candidate h)

theorem takeCandidate_get (state : IdeaMemory backend × GenerationReport)
    (candidate : Candidate Status Kind Other) {named : StoredIdea Status Kind Other}
    (hnamed : named ∈ state.1.revisions) :
    (takeCandidate settings ids false pool state candidate).1.get named.nodeId ≠ none ↔
      state.1.get named.nodeId ≠ none ∧
        ∀ rationale, plan settings pool candidate ≠ .enhance named.nodeId rationale := by
  rcases takeCandidate_cases settings ids pool state candidate with
    ⟨target, rationale, existing, hplan, hget, hputs⟩ | ⟨hplan, new, hcreates⟩ | ⟨hplan, -, hsame⟩
  · rw [hplan, Option.ne_none_iff_exists', Option.ne_none_iff_exists']
    simp only [hputs.get_eq_some hnamed, IdeaMemory.updated_ideaId, enhancedIdea_ideaId]
    constructor
    · rintro ⟨i, hi, hne⟩
      refine ⟨⟨i, hi⟩, ?_⟩
      rintro _ hsame
      obtain ⟨rfl, -⟩ := PlannedAction.enhance.inj hsame
      rw [hget, Option.some.injEq] at hi
      exact hne (congrArg CreativeIdea.ideaId hi.symm)
    · rintro ⟨⟨i, hi⟩, hother⟩
      refine ⟨i, hi, ?_⟩
      intro hidea
      -- two ideas as they are now with one id are one, and so is their record
      have hi' := IdeaMemory.get_eq_some.mp hi
      have hexisting := IdeaMemory.get_eq_some.mp hget
      rw [hidea, hexisting.1, Option.some.injEq] at hi'
      have hnode : existing.nodeId = i.nodeId := congrArg CreativeIdea.nodeId hi'.1
      have htarget : target = named.nodeId := hexisting.2.symm.trans (hnode.trans hi'.2)
      exact hother rationale (congrArg (PlannedAction.enhance · rationale) htarget)
  · rw [Option.ne_none_iff_exists', Option.ne_none_iff_exists']
    simp only [hcreates.puts.get_eq_some hnamed]
    constructor
    · rintro ⟨i, hi, -⟩
      refine ⟨⟨i, hi⟩, ?_⟩
      intro rationale hthis
      rcases hplan with hplan | ⟨target, _, hplan, hnone⟩
      · rw [hthis] at hplan
        cases hplan
      · rw [hthis] at hplan
        cases hplan
        rw [hi] at hnone
        cases hnone
    · rintro ⟨⟨i, hi⟩, -⟩
      refine ⟨i, hi, ?_⟩
      intro hid
      have hcurrent := (IdeaMemory.get_eq_some.mp hi).1
      rw [hid, hcreates.id, ids.fresh] at hcurrent
      cases hcurrent
  · rw [hsame]
    exact (and_iff_left fun rationale => hplan _ rationale).symm

theorem takeAll_get (candidates : List (Candidate Status Kind Other))
    (state : IdeaMemory backend × GenerationReport) {named : StoredIdea Status Kind Other}
    (hnamed : named ∈ state.1.revisions) :
    (takeAll settings ids false pool state candidates).1.get named.nodeId ≠ none ↔
      state.1.get named.nodeId ≠ none ∧ ∀ candidate ∈ candidates, ∀ rationale,
        plan settings pool candidate ≠ .enhance named.nodeId rationale := by
  induction candidates generalizing state with
  | nil => exact (and_iff_left nofun).symm
  | cons candidate candidates ih =>
    have hrest := ih (takeCandidate settings ids false pool state candidate)
      (takeCandidate_grown state candidate hnamed)
    rw [takeAll, List.foldl_cons, ← takeAll, hrest, takeCandidate_get state candidate hnamed,
      List.forall_mem_cons, and_assoc]

/-- The candidate is merged into the idea: the idea stays, with what the candidate adds, and no
other idea changes or comes up. -/
structure MergedInto (memory after : IdeaMemory backend) (ideaId : String)
    (candidate : RawIdea Kind) (rationale : String) : Prop where
  merged : ∃ before new, memory.current ideaId = some before ∧
    after.current = Function.update memory.current ideaId (some new) ∧
    new.ideaId = ideaId ∧ new.idea = before.idea ∧ new.status = before.status ∧
    new.rest = (enhancedIdea before candidate rationale).rest

omit [DecidableEq Kind] in
theorem mem_pool_of_plan {candidate : Candidate Status Kind Other} {target rationale : String}
    (h : plan settings pool candidate = .enhance target rationale) :
    ∃ i ∈ pool, i.nodeId = target := by
  unfold plan planCandidate at h
  split at h
  · cases h
  split at h
  · unfold deterministicBackstop at h
    split at h <;> cases h
  dsimp only at h
  split at h
  · cases h
  split at h
  · cases h
  · cases h
  next hbrain =>
    split at h
    next hshown =>
      obtain ⟨view, hview, hnode⟩ := List.any_eq_true.mp hshown
      obtain ⟨scored, hscored, rfl⟩ := List.mem_map.mp hview
      have hsorted := List.mem_mergeSort.mp (List.mem_of_mem_take hscored)
      obtain ⟨i, hi, rfl⟩ := List.mem_map.mp (List.mem_filter.mp hsorted).1
      obtain ⟨rfl, -⟩ := PlannedAction.enhance.inj h
      exact ⟨i, hi, of_decide_eq_true hnode⟩
    · cases h
  · cases h

theorem merged_iff_get (state : IdeaMemory backend × GenerationReport)
    {candidate : Candidate Status Kind Other} {rationale : String}
    {target : StoredIdea Status Kind Other} (htarget : target ∈ state.1.revisions)
    (hplan : plan settings pool candidate = .enhance target.nodeId rationale) :
    MergedInto state.1 (takeCandidate settings ids false pool state candidate).1 target.ideaId
      candidate.raw rationale ↔ state.1.get target.nodeId ≠ none := by
  rcases takeCandidate_cases settings ids pool state candidate with
    ⟨_, _, existing, hthis, hget, hputs⟩ | ⟨hthis, new, hcreates⟩ | ⟨hthis, -, -⟩
  · rw [hplan] at hthis
    cases hthis
    have hcurrent := IdeaMemory.get_eq_some.mp hget
    have hsame : existing = target := revision_of_nodeId backend.name.injective
      (IdeaMemory.mem_revisions_of_current hcurrent.1) htarget hcurrent.2
    rw [hget, hsame]
    rw [hsame] at hputs hcurrent
    have hafter := hputs.current
    rw [IdeaMemory.updated_ideaId, enhancedIdea_ideaId] at hafter
    refine iff_of_true ⟨target, _, hcurrent.1, hafter, ?_⟩ nofun
    simp
  · rw [hplan] at hthis
    rcases hthis with hthis | ⟨_, _, hthis, hget⟩
    · cases hthis
    cases hthis
    refine iff_of_false ?_ (not_not.mpr hget)
    rintro ⟨before, merged, hbefore, hafter, -⟩
    rw [hcreates.puts.current, hcreates.id] at hafter
    have hnew := congrFun hafter (ids.mint state.1)
    rw [Function.update_self, Function.update_of_ne, ids.fresh] at hnew
    · cases hnew
    · intro hid
      rw [← hid, ids.fresh] at hbefore
      cases hbefore
  · exact absurd hplan (hthis _ _)

/-- No two ideas, as they are now, say nearly the same. -/
def NoNearDuplicates (memory : IdeaMemory backend) : Prop :=
  ∀ i j : StoredIdea Status Kind Other, memory.current i.ideaId = some i →
    memory.current j.ideaId = some j → i.ideaId ≠ j.ideaId →
      isNearDuplicate i.idea j.idea defaultDedupThreshold = false

def Says (memory : IdeaMemory backend) (text : String) : Prop :=
  ∃ i : StoredIdea Status Kind Other, memory.current i.ideaId = some i ∧ i.idea = text

def accepted (pool : List (StoredIdea Status Kind Other))
    (candidate : Candidate Status Kind Other) :
    Bool :=
  !pool.any fun p => isNearDuplicate candidate.raw.idea p.idea defaultDedupThreshold

def acceptedTexts (pool : List (StoredIdea Status Kind Other))
    (candidates : List (Candidate Status Kind Other)) : List String :=
  (candidates.filter (accepted pool)).map (·.raw.idea)

/-- The accepted are no near duplicates of one another, nor of an idea as it is now. -/
structure TextsApart (memory : IdeaMemory backend) (texts : List String) : Prop where
  another : texts.Pairwise fun a b => isNearDuplicate a b defaultDedupThreshold = false
  current : ∀ a ∈ texts, ∀ b, Says memory b → isNearDuplicate a b defaultDedupThreshold = false

theorem isNearDuplicate_comm (a b : String) (threshold : ℚ) :
    isNearDuplicate a b threshold = isNearDuplicate b a threshold := by
  rw [isNearDuplicate, jaccard_comm, isNearDuplicate]

variable (pool) in
omit [DecidableEq Kind] in
theorem plan_off (h : settings.semanticEnabled = false) (candidate : Candidate Status Kind Other) :
    plan settings pool candidate =
      deterministicBackstop candidate.raw pool defaultDedupThreshold := by
  rw [plan, planCandidate, h, if_pos (Bool.not_false)]
  split
  next hempty =>
    rw [hempty]
    rfl
  · rfl

omit [DecidableEq Kind] in
theorem Creates.texts_iff {memory after : IdeaMemory backend}
    {candidate : Candidate Status Kind Other}
    {new : StoredIdea Status Kind Other} (h : Creates ids memory after candidate new)
    (text : String) :
    Says after text ↔ Says memory text ∨ text = candidate.raw.idea := by
  unfold Says
  rw [h.puts.current]
  constructor
  · rintro ⟨i, hi, rfl⟩
    by_cases hid : i.ideaId = new.ideaId
    · rw [hid, Function.update_self, Option.some.injEq] at hi
      rw [← hi, h.text]
      exact .inr rfl
    · rw [Function.update_of_ne hid] at hi
      exact .inl ⟨i, hi, rfl⟩
  · rintro (⟨i, hi, rfl⟩ | rfl)
    · have hid : i.ideaId ≠ new.ideaId := by
        intro hid
        rw [hid, h.id, ids.fresh] at hi
        cases hi
      exact ⟨i, by rw [Function.update_of_ne hid, hi], rfl⟩
    · exact ⟨new, Function.update_self .., h.text⟩

omit [DecidableEq Kind] in
theorem Creates.noNearDuplicates {memory after : IdeaMemory backend}
    {candidate : Candidate Status Kind Other} {new : StoredIdea Status Kind Other}
    (h : Creates ids memory after candidate new) :
    NoNearDuplicates after ↔ NoNearDuplicates memory ∧ ∀ text, Says memory text →
      isNearDuplicate candidate.raw.idea text defaultDedupThreshold = false := by
  have hold : ∀ i : StoredIdea Status Kind Other, memory.current i.ideaId = some i →
      i.ideaId ≠ new.ideaId ∧ after.current i.ideaId = some i := by
    intro i hi
    have hid : i.ideaId ≠ new.ideaId := by
      intro hid
      rw [hid, h.id, ids.fresh] at hi
      cases hi
    exact ⟨hid, by rw [h.puts.current, Function.update_of_ne hid, hi]⟩
  have hnew : after.current new.ideaId = some new := by
    rw [h.puts.current, Function.update_self]
  constructor
  · intro hnone
    constructor
    · exact fun i j hi hj => hnone i j (hold i hi).2 (hold j hj).2
    · rintro _ ⟨i, hi, rfl⟩
      rw [← h.text]
      exact hnone new i hnew (hold i hi).2 (hold i hi).1.symm
  · rintro ⟨hnone, hapart⟩ i j hi hj hne
    rw [h.puts.current] at hi hj
    by_cases hinew : i.ideaId = new.ideaId
    · rw [hinew, Function.update_self, Option.some.injEq] at hi
      have hjnew : j.ideaId ≠ new.ideaId := fun hjnew => hne (hinew.trans hjnew.symm)
      rw [Function.update_of_ne hjnew] at hj
      rw [← hi, h.text]
      exact hapart _ ⟨j, hj, rfl⟩
    · rw [Function.update_of_ne hinew] at hi
      by_cases hjnew : j.ideaId = new.ideaId
      · rw [hjnew, Function.update_self, Option.some.injEq] at hj
        rw [← hj, h.text, isNearDuplicate_comm]
        exact hapart _ ⟨i, hi, rfl⟩
      · rw [Function.update_of_ne hjnew] at hj
        exact hnone i j hi hj hne

omit [DecidableEq Kind] in
theorem Creates.textsApart {memory after : IdeaMemory backend}
    {candidate : Candidate Status Kind Other} {new : StoredIdea Status Kind Other}
    (h : Creates ids memory after candidate new) (texts : List String) :
    (∀ text, Says memory text →
      isNearDuplicate candidate.raw.idea text defaultDedupThreshold = false) ∧
        TextsApart after texts ↔ TextsApart memory (candidate.raw.idea :: texts) := by
  constructor
  · rintro ⟨hfirst, hrest⟩
    constructor
    · refine List.pairwise_cons.mpr ⟨?_, hrest.another⟩
      intro text htext
      rw [isNearDuplicate_comm]
      exact hrest.current text htext _ ((h.texts_iff _).mpr (.inr rfl))
    · rw [List.forall_mem_cons]
      exact ⟨hfirst, fun a ha b hb => hrest.current a ha b ((h.texts_iff b).mpr (.inl hb))⟩
  · intro hall
    obtain ⟨hfirst, hrest⟩ := List.forall_mem_cons.mp hall.current
    obtain ⟨hothers, hpairs⟩ := List.pairwise_cons.mp hall.another
    refine ⟨hfirst, hpairs, ?_⟩
    intro a ha b hb
    rcases (h.texts_iff b).mp hb with hb | rfl
    · exact hrest a ha b hb
    · rw [isNearDuplicate_comm]
      exact hothers a ha

omit [DecidableEq Kind] in
theorem acceptedTexts_cons (candidate : Candidate Status Kind Other)
    (candidates : List (Candidate Status Kind Other)) :
    acceptedTexts pool (candidate :: candidates) =
      if accepted pool candidate then candidate.raw.idea :: acceptedTexts pool candidates
      else acceptedTexts pool candidates := by
  rw [acceptedTexts, List.filter_cons]
  split <;> rfl

variable (ids pool) in
theorem takeCandidate_off (h : settings.semanticEnabled = false)
    (state : IdeaMemory backend × GenerationReport) (candidate : Candidate Status Kind Other) :
    if accepted pool candidate then
      ∃ new,
        Creates ids state.1 (takeCandidate settings ids false pool state candidate).1 candidate new
    else (takeCandidate settings ids false pool state candidate).1 = state.1 := by
  have hplan := plan_off pool h candidate
  unfold takeCandidate
  rw [hplan, deterministicBackstop, accepted]
  cases pool.any fun p => isNearDuplicate candidate.raw.idea p.idea defaultDedupThreshold with
  | false => exact createCandidate_creates state candidate
  | true => rfl

theorem takeAll_off (h : settings.semanticEnabled = false)
    (candidates : List (Candidate Status Kind Other))
    (state : IdeaMemory backend × GenerationReport) :
    NoNearDuplicates (takeAll settings ids false pool state candidates).1 ↔
      NoNearDuplicates state.1 ∧ TextsApart state.1 (acceptedTexts pool candidates) := by
  induction candidates generalizing state with
  | nil => exact (and_iff_left ⟨List.Pairwise.nil, nofun⟩).symm
  | cons candidate candidates ih =>
    rw [takeAll, List.foldl_cons, ← takeAll, ih]
    have hstep := takeCandidate_off ids pool h state candidate
    rw [acceptedTexts_cons]
    split at hstep
    next haccepted =>
      obtain ⟨new, hcreates⟩ := hstep
      rw [if_pos haccepted, hcreates.noNearDuplicates, and_assoc, hcreates.textsApart]
    next haccepted =>
      rw [if_neg haccepted, hstep]

end Step

section Whole

variable {Status Kind Other : Type} [DecidableEq Kind] {backend : IdeaBackend Status Kind Other}
  (settings : TickSettings Status Other) (ids : NewIds backend) (memory : IdeaMemory backend)
  (candidates : List (Candidate Status Kind Other))

def memoryAfter (first : List (Candidate Status Kind Other)) : IdeaMemory backend :=
  (takeAll settings ids false (memory.list (some previousIdeasLimit))
    (memory, ⟨candidates.length, (candidates.take settings.batch).length, 0, 0, 0, 0, 0, 0, 0, 0,
      false⟩) first).1

/-- Every candidate that names an idea is merged into it; and with the gate off no two ideas are
near duplicates, if none were. -/
structure AddsNoDuplicate : Prop where
  merged : ∀ first candidate rest, taken settings candidates = first ++ candidate :: rest →
    ∀ target ∈ memory.list (some previousIdeasLimit), ∀ rationale,
      plan settings (memory.list (some previousIdeasLimit)) candidate =
        .enhance target.nodeId rationale →
      MergedInto (memoryAfter settings ids memory candidates first)
        (memoryAfter settings ids memory candidates (first ++ [candidate])) target.ideaId
        candidate.raw rationale
  apart : settings.semanticEnabled = false → NoNearDuplicates memory →
    NoNearDuplicates (runTick settings ids false memory candidates).1

/-- A record that a candidate names is that of an idea as it is now at the start, and no earlier
candidate names it; and with the gate off, if no two ideas were near duplicates, the candidates
that are accepted are apart from one another and from the ideas. -/
structure TickCondition : Prop where
  targets : ∀ first candidate rest, taken settings candidates = first ++ candidate :: rest →
    ∀ target rationale, plan settings (memory.list (some previousIdeasLimit)) candidate =
        .enhance target rationale →
      memory.get target ≠ none ∧ ∀ earlier ∈ first, ∀ other,
        plan settings (memory.list (some previousIdeasLimit)) earlier ≠ .enhance target other
  texts : settings.semanticEnabled = false → NoNearDuplicates memory →
    TextsApart memory
      (acceptedTexts (memory.list (some previousIdeasLimit)) (taken settings candidates))

variable {settings ids memory candidates}

theorem merged_iff {first : List (Candidate Status Kind Other)}
    {candidate : Candidate Status Kind Other} {target : StoredIdea Status Kind Other}
    {rationale : String} (htarget : target ∈ memory.list (some previousIdeasLimit))
    (hplan : plan settings (memory.list (some previousIdeasLimit)) candidate =
      .enhance target.nodeId rationale) :
    MergedInto (memoryAfter settings ids memory candidates first)
        (memoryAfter settings ids memory candidates (first ++ [candidate])) target.ideaId
        candidate.raw rationale ↔
      memory.get target.nodeId ≠ none ∧ ∀ earlier ∈ first, ∀ other,
        plan settings (memory.list (some previousIdeasLimit)) earlier ≠
          .enhance target.nodeId other := by
  have hnamed := IdeaMemory.mem_revisions_of_list htarget
  rw [memoryAfter, memoryAfter, takeAll, takeAll, List.foldl_append, List.foldl_cons,
    List.foldl_nil, ← takeAll, merged_iff_get _ (takeAll_grown first _ hnamed) hplan,
    takeAll_get first _ hnamed]

end Whole

/-- A tick adds no duplicate exactly if every record that a candidate names is current at the start
and named only once, and, with the gate off, the accepted candidates are apart. -/
theorem addsNoDuplicate_iff {Status Kind Other : Type} [DecidableEq Kind]
    {backend : IdeaBackend Status Kind Other} (settings : TickSettings Status Other)
    (ids : NewIds backend) (memory : IdeaMemory backend)
    (candidates : List (Candidate Status Kind Other)) :
    AddsNoDuplicate settings ids memory candidates ↔ TickCondition settings memory candidates := by
  constructor
  · rintro ⟨hmerged, hapart⟩
    constructor
    · intro first candidate rest htaken target rationale hplan
      obtain ⟨i, hi, rfl⟩ := mem_pool_of_plan hplan
      exact (merged_iff hi hplan).mp (hmerged first candidate rest htaken i hi rationale hplan)
    · intro hoff hnone
      exact ((takeAll_off hoff _ _).mp (hapart hoff hnone)).2
  · rintro ⟨htargets, htexts⟩
    constructor
    · intro first candidate rest htaken target htarget rationale hplan
      exact (merged_iff htarget hplan).mpr
        (htargets first candidate rest htaken target.nodeId rationale hplan)
    · intro hoff hnone
      exact (takeAll_off hoff _ _).mpr ⟨hnone, htexts hoff hnone⟩

theorem jaccard_self (a : String) : jaccard a a = 1 := by
  unfold jaccard
  dsimp only
  rw [Finset.union_self, Finset.inter_self]
  split
  · rfl
  next hsome =>
    have hcard : (tokenize a).card ≠ 0 :=
      fun h => hsome ⟨Finset.card_eq_zero.mp h, Finset.card_eq_zero.mp h⟩
    rw [if_neg hcard]
    exact div_self (Nat.cast_ne_zero.mpr hcard)

noncomputable def someNewIds {Status Kind Other : Type} (backend : IdeaBackend Status Kind Other) :
    NewIds backend where
  mint memory := Classical.choose
    (Infinite.exists_notMem_finset (insert "" (memory.revisions.map CreativeIdea.ideaId).toFinset))
  named memory := by
    intro hempty
    have hnew := Classical.choose_spec
      (Infinite.exists_notMem_finset
        (insert "" (memory.revisions.map CreativeIdea.ideaId).toFinset))
    rw [hempty] at hnew
    exact hnew (Finset.mem_insert_self _ _)
  fresh memory := by
    have hnew := Classical.choose_spec
      (Infinite.exists_notMem_finset
        (insert "" (memory.revisions.map CreativeIdea.ideaId).toFinset))
    rw [Option.eq_none_iff_forall_ne_some]
    intro i hi
    have hid := IdeaMemory.ideaId_of_current hi
    refine hnew (Finset.mem_insert_of_mem (List.mem_toFinset.mpr ?_))
    rw [← hid]
    exact List.mem_map_of_mem (IdeaMemory.mem_revisions_of_current hi)

noncomputable def oneIdea : IdeaMemory jsonBackend := noIdeas.create (newIdea "a" "Cache the index")

def storedIdea : StoredIdea String String Unit :=
    { newIdea "a" "Cache the index" with nodeId := "0" }

def semanticSettings : TickSettings String Unit := ⟨2, true, 12, "New", [], 0, ()⟩

def restated : Candidate String String Unit where
  raw := ⟨"Cache the index", [], "It is read often"⟩
  shutdown := false
  brain _ := .ok (.enhanceExisting "0" "The same idea")
  reviewed := ⟨none, some .parked⟩

theorem oneIdea_list : oneIdea.list (some previousIdeasLimit) = [storedIdea] := by
  have hrecords : (listProspectiveByTrigger jsonFormat byPriority (some previousIdeasLimit)
      oneIdea.store).filter (·.triggerCondition = jsonFormat.trigger) =
        [⟨0, (newIdea "a" "Cache the index").idea, jsonFormat.trigger,
          toActionPayload jsonFormat (newIdea "a" "Cache the index"), 3, .pending⟩] := rfl
  have hwindow : allRevisionsUpTo jsonFormat numbered byPriority (some previousIdeasLimit)
      oneIdea.store = some [storedIdea] := by
    rw [allRevisionsUpTo, hrecords, List.mapM_cons, fromProspective_written]
    rfl
  have hlist : listUpTo jsonFormat numbered byPriority (some previousIdeasLimit) oneIdea.store =
      some [storedIdea] := by
    rw [listUpTo, hwindow]
    rfl
  exact Option.get_of_eq_some _ hlist

theorem plan_restated : plan semanticSettings [storedIdea] restated =
    .enhance "0" "The same idea" := by
  have hshortlist : coarseShortlist restated.raw [storedIdea] semanticSettings.shortlistK =
      [viewOf storedIdea] := by
    simp [coarseShortlist, restated, storedIdea, newIdea, jaccard_self, semanticSettings]
  rw [plan, planCandidate, if_neg (List.cons_ne_nil _ _), if_neg (by decide)]
  dsimp only
  rw [hshortlist, if_neg (List.cons_ne_nil _ _)]
  rfl

/-- The second candidate is not merged, since the first gave the idea a new record. -/
theorem restated_twice_adds :
    ¬ AddsNoDuplicate semanticSettings (someNewIds jsonBackend) oneIdea [restated, restated] := by
  intro hadds
  have hmem : storedIdea ∈ oneIdea.list (some previousIdeasLimit) := by
    rw [oneIdea_list]
    exact List.mem_singleton_self _
  have hplan : plan semanticSettings (oneIdea.list (some previousIdeasLimit)) restated =
      .enhance storedIdea.nodeId "The same idea" := by
    rw [oneIdea_list]
    exact plan_restated
  have hmerged := hadds.merged [restated] restated [] rfl storedIdea hmem _ hplan
  exact ((merged_iff hmem hplan).mp hmerged).2 restated (List.mem_singleton_self _) _ hplan

end Simard.CognitiveThreads
