import Simard.Memory.IdeaStore
import Simard.Memory.Reminders
import Simard.Runtime.Kernel

/-! Accepted ideas as goals. The goal of an idea is stored under the slug of its text, and a record
takes the place of the one that was stored under its slug. What is listed is read from the facts
that a search finds, as many as it may return. -/
namespace Simard.Memory
open Simard.Library Simard.Goals

/-- A goal as it is stored: beside what its mirror says, who it is from, what speaks for it, and its
labels. -/
structure StoredGoal (Evidence : Type) extends GoalRecord where
  ownerIdentity : String
  sourceSessionId : String
  updatedIn : Runtime.SessionPhase
  evidence : List Evidence
  labels : List String

/-- How goals are written, and evidence that is only a label. -/
structure GoalFormat (Evidence : Type) where
  raw : String → Evidence
  encode : StoredGoal Evidence → String
  decode : String → Option (StoredGoal Evidence)
  read_back : ∀ record, decode (encode record) = some record

structure GoalFact where
  nodeId : Nat
  concept : String
  dedupKey : Option String
  content : String
  deriving DecidableEq

/-- What a search finds, and in which order; a query for a concept finds all facts of it. -/
structure ConceptSearch where
  isMatch : String → GoalFact → Bool
  concept : ∀ f, isMatch f.concept f = true
  arrange : List GoalFact → List GoalFact
  perm : ∀ found, (arrange found).Perm found

def goalStoreFactConcept : String := "goal-store:record"

def goalStoreListLimit : Nat := 256

def goalFactKey (slug : String) : String := goalStoreFactConcept ++ ":" ++ slug

theorem goalFactKey_injective : Function.Injective goalFactKey := by
  intro a b h
  have hlist := congrArg String.toList h
  rw [goalFactKey, goalFactKey, String.toList_append, String.toList_append (t := b),
    List.append_cancel_left_eq] at hlist
  exact String.toList_injective hlist

section Facts

variable {Evidence : Type} (format : GoalFormat Evidence)

/-- A fact of another concept, or that cannot be read, is passed over. -/
def readGoal (fact : GoalFact) : Option (StoredGoal Evidence) :=
  if fact.concept ≠ goalStoreFactConcept then none else format.decode fact.content

/-- Facts as they are written: a goal stands under the key of its slug, nothing else does, and no
two facts stand under one key. -/
structure GoalFacts where
  facts : List GoalFact
  nextId : Nat
  below : ∀ f ∈ facts, f.nodeId < nextId
  keyed : ∀ f ∈ facts, ∀ record, readGoal format f = some record →
    f.dedupKey = some (goalFactKey record.slug)
  written : ∀ f ∈ facts, ∀ slug, f.dedupKey = some (goalFactKey slug) →
    ∃ record, readGoal format f = some record ∧ record.slug = slug
  single : facts.Pairwise fun f g => f.dedupKey ≠ none → f.dedupKey ≠ g.dedupKey

/-- A fact with the same content is used again, and one with another is superseded. -/
def storeFactWithCallerKey (key concept content : String) (nextId : Nat) (facts : List GoalFact) :
    List GoalFact :=
  match facts.find? (·.dedupKey = some key) with
  | some existing =>
      if existing.content = content then facts
      else facts.filter (·.dedupKey ≠ some key) ++ [⟨nextId, concept, some key, content⟩]
  | none => facts ++ [⟨nextId, concept, some key, content⟩]

variable {format}

theorem read_written (nodeId : Nat) (key : Option String) (record : StoredGoal Evidence) :
    readGoal format ⟨nodeId, goalStoreFactConcept, key, format.encode record⟩ = some record := by
  rw [readGoal, if_neg (not_not.mpr rfl), format.read_back]

theorem storeFactWithCallerKey_cases (key concept content : String) (nextId : Nat)
    (facts : List GoalFact) :
    (storeFactWithCallerKey key concept content nextId facts = facts ∧
      ∃ existing ∈ facts, existing.dedupKey = some key ∧ existing.content = content) ∨
    storeFactWithCallerKey key concept content nextId facts =
      facts.filter (·.dedupKey ≠ some key) ++ [⟨nextId, concept, some key, content⟩] := by
  unfold storeFactWithCallerKey
  split
  next existing hfound =>
    have hkey : existing.dedupKey = some key := by simpa using List.find?_some hfound
    split
    next hsame => exact .inl ⟨rfl, existing, List.mem_of_find?_eq_some hfound, hkey, hsame⟩
    · exact .inr rfl
  next hnone =>
    have hall : facts.filter (·.dedupKey ≠ some key) = facts := by
      rw [List.filter_eq_self]
      intro f hf
      have hne := List.find?_eq_none.mp hnone f hf
      simpa using hne
    exact .inr (by rw [hall])

namespace GoalFacts

variable (facts : GoalFacts format) (record : StoredGoal Evidence)

def put : GoalFacts format where
  facts := storeFactWithCallerKey (goalFactKey record.slug) goalStoreFactConcept
    (format.encode record) facts.nextId facts.facts
  nextId := facts.nextId + 1
  below := by
    intro f hf
    rcases storeFactWithCallerKey_cases (goalFactKey record.slug) goalStoreFactConcept
      (format.encode record) facts.nextId facts.facts with ⟨hsame, -⟩ | hnew
    · rw [hsame] at hf
      exact Nat.lt_succ_of_lt (facts.below f hf)
    · rw [hnew, List.mem_append, List.mem_filter, List.mem_singleton] at hf
      rcases hf with ⟨hf, -⟩ | rfl
      · exact Nat.lt_succ_of_lt (facts.below f hf)
      · exact Nat.lt_succ_self _
  keyed := by
    intro f hf r hr
    rcases storeFactWithCallerKey_cases (goalFactKey record.slug) goalStoreFactConcept
      (format.encode record) facts.nextId facts.facts with ⟨hsame, -⟩ | hnew
    · rw [hsame] at hf
      exact facts.keyed f hf r hr
    · rw [hnew, List.mem_append, List.mem_filter, List.mem_singleton] at hf
      rcases hf with ⟨hf, -⟩ | rfl
      · exact facts.keyed f hf r hr
      · rw [read_written, Option.some.injEq] at hr
        rw [hr]
  written := by
    intro f hf slug hslug
    rcases storeFactWithCallerKey_cases (goalFactKey record.slug) goalStoreFactConcept
      (format.encode record) facts.nextId facts.facts with ⟨hsame, -⟩ | hnew
    · rw [hsame] at hf
      exact facts.written f hf slug hslug
    · rw [hnew, List.mem_append, List.mem_filter, List.mem_singleton] at hf
      rcases hf with ⟨hf, -⟩ | rfl
      · exact facts.written f hf slug hslug
      · exact ⟨record, read_written _ _ _, goalFactKey_injective (Option.some.inj hslug)⟩
  single := by
    rcases storeFactWithCallerKey_cases (goalFactKey record.slug) goalStoreFactConcept
      (format.encode record) facts.nextId facts.facts with ⟨hsame, -⟩ | hnew
    · rw [hsame]
      exact facts.single
    · rw [hnew, List.pairwise_append]
      refine ⟨facts.single.filter _, List.pairwise_singleton _ _, ?_⟩
      intro f hf g hg _
      obtain rfl := List.mem_singleton.mp hg
      exact of_decide_eq_true (List.mem_filter.mp hf).2

theorem put_cases : ((facts.put record).facts = facts.facts ∧ ∃ existing ∈ facts.facts,
    existing.dedupKey = some (goalFactKey record.slug) ∧ existing.content = format.encode record) ∨
    (facts.put record).facts = facts.facts.filter (·.dedupKey ≠ some (goalFactKey record.slug)) ++
      [⟨facts.nextId, goalStoreFactConcept, some (goalFactKey record.slug),
        format.encode record⟩] :=
  storeFactWithCallerKey_cases _ _ _ _ _

variable {facts record}

theorem eq_of_key {f g : GoalFact} (hf : f ∈ facts.facts) (hg : g ∈ facts.facts) {key : String}
    (hfkey : f.dedupKey = some key) (hgkey : g.dedupKey = some key) : f = g := by
  by_contra hne
  have hsymm : Std.Symm fun f g : GoalFact => f.dedupKey ≠ none → f.dedupKey ≠ g.dedupKey :=
    ⟨fun f g h hg heq => h (heq ▸ hg) heq.symm⟩
  exact facts.single.forall hf hg hne (by simp [hfkey]) (hfkey.trans hgkey.symm)

variable (facts record) in
theorem exists_written : ∃ fact ∈ (facts.put record).facts,
    fact.dedupKey = some (goalFactKey record.slug) ∧ readGoal format fact = some record := by
  rcases facts.put_cases record with ⟨hsame, existing, hmem, hkey, hcontent⟩ | hnew
  · refine ⟨existing, hsame ▸ hmem, hkey, ?_⟩
    obtain ⟨r, hr, -⟩ := facts.written existing hmem _ hkey
    unfold readGoal at hr ⊢
    split at hr
    · cases hr
    next hconcept => rw [if_neg hconcept, hcontent, format.read_back]
  · refine ⟨⟨facts.nextId, goalStoreFactConcept, some (goalFactKey record.slug),
      format.encode record⟩, ?_, rfl, read_written _ _ _⟩
    rw [hnew]
    exact List.mem_append_right _ (List.mem_singleton_self _)

end GoalFacts

end Facts

section Routing

variable {Evidence : Type} {format : GoalFormat Evidence} (search : ConceptSearch)

def searchFacts (facts : List GoalFact) (query : String) (limit : Nat) : List GoalFact :=
  (search.arrange (facts.filter (search.isMatch query))).take limit

def keepNewest (latest : List (Nat × StoredGoal Evidence)) (found : Nat × StoredGoal Evidence) :
    List (Nat × StoredGoal Evidence) :=
  match latest.find? (·.2.slug = found.2.slug) with
  | some existing =>
      if found.1 ≤ existing.1 then latest
      else latest.map fun other => if other.2.slug = found.2.slug then found else other
  | none => latest ++ [found]

def foundGoals (facts : GoalFacts format) : List (Nat × StoredGoal Evidence) :=
  (searchFacts search facts.facts goalStoreFactConcept goalStoreListLimit).filterMap fun fact =>
    (readGoal format fact).map fun record => (fact.nodeId, record)

def listViaOps (facts : GoalFacts format) : List (StoredGoal Evidence) :=
  ((foundGoals search facts).foldl keepNewest []).map Prod.snd

/-- What a goal store writes to: facts, and the reminders of active goals. -/
structure GoalMemory (format : GoalFormat Evidence) where
  facts : GoalFacts format
  reminders : ProspectiveStore

def GoalMemory.putViaOps (memory : GoalMemory format) (ops : TriggerOps)
    (record : StoredGoal Evidence) : GoalMemory format where
  facts := memory.facts.put record
  reminders := memory.reminders.putViaOps ops record.toGoalRecord .never

structure AcceptedIdea {Status : Type} (Kind Other : Type)
    (acceptedForImplementation : Status) where
  idea : CreativeIdea Status (IdeaDetails Kind Other)
  accepted : idea.status = acceptedForImplementation

variable {Status Kind Other : Type}

def creativeIdeaRationale (idea : CreativeIdea Status (IdeaDetails Kind Other)) : String :=
  if idea.rest.context.rationale = "" then
    "Creative idea generated by the Creative Ideas thread: " ++ idea.idea
  else idea.rest.context.rationale

def creativeIdeaSessionId : String := "session-00000000-0000-0000-0000-000000000000"

def creativeIdeaGoal (format : GoalFormat Evidence)
    (idea : CreativeIdea Status (IdeaDetails Kind Other)) (nowEpoch : Nat) :
      StoredGoal Evidence where
  slug := goalSlug idea.idea
  title := idea.idea
  rationale := creativeIdeaRationale idea
  status := .proposed
  priority := 3
  ownerIdentity := "simard"
  sourceSessionId := creativeIdeaSessionId
  updatedIn := .planning
  evidence := [format.raw ("creative-idea:" ++ idea.nodeId ++ "@epoch=" ++ toString nowEpoch)]
  labels := ["source:creative-ideas"]

theorem creativeIdeaGoal_slug (format : GoalFormat Evidence)
    (idea : CreativeIdea Status (IdeaDetails Kind Other)) (nowEpoch : Nat) :
    (creativeIdeaGoal format idea nowEpoch).slug = goalSlug idea.idea := by
  unfold creativeIdeaGoal
  dsimp only

/-- Only an accepted idea becomes a goal; the error says what another one is. -/
def routeIdeaToGoal [DecidableEq Status] (acceptedForImplementation : Status) (ops : TriggerOps)
    (memory : GoalMemory format) (idea : CreativeIdea Status (IdeaDetails Kind Other))
    (nowEpoch : Nat) : Except Status (StoredGoal Evidence × GoalMemory format) :=
  if idea.status ≠ acceptedForImplementation then .error idea.status
  else
    let record := creativeIdeaGoal format idea nowEpoch
    .ok (record, memory.putViaOps ops record)

end Routing

section Listed

variable {Evidence : Type} {format : GoalFormat Evidence} {search : ConceptSearch}
  {facts : GoalFacts format}

theorem foldl_keepNewest {found : List (Nat × StoredGoal Evidence)}
    (h : (found.map (·.2.slug)).Nodup) : found.foldl keepNewest [] = found := by
  induction found using List.reverseRecOn with
  | nil => rfl
  | append_singleton found last ih =>
    rw [List.map_append, List.nodup_append] at h
    have hnone : found.find? (·.2.slug = last.2.slug) = none := by
      rw [List.find?_eq_none]
      intro other hother hsame
      exact h.2.2 _ (List.mem_map_of_mem hother) _ (List.mem_singleton_self _)
        (of_decide_eq_true hsame)
    rw [List.foldl_append, ih h.1, List.foldl_cons, List.foldl_nil, keepNewest, hnone]

theorem mem_searchFacts {query : String} {limit : Nat} {f : GoalFact} {all : List GoalFact}
    (h : f ∈ searchFacts search all query limit) : f ∈ all := by
  have hfound := List.mem_of_mem_take h
  rw [(search.perm _).mem_iff] at hfound
  exact (List.mem_filter.mp hfound).1

theorem foundGoals_nodup : ((foundGoals search facts).map (·.2.slug)).Nodup := by
  have hsymm : Std.Symm fun f g : GoalFact => f.dedupKey ≠ none → f.dedupKey ≠ g.dedupKey :=
    ⟨fun f g h hg heq => h (heq ▸ hg) heq.symm⟩
  have hsingle : (searchFacts search facts.facts goalStoreFactConcept goalStoreListLimit).Pairwise
      fun f g => f.dedupKey ≠ none → f.dedupKey ≠ g.dedupKey := by
    apply List.Pairwise.sublist (List.take_sublist _ _)
    refine (List.Perm.pairwise_iff (fun h => hsymm.symm _ _ h) (search.perm _)).mpr ?_
    exact facts.single.filter _
  rw [List.Nodup, List.pairwise_map, foundGoals, List.pairwise_filterMap]
  refine hsingle.imp_of_mem ?_
  intro f g hf hg hkeys found hfound other hother
  obtain ⟨r, hr, rfl⟩ := Option.map_eq_some_iff.mp hfound
  obtain ⟨q, hq, rfl⟩ := Option.map_eq_some_iff.mp hother
  have hfkey := facts.keyed f (mem_searchFacts hf) r hr
  have hgkey := facts.keyed g (mem_searchFacts hg) q hq
  intro hslug
  have hsame : f.dedupKey = g.dedupKey := by
    rw [hfkey, hgkey]
    exact congrArg (fun slug => some (goalFactKey slug)) hslug
  exact hkeys (by simp [hfkey]) hsame

theorem listViaOps_eq : listViaOps search facts = (foundGoals search facts).map Prod.snd := by
  rw [listViaOps, foldl_keepNewest foundGoals_nodup]

variable (search facts) in
theorem listViaOps_nodup : ((listViaOps search facts).map (·.slug)).Nodup := by
  rw [listViaOps_eq, List.map_map]
  exact foundGoals_nodup

theorem mem_listViaOps {record : StoredGoal Evidence} : record ∈ listViaOps search facts ↔
    ∃ fact ∈ searchFacts search facts.facts goalStoreFactConcept goalStoreListLimit,
      readGoal format fact = some record := by
  rw [listViaOps_eq]
  simp [foundGoals]

end Listed

section Apart

variable {Evidence Status Kind Other : Type} [DecidableEq Status] {format : GoalFormat Evidence}
  (acceptedForImplementation : Status)

def foundFacts (search : ConceptSearch) (facts : GoalFacts format) : List GoalFact :=
  searchFacts search facts.facts goalStoreFactConcept goalStoreListLimit

/-- Routing succeeds, and what is listed is what was listed before and one proposed goal more. -/
def RoutesApart (search : ConceptSearch) (ops : TriggerOps) (memory : GoalMemory format)
    (idea : CreativeIdea Status (IdeaDetails Kind Other)) (nowEpoch : Nat) : Prop :=
  ∃ record after, routeIdeaToGoal acceptedForImplementation ops memory idea nowEpoch =
      .ok (record, after) ∧ record.status = .proposed ∧
    (listViaOps search after.facts).Perm (record :: listViaOps search memory.facts)

/-- The same search, which names some of what it finds before the rest. -/
def ConceptSearch.preferring (search : ConceptSearch) (first : GoalFact → Bool) :
    ConceptSearch where
  isMatch := search.isMatch
  concept := search.concept
  arrange found := found.filter first ++ found.filter (! first ·)
  perm found := List.filter_append_perm first found

end Apart

section ApartIff

variable {Evidence : Type} {format : GoalFormat Evidence} {search : ConceptSearch}
  {facts : GoalFacts format} {record : StoredGoal Evidence}

theorem perm_of_found (hfree : ∀ r ∈ listViaOps search facts, r.slug ≠ record.slug)
    (hfound : ∀ fact r, readGoal format fact = some r →
      (fact ∈ foundFacts search (facts.put record) ↔
        (fact ∈ (facts.put record).facts ∧ fact.dedupKey = some (goalFactKey record.slug)) ∨
          fact ∈ foundFacts search facts)) :
    (listViaOps search (facts.put record)).Perm (record :: listViaOps search facts) := by
  have hafter := List.Nodup.of_map _ (listViaOps_nodup search (facts.put record))
  have hbefore := List.Nodup.of_map _ (listViaOps_nodup search facts)
  have hcons : (record :: listViaOps search facts).Nodup :=
    List.nodup_cons.mpr ⟨fun h => hfree record h rfl, hbefore⟩
  obtain ⟨new, hnew, hkey, hread⟩ := GoalFacts.exists_written facts record
  rw [List.perm_ext_iff_of_nodup hafter hcons]
  intro r
  rw [List.mem_cons, mem_listViaOps, mem_listViaOps]
  constructor
  · rintro ⟨fact, hfact, hr⟩
    rcases (hfound fact r hr).mp hfact with ⟨hmem, hfactKey⟩ | hold
    · have hsame : fact = new := GoalFacts.eq_of_key hmem hnew hfactKey hkey
      rw [hsame, hread, Option.some.injEq] at hr
      exact .inl hr.symm
    · exact .inr ⟨fact, hold, hr⟩
  · rintro (rfl | ⟨fact, hold, hr⟩)
    · exact ⟨new, (hfound new r hread).mpr (.inl ⟨hnew, hkey⟩), hread⟩
    · exact ⟨fact, (hfound fact r hr).mpr (.inr hold), hr⟩

theorem free_of_perm
    (hperm : (listViaOps search (facts.put record)).Perm (record :: listViaOps search facts)) :
    ∀ r ∈ listViaOps search facts, r.slug ≠ record.slug := by
  have hnodup := (hperm.map (·.slug)).nodup_iff.mp (listViaOps_nodup search (facts.put record))
  rw [List.map_cons, List.nodup_cons] at hnodup
  intro r hr hslug
  exact hnodup.1 (hslug ▸ List.mem_map_of_mem hr)

def GoalFacts.newFact (facts : GoalFacts format) (record : StoredGoal Evidence) : GoalFact :=
  ⟨facts.nextId, goalStoreFactConcept, some (goalFactKey record.slug), format.encode record⟩

def GoalFacts.Free (facts : GoalFacts format) (slug : String) : Prop :=
  ∀ fact ∈ facts.facts, ∀ r, readGoal format fact = some r → r.slug ≠ slug

theorem put_of_free (hfree : facts.Free record.slug) :
    (facts.put record).facts = facts.facts ++ [facts.newFact record] := by
  have hkeys : ∀ fact ∈ facts.facts, fact.dedupKey ≠ some (goalFactKey record.slug) := by
    intro fact hfact hkey
    obtain ⟨r, hr, hslug⟩ := facts.written fact hfact record.slug hkey
    exact hfree fact hfact r hr hslug
  rcases facts.put_cases record with ⟨-, existing, hmem, hkey, -⟩ | hnew
  · exact absurd hkey (hkeys existing hmem)
  · rw [hnew, List.filter_eq_self.mpr fun fact hfact => decide_eq_true (hkeys fact hfact)]
    rfl

theorem isMatch_of_readGoal {fact : GoalFact} {r : StoredGoal Evidence}
    (hr : readGoal format fact = some r) :
    search.isMatch goalStoreFactConcept fact = true := by
  unfold readGoal at hr
  split at hr
  · cases hr
  next hconcept => exact not_not.mp hconcept ▸ search.concept fact

def goalMatches (search : ConceptSearch) (facts : List GoalFact) : List GoalFact :=
  facts.filter (search.isMatch goalStoreFactConcept)

theorem goalMatches_put (hfree : facts.Free record.slug) :
    goalMatches search (facts.put record).facts =
      goalMatches search facts.facts ++ [facts.newFact record] := by
  have hnew : search.isMatch goalStoreFactConcept (facts.newFact record) = true :=
    isMatch_of_readGoal (read_written _ _ record)
  unfold goalMatches
  rw [put_of_free hfree, List.filter_append, List.filter_singleton, hnew, cond_true]

theorem mem_foundFacts_of_few
    (hfew : (goalMatches search facts.facts).length ≤ goalStoreListLimit) {fact : GoalFact}
    {r : StoredGoal Evidence} (hr : readGoal format fact = some r) :
    fact ∈ foundFacts search facts ↔ fact ∈ facts.facts := by
  have hall : (search.arrange (goalMatches search facts.facts)).take goalStoreListLimit =
      search.arrange (goalMatches search facts.facts) :=
    List.take_of_length_le ((search.perm _).length_eq.trans_le hfew)
  have hfound : foundFacts search facts = search.arrange (goalMatches search facts.facts) := hall
  rw [hfound, (search.perm _).mem_iff, goalMatches, List.mem_filter,
    and_iff_left (isMatch_of_readGoal hr)]

theorem perm_of_free (hfree : facts.Free record.slug)
    (hfew : (goalMatches search facts.facts).length < goalStoreListLimit) :
    (listViaOps search (facts.put record)).Perm (record :: listViaOps search facts) := by
  refine perm_of_found ?_ ?_
  · intro r hr
    obtain ⟨fact, hfound, hread⟩ := mem_listViaOps.mp hr
    exact hfree fact (mem_searchFacts hfound) r hread
  · intro fact r hr
    have hfewAfter : (goalMatches search (facts.put record).facts).length ≤ goalStoreListLimit := by
      rw [goalMatches_put hfree, List.length_append]
      exact hfew
    rw [mem_foundFacts_of_few hfewAfter hr, mem_foundFacts_of_few hfew.le hr, put_of_free hfree,
      List.mem_append, List.mem_singleton]
    constructor
    · rintro (hold | rfl)
      · exact .inr hold
      · exact .inl ⟨.inr rfl, rfl⟩
    · rintro (⟨hmem, -⟩ | hold)
      · exact hmem
      · exact .inl hold

theorem free_of_forall (h : ∀ other : ConceptSearch, other.isMatch = search.isMatch →
    (listViaOps other (facts.put record)).Perm (record :: listViaOps other facts)) :
    facts.Free record.slug := by
  intro fact hfact r hr
  have hperm := h (search.preferring (· = fact)) rfl
  refine free_of_perm hperm r (mem_listViaOps.mpr ⟨fact, ?_, hr⟩)
  have hmatch : fact ∈ goalMatches search facts.facts :=
    List.mem_filter.mpr ⟨hfact, isMatch_of_readGoal hr⟩
  have hfirst : fact ∈ (goalMatches search facts.facts).filter (· = fact) :=
    List.mem_filter.mpr ⟨hmatch, decide_eq_true rfl⟩
  change fact ∈ ((goalMatches search facts.facts).filter (· = fact) ++ _).take goalStoreListLimit
  obtain ⟨head, tail, hlist⟩ := List.exists_cons_of_ne_nil (List.ne_nil_of_mem hfirst)
  have hhead : head = fact := of_decide_eq_true
    (List.mem_filter.mp (hlist ▸ List.mem_cons_self : head ∈ _)).2
  rw [hlist, hhead]
  exact List.mem_cons_self

theorem few_of_forall (hfree : facts.Free record.slug)
    (h : ∀ other : ConceptSearch, other.isMatch = search.isMatch →
      (listViaOps other (facts.put record)).Perm (record :: listViaOps other facts)) :
    (goalMatches search facts.facts).length < goalStoreListLimit := by
  by_contra hmany
  rw [Nat.not_lt] at hmany
  have hperm := h (search.preferring (· ≠ facts.newFact record)) rfl
  obtain ⟨fact, hfound, hr⟩ := mem_listViaOps.mp (hperm.mem_iff.mpr List.mem_cons_self)
  have holds : (goalMatches search (facts.put record).facts).filter (· ≠ facts.newFact record) =
      goalMatches search facts.facts := by
    rw [goalMatches_put hfree, List.filter_append, List.filter_singleton,
      List.filter_eq_self.mpr]
    · simp
    · intro old hold
      have hbelow := facts.below old (List.mem_filter.mp hold).1
      refine decide_eq_true fun heq => ?_
      rw [heq] at hbelow
      exact lt_irrefl _ hbelow
  change fact ∈ ((goalMatches search (facts.put record).facts).filter
    (· ≠ facts.newFact record) ++ _).take goalStoreListLimit at hfound
  rw [holds, List.take_append_of_le_length hmany] at hfound
  have hold := (List.mem_filter.mp (List.mem_of_mem_take hfound)).1
  exact hfree fact hold record hr rfl

end ApartIff

/-- Whatever the order of the search, routing an accepted idea disturbs no goal, exactly if no goal
in the store has its slug and the search may return one fact more than match before. -/
theorem routesApart_iff {Evidence Status Kind Other : Type} [DecidableEq Status]
    {format : GoalFormat Evidence} {acceptedForImplementation : Status} (search : ConceptSearch)
    (ops : TriggerOps) (memory : GoalMemory format)
    (idea : AcceptedIdea Kind Other acceptedForImplementation) (nowEpoch : Nat) :
    (∀ other : ConceptSearch, other.isMatch = search.isMatch →
        RoutesApart acceptedForImplementation other ops memory idea.idea nowEpoch) ↔
      memory.facts.Free (goalSlug idea.idea.idea) ∧
        (goalMatches search memory.facts.facts).length < goalStoreListLimit := by
  have hroute : routeIdeaToGoal acceptedForImplementation ops memory idea.idea nowEpoch =
      .ok (creativeIdeaGoal format idea.idea nowEpoch,
        memory.putViaOps ops (creativeIdeaGoal format idea.idea nowEpoch)) :=
    if_neg (not_not.mpr idea.accepted)
  rw [← creativeIdeaGoal_slug format idea.idea nowEpoch]
  constructor
  · intro h
    have hperm (other : ConceptSearch) (hsame : other.isMatch = search.isMatch) :
        (listViaOps other (memory.facts.put (creativeIdeaGoal format idea.idea nowEpoch))).Perm
          (creativeIdeaGoal format idea.idea nowEpoch :: listViaOps other memory.facts) := by
      obtain ⟨record, after, hok, -, hlisted⟩ := h other hsame
      rw [hroute] at hok
      obtain ⟨rfl, rfl⟩ := Prod.mk.inj (Except.ok.inj hok)
      exact hlisted
    have hfree := free_of_forall hperm
    exact ⟨hfree, few_of_forall hfree hperm⟩
  · rintro ⟨hfree, hfew⟩ other hsame
    have hfewOther : (goalMatches other memory.facts.facts).length < goalStoreListLimit := by
      unfold goalMatches at hfew ⊢
      rwa [hsame]
    exact ⟨_, _, hroute, rfl, perm_of_free hfree hfewOther⟩

def goalStatusText : GoalStatus → String
  | .proposed => "proposed"
  | .active => "active"
  | .paused => "paused"
  | .completed => "completed"

def sessionPhaseText : Runtime.SessionPhase → String
  | .intake => "intake"
  | .preparation => "preparation"
  | .planning => "planning"
  | .execution => "execution"
  | .reflection => "reflection"
  | .summarize => "summarize"
  | .persistence => "persistence"
  | .complete => "complete"
  | .failed => "failed"

def goalJson (goal : StoredGoal String) : Json :=
  .obj [("slug", .str goal.slug), ("title", .str goal.title), ("rationale", .str goal.rationale),
    ("status", .str (goalStatusText goal.status)), ("priority", .num goal.priority),
    ("owner_identity", .str goal.ownerIdentity),
    ("source_session_id", .str goal.sourceSessionId),
    ("updated_in", .str (sessionPhaseText goal.updatedIn)),
    ("evidence", .arr (goal.evidence.map .str)), ("labels", .arr (goal.labels.map .str))]

theorem goalStatusText_injective : Function.Injective goalStatusText := by
  intro a b
  cases a <;> cases b <;> decide

theorem sessionPhaseText_injective : Function.Injective sessionPhaseText := by
  intro a b
  cases a <;> cases b <;> decide

theorem goalJson_injective : Function.Injective goalJson := by
  rintro ⟨⟨slug, title, rationale, status, priority⟩, owner, session, phase, evidence, labels⟩
    ⟨⟨slug', title', rationale', status', priority'⟩, owner', session', phase',
      evidence', labels'⟩ h
  have hstr : Function.Injective Json.str := fun _ _ h => Json.str.inj h
  simp only [goalJson, Json.obj.injEq, List.cons.injEq, Prod.mk.injEq, Json.str.injEq,
    Json.num.injEq, Json.arr.injEq, goalStatusText_injective.eq_iff,
    sessionPhaseText_injective.eq_iff, hstr.list_map.eq_iff, Nat.cast_inj, true_and, and_true] at h
  obtain ⟨rfl, rfl, rfl, rfl, rfl, rfl, rfl, rfl, rfl, rfl⟩ := h
  rfl

noncomputable def jsonGoals : GoalFormat String where
  raw label := label
  encode goal := String.ofList (goalJson goal).text
  decode := Function.partialInv fun goal => String.ofList (goalJson goal).text
  read_back := by
    apply Function.partialInv_left
    intro a b h
    exact goalJson_injective (Json.text_injective (String.ofList_injective h))

/-- A search that finds what has the query in its concept or its content, in the order stored. -/
def wordSearch : ConceptSearch where
  isMatch query fact := containsText query.toList fact.concept.toList ||
    containsText query.toList fact.content.toList
  concept fact := by
    rw [containsText_iff.mpr (List.infix_refl _), Bool.true_or]
  arrange := id
  perm _ := List.Perm.refl _

def quietOps : TriggerOps where
  words _ := []
  arrange := id
  perm := perm_id

def activeGoal : StoredGoal String where
  slug := "cache-the-index"
  title := "Cache the index."
  rationale := "Asked for by the operator"
  status := .active
  priority := 1
  ownerIdentity := "operator"
  sourceSessionId := "session-7"
  updatedIn := .planning
  evidence := []
  labels := []

noncomputable def noGoals : GoalFacts jsonGoals where
  facts := []
  nextId := 0
  below := fun _ h => nomatch h
  keyed := fun _ h => nomatch h
  written := fun _ h => nomatch h
  single := List.Pairwise.nil

noncomputable def oneGoal : GoalMemory jsonGoals where
  facts := noGoals.put activeGoal
  reminders := ⟨[], 0, List.nodup_nil, below_nil⟩

def acceptedIdea : CreativeIdea String (IdeaDetails String Unit) :=
  { awaitingIdea with status := "AcceptedForImplementation" }

noncomputable def activeGoalFact : GoalFact :=
  ⟨0, goalStoreFactConcept, some (goalFactKey activeGoal.slug), jsonGoals.encode activeGoal⟩

theorem activeGoal_listed : activeGoal ∈ listViaOps wordSearch oneGoal.facts := by
  rw [mem_listViaOps]
  refine ⟨activeGoalFact, ?_, read_written _ _ _⟩
  have hmatch : wordSearch.isMatch goalStoreFactConcept activeGoalFact = true :=
    wordSearch.concept activeGoalFact
  have hfound : oneGoal.facts.facts.filter (wordSearch.isMatch goalStoreFactConcept) =
      [activeGoalFact] := List.filter_cons_of_pos hmatch
  rw [searchFacts, hfound]
  exact List.mem_singleton_self _

/-- The goal of the idea takes the place of the active goal. -/
theorem accepted_idea_replaces_goal : ¬ RoutesApart "AcceptedForImplementation" wordSearch quietOps
    oneGoal acceptedIdea 0 := by
  rintro ⟨record, after, hok, -, hperm⟩
  have hroute : routeIdeaToGoal "AcceptedForImplementation" quietOps oneGoal acceptedIdea 0 =
      .ok (creativeIdeaGoal jsonGoals acceptedIdea 0,
        oneGoal.putViaOps quietOps (creativeIdeaGoal jsonGoals acceptedIdea 0)) := rfl
  rw [hroute] at hok
  obtain ⟨rfl, rfl⟩ := Prod.mk.inj (Except.ok.inj hok)
  exact free_of_perm hperm activeGoal activeGoal_listed (by decide)

end Simard.Memory
