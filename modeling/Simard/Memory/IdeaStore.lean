import Simard.Memory.Ideas
import Simard.Library.Json

/-! The store of creative ideas. It only appends: an idea is stored as its first record, and an
update writes a further one with the next revision number. What is listed is the latest revision
of each idea, among the records that the limit lets through. -/
namespace Simard.Memory
open Simard.Library

structure IdeaContext where
  source : String
  goalsSnapshot : List String
  observationDigest : String
  rationale : String
  deriving DecidableEq

structure MemoryLink (Kind : Type) where
  kind : Kind
  nodeId : String
  deriving DecidableEq

structure ReviewFlags where
  highRisk : Bool
  irreversible : Bool
  needsHuman : Bool
  deriving DecidableEq

/-- The rest of an idea: its context, its links, the flags of its reviews, and all else. -/
structure IdeaDetails (Kind Other : Type) where
  context : IdeaContext
  links : List (MemoryLink Kind)
  flags : List ReviewFlags
  other : Other
  deriving DecidableEq

def IdeaDetails.priority {Kind Other : Type} (details : IdeaDetails Kind Other) : Int :=
  if details.flags.any fun flag => flag.highRisk || flag.irreversible || flag.needsHuman then 5
  else 3

/-- How ideas are written: what was written is read back. -/
structure IdeaFormat (Status Rest : Type) extends IdeaCodec Status Rest where
  encode : IdeaPayload Status Rest → String
  read_back : ∀ payload, decode (encode payload) = some payload

/-- In which order the memory returns the records with a trigger: by priority. -/
structure ScopedListing where
  arrange : List Prospective → List Prospective
  perm : ∀ found, (arrange found).Perm found
  ranked : ∀ found, (arrange found).Pairwise fun p q => q.priority ≤ p.priority

section Store

variable {Status Kind Other : Type} (format : IdeaFormat Status (IdeaDetails Kind Other))
  (name : Nat → String) (listing : ScopedListing)

def toActionPayload (idea : CreativeIdea Status (IdeaDetails Kind Other)) : String :=
  format.encode ⟨idea.ideaId, idea.revision, idea.status, idea.rest⟩

/-- The records with the trigger, as many as the limit lets through; none is the largest limit. -/
def listProspectiveByTrigger (limit : Option Nat) (s : ProspectiveStore) : List Prospective :=
  let found := listing.arrange (s.entries.filter (·.triggerCondition = format.trigger))
  limit.elim found found.take

/-- The records that the limit lets through; one that cannot be read fails the call. -/
def allRevisionsUpTo (limit : Option Nat) (s : ProspectiveStore) :
    Option (List (CreativeIdea Status (IdeaDetails Kind Other))) :=
  ((listProspectiveByTrigger format listing limit s).filter
    (·.triggerCondition = format.trigger)).mapM (fromProspective format.toIdeaCodec name)

def storeIdea (idea : CreativeIdea Status (IdeaDetails Kind Other)) (s : ProspectiveStore) :
    ProspectiveStore :=
  s.storeProspective idea.idea format.trigger (toActionPayload format idea) idea.rest.priority

/-- The source counts in 64 bits and saturates there: the last revision is below `2 ^ 64 - 1`. -/
def nextRevision (revisions : List (CreativeIdea Status (IdeaDetails Kind Other)))
    (ideaId : String) : Nat :=
  match ((revisions.filter (·.ideaId = ideaId)).map CreativeIdea.revision).max? with
  | none => 1
  | some last => last + 1

def updateIdea (idea : CreativeIdea Status (IdeaDetails Kind Other)) (s : ProspectiveStore) :
    Option ProspectiveStore :=
  (allRevisionsUpTo format name listing none s).map fun revisions =>
    storeIdea format { idea with revision := nextRevision revisions idea.ideaId } s

def listUpTo (limit : Option Nat) (s : ProspectiveStore) :
    Option (List (CreativeIdea Status (IdeaDetails Kind Other))) :=
  (allRevisionsUpTo format name listing limit s).map latestRevisionPerIdea

def getIdea (nodeId : String) (s : ProspectiveStore) :
    Option (Option (CreativeIdea Status (IdeaDetails Kind Other))) :=
  (listUpTo format name listing none s).map (·.find? (·.nodeId = nodeId))

def listByStatus [DecidableEq Status] (status : Status) (limit : Option Nat)
    (s : ProspectiveStore) : Option (List (CreativeIdea Status (IdeaDetails Kind Other))) :=
  (listUpTo format name listing limit s).map (·.filter (·.status = status))

inductive IdeaCall (Status Kind Other : Type) where
  | store (idea : CreativeIdea Status (IdeaDetails Kind Other))
  | update (idea : CreativeIdea Status (IdeaDetails Kind Other))

def IdeaCall.apply (s : ProspectiveStore) : IdeaCall Status Kind Other → ProspectiveStore
  | .store idea => storeIdea format idea s
  | .update idea => (updateIdea format name listing idea s).getD s

def afterCalls (calls : List (IdeaCall Status Kind Other)) : ProspectiveStore :=
  calls.foldl (IdeaCall.apply format name listing) ⟨[], 0, List.nodup_nil, below_nil⟩

def revisionsOf (s : ProspectiveStore) : List (CreativeIdea Status (IdeaDetails Kind Other)) :=
  s.entries.filterMap (fromProspective format.toIdeaCodec name)

end Store

def Readable {Status Rest : Type} (format : IdeaFormat Status Rest) (s : ProspectiveStore) : Prop :=
  ∀ p ∈ s.entries, p.triggerCondition = format.trigger →
    ∃ payload, format.decode p.actionOnTrigger = some payload

section Reading

variable {Status Kind Other : Type} {format : IdeaFormat Status (IdeaDetails Kind Other)}
  {name : Nat → String} {listing : ScopedListing} {s : ProspectiveStore}

theorem Readable.storeIdea (h : Readable format s)
    (idea : CreativeIdea Status (IdeaDetails Kind Other)) :
    Readable format (storeIdea format idea s) := by
  intro p hp
  rw [Memory.storeIdea, ProspectiveStore.storeProspective, List.mem_append,
    List.mem_singleton] at hp
  rcases hp with hp | rfl
  · exact h p hp
  · exact fun _ => ⟨_, format.read_back _⟩

theorem Readable.apply (h : Readable format s) (call : IdeaCall Status Kind Other) :
    Readable format (call.apply format name listing s) := by
  cases call with
  | store idea => exact h.storeIdea idea
  | update idea =>
    unfold IdeaCall.apply updateIdea
    cases allRevisionsUpTo format name listing none s with
    | none => exact h
    | some revisions => exact h.storeIdea _

theorem readable_afterCalls (calls : List (IdeaCall Status Kind Other)) :
    Readable format (afterCalls format name listing calls) := by
  induction calls using List.reverseRecOn with
  | nil => exact nofun
  | append_singleton calls call ih =>
    rw [afterCalls, List.foldl_append]
    exact Readable.apply ih call

theorem mem_revisionsOf {i : CreativeIdea Status (IdeaDetails Kind Other)} :
    i ∈ revisionsOf format name s ↔
      ∃ p ∈ s.entries, fromProspective format.toIdeaCodec name p = some i := List.mem_filterMap

theorem Readable.exists_idea (h : Readable format s) {p : Prospective} (hp : p ∈ s.entries)
    (htrigger : p.triggerCondition = format.trigger) :
    ∃ i, fromProspective format.toIdeaCodec name p = some i := by
  obtain ⟨payload, hpayload⟩ := h p hp htrigger
  rw [fromProspective, if_neg (not_not.mpr htrigger), hpayload]
  exact ⟨_, rfl⟩

theorem mem_of_mem_listProspectiveByTrigger {limit : Option Nat} {p : Prospective}
    (hp : p ∈ listProspectiveByTrigger format listing limit s) :
    p ∈ s.entries ∧ p.triggerCondition = format.trigger := by
  have hfound : p ∈ listing.arrange (s.entries.filter (·.triggerCondition = format.trigger)) := by
    cases limit with
    | none => exact hp
    | some n => exact List.mem_of_mem_take hp
  rwa [(listing.perm _).mem_iff, List.mem_filter, decide_eq_true_eq] at hfound

theorem Readable.allRevisionsUpTo (h : Readable format s) (name : Nat → String)
    (listing : ScopedListing) (limit : Option Nat) :
    ∃ window, allRevisionsUpTo format name listing limit s = some window ∧
      window.length = (listProspectiveByTrigger format listing limit s).length ∧
      ∀ i, i ∈ window ↔ ∃ p ∈ listProspectiveByTrigger format listing limit s,
        fromProspective format.toIdeaCodec name p = some i := by
  have hall : (listProspectiveByTrigger format listing limit s).filter
      (·.triggerCondition = format.trigger) = listProspectiveByTrigger format listing limit s := by
    rw [List.filter_eq_self]
    exact fun p hp => decide_eq_true (mem_of_mem_listProspectiveByTrigger hp).2
  have hsome : ∀ p ∈ listProspectiveByTrigger format listing limit s,
      ∃ i, fromProspective format.toIdeaCodec name p = some i := by
    intro p hp
    obtain ⟨hentry, htrigger⟩ := mem_of_mem_listProspectiveByTrigger hp
    exact h.exists_idea hentry htrigger
  obtain ⟨window, hwindow, hmem⟩ := mapM_option_of_isSome hsome
  refine ⟨window, ?_, ?_, hmem⟩
  · rw [Memory.allRevisionsUpTo, hall, hwindow]
  · exact length_of_mapM hwindow

theorem Readable.allRevisions (h : Readable format s) (name : Nat → String)
    (listing : ScopedListing) :
    ∃ revisions, Memory.allRevisionsUpTo format name listing none s = some revisions ∧
      ∀ i, i ∈ revisions ↔ i ∈ revisionsOf format name s := by
  obtain ⟨revisions, hrevisions, -, hmem⟩ := h.allRevisionsUpTo name listing none
  refine ⟨revisions, hrevisions, fun i => ?_⟩
  rw [hmem, mem_revisionsOf]
  refine exists_congr fun p => ?_
  rw [listProspectiveByTrigger, Option.elim_none, (listing.perm _).mem_iff, List.mem_filter,
    decide_eq_true_eq, and_assoc, and_congr_right_iff]
  intro _
  rw [and_iff_right_iff_imp]
  exact fromProspective_payload

theorem nextRevision_congr
    {revisions revisions' : List (CreativeIdea Status (IdeaDetails Kind Other))}
    (h : ∀ i, i ∈ revisions ↔ i ∈ revisions') (ideaId : String) :
    nextRevision revisions ideaId = nextRevision revisions' ideaId := by
  have hmem : ∀ k, k ∈ (revisions.filter (·.ideaId = ideaId)).map CreativeIdea.revision ↔
      k ∈ (revisions'.filter (·.ideaId = ideaId)).map CreativeIdea.revision := by
    intro k
    simp only [List.mem_map, List.mem_filter, h]
  have hmax : ((revisions.filter (·.ideaId = ideaId)).map CreativeIdea.revision).max? =
      ((revisions'.filter (·.ideaId = ideaId)).map CreativeIdea.revision).max? := by
    ext last
    simp only [List.max?_eq_some_iff, hmem]
  rw [nextRevision, hmax, nextRevision]

theorem Readable.updateIdea (h : Readable format s) (name : Nat → String) (listing : ScopedListing)
    (idea : CreativeIdea Status (IdeaDetails Kind Other)) :
    updateIdea format name listing idea s = some (Memory.storeIdea format
      { idea with revision := nextRevision (revisionsOf format name s) idea.ideaId } s) := by
  obtain ⟨revisions, hrevisions, hmem⟩ := h.allRevisions name listing
  rw [Memory.updateIdea, hrevisions, Option.map_some, nextRevision_congr hmem]

theorem fromProspective_written (name : Nat → String) (nodeId : Nat) (priority : Int)
    (status : ProspectiveStatus) (idea : CreativeIdea Status (IdeaDetails Kind Other)) :
    fromProspective format.toIdeaCodec name ⟨nodeId, idea.idea, format.trigger,
      toActionPayload format idea, priority, status⟩ = some { idea with
        ideaId := if idea.ideaId = "" then name nodeId else idea.ideaId
        nodeId := name nodeId } := by
  rw [fromProspective, if_neg (not_not.mpr rfl), toActionPayload, format.read_back]
  rfl

theorem revisionsOf_storeIdea (name : Nat → String) (s : ProspectiveStore)
    (idea : CreativeIdea Status (IdeaDetails Kind Other)) :
    revisionsOf format name (Memory.storeIdea format idea s) = revisionsOf format name s ++
      [{ idea with
        ideaId := if idea.ideaId = "" then name s.nextId else idea.ideaId
        nodeId := name s.nextId }] := by
  rw [revisionsOf, Memory.storeIdea, ProspectiveStore.storeProspective, List.filterMap_append,
    List.filterMap_cons, List.filterMap_nil, fromProspective_written]
  rfl

end Reading

section Latest

variable {Status Rest : Type}

/-- The latest revision of an idea among some records. -/
def IsCurrent (revisions : List (CreativeIdea Status Rest)) (i : CreativeIdea Status Rest) : Prop :=
  i ∈ revisions ∧ ∀ j ∈ revisions, j.ideaId = i.ideaId → j.rank ≤ i.rank

theorem exists_current {revisions : List (CreativeIdea Status Rest)} {j : CreativeIdea Status Rest}
    (hj : j ∈ revisions) : ∃ i, IsCurrent revisions i ∧ i.ideaId = j.ideaId := by
  have hlatest := isLatest_latestRevisionPerIdea revisions
  obtain ⟨i, hi, hid⟩ := hlatest.covers j hj
  exact ⟨i, hlatest.top i hi, hid⟩

theorem keepLatest_ids {latest : List (CreativeIdea Status Rest)}
    (h : (latest.map CreativeIdea.ideaId).Nodup) (idea : CreativeIdea Status Rest) :
    ((keepLatest latest idea).map CreativeIdea.ideaId).Nodup ∧
      (keepLatest latest idea).length ≤ latest.length + 1 := by
  unfold keepLatest
  split
  next existing hfound =>
    split
    · exact ⟨h, Nat.le_succ _⟩
    · have hids : (latest.map fun other => if other.ideaId = idea.ideaId then idea else other).map
          CreativeIdea.ideaId = latest.map CreativeIdea.ideaId := by
        rw [List.map_map]
        apply List.map_congr_left
        intro other _
        rw [Function.comp_apply]
        split
        next hsame => exact hsame.symm
        · rfl
      rw [hids, List.length_map]
      exact ⟨h, Nat.le_succ _⟩
  next hnone =>
    rw [List.map_append, List.length_append, List.nodup_append]
    refine ⟨⟨h, List.nodup_singleton _, ?_⟩, Nat.le_refl _⟩
    intro id hid other hother
    obtain ⟨i, hi, rfl⟩ := List.mem_map.mp hid
    obtain rfl := List.mem_singleton.mp hother
    intro hsame
    exact absurd (decide_eq_true hsame) (List.find?_eq_none.mp hnone i hi)

theorem latestRevisionPerIdea_ids (revisions : List (CreativeIdea Status Rest)) :
    ((latestRevisionPerIdea revisions).map CreativeIdea.ideaId).Nodup ∧
      (latestRevisionPerIdea revisions).length ≤ revisions.length := by
  have hfold : ((revisions.foldl keepLatest []).map CreativeIdea.ideaId).Nodup ∧
      (revisions.foldl keepLatest []).length ≤ revisions.length := by
    induction revisions using List.reverseRecOn with
    | nil => exact ⟨List.nodup_nil, Nat.le_refl _⟩
    | append_singleton revisions idea ih =>
      rw [List.foldl_append, List.foldl_cons, List.foldl_nil]
      obtain ⟨hids, hlength⟩ := keepLatest_ids ih.1 idea
      refine ⟨hids, hlength.trans ?_⟩
      rw [List.length_append, List.length_singleton]
      exact Nat.succ_le_succ ih.2
  have hperm : (latestRevisionPerIdea revisions).Perm (revisions.foldl keepLatest []) :=
    List.perm_insertionSort _ _
  rw [(hperm.map CreativeIdea.ideaId).nodup_iff, hperm.length_eq]
  exact hfold

end Latest

section Shows

variable {Status Kind Other : Type} [DecidableEq Status]
  (format : IdeaFormat Status (IdeaDetails Kind Other)) (name : Nat → String)
  (listing : ScopedListing) (s : ProspectiveStore) (n : Nat)

/-- No more than the limit, one of each idea, each its latest revision, and all of them if the
limit is enough; and by status only those that have it now. -/
structure ShowsCurrent : Prop where
  listed : ∃ ideas, listUpTo format name listing (some n) s = some ideas ∧ ideas.length ≤ n ∧
    (ideas.map CreativeIdea.ideaId).Nodup ∧
    (∀ i ∈ ideas, IsCurrent (revisionsOf format name s) i) ∧
    (((revisionsOf format name s).map CreativeIdea.ideaId).dedup.length ≤ n →
      ∀ j ∈ revisionsOf format name s, ∃ i ∈ ideas, i.ideaId = j.ideaId)
  byStatus : ∀ status, ∃ ideas, listByStatus format name listing status (some n) s = some ideas ∧
    ∀ i ∈ ideas, ∀ j, IsCurrent (revisionsOf format name s) j → j.ideaId = i.ideaId →
      j.status = status

/-- Some record of the idea is among the first that the memory lists. -/
def InWindow (ideaId : String) : Prop :=
  ∃ p ∈ listProspectiveByTrigger format listing (some n) s,
    ∃ i, fromProspective format.toIdeaCodec name p = some i ∧ i.ideaId = ideaId

/-- Of each idea among the first records the latest revision is among them too; and every idea is,
if the limit is no less than their number. -/
structure WindowKeepsLatest : Prop where
  latest : ∀ j, IsCurrent (revisionsOf format name s) j →
    InWindow format name listing s n j.ideaId →
    ∃ p ∈ listProspectiveByTrigger format listing (some n) s,
      fromProspective format.toIdeaCodec name p = some j
  all : ((revisionsOf format name s).map CreativeIdea.ideaId).dedup.length ≤ n →
    ∀ j ∈ revisionsOf format name s, InWindow format name listing s n j.ideaId

end Shows

section ShowsIff

variable {Status Kind Other : Type} {format : IdeaFormat Status (IdeaDetails Kind Other)}
  {name : Nat → String} {listing : ScopedListing} {s : ProspectiveStore}

theorem nodeId_fromProspective {p : Prospective} {i : CreativeIdea Status (IdeaDetails Kind Other)}
    (h : fromProspective format.toIdeaCodec name p = some i) : i.nodeId = name p.nodeId := by
  unfold fromProspective at h
  split at h
  · cases h
  · obtain ⟨payload, -, rfl⟩ := Option.map_eq_some_iff.mp h
    rfl

theorem revision_of_nodeId (hname : Function.Injective name)
    {i j : CreativeIdea Status (IdeaDetails Kind Other)} (hi : i ∈ revisionsOf format name s)
    (hj : j ∈ revisionsOf format name s) (h : i.nodeId = j.nodeId) : i = j := by
  obtain ⟨p, hp, hpi⟩ := mem_revisionsOf.mp hi
  obtain ⟨q, hq, hqj⟩ := mem_revisionsOf.mp hj
  rw [nodeId_fromProspective hpi, nodeId_fromProspective hqj] at h
  have hsame : p = q := List.inj_on_of_nodup_map s.keyed hp hq (hname h)
  rw [hsame, hqj] at hpi
  exact (Option.some.inj hpi).symm

theorem IsCurrent.eq (hname : Function.Injective name)
    {i j : CreativeIdea Status (IdeaDetails Kind Other)}
    (hi : IsCurrent (revisionsOf format name s) i) (hj : IsCurrent (revisionsOf format name s) j)
    (h : i.ideaId = j.ideaId) : i = j := by
  have hrank : i.rank = j.rank := le_antisymm (hj.2 i hi.1 h) (hi.2 j hj.1 h.symm)
  have hnode : i.nodeId = j.nodeId := congrArg (fun rank => (ofLex rank).2) hrank
  exact revision_of_nodeId hname hi.1 hj.1 hnode

theorem mem_revisionsOf_of_window {limit : Option Nat} {p : Prospective}
    (hp : p ∈ listProspectiveByTrigger format listing limit s)
    {i : CreativeIdea Status (IdeaDetails Kind Other)}
    (hi : fromProspective format.toIdeaCodec name p = some i) : i ∈ revisionsOf format name s :=
  mem_revisionsOf.mpr ⟨p, (mem_of_mem_listProspectiveByTrigger hp).1, hi⟩

theorem Readable.listUpTo (hread : Readable format s) (name : Nat → String)
    (listing : ScopedListing) (limit : Option Nat) :
    ∃ window, Memory.listUpTo format name listing limit s = some (latestRevisionPerIdea window) ∧
      window.length = (listProspectiveByTrigger format listing limit s).length ∧
      ∀ i, i ∈ window ↔ ∃ p ∈ listProspectiveByTrigger format listing limit s,
        fromProspective format.toIdeaCodec name p = some i := by
  obtain ⟨window, hwindow, hrest⟩ := hread.allRevisionsUpTo name listing limit
  exact ⟨window, by rw [Memory.listUpTo, hwindow, Option.map_some], hrest⟩

variable [DecidableEq Status]

theorem showsCurrent_of_window (hname : Function.Injective name) (hread : Readable format s)
    {n : Nat} (h : WindowKeepsLatest format name listing s n) :
    ShowsCurrent format name listing s n := by
  obtain ⟨window, hlisted, hlength, hmem⟩ := hread.listUpTo name listing (some n)
  have hlatest := isLatest_latestRevisionPerIdea window
  obtain ⟨hids, hshort⟩ := latestRevisionPerIdea_ids window
  have hcurrent : ∀ i ∈ latestRevisionPerIdea window, IsCurrent (revisionsOf format name s) i := by
    intro i hi
    obtain ⟨hiwindow, htop⟩ := hlatest.top i hi
    obtain ⟨p, hp, hpi⟩ := (hmem i).mp hiwindow
    have hrevision := mem_revisionsOf_of_window hp hpi
    obtain ⟨j, hj, hid⟩ := exists_current hrevision
    obtain ⟨q, hq, hqj⟩ := h.latest j hj ⟨p, hp, i, hpi, hid.symm⟩
    have hle : j.rank ≤ i.rank := htop j ((hmem j).mpr ⟨q, hq, hqj⟩) hid
    exact ⟨hrevision, fun k hk hkid => (hj.2 k hk (hkid.trans hid.symm)).trans hle⟩
  constructor
  · refine ⟨_, hlisted, ?_, hids, hcurrent, ?_⟩
    · refine hshort.trans (hlength.le.trans ?_)
      rw [listProspectiveByTrigger, Option.elim_some, List.length_take]
      exact Nat.min_le_left _ _
    · intro hdistinct j hj
      obtain ⟨p, hp, i, hpi, hid⟩ := h.all hdistinct j hj
      obtain ⟨k, hk, hkid⟩ := hlatest.covers i ((hmem i).mpr ⟨p, hp, hpi⟩)
      exact ⟨k, hk, hkid.trans hid⟩
  · intro status
    refine ⟨_, by rw [listByStatus, hlisted, Option.map_some], ?_⟩
    intro i hi j hj hid
    obtain ⟨hlist, hstatus⟩ := List.mem_filter.mp hi
    rw [hj.eq hname (hcurrent i hlist) hid]
    exact of_decide_eq_true hstatus

theorem window_of_showsCurrent (hname : Function.Injective name) (hread : Readable format s)
    {n : Nat} (h : ShowsCurrent format name listing s n) :
    WindowKeepsLatest format name listing s n := by
  obtain ⟨window, hlisted, -, hmem⟩ := hread.listUpTo name listing (some n)
  have hlatest := isLatest_latestRevisionPerIdea window
  obtain ⟨ideas, hideas, -, -, hcurrent, hall⟩ := h.listed
  obtain rfl := Option.some.inj (hlisted.symm.trans hideas)
  have hinwindow : ∀ i ∈ latestRevisionPerIdea window,
      ∃ p ∈ listProspectiveByTrigger format listing (some n) s,
        fromProspective format.toIdeaCodec name p = some i :=
    fun i hi => (hmem i).mp (hlatest.top i hi).1
  constructor
  · rintro j hj ⟨p, hp, i, hpi, hid⟩
    obtain ⟨k, hk, hkid⟩ := hlatest.covers i ((hmem i).mpr ⟨p, hp, hpi⟩)
    have hsame : k = j := (hcurrent k hk).eq hname hj (hkid.trans hid)
    exact hsame ▸ hinwindow k hk
  · intro hdistinct j hj
    obtain ⟨i, hi, hid⟩ := hall hdistinct j hj
    obtain ⟨p, hp, hpi⟩ := hinwindow i hi
    exact ⟨p, hp, i, hpi, hid⟩

end ShowsIff

/-- After any calls a listing shows the current state of the ideas exactly if the first records,
as many as the limit lets through, have the latest revision of every idea that is among them, and
of all ideas if the limit is no less than their number. -/
theorem showsCurrent_iff {Status Kind Other : Type} [DecidableEq Status]
    (format : IdeaFormat Status (IdeaDetails Kind Other)) (name : Nat ↪ String)
    (listing : ScopedListing) (calls : List (IdeaCall Status Kind Other)) (n : Nat) :
    ShowsCurrent format name listing (afterCalls format name listing calls) n ↔
      WindowKeepsLatest format name listing (afterCalls format name listing calls) n :=
  ⟨window_of_showsCurrent name.injective (readable_afterCalls calls),
    showsCurrent_of_window name.injective (readable_afterCalls calls)⟩

def contextJson (context : IdeaContext) : Json :=
  .obj [("source", .str context.source), ("goals_snapshot", .arr (context.goalsSnapshot.map .str)),
    ("observation_digest", .str context.observationDigest), ("rationale", .str context.rationale)]

def linkJson (link : MemoryLink String) : Json :=
  .obj [("kind", .str link.kind), ("node_id", .str link.nodeId)]

def flagsJson (flags : ReviewFlags) : Json :=
  .obj [("high_risk", .bool flags.highRisk), ("irreversible", .bool flags.irreversible),
    ("needs_human", .bool flags.needsHuman)]

def payloadJson (payload : IdeaPayload String (IdeaDetails String Unit)) : Json :=
  .obj [("idea_id", .str payload.ideaId), ("revision", .num payload.revision),
    ("status", .str payload.status), ("context", contextJson payload.rest.context),
    ("links", .arr (payload.rest.links.map linkJson)),
    ("reviews", .arr (payload.rest.flags.map flagsJson))]

theorem contextJson_injective : Function.Injective contextJson := by
  intro a b h
  have hstr : Function.Injective Json.str := fun _ _ h => Json.str.inj h
  simp only [contextJson, Json.obj.injEq, List.cons.injEq, Prod.mk.injEq, Json.str.injEq,
    Json.arr.injEq, hstr.list_map.eq_iff, true_and, and_true] at h
  obtain ⟨hsource, hgoals, hdigest, hrationale⟩ := h
  cases a
  cases b
  simp_all

theorem linkJson_injective : Function.Injective linkJson := by
  intro a b h
  simp only [linkJson, Json.obj.injEq, List.cons.injEq, Prod.mk.injEq, Json.str.injEq, true_and,
    and_true] at h
  cases a
  cases b
  simp_all

theorem flagsJson_injective : Function.Injective flagsJson := by
  intro a b h
  simp only [flagsJson, Json.obj.injEq, List.cons.injEq, Prod.mk.injEq, Json.bool.injEq, true_and,
    and_true] at h
  cases a
  cases b
  simp_all

theorem payloadJson_injective : Function.Injective payloadJson := by
  rintro ⟨id, revision, status, context, links, flags, other⟩
    ⟨id', revision', status', context', links', flags', other'⟩ h
  simp only [payloadJson, Json.obj.injEq, List.cons.injEq, Prod.mk.injEq, Json.str.injEq,
    Json.num.injEq, Json.arr.injEq, contextJson_injective.eq_iff,
    linkJson_injective.list_map.eq_iff, flagsJson_injective.list_map.eq_iff, Nat.cast_inj,
    true_and, and_true] at h
  obtain ⟨rfl, rfl, rfl, rfl, rfl, rfl⟩ := h
  rfl

/-- Records of ideas as JSON; a text is read by looking for what it is written from. -/
noncomputable def jsonFormat : IdeaFormat String (IdeaDetails String Unit) where
  trigger := "creative-idea"
  decode := Function.partialInv fun payload => String.ofList (payloadJson payload).text
  encode payload := String.ofList (payloadJson payload).text
  read_back := by
    apply Function.partialInv_left
    intro a b h
    exact payloadJson_injective (Json.text_injective (String.ofList_injective h))

def byPriority : ScopedListing where
  arrange found := found.insertionSort fun p q => q.priority ≤ p.priority
  perm found := List.perm_insertionSort _ found
  ranked found := by
    have htotal : Std.Total fun p q : Prospective => q.priority ≤ p.priority :=
      ⟨fun p q => Int.le_total q.priority p.priority⟩
    have htrans : IsTrans Prospective fun p q => q.priority ≤ p.priority :=
      ⟨fun _ _ _ hpq hqr => hqr.trans hpq⟩
    exact List.pairwise_insertionSort _ found

def awaitingIdea : CreativeIdea String (IdeaDetails String Unit) where
  ideaId := "idea-1"
  revision := 0
  nodeId := ""
  idea := "Cache the index"
  status := "New"
  rest := ⟨⟨"creative-ideas-thread", [], "", ""⟩, [], [⟨false, false, true⟩], ()⟩

def rejectedIdea : CreativeIdea String (IdeaDetails String Unit) :=
  { awaitingIdea with status := "Rejected", rest := { awaitingIdea.rest with flags := [] } }

def numbered : Nat ↪ String := ⟨Nat.repr, fun _ _ h => Nat.repr_injective h⟩

/-- The memory after it: two records, and only the second says that the idea is rejected. -/
noncomputable def twoRecords : ProspectiveStore :=
  storeIdea jsonFormat { rejectedIdea with revision := 1 }
    (storeIdea jsonFormat awaitingIdea ⟨[], 0, List.nodup_nil, below_nil⟩)

theorem afterCalls_awaiting_rejected :
    afterCalls jsonFormat numbered byPriority [.store awaitingIdea, .update rejectedIdea] =
      twoRecords := by
  have hread :
      Readable jsonFormat (afterCalls jsonFormat numbered byPriority [.store awaitingIdea]) :=
    readable_afterCalls _
  have hnext : nextRevision (revisionsOf jsonFormat numbered
      (storeIdea jsonFormat awaitingIdea ⟨[], 0, List.nodup_nil, nofun⟩))
        rejectedIdea.ideaId = 1 := by
    rw [revisionsOf_storeIdea]
    rfl
  have hupdate := hread.updateIdea numbered byPriority rejectedIdea
  rw [afterCalls, List.foldl_cons, List.foldl_nil, IdeaCall.apply, hnext] at hupdate
  rw [afterCalls, List.foldl_cons, List.foldl_cons, List.foldl_nil, IdeaCall.apply, IdeaCall.apply,
    hupdate, Option.getD_some, twoRecords]

theorem revisionsOf_twoRecords : revisionsOf jsonFormat numbered twoRecords =
    [{ awaitingIdea with nodeId := "0" },
      { rejectedIdea with revision := 1, nodeId := "1" }] := by
  rw [twoRecords, revisionsOf_storeIdea, revisionsOf_storeIdea]
  rfl

/-- With a limit of one the list shows the idea as it was before it was rejected. -/
theorem rejected_idea_listed_as_before :
    ¬ ShowsCurrent jsonFormat numbered byPriority
      (afterCalls jsonFormat numbered byPriority [.store awaitingIdea,
        .update rejectedIdea]) 1 := by
  rw [afterCalls_awaiting_rejected]
  intro hshows
  have hread : Readable jsonFormat twoRecords :=
    afterCalls_awaiting_rejected ▸ readable_afterCalls _
  have hwindow := window_of_showsCurrent numbered.injective hread hshows
  have hlisted : listProspectiveByTrigger jsonFormat byPriority (some 1) twoRecords =
      twoRecords.entries.take 1 := rfl
  have hcurrent : IsCurrent (revisionsOf jsonFormat numbered twoRecords)
      { rejectedIdea with revision := 1, nodeId := "1" } := by
    rw [revisionsOf_twoRecords]
    exact ⟨by decide, by decide⟩
  have hfirst : fromProspective jsonFormat.toIdeaCodec numbered _ = _ :=
    fromProspective_written numbered 0 5 .pending awaitingIdea
  obtain ⟨p, hp, hsecond⟩ := hwindow.latest _ hcurrent
    ⟨_, hlisted ▸ List.mem_singleton_self _, _, hfirst, rfl⟩
  rw [hlisted] at hp
  obtain rfl := List.mem_singleton.mp hp
  exact absurd (Option.some.inj (hfirst.symm.trans hsecond)) (by decide)

end Simard.Memory
