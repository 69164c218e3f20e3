import Simard.Library.Lists
import Simard.Memory.Snapshots

/-! Creative ideas. An idea is a prospective memory, and an update of it is another one with the
same trigger and text; what it is now is the revision with the largest number. A restore keeps
one record of each trigger and text. -/
namespace Simard.Memory
open Simard.Library

/-- What a record of an idea says: which idea, which revision of it, and its status; the rest is
kept as it is. -/
structure IdeaPayload (Status Rest : Type) where
  ideaId : String
  revision : Nat
  status : Status
  rest : Rest
  deriving DecidableEq

/-- The trigger that ideas are stored under, and how their records are read. -/
structure IdeaCodec (Status Rest : Type) where
  trigger : String
  decode : String → Option (IdeaPayload Status Rest)

structure CreativeIdea (Status Rest : Type) where
  ideaId : String
  revision : Nat
  nodeId : String
  idea : String
  status : Status
  rest : Rest
  deriving DecidableEq

section Ideas

variable {Status Rest : Type} (codec : IdeaCodec Status Rest) (name : Nat → String)

def fromProspective (node : Prospective) : Option (CreativeIdea Status Rest) :=
  if node.triggerCondition ≠ codec.trigger then none
  else (codec.decode node.actionOnTrigger).map fun payload =>
    { ideaId := if payload.ideaId = "" then name node.nodeId else payload.ideaId
      revision := payload.revision
      nodeId := name node.nodeId
      idea := node.description
      status := payload.status
      rest := payload.rest }

def CreativeIdea.rank (idea : CreativeIdea Status Rest) : ℕ ×ₗ String :=
  toLex (idea.revision, idea.nodeId)

def keepLatest (latest : List (CreativeIdea Status Rest)) (idea : CreativeIdea Status Rest) :
    List (CreativeIdea Status Rest) :=
  match latest.find? (·.ideaId = idea.ideaId) with
  | some existing =>
      if idea.rank ≤ existing.rank then latest
      else latest.map fun other => if other.ideaId = idea.ideaId then idea else other
  | none => latest ++ [idea]

def latestRevisionPerIdea (ideas : List (CreativeIdea Status Rest)) :
    List (CreativeIdea Status Rest) :=
  (ideas.foldl keepLatest []).insertionSort fun left right => right.rank ≤ left.rank

/-- The records of ideas; one that cannot be read fails the whole list. -/
def allRevisions (listing : Listing) (s : CognitiveStore) :
    Option (List (CreativeIdea Status Rest)) :=
  (listing.prospective (s.prospective.entries.filter fun p =>
    p.triggerCondition = codec.trigger)).mapM (fromProspective codec name)

def listIdeas (listing : Listing) (s : CognitiveStore) : Option (List (CreativeIdea Status Rest)) :=
  (allRevisions codec name listing s).map latestRevisionPerIdea

/-- A store as the program writes it: the records of ideas can be read, and name their idea. -/
structure WrittenStore where
  memory : CognitiveStore
  ideas : ∀ p ∈ memory.prospective.entries, p.triggerCondition = codec.trigger →
    ∃ payload, codec.decode p.actionOnTrigger = some payload ∧ payload.ideaId ≠ ""

def CreativeIdea.StandsAs (restored idea : CreativeIdea Status Rest) : Prop :=
  restored.ideaId = idea.ideaId ∧ restored.revision = idea.revision ∧
    restored.status = idea.status ∧ restored.rest = idea.rest

/-- The restored store has what the store had. -/
structure RestorePromise (listing : Listing) (nameAfter : Nat → String)
    (memory after : CognitiveStore) : Prop where
  ideas : ∀ current, listIdeas codec name listing memory = some current →
    ∃ restored, listIdeas codec nameAfter listing after = some restored ∧
      ∀ idea ∈ current, ∃ other ∈ restored, other.StandsAs idea
  pending : ∀ p ∈ memory.prospective.entries, p.status = .pending →
    ∃ q ∈ after.prospective.entries, q.status = .pending ∧ q.kept = p.kept
  handled : ∀ p ∈ memory.prospective.entries, p.status ≠ .pending →
    ∀ q ∈ after.prospective.entries, q.key = p.key → q.status ≠ .pending
  facts : ∀ f ∈ memory.facts, f.key ∈ after.keys
  procedures : ∀ p ∈ memory.procedures, p.key ∈ after.keys
  episodes : ∀ e ∈ memory.episodes, e.key ∈ after.keys

/-- A pending memory is alone with its trigger and description, but for others that are pending,
and the first of them in the list is like it; of each idea the records that come first with their
text include the latest revision, and all of that revision stand as it does; and no fact is kept
by none but records of negative confidence. -/
structure Restorable (listing : Listing) (memory : CognitiveStore) : Prop where
  pending : ∀ p ∈ memory.prospective.entries, p.status = .pending →
    (∀ q ∈ memory.prospective.entries, q.key = p.key → q.status = .pending) ∧
      ∀ f ∈ firstListed (listing.prospective memory.prospective.entries), f.key = p.key →
        f.kept = p.kept
  ideas : ∀ current, listIdeas codec name listing memory = some current → ∀ idea ∈ current,
    (∃ f ∈ firstListed (listing.prospective memory.prospective.entries),
      ∃ first, fromProspective codec name f = some first ∧ first.ideaId = idea.ideaId ∧
        first.revision = idea.revision) ∧
    ∀ f ∈ firstListed (listing.prospective memory.prospective.entries),
      ∀ first, fromProspective codec name f = some first → first.ideaId = idea.ideaId →
        first.revision = idea.revision → first.StandsAs idea
  facts : ∀ f ∈ memory.facts, ∃ g ∈ memory.facts, g.key = f.key ∧ 0 ≤ g.confidence

end Ideas

section Latest

variable {Status Rest : Type} {ideas latest : List (CreativeIdea Status Rest)}

/-- One of each idea, and none of it that ranks higher. -/
structure IsLatest (ideas latest : List (CreativeIdea Status Rest)) : Prop where
  top : ∀ i ∈ latest, i ∈ ideas ∧ ∀ j ∈ ideas, j.ideaId = i.ideaId → j.rank ≤ i.rank
  covers : ∀ j ∈ ideas, ∃ i ∈ latest, i.ideaId = j.ideaId

theorem IsLatest.keep (h : IsLatest ideas latest) (idea : CreativeIdea Status Rest) :
    IsLatest (ideas ++ [idea]) (keepLatest latest idea) := by
  unfold keepLatest
  split
  next existing hfound =>
    have hsame : existing.ideaId = idea.ideaId := by simpa using List.find?_some hfound
    have hmem := List.mem_of_find?_eq_some hfound
    obtain ⟨hexisting, htop⟩ := h.top existing hmem
    split
    next hle =>
      constructor
      · intro i hi
        obtain ⟨hold, hmax⟩ := h.top i hi
        refine ⟨List.mem_append_left _ hold, ?_⟩
        rw [List.forall_mem_append, List.forall_mem_singleton]
        refine ⟨hmax, fun hid => hle.trans ?_⟩
        exact hmax existing hexisting (hsame.trans hid)
      · rw [List.forall_mem_append, List.forall_mem_singleton]
        exact ⟨h.covers, existing, hmem, hsame⟩
    next hlt =>
      constructor
      · intro i hi
        obtain ⟨other, hother, rfl⟩ := List.mem_map.mp hi
        rw [List.forall_mem_append, List.forall_mem_singleton]
        split
        · refine ⟨List.mem_append_right _ List.mem_cons_self, ?_, fun _ => le_rfl⟩
          intro j hj hid
          exact (htop j hj (hid.trans hsame.symm)).trans (not_le.mp hlt).le
        next hdifferent =>
          obtain ⟨hold, hmax⟩ := h.top other hother
          exact ⟨List.mem_append_left _ hold, hmax, fun hid => absurd hid.symm hdifferent⟩
      · rw [List.forall_mem_append, List.forall_mem_singleton]
        constructor
        · intro j hj
          obtain ⟨i, hi, hid⟩ := h.covers j hj
          refine ⟨_, List.mem_map_of_mem hi, ?_⟩
          split
          next hreplaced => exact hreplaced.symm.trans hid
          · exact hid
        · refine ⟨_, List.mem_map_of_mem hmem, ?_⟩
          rw [if_pos hsame]
  next hnone =>
    have hnew : ∀ i ∈ latest, i.ideaId ≠ idea.ideaId := by
      intro i hi hid
      exact absurd (decide_eq_true hid) (List.find?_eq_none.mp hnone i hi)
    constructor
    · rw [List.forall_mem_append, List.forall_mem_singleton]
      constructor
      · intro i hi
        obtain ⟨hold, hmax⟩ := h.top i hi
        refine ⟨List.mem_append_left _ hold, ?_⟩
        rw [List.forall_mem_append, List.forall_mem_singleton]
        exact ⟨hmax, fun hid => absurd hid.symm (hnew i hi)⟩
      · refine ⟨List.mem_append_right _ List.mem_cons_self, ?_⟩
        rw [List.forall_mem_append, List.forall_mem_singleton]
        refine ⟨?_, fun _ => le_rfl⟩
        intro j hj hid
        obtain ⟨i, hi, hsame⟩ := h.covers j hj
        exact absurd (hsame.trans hid) (hnew i hi)
    · rw [List.forall_mem_append, List.forall_mem_singleton]
      constructor
      · intro j hj
        obtain ⟨i, hi, hid⟩ := h.covers j hj
        exact ⟨i, List.mem_append_left _ hi, hid⟩
      · exact ⟨idea, List.mem_append_right _ List.mem_cons_self, rfl⟩

theorem isLatest_latestRevisionPerIdea (ideas : List (CreativeIdea Status Rest)) :
    IsLatest ideas (latestRevisionPerIdea ideas) := by
  have hfold : IsLatest ideas (ideas.foldl keepLatest []) := by
    induction ideas using List.reverseRecOn with
    | nil => exact ⟨nofun, nofun⟩
    | append_singleton ideas idea ih =>
      rw [List.foldl_append]
      exact ih.keep idea
  have hmem (i : CreativeIdea Status Rest) :
      i ∈ latestRevisionPerIdea ideas ↔ i ∈ ideas.foldl keepLatest [] := List.mem_insertionSort _
  exact ⟨fun i hi => hfold.top i ((hmem i).mp hi), fun j hj =>
    (hfold.covers j hj).imp fun i hi => ⟨(hmem i).mpr hi.1, hi.2⟩⟩

end Latest

section Restore

variable {Status Rest : Type} {codec : IdeaCodec Status Rest} {name nameAfter : Nat → String}
  {listing : Listing}

theorem listIdeas_spec {s : CognitiveStore} (hread : ∀ p ∈ s.prospective.entries,
      p.triggerCondition = codec.trigger → ∃ payload, codec.decode p.actionOnTrigger = some payload)
    (name : Nat → String) (listing : Listing) :
    ∃ revisions current, listIdeas codec name listing s = some current ∧
      IsLatest revisions current ∧
      ∀ i, i ∈ revisions ↔ ∃ p ∈ s.prospective.entries, fromProspective codec name p = some i := by
  have hmem (p : Prospective) : p ∈ listing.prospective (s.prospective.entries.filter fun p =>
      p.triggerCondition = codec.trigger) ↔
        p ∈ s.prospective.entries ∧ p.triggerCondition = codec.trigger := by
    rw [(listing.prospective_perm _).mem_iff, List.mem_filter, decide_eq_true_eq]
  have hsome : ∀ p ∈ listing.prospective (s.prospective.entries.filter fun p =>
      p.triggerCondition = codec.trigger), ∃ i, fromProspective codec name p = some i := by
    intro p hp
    obtain ⟨hentry, htrigger⟩ := (hmem p).mp hp
    obtain ⟨payload, hpayload⟩ := hread p hentry htrigger
    rw [fromProspective, if_neg (not_not.mpr htrigger), hpayload]
    exact ⟨_, rfl⟩
  obtain ⟨revisions, hrevisions, hrevision⟩ := mapM_option_of_isSome hsome
  refine ⟨revisions, latestRevisionPerIdea revisions, ?_,
    isLatest_latestRevisionPerIdea revisions, ?_⟩
  · rw [listIdeas, allRevisions, hrevisions, Option.map_some]
  · intro i
    rw [hrevision]
    constructor
    · rintro ⟨p, hp, hi⟩
      exact ⟨p, ((hmem p).mp hp).1, hi⟩
    · rintro ⟨p, hp, hi⟩
      refine ⟨p, (hmem p).mpr ⟨hp, ?_⟩, hi⟩
      by_contra htrigger
      rw [fromProspective, if_pos htrigger] at hi
      cases hi

theorem fromProspective_of_kept {f q : Prospective} (hkept : q.kept = f.kept)
    {payload : IdeaPayload Status Rest} (hpayload : codec.decode f.actionOnTrigger = some payload)
    (hnamed : payload.ideaId ≠ "") {first : CreativeIdea Status Rest}
    (h : fromProspective codec name f = some first) :
    fromProspective codec nameAfter q = some { first with nodeId := nameAfter q.nodeId } := by
  simp only [Prospective.kept, Prod.mk.injEq] at hkept
  obtain ⟨htrigger, hdescription, haction, -⟩ := hkept
  unfold fromProspective at h ⊢
  rw [htrigger, haction, hpayload]
  rw [hpayload] at h
  split at h
  · cases h
  next hown =>
    rw [if_neg hown]
    simp only [Option.map_some, if_neg hnamed, Option.some.injEq] at h ⊢
    rw [← h, hdescription]

theorem fromProspective_payload {p : Prospective} {i : CreativeIdea Status Rest}
    (h : fromProspective codec name p = some i) : p.triggerCondition = codec.trigger := by
  by_contra htrigger
  rw [fromProspective, if_pos htrigger] at h
  cases h

def lastNamed (last n : Nat) : String :=
  String.ofList ((if n = last then 'b' else 'a') :: List.replicate n 'x')

theorem lastNamed_injective (last : Nat) : Function.Injective (lastNamed last) := by
  intro n m h
  have hlength := congrArg (fun s => s.toList.length) h
  simpa [lastNamed] using hlength

theorem lastNamed_le (last n : Nat) : lastNamed last n ≤ lastNamed last last := by
  by_cases h : n = last
  · rw [h]
  · apply le_of_lt
    rw [String.lt_iff_toList_lt, lastNamed, lastNamed, String.toList_ofList, String.toList_ofList,
      if_neg h, if_pos rfl, List.cons_lt_cons_iff]
    exact .inl (by decide)

/-- The restored records of ideas are those that came first. -/
structure Carried (codec : IdeaCodec Status Rest) (name : Nat → String) (pros : List Prospective)
    (after : ProspectiveStore) : Prop where
  back : ∀ q ∈ after.entries, ∃ f ∈ firstListed pros, f.kept = q.kept
  forth : ∀ f ∈ firstListed pros, ∃ q ∈ after.entries, q.kept = f.kept
  read : ∀ f ∈ firstListed pros, f.triggerCondition = codec.trigger →
    ∃ payload, codec.decode f.actionOnTrigger = some payload ∧ payload.ideaId ≠ ""

theorem Carried.idea_forth {pros : List Prospective} {after : ProspectiveStore}
    (h : Carried codec name pros after) {f : Prospective} (hf : f ∈ firstListed pros)
    {first : CreativeIdea Status Rest} (hfirst : fromProspective codec name f = some first)
    (nameAfter : Nat → String) : ∃ q ∈ after.entries, fromProspective codec nameAfter q =
      some { first with nodeId := nameAfter q.nodeId } := by
  obtain ⟨q, hq, hkept⟩ := h.forth f hf
  obtain ⟨payload, hpayload, hnamed⟩ := h.read f hf (fromProspective_payload hfirst)
  exact ⟨q, hq, fromProspective_of_kept hkept hpayload hnamed hfirst⟩

theorem Carried.idea_back {pros : List Prospective} {after : ProspectiveStore}
    (h : Carried codec name pros after) {q : Prospective} (hq : q ∈ after.entries)
    {other : CreativeIdea Status Rest} (hother : fromProspective codec nameAfter q = some other) :
    ∃ f ∈ firstListed pros, ∃ first, fromProspective codec name f = some first ∧
      other = { first with nodeId := nameAfter q.nodeId } := by
  obtain ⟨f, hf, hkept⟩ := h.back q hq
  have htrigger : f.triggerCondition = codec.trigger := by
    rw [← fromProspective_payload hother]
    exact congrArg Prod.fst hkept
  obtain ⟨payload, hpayload, hnamed⟩ := h.read f hf htrigger
  have hsome : ∃ first, fromProspective codec name f = some first := by
    rw [fromProspective, if_neg (not_not.mpr htrigger), hpayload]
    exact ⟨_, rfl⟩
  obtain ⟨first, hfirst⟩ := hsome
  have hread : fromProspective codec nameAfter q =
      some { first with nodeId := nameAfter q.nodeId } :=
    fromProspective_of_kept hkept.symm hpayload hnamed hfirst
  exact ⟨f, hf, first, hfirst, Option.some.inj (hother.symm.trans hread)⟩

theorem revision_le_of_rank_le {i j : CreativeIdea Status Rest} (h : i.rank ≤ j.rank) :
    i.revision ≤ j.revision := by
  rcases Prod.Lex.toLex_le_toLex.mp h with hlt | heq
  · exact hlt.le
  · exact heq.1.le

theorem nodeId_le_of_rank_le {i j : CreativeIdea Status Rest} (h : i.rank ≤ j.rank)
    (hrevision : i.revision = j.revision) : i.nodeId ≤ j.nodeId := by
  rcases Prod.Lex.toLex_le_toLex.mp h with hlt | heq
  · exact absurd hrevision (Nat.ne_of_lt hlt)
  · exact heq.2

section Export

variable {M : WrittenStore codec} {agentName : String} {snapshot : FullMemorySnapshot}

theorem snapshot_of_export
    (h : exportFullMemorySnapshot listing M.memory agentName = some snapshot) :
    snapshot.facts = M.memory.listFacts listing ∧
      snapshot.procedures = listing.procedures M.memory.procedures ∧
      snapshot.episodes = listing.episodes M.memory.episodes ∧
      snapshot.prospective = listing.prospective M.memory.prospective.entries := by
  unfold exportFullMemorySnapshot at h
  split at h
  · cases h
  · obtain rfl := Option.some.inj h
    exact ⟨rfl, rfl, rfl, rfl⟩

theorem scanned_export (h : exportFullMemorySnapshot listing M.memory agentName = some snapshot) :
    ∃ scan, Scanned (listing.prospective M.memory.prospective.entries) scan
      (restored listing snapshot).prospective := by
  rw [← (snapshot_of_export h).2.2.2]
  exact scanned_restored listing snapshot

theorem mem_listed {p : Prospective} : p ∈ listing.prospective M.memory.prospective.entries ↔
    p ∈ M.memory.prospective.entries := (listing.prospective_perm _).mem_iff

theorem carried_export (name : Nat → String)
    (h : exportFullMemorySnapshot listing M.memory agentName = some snapshot) :
    Carried codec name (listing.prospective M.memory.prospective.entries)
      (restored listing snapshot).prospective := by
  obtain ⟨scan, hscanned⟩ := scanned_export h
  refine ⟨fun q hq => hscanned.exists_first hq, fun f hf => hscanned.exists_entry hf, ?_⟩
  intro f hf htrigger
  exact M.ideas f (mem_listed.mp ((unseen_sublist _ _).subset hf)) htrigger

theorem Carried.readable {pros : List Prospective} {after : ProspectiveStore}
    (h : Carried codec name pros after) : ∀ q ∈ after.entries, q.triggerCondition = codec.trigger →
      ∃ payload, codec.decode q.actionOnTrigger = some payload := by
  intro q hq htrigger
  obtain ⟨f, hf, hkept⟩ := h.back q hq
  simp only [Prospective.kept, Prod.mk.injEq] at hkept
  obtain ⟨payload, hpayload, -⟩ := h.read f hf (hkept.1.trans htrigger)
  exact ⟨payload, hkept.2.2.1 ▸ hpayload⟩

theorem pending_iff (h : exportFullMemorySnapshot listing M.memory agentName = some snapshot)
    {p : Prospective} (hp : p ∈ M.memory.prospective.entries) :
    (∃ q ∈ (restored listing snapshot).prospective.entries,
        q.status = .pending ∧ q.kept = p.kept) ↔
      (∀ q ∈ M.memory.prospective.entries, q.key = p.key → q.status = .pending) ∧
        ∀ f ∈ firstListed (listing.prospective M.memory.prospective.entries), f.key = p.key →
          f.kept = p.kept := by
  obtain ⟨scan, hscanned⟩ := scanned_export h
  constructor
  · rintro ⟨q, hq, hpending, hkept⟩
    have hkey := key_of_kept hkept
    constructor
    · intro r hr hrkey
      exact (hscanned.status q hq).mp hpending r (mem_listed.mpr hr) (hrkey.trans hkey.symm)
    · intro f hf hfkey
      obtain ⟨g, hg, hgkept⟩ := hscanned.exists_first hq
      have hgkey : g.key = f.key := (key_of_kept hgkept).trans (hkey.trans hfkey.symm)
      rw [← List.inj_on_of_nodup_map (nodup_map_unseen _ _) hg hf hgkey, hgkept, hkept]
  · rintro ⟨hall, hfirst⟩
    obtain ⟨f, hf, hfkey⟩ := mem_firstListed (mem_listed.mpr hp)
    obtain ⟨q, hq, hkept⟩ := hscanned.exists_entry hf
    refine ⟨q, hq, (hscanned.status q hq).mpr ?_, hkept.trans (hfirst f hf hfkey)⟩
    intro r hr hrkey
    exact hall r (mem_listed.mp hr) (hrkey.trans ((key_of_kept hkept).trans hfkey))

theorem handled_restored (h : exportFullMemorySnapshot listing M.memory agentName = some snapshot)
    {p : Prospective} (hp : p ∈ M.memory.prospective.entries) (hhandled : p.status ≠ .pending)
    {q : Prospective} (hq : q ∈ (restored listing snapshot).prospective.entries)
    (hkey : q.key = p.key) : q.status ≠ .pending := by
  obtain ⟨scan, hscanned⟩ := scanned_export h
  intro hpending
  exact hhandled ((hscanned.status q hq).mp hpending p (mem_listed.mpr hp) hkey.symm)

theorem fact_restored_iff (h : exportFullMemorySnapshot listing M.memory agentName = some snapshot)
    (f : CognitiveFact) : f.key ∈ (restored listing snapshot).keys ↔
      ∃ g ∈ M.memory.facts, g.key = f.key ∧ 0 ≤ g.confidence := by
  rw [mem_keys_restored, FullMemorySnapshot.keys, (snapshot_of_export h).1]
  simp only [CognitiveStore.listFacts, List.mem_append, List.mem_map,
    (listing.facts_perm _).mem_iff, List.mem_filter, decide_eq_true_eq, CognitiveFact.key,
    CognitiveProcedure.key, CognitiveEpisode.key, Prospective.key, reduceCtorEq, and_false,
    exists_false, or_false]
  constructor
  · rintro ⟨g, ⟨hg, hconfidence⟩, hkey⟩
    exact ⟨g, hg, hkey, hconfidence⟩
  · rintro ⟨g, hg, hkey, hconfidence⟩
    exact ⟨g, ⟨hg, hconfidence⟩, hkey⟩

theorem first_mem_revisions {revisions : List (CreativeIdea Status Rest)}
    (hrevisions : ∀ i, i ∈ revisions ↔
      ∃ p ∈ M.memory.prospective.entries, fromProspective codec name p = some i)
    {f : Prospective} (hf : f ∈ firstListed (listing.prospective M.memory.prospective.entries))
    {first : CreativeIdea Status Rest} (hfirst : fromProspective codec name f = some first) :
    first ∈ revisions :=
  (hrevisions first).mpr ⟨f, mem_listed.mp ((unseen_sublist _ _).subset hf), hfirst⟩

theorem ideas_of_restorable
    (h : exportFullMemorySnapshot listing M.memory agentName = some snapshot)
    (hrestorable : Restorable codec name listing M.memory) (nameAfter : Nat → String)
    {current : List (CreativeIdea Status Rest)}
    (hcurrent : listIdeas codec name listing M.memory = some current) :
    ∃ after, listIdeas codec nameAfter listing (restored listing snapshot) = some after ∧
      ∀ idea ∈ current, ∃ other ∈ after, other.StandsAs idea := by
  have hcarried := carried_export name h
  obtain ⟨revisions, current', hlist, hlatest, hrevisions⟩ :=
    listIdeas_spec (fun p hp htrigger => (M.ideas p hp htrigger).imp fun _ hread => hread.1) name
      listing
  obtain rfl := Option.some.inj (hcurrent.symm.trans hlist)
  obtain ⟨revisionsAfter, after, hafter, hlatestAfter, hrevisionsAfter⟩ :=
    listIdeas_spec hcarried.readable nameAfter listing
  refine ⟨after, hafter, ?_⟩
  intro idea hidea
  obtain ⟨⟨f, hf, first, hfirst, hid, hrevision⟩, hall⟩ :=
    hrestorable.ideas current hcurrent idea hidea
  obtain ⟨q, hq, hread⟩ := hcarried.idea_forth hf hfirst nameAfter
  have hmem := (hrevisionsAfter _).mpr ⟨q, hq, hread⟩
  obtain ⟨other, hother, hotherId⟩ := hlatestAfter.covers _ hmem
  obtain ⟨hrevisionAfter, htop⟩ := hlatestAfter.top other hother
  obtain ⟨q', hq', hread'⟩ := (hrevisionsAfter other).mp hrevisionAfter
  obtain ⟨f', hf', first', hfirst', rfl⟩ := hcarried.idea_back hq' hread'
  -- it is of the latest revision: not older than what came first, and not newer than the idea
  have hlower := revision_le_of_rank_le (htop _ hmem hotherId.symm)
  have hsame : first'.ideaId = idea.ideaId := hotherId.trans hid
  have hupper : first'.revision ≤ idea.revision := revision_le_of_rank_le
    ((hlatest.top idea hidea).2 first' (first_mem_revisions hrevisions hf' hfirst') hsame)
  refine ⟨_, hother, ?_⟩
  exact hall f' hf' first' hfirst' hsame (le_antisymm hupper (hrevision ▸ hlower))

theorem restorable_ideas (h : exportFullMemorySnapshot listing M.memory agentName = some snapshot)
    (hpromise : ∀ nameAfter, Function.Injective nameAfter →
      RestorePromise codec name listing nameAfter M.memory (restored listing snapshot))
    {current : List (CreativeIdea Status Rest)}
    (hcurrent : listIdeas codec name listing M.memory = some current)
    {idea : CreativeIdea Status Rest} (hidea : idea ∈ current) :
    (∃ f ∈ firstListed (listing.prospective M.memory.prospective.entries),
      ∃ first, fromProspective codec name f = some first ∧ first.ideaId = idea.ideaId ∧
        first.revision = idea.revision) ∧
    ∀ f ∈ firstListed (listing.prospective M.memory.prospective.entries),
      ∀ first, fromProspective codec name f = some first → first.ideaId = idea.ideaId →
        first.revision = idea.revision → first.StandsAs idea := by
  have hcarried := carried_export name h
  -- what the promise gives, for any names of the restored records
  have hrestored (nameAfter : Nat → String) (hinjective : Function.Injective nameAfter) :
      ∃ revisionsAfter after, IsLatest revisionsAfter after ∧
        (∀ i, i ∈ revisionsAfter ↔ ∃ q ∈ (restored listing snapshot).prospective.entries,
          fromProspective codec nameAfter q = some i) ∧ ∃ other ∈ after, other.StandsAs idea := by
    obtain ⟨revisionsAfter, after, hafter, hlatestAfter, hrevisionsAfter⟩ :=
      listIdeas_spec hcarried.readable nameAfter listing
    obtain ⟨after', hafter', hstands⟩ := (hpromise nameAfter hinjective).ideas current hcurrent
    obtain rfl := Option.some.inj (hafter.symm.trans hafter')
    exact ⟨revisionsAfter, after, hlatestAfter, hrevisionsAfter, hstands idea hidea⟩
  constructor
  · obtain ⟨revisionsAfter, after, hlatestAfter, hrevisionsAfter, other, hother, hstands⟩ :=
      hrestored (lastNamed 0) (lastNamed_injective 0)
    obtain ⟨q, hq, hread⟩ := (hrevisionsAfter other).mp (hlatestAfter.top other hother).1
    obtain ⟨f, hf, first, hfirst, rfl⟩ := hcarried.idea_back hq hread
    exact ⟨f, hf, first, hfirst, hstands.1, hstands.2.1⟩
  · intro f hf first hfirst hid hrevision
    -- with names that put this record last, it is the one that is current
    obtain ⟨q, hq, hkept⟩ := hcarried.forth f hf
    obtain ⟨payload, hpayload, hnamed⟩ := hcarried.read f hf (fromProspective_payload hfirst)
    have hread : fromProspective codec (lastNamed q.nodeId) q =
        some { first with nodeId := lastNamed q.nodeId q.nodeId } :=
      fromProspective_of_kept hkept hpayload hnamed hfirst
    obtain ⟨revisionsAfter, after, hlatestAfter, hrevisionsAfter, other, hother, hstands⟩ :=
      hrestored (lastNamed q.nodeId) (lastNamed_injective q.nodeId)
    obtain ⟨hrevisionAfter, htop⟩ := hlatestAfter.top other hother
    have hrank := htop _ ((hrevisionsAfter _).mpr ⟨q, hq, hread⟩) (hid.trans hstands.1.symm)
    obtain ⟨q', hq', hread'⟩ := (hrevisionsAfter other).mp hrevisionAfter
    obtain ⟨f', hf', first', hfirst', rfl⟩ := hcarried.idea_back hq' hread'
    have hle := nodeId_le_of_rank_le hrank (hrevision.trans hstands.2.1.symm)
    have hnode : q'.nodeId = q.nodeId :=
      lastNamed_injective q.nodeId (le_antisymm (lastNamed_le _ _) hle)
    obtain rfl :=
      List.inj_on_of_nodup_map (restored listing snapshot).prospective.keyed hq' hq hnode
    have hsame := Option.some.inj (hread'.symm.trans hread)
    rw [hsame] at hstands
    exact hstands

/-- A snapshot restores what it captured, whatever ids the restored records get, exactly if nothing
it needs is left out for one that came before. -/
theorem restorePromise_iff_restorable {Status Rest : Type} (codec : IdeaCodec Status Rest)
    (listing : Listing) (M : WrittenStore codec) (name : Nat → String) {agentName : String}
    {snapshot : FullMemorySnapshot}
    (hexport : exportFullMemorySnapshot listing M.memory agentName = some snapshot) :
    (∀ nameAfter, Function.Injective nameAfter →
        RestorePromise codec name listing nameAfter M.memory (restored listing snapshot)) ↔
      Restorable codec name listing M.memory := by
  constructor
  · intro hpromise
    have hany := hpromise (lastNamed 0) (lastNamed_injective 0)
    refine ⟨?_, ?_, ?_⟩
    · intro p hp hpending
      exact (pending_iff hexport hp).mp (hany.pending p hp hpending)
    · intro current hcurrent idea hidea
      exact restorable_ideas hexport hpromise hcurrent hidea
    · intro f hf
      exact (fact_restored_iff hexport f).mp (hany.facts f hf)
  · intro hrestorable nameAfter _
    obtain ⟨-, hprocedures, hepisodes, -⟩ := snapshot_of_export hexport
    refine ⟨?_, ?_, ?_, ?_, ?_, ?_⟩
    · intro current hcurrent
      exact ideas_of_restorable hexport hrestorable nameAfter hcurrent
    · intro p hp hpending
      exact (pending_iff hexport hp).mpr (hrestorable.pending p hp hpending)
    · intro p hp hhandled q hq hkey
      exact handled_restored hexport hp hhandled hq hkey
    · intro f hf
      exact (fact_restored_iff hexport f).mpr (hrestorable.facts f hf)
    · intro p hp
      rw [mem_keys_restored, FullMemorySnapshot.keys, hprocedures]
      have hlisted := (listing.procedures_perm M.memory.procedures).mem_iff.mpr hp
      exact List.mem_append_left _ (List.mem_append_left _
        (List.mem_append_right _ (List.mem_map_of_mem hlisted)))
    · intro e he
      rw [mem_keys_restored, FullMemorySnapshot.keys, hepisodes]
      have hlisted := (listing.episodes_perm M.memory.episodes).mem_iff.mpr he
      exact List.mem_append_left _ (List.mem_append_right _ (List.mem_map_of_mem hlisted))

end Export

end Restore

def ideaText (revision status : String) : String :=
  "\x7b\"payload_version\":1,\"idea_id\":\"idea-1\",\"revision\":" ++ revision ++
    ",\"status\":\"" ++
    status ++ "\",\"context\":\x7b\"source\":\"creative-ideas-thread\",\"goals_snapshot\":[]," ++
    "\"observation_digest\":\"\",\"rationale\":\"\"\x7d,\"links\":[],\"reviews\":[]," ++
    "\"success_metric\":null,\"created_epoch\":0\x7d"

def plainIdeaCodec : IdeaCodec String Unit where
  trigger := "creative-idea"
  decode text :=
    if text = ideaText "0" "new" then some ⟨"idea-1", 0, "new", ()⟩
    else if text = ideaText "1" "accepted" then some ⟨"idea-1", 1, "accepted", ()⟩
    else none

theorem decode_new :
    plainIdeaCodec.decode (ideaText "0" "new") = some ⟨"idea-1", 0, "new", ()⟩ := by decide +kernel

theorem decode_accepted :
    plainIdeaCodec.decode (ideaText "1" "accepted") = some ⟨"idea-1", 1, "accepted", ()⟩ := by
  decide +kernel

def ideaRecord (nodeId : Nat) (revision status : String) : Prospective :=
  ⟨nodeId, "cache parsed boards", "creative-idea", ideaText revision status, 3, .pending⟩

def callBack : Prospective := ⟨1, "call back", "call", "ring", 1, .resolved⟩

def decimal (n : Nat) : String := String.ofList (Nat.toDigits 10 n)

def plainStore : WrittenStore plainIdeaCodec where
  memory := { CognitiveStore.empty with
    prospective := ⟨[ideaRecord 0 "0" "new", callBack], 2, by decide, by decide⟩ }
  ideas := by
    intro p hp htrigger
    rcases List.mem_pair.mp hp with rfl | rfl
    · exact ⟨_, decode_new, by decide⟩
    · exact absurd htrigger (by decide)

theorem plainStore_restorable : Restorable plainIdeaCodec decimal inOrder plainStore.memory := by
  have hfirst : firstListed [ideaRecord 0 "0" "new", callBack] =
      [ideaRecord 0 "0" "new", callBack] := by decide +kernel
  have hidea : fromProspective plainIdeaCodec decimal (ideaRecord 0 "0" "new") =
      some ⟨"idea-1", 0, "0", "cache parsed boards", "new", ()⟩ := by decide +kernel
  have hother : fromProspective plainIdeaCodec decimal callBack = none := by decide
  have hlist : listIdeas plainIdeaCodec decimal inOrder plainStore.memory =
      some [⟨"idea-1", 0, "0", "cache parsed boards", "new", ()⟩] := by decide +kernel
  refine ⟨?_, ?_, nofun⟩
  · intro p hp hpending
    rcases List.mem_pair.mp hp with rfl | rfl
    · refine ⟨?_, ?_⟩
      · intro q hq hkey
        rcases List.mem_pair.mp hq with rfl | rfl
        · rfl
        · exact absurd hkey (by decide)
      · intro f hf hkey
        change f ∈ firstListed [ideaRecord 0 "0" "new", callBack] at hf
        rw [hfirst] at hf
        rcases List.mem_pair.mp hf with rfl | rfl
        · rfl
        · exact absurd hkey (by decide)
    · cases hpending
  · intro current hcurrent idea hmem
    obtain rfl := Option.some.inj (hlist.symm.trans hcurrent)
    obtain rfl := List.mem_singleton.mp hmem
    change (∃ f ∈ firstListed [ideaRecord 0 "0" "new", callBack], _) ∧
      ∀ f ∈ firstListed [ideaRecord 0 "0" "new", callBack], _
    rw [hfirst]
    refine ⟨⟨_, List.mem_cons_self, _, hidea, rfl, rfl⟩, ?_⟩
    intro f hf first hread _ _
    rcases List.mem_pair.mp hf with rfl | rfl
    · obtain rfl := Option.some.inj (hidea.symm.trans hread)
      exact ⟨rfl, rfl, rfl, rfl⟩
    · rw [hother] at hread
      cases hread

def plainSnapshot : FullMemorySnapshot := ⟨[], [], [], [ideaRecord 0 "0" "new", callBack], "simard"⟩

theorem plain_idea_restored :
    exportFullMemorySnapshot inOrder plainStore.memory "simard" = some plainSnapshot ∧
      ∀ nameAfter, Function.Injective nameAfter → RestorePromise plainIdeaCodec decimal inOrder
        nameAfter plainStore.memory (restored inOrder plainSnapshot) := by
  have hexport : exportFullMemorySnapshot inOrder plainStore.memory "simard" =
      some plainSnapshot := rfl
  exact ⟨hexport, (restorePromise_iff_restorable plainIdeaCodec inOrder plainStore decimal
    hexport).mpr plainStore_restorable⟩

def updatedStore : WrittenStore plainIdeaCodec where
  memory := { CognitiveStore.empty with
    prospective :=
      ⟨[ideaRecord 0 "0" "new", ideaRecord 1 "1" "accepted"], 2, by decide, by decide⟩ }
  ideas := by
    intro p hp _
    rcases List.mem_pair.mp hp with rfl | rfl
    · exact ⟨_, decode_new, by decide⟩
    · exact ⟨_, decode_accepted, by decide⟩

def updatedSnapshot : FullMemorySnapshot :=
  ⟨[], [], [], [ideaRecord 0 "0" "new", ideaRecord 1 "1" "accepted"], "simard"⟩

theorem updated_idea_not_restored :
    exportFullMemorySnapshot inOrder updatedStore.memory "simard" = some updatedSnapshot ∧
      ¬RestorePromise plainIdeaCodec decimal inOrder decimal updatedStore.memory
        (restored inOrder updatedSnapshot) := by
  refine ⟨rfl, ?_⟩
  intro h
  have hcurrent : listIdeas plainIdeaCodec decimal inOrder updatedStore.memory =
      some [⟨"idea-1", 1, "1", "cache parsed boards", "accepted", ()⟩] := by decide +kernel
  have hafter : listIdeas plainIdeaCodec decimal inOrder (restored inOrder updatedSnapshot) =
      some [⟨"idea-1", 0, "0", "cache parsed boards", "new", ()⟩] := by decide +kernel
  obtain ⟨after, hlist, hstands⟩ := h.ideas _ hcurrent
  obtain rfl := Option.some.inj (hafter.symm.trans hlist)
  obtain ⟨other, hother, hsame⟩ := hstands _ List.mem_cons_self
  obtain rfl := List.mem_singleton.mp hother
  exact absurd hsame.2.1 (by decide)

end Simard.Memory
