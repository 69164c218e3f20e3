import Simard.Memory.IdeaStore

/-! The current state of the ideas in a memory. Every record that the program wrote can be read, so
its calls succeed; an update changes what one idea is now, and no other. -/
namespace Simard.Memory
open Simard.Library

/-- How ideas are written, how records are named, and in which order the memory lists them. -/
structure IdeaBackend (Status Kind Other : Type) where
  format : IdeaFormat Status (IdeaDetails Kind Other)
  name : Nat ↪ String
  named : ∀ n, name n ≠ ""
  listing : ScopedListing

abbrev StoredIdea (Status Kind Other : Type) := CreativeIdea Status (IdeaDetails Kind Other)

/-- A memory in which every record of an idea can be read. -/
structure IdeaMemory {Status Kind Other : Type} (backend : IdeaBackend Status Kind Other) where
  store : ProspectiveStore
  readable : Readable backend.format store

namespace IdeaMemory

variable {Status Kind Other : Type} {backend : IdeaBackend Status Kind Other}
  (memory : IdeaMemory backend)

def revisions : List (StoredIdea Status Kind Other) :=
  revisionsOf backend.format backend.name memory.store

theorem list_isSome (limit : Option Nat) :
    (listUpTo backend.format backend.name backend.listing limit memory.store).isSome := by
  obtain ⟨window, hwindow, -⟩ := memory.readable.listUpTo backend.name backend.listing limit
  rw [hwindow]
  rfl

def list (limit : Option Nat) : List (StoredIdea Status Kind Other) :=
  (listUpTo backend.format backend.name backend.listing limit memory.store).get
    (memory.list_isSome limit)

def get (nodeId : String) : Option (StoredIdea Status Kind Other) :=
  (memory.list none).find? (·.nodeId = nodeId)

def create (idea : StoredIdea Status Kind Other) : IdeaMemory backend where
  store := storeIdea backend.format idea memory.store
  readable := memory.readable.storeIdea idea

def nextName : String := backend.name memory.store.nextId

theorem update_isSome (idea : StoredIdea Status Kind Other) :
    (updateIdea backend.format backend.name backend.listing idea memory.store).isSome := by
  rw [memory.readable.updateIdea]
  rfl

def update (idea : StoredIdea Status Kind Other) : IdeaMemory backend where
  store := (updateIdea backend.format backend.name backend.listing idea memory.store).get
    (memory.update_isSome idea)
  readable := by
    simp only [memory.readable.updateIdea, Option.get_some]
    exact memory.readable.storeIdea _

def current (ideaId : String) : Option (StoredIdea Status Kind Other) :=
  (latestRevisionPerIdea memory.revisions).find? (·.ideaId = ideaId)

variable {memory}

theorem current_eq_some {ideaId : String} {i : StoredIdea Status Kind Other} :
    memory.current ideaId = some i ↔ IsCurrent memory.revisions i ∧ i.ideaId = ideaId := by
  have hlatest := isLatest_latestRevisionPerIdea memory.revisions
  constructor
  · intro h
    have hid : i.ideaId = ideaId := by simpa using List.find?_some h
    exact ⟨hlatest.top i (List.mem_of_find?_eq_some h), hid⟩
  · rintro ⟨hi, rfl⟩
    obtain ⟨j, hj, hid⟩ := hlatest.covers i hi.1
    have hsome : (memory.current i.ideaId).isSome :=
      List.find?_isSome.mpr ⟨j, hj, decide_eq_true hid⟩
    obtain ⟨k, hk⟩ := Option.isSome_iff_exists.mp hsome
    have hkid : k.ideaId = i.ideaId := by simpa using List.find?_some hk
    have hktop : IsCurrent memory.revisions k := hlatest.top k (List.mem_of_find?_eq_some hk)
    rw [hk, hktop.eq backend.name.injective hi hkid]

theorem mem_list {i : StoredIdea Status Kind Other} :
    i ∈ memory.list none ↔ memory.current i.ideaId = some i := by
  obtain ⟨window, hwindow, -, hmem⟩ := memory.readable.listUpTo backend.name backend.listing none
  have hlist : memory.list none = latestRevisionPerIdea window := by
    simp only [list, hwindow, Option.get_some]
  have hwhole : ∀ j, j ∈ window ↔ j ∈ memory.revisions := by
    intro j
    obtain ⟨all, hall, hallMem⟩ := memory.readable.allRevisions backend.name backend.listing
    obtain ⟨window', hwindow', -, hmem'⟩ :=
      memory.readable.allRevisionsUpTo backend.name backend.listing none
    rw [hmem, ← hmem', revisions, ← hallMem, Option.some.inj (hall.symm.trans hwindow')]
  have hlatest := isLatest_latestRevisionPerIdea window
  rw [hlist, current_eq_some, and_iff_left rfl]
  constructor
  · intro hi
    obtain ⟨hmem, htop⟩ := hlatest.top i hi
    exact ⟨(hwhole i).mp hmem, fun j hj => htop j ((hwhole j).mpr hj)⟩
  · intro hi
    obtain ⟨j, hj, hid⟩ := hlatest.covers i ((hwhole i).mpr hi.1)
    obtain ⟨hmem, htop⟩ := hlatest.top j hj
    have hcurrent : IsCurrent memory.revisions j :=
      ⟨(hwhole j).mp hmem, fun k hk => htop k ((hwhole k).mpr hk)⟩
    rw [← hcurrent.eq backend.name.injective hi hid]
    exact hj

theorem list_nodup : ((memory.list none).map CreativeIdea.ideaId).Nodup := by
  obtain ⟨window, hwindow, -⟩ := memory.readable.listUpTo backend.name backend.listing none
  have hlist : memory.list none = latestRevisionPerIdea window := by
    simp only [list, hwindow, Option.get_some]
  rw [hlist]
  exact (latestRevisionPerIdea_ids window).1

theorem current_ext {f : String → Option (StoredIdea Status Kind Other)}
    (h : ∀ i, IsCurrent memory.revisions i ↔ f i.ideaId = some i)
    (hids : ∀ ideaId i, f ideaId = some i → i.ideaId = ideaId) : memory.current = f := by
  funext ideaId
  ext i
  rw [current_eq_some, h]
  constructor
  · rintro ⟨hi, rfl⟩
    exact hi
  · intro hi
    have hid := hids ideaId i hi
    exact ⟨by rw [hid, hi], hid⟩

theorem ideaId_of_current {ideaId : String} {i : StoredIdea Status Kind Other}
    (h : memory.current ideaId = some i) : i.ideaId = ideaId := (current_eq_some.mp h).2

theorem current_of_list {i : StoredIdea Status Kind Other} (h : i ∈ memory.list none) :
    memory.current i.ideaId = some i := mem_list.mp h

theorem ideaId_ne_empty {i : StoredIdea Status Kind Other} (h : i ∈ memory.revisions) :
    i.ideaId ≠ "" := by
  obtain ⟨p, -, hp⟩ := mem_revisionsOf.mp h
  unfold fromProspective at hp
  split at hp
  · cases hp
  · obtain ⟨payload, -, rfl⟩ := Option.map_eq_some_iff.mp hp
    dsimp only
    split
    · exact backend.named _
    next hid => exact hid

theorem mem_revisions_of_current {ideaId : String} {i : StoredIdea Status Kind Other}
    (h : memory.current ideaId = some i) : i ∈ memory.revisions := (current_eq_some.mp h).1.1

theorem find_nodeId {i : StoredIdea Status Kind Other} (h : i ∈ memory.list none) :
    (memory.list none).find? (·.nodeId = i.nodeId) = some i := by
  have hsome : ((memory.list none).find? (·.nodeId = i.nodeId)).isSome :=
    List.find?_isSome.mpr ⟨i, h, decide_eq_true rfl⟩
  obtain ⟨j, hj⟩ := Option.isSome_iff_exists.mp hsome
  have hnode : j.nodeId = i.nodeId := by simpa using List.find?_some hj
  have hjmem := mem_revisions_of_current (mem_list.mp (List.mem_of_find?_eq_some hj))
  have himem := mem_revisions_of_current (mem_list.mp h)
  rw [hj, revision_of_nodeId backend.name.injective hjmem himem hnode]

theorem revision_lt_nextRevision {revisions : List (StoredIdea Status Kind Other)}
    {i : StoredIdea Status Kind Other} (hi : i ∈ revisions) :
    i.revision < nextRevision revisions i.ideaId := by
  have hmem : i.revision ∈ (revisions.filter (·.ideaId = i.ideaId)).map CreativeIdea.revision :=
    List.mem_map_of_mem (List.mem_filter.mpr ⟨hi, decide_eq_true rfl⟩)
  unfold nextRevision
  split
  next hnone =>
    rw [List.max?_eq_none_iff] at hnone
    rw [hnone] at hmem
    cases hmem
  next last hlast =>
    exact Nat.lt_succ_of_le ((List.max?_eq_some_iff.mp hlast).2 _ hmem)

def updated (memory : IdeaMemory backend) (idea : StoredIdea Status Kind Other) :
    StoredIdea Status Kind Other :=
  { idea with revision := nextRevision memory.revisions idea.ideaId, nodeId := memory.nextName }

@[simp] theorem updated_ideaId (idea : StoredIdea Status Kind Other) :
    (memory.updated idea).ideaId = idea.ideaId := rfl

@[simp] theorem updated_idea (idea : StoredIdea Status Kind Other) :
    (memory.updated idea).idea = idea.idea := rfl

@[simp] theorem updated_status (idea : StoredIdea Status Kind Other) :
    (memory.updated idea).status = idea.status := rfl

@[simp] theorem updated_rest (idea : StoredIdea Status Kind Other) :
    (memory.updated idea).rest = idea.rest := rfl

theorem revisions_update {idea : StoredIdea Status Kind Other} (hid : idea.ideaId ≠ "") :
    (memory.update idea).revisions = memory.revisions ++ [memory.updated idea] := by
  have hstore : (memory.update idea).store = storeIdea backend.format
      { idea with revision := nextRevision memory.revisions idea.ideaId } memory.store := by
    simp only [update, memory.readable.updateIdea, Option.get_some, revisions]
  rw [revisions, hstore, revisionsOf_storeIdea, if_neg hid]
  rfl

theorem revisions_create {idea : StoredIdea Status Kind Other} (hid : idea.ideaId ≠ "") :
    (memory.create idea).revisions =
      memory.revisions ++ [{ idea with nodeId := memory.nextName }] := by
  have hstore : (memory.create idea).revisions =
      revisionsOf backend.format backend.name (storeIdea backend.format idea memory.store) := rfl
  rw [hstore, revisionsOf_storeIdea, if_neg hid]
  rfl

theorem current_append {after : IdeaMemory backend} {new : StoredIdea Status Kind Other}
    (hafter : after.revisions = memory.revisions ++ [new])
    (htop : ∀ i ∈ memory.revisions, i.ideaId = new.ideaId → i.rank ≤ new.rank) :
    after.current = Function.update memory.current new.ideaId (some new) := by
  have hnew : IsCurrent after.revisions new := by
    rw [hafter]
    refine ⟨List.mem_append_right _ (List.mem_singleton_self _), ?_⟩
    intro i hi hid
    rcases List.mem_append.mp hi with hi | hi
    · exact htop i hi hid
    · rw [List.mem_singleton.mp hi]
  have hothers : ∀ i : StoredIdea Status Kind Other, i.ideaId ≠ new.ideaId →
      (IsCurrent after.revisions i ↔ IsCurrent memory.revisions i) := by
    intro i hne
    simp only [IsCurrent, hafter, List.mem_append, List.mem_singleton, or_imp, forall_and,
      forall_eq]
    constructor
    · rintro ⟨hi | rfl, hold, -⟩
      · exact ⟨hi, hold⟩
      · exact absurd rfl hne
    · rintro ⟨hi, hold⟩
      exact ⟨.inl hi, hold, fun hid => absurd hid.symm hne⟩
  apply current_ext
  · intro i
    by_cases hid : i.ideaId = new.ideaId
    · rw [hid, Function.update_self, Option.some.injEq]
      exact ⟨fun hi => hnew.eq backend.name.injective hi hid.symm, fun h => h ▸ hnew⟩
    · rw [hothers i hid, Function.update_of_ne hid, current_eq_some, and_iff_left rfl]
  · intro ideaId i hi
    by_cases hid : ideaId = new.ideaId
    · rw [hid, Function.update_self, Option.some.injEq] at hi
      rw [hid, hi]
    · rw [Function.update_of_ne hid] at hi
      exact ideaId_of_current hi

theorem current_update {idea : StoredIdea Status Kind Other} (hid : idea.ideaId ≠ "") :
    (memory.update idea).current =
      Function.update memory.current idea.ideaId (some (memory.updated idea)) := by
  apply current_append (revisions_update hid)
  intro i hi hsame
  have hlt := revision_lt_nextRevision hi
  rw [hsame] at hlt
  exact Prod.Lex.toLex_le_toLex.mpr (.inl hlt)

theorem current_create {idea : StoredIdea Status Kind Other} (hid : idea.ideaId ≠ "")
    (hnew : memory.current idea.ideaId = none) :
    (memory.create idea).current = Function.update memory.current idea.ideaId
      (some { idea with nodeId := memory.nextName }) := by
  apply current_append (revisions_create hid)
  intro i hi hsame
  obtain ⟨j, hj, hjid⟩ := exists_current hi
  have hsome : memory.current idea.ideaId = some j :=
    current_eq_some.mpr ⟨hj, hjid.trans hsame⟩
  rw [hnew] at hsome
  cases hsome

theorem mem_revisions_of_list {limit : Option Nat} {i : StoredIdea Status Kind Other}
    (h : i ∈ memory.list limit) : i ∈ memory.revisions := by
  obtain ⟨window, hwindow, -, hmem⟩ := memory.readable.listUpTo backend.name backend.listing limit
  have hlist : memory.list limit = latestRevisionPerIdea window := by
    simp only [list, hwindow, Option.get_some]
  rw [hlist] at h
  obtain ⟨p, hp, hpi⟩ := (hmem i).mp ((isLatest_latestRevisionPerIdea window).top i h).1
  exact mem_revisionsOf_of_window hp hpi

theorem nodeId_ne_nextName {i : StoredIdea Status Kind Other} (h : i ∈ memory.revisions) :
    i.nodeId ≠ memory.nextName := by
  obtain ⟨p, hp, hpi⟩ := mem_revisionsOf.mp h
  rw [nodeId_fromProspective hpi, nextName]
  intro hname
  exact (memory.store.below p hp).ne (backend.name.injective hname)

theorem get_eq_some {nodeId : String} {i : StoredIdea Status Kind Other} :
    memory.get nodeId = some i ↔ memory.current i.ideaId = some i ∧ i.nodeId = nodeId := by
  constructor
  · intro h
    exact ⟨mem_list.mp (List.mem_of_find?_eq_some h), by simpa using List.find?_some h⟩
  · rintro ⟨hcurrent, rfl⟩
    exact find_nodeId (mem_list.mpr hcurrent)

/-- One record more, under a name of its own, that says what its idea is now. -/
structure Puts (memory after : IdeaMemory backend) (new : StoredIdea Status Kind Other) : Prop where
  current : after.current = Function.update memory.current new.ideaId (some new)
  unnamed : ∀ i ∈ memory.revisions, i.nodeId ≠ new.nodeId
  grown : ∀ i ∈ memory.revisions, i ∈ after.revisions

theorem puts_update {idea : StoredIdea Status Kind Other} (hid : idea.ideaId ≠ "") :
    Puts memory (memory.update idea) (memory.updated idea) where
  current := current_update hid
  unnamed _ hi := nodeId_ne_nextName hi
  grown i hi := by
    rw [revisions_update hid]
    exact List.mem_append_left _ hi

theorem puts_create {idea : StoredIdea Status Kind Other} (hid : idea.ideaId ≠ "")
    (hnew : memory.current idea.ideaId = none) :
    Puts memory (memory.create idea) { idea with nodeId := memory.nextName } where
  current := current_create hid hnew
  unnamed _ hi := nodeId_ne_nextName hi
  grown i hi := by
    rw [revisions_create hid]
    exact List.mem_append_left _ hi

theorem Puts.trans {after last : IdeaMemory backend} {first second : StoredIdea Status Kind Other}
    (h : Puts memory after first) (h' : Puts after last second)
    (hid : second.ideaId = first.ideaId) :
    Puts memory last second where
  current := by rw [h'.current, h.current, hid, Function.update_idem]
  unnamed i hi := h'.unnamed i (h.grown i hi)
  grown i hi := h'.grown i (h.grown i hi)

theorem Puts.get_eq_some {after : IdeaMemory backend} {new named i : StoredIdea Status Kind Other}
    (h : Puts memory after new) (hnamed : named ∈ memory.revisions) :
    after.get named.nodeId = some i ↔
      memory.get named.nodeId = some i ∧ i.ideaId ≠ new.ideaId := by
  rw [IdeaMemory.get_eq_some, IdeaMemory.get_eq_some, h.current]
  by_cases hid : i.ideaId = new.ideaId
  · rw [hid, Function.update_self, Option.some.injEq]
    constructor
    · rintro ⟨rfl, hnode⟩
      exact absurd hnode.symm (h.unnamed named hnamed)
    · exact fun hi => absurd rfl hi.2
  · rw [Function.update_of_ne hid, and_iff_left hid]

end IdeaMemory

end Simard.Memory
