import Simard.Memory.Reminders

/-! Snapshots of the cognitive store. An export lists all there is; an import asks what is there
already and writes the rest, one call after the other, leaving out what has a key that was
seen. -/
namespace Simard.Memory
open Simard.Library

structure CognitiveFact where
  concept : String
  content : String
  confidence : ℚ
  tags : List String
  sourceId : String

structure CognitiveProcedure where
  name : String
  steps : List String
  prerequisites : List String

structure CognitiveEpisode where
  content : String
  sourceLabel : String

structure CognitiveStore where
  sensoryCount : Nat
  workingCount : Nat
  facts : List CognitiveFact
  procedures : List CognitiveProcedure
  episodes : List CognitiveEpisode
  prospective : ProspectiveStore

namespace CognitiveStore

variable (s : CognitiveStore)

def empty : CognitiveStore := ⟨0, 0, [], [], [], .empty⟩

def total : Nat :=
  s.sensoryCount + s.workingCount + s.episodes.length + s.facts.length + s.procedures.length +
    s.prospective.entries.length

end CognitiveStore

/-- The orders in which the store lists its memories. -/
structure Listing where
  facts : List CognitiveFact → List CognitiveFact
  procedures : List CognitiveProcedure → List CognitiveProcedure
  episodes : List CognitiveEpisode → List CognitiveEpisode
  prospective : List Prospective → List Prospective
  facts_perm : ∀ l, (facts l).Perm l
  procedures_perm : ∀ l, (procedures l).Perm l
  episodes_perm : ∀ l, (episodes l).Perm l
  prospective_perm : ∀ l, (prospective l).Perm l

def inOrder : Listing where
  facts := id
  procedures := id
  episodes := id
  prospective := id
  facts_perm := List.Perm.refl
  procedures_perm := List.Perm.refl
  episodes_perm := List.Perm.refl
  prospective_perm := List.Perm.refl

def CognitiveStore.listFacts (listing : Listing) (s : CognitiveStore) : List CognitiveFact :=
  listing.facts (s.facts.filter fun f => 0 ≤ f.confidence)

structure FullMemorySnapshot where
  facts : List CognitiveFact
  procedures : List CognitiveProcedure
  episodes : List CognitiveEpisode
  prospective : List Prospective
  sourceAgent : String

def FullMemorySnapshot.totalItems (snapshot : FullMemorySnapshot) : Nat :=
  snapshot.facts.length + snapshot.procedures.length + snapshot.episodes.length +
    snapshot.prospective.length

def exportFullMemorySnapshot (listing : Listing) (memory : CognitiveStore) (agentName : String) :
    Option FullMemorySnapshot :=
  if agentName = "" then none
  else some
    { facts := memory.listFacts listing
      procedures := listing.procedures memory.procedures
      episodes := listing.episodes memory.episodes
      prospective := listing.prospective memory.prospective.entries
      sourceAgent := agentName }

inductive MemoryCall where
  | getStatistics
  | searchFacts
  | storeFact (fact : CognitiveFact)
  | recallProcedure
  | storeProcedure (procedure : CognitiveProcedure)
  | listAllEpisodes
  | storeEpisode (episode : CognitiveEpisode)
  | listAllProspective
  | storeProspective (description triggerCondition actionOnTrigger : String) (priority : Int)
  | resolveProspective (nodeId : Nat)
  | checkpoint

def CognitiveStore.apply (s : CognitiveStore) : MemoryCall → CognitiveStore
  | .storeFact fact => { s with facts := s.facts ++ [fact] }
  | .storeProcedure procedure => { s with procedures := s.procedures ++ [procedure] }
  | .storeEpisode episode => { s with episodes := s.episodes ++ [episode] }
  | .storeProspective description triggerCondition actionOnTrigger priority => { s with
      prospective := s.prospective.storeProspective description triggerCondition actionOnTrigger
        priority }
  | .resolveProspective nodeId => { s with prospective := s.prospective.resolveProspective nodeId }
  | .getStatistics | .searchFacts | .recallProcedure | .listAllEpisodes | .listAllProspective
  | .checkpoint => s

def CognitiveStore.perform (s : CognitiveStore) (calls : List MemoryCall) : CognitiveStore :=
  calls.foldl CognitiveStore.apply s

/-- What a memory is recognised by when it is imported. -/
inductive DedupKey where
  | fact (concept content : String)
  | procedure (name : String)
  | episode (content : String)
  | prospective (triggerCondition description : String)
  deriving DecidableEq

def CognitiveFact.key (f : CognitiveFact) : DedupKey := .fact f.concept f.content

def CognitiveProcedure.key (p : CognitiveProcedure) : DedupKey := .procedure p.name

def CognitiveEpisode.key (e : CognitiveEpisode) : DedupKey := .episode e.content

def Prospective.key (p : Prospective) : DedupKey := .prospective p.triggerCondition p.description

def CognitiveStore.keys (s : CognitiveStore) : List DedupKey :=
  s.facts.map CognitiveFact.key ++ s.procedures.map CognitiveProcedure.key ++
    s.episodes.map CognitiveEpisode.key ++ s.prospective.entries.map Prospective.key

def FullMemorySnapshot.keys (snapshot : FullMemorySnapshot) : List DedupKey :=
  snapshot.facts.map CognitiveFact.key ++ snapshot.procedures.map CognitiveProcedure.key ++
    snapshot.episodes.map CognitiveEpisode.key ++ snapshot.prospective.map Prospective.key

def MemoryCall.stores : MemoryCall → Option DedupKey
  | .storeFact fact => some fact.key
  | .storeProcedure procedure => some procedure.key
  | .storeEpisode episode => some episode.key
  | .storeProspective description triggerCondition _ _ =>
      some (.prospective triggerCondition description)
  | _ => none

/-- Those with a key that is neither among the given ones nor that of an earlier one. -/
def unseen {α κ : Type} [DecidableEq κ] (key : α → κ) : List κ → List α → List α
  | _, [] => []
  | seen, a :: rest =>
      if key a ∈ seen then unseen key seen rest else a :: unseen key (key a :: seen) rest

/-- The calls made so far for prospective memories, the id of the next one that is stored, and
what is known of each key: the id, and whether it is pending. -/
structure ProspectiveScan where
  calls : List MemoryCall
  next : Nat
  seen : DedupKey → Option (Nat × Bool)

def ProspectiveScan.take (scan : ProspectiveScan) (pm : Prospective) : ProspectiveScan :=
  let terminal := pm.status ≠ .pending
  match scan.seen pm.key with
  | some (existing, pending) => { scan with
      calls := scan.calls ++ if terminal ∧ pending = true then
        [.resolveProspective existing] else [] }
  | none =>
      { calls := scan.calls ++ .storeProspective pm.description pm.triggerCondition
          pm.actionOnTrigger pm.priority :: if terminal then [.resolveProspective scan.next] else []
        next := scan.next + 1
        seen := Function.update scan.seen pm.key (some (scan.next, !terminal)) }

/-- What is known of the memories a store lists; of two with one key, the later counts. -/
def listedProspective (entries : List Prospective) : DedupKey → Option (Nat × Bool) :=
  entries.foldl (fun seen p => Function.update seen p.key (some (p.nodeId, p.status = .pending)))
    fun _ => none

def importProspective (listing : Listing) (memory : CognitiveStore) (pros : List Prospective) :
    ProspectiveScan :=
  pros.foldl ProspectiveScan.take
    ⟨[], memory.prospective.nextId,
      listedProspective (listing.prospective memory.prospective.entries)⟩

/-- The calls an import makes, in their order; it stops at the first that fails. -/
def importFullSnapshot (listing : Listing) (memory : CognitiveStore)
    (snapshot : FullMemorySnapshot) : List MemoryCall :=
  .searchFacts :: (unseen CognitiveFact.key ((memory.listFacts listing).map CognitiveFact.key)
      snapshot.facts).map .storeFact ++
    .recallProcedure :: (unseen CognitiveProcedure.key
      ((listing.procedures memory.procedures).map CognitiveProcedure.key)
      snapshot.procedures).map .storeProcedure ++
    .listAllEpisodes :: (unseen CognitiveEpisode.key
      ((listing.episodes memory.episodes).map CognitiveEpisode.key)
      snapshot.episodes).map .storeEpisode ++
    .listAllProspective :: (importProspective listing memory snapshot.prospective).calls

section Unseen

variable {α κ : Type} [DecidableEq κ] {key : α → κ}

theorem unseen_sublist (seen : List κ) (l : List α) : (unseen key seen l).Sublist l := by
  induction l generalizing seen with
  | nil => exact List.nil_sublist _
  | cons a rest ih =>
    unfold unseen
    split
    · exact (ih seen).cons a
    · exact (ih _).cons_cons a

theorem mem_map_unseen {seen : List κ} {l : List α} {k : κ} :
    k ∈ (unseen key seen l).map key ↔ k ∉ seen ∧ k ∈ l.map key := by
  induction l generalizing seen with
  | nil => simp [unseen]
  | cons a rest ih =>
    unfold unseen
    split
    next hseen =>
      rw [ih, List.map_cons, List.mem_cons]
      constructor
      · rintro ⟨hnew, hmem⟩
        exact ⟨hnew, .inr hmem⟩
      · rintro ⟨hnew, rfl | hmem⟩
        · exact absurd hseen hnew
        · exact ⟨hnew, hmem⟩
    next hseen =>
      rw [List.map_cons, List.mem_cons, List.map_cons, List.mem_cons, ih, List.mem_cons]
      constructor
      · rintro (rfl | ⟨hnew, hmem⟩)
        · exact ⟨hseen, .inl rfl⟩
        · exact ⟨fun h => hnew (.inr h), .inr hmem⟩
      · rintro ⟨hnew, hmem⟩
        by_cases hkey : k = key a
        · exact .inl hkey
        · exact .inr ⟨fun h => h.elim hkey hnew, hmem.resolve_left hkey⟩

theorem nodup_map_unseen (seen : List κ) (l : List α) : ((unseen key seen l).map key).Nodup := by
  induction l generalizing seen with
  | nil => exact List.nodup_nil
  | cons a rest ih =>
    unfold unseen
    split
    · exact ih seen
    · rw [List.map_cons, List.nodup_cons]
      refine ⟨?_, ih _⟩
      rw [mem_map_unseen]
      exact fun h => h.1 List.mem_cons_self

theorem unseen_append (seen : List κ) (l : List α) (a : α) : unseen key seen (l ++ [a]) =
    unseen key seen l ++ if key a ∈ seen ∨ key a ∈ l.map key then [] else [a] := by
  induction l generalizing seen with
  | nil => simp [unseen]
  | cons b rest ih =>
    rw [List.cons_append]
    unfold unseen
    split
    next hseen =>
      rw [ih, List.map_cons]
      by_cases hkey : key a = key b
      · simp [hkey, hseen]
      · simp [hkey]
    next hseen =>
      rw [ih, List.map_cons, List.cons_append]
      simp only [List.mem_cons, or_assoc, or_left_comm]

end Unseen

theorem keys_mark (store : ProspectiveStore) (status : ProspectiveStatus)
    (which : Prospective → Bool) :
    (store.mark status which).entries.map Prospective.key = store.entries.map Prospective.key := by
  simp only [ProspectiveStore.mark, List.map_map]
  apply List.map_congr_left
  intro p _
  simp only [Function.comp_apply]
  split <;> rfl

theorem mem_keys_apply (s : CognitiveStore) (c : MemoryCall) {k : DedupKey} :
    k ∈ (s.apply c).keys ↔ k ∈ s.keys ∨ c.stores = some k := by
  cases c with
  | storeFact _ | storeProcedure _ | storeEpisode _ | storeProspective _ _ _ _ =>
    simp only [CognitiveStore.apply, CognitiveStore.keys, ProspectiveStore.storeProspective,
      MemoryCall.stores, List.map_append, List.map_cons, List.map_nil, List.mem_append,
      List.mem_singleton, Option.some.injEq, eq_comm (a := k)]
    tauto
  | resolveProspective nodeId =>
    simp only [CognitiveStore.apply, CognitiveStore.keys, ProspectiveStore.resolveProspective,
      keys_mark, MemoryCall.stores, reduceCtorEq, or_false]
  | getStatistics | searchFacts | recallProcedure | listAllEpisodes | listAllProspective
  | checkpoint => simp [CognitiveStore.apply, MemoryCall.stores]

theorem mem_keys_perform (s : CognitiveStore) (calls : List MemoryCall) {k : DedupKey} :
    k ∈ (s.perform calls).keys ↔ k ∈ s.keys ∨ k ∈ calls.filterMap MemoryCall.stores := by
  induction calls generalizing s with
  | nil => simp [CognitiveStore.perform]
  | cons c calls ih =>
    have hstep : s.perform (c :: calls) = (s.apply c).perform calls := rfl
    rw [hstep, ih, mem_keys_apply, List.mem_filterMap, List.mem_filterMap]
    simp only [List.mem_cons, exists_eq_or_imp, or_assoc]

def firstListed (pros : List Prospective) : List Prospective := unseen Prospective.key [] pros

def Prospective.kept (p : Prospective) : String × String × String × Int :=
  (p.triggerCondition, p.description, p.actionOnTrigger, p.priority)

theorem key_of_kept {p q : Prospective} (h : p.kept = q.kept) : p.key = q.key := by
  simp only [Prospective.kept, Prod.mk.injEq] at h
  rw [Prospective.key, Prospective.key, h.1, h.2.1]

/-- Where the scan of an import into an empty store is after some records: the first of each key
is stored, and pending if all of the key are. -/
structure Scanned (pros : List Prospective) (scan : ProspectiveScan) (store : ProspectiveStore) :
    Prop where
  next : store.nextId = scan.next
  stored : store.entries.map Prospective.kept = (firstListed pros).map Prospective.kept
  status : ∀ q ∈ store.entries,
    q.status = .pending ↔ ∀ p ∈ pros, p.key = q.key → p.status = .pending
  fresh : ∀ k, scan.seen k = none → ∀ p ∈ pros, p.key ≠ k
  seen : ∀ k id pending, scan.seen k = some (id, pending) → (∃ p ∈ pros, p.key = k) ∧
    (∀ q ∈ store.entries, q.nodeId = id ↔ q.key = k) ∧
    (pending = false → ∃ p ∈ pros, p.key = k ∧ p.status ≠ .pending)

theorem scanned_nil : Scanned [] ⟨[], 0, fun _ => none⟩ .empty :=
  ⟨rfl, rfl, nofun, nofun, nofun⟩

variable {pros : List Prospective} {scan : ProspectiveScan} {store : ProspectiveStore}

theorem Scanned.exists_entry (h : Scanned pros scan store) {p : Prospective}
    (hp : p ∈ firstListed pros) : ∃ q ∈ store.entries, q.kept = p.kept := by
  have hmem : p.kept ∈ store.entries.map Prospective.kept := by
    rw [h.stored]
    exact List.mem_map_of_mem hp
  exact List.mem_map.mp hmem

theorem Scanned.exists_first (h : Scanned pros scan store) {q : Prospective}
    (hq : q ∈ store.entries) : ∃ p ∈ firstListed pros, p.kept = q.kept := by
  have hmem : q.kept ∈ (firstListed pros).map Prospective.kept := by
    rw [← h.stored]
    exact List.mem_map_of_mem hq
  exact List.mem_map.mp hmem

theorem kept_resolve (store : ProspectiveStore) (nodeId : Nat) :
    (store.resolveProspective nodeId).entries.map Prospective.kept =
      store.entries.map Prospective.kept := by
  simp only [ProspectiveStore.resolveProspective, ProspectiveStore.mark, List.map_map]
  apply List.map_congr_left
  intro p _
  simp only [Function.comp_apply]
  split <;> rfl

theorem mem_resolve {nodeId : Nat} {q : Prospective}
    (h : q ∈ (store.resolveProspective nodeId).entries) : ∃ q' ∈ store.entries,
      q.nodeId = q'.nodeId ∧ q.key = q'.key ∧
        q.status = if q'.nodeId = nodeId then .resolved else q'.status := by
  simp only [ProspectiveStore.resolveProspective, ProspectiveStore.mark, List.mem_map,
    decide_eq_true_eq] at h
  obtain ⟨q', hq', rfl⟩ := h
  refine ⟨q', hq', ?_⟩
  split
  · exact ⟨rfl, rfl, rfl⟩
  · exact ⟨rfl, rfl, rfl⟩

theorem Scanned.again (h : Scanned pros scan store) {pm : Prospective} {existing : Nat}
    {pending : Bool} (hseen : scan.seen pm.key = some (existing, pending))
    {store' : ProspectiveStore}
    (hstore : store' = if pm.status ≠ .pending ∧ pending = true then
      store.resolveProspective existing else store) :
    Scanned (pros ++ [pm]) (scan.take pm) store' := by
  obtain ⟨⟨known, hknown, hkey⟩, hid, hterminal⟩ := h.seen _ _ _ hseen
  have htake : (scan.take pm).next = scan.next ∧ (scan.take pm).seen = scan.seen := by
    simp only [ProspectiveScan.take, hseen]
    exact ⟨trivial, trivial⟩
  have hfirst : firstListed (pros ++ [pm]) = firstListed pros := by
    rw [firstListed, unseen_append, if_pos (.inr (hkey ▸ List.mem_map_of_mem hknown)),
      List.append_nil]
    rfl
  have hentries : store'.nextId = store.nextId ∧
      store'.entries.map Prospective.kept = store.entries.map Prospective.kept ∧
      ∀ q ∈ store'.entries, ∃ q' ∈ store.entries, q.nodeId = q'.nodeId ∧ q.key = q'.key ∧
        q.status = if pm.status ≠ .pending ∧ pending = true ∧ q'.nodeId = existing then .resolved
          else q'.status := by
    rw [hstore]
    split
    next hresolve =>
      refine ⟨rfl, kept_resolve store existing, ?_⟩
      intro q hq
      obtain ⟨q', hq', hnode, hsame, hstatus⟩ := mem_resolve hq
      refine ⟨q', hq', hnode, hsame, ?_⟩
      simpa only [hresolve, true_and, ne_eq, not_false_eq_true] using hstatus
    next hkeep =>
      refine ⟨rfl, rfl, ?_⟩
      intro q hq
      refine ⟨q, hq, rfl, rfl, ?_⟩
      rw [if_neg fun hall => hkeep ⟨hall.1, hall.2.1⟩]
  obtain ⟨hnext, hkept, hback⟩ := hentries
  refine ⟨?_, ?_, ?_, ?_, ?_⟩
  · rw [hnext, htake.1, h.next]
  · rw [hkept, hfirst, h.stored]
  · intro q hq
    obtain ⟨q', hq', -, hsame, hstatus⟩ := hback q hq
    rw [hstatus, List.forall_mem_append, List.forall_mem_singleton, hsame, ← h.status q' hq']
    by_cases hother : pm.key = q'.key
    · by_cases hpm : pm.status = .pending
      · simp [hpm]
      · -- a record of the key was handled
        have hnot : ¬(q'.status = .pending ∧ (pm.key = q'.key → pm.status = .pending)) :=
          fun hall => hpm (hall.2 hother)
        refine iff_of_false ?_ hnot
        split
        · exact nofun
        next hkeep =>
          have hfalse : pending = false := by
            rw [← Bool.not_eq_true]
            exact fun htrue => hkeep ⟨hpm, htrue, (hid q' hq').mpr hother.symm⟩
          obtain ⟨p, hp, hpkey, hhandled⟩ := hterminal hfalse
          exact fun hstill =>
            hhandled ((h.status q' hq').mp hstill p hp (hpkey.trans hother))
    · rw [if_neg fun hall => hother ((hid q' hq').mp hall.2.2).symm]
      exact ⟨fun hstill => ⟨hstill, fun heq => absurd heq hother⟩, And.left⟩
  · intro k hk p hp
    rw [htake.2] at hk
    rcases List.mem_append.mp hp with hold | hnew
    · exact h.fresh k hk p hold
    · rintro rfl
      rw [List.mem_singleton.mp hnew, hseen] at hk
      cases hk
  · intro k id known' hk
    rw [htake.2] at hk
    obtain ⟨⟨p, hp, hpkey⟩, hid', hterminal'⟩ := h.seen k id known' hk
    refine ⟨⟨p, List.mem_append_left _ hp, hpkey⟩, ?_, ?_⟩
    · intro q hq
      obtain ⟨q', hq', hnode, hsame, -⟩ := hback q hq
      rw [hnode, hsame]
      exact hid' q' hq'
    · intro hfalse
      obtain ⟨p', hp', hhandled⟩ := hterminal' hfalse
      exact ⟨p', List.mem_append_left _ hp', hhandled⟩

theorem mem_firstListed {p : Prospective} (h : p ∈ pros) : ∃ f ∈ firstListed pros,
    f.key = p.key := by
  have hkey : p.key ∈ (firstListed pros).map Prospective.key :=
    mem_map_unseen.mpr ⟨List.not_mem_nil, List.mem_map_of_mem h⟩
  exact List.mem_map.mp hkey

theorem Scanned.key_mem (h : Scanned pros scan store) {q : Prospective} (hq : q ∈ store.entries) :
    ∃ p ∈ pros, p.key = q.key := by
  obtain ⟨p, hp, hkept⟩ := h.exists_first hq
  exact ⟨p, (unseen_sublist [] pros).subset hp, key_of_kept hkept⟩

theorem Scanned.id_lt (h : Scanned pros scan store) {k : DedupKey} {id : Nat} {pending : Bool}
    (hseen : scan.seen k = some (id, pending)) : id < store.nextId := by
  obtain ⟨⟨p, hp, hkey⟩, hid, -⟩ := h.seen k id pending hseen
  obtain ⟨f, hf, hfkey⟩ := mem_firstListed hp
  obtain ⟨q, hq, hkept⟩ := h.exists_entry hf
  rw [← (hid q hq).mpr ((key_of_kept hkept).trans (hfkey.trans hkey))]
  exact store.below q hq

theorem Scanned.first (h : Scanned pros scan store) {pm : Prospective}
    (hseen : scan.seen pm.key = none) {store' : ProspectiveStore}
    (hstore : store' =
      let added := store.storeProspective pm.description pm.triggerCondition pm.actionOnTrigger
        pm.priority
      if pm.status ≠ .pending then added.resolveProspective scan.next else added) :
    Scanned (pros ++ [pm]) (scan.take pm) store' := by
  have hfresh := h.fresh pm.key hseen
  have htake : (scan.take pm).next = scan.next + 1 ∧ (scan.take pm).seen =
      Function.update scan.seen pm.key (some (scan.next, !decide (pm.status ≠ .pending))) := by
    simp only [ProspectiveScan.take, hseen]
    exact ⟨trivial, trivial⟩
  have hfirst : firstListed (pros ++ [pm]) = firstListed pros ++ [pm] := by
    rw [firstListed, unseen_append, if_neg]
    · rfl
    · rintro (hnil | hmem)
      · cases hnil
      · obtain ⟨p, hp, hkey⟩ := List.mem_map.mp hmem
        exact hfresh p hp hkey
  -- an old entry is as it was, the new one is pending if the record was
  have hentries : store'.nextId = store.nextId + 1 ∧
      store'.entries.map Prospective.kept = store.entries.map Prospective.kept ++ [pm.kept] ∧
      ∀ q ∈ store'.entries,
        (∃ q' ∈ store.entries, q.nodeId = q'.nodeId ∧ q.key = q'.key ∧ q.status = q'.status) ∨
        (q.nodeId = store.nextId ∧ q.key = pm.key ∧
          (q.status = .pending ↔ pm.status = .pending)) := by
    rw [hstore]
    dsimp only
    split
    next hhandled =>
      refine ⟨rfl, ?_, ?_⟩
      · rw [kept_resolve]
        simp [ProspectiveStore.storeProspective, Prospective.kept]
      · intro q hq
        obtain ⟨q', hq', hnode, hkey, hstatus⟩ := mem_resolve hq
        rcases List.mem_append.mp hq' with hold | hnew
        · refine .inl ⟨q', hold, hnode, hkey, ?_⟩
          rw [hstatus, if_neg]
          rw [← h.next]
          exact Nat.ne_of_lt (store.below q' hold)
        · obtain rfl := List.mem_singleton.mp hnew
          refine .inr ⟨hnode, hkey, ?_⟩
          rw [hstatus, if_pos h.next]
          exact iff_of_false (by decide) hhandled
    next hpending =>
      refine ⟨rfl, ?_, ?_⟩
      · simp [ProspectiveStore.storeProspective, Prospective.kept]
      · intro q hq
        rcases List.mem_append.mp hq with hold | hnew
        · exact .inl ⟨q, hold, rfl, rfl, rfl⟩
        · obtain rfl := List.mem_singleton.mp hnew
          exact .inr ⟨rfl, rfl, iff_of_true rfl (not_not.mp hpending)⟩
  obtain ⟨hnext, hkept, hback⟩ := hentries
  have holdKey {q' : Prospective} (hq' : q' ∈ store.entries) : pm.key ≠ q'.key := by
    obtain ⟨p, hp, hkey⟩ := h.key_mem hq'
    exact fun heq => hfresh p hp (hkey.trans heq.symm)
  refine ⟨?_, ?_, ?_, ?_, ?_⟩
  · rw [hnext, htake.1, h.next]
  · rw [hkept, hfirst, h.stored, List.map_append, List.map_singleton]
  · intro q hq
    rw [List.forall_mem_append, List.forall_mem_singleton]
    rcases hback q hq with ⟨q', hq', -, hkey, hstatus⟩ | ⟨-, hkey, hstatus⟩
    · rw [hstatus, hkey, h.status q' hq']
      exact ⟨fun hall => ⟨hall, fun heq => absurd heq (holdKey hq')⟩, And.left⟩
    · rw [hstatus, hkey]
      exact ⟨fun hpending => ⟨fun p hp heq => absurd heq (hfresh p hp), fun _ => hpending⟩,
        fun hall => hall.2 rfl⟩
  · intro k hk p hp
    rw [htake.2] at hk
    by_cases hkey : k = pm.key
    · rw [hkey, Function.update_self] at hk
      cases hk
    rw [Function.update_of_ne hkey] at hk
    rcases List.mem_append.mp hp with hold | hnew
    · exact h.fresh k hk p hold
    · rw [List.mem_singleton.mp hnew]
      exact fun heq => hkey heq.symm
  · intro k id pending hk
    rw [htake.2] at hk
    by_cases hkey : k = pm.key
    · rw [hkey, Function.update_self, Option.some.injEq, Prod.mk.injEq] at hk
      obtain ⟨rfl, rfl⟩ := hk
      refine ⟨⟨pm, List.mem_append_right _ List.mem_cons_self, hkey.symm⟩, ?_, ?_⟩
      · intro q hq
        rw [hkey, ← h.next]
        rcases hback q hq with ⟨q', hq', hnode, hsame, -⟩ | ⟨hnode, hsame, -⟩
        · refine iff_of_false ?_ ?_
          · rw [hnode]
            exact Nat.ne_of_lt (store.below q' hq')
          · rw [hsame]
            exact fun heq => holdKey hq' heq.symm
        · exact iff_of_true hnode hsame
      · intro hfalse
        rw [Bool.not_eq_false', decide_eq_true_eq] at hfalse
        exact ⟨pm, List.mem_append_right _ List.mem_cons_self, hkey.symm, hfalse⟩
    · rw [Function.update_of_ne hkey] at hk
      obtain ⟨⟨p, hp, hpkey⟩, hid, hterminal⟩ := h.seen k id pending hk
      refine ⟨⟨p, List.mem_append_left _ hp, hpkey⟩, ?_, ?_⟩
      · intro q hq
        rcases hback q hq with ⟨q', hq', hnode, hsame, -⟩ | ⟨hnode, hsame, -⟩
        · rw [hnode, hsame]
          exact hid q' hq'
        · rw [hnode, hsame]
          exact iff_of_false (Nat.ne_of_gt (h.id_lt hk)) fun heq => hkey heq.symm
      · intro hfalse
        obtain ⟨p', hp', hhandled⟩ := hterminal hfalse
        exact ⟨p', List.mem_append_left _ hp', hhandled⟩

theorem perform_append (s : CognitiveStore) (left right : List MemoryCall) :
    s.perform (left ++ right) = (s.perform left).perform right := by
  simp [CognitiveStore.perform]

theorem scanned_import (s : CognitiveStore) (hempty : s.prospective = .empty)
    (pros : List Prospective) :
    Scanned pros (pros.foldl ProspectiveScan.take ⟨[], 0, fun _ => none⟩)
      (s.perform (pros.foldl ProspectiveScan.take ⟨[], 0, fun _ => none⟩).calls).prospective := by
  induction pros using List.reverseRecOn with
  | nil =>
    rw [List.foldl_nil]
    change Scanned [] _ s.prospective
    rw [hempty]
    exact scanned_nil
  | append_singleton pros pm ih =>
    rw [List.foldl_append, List.foldl_cons, List.foldl_nil]
    generalize pros.foldl ProspectiveScan.take ⟨[], 0, fun _ => none⟩ = scan at ih
    cases hseen : scan.seen pm.key with
    | none =>
      refine ih.first hseen ?_
      simp only [ProspectiveScan.take, hseen, perform_append]
      split
      · rfl
      · rfl
    | some entry =>
      obtain ⟨existing, pending⟩ := entry
      refine ih.again hseen ?_
      simp only [ProspectiveScan.take, hseen, perform_append]
      split
      · rfl
      · rfl

theorem stores_scan (pros : List Prospective) :
    ((pros.foldl ProspectiveScan.take ⟨[], 0, fun _ => none⟩).calls).filterMap MemoryCall.stores =
      (firstListed pros).map Prospective.key := by
  induction pros using List.reverseRecOn with
  | nil => rfl
  | append_singleton pros pm ih =>
    have hscanned := scanned_import .empty rfl pros
    rw [List.foldl_append, List.foldl_cons, List.foldl_nil, firstListed, unseen_append]
    generalize pros.foldl ProspectiveScan.take ⟨[], 0, fun _ => none⟩ = scan at ih hscanned
    cases hseen : scan.seen pm.key with
    | none =>
      rw [if_neg, List.map_append, List.map_singleton]
      · simp only [ProspectiveScan.take, hseen, List.filterMap_append, ih]
        split
        · rfl
        · rfl
      · rintro (hnil | hmem)
        · cases hnil
        · obtain ⟨p, hp, hkey⟩ := List.mem_map.mp hmem
          exact hscanned.fresh pm.key hseen p hp hkey
    | some entry =>
      obtain ⟨existing, pending⟩ := entry
      obtain ⟨⟨p, hp, hkey⟩, -⟩ := hscanned.seen _ _ _ hseen
      rw [if_pos (.inr (hkey ▸ List.mem_map_of_mem hp)), List.append_nil]
      simp only [ProspectiveScan.take, hseen, List.filterMap_append, ih]
      split
      · exact List.append_nil _
      · exact List.append_nil _

theorem importFullSnapshot_empty (listing : Listing) (snapshot : FullMemorySnapshot) :
    importFullSnapshot listing .empty snapshot =
      .searchFacts :: (unseen CognitiveFact.key [] snapshot.facts).map .storeFact ++
      .recallProcedure :: (unseen CognitiveProcedure.key [] snapshot.procedures).map
        .storeProcedure ++
      .listAllEpisodes :: (unseen CognitiveEpisode.key [] snapshot.episodes).map .storeEpisode ++
      .listAllProspective ::
        (snapshot.prospective.foldl ProspectiveScan.take ⟨[], 0, fun _ => none⟩).calls := by
  have hfacts : CognitiveStore.listFacts listing .empty = [] := (listing.facts_perm []).eq_nil
  have hprocedures : listing.procedures [] = [] := (listing.procedures_perm []).eq_nil
  have hepisodes : listing.episodes [] = [] := (listing.episodes_perm []).eq_nil
  have hprospective : listing.prospective [] = [] := (listing.prospective_perm []).eq_nil
  unfold importFullSnapshot importProspective
  rw [hfacts]
  simp only [CognitiveStore.empty, ProspectiveStore.empty, hprocedures, hepisodes, hprospective,
    List.map_nil]
  rfl

theorem filterMap_stores_map {α : Type} {call : α → MemoryCall} {key : α → DedupKey}
    (h : ∀ a, (call a).stores = some (key a)) (l : List α) :
    (l.map call).filterMap MemoryCall.stores = l.map key := by
  rw [List.filterMap_map]
  simp only [Function.comp_def, h, List.filterMap_eq_map']

theorem stores_import (listing : Listing) (snapshot : FullMemorySnapshot) :
    ((importFullSnapshot listing .empty snapshot).filterMap MemoryCall.stores).Nodup ∧
      ∀ k, k ∈ (importFullSnapshot listing .empty snapshot).filterMap MemoryCall.stores ↔
        k ∈ snapshot.keys := by
  have hstores : (importFullSnapshot listing .empty snapshot).filterMap MemoryCall.stores =
      (unseen CognitiveFact.key [] snapshot.facts).map CognitiveFact.key ++
      (unseen CognitiveProcedure.key [] snapshot.procedures).map CognitiveProcedure.key ++
      (unseen CognitiveEpisode.key [] snapshot.episodes).map CognitiveEpisode.key ++
      (firstListed snapshot.prospective).map Prospective.key := by
    rw [importFullSnapshot_empty]
    simp only [List.filterMap_append, List.cons_append, List.filterMap_cons, MemoryCall.stores,
      @filterMap_stores_map _ .storeFact CognitiveFact.key fun _ => rfl,
      @filterMap_stores_map _ .storeProcedure CognitiveProcedure.key fun _ => rfl,
      @filterMap_stores_map _ .storeEpisode CognitiveEpisode.key fun _ => rfl, stores_scan]
  rw [hstores]
  constructor
  · simp only [List.nodup_append, nodup_map_unseen, firstListed, true_and, List.mem_append,
      List.mem_map]
    refine ⟨⟨?_, ?_⟩, ?_⟩
    · rintro _ ⟨f, -, rfl⟩ _ ⟨p, -, rfl⟩
      exact nofun
    · rintro _ (⟨f, -, rfl⟩ | ⟨f, -, rfl⟩) _ ⟨p, -, rfl⟩
      · exact nofun
      · exact nofun
    · rintro _ ((⟨f, -, rfl⟩ | ⟨f, -, rfl⟩) | ⟨f, -, rfl⟩) _ ⟨p, -, rfl⟩
      · exact nofun
      · exact nofun
      · exact nofun
  · intro k
    simp only [FullMemorySnapshot.keys, List.mem_append, firstListed, mem_map_unseen,
      List.not_mem_nil, not_false_eq_true, true_and]

def restored (listing : Listing) (snapshot : FullMemorySnapshot) : CognitiveStore :=
  CognitiveStore.empty.perform (importFullSnapshot listing .empty snapshot)

theorem mem_keys_restored (listing : Listing) (snapshot : FullMemorySnapshot) {k : DedupKey} :
    k ∈ (restored listing snapshot).keys ↔ k ∈ snapshot.keys := by
  have hempty : k ∉ CognitiveStore.empty.keys := List.not_mem_nil
  rw [restored, mem_keys_perform, (stores_import listing snapshot).2 k, or_iff_right hempty]

theorem prospective_perform_map {α : Type} {call : α → MemoryCall}
    (h : ∀ s a, (CognitiveStore.apply s (call a)).prospective = s.prospective) {read : MemoryCall}
    (hread : ∀ s, CognitiveStore.apply s read = s) (l : List α) (s : CognitiveStore) :
    (s.perform (read :: l.map call)).prospective = s.prospective := by
  change ((s.apply read).perform (l.map call)).prospective = s.prospective
  rw [hread]
  induction l generalizing s with
  | nil => rfl
  | cons a l ih => exact (ih (s.apply (call a))).trans (h s a)

theorem scanned_restored (listing : Listing) (snapshot : FullMemorySnapshot) :
    ∃ scan, Scanned snapshot.prospective scan (restored listing snapshot).prospective := by
  rw [restored, importFullSnapshot_empty, perform_append]
  refine ⟨_, scanned_import _ ?_ snapshot.prospective⟩
  have hlist (s : CognitiveStore) : s.apply .listAllProspective = s := rfl
  rw [hlist, perform_append, perform_append, prospective_perform_map (fun _ _ => rfl) fun _ => rfl,
    prospective_perform_map (fun _ _ => rfl) fun _ => rfl,
    prospective_perform_map (fun _ _ => rfl) fun _ => rfl]
  rfl

end Simard.Memory
