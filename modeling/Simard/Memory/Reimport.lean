import Simard.Memory.Snapshots

/-! Importing a snapshot into a store that holds something already, and importing it again after one
that stopped. What the store lists is written once at most, and what the snapshot has as handled
does not come back. -/
namespace Simard.Memory
open Simard.Library

def CognitiveStore.listed (s : CognitiveStore) : List DedupKey :=
  (s.facts.filter fun f => 0 ≤ f.confidence).map CognitiveFact.key ++
    s.procedures.map CognitiveProcedure.key ++ s.episodes.map CognitiveEpisode.key ++
    s.prospective.entries.map Prospective.key

def importStopped (snapshot : FullMemorySnapshot) (s : CognitiveStore) (attempt : Listing × Nat) :
    CognitiveStore :=
  s.perform ((importFullSnapshot attempt.1 s snapshot).take attempt.2)

def reimported (snapshot : FullMemorySnapshot) (memory : CognitiveStore)
    (attempts : List (Listing × Nat))
    (listing : Listing) : CognitiveStore :=
  let left := attempts.foldl (importStopped snapshot) memory
  left.perform (importFullSnapshot listing left snapshot)

def MemoryCall.plain : MemoryCall → Bool
  | .storeFact fact => 0 ≤ fact.confidence
  | _ => true

theorem count_listed_apply (s : CognitiveStore) {c : MemoryCall} (hplain : c.plain = true)
    (k : DedupKey) : (s.apply c).listed.count k = s.listed.count k + c.stores.toList.count k := by
  unfold CognitiveStore.listed
  cases c with
  | storeFact fact =>
    have hlisted : (s.facts ++ [fact]).filter (fun f => 0 ≤ f.confidence) =
        s.facts.filter (fun f => 0 ≤ f.confidence) ++ [fact] := by
      have hfact : decide (0 ≤ fact.confidence) = true := hplain
      rw [List.filter_append, List.filter_cons, if_pos hfact, List.filter_nil]
    simp only [CognitiveStore.apply, hlisted, List.map_append, List.count_append, MemoryCall.stores,
      Option.toList_some, List.map_singleton]
    omega
  | storeProcedure _ | storeEpisode _ =>
    simp only [CognitiveStore.apply, List.map_append, List.count_append, MemoryCall.stores,
      Option.toList_some, List.map_singleton]
    omega
  | storeProspective _ _ _ _ =>
    simp only [CognitiveStore.apply, ProspectiveStore.storeProspective, List.map_append,
      List.count_append, MemoryCall.stores, Option.toList_some, List.map_singleton, Prospective.key]
    omega
  | resolveProspective nodeId =>
    simp only [CognitiveStore.apply, ProspectiveStore.resolveProspective, keys_mark]
    rfl
  | getStatistics | searchFacts | recallProcedure | listAllEpisodes | listAllProspective
  | checkpoint => rfl

theorem count_listed_perform (s : CognitiveStore) {calls : List MemoryCall}
    (hplain : ∀ c ∈ calls, c.plain = true) (k : DedupKey) : (s.perform calls).listed.count k =
      s.listed.count k + (calls.filterMap MemoryCall.stores).count k := by
  induction calls generalizing s with
  | nil => rfl
  | cons c calls ih =>
    rw [List.forall_mem_cons] at hplain
    have hstep : s.perform (c :: calls) = (s.apply c).perform calls := rfl
    rw [hstep, ih _ hplain.2, count_listed_apply s hplain.1, Nat.add_assoc, ← List.count_append]
    congr 2
    cases hstores : c.stores with
    | none => rw [List.filterMap_cons_none hstores]; rfl
    | some key => rw [List.filterMap_cons_some hstores]; rfl

theorem listedProspective_eq_none {entries : List Prospective} {k : DedupKey} :
    listedProspective entries k = none ↔ k ∉ entries.map Prospective.key := by
  unfold listedProspective
  induction entries using List.reverseRecOn with
  | nil => simp
  | append_singleton entries p ih =>
    rw [List.foldl_append, List.foldl_cons, List.foldl_nil, List.map_append, List.map_singleton,
      List.mem_append, List.mem_singleton, not_or, ← ih, Function.update_apply]
    split
    next hkey => simp [hkey]
    next hkey => simp [hkey]

theorem stores_scan_from (scan : ProspectiveScan) {seen : List DedupKey}
    (hseen : ∀ k, scan.seen k = none ↔ k ∉ seen) (pros : List Prospective) :
    (pros.foldl ProspectiveScan.take scan).calls.filterMap MemoryCall.stores =
      scan.calls.filterMap MemoryCall.stores ++
        (unseen Prospective.key seen pros).map Prospective.key := by
  induction pros generalizing scan seen with
  | nil => exact (List.append_nil _).symm
  | cons pm pros ih =>
    rw [List.foldl_cons]
    cases hknown : scan.seen pm.key with
    | none =>
      have hnew := (hseen pm.key).mp hknown
      have htake : ∀ k, (scan.take pm).seen k = none ↔ k ∉ pm.key :: seen := by
        intro k
        simp only [ProspectiveScan.take, hknown, Function.update_apply, List.mem_cons, not_or]
        split
        next hkey => simp [hkey]
        next hkey => simp [hkey, hseen]
      rw [ih _ htake, unseen, if_neg hnew, List.map_cons, List.append_cons]
      congr 1
      simp only [ProspectiveScan.take, hknown, List.filterMap_append]
      split
      · rfl
      · rfl
    | some entry =>
      obtain ⟨existing, pending⟩ := entry
      have hold : pm.key ∈ seen := by
        by_contra hnew
        rw [(hseen pm.key).mpr hnew] at hknown
        cases hknown
      have htake : (scan.take pm).seen = scan.seen := by
        simp only [ProspectiveScan.take, hknown]
      rw [ih _ (by rw [htake]; exact hseen), unseen, if_pos hold]
      congr 1
      simp only [ProspectiveScan.take, hknown, List.filterMap_append]
      split
      · exact List.append_nil _
      · exact List.append_nil _

theorem stores_importFullSnapshot (listing : Listing) (s : CognitiveStore)
    (snapshot : FullMemorySnapshot) :
    (importFullSnapshot listing s snapshot).filterMap MemoryCall.stores =
      (unseen CognitiveFact.key ((s.listFacts listing).map CognitiveFact.key) snapshot.facts).map
        CognitiveFact.key ++
      (unseen CognitiveProcedure.key ((listing.procedures s.procedures).map CognitiveProcedure.key)
        snapshot.procedures).map CognitiveProcedure.key ++
      (unseen CognitiveEpisode.key ((listing.episodes s.episodes).map CognitiveEpisode.key)
        snapshot.episodes).map CognitiveEpisode.key ++
      (unseen Prospective.key ((listing.prospective s.prospective.entries).map Prospective.key)
        snapshot.prospective).map Prospective.key := by
  unfold importFullSnapshot importProspective
  simp only [List.filterMap_append, List.cons_append, List.filterMap_cons, MemoryCall.stores,
    @filterMap_stores_map _ .storeFact CognitiveFact.key fun _ => rfl,
    @filterMap_stores_map _ .storeProcedure CognitiveProcedure.key fun _ => rfl,
    @filterMap_stores_map _ .storeEpisode CognitiveEpisode.key fun _ => rfl]
  refine congrArg _ ?_
  exact stores_scan_from ⟨[], _, listedProspective _⟩ (fun _ => listedProspective_eq_none) _

theorem nodup_kinds {facts : List CognitiveFact} {procedures : List CognitiveProcedure}
    {episodes : List CognitiveEpisode} {pros : List Prospective}
    (hfacts : (facts.map CognitiveFact.key).Nodup)
    (hprocedures : (procedures.map CognitiveProcedure.key).Nodup)
    (hepisodes : (episodes.map CognitiveEpisode.key).Nodup)
    (hpros : (pros.map Prospective.key).Nodup) :
    (facts.map CognitiveFact.key ++ procedures.map CognitiveProcedure.key ++
      episodes.map CognitiveEpisode.key ++ pros.map Prospective.key).Nodup := by
  simp only [List.nodup_append, hfacts, hprocedures, hepisodes, hpros, true_and, List.mem_append,
    List.mem_map]
  refine ⟨⟨?_, ?_⟩, ?_⟩
  · rintro _ ⟨f, -, rfl⟩ _ ⟨p, -, rfl⟩ h
    cases h
  · rintro _ (⟨f, -, rfl⟩ | ⟨f, -, rfl⟩) _ ⟨p, -, rfl⟩ h
    · cases h
    · cases h
  · rintro _ ((⟨f, -, rfl⟩ | ⟨f, -, rfl⟩) | ⟨f, -, rfl⟩) _ ⟨p, -, rfl⟩ h
    · cases h
    · cases h
    · cases h

section Import
variable (listing : Listing) (s : CognitiveStore) (snapshot : FullMemorySnapshot)

theorem nodup_stores :
    ((importFullSnapshot listing s snapshot).filterMap MemoryCall.stores).Nodup := by
  rw [stores_importFullSnapshot]
  exact nodup_kinds (nodup_map_unseen _ _) (nodup_map_unseen _ _) (nodup_map_unseen _ _)
    (nodup_map_unseen _ _)

theorem mem_stores {k : DedupKey} :
    k ∈ (importFullSnapshot listing s snapshot).filterMap MemoryCall.stores ↔
      k ∉ s.listed ∧ k ∈ snapshot.keys := by
  have hfacts : (k ∈ (s.listFacts listing).map CognitiveFact.key) ↔
      k ∈ (s.facts.filter fun f => 0 ≤ f.confidence).map CognitiveFact.key :=
    ((listing.facts_perm _).map _).mem_iff
  have hprocedures :=
    ((listing.procedures_perm s.procedures).map CognitiveProcedure.key).mem_iff (a := k)
  have hepisodes := ((listing.episodes_perm s.episodes).map CognitiveEpisode.key).mem_iff (a := k)
  have hpros :=
    ((listing.prospective_perm s.prospective.entries).map Prospective.key).mem_iff (a := k)
  rw [stores_importFullSnapshot]
  simp only [List.mem_append, mem_map_unseen, hfacts, hprocedures, hepisodes, hpros,
    CognitiveStore.listed, FullMemorySnapshot.keys]
  cases k with
  | fact _ _ | procedure _ | episode _ | prospective _ _ =>
    simp [CognitiveFact.key, CognitiveProcedure.key, CognitiveEpisode.key, Prospective.key]

theorem plain_take (pm : Prospective) (scan : ProspectiveScan)
    (h : ∀ c ∈ scan.calls, MemoryCall.plain c = true) : ∀ c ∈ (scan.take pm).calls,
      c.plain = true := by
  cases hseen : scan.seen pm.key with
  | none =>
    simp only [ProspectiveScan.take, hseen]
    intro c hc
    rcases List.mem_append.mp hc with hold | hnew
    · exact h c hold
    · rcases List.mem_cons.mp hnew with rfl | hresolve
      · rfl
      · split at hresolve
        · rw [List.mem_singleton.mp hresolve]
          rfl
        · cases hresolve
  | some entry =>
    obtain ⟨existing, pending⟩ := entry
    simp only [ProspectiveScan.take, hseen]
    intro c hc
    rcases List.mem_append.mp hc with hold | hresolve
    · exact h c hold
    · split at hresolve
      · rw [List.mem_singleton.mp hresolve]
        rfl
      · cases hresolve

theorem plain_scan (scan : ProspectiveScan) (h : ∀ c ∈ scan.calls, MemoryCall.plain c = true)
    (pros : List Prospective) : ∀ c ∈ (pros.foldl ProspectiveScan.take scan).calls,
      c.plain = true := by
  induction pros generalizing scan with
  | nil => exact h
  | cons pm pros ih => exact ih _ (plain_take pm scan h)

variable {snapshot} (hconfidence : ∀ f ∈ snapshot.facts, 0 ≤ f.confidence)
include hconfidence

theorem plain_import : ∀ c ∈ importFullSnapshot listing s snapshot, c.plain = true := by
  unfold importFullSnapshot importProspective
  intro c hc
  simp only [List.cons_append, List.mem_cons, List.mem_append, List.mem_map] at hc
  rcases hc with rfl | (((⟨f, hf, rfl⟩ | rfl | ⟨p, -, rfl⟩) | rfl | ⟨e, -, rfl⟩) | rfl | hscan)
  · rfl
  · exact decide_eq_true (hconfidence f ((unseen_sublist _ _).subset hf))
  · rfl
  · rfl
  · rfl
  · rfl
  · rfl
  · exact plain_scan _ (List.forall_mem_nil _) _ c hscan

theorem count_import (k : DedupKey) :
    (s.perform (importFullSnapshot listing s snapshot)).listed.count k =
    if k ∈ snapshot.keys then max 1 (s.listed.count k) else s.listed.count k := by
  rw [count_listed_perform s (plain_import listing s hconfidence),
    (nodup_stores listing s snapshot).count]
  simp only [mem_stores, ← List.count_pos_iff (l := s.listed)]
  split
  next hnew => rw [if_pos hnew.2]; omega
  next hold =>
    split
    next hkey =>
      have hlisted : 0 < s.listed.count k := not_not.mp fun h => hold ⟨h, hkey⟩
      omega
    next => rfl

theorem count_importStopped (attempt : Listing × Nat) (k : DedupKey) :
    (importStopped snapshot s attempt).listed.count k = s.listed.count k ∨
      k ∈ snapshot.keys ∧ s.listed.count k = 0 ∧
        (importStopped snapshot s attempt).listed.count k = 1 := by
  unfold importStopped
  have hplain : ∀ c ∈ (importFullSnapshot attempt.1 s snapshot).take attempt.2, c.plain = true :=
    fun c hc => plain_import attempt.1 s hconfidence c (List.mem_of_mem_take hc)
  have hpart : (((importFullSnapshot attempt.1 s snapshot).take attempt.2).filterMap
      MemoryCall.stores).Sublist
        ((importFullSnapshot attempt.1 s snapshot).filterMap MemoryCall.stores) :=
    (List.take_sublist _ _).filterMap _
  rw [count_listed_perform s hplain, (hpart.nodup (nodup_stores attempt.1 s snapshot)).count]
  split
  next hwritten =>
    have hnew := (mem_stores attempt.1 s snapshot).mp (hpart.subset hwritten)
    have hnone : s.listed.count k = 0 := List.count_eq_zero.mpr hnew.1
    exact Or.inr ⟨hnew.2, hnone, by rw [hnone]⟩
  next => exact Or.inl (Nat.add_zero _)

end Import

def Grown (snapshot : FullMemorySnapshot) (memory s : CognitiveStore) : Prop :=
  ∀ k, s.listed.count k = memory.listed.count k ∨
    k ∈ snapshot.keys ∧ memory.listed.count k = 0 ∧ s.listed.count k = 1

theorem grown_attempts {snapshot : FullMemorySnapshot}
    (hconfidence : ∀ f ∈ snapshot.facts, 0 ≤ f.confidence)
    (memory : CognitiveStore) (attempts : List (Listing × Nat)) :
    Grown snapshot memory (attempts.foldl (importStopped snapshot) memory) := by
  induction attempts using List.reverseRecOn with
  | nil => exact fun k => Or.inl rfl
  | append_singleton attempts attempt ih =>
    rw [List.foldl_append, List.foldl_cons, List.foldl_nil]
    intro k
    rcases ih k with hsame | ⟨hkey, hnone, hone⟩
    · rw [← hsame]
      exact count_importStopped _ hconfidence attempt k
    · rcases count_importStopped _ hconfidence attempt k with hkept | ⟨-, hzero, -⟩
      · exact Or.inr ⟨hkey, hnone, hkept.trans hone⟩
      · rw [hone] at hzero
        cases hzero

theorem count_reimported {snapshot : FullMemorySnapshot}
    (hconfidence : ∀ f ∈ snapshot.facts, 0 ≤ f.confidence) (memory : CognitiveStore)
    (attempts : List (Listing × Nat)) (listing : Listing) (k : DedupKey) :
    (reimported snapshot memory attempts listing).listed.count k =
      if k ∈ snapshot.keys then max 1 (memory.listed.count k) else memory.listed.count k := by
  unfold reimported
  dsimp only
  rw [count_import listing _ hconfidence]
  rcases grown_attempts hconfidence memory attempts k with hsame | ⟨hkey, hnone, hone⟩
  · rw [hsame]
  · rw [if_pos hkey, if_pos hkey, hone, hnone]
    rfl

/-- What a scan knows of a store whose prospective memories have different keys, and what it has
done to them after some records of a snapshot: none that is pending was handled according to these.
-/
structure Followed (pros : List Prospective) (scan : ProspectiveScan) (store : ProspectiveStore) :
    Prop where
  next : store.nextId = scan.next
  seen : ∀ q ∈ store.entries, ∃ pending, scan.seen q.key = some (q.nodeId, pending) ∧
    (q.status = .pending → pending = true)
  fresh : ∀ k, scan.seen k = none → ∀ p ∈ pros, p.key ≠ k
  handled : ∀ q ∈ store.entries, q.status = .pending → ∀ p ∈ pros, p.key = q.key →
    p.status = .pending

variable {pros : List Prospective} {scan : ProspectiveScan} {store : ProspectiveStore}
    {pm : Prospective}

theorem followed_nil {entries : List Prospective} (hlisted : entries.Perm store.entries)
    (hkeys : (store.entries.map Prospective.key).Nodup) :
    Followed [] ⟨[], store.nextId, listedProspective entries⟩ store := by
  refine ⟨rfl, fun q hq => ?_, fun _ _ => List.forall_mem_nil _, fun _ _ _ => List.forall_mem_nil _⟩
  refine ⟨decide (q.status = .pending), ?_, fun h => decide_eq_true h⟩
  have hnodup : (entries.map Prospective.key).Nodup := (hlisted.map _).nodup_iff.mpr hkeys
  have hmem : q ∈ entries := hlisted.mem_iff.mpr hq
  clear hlisted hkeys hq
  dsimp only
  unfold listedProspective
  induction entries using List.reverseRecOn with
  | nil => cases hmem
  | append_singleton entries p ih =>
    rw [List.map_append, List.map_singleton, List.nodup_append] at hnodup
    rw [List.foldl_append, List.foldl_cons, List.foldl_nil, Function.update_apply]
    rcases List.mem_append.mp hmem with hold | hlast
    · have hother : q.key ≠ p.key :=
        hnodup.2.2 _ (List.mem_map_of_mem hold) _ (List.mem_singleton.mpr rfl)
      rw [if_neg hother]
      exact ih hnodup.1 hold
    · rw [List.mem_singleton.mp hlast, if_pos rfl]

theorem Followed.again (h : Followed pros scan store) {existing : Nat} {pending : Bool}
    (hseen : scan.seen pm.key = some (existing, pending)) :
    Followed (pros ++ [pm]) (scan.take pm) (if pm.status ≠ .pending ∧ pending = true then
      store.resolveProspective existing else store) := by
  have htake : (scan.take pm).next = scan.next ∧ (scan.take pm).seen = scan.seen := by
    simp only [ProspectiveScan.take, hseen]
    exact ⟨trivial, trivial⟩
  have hfresh : ∀ k, (scan.take pm).seen k = none → ∀ p ∈ pros ++ [pm], p.key ≠ k := by
    intro k hk p hp
    rw [htake.2] at hk
    rcases List.mem_append.mp hp with hold | hnew
    · exact h.fresh k hk p hold
    · rintro rfl
      rw [List.mem_singleton.mp hnew, hseen] at hk
      cases hk
  split
  next hresolve =>
    refine ⟨by rw [htake.1]; exact h.next, fun q hq => ?_, hfresh,
      fun q hq hpending p hp hkey => ?_⟩
    · obtain ⟨q', hq', hnode, hsame, hstatus⟩ := mem_resolve hq
      obtain ⟨known, hknown, himp⟩ := h.seen q' hq'
      rw [htake.2, hsame, hnode]
      refine ⟨known, hknown, fun hstill => himp ?_⟩
      rw [hstatus] at hstill
      split at hstill
      · cases hstill
      · exact hstill
    · obtain ⟨q', hq', hnode, hsame, hstatus⟩ := mem_resolve hq
      rw [hstatus] at hpending
      split at hpending
      next => cases hpending
      next hother =>
        rw [hsame] at hkey
        rcases List.mem_append.mp hp with hold | hnew
        · exact h.handled q' hq' hpending p hold hkey
        · obtain ⟨known, hknown, -⟩ := h.seen q' hq'
          rw [List.mem_singleton.mp hnew] at hkey
          rw [← hkey, hseen] at hknown
          cases hknown
          exact absurd rfl hother
  next hkeep =>
    refine ⟨by rw [htake.1]; exact h.next, by rw [htake.2]; exact h.seen, hfresh,
      fun q hq hpending p hp hkey => ?_⟩
    rcases List.mem_append.mp hp with hold | hnew
    · exact h.handled q hq hpending p hold hkey
    · obtain ⟨known, hknown, himp⟩ := h.seen q hq
      rw [List.mem_singleton.mp hnew] at hkey ⊢
      rw [← hkey, hseen] at hknown
      cases hknown
      exact not_not.mp fun hterminal => hkeep ⟨hterminal, himp hpending⟩

theorem Followed.first (h : Followed pros scan store) (hseen : scan.seen pm.key = none)
    {added : ProspectiveStore} (hadded : added = store.storeProspective pm.description
      pm.triggerCondition pm.actionOnTrigger pm.priority) :
    Followed (pros ++ [pm]) (scan.take pm)
      (if pm.status ≠ .pending then added.resolveProspective scan.next else added) := by
  have hentries : ∀ q ∈ added.entries, q ∈ store.entries ∧ q.key ≠ pm.key ∧ q.nodeId ≠ scan.next ∨
      q.nodeId = scan.next ∧ q.key = pm.key := by
    intro q hq
    rw [hadded] at hq
    rcases List.mem_append.mp hq with hold | hnew
    · refine Or.inl ⟨hold, fun hkey => ?_, ?_⟩
      · obtain ⟨known, hknown, -⟩ := h.seen q hold
        rw [hkey, hseen] at hknown
        cases hknown
      · rw [← h.next]
        exact Nat.ne_of_lt (store.below q hold)
    · rw [List.mem_singleton.mp hnew]
      exact Or.inr ⟨h.next, rfl⟩
  have hback : ∀ q ∈ (if pm.status ≠ .pending then added.resolveProspective scan.next
      else added).entries, ∃ q' ∈ added.entries, q.nodeId = q'.nodeId ∧ q.key = q'.key ∧
        (q.status = .pending → q'.status = .pending ∧
          (q'.nodeId = scan.next → pm.status = .pending)) := by
    intro q hq
    split at hq
    next hterminal =>
      obtain ⟨q', hq', hnode, hsame, hstatus⟩ := mem_resolve hq
      refine ⟨q', hq', hnode, hsame, fun hpending => ?_⟩
      rw [hstatus] at hpending
      split at hpending
      next => cases hpending
      next hother => exact ⟨hpending, fun hid => absurd hid hother⟩
    next hpending => exact ⟨q, hq, rfl, rfl, fun hstill => ⟨hstill, fun _ => not_not.mp hpending⟩⟩
  refine ⟨?_, fun q hq => ?_, fun k hk p hp => ?_, fun q hq hpending p hp hkey => ?_⟩
  · simp only [ProspectiveScan.take, hseen]
    rw [← h.next]
    split
    · rw [hadded]; rfl
    · rw [hadded]; rfl
  · obtain ⟨q', hq', hnode, hsame, himp⟩ := hback q hq
    simp only [ProspectiveScan.take, hseen, hsame, hnode]
    rcases hentries q' hq' with ⟨hold, hother, -⟩ | ⟨hid, hkey⟩
    · rw [Function.update_of_ne hother]
      obtain ⟨known, hknown, hstatus⟩ := h.seen q' hold
      exact ⟨known, hknown, fun hstill => hstatus (himp hstill).1⟩
    · rw [hkey, hid, Function.update_self]
      refine ⟨_, rfl, fun hstill => ?_⟩
      rw [(himp hstill).2 hid]
      rfl
  · simp only [ProspectiveScan.take, hseen, Function.update_apply] at hk
    split at hk
    next => cases hk
    next hother =>
      rcases List.mem_append.mp hp with hold | hnew
      · exact h.fresh k hk p hold
      · rw [List.mem_singleton.mp hnew]
        exact Ne.symm hother
  · obtain ⟨q', hq', -, hsame, himp⟩ := hback q hq
    obtain ⟨hstill, hnew⟩ := himp hpending
    rw [hsame] at hkey
    rcases hentries q' hq' with ⟨hold, hother, -⟩ | ⟨hid, hkey'⟩
    · rcases List.mem_append.mp hp with hbefore | hlast
      · exact h.handled q' hold hstill p hbefore hkey
      · rw [List.mem_singleton.mp hlast] at hkey
        exact absurd hkey.symm hother
    · rcases List.mem_append.mp hp with hbefore | hlast
      · exact absurd (hkey.trans hkey') (h.fresh pm.key hseen p hbefore)
      · rw [List.mem_singleton.mp hlast]
        exact hnew hid

theorem followed_scan {s : CognitiveStore} (hstart : Followed [] scan s.prospective)
    (hcalls : scan.calls = []) (pros : List Prospective) :
    Followed pros (pros.foldl ProspectiveScan.take scan)
      (s.perform (pros.foldl ProspectiveScan.take scan).calls).prospective := by
  induction pros using List.reverseRecOn with
  | nil =>
    rw [List.foldl_nil, hcalls]
    exact hstart
  | append_singleton pros pm ih =>
    rw [List.foldl_append, List.foldl_cons, List.foldl_nil]
    generalize pros.foldl ProspectiveScan.take scan = reached at ih
    cases hseen : reached.seen pm.key with
    | none =>
      have hstep := ih.first hseen rfl
      have hperform : (s.perform (reached.take pm).calls).prospective =
          if pm.status ≠ .pending then
            ((s.perform reached.calls).prospective.storeProspective pm.description
              pm.triggerCondition
              pm.actionOnTrigger pm.priority).resolveProspective reached.next
          else (s.perform reached.calls).prospective.storeProspective pm.description
            pm.triggerCondition
            pm.actionOnTrigger pm.priority := by
        simp only [ProspectiveScan.take, hseen, perform_append]
        split
        · rfl
        · rfl
      rwa [hperform]
    | some entry =>
      obtain ⟨existing, pending⟩ := entry
      have hstep := ih.again hseen
      have hperform : (s.perform (reached.take pm).calls).prospective =
          if pm.status ≠ .pending ∧ pending = true then
            (s.perform reached.calls).prospective.resolveProspective existing
          else (s.perform reached.calls).prospective := by
        simp only [ProspectiveScan.take, hseen, perform_append]
        split
        · rfl
        · rfl
      rwa [hperform]

theorem prospective_before (s : CognitiveStore) (facts : List CognitiveFact)
    (procedures : List CognitiveProcedure) (episodes : List CognitiveEpisode) :
    (s.perform (.searchFacts :: facts.map .storeFact ++ .recallProcedure ::
      procedures.map .storeProcedure ++
      .listAllEpisodes :: episodes.map .storeEpisode)).prospective = s.prospective := by
  rw [perform_append, perform_append, prospective_perform_map (fun _ _ => rfl) fun _ => rfl,
    prospective_perform_map (fun _ _ => rfl) fun _ => rfl,
    prospective_perform_map (fun _ _ => rfl) fun _ => rfl]

theorem handled_import (listing : Listing) {s : CognitiveStore}
    (hkeys : (s.prospective.entries.map Prospective.key).Nodup) (snapshot : FullMemorySnapshot) :
    ∀ q ∈ (s.perform (importFullSnapshot listing s snapshot)).prospective.entries,
      q.status = .pending →
      ∀ p ∈ snapshot.prospective, p.key = q.key → p.status = .pending := by
  unfold importFullSnapshot
  rw [perform_append]
  refine (followed_scan ?_ rfl snapshot.prospective).handled
  change Followed [] _ (CognitiveStore.perform s _).prospective
  rw [prospective_before]
  exact followed_nil (listing.prospective_perm s.prospective.entries) hkeys

theorem count_listed_prospective (s : CognitiveStore) (trigger description : String) :
    s.listed.count (.prospective trigger description) =
      (s.prospective.entries.map Prospective.key).count (.prospective trigger description) := by
  have hfacts : ((s.facts.filter fun f => 0 ≤ f.confidence).map CognitiveFact.key).count
      (.prospective trigger description) = 0 := List.count_eq_zero.mpr (by simp [CognitiveFact.key])
  have hprocedures :
    (s.procedures.map CognitiveProcedure.key).count (.prospective trigger description) =
      0 := List.count_eq_zero.mpr (by simp [CognitiveProcedure.key])
  have hepisodes :
      (s.episodes.map CognitiveEpisode.key).count (.prospective trigger description) = 0 :=
    List.count_eq_zero.mpr (by simp [CognitiveEpisode.key])
  rw [CognitiveStore.listed, List.count_append, List.count_append, List.count_append,
    hfacts, hprocedures,
    hepisodes, Nat.zero_add]

theorem nodup_attempts {snapshot : FullMemorySnapshot}
    (hconfidence : ∀ f ∈ snapshot.facts, 0 ≤ f.confidence) {memory : CognitiveStore}
    (hkeys : (memory.prospective.entries.map Prospective.key).Nodup)
    (attempts : List (Listing × Nat)) :
    ((attempts.foldl (importStopped snapshot) memory).prospective.entries.map
      Prospective.key).Nodup := by
  rw [List.nodup_iff_count_le_one] at hkeys ⊢
  intro k
  by_cases hk :
    k ∈ (attempts.foldl (importStopped snapshot) memory).prospective.entries.map Prospective.key
  · obtain ⟨q, -, rfl⟩ := List.mem_map.mp hk
    have hgrown := grown_attempts hconfidence memory attempts q.key
    have hkey : q.key = .prospective q.triggerCondition q.description := rfl
    rw [hkey] at hgrown ⊢
    have hbefore := hkeys (.prospective q.triggerCondition q.description)
    rw [count_listed_prospective, count_listed_prospective] at hgrown
    omega
  · rw [List.count_eq_zero.mpr hk]
    exact Nat.zero_le _

/-- However often an import of a snapshot stopped, one that does not leaves every memory of it
listed and none written twice, and lists of the rest what was listed before. If the store had no
prospective memory twice, none is pending that the snapshot has as handled. -/
theorem reimport_completes (snapshot : FullMemorySnapshot)
    (hconfidence : ∀ f ∈ snapshot.facts, 0 ≤ f.confidence) (memory : CognitiveStore)
    (attempts : List (Listing × Nat)) (listing : Listing) :
    (∀ k, (reimported snapshot memory attempts listing).listed.count k =
      if k ∈ snapshot.keys then max 1 (memory.listed.count k) else memory.listed.count k) ∧
    ((memory.prospective.entries.map Prospective.key).Nodup →
      ∀ q ∈ (reimported snapshot memory attempts listing).prospective.entries, q.status = .pending →
        ∀ p ∈ snapshot.prospective, p.key = q.key → p.status = .pending) :=
  ⟨count_reimported hconfidence memory attempts listing,
    fun hkeys => handled_import listing (nodup_attempts hconfidence hkeys attempts) snapshot⟩

def handledSnapshot : FullMemorySnapshot :=
  ⟨[⟨"lesson-learned", "flush the cache first", 9 / 10, [], "distiller"⟩], [], [],
    [⟨7, "restart the daemon", "deploy", "restart", 1, .resolved⟩], "simard"⟩

def staleStore : CognitiveStore := { CognitiveStore.empty with
  prospective := ProspectiveStore.empty.storeProspective "restart the daemon" "deploy" "restart" 1 }

theorem handledSnapshot_reimported :
    (reimported handledSnapshot staleStore [(inOrder, 2)] inOrder).listed.count
        (.fact "lesson-learned" "flush the cache first") = 1 ∧
      ∀ q ∈ (reimported handledSnapshot staleStore [(inOrder, 2)] inOrder).prospective.entries,
        q.key = .prospective "deploy" "restart the daemon" → q.status ≠ .pending := by
  have hconfidence : ∀ f ∈ handledSnapshot.facts, 0 ≤ f.confidence := by
    simp only [handledSnapshot, List.forall_mem_singleton]
    norm_num
  obtain ⟨hcount, hhandled⟩ :=
    reimport_completes handledSnapshot hconfidence staleStore [(inOrder, 2)] inOrder
  refine ⟨(hcount _).trans (by decide), fun q hq hkey hpending => ?_⟩
  have hstatus := hhandled (by decide) q hq hpending _ (List.mem_singleton.mpr rfl) hkey.symm
  cases hstatus

end Simard.Memory
