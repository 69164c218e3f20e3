import Simard.Memory.IdeaMemory
import Simard.Library.LastWrite
import Mathlib.Data.Set.Card
import Mathlib.Logic.Relation

/-! Consolidation of the creative ideas. A cluster names an idea to keep and others that say the
same; the one is written again with a longer rationale, and the others as rejected. All clusters
are read against the ideas as they were listed at the start. -/
namespace Simard.Memory
open Simard.Library

structure Merge (κ : Type) where
  canonical : κ
  redundant : List κ

section Merges

variable {κ S : Type} (status : κ → S) (rejected : S)

def Merge.writes (merge : Merge κ) : List (κ × S) :=
  (merge.canonical, status merge.canonical) :: merge.redundant.map fun key => (key, rejected)

def mergeWrites (merges : List (Merge κ)) : List (κ × S) :=
  merges.flatMap (Merge.writes status rejected)

def allRedundant (merges : List (Merge κ)) : List κ := merges.flatMap Merge.redundant

/-- A merge rejects something, none of it rejected before, and not what it keeps. -/
structure Merge.Effective (merge : Merge κ) : Prop where
  nonempty : merge.redundant ≠ []
  apart : merge.canonical ∉ merge.redundant
  open_ : ∀ key ∈ merge.redundant, status key ≠ rejected

def CanonicalOf (merges : List (Merge κ)) (key canonical : κ) : Prop :=
  ∃ merge ∈ merges, key ∈ merge.redundant ∧ merge.canonical = canonical

/-- What is kept was not rejected at the start, no key is rejected twice, and none is kept after
it was rejected. -/
structure SoundMerges (merges : List (Merge κ)) : Prop where
  kept : ∀ merge ∈ merges, status merge.canonical ≠ rejected
  once : (allRedundant merges).Nodup
  ordered : merges.Pairwise fun earlier later => later.canonical ∉ earlier.redundant

variable {status rejected} {merges : List (Merge κ)}

theorem mem_allRedundant {key : κ} :
    key ∈ allRedundant merges ↔ ∃ merge ∈ merges, key ∈ merge.redundant := List.mem_flatMap

theorem write_of_mem {merge : Merge κ} {write : κ × S} (h : write ∈ merge.writes status rejected) :
    write = (merge.canonical, status merge.canonical) ∨
      write.1 ∈ merge.redundant ∧ write.2 = rejected := by
  rcases List.mem_cons.mp h with h | h
  · exact .inl h
  · obtain ⟨key, hkey, rfl⟩ := List.mem_map.mp h
    exact .inr ⟨hkey, rfl⟩

variable [DecidableEq κ]

theorem writeAll_kept {key : κ} (h : key ∉ allRedundant merges) :
    writeAll status (mergeWrites status rejected merges) key = status key := by
  apply writeAll_keeps _ rfl
  intro write hwrite hkey
  obtain ⟨merge, hmerge, hwrite⟩ := List.mem_flatMap.mp hwrite
  rcases write_of_mem hwrite with rfl | ⟨hredundant, -⟩
  · exact congrArg status hkey
  · exact absurd (mem_allRedundant.mpr ⟨merge, hmerge, hkey ▸ hredundant⟩) h

theorem writeAll_redundant
    (hordered : merges.Pairwise fun earlier later => later.canonical ∉ earlier.redundant)
    {key : κ} (h : key ∈ allRedundant merges)
    (hapart : ∀ merge ∈ merges, merge.canonical ∉ merge.redundant) :
    writeAll status (mergeWrites status rejected merges) key = rejected := by
  obtain ⟨merge, hmerge, hkey⟩ := mem_allRedundant.mp h
  obtain ⟨before, after, rfl⟩ := List.append_of_mem hmerge
  rw [mergeWrites, List.flatMap_append, List.flatMap_cons, writeAll_append]
  apply writeAll_has
  · intro write hwrite hwritten
    rcases List.mem_append.mp hwrite with hwrite | hwrite
    · rcases write_of_mem hwrite with rfl | ⟨-, hrejected⟩
      · have hkept : merge.canonical = key := hwritten
        exact absurd (hkept ▸ hkey) (hapart _ hmerge)
      · exact hrejected
    · obtain ⟨later, hlater, hwrite⟩ := List.mem_flatMap.mp hwrite
      rcases write_of_mem hwrite with rfl | ⟨-, hrejected⟩
      · have hpair := (List.pairwise_append.mp hordered).2.1
        have hkept : later.canonical = key := hwritten
        exact absurd (hkept ▸ hkey) (List.rel_of_pairwise_cons hpair hlater)
      · exact hrejected
  · apply List.mem_append_left
    exact List.mem_cons_of_mem _ (List.mem_map.mpr ⟨key, hkey, rfl⟩)

theorem exists_chain
    (hordered : merges.Pairwise fun earlier later => later.canonical ∉ earlier.redundant)
    (hapart : ∀ merge ∈ merges, merge.canonical ∉ merge.redundant) {key : κ}
    (h : key ∈ allRedundant merges) :
    ∃ last ∈ merges, Relation.TransGen (CanonicalOf merges) key last.canonical ∧
      last.canonical ∉ allRedundant merges := by
  induction merges generalizing key with
  | nil => cases h
  | cons merge rest ih =>
    rw [List.pairwise_cons] at hordered
    rw [List.forall_mem_cons] at hapart
    -- a chain in the rest is one in the whole, and its end is not redundant in the first merge
    have hlift : ∀ key ∈ allRedundant rest, ∃ last ∈ merge :: rest,
        Relation.TransGen (CanonicalOf (merge :: rest)) key last.canonical ∧
          last.canonical ∉ allRedundant (merge :: rest) := by
      intro key hkey
      obtain ⟨last, hlast, hchain, hend⟩ := ih hordered.2 hapart.2 hkey
      refine ⟨last, List.mem_cons_of_mem _ hlast, ?_, ?_⟩
      · refine hchain.lift id ?_
        rintro a b ⟨m, hm, hab⟩
        exact ⟨m, List.mem_cons_of_mem _ hm, hab⟩
      · rw [allRedundant, List.flatMap_cons, List.mem_append]
        rintro (hfirst | hrest)
        · exact hordered.1 last hlast hfirst
        · exact hend hrest
    rw [allRedundant, List.flatMap_cons, List.mem_append] at h
    rcases h with hfirst | hrest
    · have hstep : CanonicalOf (merge :: rest) key merge.canonical :=
        ⟨merge, List.mem_cons_self, hfirst, rfl⟩
      by_cases hmore : merge.canonical ∈ allRedundant rest
      · obtain ⟨last, hlast, hchain, hend⟩ := hlift _ hmore
        exact ⟨last, hlast, .head hstep hchain, hend⟩
      · refine ⟨merge, List.mem_cons_self, .single hstep, ?_⟩
        rw [allRedundant, List.flatMap_cons, List.mem_append]
        rintro (hown | hlater)
        · exact hapart.1 hown
        · exact hmore hlater
    · exact hlift key hrest

/-- What a merging keeps: a rejected key leads to one that is not, nothing that was written as
rejected is written otherwise, and as many become rejected as were counted. -/
structure MergesKeep (status : κ → S) (rejected : S) (merges : List (Merge κ)) : Prop where
  chains : ∀ key, status key ≠ rejected →
    writeAll status (mergeWrites status rejected merges) key = rejected →
    ∃ canonical, Relation.TransGen (CanonicalOf merges) key canonical ∧
      writeAll status (mergeWrites status rejected merges) canonical ≠ rejected
  final : (mergeWrites status rejected merges).Pairwise fun earlier later =>
    earlier.1 = later.1 → earlier.2 = rejected → later.2 = rejected
  counted : (allRedundant merges).length = {key | status key ≠ rejected ∧
    writeAll status (mergeWrites status rejected merges) key = rejected}.ncard

omit [DecidableEq κ] in
theorem ordered_iff_final (heffective : ∀ merge ∈ merges, merge.Effective status rejected) :
    (merges.Pairwise fun earlier later => later.canonical ∉ earlier.redundant) ↔
      (mergeWrites status rejected merges).Pairwise fun earlier later =>
        earlier.1 = later.1 → earlier.2 = rejected → later.2 = rejected := by
  rw [mergeWrites, List.pairwise_flatMap]
  constructor
  · intro hordered
    constructor
    · intro merge hmerge
      rw [Merge.writes, List.pairwise_cons]
      constructor
      · intro write hwrite _ _
        obtain ⟨key, -, rfl⟩ := List.mem_map.mp hwrite
        rfl
      · rw [List.pairwise_map]
        exact List.pairwise_of_forall fun _ _ _ _ => rfl
    · refine hordered.imp_of_mem ?_
      intro earlier later _ _ hkeeps x hx y hy hsame hx2
      rcases write_of_mem hy with rfl | ⟨-, hy2⟩
      · rcases write_of_mem hx with rfl | ⟨hx1, -⟩
        · have hcanonical : earlier.canonical = later.canonical := hsame
          exact (congrArg status hcanonical).symm.trans hx2
        · have hkey : x.1 = later.canonical := hsame
          exact absurd (hkey ▸ hx1) hkeeps
      · exact hy2
  · rintro ⟨-, hpairs⟩
    refine hpairs.imp_of_mem ?_
    intro earlier later hearlier _ hpair hmem
    have hstatus := hpair _ (List.mem_cons_of_mem _ (List.mem_map.mpr ⟨_, hmem, rfl⟩)) _
      List.mem_cons_self rfl rfl
    exact (heffective earlier hearlier).open_ _ hmem hstatus

theorem became_rejected (heffective : ∀ merge ∈ merges, merge.Effective status rejected)
    (hordered : merges.Pairwise fun earlier later => later.canonical ∉ earlier.redundant)
    (key : κ) :
    (status key ≠ rejected ∧ writeAll status (mergeWrites status rejected merges) key = rejected) ↔
      key ∈ allRedundant merges := by
  constructor
  · rintro ⟨hopen, hrejected⟩
    by_contra hkey
    rw [writeAll_kept hkey] at hrejected
    exact hopen hrejected
  · intro hkey
    obtain ⟨merge, hmerge, hredundant⟩ := mem_allRedundant.mp hkey
    exact ⟨(heffective merge hmerge).open_ key hredundant,
      writeAll_redundant hordered hkey fun merge hmerge => (heffective merge hmerge).apart⟩

theorem counted_iff_once (heffective : ∀ merge ∈ merges, merge.Effective status rejected)
    (hordered : merges.Pairwise fun earlier later => later.canonical ∉ earlier.redundant) :
    (allRedundant merges).length = {key | status key ≠ rejected ∧
      writeAll status (mergeWrites status rejected merges) key = rejected}.ncard ↔
        (allRedundant merges).Nodup := by
  have hset : {key | status key ≠ rejected ∧
      writeAll status (mergeWrites status rejected merges) key = rejected} =
        ↑(allRedundant merges).toFinset := by
    ext key
    rw [Set.mem_ofPred_eq, became_rejected heffective hordered, Finset.mem_coe, List.mem_toFinset]
  rw [hset, Set.ncard_coe_finset, List.card_toFinset, ← List.dedup_eq_self]
  constructor
  · intro hlength
    exact (List.dedup_sublist _).eq_of_length hlength.symm
  · intro hdedup
    rw [hdedup]

theorem kept_of_chains (heffective : ∀ merge ∈ merges, merge.Effective status rejected)
    (hkeep : MergesKeep status rejected merges) : SoundMerges status rejected merges := by
  have hordered := (ordered_iff_final heffective).mpr hkeep.final
  have honce := (counted_iff_once heffective hordered).mp hkeep.counted
  refine ⟨?_, honce, hordered⟩
  intro merge hmerge hrejected
  obtain ⟨key, hkey⟩ := List.exists_mem_of_ne_nil _ (heffective merge hmerge).nonempty
  have hbecame := (became_rejected heffective hordered key).mpr
    (mem_allRedundant.mpr ⟨merge, hmerge, hkey⟩)
  obtain ⟨canonical, hchain, hend⟩ := hkeep.chains key hbecame.1 hbecame.2
  -- what is kept in its place was rejected at the start, so nothing is kept in the place of that
  have hnever : merge.canonical ∉ allRedundant merges := by
    intro hredundant
    obtain ⟨other, hother, hmem⟩ := mem_allRedundant.mp hredundant
    exact (heffective other hother).open_ _ hmem hrejected
  have hsingle : canonical = merge.canonical := by
    rcases Relation.TransGen.head'_iff.mp hchain with ⟨next, ⟨other, hother, hmem, hnext⟩, hrest⟩
    have hsame : other = merge := by
      by_contra hne
      have hdisjoint := (List.nodup_flatMap.mp honce).2
      have hsymm : Std.Symm (Function.onFun List.Disjoint (Merge.redundant (κ := κ))) :=
        ⟨fun _ _ h => h.symm⟩
      exact hdisjoint.forall hother hmerge hne hmem hkey
    rw [hsame] at hnext
    rcases Relation.ReflTransGen.cases_head hrest with rfl | ⟨further, ⟨third, hthird, hin, -⟩, -⟩
    · exact hnext.symm
    · exact absurd (mem_allRedundant.mpr ⟨third, hthird, hnext ▸ hin⟩) hnever
  rw [hsingle, writeAll_kept hnever] at hend
  exact hend hrejected

theorem keep_of_sound (heffective : ∀ merge ∈ merges, merge.Effective status rejected)
    (hsound : SoundMerges status rejected merges) : MergesKeep status rejected merges := by
  refine ⟨?_, (ordered_iff_final heffective).mp hsound.ordered,
    (counted_iff_once heffective hsound.ordered).mpr hsound.once⟩
  intro key hopen hrejected
  have hkey := (became_rejected heffective hsound.ordered key).mp ⟨hopen, hrejected⟩
  obtain ⟨last, hlast, hchain, hend⟩ := exists_chain hsound.ordered
    (fun merge hmerge => (heffective merge hmerge).apart) hkey
  refine ⟨last.canonical, hchain, ?_⟩
  rw [writeAll_kept hend]
  exact hsound.kept last hlast

end Merges

/-- Which statuses may follow which; nothing follows rejection. -/
structure IdeaLifecycle (Status : Type) where
  rejected : Status
  canTransitionTo : Status → Status → Bool
  terminal : ∀ status, canTransitionTo rejected status = false

structure IdeaCluster where
  canonicalId : String
  redundantIds : List String
  mergedRationale : String
  evidence : List String

structure ConsolidationReport where
  clusters : Nat
  canonical : Nat
  rejected : Nat
  dryRun : Bool
  deriving DecidableEq

def maxMergedRationaleChars : Nat := 4000

def truncateChars (text : List Char) (max : Nat) : List Char :=
  if text.length ≤ max then text else text.take (max - 1) ++ ['…']

def addFragment (out add : List Char) : List Char :=
  let add := trim add
  if add = [] ∨ containsText add out then out
  else if out = [] then add
  else out ++ "\n\n[enhanced #2925] ".toList ++ add

def mergeRationale (existing : String) (additions : List String) : String :=
  String.ofList (truncateChars
    ((additions.map String.toList).foldl addFragment (trim existing.toList))
      maxMergedRationaleChars)

section Consolidate

variable {Status Kind Other : Type} {backend : IdeaBackend Status Kind Other}
  (lifecycle : IdeaLifecycle Status)

def CreativeIdea.tryTransition (idea : StoredIdea Status Kind Other) (status : Status) :
    Option (StoredIdea Status Kind Other) :=
  if lifecycle.canTransitionTo idea.status status then some { idea with status := status } else none

def redundantMembers (pool : List (StoredIdea Status Kind Other)) (cluster : IdeaCluster) :
    List (StoredIdea Status Kind Other) :=
  (((cluster.redundantIds.filter (· ≠ cluster.canonicalId)).filterMap fun id =>
    pool.find? (·.nodeId = id)).filter fun i =>
      lifecycle.canTransitionTo i.status lifecycle.rejected)

def strengthened (canonical : StoredIdea Status Kind Other) (cluster : IdeaCluster) :
    StoredIdea Status Kind Other :=
  { canonical with rest := { canonical.rest with context := { canonical.rest.context with
      rationale := mergeRationale canonical.rest.context.rationale
        [cluster.mergedRationale, "; ".intercalate cluster.evidence] } } }

@[simp] theorem strengthened_ideaId (canonical : StoredIdea Status Kind Other)
    (cluster : IdeaCluster) : (strengthened canonical cluster).ideaId = canonical.ideaId := by
  dsimp only [strengthened]

@[simp] theorem strengthened_status (canonical : StoredIdea Status Kind Other)
    (cluster : IdeaCluster) : (strengthened canonical cluster).status = canonical.status := by
  dsimp only [strengthened]

/-- The memory, what was written to it in this run, and the counts so far. -/
structure Consolidation (backend : IdeaBackend Status Kind Other) where
  memory : IdeaMemory backend
  written : List (StoredIdea Status Kind Other)
  report : ConsolidationReport

def Consolidation.update (run : Consolidation backend) (idea : StoredIdea Status Kind Other) :
    Consolidation backend :=
  { run with memory := run.memory.update idea, written := run.written ++ [idea] }

def collapseRedundant (apply : Bool) (run : Consolidation backend)
    (idea : StoredIdea Status Kind Other) : Option (Consolidation backend) := do
  let run ← if apply then
    (idea.tryTransition lifecycle lifecycle.rejected).map run.update else some run
  return { run with report := { run.report with rejected := run.report.rejected + 1 } }

def consolidateCluster (apply : Bool) (pool : List (StoredIdea Status Kind Other))
    (run : Consolidation backend) (cluster : IdeaCluster) : Option (Consolidation backend) :=
  match pool.find? (·.nodeId = cluster.canonicalId) with
  | none => some run
  | some canonical =>
      let redundant := redundantMembers lifecycle pool cluster
      if redundant = [] then some run
      else
        let run := { run with report := { run.report with clusters := run.report.clusters + 1 } }
        let run := if apply then run.update (strengthened canonical cluster) else run
        let run := { run with report := { run.report with canonical := run.report.canonical + 1 } }
        redundant.foldlM (collapseRedundant lifecycle apply) run

/-- The clusters are those that the brain returned for the listed ideas. -/
def consolidateExisting (apply : Bool) (memory : IdeaMemory backend) (clusters : List IdeaCluster) :
    Option (Consolidation backend) :=
  clusters.foldlM (consolidateCluster lifecycle apply (memory.list none))
    ⟨memory, [], ⟨0, 0, 0, !apply⟩⟩

end Consolidate

section Writes

variable {Status Kind Other : Type} {backend : IdeaBackend Status Kind Other}
  (lifecycle : IdeaLifecycle Status)

def clusterMerge (pool : List (StoredIdea Status Kind Other)) (cluster : IdeaCluster) :
    Option (Merge String) :=
  match pool.find? (·.nodeId = cluster.canonicalId) with
  | none => none
  | some canonical =>
      if redundantMembers lifecycle pool cluster = [] then none
      else
        some ⟨canonical.ideaId, (redundantMembers lifecycle pool cluster).map CreativeIdea.ideaId⟩

def clusterWrites (pool : List (StoredIdea Status Kind Other)) (cluster : IdeaCluster) :
    List (StoredIdea Status Kind Other) :=
  match pool.find? (·.nodeId = cluster.canonicalId) with
  | none => []
  | some canonical =>
      if redundantMembers lifecycle pool cluster = [] then []
      else strengthened canonical cluster :: (redundantMembers lifecycle pool cluster).map
        fun i => { i with status := lifecycle.rejected }

def Consolidation.advance (run : Consolidation backend) (apply : Bool)
    (writes : List (StoredIdea Status Kind Other)) (clusters rejected : Nat) :
    Consolidation backend where
  memory := if apply then writes.foldl IdeaMemory.update run.memory else run.memory
  written := if apply then run.written ++ writes else run.written
  report := ⟨run.report.clusters + clusters, run.report.canonical + clusters,
    run.report.rejected + rejected, run.report.dryRun⟩

variable {lifecycle}

theorem advance_advance (run : Consolidation backend) (apply : Bool)
    (writes writes' : List (StoredIdea Status Kind Other))
    (clusters clusters' rejected rejected' : Nat) :
    (run.advance apply writes clusters rejected).advance apply writes' clusters' rejected' =
      run.advance apply (writes ++ writes') (clusters + clusters') (rejected + rejected') := by
  cases apply <;> simp [Consolidation.advance, Nat.add_assoc]

theorem advance_nil (run : Consolidation backend) (apply : Bool) :
    run.advance apply [] 0 0 = run := by
  cases apply <;> simp [Consolidation.advance]

theorem foldlM_collapseRedundant (apply : Bool) (run : Consolidation backend)
    {redundant : List (StoredIdea Status Kind Other)}
    (h : ∀ i ∈ redundant, lifecycle.canTransitionTo i.status lifecycle.rejected) :
    redundant.foldlM (collapseRedundant lifecycle apply) run = some (run.advance apply
      (redundant.map fun i => { i with status := lifecycle.rejected }) 0 redundant.length) := by
  induction redundant generalizing run with
  | nil => rw [List.foldlM_nil, List.map_nil, List.length_nil, advance_nil]; rfl
  | cons i rest ih =>
    rw [List.forall_mem_cons] at h
    have hone : collapseRedundant lifecycle apply run i =
        some (run.advance apply [{ i with status := lifecycle.rejected }] 0 1) := by
      cases apply with
      | false => rfl
      | true =>
        rw [collapseRedundant, if_pos rfl, CreativeIdea.tryTransition, if_pos h.1]
        rfl
    rw [List.foldlM_cons, hone, Option.bind_eq_bind, Option.bind_some, ih _ h.2, advance_advance,
      List.map_cons, List.singleton_append, List.length_cons, Nat.zero_add, Nat.add_comm 1]

theorem consolidateCluster_eq (apply : Bool) (pool : List (StoredIdea Status Kind Other))
    (run : Consolidation backend) (cluster : IdeaCluster) :
    consolidateCluster lifecycle apply pool run cluster =
      some (run.advance apply (clusterWrites lifecycle pool cluster)
        (clusterMerge lifecycle pool cluster).toList.length
        (allRedundant (clusterMerge lifecycle pool cluster).toList).length) := by
  unfold consolidateCluster clusterWrites clusterMerge
  cases pool.find? (·.nodeId = cluster.canonicalId) with
  | none => exact congrArg some (advance_nil run apply).symm
  | some canonical =>
    dsimp only
    by_cases hnone : redundantMembers lifecycle pool cluster = []
    · rw [if_pos hnone, if_pos hnone, if_pos hnone]
      exact congrArg some (advance_nil run apply).symm
    · rw [if_neg hnone, if_neg hnone, if_neg hnone, foldlM_collapseRedundant]
      · have hsplit := advance_advance run apply [strengthened canonical cluster]
          ((redundantMembers lifecycle pool cluster).map fun i =>
            { i with status := lifecycle.rejected }) 1 0 0
          (redundantMembers lifecycle pool cluster).length
        rw [List.singleton_append, Nat.zero_add] at hsplit
        rw [Option.toList_some, allRedundant, List.flatMap_singleton, List.length_map,
          List.length_singleton, ← hsplit]
        cases apply <;> rfl
      · intro i hi
        exact (List.mem_filter.mp hi).2

def merges (lifecycle : IdeaLifecycle Status) (pool : List (StoredIdea Status Kind Other))
    (clusters : List IdeaCluster) : List (Merge String) :=
  clusters.filterMap (clusterMerge lifecycle pool)

theorem merges_cons (pool : List (StoredIdea Status Kind Other)) (cluster : IdeaCluster)
    (clusters : List IdeaCluster) : merges lifecycle pool (cluster :: clusters) =
      (clusterMerge lifecycle pool cluster).toList ++ merges lifecycle pool clusters := by
  rw [merges, List.filterMap_cons]
  cases clusterMerge lifecycle pool cluster <;> rfl

theorem foldlM_consolidateCluster (apply : Bool) (pool : List (StoredIdea Status Kind Other))
    (clusters : List IdeaCluster) (run : Consolidation backend) :
    clusters.foldlM (consolidateCluster lifecycle apply pool) run = some (run.advance apply
      (clusters.flatMap (clusterWrites lifecycle pool)) (merges lifecycle pool clusters).length
      (allRedundant (merges lifecycle pool clusters)).length) := by
  induction clusters generalizing run with
  | nil => exact congrArg some (advance_nil run apply).symm
  | cons cluster clusters ih =>
    rw [List.foldlM_cons, consolidateCluster_eq, Option.bind_eq_bind, Option.bind_some, ih,
      advance_advance, List.flatMap_cons, merges_cons, List.length_append, allRedundant,
      allRedundant, allRedundant, List.flatMap_append, List.length_append]

theorem consolidateExisting_eq (apply : Bool) (memory : IdeaMemory backend)
    (clusters : List IdeaCluster) :
    consolidateExisting lifecycle apply memory clusters =
      some ((⟨memory, [], ⟨0, 0, 0, !apply⟩⟩ : Consolidation backend).advance apply
        (clusters.flatMap (clusterWrites lifecycle (memory.list none)))
        (merges lifecycle (memory.list none) clusters).length
        (allRedundant (merges lifecycle (memory.list none) clusters)).length) :=
  foldlM_consolidateCluster apply _ clusters _

end Writes

section Statuses

variable {Status Kind Other : Type} {backend : IdeaBackend Status Kind Other}
  {lifecycle : IdeaLifecycle Status} {memory : IdeaMemory backend}

def IdeaMemory.status (memory : IdeaMemory backend) (ideaId : String) : Option Status :=
  (memory.current ideaId).map CreativeIdea.status

theorem status_updates {writes : List (StoredIdea Status Kind Other)}
    (h : ∀ i ∈ writes, i.ideaId ≠ "") :
    (writes.foldl IdeaMemory.update memory).status =
      writeAll memory.status (writes.map fun i => (i.ideaId, some i.status)) := by
  induction writes generalizing memory with
  | nil => rfl
  | cons i writes ih =>
    rw [List.forall_mem_cons] at h
    have hone : (memory.update i).status =
        Function.update memory.status i.ideaId (some i.status) := by
      funext ideaId
      rw [IdeaMemory.status, IdeaMemory.current_update h.1]
      by_cases hid : ideaId = i.ideaId
      · rw [hid, Function.update_self, Function.update_self]
        rfl
      · rw [Function.update_of_ne hid, Function.update_of_ne hid]
        rfl
    rw [List.foldl_cons, ih h.2, hone, List.map_cons, writeAll, writeAll, List.foldl_cons]

theorem status_of_list {i : StoredIdea Status Kind Other} (h : i ∈ memory.list none) :
    memory.status i.ideaId = some i.status := by
  rw [IdeaMemory.status, IdeaMemory.current_of_list h]
  rfl

theorem mem_redundantMembers {pool : List (StoredIdea Status Kind Other)} {cluster : IdeaCluster}
    {i : StoredIdea Status Kind Other} (h : i ∈ redundantMembers lifecycle pool cluster) :
    i ∈ pool ∧ i.nodeId ∈ cluster.redundantIds ∧ i.nodeId ≠ cluster.canonicalId ∧
      lifecycle.canTransitionTo i.status lifecycle.rejected := by
  obtain ⟨hmember, hopen⟩ := List.mem_filter.mp h
  obtain ⟨id, hid, hfound⟩ := List.mem_filterMap.mp hmember
  have hnode : i.nodeId = id := by simpa using List.find?_some hfound
  rw [List.mem_filter, decide_eq_true_eq] at hid
  exact ⟨List.mem_of_find?_eq_some hfound, hnode ▸ hid.1, hnode ▸ hid.2, hopen⟩

theorem open_of_canTransitionTo {i : StoredIdea Status Kind Other}
    (h : lifecycle.canTransitionTo i.status lifecycle.rejected) :
      i.status ≠ lifecycle.rejected := by
  intro hrejected
  rw [hrejected, lifecycle.terminal] at h
  cases h

theorem of_clusterMerge {pool : List (StoredIdea Status Kind Other)} {cluster : IdeaCluster}
    {merge : Merge String} (h : clusterMerge lifecycle pool cluster = some merge) :
    ∃ canonical, pool.find? (·.nodeId = cluster.canonicalId) = some canonical ∧
      redundantMembers lifecycle pool cluster ≠ [] ∧ merge = ⟨canonical.ideaId,
        (redundantMembers lifecycle pool cluster).map CreativeIdea.ideaId⟩ := by
  unfold clusterMerge at h
  split at h
  · cases h
  next canonical hfound =>
    split at h
    · cases h
    next hsome => exact ⟨canonical, hfound, hsome, (Option.some.inj h).symm⟩

theorem effective_merges (clusters : List IdeaCluster) :
    ∀ merge ∈ merges lifecycle (memory.list none) clusters,
      merge.Effective memory.status (some lifecycle.rejected) := by
  intro merge hmerge
  obtain ⟨cluster, -, hmerge⟩ := List.mem_filterMap.mp hmerge
  obtain ⟨canonical, hfound, hsome, rfl⟩ := of_clusterMerge hmerge
  have hcanonical := List.mem_of_find?_eq_some hfound
  have hnode : canonical.nodeId = cluster.canonicalId := by simpa using List.find?_some hfound
  refine ⟨fun hnil => hsome (List.map_eq_nil_iff.mp hnil), ?_, ?_⟩
  · intro hmem
    obtain ⟨i, hi, hid⟩ := List.mem_map.mp hmem
    obtain ⟨hlisted, -, hne, -⟩ := mem_redundantMembers hi
    have hsame :
      i = canonical := List.inj_on_of_nodup_map IdeaMemory.list_nodup hlisted hcanonical hid
    exact hne (hsame ▸ hnode)
  · intro ideaId hmem
    obtain ⟨i, hi, rfl⟩ := List.mem_map.mp hmem
    obtain ⟨hlisted, -, -, hopen⟩ := mem_redundantMembers hi
    rw [status_of_list hlisted]
    exact fun hrejected => open_of_canTransitionTo hopen (Option.some.inj hrejected)

theorem clusterWrites_statuses (cluster : IdeaCluster) :
    (clusterWrites lifecycle (memory.list none) cluster).map (fun i => (i.ideaId, some i.status)) =
      mergeWrites memory.status (some lifecycle.rejected)
        (clusterMerge lifecycle (memory.list none) cluster).toList := by
  unfold clusterWrites clusterMerge
  split
  · rfl
  next canonical hfound =>
    split
    · rfl
    · have hcanonical := status_of_list (List.mem_of_find?_eq_some hfound)
      rw [Option.toList_some, mergeWrites, List.flatMap_singleton, Merge.writes, List.map_cons,
        List.map_map, List.map_map, hcanonical, strengthened_ideaId, strengthened_status]
      rfl

theorem flatMap_clusterWrites_statuses (clusters : List IdeaCluster) :
    (clusters.flatMap (clusterWrites lifecycle (memory.list none))).map
        (fun i => (i.ideaId, some i.status)) =
      mergeWrites memory.status (some lifecycle.rejected)
        (merges lifecycle (memory.list none) clusters) := by
  induction clusters with
  | nil => rfl
  | cons cluster clusters ih =>
    rw [List.flatMap_cons, List.map_append, ih, clusterWrites_statuses, merges_cons, mergeWrites,
      mergeWrites, mergeWrites, List.flatMap_append]

theorem ideaId_of_clusterWrites {clusters : List IdeaCluster} {i : StoredIdea Status Kind Other}
    (h : i ∈ clusters.flatMap (clusterWrites lifecycle (memory.list none))) : i.ideaId ≠ "" := by
  have hlisted : ∀ j ∈ memory.list none, j.ideaId ≠ "" := fun j hj =>
    IdeaMemory.ideaId_ne_empty (IdeaMemory.mem_revisions_of_current (IdeaMemory.mem_list.mp hj))
  obtain ⟨cluster, -, hi⟩ := List.mem_flatMap.mp h
  unfold clusterWrites at hi
  split at hi
  · cases hi
  next canonical hfound =>
    split at hi
    · cases hi
    · rcases List.mem_cons.mp hi with rfl | hi
      · rw [strengthened_ideaId]
        exact hlisted canonical (List.mem_of_find?_eq_some hfound)
      · obtain ⟨j, hj, rfl⟩ := List.mem_map.mp hi
        exact hlisted j (mem_redundantMembers hj).1

def consolidated (lifecycle : IdeaLifecycle Status) (memory : IdeaMemory backend)
    (clusters : List IdeaCluster) : IdeaMemory backend :=
  (clusters.flatMap (clusterWrites lifecycle (memory.list none))).foldl IdeaMemory.update memory

theorem status_consolidated (clusters : List IdeaCluster) :
    (consolidated lifecycle memory clusters).status = writeAll memory.status
      (mergeWrites memory.status (some lifecycle.rejected)
        (merges lifecycle (memory.list none) clusters)) := by
  rw [consolidated, status_updates fun i hi => ideaId_of_clusterWrites hi,
    flatMap_clusterWrites_statuses]

end Statuses

section Promise

variable {Status Kind Other : Type} {backend : IdeaBackend Status Kind Other}
  (lifecycle : IdeaLifecycle Status) (memory : IdeaMemory backend) (clusters : List IdeaCluster)

def currentNodeId (before after : IdeaMemory backend) (nodeId : String) : Option String :=
  (before.get nodeId).bind fun idea => (after.current idea.ideaId).map CreativeIdea.nodeId

def translateCluster (before after : IdeaMemory backend) (cluster : IdeaCluster) :
    Option IdeaCluster :=
  (currentNodeId before after cluster.canonicalId).map fun canonicalId => { cluster with
    canonicalId := canonicalId
    redundantIds := cluster.redundantIds.filterMap (currentNodeId before after) }

/-- After the clusters are applied: an idea that became rejected leads over the ideas that were
kept in its place to one that is not rejected; no idea that was written as rejected is written
otherwise later; as many became rejected as the report says; a dry run reports the same and writes
nothing; and the same clusters once more change no status. -/
structure LosesNoIdea (run : Consolidation backend) : Prop where
  applied : consolidateExisting lifecycle true memory clusters = some run
  chains : ∀ idea status, memory.status idea = some status → status ≠ lifecycle.rejected →
    run.memory.status idea = some lifecycle.rejected →
    ∃ canonical last, Relation.TransGen
      (CanonicalOf (merges lifecycle (memory.list none) clusters)) idea canonical ∧
        run.memory.status canonical = some last ∧ last ≠ lifecycle.rejected
  final : run.written.Pairwise fun earlier later =>
    earlier.ideaId = later.ideaId → earlier.status = lifecycle.rejected →
      later.status = lifecycle.rejected
  counted : run.report.rejected = {idea | (∃ status, memory.status idea = some status ∧
    status ≠ lifecycle.rejected) ∧ run.memory.status idea = some lifecycle.rejected}.ncard
  dry : ∃ dry, consolidateExisting lifecycle false memory clusters = some dry ∧
    dry.memory = memory ∧ dry.report = { run.report with dryRun := true }
  again : ∃ second, consolidateExisting lifecycle true run.memory
    (clusters.filterMap (translateCluster memory run.memory)) = some second ∧
      second.memory.status = run.memory.status

end Promise

section Again

variable {Status Kind Other : Type} {backend : IdeaBackend Status Kind Other}
  {lifecycle : IdeaLifecycle Status} {memory after : IdeaMemory backend}
  {clusters : List IdeaCluster}

theorem of_currentNodeId {nodeId : String} {i : StoredIdea Status Kind Other}
    (hi : i ∈ after.list none) (h : currentNodeId memory after nodeId = some i.nodeId) :
    ∃ before ∈ memory.list none, before.nodeId = nodeId ∧ before.ideaId = i.ideaId := by
  obtain ⟨before, hbefore, hcurrent⟩ := Option.bind_eq_some_iff.mp h
  obtain ⟨found, hfound, hnode⟩ := Option.map_eq_some_iff.mp hcurrent
  have hsame : found = i := revision_of_nodeId backend.name.injective
    (IdeaMemory.mem_revisions_of_current hfound)
    (IdeaMemory.mem_revisions_of_current (IdeaMemory.mem_list.mp hi)) hnode
  have hid := IdeaMemory.ideaId_of_current hfound
  rw [hsame] at hid
  exact ⟨before,
    List.mem_of_find?_eq_some hbefore, by simpa using List.find?_some hbefore, hid.symm⟩

theorem mem_allRedundant_of_member {cluster : IdeaCluster} (hcluster : cluster ∈ clusters)
    {canonical r : StoredIdea Status Kind Other}
    (hcanonical : memory.get cluster.canonicalId = some canonical)
    (hr : r ∈ memory.list none) (hid : r.nodeId ∈ cluster.redundantIds)
    (hne : r.nodeId ≠ cluster.canonicalId)
    (hopen : lifecycle.canTransitionTo r.status lifecycle.rejected) :
    r.ideaId ∈ allRedundant (merges lifecycle (memory.list none) clusters) := by
  have hmember : r ∈ redundantMembers lifecycle (memory.list none) cluster :=
    List.mem_filter.mpr ⟨List.mem_filterMap.mpr ⟨r.nodeId,
      List.mem_filter.mpr ⟨hid, decide_eq_true hne⟩, IdeaMemory.find_nodeId hr⟩, hopen⟩
  have hmerge : clusterMerge lifecycle (memory.list none) cluster = some ⟨canonical.ideaId,
      (redundantMembers lifecycle (memory.list none) cluster).map CreativeIdea.ideaId⟩ := by
    rw [IdeaMemory.get] at hcanonical
    rw [clusterMerge, hcanonical]
    exact if_neg (List.ne_nil_of_mem hmember)
  exact mem_allRedundant.mpr ⟨_, List.mem_filterMap.mpr ⟨cluster, hcluster, hmerge⟩,
    List.mem_map_of_mem hmember⟩

theorem redundantMembers_again
    (hordered : (merges lifecycle (memory.list none) clusters).Pairwise fun earlier later =>
      later.canonical ∉ earlier.redundant)
    {cluster translated : IdeaCluster} (hcluster : cluster ∈ clusters)
    (h : translateCluster memory (consolidated lifecycle memory clusters) cluster =
      some translated) :
    redundantMembers lifecycle ((consolidated lifecycle memory clusters).list none)
      translated = [] := by
  obtain ⟨canonicalId, hcanonicalId, rfl⟩ := Option.map_eq_some_iff.mp h
  obtain ⟨canonical, hcanonical, -⟩ := Option.bind_eq_some_iff.mp hcanonicalId
  rw [List.eq_nil_iff_forall_not_mem]
  intro i hi
  obtain ⟨hlisted, hredundant, hne, hopen⟩ := mem_redundantMembers hi
  obtain ⟨id, hid, htranslated⟩ := List.mem_filterMap.mp hredundant
  obtain ⟨r, hr, rfl, hsame⟩ := of_currentNodeId hlisted htranslated
  have hstatus := status_of_list hlisted
  rw [← hsame, status_consolidated] at hstatus
  by_cases hrejected : r.ideaId ∈ allRedundant (merges lifecycle (memory.list none) clusters)
  · rw [writeAll_redundant hordered hrejected
      fun merge hmerge => (effective_merges clusters merge hmerge).apart] at hstatus
    exact open_of_canTransitionTo hopen (Option.some.inj hstatus).symm
  · rw [writeAll_kept hrejected, status_of_list hr] at hstatus
    refine hrejected (mem_allRedundant_of_member hcluster hcanonical hr hid ?_ ?_)
    · intro hcanon
      rw [hcanon, hcanonicalId] at htranslated
      exact hne (Option.some.inj htranslated).symm
    · rw [Option.some.inj hstatus]
      exact hopen

theorem consolidated_again
    (hordered : (merges lifecycle (memory.list none) clusters).Pairwise fun earlier later =>
      later.canonical ∉ earlier.redundant) :
    consolidated lifecycle (consolidated lifecycle memory clusters)
      (clusters.filterMap (translateCluster memory (consolidated lifecycle memory clusters))) =
        consolidated lifecycle memory clusters := by
  have hnone : (clusters.filterMap (translateCluster memory
      (consolidated lifecycle memory clusters))).flatMap
        (clusterWrites lifecycle ((consolidated lifecycle memory clusters).list none)) = [] := by
    rw [List.flatMap_eq_nil_iff]
    intro translated htranslated
    obtain ⟨cluster, hcluster, htranslated⟩ := List.mem_filterMap.mp htranslated
    unfold clusterWrites
    split
    · rfl
    · exact if_pos (redundantMembers_again hordered hcluster htranslated)
  rw [consolidated, hnone, List.foldl_nil]

end Again

section Kept

variable {Status Kind Other : Type} {backend : IdeaBackend Status Kind Other}
  {lifecycle : IdeaLifecycle Status} {memory : IdeaMemory backend} {clusters : List IdeaCluster}

theorem known_of_rejected {ideaId : String} (h : writeAll memory.status (mergeWrites memory.status
    (some lifecycle.rejected) (merges lifecycle (memory.list none) clusters)) ideaId =
      some lifecycle.rejected) : ∃ status, memory.status ideaId = some status := by
  by_cases hredundant : ideaId ∈ allRedundant (merges lifecycle (memory.list none) clusters)
  · obtain ⟨merge, hmerge, hmem⟩ := mem_allRedundant.mp hredundant
    obtain ⟨cluster, -, hmerge⟩ := List.mem_filterMap.mp hmerge
    obtain ⟨canonical, -, -, rfl⟩ := of_clusterMerge hmerge
    obtain ⟨i, hi, rfl⟩ := List.mem_map.mp hmem
    exact ⟨i.status, status_of_list (mem_redundantMembers hi).1⟩
  · rw [writeAll_kept hredundant] at h
    exact ⟨_, h⟩

theorem known_of_canonical {idea canonical : String}
    (h : CanonicalOf (merges lifecycle (memory.list none) clusters) idea canonical) :
    ∃ status, writeAll memory.status (mergeWrites memory.status (some lifecycle.rejected)
      (merges lifecycle (memory.list none) clusters)) canonical = some status := by
  have hlisted : ∀ merge ∈ merges lifecycle (memory.list none) clusters,
      (memory.status merge.canonical).isSome := by
    intro merge hmerge
    obtain ⟨cluster, -, hmerge⟩ := List.mem_filterMap.mp hmerge
    obtain ⟨kept, hfound, -, rfl⟩ := of_clusterMerge hmerge
    rw [status_of_list (List.mem_of_find?_eq_some hfound)]
    rfl
  obtain ⟨merge, hmerge, -, rfl⟩ := h
  rw [← Option.isSome_iff_exists]
  refine writeAll_of_forall (P := fun status : Option Status => status.isSome = true) ?_
    (hlisted merge hmerge)
  intro write hwrite
  obtain ⟨other, hother, hwrite⟩ := List.mem_flatMap.mp hwrite
  rcases write_of_mem hwrite with rfl | ⟨-, hrejected⟩
  · exact hlisted other hother
  · rw [hrejected]
    rfl

theorem became_rejected_known :
    {idea | (∃ status, memory.status idea = some status ∧ status ≠ lifecycle.rejected) ∧
      (consolidated lifecycle memory clusters).status idea = some lifecycle.rejected} =
    {idea | memory.status idea ≠ some lifecycle.rejected ∧
      writeAll memory.status (mergeWrites memory.status (some lifecycle.rejected)
        (merges lifecycle (memory.list none) clusters)) idea = some lifecycle.rejected} := by
  ext idea
  rw [Set.mem_ofPred_eq, Set.mem_ofPred_eq, status_consolidated, and_congr_left_iff]
  intro hrejected
  obtain ⟨status, hstatus⟩ := known_of_rejected hrejected
  rw [hstatus]
  constructor
  · rintro ⟨other, hother, hne⟩ hstatus
    exact hne (Option.some.inj (hother.symm.trans hstatus))
  · exact fun hne => ⟨status, rfl, fun h => hne (congrArg some h)⟩

theorem final_iff : ((clusters.flatMap (clusterWrites lifecycle (memory.list none))).Pairwise
    fun earlier later => earlier.ideaId = later.ideaId → earlier.status = lifecycle.rejected →
      later.status = lifecycle.rejected) ↔
    (mergeWrites memory.status (some lifecycle.rejected)
      (merges lifecycle (memory.list none) clusters)).Pairwise fun earlier later =>
        earlier.1 = later.1 → earlier.2 = some lifecycle.rejected →
          later.2 = some lifecycle.rejected := by
  rw [← flatMap_clusterWrites_statuses, List.pairwise_map]
  simp only [Option.some.injEq]

theorem mergesKeep_of_losesNoIdea {run : Consolidation backend}
    (h : LosesNoIdea lifecycle memory clusters run) :
    MergesKeep memory.status (some lifecycle.rejected)
      (merges lifecycle (memory.list none) clusters) := by
  have hrun := h.applied
  rw [consolidateExisting_eq, Option.some.injEq] at hrun
  have hmemory : run.memory = consolidated lifecycle memory clusters := by
    rw [← hrun]
    rfl
  constructor
  · intro idea hopen hrejected
    rw [← status_consolidated, ← hmemory] at hrejected
    obtain ⟨status, hstatus⟩ :=
      known_of_rejected (status_consolidated clusters ▸ hmemory ▸ hrejected)
    obtain ⟨canonical, last, hchain, hlast, hne⟩ := h.chains idea status hstatus
      (fun heq => hopen (heq ▸ hstatus)) hrejected
    refine ⟨canonical, hchain, ?_⟩
    rw [← status_consolidated, ← hmemory, hlast]
    exact fun heq => hne (Option.some.inj heq)
  · have hfinal := h.final
    rw [← hrun] at hfinal
    exact final_iff.mp hfinal
  · have hcounted := h.counted
    rw [hmemory, became_rejected_known, ← hrun] at hcounted
    rw [← hcounted]
    exact (Nat.zero_add _).symm

theorem losesNoIdea_of_sound (hsound : SoundMerges memory.status (some lifecycle.rejected)
    (merges lifecycle (memory.list none) clusters)) :
    ∃ run, LosesNoIdea lifecycle memory clusters run := by
  have hkeep := keep_of_sound (effective_merges clusters) hsound
  refine ⟨_, consolidateExisting_eq true memory clusters, ?_, ?_, ?_, ?_, ?_⟩
  · intro idea status hstatus hne hrejected
    have hopen : memory.status idea ≠ some lifecycle.rejected :=
      fun heq => hne (Option.some.inj (hstatus.symm.trans heq))
    have hafter := (congrFun (status_consolidated clusters) idea).symm.trans hrejected
    obtain ⟨canonical, hchain, hend⟩ := hkeep.chains idea hopen hafter
    obtain ⟨before, -, hlast⟩ := Relation.TransGen.tail'_iff.mp hchain
    obtain ⟨last, hlast⟩ := known_of_canonical hlast
    refine ⟨canonical, last, hchain,
      (congrFun (status_consolidated clusters) canonical).trans hlast, ?_⟩
    exact fun heq => hend (hlast.trans (congrArg some heq))
  · exact final_iff.mpr hkeep.final
  · have hcounted := hkeep.counted
    rw [← became_rejected_known] at hcounted
    exact (Nat.zero_add _).trans hcounted
  · exact ⟨_, consolidateExisting_eq false memory clusters, rfl, rfl⟩
  · refine ⟨_, consolidateExisting_eq true _ _, ?_⟩
    exact congrArg IdeaMemory.status (consolidated_again hsound.ordered)

end Kept

/-- A consolidation loses no idea exactly if, among the clusters that act, none keeps an idea that
was rejected at the start, none rejects an idea that is rejected already, and none keeps an idea
that an earlier one rejected. -/
theorem losesNoIdea_iff {Status Kind Other : Type} {backend : IdeaBackend Status Kind Other}
    (lifecycle : IdeaLifecycle Status) (memory : IdeaMemory backend) (clusters : List IdeaCluster) :
    (∃ run, LosesNoIdea lifecycle memory clusters run) ↔
      SoundMerges memory.status (some lifecycle.rejected)
        (merges lifecycle (memory.list none) clusters) := by
  constructor
  · rintro ⟨run, hrun⟩
    exact kept_of_chains (effective_merges clusters) (mergesKeep_of_losesNoIdea hrun)
  · exact losesNoIdea_of_sound

noncomputable def jsonBackend : IdeaBackend String String Unit where
  format := jsonFormat
  name := numbered
  named _ := Nat.repr_ne_empty
  listing := byPriority

def newIdeas : IdeaLifecycle String where
  rejected := "Rejected"
  canTransitionTo status next := status = "New" && next = "Rejected"
  terminal _ := rfl

def newIdea (ideaId text : String) : StoredIdea String String Unit where
  ideaId := ideaId
  revision := 0
  nodeId := ""
  idea := text
  status := "New"
  rest := ⟨⟨"creative-ideas-thread", [], "", ""⟩, [], [], ()⟩

noncomputable def noIdeas : IdeaMemory jsonBackend where
  store := ⟨[], 0, List.nodup_nil, below_nil⟩
  readable := fun _ h => nomatch h

noncomputable def twinIdeas : IdeaMemory jsonBackend :=
  (noIdeas.create (newIdea "a" "Cache the index")).create (newIdea "b" "Keep the index in memory")

def swappedClusters : List IdeaCluster := [⟨"0", ["1"], "", []⟩, ⟨"1", ["0"], "", []⟩]

theorem twinIdeas_current : twinIdeas.current = Function.update
    (Function.update noIdeas.current "a"
      (some { newIdea "a" "Cache the index" with nodeId := "0" }))
      "b" (some { newIdea "b" "Keep the index in memory" with nodeId := "1" }) := by
  have hfirst : (noIdeas.create (newIdea "a" "Cache the index")).current = _ :=
    IdeaMemory.current_create (by decide) rfl
  have hsecond : twinIdeas.current = _ :=
    IdeaMemory.current_create (by decide) (by rw [hfirst]; rfl)
  rw [hsecond, hfirst]
  rfl

theorem clusterMerge_pair {pool : List (StoredIdea String String Unit)}
    {kept other : StoredIdea String String Unit}
    (hkept : pool.find? (·.nodeId = kept.nodeId) = some kept)
    (hother : pool.find? (·.nodeId = other.nodeId) = some other) (hne : other.nodeId ≠ kept.nodeId)
    (hnew : other.status = "New") :
    clusterMerge newIdeas pool ⟨kept.nodeId, [other.nodeId], "", []⟩ =
      some ⟨kept.ideaId, [other.ideaId]⟩ := by
  have hmembers :
      redundantMembers newIdeas pool ⟨kept.nodeId, [other.nodeId], "", []⟩ = [other] := by
    simp [redundantMembers, hne, hother, newIdeas, hnew]
  rw [clusterMerge, hkept, hmembers]
  rfl

theorem merges_swapped : merges newIdeas (twinIdeas.list none) swappedClusters =
    [⟨"a", ["b"]⟩, ⟨"b", ["a"]⟩] := by
  have hfound : ∀ i, twinIdeas.current i.ideaId = some i →
      (twinIdeas.list none).find? (·.nodeId = i.nodeId) = some i :=
    fun i hi => IdeaMemory.find_nodeId (IdeaMemory.mem_list.mpr hi)
  rw [twinIdeas_current] at hfound
  have ha := hfound { newIdea "a" "Cache the index" with nodeId := "0" } rfl
  have hb := hfound { newIdea "b" "Keep the index in memory" with nodeId := "1" } rfl
  have hfirst := clusterMerge_pair ha hb (by decide) rfl
  have hsecond := clusterMerge_pair hb ha (by decide) rfl
  dsimp only at hfirst hsecond
  rw [swappedClusters, merges, List.filterMap_cons, hfirst, List.filterMap_cons, hsecond]
  rfl

/-- The second cluster keeps the idea that the first one rejected, so the rejection is undone. -/
theorem swapped_clusters_lose :
    ¬ ∃ run, LosesNoIdea newIdeas twinIdeas swappedClusters run := by
  rintro ⟨run, hrun⟩
  have hsound := kept_of_chains (effective_merges swappedClusters) (mergesKeep_of_losesNoIdea hrun)
  have hordered := hsound.ordered
  rw [merges_swapped] at hordered
  exact List.rel_of_pairwise_cons hordered (List.mem_singleton_self _) (List.mem_singleton_self _)

end Simard.Memory
