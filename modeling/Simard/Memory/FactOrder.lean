import Simard.Library.Json
import Simard.Library.Machine
import Simard.Library.Padded
import Simard.Library.Text

/-! The order of facts. Every handle on the store numbers the facts it writes, from a number it
recovered when it was opened; the number stands in front of the id that a fact is surfaced with,
and the greatest id is read as the newest fact. -/
namespace Simard.Memory.FactOrder
open Simard.Library

def factSeqMetaKey : String := "_simard_seq"

def factSeqWidth : Nat := 20

abbrev Metadata := String → Option Json

/-- A fact of the store. One that another superseded is archived. -/
structure SemanticFact where
  nodeId : String
  concept : String
  content : String
  metadata : Metadata
  dedupKey : Option String
  archived : Bool

def asSeq : Json → Option Nat
  | .num (.ofNat n) => if n < 2 ^ 64 then some n else none
  | .str text => parseUnsigned 64 text.toList
  | _ => none

def seqFromMetadata (metadata : Metadata) : Option Nat := (metadata factSeqMetaKey).bind asSeq

def surfacedId (fact : SemanticFact) : List Char :=
  padded factSeqWidth ((seqFromMetadata fact.metadata).getD 0) ++ '_' :: fact.nodeId.toList

/-- The next number to hand out: all facts are listed, the archived ones too. -/
def recoverFactSeq (facts : List SemanticFact) : Nat :=
  match (facts.filterMap fun fact => seqFromMetadata fact.metadata).max? with
  | some greatest => min (greatest + 1) (2 ^ 64 - 1)
  | none => 0

inductive FactWrite where
  | storeFact (concept content : String)
  | storeFactWithProvenance (concept content : String) (metadata : Option Metadata)
  | storeFactWithCallerKey (callerKey concept content : String)

namespace FactWrite

def concept : FactWrite → String
  | storeFact concept _ | storeFactWithProvenance concept _ _ => concept
  | storeFactWithCallerKey _ concept _ => concept

def content : FactWrite → String
  | storeFact _ content | storeFactWithProvenance _ content _ => content
  | storeFactWithCallerKey _ _ content => content

def stamped (seq : Nat) : FactWrite → Metadata
  | storeFactWithProvenance _ _ metadata =>
      Function.update (metadata.getD fun _ => none) factSeqMetaKey (some (.num seq))
  | _ => Function.update (fun _ => none) factSeqMetaKey (some (.num seq))

def callerKey : FactWrite → Option String
  | storeFactWithCallerKey callerKey _ _ => some callerKey
  | _ => none

def fact (write : FactWrite) (seq : Nat) (nodeId : String) : SemanticFact where
  nodeId := nodeId
  concept := write.concept
  content := write.content
  metadata := write.stamped seq
  dedupKey := write.callerKey
  archived := false

/-- A write under a caller's key whose content is there already is no new fact. -/
def reuses (write : FactWrite) (facts : List SemanticFact) : Bool :=
  write.callerKey.isSome && facts.any fun fact =>
    !fact.archived && fact.dedupKey = write.callerKey && fact.content = write.content

/-- Another content under the key supersedes what was live. -/
def supersede (write : FactWrite) (fact : SemanticFact) : SemanticFact :=
  if write.callerKey.isSome && fact.dedupKey = write.callerKey then { fact with archived := true }
  else fact

end FactWrite

/-- A write that has its number and its handle's lock. -/
structure PendingWrite where
  write : FactWrite
  seq : Nat

structure FactHandle where
  factSeq : Nat
  pending : Option PendingWrite
  /-- Another handle has begun a write since this one was opened. -/
  overtaken : Bool

/-- The facts in the order in which their writes finished. Of the facts ever stored the numbers
are kept, and of all writes how many they were. -/
structure FactDb where
  facts : List SemanticFact
  handles : List FactHandle
  stored : List Nat
  begun : Nat

inductive FactEvent where
  | open
  /-- A thread has the lock of a handle and fetches a number. -/
  | begin (handle : Nat) (write : FactWrite)
  /-- The store answers: the id of the node, or an error. -/
  | finish (handle : Nat) (answer : Option String)
  | prune (pruned : SemanticFact → Bool)
  | close (handle : Nat)

namespace FactDb

variable (db : FactDb)

def empty : FactDb := ⟨[], [], [], 0⟩

def live (concept : String) : List SemanticFact :=
  db.facts.filter fun fact => !fact.archived && fact.concept = concept

def store (write : FactWrite) (seq : Nat) (nodeId : String) : FactDb :=
  if write.reuses db.facts then db
  else
    { db with
      facts := db.facts.map write.supersede ++ [write.fact seq nodeId]
      stored := db.stored ++ [seq] }

def setHandle (index : Nat) (handle : FactHandle) : FactDb :=
  { db with handles := db.handles.set index handle }

def step : FactEvent → FactDb
  | .open => { db with handles := db.handles ++ [⟨recoverFactSeq db.facts, none, false⟩] }
  | .begin index write =>
      match db.handles[index]? with
      | some ⟨factSeq, none, overtaken⟩ =>
          { db with
            handles := (db.handles.map fun handle => { handle with overtaken := true }).set index
              ⟨(factSeq + 1) % 2 ^ 64, some ⟨write, factSeq⟩, overtaken⟩
            begun := db.begun + 1 }
      | _ => db
  | .finish index answer =>
      match db.handles[index]? with
      | some ⟨factSeq, some pending, overtaken⟩ =>
          let released := db.setHandle index ⟨factSeq, none, overtaken⟩
          match answer with
          | some nodeId => released.store pending.write pending.seq nodeId
          | none => released
      | _ => db
  | .prune pruned => { db with facts := db.facts.filter fun fact => !pruned fact }
  | .close index => { db with handles := db.handles.eraseIdx index }

end FactDb

def factMachine : Machine FactDb FactEvent := ⟨FactDb.step⟩

def seqOf (fact : SemanticFact) : Nat := (seqFromMetadata fact.metadata).getD 0

theorem seqFromMetadata_stamped (write : FactWrite) {seq : Nat} (h : seq < 2 ^ 64) :
    seqFromMetadata (write.stamped seq) = some seq := by
  have hstamp : write.stamped seq factSeqMetaKey = some (.num seq) := by
    cases write <;> simp [FactWrite.stamped]
  rw [seqFromMetadata, hstamp]
  exact if_pos h

theorem seqOf_supersede (write : FactWrite) (fact : SemanticFact) :
    seqFromMetadata (write.supersede fact).metadata = seqFromMetadata fact.metadata := by
  rw [FactWrite.supersede]
  split <;> rfl

theorem surfacedId_lt {left right : SemanticFact} (h : seqOf left < seqOf right)
    (hbound : seqOf right < 2 ^ 64) : surfacedId left < surfacedId right := by
  have hwide : seqOf right < 10 ^ factSeqWidth := hbound.trans (by decide)
  refine append_lt_append (padded_lt (by decide) h hwide) ?_ _ _
  rw [length_padded (by decide) (h.trans hwide), length_padded (by decide) hwide]

theorem lt_recoverFactSeq {facts : List SemanticFact} {fact : SemanticFact} (hmem : fact ∈ facts)
    {n : Nat} (hn : seqFromMetadata fact.metadata = some n) {bound : Nat}
    (hbound : bound < 2 ^ 64)
    (hall : ∀ fact ∈ facts, ∀ m, seqFromMetadata fact.metadata = some m → m < bound) :
    n < recoverFactSeq facts ∧ recoverFactSeq facts ≤ bound := by
  have hlisted : n ∈ facts.filterMap fun fact => seqFromMetadata fact.metadata :=
    List.mem_filterMap.mpr ⟨fact, hmem, hn⟩
  cases hmax : (facts.filterMap fun fact => seqFromMetadata fact.metadata).max? with
  | none =>
    rw [List.max?_eq_none_iff] at hmax
    rw [hmax] at hlisted
    cases hlisted
  | some greatest =>
    rw [List.max?_eq_some_iff] at hmax
    obtain ⟨other, hother, hgreatest⟩ := List.mem_filterMap.mp hmax.1
    have hle := hmax.2 n hlisted
    have hlt := hall other hother greatest hgreatest
    unfold recoverFactSeq
    rw [List.max?_eq_some_iff.mpr hmax]
    dsimp only
    omega

namespace FactDb

/-- Facts are numbered in the order in which they were stored. A handle that no other has overtaken
is above all of them, and a write under way is the only one. -/
structure Ordered (db : FactDb) : Prop where
  stamped : ∀ fact ∈ db.facts, ∃ n ∈ db.stored, seqFromMetadata fact.metadata = some n
  sorted : db.facts.Pairwise fun left right => seqOf left < seqOf right
  rising : db.stored.Pairwise (· < ·)
  below : ∀ n ∈ db.stored, n < db.begun
  counted : ∀ handle ∈ db.handles, handle.factSeq ≤ db.begun
  fresh : ∀ handle ∈ db.handles, handle.overtaken = false → ∀ n ∈ db.stored, n < handle.factSeq
  pending {i : Nat} {handle : FactHandle} {write : PendingWrite} :
    db.handles[i]? = some handle → handle.pending = some write →
      handle.overtaken = false ∧ write.seq < handle.factSeq ∧ ∀ n ∈ db.stored, n < write.seq
  sole {i j : Nat} {handle other : FactHandle} : db.handles[i]? = some handle →
    handle.pending.isSome → db.handles[j]? = some other → j ≠ i → other.overtaken = true

/-- A write goes through a handle that no other has overtaken; a handle is opened while no write is
under way and the fact stored last is still there. -/
def Orderly (db : FactDb) : FactEvent → Prop
  | .open => (∀ handle ∈ db.handles, handle.pending = none) ∧
      ∀ newest, db.stored.getLast? = some newest →
        ∃ fact ∈ db.facts, seqFromMetadata fact.metadata = some newest
  | .begin index _ => ∀ handle, db.handles[index]? = some handle → handle.overtaken = false
  | _ => True

variable {db : FactDb}

theorem ordered_empty : empty.Ordered where
  stamped := by simp [empty]
  sorted := by simp [empty]
  rising := by simp [empty]
  below := by simp [empty]
  counted := by simp [empty]
  fresh := by simp [empty]
  pending := by simp [empty]
  sole := by simp [empty]

theorem Ordered.seq_lt (hdb : db.Ordered) {fact : SemanticFact} (hmem : fact ∈ db.facts) {n : Nat}
    (hn : seqFromMetadata fact.metadata = some n) : n < db.begun := by
  obtain ⟨m, hm, hstamp⟩ := hdb.stamped fact hmem
  rw [hn, Option.some.injEq] at hstamp
  exact hstamp ▸ hdb.below m hm

theorem Ordered.recovered (hdb : db.Ordered) (hbound : db.begun < 2 ^ 64)
    (hlast : ∀ newest, db.stored.getLast? = some newest →
      ∃ fact ∈ db.facts, seqFromMetadata fact.metadata = some newest) :
    recoverFactSeq db.facts ≤ db.begun ∧ ∀ n ∈ db.stored, n < recoverFactSeq db.facts := by
  have hseqs := fun (fact : SemanticFact) (hmem : fact ∈ db.facts) (m : Nat)
    (hm : seqFromMetadata fact.metadata = some m) => hdb.seq_lt hmem hm
  cases hstored : db.stored.getLast? with
  | none =>
    rw [List.getLast?_eq_none_iff] at hstored
    have hnone : db.facts = [] := by
      rw [List.eq_nil_iff_forall_not_mem]
      intro fact hmem
      obtain ⟨n, hn, -⟩ := hdb.stamped fact hmem
      rw [hstored] at hn
      cases hn
    rw [hnone, hstored]
    exact ⟨Nat.zero_le _, nofun⟩
  | some newest =>
    obtain ⟨fact, hmem, hnewest⟩ := hlast newest hstored
    obtain ⟨hlt, hle⟩ := lt_recoverFactSeq hmem hnewest hbound hseqs
    refine ⟨hle, fun n hn => ?_⟩
    obtain ⟨before, hbefore⟩ := List.getLast?_eq_some_iff.mp hstored
    have hrising := hdb.rising
    rw [hbefore] at hn hrising
    rcases List.mem_append.mp hn with hn | hn
    · have hless := (List.pairwise_append.mp hrising).2.2 n hn newest List.mem_cons_self
      exact hless.trans hlt
    · rw [List.mem_singleton] at hn
      exact hn ▸ hlt

theorem Ordered.open (hdb : db.Ordered) (hbound : db.begun < 2 ^ 64)
    (hok : db.Orderly .open) : (db.step .open).Ordered := by
  obtain ⟨hidle, hlast⟩ := hok
  obtain ⟨hle, hlt⟩ := hdb.recovered hbound hlast
  have hcases {j : Nat} {other : FactHandle}
      (hj : (db.handles ++ [⟨recoverFactSeq db.facts, none, false⟩])[j]? = some other) :
      other.pending = none := by
    rcases List.mem_append.mp (List.mem_of_getElem? hj) with hmem | hmem
    · exact hidle other hmem
    · rw [List.mem_singleton] at hmem
      rw [hmem]
  exact {
    hdb with
    counted := by
      rintro handle hmem
      rcases List.mem_append.mp hmem with hmem | hmem
      · exact hdb.counted handle hmem
      · rw [List.mem_singleton] at hmem
        rw [hmem]
        exact hle
    fresh := by
      rintro handle hmem hfresh n hn
      rcases List.mem_append.mp hmem with hmem | hmem
      · exact hdb.fresh handle hmem hfresh n hn
      · rw [List.mem_singleton] at hmem
        rw [hmem]
        exact hlt n hn
    pending := fun hj hpending => by
      rw [hcases hj] at hpending
      cases hpending
    sole := fun hj hpending => by
      rw [hcases hj] at hpending
      cases hpending }

theorem Ordered.idle (hdb : db.Ordered) {index : Nat} {handle : FactHandle}
    (hi : db.handles[index]? = some handle) (hpending : handle.pending = none)
    (hfresh : handle.overtaken = false) {j : Nat} {other : FactHandle}
    (hj : db.handles[j]? = some other) : other.pending = none := by
  by_cases hne : index = j
  · subst hne
    rw [hi, Option.some.injEq] at hj
    rw [← hj, hpending]
  · by_contra hsome
    rw [hdb.sole hj (Option.isSome_iff_ne_none.mpr hsome) hi hne] at hfresh
    cases hfresh

theorem Ordered.begin (hdb : db.Ordered) (hbound : db.begun + 1 < 2 ^ 64) {index : Nat}
    {write : FactWrite} (hok : db.Orderly (.begin index write)) :
    (db.step (.begin index write)).Ordered := by
  simp only [step]
  split
  · next factSeq overtaken hi =>
    have hmem := List.mem_of_getElem? hi
    have hover : overtaken = false := hok _ hi
    have hfresh := hdb.fresh _ hmem hover
    have hle := hdb.counted _ hmem
    have hnext : (factSeq + 1) % 2 ^ 64 = factSeq + 1 := by
      dsimp only at hle
      exact Nat.mod_eq_of_lt (by omega)
    -- a handle afterwards is the one that writes, or an old one marked as overtaken
    have hcases {j : Nat} {other : FactHandle}
        (hj : ((db.handles.map fun handle => { handle with overtaken := true }).set index
          ⟨(factSeq + 1) % 2 ^ 64, some ⟨write, factSeq⟩, overtaken⟩)[j]? = some other) :
        (j = index ∧ other = ⟨factSeq + 1, some ⟨write, factSeq⟩, overtaken⟩) ∨
          ∃ before, db.handles[j]? = some before ∧ other = { before with overtaken := true } := by
      by_cases hne : j = index
      · subst hne
        rw [List.getElem?_set_self', List.getElem?_map, hi, hnext] at hj
        exact .inl ⟨rfl, (Option.some.inj hj).symm⟩
      · rw [List.getElem?_set_ne (Ne.symm hne), List.getElem?_map, Option.map_eq_some_iff] at hj
        obtain ⟨before, hbefore, rfl⟩ := hj
        exact .inr ⟨before, hbefore, rfl⟩
    exact {
      stamped := hdb.stamped
      sorted := hdb.sorted
      rising := hdb.rising
      below := fun n hn => (hdb.below n hn).trans (Nat.lt_succ_self _)
      counted := by
        intro other hother
        obtain ⟨j, hj⟩ := List.mem_iff_getElem?.mp hother
        obtain ⟨-, rfl⟩ | ⟨before, hbefore, rfl⟩ := hcases hj
        · exact Nat.succ_le_succ hle
        · exact (hdb.counted before (List.mem_of_getElem? hbefore)).trans (Nat.le_succ _)
      fresh := by
        intro other hother hnot n hn
        obtain ⟨j, hj⟩ := List.mem_iff_getElem?.mp hother
        obtain ⟨-, rfl⟩ | ⟨before, hbefore, rfl⟩ := hcases hj
        · exact (hfresh n hn).trans (Nat.lt_succ_self _)
        · cases hnot
      pending := by
        intro j other pending hj hpending
        obtain ⟨-, rfl⟩ | ⟨before, hbefore, rfl⟩ := hcases hj
        · cases hpending
          exact ⟨hover, Nat.lt_succ_self _, hfresh⟩
        · have hnone := hdb.idle hi rfl hover hbefore
          rw [hnone] at hpending
          cases hpending
      sole := by
        intro j k other third hj hpending hk hne
        obtain ⟨rfl, -⟩ | ⟨before, hbefore, rfl⟩ := hcases hj
        · obtain ⟨rfl, -⟩ | ⟨-, -, rfl⟩ := hcases hk
          · exact absurd rfl hne
          · rfl
        · have hnone := hdb.idle hi rfl hover hbefore
          rw [hnone] at hpending
          cases hpending }
  · exact hdb

theorem Ordered.setHandle (hdb : db.Ordered) {index factSeq : Nat} {pending : Option PendingWrite}
    {overtaken : Bool} (hi : db.handles[index]? = some ⟨factSeq, pending, overtaken⟩) :
    (db.setHandle index ⟨factSeq, none, overtaken⟩).Ordered := by
  have hcases {j : Nat} {other : FactHandle}
      (hj : (db.handles.set index ⟨factSeq, none, overtaken⟩)[j]? = some other) :
      (j = index ∧ other = ⟨factSeq, none, overtaken⟩) ∨
        j ≠ index ∧ db.handles[j]? = some other := by
    by_cases hne : j = index
    · subst hne
      rw [List.getElem?_set_self', hi] at hj
      exact .inl ⟨rfl, (Option.some.inj hj).symm⟩
    · rw [List.getElem?_set_ne (Ne.symm hne)] at hj
      exact .inr ⟨hne, hj⟩
  have hmem := List.mem_of_getElem? hi
  have hcounted : factSeq ≤ db.begun := hdb.counted _ hmem
  have hfresh : overtaken = false → ∀ n ∈ db.stored, n < factSeq := hdb.fresh _ hmem
  have hsole {j : Nat} {other : FactHandle} (hj : db.handles[j]? = some other)
      (hpending : other.pending.isSome) (hne : index ≠ j) : overtaken = true :=
    hdb.sole hj hpending hi hne
  exact {
    hdb with
    counted := by
      intro other hother
      obtain ⟨j, hj⟩ := List.mem_iff_getElem?.mp hother
      obtain ⟨-, rfl⟩ | ⟨-, hj⟩ := hcases hj
      · exact hcounted
      · exact hdb.counted other (List.mem_of_getElem? hj)
    fresh := by
      intro other hother hnot
      obtain ⟨j, hj⟩ := List.mem_iff_getElem?.mp hother
      obtain ⟨-, rfl⟩ | ⟨-, hj⟩ := hcases hj
      · exact hfresh hnot
      · exact hdb.fresh other (List.mem_of_getElem? hj) hnot
    pending := by
      intro j other write hj hpending
      obtain ⟨-, rfl⟩ | ⟨-, hj⟩ := hcases hj
      · cases hpending
      · exact hdb.pending hj hpending
    sole := by
      intro j k other third hj hpending hk hne
      obtain ⟨-, rfl⟩ | ⟨-, hbefore⟩ := hcases hj
      · cases hpending
      · obtain ⟨hindex, rfl⟩ | ⟨-, hk⟩ := hcases hk
        · exact hsole hbefore hpending (hindex ▸ hne)
        · exact hdb.sole hbefore hpending hk hne }

theorem Ordered.store (hdb : db.Ordered) {seq : Nat} (hseq : ∀ n ∈ db.stored, n < seq)
    (hbegun : seq < db.begun) (hbound : db.begun < 2 ^ 64)
    (hidle : ∀ handle ∈ db.handles, handle.pending = none)
    (habove : ∀ handle ∈ db.handles, handle.overtaken = false → seq < handle.factSeq)
    (write : FactWrite) (nodeId : String) : (db.store write seq nodeId).Ordered := by
  unfold FactDb.store
  split
  · exact hdb
  have hnew : seqFromMetadata (write.fact seq nodeId).metadata = some seq :=
    seqFromMetadata_stamped write (hbegun.trans hbound)
  exact {
    stamped := by
      intro fact hmem
      rcases List.mem_append.mp hmem with hmem | hmem
      · obtain ⟨before, hbefore, rfl⟩ := List.mem_map.mp hmem
        obtain ⟨n, hn, hstamp⟩ := hdb.stamped before hbefore
        exact ⟨n, List.mem_append_left _ hn, (seqOf_supersede write before).trans hstamp⟩
      · rw [List.mem_singleton] at hmem
        exact ⟨seq, List.mem_append_right _ List.mem_cons_self, hmem ▸ hnew⟩
    sorted := by
      refine List.pairwise_append.mpr ⟨?_, List.pairwise_singleton _ _, ?_⟩
      · rw [List.pairwise_map]
        refine hdb.sorted.imp fun {left right} h => ?_
        simpa only [seqOf, seqOf_supersede] using h
      · intro left hleft right hright
        obtain ⟨before, hbefore, rfl⟩ := List.mem_map.mp hleft
        obtain ⟨n, hn, hstamp⟩ := hdb.stamped before hbefore
        rw [List.mem_singleton] at hright
        rw [hright, seqOf, seqOf, seqOf_supersede, hstamp, hnew]
        exact hseq n hn
    rising := by
      refine List.pairwise_append.mpr ⟨hdb.rising, List.pairwise_singleton _ _, ?_⟩
      intro n hn m hm
      rw [List.mem_singleton] at hm
      exact hm ▸ hseq n hn
    below := by
      intro n hn
      rcases List.mem_append.mp hn with hn | hn
      · exact hdb.below n hn
      · rw [List.mem_singleton] at hn
        exact hn ▸ hbegun
    counted := hdb.counted
    fresh := by
      intro handle hmem hnot n hn
      rcases List.mem_append.mp hn with hn | hn
      · exact hdb.fresh handle hmem hnot n hn
      · rw [List.mem_singleton] at hn
        exact hn ▸ habove handle hmem hnot
    pending := fun hj hpending => by
      rw [hidle _ (List.mem_of_getElem? hj)] at hpending
      cases hpending
    sole := fun hj hpending => by
      rw [hidle _ (List.mem_of_getElem? hj)] at hpending
      cases hpending }

theorem Ordered.finish (hdb : db.Ordered) (hbound : db.begun < 2 ^ 64) (index : Nat)
    (answer : Option String) : (db.step (.finish index answer)).Ordered := by
  simp only [step]
  split
  · next factSeq pending overtaken hi =>
    have hreleased := hdb.setHandle hi
    obtain ⟨hover, hlt, hseq⟩ := hdb.pending hi rfl
    have hcounted : factSeq ≤ db.begun := hdb.counted _ (List.mem_of_getElem? hi)
    -- this was the only write, and every other handle is overtaken by it
    have hcases {other : FactHandle} (hmem : other ∈ (db.setHandle index
        ⟨factSeq, none, overtaken⟩).handles) :
        other = ⟨factSeq, none, overtaken⟩ ∨ other.pending = none ∧ other.overtaken = true := by
      obtain ⟨j, hj⟩ := List.mem_iff_getElem?.mp hmem
      simp only [FactDb.setHandle] at hj
      by_cases hne : j = index
      · rw [hne, List.getElem?_set_self', hi] at hj
        exact .inl (Option.some.inj hj).symm
      · rw [List.getElem?_set_ne (Ne.symm hne)] at hj
        have hother := hdb.sole hi rfl hj hne
        refine .inr ⟨?_, hother⟩
        by_contra hsome
        obtain ⟨write, hwrite⟩ := Option.ne_none_iff_exists'.mp hsome
        rw [(hdb.pending hj hwrite).1] at hother
        cases hother
    cases answer with
    | none => exact hreleased
    | some nodeId =>
      refine hreleased.store hseq (hlt.trans_le hcounted) hbound ?_ ?_ _ _
      · intro other hmem
        obtain rfl | ⟨hnone, -⟩ := hcases hmem
        · rfl
        · exact hnone
      · intro other hmem hnot
        obtain rfl | ⟨-, hover⟩ := hcases hmem
        · exact hlt
        · rw [hover] at hnot
          cases hnot
  · exact hdb

theorem Ordered.prune (hdb : db.Ordered) (pruned : SemanticFact → Bool) :
    (db.step (.prune pruned)).Ordered :=
  { hdb with
    stamped := fun fact hmem => hdb.stamped fact (List.mem_filter.mp hmem).1
    sorted := hdb.sorted.filter _ }

theorem Ordered.close (hdb : db.Ordered) (index : Nat) : (db.step (.close index)).Ordered := by
  have hcases {j : Nat} {other : FactHandle} (hj : (db.handles.eraseIdx index)[j]? = some other) :
      db.handles[if j < index then j else j + 1]? = some other := by
    rw [List.getElem?_eraseIdx] at hj
    split at hj <;> next hlt => simpa [hlt] using hj
  exact {
    hdb with
    counted := fun handle hmem => hdb.counted handle (List.mem_of_mem_eraseIdx hmem)
    fresh := fun handle hmem => hdb.fresh handle (List.mem_of_mem_eraseIdx hmem)
    pending := fun hj => hdb.pending (hcases hj)
    sole := fun {i j _ _} hi hpending hj hne => by
      refine hdb.sole (hcases hi) hpending (hcases hj) ?_
      split <;> split <;> omega }

def isBegin : FactEvent → Bool
  | .begin _ _ => true
  | _ => false

theorem Ordered.step (hdb : db.Ordered) {event : FactEvent}
    (hbound : db.begun + (if isBegin event then 1 else 0) < 2 ^ 64)
    (hok : db.Orderly event) : (db.step event).Ordered := by
  cases event with
  | «open» => exact hdb.open hbound hok
  | begin index write => exact hdb.begin hbound hok
  | finish index answer => exact hdb.finish hbound index answer
  | prune pruned => exact hdb.prune pruned
  | close index => exact hdb.close index

/-- Of the live facts of a concept the one stored last has the greatest id, and no number was
given to two facts. -/
def NewestGreatest (db : FactDb) : Prop :=
  (∀ concept before newest, db.live concept = before ++ [newest] →
    ∀ fact ∈ before, surfacedId fact < surfacedId newest) ∧ db.stored.Nodup

theorem Ordered.newestGreatest (hdb : db.Ordered) (hbound : db.begun < 2 ^ 64) :
    db.NewestGreatest := by
  constructor
  · intro concept before newest hlive fact hmem
    have hsorted : (before ++ [newest]).Pairwise fun left right => seqOf left < seqOf right :=
      hlive ▸ hdb.sorted.filter _
    have hlt := (List.pairwise_append.mp hsorted).2.2 fact hmem newest List.mem_cons_self
    have hnewest : newest ∈ db.live concept := by
      rw [hlive]
      exact List.mem_append_right _ List.mem_cons_self
    obtain ⟨n, hn, hstamp⟩ := hdb.stamped newest (List.mem_filter.mp hnewest).1
    refine surfacedId_lt hlt ?_
    rw [seqOf, hstamp]
    exact (hdb.below n hn).trans hbound
  · exact hdb.rising.imp fun h => h.ne

theorem begun_run (db : FactDb) (events : List FactEvent) :
    (factMachine.run db events).begun ≤ db.begun + events.countP isBegin := by
  induction events generalizing db with
  | nil => exact Nat.le_refl _
  | cons event events ih =>
    have hstep : (db.step event).begun ≤ db.begun + if isBegin event then 1 else 0 := by
      cases event with
      | «open» => exact Nat.le_refl _
      | begin index write =>
        simp only [step]
        split
        · exact Nat.le_refl _
        · exact Nat.le_succ _
      | finish index answer =>
        simp only [step]
        split
        · cases answer with
          | none => exact Nat.le_refl _
          | some nodeId =>
            simp only [FactDb.store]
            split <;> exact Nat.le_refl _
        · exact Nat.le_refl _
      | prune pruned => exact Nat.le_refl _
      | close index => exact Nat.le_refl _
    rw [List.countP_cons]
    have hrest := ih (db.step event)
    change (factMachine.run (db.step event) events).begun ≤ _
    omega

/-- Histories in which every write goes through a handle that no other has overtaken since it was
opened, and handles are opened while no write is under way and the fact stored last is still
there. -/
theorem newest_fact_greatest (events : List FactEvent) (hwrites : events.countP isBegin < 2 ^ 64)
    (horderly : ∀ t ∈ factMachine.trace empty events, t.before.Orderly t.event) :
    (factMachine.run empty events).NewestGreatest := by
  have hbegun {left right : List FactEvent} (hevents : events = left ++ right) :
      (factMachine.run empty left).begun + right.countP isBegin < 2 ^ 64 := by
    have hle : (factMachine.run empty left).begun ≤ 0 + left.countP isBegin := begun_run empty left
    rw [hevents, List.countP_append] at hwrites
    omega
  have hordered : (factMachine.run empty events).Ordered := by
    have hstep : ∀ (db : FactDb) (event : FactEvent),
        (db.begun + (if isBegin event then 1 else 0) < 2 ^ 64 ∧ db.Orderly event) → db.Ordered →
          (factMachine.step db event).Ordered := fun _ _ hok hdb => hdb.step hok.1 hok.2
    refine factMachine.invariant_run_of hstep ordered_empty events fun t ht =>
      ⟨?_, horderly t ht⟩
    obtain ⟨left, right, hevents, hbefore, -⟩ := factMachine.mem_trace ht
    have hlt := hbegun hevents
    rw [List.countP_cons] at hlt
    rw [hbefore]
    omega
  exact hordered.newestGreatest (hbegun (List.append_nil events).symm)

/-- Two handles on an empty store hand out the same numbers: the older of two facts is surfaced
with the greater id. -/
def twoWriters : List FactEvent :=
  [.open, .open, .begin 0 (.storeFact "goal" "old"), .finish 0 (some "b"),
    .begin 1 (.storeFact "goal" "new"), .finish 1 (some "a")]

theorem twoWriters_not_newestGreatest :
    twoWriters.countP isBegin < 2 ^ 64 ∧
      (((factMachine.run empty twoWriters).live "goal").map fun fact =>
        (fact.content, String.ofList (surfacedId fact))) =
          [("old", "00000000000000000000_b"), ("new", "00000000000000000000_a")] ∧
      ¬ (factMachine.run empty twoWriters).NewestGreatest := by
  refine ⟨by decide, by decide, fun h => absurd h.2 ?_⟩
  decide

/-- One writer over two handles, the second opened after the first one's fact was stored. -/
def reopened : List FactEvent :=
  [.open, .begin 0 (.storeFact "goal" "old"), .finish 0 (some "b"), .open,
    .begin 1 (.storeFact "goal" "new"), .finish 1 (some "a")]

theorem reopened_newestGreatest :
    (∀ t ∈ factMachine.trace empty reopened, t.before.Orderly t.event) ∧
      (factMachine.run empty reopened).NewestGreatest := by
  have horderly : ∀ t ∈ factMachine.trace empty reopened, t.before.Orderly t.event := by
    simp [Machine.trace, factMachine, reopened, step, Orderly, empty,
      FactDb.store, FactDb.setHandle,
      FactWrite.reuses, FactWrite.callerKey, FactWrite.fact, FactWrite.stamped, seqFromMetadata,
      recoverFactSeq, asSeq]
  exact ⟨horderly, newest_fact_greatest reopened (by decide) horderly⟩

end FactDb

end Simard.Memory.FactOrder
