import Simard.Library.Lists
import Simard.Library.Sha256
import Simard.Memory.Snapshots

/-! Backups. A directory with a manifest, a snapshot and records is verified by what is in it;
the directories are ranked by their names, when the newest one is restored at a start and when
old ones are removed. -/
namespace Simard.Memory
open Simard.Library

structure BackupManifest where
  createdAt : Int
  cognitiveFactsCount : Nat
  cognitiveProceduresCount : Nat
  memoryRecordsCount : Nat
  checksum : String

/-- A directory below the backups, and those of its files that are there. -/
structure BackupDir where
  name : String
  manifest : Option (List UInt8)
  snapshot : Option (List UInt8)
  records : Option (List UInt8)
  deriving DecidableEq

/-- How the files are read: a snapshot as a whole, and for verification how many facts and
procedures it has; and how many records there are. -/
structure BackupFormat where
  manifest : List UInt8 → Option BackupManifest
  snapshot : List UInt8 → Option FullMemorySnapshot
  snapshotCounts : List UInt8 → Option (Nat × Nat)
  recordsCount : List UInt8 → Option Nat

inductive BackupStatus where
  | valid
  | corrupted (reason : String)
  | incomplete (missing : List String)
  deriving DecidableEq

structure BackupVerification where
  manifest : BackupManifest
  status : BackupStatus
  verifiedAt : Int

def manifestFile : String := "manifest.json"

def snapshotFile : String := "cognitive_snapshot.json"

def recordsFile : String := "memory_records.json"

variable (format : BackupFormat)

def verifyBackup (now : Int) (d : BackupDir) : Option BackupVerification :=
  match d.manifest with
  | none => some ⟨⟨now, 0, 0, 0, ""⟩, .incomplete [manifestFile], now⟩
  | some manifestBytes =>
      match format.manifest manifestBytes with
      | none => none
      | some manifest =>
          match d.snapshot, d.records with
          | some snapshot, some records =>
              let actual := sha256Hex (snapshot ++ records)
              if actual ≠ manifest.checksum then
                some ⟨manifest, .corrupted ("checksum mismatch: expected " ++ manifest.checksum ++
                  ", got " ++ actual), now⟩
              else
                match format.snapshotCounts snapshot, format.recordsCount records with
                | some (facts, procedures), some count =>
                    if facts ≠ manifest.cognitiveFactsCount ∨
                        procedures ≠ manifest.cognitiveProceduresCount ∨
                        count ≠ manifest.memoryRecordsCount then
                      some ⟨manifest, .corrupted "record counts do not match manifest", now⟩
                    else some ⟨manifest, .valid, now⟩
                | _, _ => none
          | snapshot, records =>
              some ⟨manifest, .incomplete ((if snapshot.isNone then [snapshotFile] else []) ++
                if records.isNone then [recordsFile] else []), now⟩

def validSince (now : Int) (d : BackupDir) : Option Int :=
  match verifyBackup format now d with
  | some ⟨manifest, .valid, _⟩ => some manifest.createdAt
  | _ => none

def ranked (dirs : List BackupDir) : List BackupDir :=
  dirs.insertionSort fun left right => right.name ≤ left.name

def newestNonemptySnapshot (dirs : List BackupDir) : Option (FullMemorySnapshot × String) :=
  (ranked dirs).findSome? fun d =>
    ((d.snapshot.bind format.snapshot).filter (0 < ·.totalItems)).map (·, d.name)

/-- The calls of a start, in their order; it stops at the first that fails. -/
def autoRestoreIfEmpty (listing : Listing) (dirs : List BackupDir) (memory : CognitiveStore) :
    List MemoryCall :=
  .getStatistics ::
    if 0 < memory.total then []
    else
      match newestNonemptySnapshot format dirs with
      | none => []
      | some (snapshot, _) => importFullSnapshot listing memory snapshot ++ [.checkpoint]

def interrupted (listing : Listing) (dirs : List BackupDir)
    (memory : CognitiveStore) (calls : Nat) :
    CognitiveStore :=
  memory.perform ((autoRestoreIfEmpty format listing dirs memory).take calls)

def restarted (listing : Listing) (dirs : List BackupDir) (memory : CognitiveStore)
    (stops : List Nat) : CognitiveStore :=
  let left := stops.foldl (interrupted format listing dirs) memory
  left.perform (autoRestoreIfEmpty format listing dirs left)

def storesAny (calls : List MemoryCall) : Bool := calls.any (·.stores.isSome)

/-- The calls that last: those before the first stop that comes after something was stored. -/
def lastingCalls (calls : List MemoryCall) (stops : List Nat) : List MemoryCall :=
  match stops.find? fun n => storesAny (calls.take n) with
  | some n => calls.take n
  | none => calls

theorem total_apply (s : CognitiveStore) (c : MemoryCall) :
    (s.apply c).total = s.total + if c.stores.isSome then 1 else 0 := by
  cases c <;>
    simp [CognitiveStore.apply, CognitiveStore.total, MemoryCall.stores,
      ProspectiveStore.storeProspective, ProspectiveStore.resolveProspective,
      ProspectiveStore.mark] <;>
    omega

theorem total_perform (s : CognitiveStore) (calls : List MemoryCall) :
    (s.perform calls).total = s.total + calls.countP (·.stores.isSome) := by
  induction calls generalizing s with
  | nil => rfl
  | cons c calls ih =>
    have hstep : s.perform (c :: calls) = (s.apply c).perform calls := rfl
    rw [hstep, ih, total_apply, List.countP_cons]
    omega

theorem perform_of_not_storesAny {calls : List MemoryCall} (h : storesAny calls = false) :
    CognitiveStore.empty.perform calls = .empty := by
  induction calls with
  | nil => rfl
  | cons c calls ih =>
    simp only [storesAny, List.any_cons, Bool.or_eq_false_iff] at h
    have hstep : CognitiveStore.empty.apply c = .empty := by
      cases c with
      | storeFact _ | storeProcedure _ | storeEpisode _ | storeProspective _ _ _ _ => cases h.1
      | _ => rfl
    change (CognitiveStore.empty.apply c).perform calls = .empty
    rw [hstep]
    exact ih h.2

variable {format} {listing : Listing} {dirs : List BackupDir}

theorem autoRestore_nonempty {memory : CognitiveStore} (h : memory.total ≠ 0) :
    autoRestoreIfEmpty format listing dirs memory = [.getStatistics] := by
  rw [autoRestoreIfEmpty, if_pos (Nat.pos_of_ne_zero h)]

theorem interrupted_nonempty {memory : CognitiveStore} (h : memory.total ≠ 0) (calls : Nat) :
    interrupted format listing dirs memory calls = memory := by
  rw [interrupted, autoRestore_nonempty h]
  cases calls with
  | zero => rfl
  | succ calls =>
    rw [List.take_succ_cons, List.take_nil]
    rfl

theorem interrupts_nonempty {memory : CognitiveStore} (h : memory.total ≠ 0) (stops : List Nat) :
    stops.foldl (interrupted format listing dirs) memory = memory := by
  induction stops with
  | nil => rfl
  | cons n stops ih => rw [List.foldl_cons, interrupted_nonempty h, ih]

theorem restarted_nonempty {memory : CognitiveStore} (h : memory.total ≠ 0) (stops : List Nat) :
    restarted format listing dirs memory stops = memory := by
  simp only [restarted, interrupts_nonempty h, autoRestore_nonempty h]
  rfl

theorem total_of_storesAny {calls : List MemoryCall} (h : storesAny calls = true) :
    (CognitiveStore.empty.perform calls).total ≠ 0 := by
  have hpos : 0 < calls.countP (·.stores.isSome) := List.countP_pos_iff.mpr (List.any_eq_true.mp h)
  rw [total_perform]
  omega

theorem restarted_empty (stops : List Nat) :
    restarted format listing dirs .empty stops = CognitiveStore.empty.perform
      (lastingCalls (autoRestoreIfEmpty format listing dirs .empty) stops) := by
  induction stops with
  | nil => rfl
  | cons n stops ih =>
    have hfirst : restarted format listing dirs .empty (n :: stops) =
        restarted format listing dirs (interrupted format listing dirs .empty n) stops := rfl
    rw [hfirst, interrupted, lastingCalls, List.find?_cons]
    cases hstores : storesAny ((autoRestoreIfEmpty format listing dirs .empty).take n) with
    | true => exact restarted_nonempty (total_of_storesAny hstores) stops
    | false =>
      rw [perform_of_not_storesAny hstores, ih]
      rfl

theorem keys_take_iff {calls : List MemoryCall}
    (hnodup : (calls.filterMap MemoryCall.stores).Nodup) (n : Nat) :
    (∀ k ∈ calls.filterMap MemoryCall.stores, k ∈ (calls.take n).filterMap MemoryCall.stores) ↔
      storesAny (calls.drop n) = false := by
  have hsplit : calls.filterMap MemoryCall.stores =
      (calls.take n).filterMap MemoryCall.stores ++ (calls.drop n).filterMap MemoryCall.stores := by
    rw [← List.filterMap_append, List.take_append_drop]
  have hrest : storesAny (calls.drop n) = false ↔
      (calls.drop n).filterMap MemoryCall.stores = [] := by
    rw [storesAny, List.any_eq_false, List.filterMap_eq_nil_iff]
    simp only [Option.not_isSome_iff_eq_none]
  rw [hrest]
  constructor
  · intro hall
    rw [List.eq_nil_iff_forall_not_mem]
    intro k hk
    rw [hsplit] at hnodup hall
    exact (List.nodup_append.mp hnodup).2.2 k (hall k (List.mem_append_right _ hk)) k hk rfl
  · intro hnil k hk
    rwa [hsplit, hnil, List.append_nil] at hk

theorem stores_autoRestore (listing : Listing) {snapshot : FullMemorySnapshot} {source : String}
    (h : newestNonemptySnapshot format dirs = some (snapshot, source)) :
    ((autoRestoreIfEmpty format listing dirs .empty).filterMap MemoryCall.stores).Nodup ∧
      ∀ k, k ∈ (autoRestoreIfEmpty format listing dirs .empty).filterMap MemoryCall.stores ↔
        k ∈ snapshot.keys := by
  have hcalls : (autoRestoreIfEmpty format listing dirs .empty).filterMap MemoryCall.stores =
      (importFullSnapshot listing .empty snapshot).filterMap MemoryCall.stores := by
    have hempty : ¬0 < CognitiveStore.empty.total := by decide
    rw [autoRestoreIfEmpty, if_neg hempty, h]
    dsimp only
    rw [List.filterMap_cons_none rfl, List.filterMap_append, List.filterMap_cons_none rfl,
      List.filterMap_nil, List.append_nil]
  rw [hcalls]
  exact stores_import listing snapshot

/-- Starts that stop leave what the first that stored anything has stored, and that is all of the
snapshot exactly if this start had nothing more to store; a store that holds anything is never
written. -/
theorem restarted_spec (format : BackupFormat) (listing : Listing) (dirs : List BackupDir)
    {snapshot : FullMemorySnapshot} {source : String}
    (hnewest : newestNonemptySnapshot format dirs = some (snapshot, source)) (stops : List Nat) :
    (∀ k, k ∈ (restarted format listing dirs .empty stops).keys ↔
      k ∈ (lastingCalls (autoRestoreIfEmpty format listing dirs .empty) stops).filterMap
        MemoryCall.stores) ∧
    ((∀ k ∈ snapshot.keys, k ∈ (restarted format listing dirs .empty stops).keys) ↔
      ∀ n, (stops.find? fun n =>
          storesAny ((autoRestoreIfEmpty format listing dirs .empty).take n)) = some n →
        storesAny ((autoRestoreIfEmpty format listing dirs .empty).drop n) = false) ∧
    ∀ memory : CognitiveStore, memory.total ≠ 0 →
      stops.foldl (interrupted format listing dirs) memory = memory ∧
        restarted format listing dirs memory stops = memory := by
  obtain ⟨hnodup, hkeys⟩ := stores_autoRestore listing hnewest
  have hleft (k : DedupKey) : k ∈ (restarted format listing dirs .empty stops).keys ↔
      k ∈ (lastingCalls (autoRestoreIfEmpty format listing dirs .empty) stops).filterMap
        MemoryCall.stores := by
    have hempty : k ∉ CognitiveStore.empty.keys := List.not_mem_nil
    rw [restarted_empty, mem_keys_perform, or_iff_right hempty]
  refine ⟨hleft, ?_, fun memory h => ⟨interrupts_nonempty h stops, restarted_nonempty h stops⟩⟩
  simp only [hleft, ← hkeys, lastingCalls]
  cases stops.find? fun n => storesAny ((autoRestoreIfEmpty format listing dirs .empty).take n) with
  | none => exact iff_of_true (fun _ hk => hk) nofun
  | some n =>
    rw [keys_take_iff hnodup n]
    simp only [Option.some.injEq, forall_eq']

def cacheFact : CognitiveFact :=
  ⟨"lesson-learned", "flush the cache first", 9 / 10, [], "distiller"⟩

def lockFact : CognitiveFact := ⟨"bug-pattern", "the lock is stale", 9 / 10, [], "distiller"⟩

def factText (nodeId concept content : String) : String :=
  "\x7b\"node_id\":\"" ++ nodeId ++ "\",\"concept\":\"" ++ concept ++
    "\",\"content\":\"" ++ content ++
    "\",\"confidence\":0.9,\"source_id\":\"distiller\",\"tags\":[]\x7d"

def twoFactsText : List UInt8 := utf8 ("\x7b\"facts\":[" ++
  factText "f-1" "lesson-learned" "flush the cache first" ++ "," ++
  factText "f-2" "bug-pattern" "the lock is stale" ++
  "],\"procedures\":[],\"exported_at\":0,\"source_agent\":\"simard\"\x7d").toList

def twoFacts : FullMemorySnapshot := ⟨[cacheFact, lockFact], [], [], [], "simard"⟩

def reads {α : Type} (text : List UInt8) (value : α) (bytes : List UInt8) : Option α :=
  if bytes = text then some value else none

theorem reads_self {α : Type} (text : List UInt8) (value : α) :
    reads text value text = some value :=
  if_pos rfl

def plainFormat (text : List UInt8) (snapshot : FullMemorySnapshot) : BackupFormat :=
  ⟨fun _ => none, reads text snapshot, fun _ => none, fun _ => none⟩

def plainBackup (text : List UInt8) : BackupDir := ⟨"20260101_000000", none, some text, none⟩

theorem newest_plainBackup (text : List UInt8) {snapshot : FullMemorySnapshot}
    (h : 0 < snapshot.totalItems) :
    newestNonemptySnapshot (plainFormat text snapshot) [plainBackup text] =
      some (snapshot, "20260101_000000") := by
  simp [newestNonemptySnapshot, ranked, plainFormat, plainBackup, reads_self, h]

def twoFactsFormat : BackupFormat := plainFormat twoFactsText twoFacts

def twoFactsBackup : BackupDir := plainBackup twoFactsText

theorem newest_twoFacts : newestNonemptySnapshot twoFactsFormat [twoFactsBackup] =
    some (twoFacts, "20260101_000000") := newest_plainBackup twoFactsText (by decide)

theorem calls_twoFacts : autoRestoreIfEmpty twoFactsFormat inOrder [twoFactsBackup] .empty =
    [.getStatistics, .searchFacts, .storeFact cacheFact, .storeFact lockFact, .recallProcedure,
      .listAllEpisodes, .listAllProspective, .checkpoint] := by
  have hempty : ¬0 < CognitiveStore.empty.total := by decide
  have hfacts : unseen CognitiveFact.key [] [cacheFact, lockFact] = [cacheFact, lockFact] := by
    have hkeys : lockFact.key ∉ [cacheFact.key] := by decide
    simp [unseen, List.mem_singleton.not.mp hkeys]
  rw [autoRestoreIfEmpty, if_neg hempty, newest_twoFacts]
  dsimp only
  rw [importFullSnapshot_empty]
  simp only [twoFacts, hfacts]
  rfl

theorem twoFacts_restarted : newestNonemptySnapshot twoFactsFormat [twoFactsBackup] =
      some (twoFacts, "20260101_000000") ∧
    ∀ k ∈ twoFacts.keys,
      k ∈ (restarted twoFactsFormat inOrder [twoFactsBackup] .empty [2, 4]).keys := by
  refine ⟨newest_twoFacts, ?_⟩
  apply (restarted_spec twoFactsFormat inOrder [twoFactsBackup] newest_twoFacts [2, 4]).2.1.mpr
  intro n hn
  rw [calls_twoFacts] at hn ⊢
  obtain rfl : 4 = n := Option.some.inj hn
  rfl

/-- Stopped after the first fact: the second is never restored. -/
theorem twoFacts_lost : newestNonemptySnapshot twoFactsFormat [twoFactsBackup] =
      some (twoFacts, "20260101_000000") ∧
    ¬∀ k ∈ twoFacts.keys,
      k ∈ (restarted twoFactsFormat inOrder [twoFactsBackup] .empty [3]).keys := by
  refine ⟨newest_twoFacts, ?_⟩
  rw [restarted_empty, calls_twoFacts]
  intro h
  have hlock := h lockFact.key (List.mem_cons_of_mem _ List.mem_cons_self)
  revert hlock
  decide

structure BackupConfig where
  retentionDays : Nat
  minBackupsToKeep : Nat

/-- The instant before which a backup is old; none if there is no such instant. -/
def retentionCutoff (earliest now : Int) (config : BackupConfig) : Option Int :=
  let cutoff := now - config.retentionDays * (86400 * 10 ^ 9)
  if cutoff < earliest then none else some cutoff

def shouldPrune (format : BackupFormat) (cutoff : Int) (d : BackupDir) : Bool :=
  match d.manifest.bind format.manifest with
  | some m => m.createdAt < cutoff
  | none => true

/-- What removing a directory leaves of it; none if it succeeds. -/
structure Removal where
  leaves : BackupDir → Option BackupDir
  name_eq : ∀ d left, leaves d = some left → left.name = d.name

def Removal.succeeds : Removal := ⟨fun _ => none, nofun⟩

/-- The directories afterwards, and how many were removed. -/
structure Pruned where
  dirs : List BackupDir
  pruned : Nat

def pruneOldBackups (format : BackupFormat) (removal : Removal) (earliest now : Int)
    (config : BackupConfig) (dirs : List BackupDir) : Pruned :=
  match retentionCutoff earliest now config with
  | none => ⟨dirs, 0⟩
  | some cutoff =>
      let entries := ranked dirs
      { dirs := entries.take config.minBackupsToKeep ++
          (entries.drop config.minBackupsToKeep).filterMap fun d =>
            if shouldPrune format cutoff d then removal.leaves d else some d
        pruned := (entries.drop config.minBackupsToKeep).countP fun d =>
          shouldPrune format cutoff d && (removal.leaves d).isNone }

/-- Directories below one directory have different names. -/
structure BackupRoot where
  dirs : List BackupDir
  named : (dirs.map BackupDir.name).Nodup

section Retention

variable (format : BackupFormat) (removal : Removal) (earliest now : Int) (config : BackupConfig)

def isValid (now : Int) (d : BackupDir) : Bool := (validSince format now d).isSome

def madeAt (now : Int) (d : BackupDir) : Int := (validSince format now d).getD 0

/-- As many valid backups as are to be kept, or all, that are newer than the other valid ones or as
new, and are still there; none that is young is gone; and the next call removes nothing. -/
structure RetentionPromise (root : BackupRoot) : Prop where
  newest : ∃ kept : List BackupDir, kept.Nodup ∧
    kept.length = min config.minBackupsToKeep (root.dirs.countP (isValid format now)) ∧
    (∀ d ∈ kept, d ∈ root.dirs ∧ isValid format now d = true ∧
      d ∈ (pruneOldBackups format removal earliest now config root.dirs).dirs) ∧
    ∀ d ∈ kept, ∀ e ∈ root.dirs, isValid format now e = true → e ∉ kept →
      madeAt format now e ≤ madeAt format now d
  young : ∀ d ∈ root.dirs, isValid format now d = true →
    now - config.retentionDays * (86400 * 10 ^ 9) ≤ madeAt format now d →
    d ∈ (pruneOldBackups format removal earliest now config root.dirs).dirs
  again : pruneOldBackups format .succeeds earliest now config
      (pruneOldBackups format .succeeds earliest now config root.dirs).dirs =
    ⟨(pruneOldBackups format .succeeds earliest now config root.dirs).dirs, 0⟩

/-- A valid backup that is old, is not among the first names and is removed or damaged. -/
def loses (root : BackupRoot) (d : BackupDir) : Bool :=
  match retentionCutoff earliest now config with
  | none => false
  | some cutoff => ((ranked root.dirs).drop config.minBackupsToKeep).contains d &&
      isValid format now d && madeAt format now d < cutoff && removal.leaves d ≠ some d

/-- For every valid backup that is lost, enough valid ones that are as new are not. -/
def Spared (root : BackupRoot) : Prop :=
  ∀ d ∈ root.dirs, loses format removal earliest now config root d = true →
    config.minBackupsToKeep ≤ root.dirs.countP fun e => isValid format now e &&
      madeAt format now d ≤ madeAt format now e && !loses format removal earliest now config root e

variable {format removal earliest now config} {root : BackupRoot} {d : BackupDir}

theorem valid_manifest (h : isValid format now d = true) :
    ∃ m, d.manifest.bind format.manifest = some m ∧ madeAt format now d = m.createdAt := by
  obtain ⟨since, hsince⟩ := Option.isSome_iff_exists.mp h
  rw [madeAt, hsince, Option.getD_some]
  unfold validSince at hsince
  split at hsince
  next manifest _ hverified =>
    obtain rfl := Option.some.inj hsince
    unfold verifyBackup at hverified
    split at hverified
    · cases hverified
    next manifestBytes hmanifest =>
      split at hverified
      · cases hverified
      next m hread =>
        rw [hmanifest]
        refine ⟨m, hread, ?_⟩
        split at hverified
        · dsimp only at hverified
          split at hverified
          · cases hverified
          · split at hverified
            · split at hverified
              · cases hverified
              · obtain rfl := congrArg BackupVerification.manifest (Option.some.inj hverified)
                rfl
            · cases hverified
        · cases hverified
  · cases hsince

theorem shouldPrune_of_valid (h : isValid format now d = true) (cutoff : Int) :
    shouldPrune format cutoff d = decide (madeAt format now d < cutoff) := by
  obtain ⟨m, hread, hmade⟩ := valid_manifest h
  rw [shouldPrune, hread, hmade]

theorem mem_ranked {dirs : List BackupDir} : d ∈ ranked dirs ↔ d ∈ dirs := List.mem_insertionSort _

theorem nodup_ranked (root : BackupRoot) : (ranked root.dirs).Nodup :=
  (List.perm_insertionSort _ _).nodup_iff.mpr (List.Nodup.of_map _ root.named)

theorem eq_of_name_eq {e : BackupDir} (hd : d ∈ root.dirs) (he : e ∈ root.dirs)
    (h : d.name = e.name) : d = e := List.inj_on_of_nodup_map root.named hd he h

theorem mem_pruned_iff (hd : d ∈ root.dirs) (hvalid : isValid format now d = true) :
    d ∈ (pruneOldBackups format removal earliest now config root.dirs).dirs ↔
      loses format removal earliest now config root d = false := by
  unfold pruneOldBackups loses
  cases retentionCutoff earliest now config with
  | none => exact iff_of_true hd rfl
  | some cutoff =>
    dsimp only
    have hsplit : d ∈ (ranked root.dirs).take config.minBackupsToKeep ∨
        d ∈ (ranked root.dirs).drop config.minBackupsToKeep := by
      rw [← List.mem_append, List.take_append_drop]
      exact mem_ranked.mpr hd
    rw [List.mem_append, List.mem_filterMap, hvalid, Bool.and_true]
    constructor
    · rintro (hfirst | ⟨e, he, hleft⟩)
      · have hnot : d ∉ (ranked root.dirs).drop config.minBackupsToKeep := by
          have hnodup := nodup_ranked root
          rw [← List.take_append_drop config.minBackupsToKeep (ranked root.dirs)] at hnodup
          exact fun hlater => (List.nodup_append.mp hnodup).2.2 d hfirst d hlater rfl
        rw [show ((ranked root.dirs).drop config.minBackupsToKeep).contains d = false by
          simpa using hnot]
        rfl
      · have hedirs := mem_ranked.mp (List.mem_of_mem_drop he)
        have hsame : e = d := by
          split at hleft
          · exact (eq_of_name_eq hd hedirs (removal.name_eq e d hleft)).symm
          · exact Option.some.inj hleft
        rw [hsame, shouldPrune_of_valid hvalid] at hleft
        split at hleft
        next => simp [hleft]
        next hyoung =>
          rw [decide_eq_true_eq] at hyoung
          simp [hyoung]
    · intro hkept
      rcases hsplit with hfirst | hlater
      · exact .inl hfirst
      · refine .inr ⟨d, hlater, ?_⟩
        rw [shouldPrune_of_valid hvalid]
        split
        next hold =>
          have hleft : d ∈ (ranked root.dirs).drop config.minBackupsToKeep →
              removal.leaves d = some d := by simpa [of_decide_eq_true hold] using hkept
          exact hleft hlater
        · rfl

theorem isValid_of_loses (h : loses format removal earliest now config root d = true) :
    isValid format now d = true := by
  unfold loses at h
  split at h
  · cases h
  · simp only [Bool.and_eq_true] at h
    exact h.1.1.2

theorem length_le_countP {l kept : List BackupDir} {p : BackupDir → Bool} (hnodup : kept.Nodup)
    (h : ∀ d ∈ kept, d ∈ l ∧ p d = true) : kept.length ≤ l.countP p := by
  rw [List.countP_eq_length_filter]
  exact (List.subperm_of_subset hnodup fun d hd => List.mem_filter.mpr (h d hd)).length_le

theorem newest_iff_spared : (∃ kept : List BackupDir, kept.Nodup ∧
      kept.length = min config.minBackupsToKeep (root.dirs.countP (isValid format now)) ∧
      (∀ d ∈ kept, d ∈ root.dirs ∧ isValid format now d = true ∧
        d ∈ (pruneOldBackups format removal earliest now config root.dirs).dirs) ∧
      ∀ d ∈ kept, ∀ e ∈ root.dirs, isValid format now e = true → e ∉ kept →
        madeAt format now e ≤ madeAt format now d) ↔
    Spared format removal earliest now config root := by
  constructor
  · rintro ⟨kept, hnodup, hlength, hkept, hnewer⟩ d hd hlost
    have hvalid := isValid_of_loses hlost
    have hnot : d ∉ kept := by
      intro hmem
      have hstill := (mem_pruned_iff hd hvalid).mp (hkept d hmem).2.2
      rw [hlost] at hstill
      cases hstill
    have hmore : kept.length < root.dirs.countP (isValid format now) := by
      refine length_le_countP (List.nodup_cons.mpr ⟨hnot, hnodup⟩) ?_
      rw [List.forall_mem_cons]
      exact ⟨⟨hd, hvalid⟩, fun e he => ⟨(hkept e he).1, (hkept e he).2.1⟩⟩
    have henough : kept.length = config.minBackupsToKeep := by omega
    rw [← henough]
    refine length_le_countP hnodup fun e he => ?_
    obtain ⟨hedirs, hevalid, hestill⟩ := hkept e he
    refine ⟨hedirs, ?_⟩
    simp only [hevalid, hnewer e he d hd hvalid hnot, (mem_pruned_iff hedirs hevalid).mp hestill,
      decide_true, Bool.not_false, Bool.and_self]
  · intro hspared
    -- the newest of those that are not lost
    let down : BackupDir → BackupDir → Prop := fun d e => madeAt format now e ≤ madeAt format now d
    let left := root.dirs.filter fun d =>
      isValid format now d && !loses format removal earliest now config root d
    have hmemLeft (d : BackupDir) : d ∈ left.insertionSort down ↔ d ∈ root.dirs ∧
        isValid format now d = true ∧ loses format removal earliest now config root d = false := by
      rw [List.mem_insertionSort, List.mem_filter, Bool.and_eq_true, Bool.not_eq_true']
    have hdown : (left.insertionSort down).Pairwise down := List.pairwise_insertionSort down left
    have hnodup : (left.insertionSort down).Nodup :=
      (List.perm_insertionSort down left).nodup_iff.mpr
        ((List.Nodup.of_map _ root.named).filter _)
    have henough : min config.minBackupsToKeep (root.dirs.countP (isValid format now)) ≤
        (left.insertionSort down).length := by
      rw [List.length_insertionSort]
      by_cases hlost : ∃ d ∈ root.dirs, loses format removal earliest now config root d = true
      · obtain ⟨d, hd, hlost⟩ := hlost
        refine (Nat.min_le_left _ _).trans ((hspared d hd hlost).trans ?_)
        rw [← List.countP_eq_length_filter]
        apply List.countP_mono_left
        intro e _ he
        simp only [Bool.and_eq_true] at he ⊢
        exact ⟨he.1.1, he.2⟩
      · refine (Nat.min_le_right _ _).trans ?_
        rw [← List.countP_eq_length_filter]
        apply List.countP_mono_left
        intro e he hevalid
        have hnot : loses format removal earliest now config root e = false :=
          Bool.eq_false_iff.mpr fun h => hlost ⟨e, he, h⟩
        rw [hevalid, hnot]
        rfl
    refine ⟨(left.insertionSort down).take
      (min config.minBackupsToKeep (root.dirs.countP (isValid format now))),
      hnodup.sublist (List.take_sublist _ _), ?_, ?_, ?_⟩
    · rw [List.length_take, Nat.min_eq_left henough]
    · intro d hd
      obtain ⟨hdirs, hvalid, hkept⟩ := (hmemLeft d).mp (List.mem_of_mem_take hd)
      exact ⟨hdirs, hvalid, (mem_pruned_iff hdirs hvalid).mpr hkept⟩
    · intro d hd e he hevalid hnot
      by_cases hlost : loses format removal earliest now config root e = true
      · have hcount : min config.minBackupsToKeep (root.dirs.countP (isValid format now)) ≤
            (left.insertionSort down).countP fun d => madeAt format now e ≤
              madeAt format now d := by
          refine (Nat.min_le_left _ _).trans ((hspared e he hlost).trans ?_)
          rw [(List.perm_insertionSort down left).countP_eq, List.countP_filter]
          apply List.countP_mono_left
          intro other _ hother
          simp only [Bool.and_eq_true] at hother ⊢
          exact ⟨hother.1.2, hother.1.1, hother.2⟩
        have hall := take_of_countP hdown (fun a b hab hb =>
          decide_eq_true ((of_decide_eq_true hb).trans hab)) hcount d hd
        exact of_decide_eq_true hall
      · have hmem : e ∈ left.insertionSort down :=
          (hmemLeft e).mpr ⟨he, hevalid, Bool.eq_false_iff.mpr hlost⟩
        rw [← List.take_append_drop (min config.minBackupsToKeep
          (root.dirs.countP (isValid format now))) (left.insertionSort down)] at hmem hdown
        rcases List.mem_append.mp hmem with hfirst | hlater
        · exact absurd hfirst hnot
        · exact (List.pairwise_append.mp hdown).2.2 d hd e hlater

theorem ranked_of_pairwise {dirs : List BackupDir}
    (h : dirs.Pairwise fun left right => right.name ≤ left.name) : ranked dirs = dirs :=
  List.Pairwise.insertionSort_eq h

theorem filterMap_young {cutoff : Int} {l : List BackupDir}
    (h : ∀ d ∈ l, shouldPrune format cutoff d = false) :
    (l.filterMap fun d => if shouldPrune format cutoff d then none else some d) = l := by
  rw [List.filterMap_congr (g := some), List.filterMap_some]
  intro d hd
  rw [h d hd]
  rfl

theorem filterMap_sublist {cutoff : Int} (l : List BackupDir) :
    (l.filterMap fun d => if shouldPrune format cutoff d then none else some d).Sublist l := by
  induction l with
  | nil => exact List.Sublist.refl _
  | cons d l ih =>
    rw [List.filterMap_cons]
    split
    · exact ih.cons d
    next hkept =>
      split at hkept
      · cases hkept
      · exact Option.some.inj hkept ▸ ih.cons_cons d

theorem pruneOldBackups_again (dirs : List BackupDir) :
    pruneOldBackups format .succeeds earliest now config
        (pruneOldBackups format .succeeds earliest now config dirs).dirs =
      ⟨(pruneOldBackups format .succeeds earliest now config dirs).dirs, 0⟩ := by
  unfold pruneOldBackups
  cases retentionCutoff earliest now config with
  | none => rfl
  | some cutoff =>
    dsimp only [Removal.succeeds]
    have hsplit := List.take_append_drop config.minBackupsToKeep (ranked dirs)
    have hshort : ((ranked dirs).take config.minBackupsToKeep).length ≤ config.minBackupsToKeep :=
      List.length_take_le _ _
    generalize (ranked dirs).take config.minBackupsToKeep = first at hsplit hshort
    generalize (ranked dirs).drop config.minBackupsToKeep = last at hsplit
    have hyoung : ∀ d ∈ last.filterMap (fun d =>
        if shouldPrune format cutoff d then none else some d),
          shouldPrune format cutoff d = false := by
      intro d hd
      obtain ⟨e, -, hkept⟩ := List.mem_filterMap.mp hd
      split at hkept
      · cases hkept
      next hnot => exact Option.some.inj hkept ▸ Bool.eq_false_iff.mpr hnot
    have hsub : (last.filterMap fun d =>
        if shouldPrune format cutoff d then none else some d).Sublist last :=
      filterMap_sublist last
    generalize (last.filterMap fun d =>
      if shouldPrune format cutoff d then none else some d) = rest at hyoung hsub
    have hranked : ranked (first ++ rest) = first ++ rest := by
      apply ranked_of_pairwise
      have hdown : (first ++ last).Pairwise fun left right => right.name ≤ left.name := by
        rw [hsplit]
        exact List.pairwise_insertionSort _ _
      exact hdown.sublist ((List.Sublist.refl _).append hsub)
    have hdrop : ∀ d ∈ (first ++ rest).drop config.minBackupsToKeep,
        shouldPrune format cutoff d = false := by
      intro d hd
      rw [List.drop_append, List.drop_of_length_le hshort, List.nil_append] at hd
      exact hyoung d (List.mem_of_mem_drop hd)
    rw [hranked, filterMap_young hdrop, List.take_append_drop, Pruned.mk.injEq]
    refine ⟨rfl, List.countP_eq_zero.mpr ?_⟩
    intro d hd
    rw [hdrop d hd]
    exact Bool.false_ne_true

/-- The promise is kept exactly where every lost backup is made up for. -/
theorem retentionPromise_iff_spared (format : BackupFormat) (removal : Removal)
    (earliest now : Int) (config : BackupConfig) (root : BackupRoot) :
    RetentionPromise format removal earliest now config root ↔
      Spared format removal earliest now config root := by
  constructor
  · intro h
    exact newest_iff_spared.mp h.newest
  · intro hspared
    refine ⟨newest_iff_spared.mpr hspared, ?_, pruneOldBackups_again root.dirs⟩
    intro d hd hvalid hyoung
    rw [mem_pruned_iff hd hvalid]
    unfold loses
    cases hcutoff : retentionCutoff earliest now config with
    | none => rfl
    | some cutoff =>
      have hvalue : cutoff = now - config.retentionDays * (86400 * 10 ^ 9) := by
        simp only [retentionCutoff] at hcutoff
        split at hcutoff
        · cases hcutoff
        · exact (Option.some.inj hcutoff).symm
      have hnot : ¬madeAt format now d < cutoff := by
        rw [hvalue]
        exact not_lt.mpr hyoung
      simp [hnot]

end Retention

def emptySnapshotText : List UInt8 :=
  utf8 ("\x7b\"facts\":[],\"procedures\":[],\"episodes\":[],\"prospective\":[]," ++
    "\"exported_at\":0,\"source_agent\":\"simard\"\x7d").toList

def noRecordsText : List UInt8 := utf8 "[]".toList

def emptyManifest : BackupManifest := ⟨0, 0, 0, 0, sha256Hex (emptySnapshotText ++ noRecordsText)⟩

def emptyManifestText : List UInt8 :=
  utf8 ("\x7b\"backup_dir\":\"/b/19700101_000000\",\"created_at\":\"1970-01-01T00:00:00Z\"," ++
    "\"cognitive_snapshot_path\":\"/b/19700101_000000/cognitive_snapshot.json\"," ++
    "\"memory_records_path\":\"/b/19700101_000000/memory_records.json\"," ++
    "\"cognitive_facts_count\":0,\"cognitive_procedures_count\":0,\"memory_records_count\":0," ++
    "\"checksum\":\"" ++ emptyManifest.checksum ++ "\"\x7d").toList

def textFormat (manifestText snapshotText recordsText : List UInt8) (m : BackupManifest) :
    BackupFormat :=
  ⟨reads manifestText m, fun _ => none, reads snapshotText (0, 0), reads recordsText 0⟩

def textBackup (manifestText snapshotText recordsText : List UInt8) : BackupDir :=
  ⟨"19700101_000000", some manifestText, some snapshotText, some recordsText⟩

theorem verify_textBackup (manifestText snapshotText recordsText : List UInt8) (now since : Int) :
    verifyBackup (textFormat manifestText snapshotText recordsText
        ⟨since, 0, 0, 0, sha256Hex (snapshotText ++ recordsText)⟩) now
      (textBackup manifestText snapshotText recordsText) =
        some ⟨⟨since, 0, 0, 0, sha256Hex (snapshotText ++ recordsText)⟩, .valid, now⟩ := by
  simp [verifyBackup, textFormat, textBackup, reads_self]

def emptyFormat : BackupFormat :=
  textFormat emptyManifestText emptySnapshotText noRecordsText emptyManifest

def emptyBackup : BackupDir := textBackup emptyManifestText emptySnapshotText noRecordsText

theorem verify_emptyBackup (now : Int) :
    verifyBackup emptyFormat now emptyBackup = some ⟨emptyManifest, .valid, now⟩ :=
  verify_textBackup emptyManifestText emptySnapshotText noRecordsText now 0

theorem validSince_emptyBackup (now : Int) : validSince emptyFormat now emptyBackup = some 0 := by
  rw [validSince, verify_emptyBackup]
  rfl

def otherDir : BackupDir := ⟨"scratch", none, none, none⟩

/-- The only valid backup, next to a directory of another name. -/
def crowdedRoot : BackupRoot := ⟨[otherDir, emptyBackup], by decide⟩

theorem ranked_crowdedRoot : ranked crowdedRoot.dirs = [otherDir, emptyBackup] := by
  apply ranked_of_pairwise
  have hname : emptyBackup.name ≤ otherDir.name := by decide
  simp [crowdedRoot, hname]

def hundredDays : Int := 100 * (86400 * 10 ^ 9)

def longAgo : Int := -(10 ^ 21)

/-- To keep one backup, the only one is removed: the other directory counts as the newest. -/
theorem only_backup_removed : isValid emptyFormat hundredDays emptyBackup = true ∧
    ¬RetentionPromise emptyFormat .succeeds longAgo hundredDays ⟨30, 1⟩ crowdedRoot := by
  have hvalid : isValid emptyFormat hundredDays emptyBackup = true := by
    rw [isValid, validSince_emptyBackup]
    rfl
  have hcutoff : retentionCutoff longAgo hundredDays ⟨30, 1⟩ = some (70 * (86400 * 10 ^ 9)) := by
    decide
  have hlost : loses emptyFormat .succeeds longAgo hundredDays ⟨30, 1⟩ crowdedRoot emptyBackup =
      true := by
    simp [loses, hcutoff, ranked_crowdedRoot, hvalid, madeAt, validSince_emptyBackup,
      Removal.succeeds]
  refine ⟨hvalid, ?_⟩
  intro h
  have hone := newest_iff_spared.mp h.newest emptyBackup
    (List.mem_cons_of_mem _ List.mem_cons_self) hlost
  have hdirs : crowdedRoot.dirs = [otherDir, emptyBackup] := rfl
  have hother : isValid emptyFormat hundredDays otherDir = false := rfl
  simp [hdirs, hlost, hother] at hone

end Simard.Memory
