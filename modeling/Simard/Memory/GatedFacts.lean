import Simard.Library.Lists
import Simard.Library.History
import Simard.Library.Machine
import Simard.Library.Text

/-! Facts that are written through the gate. A request searches twice, decides, stores and is
entered in the ledger of its pass, in so many calls; other requests run between any two of
them. -/
namespace Simard.Memory
open Simard.Library

def reliabilityThreshold : ℚ := 1 / 2

def dedupPriorScanLimit : Nat := 5

def knownConcepts : List String := ["pr-pattern", "bug-pattern", "lesson-learned"]

def labelMarks : List Char := "\"'`.,:;".toList

def foldSeparators : Bool → List Char → List Char
  | _, [] => []
  | prevHyphen, ch :: rest =>
      let c := if ch = '_' || ch = ' ' then '-' else ch.toLower
      if c = '-' then
        if prevHyphen then foldSeparators true rest else '-' :: foldSeparators true rest
      else c :: foldSeparators false rest

def canonicalConcept (raw : String) : Option String :=
  let trimmed := trimMatches (fun c => isWhitespace c || labelMarks.contains c) (trim raw.toList)
  let canon := String.ofList (trimMatches (· = '-') (foldSeparators false trimmed))
  if canon ∈ knownConcepts then some canon else none

def conceptLabel (raw : String) : String := (canonicalConcept raw).getD raw

/-- Letters and digits, and lower case, of all scripts. -/
structure CharTables where
  isAlphanumeric : Char → Bool
  toLowercase : Char → List Char

def fullContentWordBucket : Nat := 3

/-- The words seen for the first time among tokens, up to a number of them. -/
def countInformative (tables : CharTables) (cap : Nat) : List (List Char) → List (List Char) → Nat
  | seen, [] => seen.length
  | seen, token :: rest =>
      let normalized := (token.filter tables.isAlphanumeric).flatMap tables.toLowercase
      if normalized = [] then countInformative tables cap seen rest
      else
        let seen := if normalized ∈ seen then seen else normalized :: seen
        if cap ≤ seen.length then seen.length else countInformative tables cap seen rest

def distinctInformativeWords (tables : CharTables) (content : String) (cap : Nat) : Nat :=
  countInformative tables cap [] (splitWhitespace content.toList)

def scoreFactReliability (tables : CharTables) (concept content : String) (grounded : Bool) : ℚ :=
  let words := distinctInformativeWords tables content fullContentWordBucket
  if words = 0 then 0
  else
    let grounding : ℚ := if grounded then 5 / 10 else 0
    let quality : ℚ := if fullContentWordBucket ≤ words then 3 / 10 else 15 / 100
    let validity : ℚ := if (canonicalConcept concept).isSome then 1 / 10 else 0
    max 0 (min 1 (grounding + quality + validity))

def dedupContentKey (content : String) : List Char :=
  List.intercalate [' '] (splitWhitespace content.toList)

structure Fact where
  concept : String
  content : String
  confidence : ℚ
  sourceId : String
  tags : List String
  sourceEpisodeIds : List String
  deriving DecidableEq

def Fact.identity (f : Fact) : String × List Char :=
  (conceptLabel f.concept, dedupContentKey f.content)

/-- Which facts a query finds, and in which order: the more confident first. -/
structure FactSearch where
  isMatch : String → Fact → Bool
  arrange : List Fact → List Fact
  perm : ∀ found, (arrange found).Perm found
  ranked : ∀ found, (arrange found).Pairwise fun f g => g.confidence ≤ f.confidence

def FactSearch.searchFacts (search : FactSearch) (facts : List Fact) (query : String) (limit : Nat)
    (minConfidence : ℚ) : List Fact :=
  (search.arrange (facts.filter fun f => search.isMatch query f && minConfidence ≤
    f.confidence)).take
    limit

structure GatedWrite where
  concept : String
  content : String
  tags : List String
  sourceId : String
  sourceEpisodeIds : List String
  passId : String

structure FactWriteOutcome where
  stored : Bool
  quarantined : Bool
  confidence : ℚ
  nodeId : Option Nat

def FactWriteOutcome.quarantine (confidence : ℚ) : FactWriteOutcome :=
  ⟨false, true, confidence, none⟩

inductive GatePhase where
  | conceptScan
  | contentScan (candidates : List Fact)
  | store
  | record (nodeId : Nat)
  | done (outcome : FactWriteOutcome)

/-- A request on its way, with the fact it would store. -/
structure GatedRequest where
  fact : Fact
  passId : String
  phase : GatePhase

namespace GatedRequest

variable (r : GatedRequest)

def blockedBy (f : Fact) : Bool :=
  conceptLabel f.concept = r.fact.concept && dedupContentKey f.content =
    dedupContentKey r.fact.content &&
    r.fact.confidence ≤ f.confidence

def waits : Bool :=
  match r.phase with
  | .store => true
  | _ => false

def unrecorded (passId : String) : Bool :=
  match r.phase with
  | .record _ => r.passId = passId
  | _ => false

end GatedRequest

inductive PassEntry where
  | stored (passId : String)
  | drained (passId : String) (count : Nat)
  deriving DecidableEq

/-- The facts stored for a pass since it was last drained; an empty id names no pass. -/
def storedSince (passId : String) (history : List PassEntry) : Nat :=
  history.foldl (fun n entry =>
    match entry with
    | .stored other => if other = passId ∧ passId ≠ "" then n + 1 else n
    | .drained other _ => if other = passId then 0 else n) 0

/-- The store, the ledger of the passes, and the requests. -/
structure FactServer where
  facts : List Fact
  episodes : List String
  ledger : String → Option UInt32
  requests : List GatedRequest
  history : List PassEntry

inductive FactEvent where
  | receive (write : GatedWrite)
  | conceptScan (request : Nat)
  | contentScan (request : Nat)
  | store (request : Nat)
  | record (request : Nat)
  | drain (passId : String)

def maxConceptLen : Nat := 256

def maxContentLen : Nat := 64 * 1024

def normalizeSourceEpisodeIds (ids : List String) : List String :=
  (ids.map fun id => String.ofList (trim id.toList)).filter (· ≠ "")

def GatedWrite.isValid (w : GatedWrite) : Bool :=
  !(trim w.concept.toList = [] || trim w.content.toList = [] ||
    maxConceptLen < w.concept.utf8ByteSize || maxContentLen < w.content.utf8ByteSize)

/-- The request as it is before its first search: validated, grounded and scored. -/
def gatedFactWrite (tables : CharTables) (episodes : List String) (w : GatedWrite) : GatedRequest :=
  let ids := normalizeSourceEpisodeIds w.sourceEpisodeIds
  let concept := conceptLabel w.concept
  let confidence := scoreFactReliability tables concept w.content (ids.any (episodes.contains ·))
  { fact := ⟨concept, w.content, confidence, w.sourceId, w.tags, ids⟩
    passId := w.passId
    phase :=
      if !w.isValid then .done (.quarantine 0)
      else if confidence < reliabilityThreshold then .done (.quarantine confidence)
      else .conceptScan }

def ledgerRecordStored (ledger : String → Option UInt32) (passId : String) :
    String → Option UInt32 :=
  if passId = "" then ledger
  else Function.update ledger passId (some ((ledger passId).getD 0 + 1))

namespace FactServer

variable (search : FactSearch) (tables : CharTables) (s : FactServer)

def init (facts : List Fact) (episodes : List String) : FactServer :=
  ⟨facts, episodes, fun _ => none, [], []⟩

def advance (i : Nat) (r : GatedRequest) (phase : GatePhase) : FactServer :=
  { s with requests := s.requests.set i { r with phase := phase } }

def stepRequest (i : Nat) (r : GatedRequest) : FactEvent → FactServer
  | .conceptScan _ =>
      match r.phase with
      | .conceptScan => s.advance i r (.contentScan
          (search.searchFacts s.facts r.fact.concept dedupPriorScanLimit r.fact.confidence))
      | _ => s
  | .contentScan _ =>
      match r.phase with
      | .contentScan candidates =>
          let found :=
            search.searchFacts s.facts r.fact.content dedupPriorScanLimit r.fact.confidence
          if (candidates ++ found).any r.blockedBy then
            s.advance i r (.done (.quarantine r.fact.confidence))
          else s.advance i r .store
      | _ => s
  | .store _ =>
      match r.phase with
      | .store => { s.advance i r (.record s.facts.length) with
          facts := s.facts ++ [r.fact], history := s.history ++ [.stored r.passId] }
      | _ => s
  | .record _ =>
      match r.phase with
      | .record nodeId => { s.advance i r (.done ⟨true, false, r.fact.confidence, some nodeId⟩) with
          ledger := ledgerRecordStored s.ledger r.passId }
      | _ => s
  | _ => s

def drainPassLedger (passId : String) : FactServer :=
  { s with
    ledger := Function.update s.ledger passId none
    history := s.history ++ [.drained passId ((s.ledger passId).getD 0).toNat] }

def step (e : FactEvent) : FactServer :=
  match e with
  | .receive w => { s with requests := s.requests ++ [gatedFactWrite tables s.episodes w] }
  | .drain passId => s.drainPassLedger passId
  | .conceptScan i | .contentScan i | .store i | .record i =>
      match s.requests[i]? with
      | some r => s.stepRequest search i r e
      | none => s

end FactServer

def factMachine (search : FactSearch) (tables : CharTables) : Machine FactServer FactEvent :=
  ⟨FactServer.step search tables⟩

/-- A fact that was not there from the start is more confident than all that are the same. -/
def Improves (initial : Nat) (before : List Fact) (f : Fact) : Prop :=
  initial ≤ before.length → ∀ g ∈ before, g.identity = f.identity → g.confidence < f.confidence

def Exact (before : List PassEntry) : PassEntry → Prop
  | .drained passId count => count = storedSince passId before
  | .stored _ => True

structure GatedPromise (initial : Nat) (s : FactServer) : Prop where
  improves : Kept (Improves initial) s.facts
  drains : Kept Exact s.history

/-- At the second search of a request, an equal or stronger version of the fact is found if there
is one; when a request stores, no other that its fact would block waits to store; and a pass is
drained when all its facts are in the ledger, and not too many for it. -/
def FactServer.guarded (search : FactSearch) (s : FactServer) : FactEvent → Bool
  | .contentScan i =>
      match s.requests[i]? with
      | some r =>
          match r.phase with
          | .contentScan candidates => !s.facts.any r.blockedBy || (candidates ++
              search.searchFacts s.facts r.fact.content dedupPriorScanLimit
                r.fact.confidence).any r.blockedBy
          | _ => true
      | none => true
  | .store i =>
      match s.requests[i]? with
      | some r => !r.waits ||
          (s.requests.eraseIdx i).all fun other => !(other.waits && other.blockedBy r.fact)
      | none => true
  | .drain passId => passId = "" ||
      (!s.requests.any (·.unrecorded passId) && storedSince passId s.history < 2 ^ 32)
  | _ => true

theorem conceptLabel_idempotent (raw : String) :
    conceptLabel (conceptLabel raw) = conceptLabel raw := by
  unfold conceptLabel
  cases hcanon : canonicalConcept raw with
  | none => rw [Option.getD_none, hcanon, Option.getD_none]
  | some label =>
    have hknown : label ∈ knownConcepts := by
      simp only [canonicalConcept] at hcanon
      split at hcanon
      next hmem => exact Option.some.inj hcanon ▸ hmem
      · cases hcanon
    have hfixed : ∀ label ∈ knownConcepts, canonicalConcept label = some label := by decide
    rw [Option.getD_some, hfixed label hknown, Option.getD_some]

theorem blockedBy_iff {r : GatedRequest} (hlabel : conceptLabel r.fact.concept = r.fact.concept)
    (f : Fact) : r.blockedBy f = true ↔ f.identity = r.fact.identity ∧
      r.fact.confidence ≤ f.confidence := by
  simp only [GatedRequest.blockedBy, Fact.identity, hlabel, Bool.and_eq_true, decide_eq_true_eq,
    Prod.mk.injEq]

@[simp] theorem storedSince_stored (passId other : String) (history : List PassEntry) :
    storedSince passId (history ++ [.stored other]) =
      storedSince passId history + if other = passId ∧ passId ≠ "" then 1 else 0 := by
  simp only [storedSince, List.foldl_append, List.foldl_cons, List.foldl_nil]
  split
  · rfl
  · rfl

@[simp] theorem storedSince_drained (passId other : String) (count : Nat)
    (history : List PassEntry) : storedSince passId (history ++ [.drained other count]) =
      if other = passId then 0 else storedSince passId history := by
  simp only [storedSince, List.foldl_append, List.foldl_cons, List.foldl_nil]

theorem storedSince_empty (history : List PassEntry) : storedSince "" history = 0 := by
  induction history using List.reverseRecOn with
  | nil => rfl
  | append_singleton history entry ih =>
    cases entry with
    | stored other => rw [storedSince_stored, ih, if_neg fun h => h.2 rfl]
    | drained other count =>
      rw [storedSince_drained, ih]
      exact ite_self 0

theorem ledgerRecordStored_of_ne {ledger : String → Option UInt32} {passId other : String}
    (h : other ≠ passId) : ledgerRecordStored ledger passId other = ledger other := by
  unfold ledgerRecordStored
  split
  · rfl
  · exact Function.update_of_ne h _ _

theorem GatedRequest.unrecorded_of_store (r : GatedRequest) (h : r.phase = .store)
    (passId : String) : r.unrecorded passId = false := by
  simp only [GatedRequest.unrecorded, h]

theorem GatedRequest.unrecorded_of_record (r : GatedRequest) {nodeId : Nat}
    (h : r.phase = .record nodeId) (passId : String) :
    r.unrecorded passId = decide (r.passId = passId) := by
  simp only [GatedRequest.unrecorded, h]

theorem unrecorded_record (fact : Fact) (own : String) (nodeId : Nat) (passId : String) :
    GatedRequest.unrecorded ⟨fact, own, .record nodeId⟩ passId = decide (own = passId) := rfl

theorem unrecorded_done (fact : Fact) (own : String) (outcome : FactWriteOutcome)
    (passId : String) : GatedRequest.unrecorded ⟨fact, own, .done outcome⟩ passId = false := rfl

/-- What holds along a guarded run: a request that waits to store has nothing in its way, and
what was stored for a pass is in the ledger or on its way there. -/
structure Gated (initial : Nat) (s : FactServer) : Prop where
  promise : GatedPromise initial s
  labelled : ∀ r ∈ s.requests, conceptLabel r.fact.concept = r.fact.concept
  clear : ∀ r ∈ s.requests, r.waits = true → ∀ f ∈ s.facts, r.blockedBy f = false
  counted : ∀ passId, passId ≠ "" → UInt32.ofNat (storedSince passId s.history) =
    (s.ledger passId).getD 0 + UInt32.ofNat (s.requests.countP (·.unrecorded passId))
  nameless : s.ledger "" = none

variable {search : FactSearch} {tables : CharTables} {s : FactServer} {initial : Nat}

theorem gated_init (facts : List Fact) (episodes : List String) :
    Gated facts.length (.init facts episodes) := by
  refine ⟨⟨?_, Kept.nil⟩, nofun, nofun, fun _ _ => rfl, rfl⟩
  intro before f after hfacts hlong
  have hlength : facts.length = before.length + (after.length + 1) := by
    rw [show facts = before ++ f :: after from hfacts, List.length_append, List.length_cons]
  omega

theorem phase_gatedFactWrite (tables : CharTables) (episodes : List String) (w : GatedWrite) :
    (gatedFactWrite tables episodes w).phase = .conceptScan ∨
      ∃ outcome, (gatedFactWrite tables episodes w).phase = .done outcome := by
  simp only [gatedFactWrite]
  split
  · exact .inr ⟨_, rfl⟩
  · split
    · exact .inr ⟨_, rfl⟩
    · exact .inl rfl

theorem new_gatedFactWrite (tables : CharTables) (episodes : List String) (w : GatedWrite) :
    (gatedFactWrite tables episodes w).waits = false ∧
      ∀ passId, (gatedFactWrite tables episodes w).unrecorded passId = false := by
  unfold GatedRequest.waits GatedRequest.unrecorded
  rcases phase_gatedFactWrite tables episodes w with hphase | ⟨outcome, hphase⟩
  · rw [hphase]
    exact ⟨rfl, fun _ => rfl⟩
  · rw [hphase]
    exact ⟨rfl, fun _ => rfl⟩

theorem Gated.receive (h : Gated initial s) (w : GatedWrite) :
    Gated initial (s.step search tables (.receive w)) := by
  obtain ⟨hwaits, hrecorded⟩ := new_gatedFactWrite tables s.episodes w
  have hlabel : conceptLabel (gatedFactWrite tables s.episodes w).fact.concept =
      (gatedFactWrite tables s.episodes w).fact.concept := by
    simp only [gatedFactWrite, conceptLabel_idempotent]
  simp only [FactServer.step]
  generalize gatedFactWrite tables s.episodes w = new at hwaits hrecorded hlabel
  refine ⟨⟨h.promise.improves, h.promise.drains⟩, ?_, ?_, ?_, h.nameless⟩
  · intro r hr
    rcases List.mem_append.mp hr with hold | hnew
    · exact h.labelled r hold
    · rwa [List.mem_singleton.mp hnew]
  · intro r hr hready
    rcases List.mem_append.mp hr with hold | hnew
    · exact h.clear r hold hready
    · rw [List.mem_singleton.mp hnew, hwaits] at hready
      cases hready
  · intro passId hpass
    have hbefore := h.counted passId hpass
    simpa only [List.countP_append, List.countP_singleton, hrecorded passId, Bool.false_eq_true,
      if_false, Nat.add_zero] using hbefore

theorem Gated.advance (h : Gated initial s) {i : Nat} {r : GatedRequest}
    (hr : s.requests[i]? = some r) (phase : GatePhase)
    (hclear : GatedRequest.waits { r with phase := phase } = true →
      ∀ f ∈ s.facts, r.blockedBy f = false)
    (hcount : ∀ passId, GatedRequest.unrecorded { r with phase := phase } passId =
      r.unrecorded passId) : Gated initial (s.advance i r phase) := by
  refine ⟨⟨h.promise.improves, h.promise.drains⟩, ?_, ?_, ?_, h.nameless⟩
  · intro other hother
    rcases List.mem_or_eq_of_mem_set hother with hold | rfl
    · exact h.labelled other hold
    · exact h.labelled r (List.mem_of_getElem? hr)
  · intro other hother hwaits
    rcases List.mem_or_eq_of_mem_set hother with hold | rfl
    · exact h.clear other hold hwaits
    · exact hclear hwaits
  · intro passId hpass
    have hsame := countP_set_add (p := (·.unrecorded passId)) hr
      { r with phase := phase }
    simp only [hcount passId, Nat.add_right_cancel_iff] at hsame
    have hbefore := h.counted passId hpass
    rw [← hsame] at hbefore
    exact hbefore

theorem Gated.conceptScan (h : Gated initial s) {i : Nat} {r : GatedRequest}
    (hr : s.requests[i]? = some r) :
    Gated initial (s.stepRequest search i r (.conceptScan i)) := by
  simp only [FactServer.stepRequest]
  split
  next hphase =>
    apply h.advance hr
    · intro hwaits
      cases hwaits
    · intro passId
      simp only [GatedRequest.unrecorded, hphase]
  · exact h

theorem Gated.contentScan (h : Gated initial s) {i : Nat} {r : GatedRequest}
    (hr : s.requests[i]? = some r) (hguarded : s.guarded search (.contentScan i) = true) :
    Gated initial (s.stepRequest search i r (.contentScan i)) := by
  simp only [FactServer.stepRequest]
  split
  next candidates hphase =>
    simp only [FactServer.guarded, hr, hphase, Bool.or_eq_true, Bool.not_eq_true'] at hguarded
    have hkept (phase : GatePhase) (hnew : ∀ nodeId, phase ≠ .record nodeId) (passId : String) :
        GatedRequest.unrecorded { r with phase := phase } passId = r.unrecorded passId := by
      simp only [GatedRequest.unrecorded, hphase]
    split
    · exact h.advance hr _ nofun (hkept _ nofun)
    next hnone =>
      refine h.advance hr _ (fun _ => ?_) (hkept _ nofun)
      -- nothing was found, so there is nothing to find
      rcases hguarded with hclear | hfound
      · intro f hf
        exact Bool.eq_false_iff.mpr fun hblocked =>
          Bool.eq_false_iff.mp hclear (List.any_eq_true.mpr ⟨f, hf, hblocked⟩)
      · exact absurd hfound hnone
  · exact h

theorem Gated.store (h : Gated initial s) {i : Nat} {r : GatedRequest}
    (hr : s.requests[i]? = some r) (hguarded : s.guarded search (.store i) = true) :
    Gated initial (s.stepRequest search i r (.store i)) := by
  simp only [FactServer.stepRequest]
  split
  next hphase =>
    have hmem := List.mem_of_getElem? hr
    have hwaits : r.waits = true := by simp only [GatedRequest.waits, hphase]
    have hclear := h.clear r hmem hwaits
    simp only [FactServer.guarded, hr, hwaits, Bool.not_true, Bool.false_or, List.all_eq_true,
      Bool.not_eq_true', Bool.and_eq_false_iff] at hguarded
    refine ⟨⟨?_, ?_⟩, ?_, ?_, ?_, h.nameless⟩
    · refine Kept.concat_iff.mpr ⟨h.promise.improves, ?_⟩
      intro _ g hg hsame
      by_contra hle
      have hblocked := (blockedBy_iff (h.labelled r hmem) g).mpr ⟨hsame, not_lt.mp hle⟩
      rw [hclear g hg] at hblocked
      cases hblocked
    · exact Kept.concat_iff.mpr ⟨h.promise.drains, trivial⟩
    · intro other hother
      rcases List.mem_or_eq_of_mem_set hother with hold | rfl
      · exact h.labelled other hold
      · exact h.labelled r hmem
    · intro other hother hready f hf
      rcases mem_set_cases hother with rfl | hold
      · cases hready
      rcases List.mem_append.mp hf with hfact | hnew
      · exact h.clear other (List.mem_of_mem_eraseIdx hold) hready f hfact
      · rw [List.mem_singleton.mp hnew]
        rcases hguarded other hold with hidle | hfree
        · rw [hready] at hidle
          cases hidle
        · exact hfree
    · intro passId hpass
      have hcount := countP_set_add (p := (·.unrecorded passId)) hr
        { r with phase := .record s.facts.length }
      simp only [r.unrecorded_of_store hphase, unrecorded_record, Bool.false_eq_true, if_false,
        Nat.add_zero, decide_eq_true_eq] at hcount
      simp only [FactServer.advance, storedSince_stored, hpass, ne_eq, not_false_eq_true, and_true,
        UInt32.ofNat_add, h.counted passId hpass, hcount, UInt32.add_assoc]
  · exact h

theorem Gated.record (h : Gated initial s) {i : Nat} {r : GatedRequest}
    (hr : s.requests[i]? = some r) : Gated initial (s.stepRequest search i r (.record i)) := by
  simp only [FactServer.stepRequest]
  split
  next nodeId hphase =>
    have hmem := List.mem_of_getElem? hr
    refine ⟨⟨h.promise.improves, h.promise.drains⟩, ?_, ?_, ?_, ?_⟩
    · intro other hother
      rcases List.mem_or_eq_of_mem_set hother with hold | rfl
      · exact h.labelled other hold
      · exact h.labelled r hmem
    · intro other hother hwaits
      rcases List.mem_or_eq_of_mem_set hother with hold | rfl
      · exact h.clear other hold hwaits
      · cases hwaits
    · intro passId hpass
      have hcount := countP_set_add (p := (·.unrecorded passId)) hr
        { r with phase := .done ⟨true, false, r.fact.confidence, some nodeId⟩ }
      simp only [r.unrecorded_of_record hphase, unrecorded_done, Bool.false_eq_true, if_false,
        Nat.add_zero, decide_eq_true_eq] at hcount
      have hbefore := h.counted passId hpass
      simp only [FactServer.advance, hbefore, ← hcount]
      by_cases hown : r.passId = passId
      · rw [if_pos hown, ledgerRecordStored, if_neg (hown ▸ hpass), hown, Function.update_self,
          Option.getD_some, UInt32.ofNat_add, UInt32.add_assoc, UInt32.add_comm 1]
        rfl
      · rw [if_neg hown, Nat.add_zero, ledgerRecordStored_of_ne (Ne.symm hown)]
    · by_cases hempty : r.passId = ""
      · simpa only [ledgerRecordStored, if_pos hempty] using h.nameless
      · simpa only [ledgerRecordStored_of_ne (Ne.symm hempty)] using h.nameless
  · exact h

theorem drain_guarded {passId : String} (hempty : passId ≠ "")
    (h : s.guarded search (.drain passId) = true) :
    s.requests.countP (·.unrecorded passId) = 0 ∧ storedSince passId s.history < 2 ^ 32 := by
  simp only [FactServer.guarded, hempty, decide_false, Bool.false_or, Bool.and_eq_true,
    Bool.not_eq_true', decide_eq_true_eq] at h
  refine ⟨List.countP_eq_zero.mpr ?_, h.2⟩
  intro r hr hunrecorded
  exact Bool.eq_false_iff.mp h.1 (List.any_eq_true.mpr ⟨r, hr, hunrecorded⟩)

theorem Gated.drain (h : Gated initial s) (passId : String)
    (hguarded : s.guarded search (.drain passId) = true) :
    Gated initial (s.drainPassLedger passId) := by
  have hcount : ((s.ledger passId).getD 0).toNat = storedSince passId s.history := by
    by_cases hempty : passId = ""
    · rw [hempty, h.nameless, storedSince_empty]
      rfl
    · obtain ⟨hnone, hfits⟩ := drain_guarded hempty hguarded
      have hledger := h.counted passId hempty
      rw [hnone, show UInt32.ofNat 0 = 0 from rfl, UInt32.add_zero] at hledger
      rw [← hledger, UInt32.toNat_ofNat', Nat.mod_eq_of_lt hfits]
  refine ⟨⟨h.promise.improves, Kept.concat_iff.mpr ⟨h.promise.drains, hcount⟩⟩, h.labelled, h.clear,
    ?_, ?_⟩
  · intro other hother
    simp only [FactServer.drainPassLedger, storedSince_drained]
    by_cases hsame : passId = other
    · subst hsame
      rw [if_pos rfl, Function.update_self, (drain_guarded hother hguarded).1]
      rfl
    · rw [if_neg hsame, Function.update_of_ne (Ne.symm hsame)]
      exact h.counted other hother
  · by_cases hempty : passId = ""
    · simp only [FactServer.drainPassLedger, hempty, Function.update_self]
    · simp only [FactServer.drainPassLedger]
      rw [Function.update_of_ne (Ne.symm hempty)]
      exact h.nameless

theorem Gated.step (s : FactServer) (e : FactEvent) (hguarded : s.guarded search e = true)
    (h : Gated initial s) : Gated initial (s.step search tables e) := by
  cases e with
  | receive w => exact h.receive w
  | drain passId => exact h.drain passId hguarded
  | conceptScan i =>
    simp only [FactServer.step]
    split
    next r hr => exact h.conceptScan hr
    · exact h
  | contentScan i =>
    simp only [FactServer.step]
    split
    next r hr => exact h.contentScan hr hguarded
    · exact h
  | store i =>
    simp only [FactServer.step]
    split
    next r hr => exact h.store hr hguarded
    · exact h
  | record i =>
    simp only [FactServer.step]
    split
    next r hr => exact h.record hr
    · exact h

/-- Along every guarded run no duplicate is stored, and every drain is exact. -/
theorem gatedPromise_of_guarded (search : FactSearch) (tables : CharTables) (facts : List Fact)
    (episodes : List String) (events : List FactEvent)
    (hguarded : ∀ t ∈ (factMachine search tables).trace (.init facts episodes) events,
      t.before.guarded search t.event = true) :
    GatedPromise facts.length ((factMachine search tables).run (.init facts episodes) events) :=
  ((factMachine search tables).invariant_run_of Gated.step (gated_init facts episodes) events
    hguarded).promise

def plainSearch : FactSearch where
  isMatch query f := containsText query.toList f.concept.toList ||
    containsText query.toList f.content.toList
  arrange := List.insertionSort fun f g => g.confidence ≤ f.confidence
  perm := List.perm_insertionSort _
  ranked := by
    intro found
    exact List.pairwise_insertionSort _ found

def asciiTables : CharTables := ⟨Char.isAlphanum, fun c => [c.toLower]⟩

def cacheLesson : GatedWrite :=
  ⟨"Lesson-Learned", "flush the cache first", [], "distiller", ["ep-1"], "pass-1"⟩

def sentAgain : List FactEvent :=
  [.receive cacheLesson, .conceptScan 0, .contentScan 0, .store 0, .receive cacheLesson, .record 0,
    .conceptScan 1, .contentScan 1, .store 1, .drain "pass-1"]

theorem sentAgain_keeps_promise :
    GatedPromise 0 ((factMachine plainSearch asciiTables).run (.init [] ["ep-1"]) sentAgain) ∧
      ((factMachine plainSearch asciiTables).run (.init [] ["ep-1"]) sentAgain).facts.length = 1 :=
  ⟨gatedPromise_of_guarded plainSearch asciiTables [] ["ep-1"] sentAgain (by decide +kernel),
    by decide +kernel⟩

/-- It is sent again while the first is still searching, and the pass is drained before its facts
are in the ledger. -/
def sentTwice : List FactEvent :=
  [.receive cacheLesson, .conceptScan 0, .contentScan 0, .receive cacheLesson, .conceptScan 1,
    .contentScan 1, .store 0, .store 1, .drain "pass-1", .record 0, .record 1]

theorem sentTwice_breaks_promise :
    ¬Kept (Improves 0)
        ((factMachine plainSearch asciiTables).run (.init [] ["ep-1"]) sentTwice).facts ∧
      ¬Kept Exact
        ((factMachine plainSearch asciiTables).run (.init [] ["ep-1"]) sentTwice).history := by
  constructor
  · intro h
    let f : Fact := ⟨"lesson-learned", "flush the cache first", 9 / 10, "distiller", [], ["ep-1"]⟩
    have htwice :
        ((factMachine plainSearch asciiTables).run (.init [] ["ep-1"]) sentTwice).facts =
          [f] ++ f :: [] := by decide +kernel
    exact lt_irrefl _ (h [f] f [] htwice (Nat.zero_le _) f List.mem_cons_self rfl)
  · intro h
    have hzero :
        ((factMachine plainSearch asciiTables).run (.init [] ["ep-1"]) sentTwice).history =
          [.stored "pass-1", .stored "pass-1"] ++ .drained "pass-1" 0 :: [] := by decide +kernel
    have hexact : 0 = storedSince "pass-1" [.stored "pass-1", .stored "pass-1"] := h _ _ _ hzero
    revert hexact
    decide

end Simard.Memory
