import Simard.Library.History
import Simard.Overseer.Ticks

/-! The Overseer's rate limits, as laws of the history of what it did. A deed that keeps
the limits within its own tick keeps them altogether exactly if it keeps them with what
earlier ticks did. -/
namespace Simard.Overseer
open Simard.Library

def DeedKind.isWhisper : DeedKind → Bool
  | .whisper _ => true
  | _ => false

def DeedKind.isCoverage : DeedKind → Bool
  | .coverage _ => true
  | _ => false

def timesOf (kind : DeedKind) (deeds : List Deed) : List Int :=
  deeds.filterMap fun deed => if deed.kind = kind then some deed.time else none

def unblockWindow (k : Nat) : Int := min (900 * 2 ^ (k - 1)) 14400

structure RateLimited (backoffBaseSecs : Int) (deeds : List Deed) : Prop where
  whispers_apart : deeds.Pairwise fun a b =>
    ∀ signature, b.kind = .whisper signature → a.kind = .whisper signature → 900 ≤ b.time - a.time
  whispers_capped : ∀ t, (deeds.countP fun deed =>
    deed.kind.isWhisper && t - 3600 < deed.time && deed.time ≤ t) ≤ 5
  unblocks_apart : ∀ goalId (k : Nat) (x y : Int), (timesOf (.unblock goalId) deeds)[k]? = some x →
    (timesOf (.unblock goalId) deeds)[k + 1]? = some y → unblockWindow (k + 1) ≤ y - x
  coverage_apart : deeds.Pairwise fun a b =>
    ∀ key, b.kind = .coverage key → a.kind = .coverage key → backoffBaseSecs ≤ b.time - a.time
  alerted_once : ∀ (left mid right : List Deed) (a b : Deed),
    deeds = left ++ a :: (mid ++ b :: right) → a.kind = .alert → b.kind = .alert →
      ∃ e ∈ mid, e.kind = .reasoningEnabled

section Laws

variable (backoffBaseSecs : Int) (before : List Deed) (deed : Deed)

/-- A goal's last unblock is long enough ago. -/
def UnblockDue (times : List Int) (now : Int) : Prop :=
  ∀ last ∈ times.getLast?, unblockWindow times.length ≤ now - last

/-- What a deed must keep with everything done before it. -/
def Allowed : Prop :=
  match deed.kind with
  | .whisper signature =>
      (∀ e ∈ before, e.kind = .whisper signature → 900 ≤ deed.time - e.time) ∧
      (before.countP fun e => e.kind.isWhisper && deed.time - 3600 < e.time) < 5
  | .unblock goalId => UnblockDue (timesOf (.unblock goalId) before) deed.time
  | .coverage key => ∀ e ∈ before, e.kind = .coverage key → backoffBaseSecs ≤ deed.time - e.time
  | .alert => ∀ (left mid : List Deed) (a : Deed), before = left ++ a :: mid → a.kind = .alert →
      ∃ e ∈ mid, e.kind = .reasoningEnabled
  | .reasoningEnabled => True

def AllowedInTick : Prop :=
  let own := before.filter fun e => e.tick = deed.tick
  match deed.kind with
  | .whisper _ | .unblock _ => Allowed backoffBaseSecs own deed
  | .coverage _ => ∀ e ∈ own, e.kind.isCoverage = false
  | .alert => ∀ e ∈ own, e.kind ≠ .alert
  | .reasoningEnabled => True

def AllowedAcrossTicks : Prop :=
  match deed.kind with
  | .whisper signature =>
      (∀ e ∈ before, e.tick < deed.tick → e.kind = .whisper signature →
        900 ≤ deed.time - e.time) ∧
      ((∃ e ∈ before, e.tick < deed.tick ∧ e.kind.isWhisper ∧ deed.time - 3600 < e.time) →
        (before.countP fun e => e.kind.isWhisper && deed.time - 3600 < e.time) < 5)
  | .unblock goalId =>
      (∃ e ∈ before, e.tick < deed.tick ∧ e.kind = .unblock goalId) →
        UnblockDue (timesOf (.unblock goalId) before) deed.time
  | .coverage key => ∀ e ∈ before, e.tick < deed.tick → e.kind = .coverage key →
      backoffBaseSecs ≤ deed.time - e.time
  | .alert => ∀ (left mid : List Deed) (a : Deed), before = left ++ a :: mid →
      a.tick < deed.tick → a.kind = .alert →
      ∃ e ∈ mid, e.kind = .reasoningEnabled
  | .reasoningEnabled => True

def Later : Prop := ∀ e ∈ before, e.tick ≤ deed.tick ∧ e.time ≤ deed.time

end Laws

section Equivalence

variable {deeds : List Deed}

theorem capped_iff (hlater : Kept Later deeds) :
    (∀ t, (deeds.countP fun deed =>
      deed.kind.isWhisper && t - 3600 < deed.time && deed.time ≤ t) ≤ 5) ↔
    Kept (fun before deed => deed.kind.isWhisper = true →
      (before.countP fun e => e.kind.isWhisper && deed.time - 3600 < e.time) < 5) deeds := by
  induction deeds using List.reverseRecOn with
  | nil => exact iff_of_true (fun _ => Nat.zero_le 5) Kept.nil
  | append_singleton deeds deed ih =>
    obtain ⟨hearlier, hlast⟩ := Kept.concat_iff.mp hlater
    rw [Kept.concat_iff, ← ih hearlier]
    -- the hour that ends with the last whisper has more whispers than any that ends later
    have hend (t : Int) (ht : deed.time ≤ t) :
        (deeds.countP fun e => e.kind.isWhisper && t - 3600 < e.time && e.time ≤ t) ≤
          deeds.countP fun e => e.kind.isWhisper && deed.time - 3600 < e.time := by
      apply List.countP_mono_left
      intro e _ he
      simp only [Bool.and_eq_true, decide_eq_true_eq] at he ⊢
      exact ⟨he.1.1, by omega⟩
    have hsame : (deeds.countP fun e =>
          e.kind.isWhisper && deed.time - 3600 < e.time && e.time ≤ deed.time) =
        deeds.countP fun e => e.kind.isWhisper && deed.time - 3600 < e.time := by
      apply List.countP_congr
      intro e he
      have hle := (hlast e he).2
      simp [hle]
    constructor
    · intro h
      refine ⟨fun t => ?_, fun hwhisper => ?_⟩
      · have ht := h t
        rw [List.countP_append] at ht
        omega
      · have ht := h deed.time
        rw [List.countP_append, hsame] at ht
        simp [hwhisper] at ht
        omega
    · rintro ⟨hbefore, hdeed⟩ t
      have ht := hbefore t
      rw [List.countP_append]
      by_cases hin : deed.kind.isWhisper = true ∧ t - 3600 < deed.time ∧ deed.time ≤ t
      · have hroom := hdeed hin.1
        have hle := hend t hin.2.2
        simp [hin]
        omega
      · have hnone : ([deed].countP fun e =>
            e.kind.isWhisper && t - 3600 < e.time && e.time ≤ t) = 0 := by
          rw [List.countP_eq_zero]
          intro e he hcounted
          obtain rfl := List.mem_singleton.mp he
          simp only [Bool.and_eq_true, decide_eq_true_eq] at hcounted
          exact hin ⟨hcounted.1.1, hcounted.1.2, hcounted.2⟩
        omega

theorem timesOf_concat (kind : DeedKind) (deeds : List Deed) (deed : Deed) :
    timesOf kind (deeds ++ [deed]) =
      timesOf kind deeds ++ if deed.kind = kind then [deed.time] else [] := by
  rw [timesOf, List.filterMap_append]
  congr 1
  by_cases hkind : deed.kind = kind
  · simp [hkind]
  · simp [hkind]

theorem spaced_concat_iff (times : List Int) (now : Int) :
    (∀ (k : Nat) (x y : Int), (times ++ [now])[k]? = some x → (times ++ [now])[k + 1]? = some y →
      unblockWindow (k + 1) ≤ y - x) ↔
    (∀ (k : Nat) (x y : Int), times[k]? = some x → times[k + 1]? = some y →
      unblockWindow (k + 1) ≤ y - x) ∧
      UnblockDue times now := by
  constructor
  · intro h
    constructor
    · intro k x y hx hy
      have hk := (List.getElem?_eq_some_iff.mp hx).1
      have hk' := (List.getElem?_eq_some_iff.mp hy).1
      apply h k x y
      · rw [List.getElem?_append_left hk, hx]
      · rw [List.getElem?_append_left hk', hy]
    · intro last hlast
      obtain ⟨init, rfl⟩ := List.getLast?_eq_some_iff.mp hlast
      have hdue := h init.length last now (by simp) (by simp)
      simpa using hdue
  · rintro ⟨hbefore, hdue⟩ k x y hx hy
    rcases Nat.lt_or_ge (k + 1) times.length with hlt | hge
    · rw [List.getElem?_append_left hlt] at hy
      rw [List.getElem?_append_left (by omega)] at hx
      exact hbefore k x y hx hy
    · have hk := (List.getElem?_eq_some_iff.mp hy).1
      have hlen : times.length = k + 1 := by
        simp only [List.length_append, List.length_singleton] at hk
        omega
      rw [← hlen, List.getElem?_concat_length, Option.some.injEq] at hy
      rw [List.getElem?_append_left (by omega)] at hx
      have hlast : times.getLast? = some x := by
        rw [List.getLast?_eq_getElem?, hlen, Nat.add_sub_cancel, hx]
      have hwindow := hdue x hlast
      rwa [hlen, hy] at hwindow

theorem unblocks_iff :
    (∀ goalId (k : Nat) (x y : Int), (timesOf (.unblock goalId) deeds)[k]? = some x →
      (timesOf (.unblock goalId) deeds)[k + 1]? = some y → unblockWindow (k + 1) ≤ y - x) ↔
    Kept (fun before deed => ∀ goalId, deed.kind = .unblock goalId →
      UnblockDue (timesOf (.unblock goalId) before) deed.time) deeds := by
  induction deeds using List.reverseRecOn with
  | nil => exact iff_of_true (fun _ _ _ _ h => nomatch h) Kept.nil
  | append_singleton deeds deed ih =>
    rw [Kept.concat_iff, ← ih, ← forall_and]
    apply forall_congr'
    intro goalId
    rw [timesOf_concat]
    by_cases hkind : deed.kind = .unblock goalId
    · rw [if_pos hkind, spaced_concat_iff]
      simp [hkind]
    · rw [if_neg hkind, List.append_nil]
      simp [hkind]

theorem alerts_iff :
    (∀ (left mid right : List Deed) (a b : Deed), deeds = left ++ a :: (mid ++ b :: right) →
      a.kind = .alert → b.kind = .alert → ∃ e ∈ mid, e.kind = .reasoningEnabled) ↔
    Kept (fun before deed => deed.kind = .alert → ∀ (left mid : List Deed) (a : Deed),
      before = left ++ a :: mid → a.kind = .alert → ∃ e ∈ mid,
      e.kind = .reasoningEnabled) deeds := by
  constructor
  · rintro h before b right heq hb left mid a rfl ha
    exact h left mid right a b (by simpa using heq) ha hb
  · intro h left mid right a b heq ha hb
    exact h (left ++ a :: mid) b right (by simpa using heq) hb left mid a rfl ha

theorem allowed_iff (backoffBaseSecs : Int) (before : List Deed) (deed : Deed) :
    Allowed backoffBaseSecs before deed ↔
      (∀ e ∈ before, ∀ signature, deed.kind = .whisper signature → e.kind = .whisper signature →
        900 ≤ deed.time - e.time) ∧
      (deed.kind.isWhisper = true →
        (before.countP fun e => e.kind.isWhisper && deed.time - 3600 < e.time) < 5) ∧
      (∀ goalId, deed.kind = .unblock goalId →
        UnblockDue (timesOf (.unblock goalId) before) deed.time) ∧
      (∀ e ∈ before, ∀ key, deed.kind = .coverage key → e.kind = .coverage key →
        backoffBaseSecs ≤ deed.time - e.time) ∧
      (deed.kind = .alert → ∀ (left mid : List Deed) (a : Deed), before = left ++ a :: mid →
        a.kind = .alert → ∃ e ∈ mid, e.kind = .reasoningEnabled) := by
  obtain ⟨tick, time, kind⟩ := deed
  cases kind with
  | whisper signature => simp [Allowed, DeedKind.isWhisper]
  | unblock goalId => simp [Allowed, DeedKind.isWhisper]
  | coverage key => simp [Allowed, DeedKind.isWhisper]
  | alert => simp [Allowed, DeedKind.isWhisper]
  | reasoningEnabled => simp [Allowed, DeedKind.isWhisper]

theorem rateLimited_iff (backoffBaseSecs : Int) (hlater : Kept Later deeds) :
    RateLimited backoffBaseSecs deeds ↔ Kept (Allowed backoffBaseSecs) deeds := by
  have hallowed := funext₂ fun before deed => propext (allowed_iff backoffBaseSecs before deed)
  rw [show Allowed backoffBaseSecs = _ from hallowed, Kept.and_iff, Kept.and_iff, Kept.and_iff,
    Kept.and_iff, ← Kept.pairwise_iff, ← capped_iff hlater, ← unblocks_iff, ← Kept.pairwise_iff,
    ← alerts_iff]
  constructor
  · intro h
    exact ⟨h.whispers_apart, h.whispers_capped, h.unblocks_apart, h.coverage_apart, h.alerted_once⟩
  · rintro ⟨hwhispers, hcap, hunblocks, hcoverage, halerts⟩
    exact ⟨hwhispers, hcap, hunblocks, hcoverage, halerts⟩

end Equivalence

section AcrossTicks

variable {backoffBaseSecs : Int} {before : List Deed} {deed : Deed}

theorem timesOf_own (hlater : Later before deed) {kind : DeedKind}
    (hnone : ¬ ∃ e ∈ before, e.tick < deed.tick ∧ e.kind = kind) :
    timesOf kind (before.filter fun e => e.tick = deed.tick) = timesOf kind before := by
  rw [timesOf, timesOf, List.filterMap_filter]
  apply List.filterMap_congr
  intro e he
  by_cases hkind : e.kind = kind
  · have hown : e.tick = deed.tick := by
      by_contra hne
      exact hnone ⟨e, he, Nat.lt_of_le_of_ne (hlater e he).1 hne, hkind⟩
    simp [hown]
  · simp [hkind]

theorem countP_own (hlater : Later before deed) {p : Deed → Bool}
    (hnone : ¬ ∃ e ∈ before, e.tick < deed.tick ∧ p e = true) :
    (before.filter fun e => e.tick = deed.tick).countP p = before.countP p := by
  rw [List.countP_filter]
  apply List.countP_congr
  intro e he
  have hown (hp : p e = true) : e.tick = deed.tick := by
    by_contra hne
    exact hnone ⟨e, he, Nat.lt_of_le_of_ne (hlater e he).1 hne, hp⟩
  simpa using hown

theorem allowed_iff_acrossTicks (hlater : Later before deed)
    (hown : AllowedInTick backoffBaseSecs before deed) :
    Allowed backoffBaseSecs before deed ↔ AllowedAcrossTicks backoffBaseSecs before deed := by
  have hsplit {e : Deed} (he : e ∈ before) :
      e.tick < deed.tick ∨ e ∈ before.filter fun e => e.tick = deed.tick := by
    rcases Nat.lt_or_eq_of_le (hlater e he).1 with hlt | heq
    · exact .inl hlt
    · exact .inr (List.mem_filter.mpr ⟨he, decide_eq_true heq⟩)
  unfold AllowedInTick Allowed at hown
  unfold Allowed AllowedAcrossTicks
  cases hkind : deed.kind with
  | whisper signature =>
    rw [hkind] at hown
    simp only at hown ⊢
    constructor
    · rintro ⟨hapart, hroom⟩
      exact ⟨fun e he _ => hapart e he, fun _ => hroom⟩
    · rintro ⟨hapart, hroom⟩
      refine ⟨fun e he hsame => ?_, ?_⟩
      · rcases hsplit he with hlt | hmem
        · exact hapart e he hlt hsame
        · exact hown.1 e hmem hsame
      · by_cases hearlier : ∃ e ∈ before, e.tick < deed.tick ∧ e.kind.isWhisper ∧
            deed.time - 3600 < e.time
        · exact hroom hearlier
        · rw [← countP_own hlater]
          · exact hown.2
          · simpa using hearlier
  | unblock goalId =>
    rw [hkind] at hown
    simp only at hown ⊢
    constructor
    · intro hdue _
      exact hdue
    · intro hdue
      by_cases hearlier : ∃ e ∈ before, e.tick < deed.tick ∧ e.kind = .unblock goalId
      · exact hdue hearlier
      · rw [← timesOf_own hlater hearlier]
        exact hown
  | coverage key =>
    rw [hkind] at hown
    simp only at hown ⊢
    constructor
    · intro hapart e he _ hsame
      exact hapart e he hsame
    · intro hapart e he hsame
      rcases hsplit he with hlt | hmem
      · exact hapart e he hlt hsame
      · have hother := hown e hmem
        rw [hsame] at hother
        cases hother
  | alert =>
    rw [hkind] at hown
    simp only at hown ⊢
    constructor
    · intro honce left mid a heq _ ha
      exact honce left mid a heq ha
    · intro honce left mid a heq ha
      have hmem : a ∈ before := by
        rw [heq]
        exact List.mem_append_right left List.mem_cons_self
      rcases hsplit hmem with hlt | hmem
      · exact honce left mid a heq hlt ha
      · exact absurd ha (hown a hmem)
  | reasoningEnabled => exact Iff.rfl

end AcrossTicks

end Simard.Overseer
