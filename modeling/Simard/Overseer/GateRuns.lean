import Simard.Library.Gate
import Simard.Overseer.Guardrails

/-! Runs of the whisper gate and of the backoff gate under calls with any signatures and
keys. Both hold calls back for a bounded time only, and let through no more than their
windows allow. -/
namespace Simard.Overseer
open Simard.Library

def passedTimes (key : List Char) (passed : List (List Char × Int)) : List Int :=
  (passed.filter fun call => call.1 = key).map Prod.snd

theorem passedTimes_concat (key : List Char) (passed : List (List Char × Int))
    (call : List Char × Int) : passedTimes key (passed ++ [call]) =
      passedTimes key passed ++ if call.1 = key then [call.2] else [] := by
  rw [passedTimes, List.filter_append, List.map_append, ← passedTimes]
  congr 1
  by_cases hkey : call.1 = key
  · simp [hkey]
  · simp [hkey]

theorem length_passedTimes (key : List Char) (passed : List (List Char × Int)) :
    (passedTimes key passed).length = passed.countP fun call => call.1 = key := by
  rw [passedTimes, List.length_map, List.countP_eq_length_filter]

theorem mem_passedTimes {key : List Char} {passed : List (List Char × Int)} {time : Int} :
    time ∈ passedTimes key passed ↔ (key, time) ∈ passed := by
  rw [passedTimes, List.mem_map]
  constructor
  · rintro ⟨⟨key', time'⟩, hcall, rfl⟩
    rw [List.mem_filter, decide_eq_true_eq] at hcall
    obtain ⟨hcall, rfl⟩ := hcall
    exact hcall
  · intro hcall
    exact ⟨(key, time), List.mem_filter.mpr ⟨hcall, decide_eq_true rfl⟩, rfl⟩

theorem getLast?_passedTimes (key : List Char) (passed : List (List Char × Int)) :
    (passedTimes key passed).getLast? =
      ((passed.filter fun call => call.1 = key).getLast?).map Prod.snd := by
  rw [passedTimes, List.getLast?_map]

namespace WhisperGate

def whispers : Gate WhisperGate (List Char × Int) WhisperDecision where
  peek gate call := gate.peek call.1 call.2
  passes decision := decision = .deliver
  commit gate call := gate.commit call.1 call.2

section Windows

variable {baseSecs capSecs : Int} {capPerHour : Nat} (hcap : baseSecs ≤ capSecs)

include hcap

theorem windowForStrikes_le_cap (strikes : Nat) :
    (withBackoff baseSecs capSecs capPerHour).windowForStrikes strikes ≤ capSecs := by
  have hmax : max capSecs baseSecs = capSecs := max_eq_left hcap
  unfold windowForStrikes withBackoff
  dsimp only
  rw [hmax]
  split
  · exact hcap
  · exact min_le_right _ _

theorem le_windowForStrikes (deliveries : Nat) :
    min (baseSecs * 2 ^ deliveries) capSecs ≤
      (withBackoff baseSecs capSecs capPerHour).windowForStrikes (deliveries + 1) := by
  have hmax : max capSecs baseSecs = capSecs := max_eq_left hcap
  unfold windowForStrikes withBackoff
  dsimp only
  rw [hmax, Nat.add_sub_cancel]
  split
  next hfew =>
    obtain rfl : deliveries = 0 := by omega
    rw [pow_zero, mul_one]
    exact min_le_left _ _
  next =>
    split
    · exact (min_le_right _ _).trans_eq (min_self _).symm
    · split
      · exact le_rfl
      · exact (min_le_right _ _).trans_eq (min_self _).symm

end Windows

section Runs

variable (baseSecs capSecs : Int) (capPerHour : Nat) (calls : List (List Char × Int))

def delivered : List (List Char × Int) :=
  whispers.passed (withBackoff baseSecs capSecs capPerHour) calls

theorem run_eq_replay : whispers.machine.run (withBackoff baseSecs capSecs capPerHour) calls =
    (withBackoff baseSecs capSecs capPerHour).replay
      (delivered baseSecs capSecs capPerHour calls) :=
  whispers.run_eq_foldl _ calls

/-- What a run of the gate guarantees. -/
structure Bounded : Prop where
  hourly : ∀ t, ((delivered baseSecs capSecs capPerHour calls).countP fun call =>
    t ≤ call.2 ∧ call.2 < t + 3600) ≤ capPerHour
  spaced : ∀ signature k earlier later,
    (passedTimes signature (delivered baseSecs capSecs capPerHour calls))[k]? = some earlier →
    (passedTimes signature (delivered baseSecs capSecs capPerHour calls))[k + 1]? = some later →
    min (baseSecs * 2 ^ k) capSecs ≤ later - earlier
  released : ∀ before signature now after, calls = before ++ (signature, now) :: after →
    (whispers.admits (whispers.machine.run (withBackoff baseSecs capSecs capPerHour) before)
      (signature, now)).1 = .suppressDuplicate →
    ∃ last, (passedTimes signature (delivered baseSecs capSecs capPerHour before)).getLast? =
      some last ∧ now - last < capSecs

end Runs

section Laws

variable {baseSecs capSecs : Int} {capPerHour : Nat} {calls : List (List Char × Int)}

theorem delivered_kept (hcap : baseSecs ≤ capSecs)
    (hclock : calls.Pairwise fun a b => a.2 ≤ b.2) :
    Kept (fun before call =>
      (∀ e ∈ before, e.1 = call.1 → min (baseSecs * 2 ^ ((before.countP fun e => e.1 = call.1) - 1))
        capSecs ≤ call.2 - e.2) ∧
      (before.countP fun e => call.2 - 3600 < e.2) < capPerHour)
      (delivered baseSecs capSecs capPerHour calls) := by
  refine whispers.kept_passed ?_
  rintro left ⟨signature, now⟩ right rfl hpass
  rw [List.pairwise_append] at hclock
  have hsub : (delivered baseSecs capSecs capPerHour left).Sublist left :=
    whispers.passed_sublist _ left
  have hbefore (e : List Char × Int) (he : e ∈ delivered baseSecs capSecs capPerHour left) :
      e.2 ≤ now :=
    hclock.2.2 e (hsub.subset he) (signature, now) List.mem_cons_self
  rw [run_eq_replay] at hpass
  obtain ⟨hapart, hroom⟩ := replay_deliver baseSecs capSecs capPerHour _
    (hclock.1.sublist hsub) hbefore (of_decide_eq_true hpass)
  refine ⟨?_, hroom⟩
  intro e he hsignature
  have hsome : 0 < (delivered baseSecs capSecs capPerHour left).countP fun e => e.1 = signature :=
    List.countP_pos_iff.mpr ⟨e, he, decide_eq_true hsignature⟩
  obtain ⟨count, hcount⟩ := Nat.exists_eq_succ_of_ne_zero hsome.ne'
  have hwindow := hapart e he hsignature
  rw [hcount] at hwindow
  change min (baseSecs * 2 ^ ((List.countP _ (delivered baseSecs capSecs capPerHour left)) - 1))
    capSecs ≤ now - e.2
  rw [hcount, Nat.succ_sub_one]
  exact (le_windowForStrikes hcap count).trans hwindow

theorem hourly_of_kept {history : List (List Char × Int)}
    (hkept : Kept (fun before call =>
      (before.countP fun e => call.2 - 3600 < e.2) < capPerHour) history) (t : Int) :
    (history.countP fun call => t ≤ call.2 ∧ call.2 < t + 3600) ≤ capPerHour := by
  induction history using List.reverseRecOn with
  | nil => exact Nat.zero_le _
  | append_singleton history call ih =>
    rw [Kept.concat_iff] at hkept
    rw [List.countP_append]
    by_cases hin : t ≤ call.2 ∧ call.2 < t + 3600
    · -- everything earlier in this hour is in the hour before the last entry
      have hless : (history.countP fun e => t ≤ e.2 ∧ e.2 < t + 3600) ≤
          history.countP fun e => call.2 - 3600 < e.2 := by
        apply List.countP_mono_left
        intro e _ he
        rw [decide_eq_true_eq] at he ⊢
        omega
      have hone : ([call].countP fun e => t ≤ e.2 ∧ e.2 < t + 3600) = 1 := by simp [hin]
      have hroom := hkept.2
      omega
    · have hnone : ([call].countP fun e => t ≤ e.2 ∧ e.2 < t + 3600) = 0 := by simp [hin]
      rw [hnone]
      exact ih hkept.1

theorem spaced_of_kept {history : List (List Char × Int)}
    (hkept : Kept (fun before call => ∀ e ∈ before, e.1 = call.1 →
      min (baseSecs * 2 ^ ((before.countP fun e => e.1 = call.1) - 1)) capSecs ≤ call.2 - e.2)
      history) {signature : List Char} {k : Nat} {earlier later : Int}
    (hearlier : (passedTimes signature history)[k]? = some earlier)
    (hlater : (passedTimes signature history)[k + 1]? = some later) :
    min (baseSecs * 2 ^ k) capSecs ≤ later - earlier := by
  induction history using List.reverseRecOn with
  | nil => cases hearlier
  | append_singleton history call ih =>
    rw [Kept.concat_iff] at hkept
    rw [passedTimes_concat] at hearlier hlater
    by_cases hsame : call.1 = signature
    · rw [if_pos hsame] at hearlier hlater
      have hbound : k + 1 < (passedTimes signature history ++ [call.2]).length :=
        (List.getElem?_eq_some_iff.mp hlater).1
      rw [List.length_append, List.length_singleton] at hbound
      rw [List.getElem?_append_left (by omega)] at hearlier
      by_cases hlast : k + 1 = (passedTimes signature history).length
      · rw [hlast, List.getElem?_concat_length, Option.some_inj] at hlater
        have hmem : (call.1, earlier) ∈ history := by
          rw [hsame]
          exact mem_passedTimes.mp (List.mem_of_getElem? hearlier)
        have happart := hkept.2 (call.1, earlier) hmem rfl
        rw [hsame, ← length_passedTimes, ← hlast, Nat.add_sub_cancel] at happart
        rw [← hlater]
        exact happart
      · rw [List.getElem?_append_left (by omega)] at hlater
        exact ih hkept.1 hearlier hlater
    · rw [if_neg hsame, List.append_nil] at hearlier hlater
      exact ih hkept.1 hearlier hlater

theorem peek_suppressDuplicate {gate : WhisperGate} {signature : List Char} {nowSecs : Int}
    (h : gate.peek signature nowSecs = .suppressDuplicate) :
    ∃ last, gate.lastDelivered signature = some last ∧
      nowSecs - last < gate.windowFor signature := by
  unfold peek at h
  split at h
  next hwithin =>
    obtain ⟨last, hlast, hless⟩ := (Option.any_eq_true _ _).mp hwithin
    exact ⟨last, hlast, of_decide_eq_true hless⟩
  next =>
    split at h
    · cases h
    · cases h

theorem bounded (hcap : baseSecs ≤ capSecs) (hclock : calls.Pairwise fun a b => a.2 ≤ b.2) :
    Bounded baseSecs capSecs capPerHour calls := by
  have hkept := Kept.and_iff.mp (@delivered_kept baseSecs capSecs capPerHour calls hcap hclock)
  refine ⟨hourly_of_kept hkept.2, ?_, ?_⟩
  · intro signature k earlier later hearlier hlater
    exact spaced_of_kept hkept.1 hearlier hlater
  · intro before signature now after _ hheld
    rw [run_eq_replay] at hheld
    obtain ⟨last, hlast, hless⟩ := peek_suppressDuplicate hheld
    obtain ⟨hbase, hmax, -⟩ := replay_config baseSecs capSecs capPerHour
      (delivered baseSecs capSecs capPerHour before)
    refine ⟨last, ?_, hless.trans_le ?_⟩
    · rw [getLast?_passedTimes, ← replay_lastDelivered]
      exact hlast
    · rw [windowFor, windowForStrikes, hbase, hmax]
      exact @windowForStrikes_le_cap baseSecs capSecs capPerHour hcap _

end Laws

end WhisperGate

namespace BackoffGate

def occurrences : Gate BackoffGate (List Char × Int) BackoffDecision where
  peek gate call := gate.peek call.1 call.2
  passes decision := decision = .admits
  commit gate call := gate.commit call.1 call.2

section Runs

variable (baseWindowSecs multiplier maxWindowSecs : Int) (calls : List (List Char × Int))

def admitted : List (List Char × Int) :=
  occurrences.passed (new baseWindowSecs multiplier maxWindowSecs) calls

/-- What a run of the gate guarantees. -/
structure Bounded : Prop where
  windows : ∀ key last window,
    (occurrences.machine.run (new baseWindowSecs multiplier maxWindowSecs) calls).state key =
      some (last, window) → baseWindowSecs ≤ window ∧ window ≤ maxWindowSecs
  spaced : (admitted baseWindowSecs multiplier maxWindowSecs calls).Pairwise fun a b =>
    a.1 = b.1 → baseWindowSecs ≤ b.2 - a.2
  surfaces : ∀ before key now after last, calls = before ++ (key, now) :: after →
    (passedTimes key (admitted baseWindowSecs multiplier maxWindowSecs before)).getLast? =
      some last →
    maxWindowSecs ≤ now - last →
    (occurrences.admits
      (occurrences.machine.run (new baseWindowSecs multiplier maxWindowSecs) before)
      (key, now)).1 = .admits
  independent : ∀ key,
    ((occurrences.decisions (new baseWindowSecs multiplier maxWindowSecs) calls).filter fun d =>
      d.1.1 = key) =
    occurrences.decisions (new baseWindowSecs multiplier maxWindowSecs)
      (calls.filter fun call => call.1 = key)

/-- A gate that remembers of each key its last admitted occurrence, with a window between
the base and the maximum. -/
structure Remembers (passed : List (List Char × Int)) (gate : BackoffGate) : Prop where
  base : gate.baseWindowSecs = baseWindowSecs
  grows : gate.multiplier = multiplier
  top : gate.maxWindowSecs = maxWindowSecs
  last : ∀ key, (gate.state key).map Prod.fst = (passedTimes key passed).getLast?
  window : ∀ key last window, gate.state key = some (last, window) →
    baseWindowSecs ≤ window ∧ window ≤ maxWindowSecs

end Runs

section Laws

variable {baseWindowSecs multiplier maxWindowSecs : Int} (hbase : 0 < baseWindowSecs)
  (hmax : baseWindowSecs ≤ maxWindowSecs) (hgrows : 1 ≤ multiplier) (hfits : maxWindowSecs < 2 ^ 63)

include hbase hgrows hfits in
theorem le_grown {window : Int} (hwindow : baseWindowSecs ≤ window)
    (htop : window ≤ maxWindowSecs) : baseWindowSecs ≤ saturatingMul window multiplier := by
  have hpos : 0 ≤ window := by omega
  have hgrown : window ≤ window * multiplier := le_mul_of_one_le_right hpos hgrows
  unfold saturatingMul
  apply le_max_of_le_right
  exact le_min (hwindow.trans hgrown) (by omega)

include hbase hmax hgrows hfits

theorem Remembers.commit {passed : List (List Char × Int)} {gate : BackoffGate}
    (h : Remembers baseWindowSecs multiplier maxWindowSecs passed gate) (key : List Char)
    (now : Int) : Remembers baseWindowSecs multiplier maxWindowSecs (passed ++ [(key, now)])
      (gate.commit key now) := by
  refine ⟨h.base, h.grows, h.top, ?_, ?_⟩
  · intro other
    rw [passedTimes_concat]
    by_cases hother : other = key
    · subst hother
      simp [BackoffGate.commit]
    · rw [if_neg (Ne.symm hother), List.append_nil, ← h.last]
      simp [BackoffGate.commit, Function.update_of_ne hother]
  · intro other last window hstate
    by_cases hother : other = key
    · subst hother
      simp only [BackoffGate.commit, Function.update_self, Option.some_inj, Prod.mk.injEq] at hstate
      obtain ⟨-, hwindow⟩ := hstate
      rw [← hwindow, h.base, h.grows, h.top]
      cases hbefore : gate.state other with
      | none => exact ⟨le_rfl, hmax⟩
      | some entry =>
        obtain ⟨hlow, hhigh⟩ := h.window other entry.1 entry.2 hbefore
        dsimp only
        split
        · exact ⟨le_rfl, hmax⟩
        · exact ⟨le_min (le_grown hbase hgrows hfits hlow hhigh) hmax, min_le_right _ _⟩
    · simp only [BackoffGate.commit, Function.update_of_ne hother] at hstate
      exact h.window other last window hstate

theorem remembers (calls : List (List Char × Int)) :
    Remembers baseWindowSecs multiplier maxWindowSecs
      (admitted baseWindowSecs multiplier maxWindowSecs calls)
      (occurrences.machine.run (new baseWindowSecs multiplier maxWindowSecs) calls) := by
  induction calls using List.reverseRecOn with
  | nil => exact ⟨rfl, rfl, rfl, fun _ => rfl, nofun⟩
  | append_singleton calls call ih =>
    rw [admitted, Gate.passed_concat, Machine.run_append]
    change Remembers _ _ _ _ (occurrences.machine.step _ call)
    rw [Gate.step_eq]
    split
    · exact ih.commit hbase hmax hgrows hfits call.1 call.2
    · rw [List.append_nil]
      exact ih

theorem admitted_kept {calls : List (List Char × Int)}
    (hclock : calls.Pairwise fun a b => a.2 ≤ b.2) :
    Kept (fun before call => ∀ e ∈ before, e.1 = call.1 → baseWindowSecs ≤ call.2 - e.2)
      (admitted baseWindowSecs multiplier maxWindowSecs calls) := by
  refine occurrences.kept_passed ?_
  rintro left ⟨key, now⟩ right rfl hpass ⟨key', earlier⟩ he hkey
  obtain rfl : key' = key := hkey
  rw [List.pairwise_append] at hclock
  have hremembers := remembers hbase hmax hgrows hfits left
  have hsub : (admitted baseWindowSecs multiplier maxWindowSecs left).Sublist left :=
    occurrences.passed_sublist _ left
  have htimes : (passedTimes key' (admitted baseWindowSecs multiplier maxWindowSecs left)).Pairwise
      (· ≤ ·) := by
    rw [passedTimes, List.pairwise_map]
    exact (hclock.1.sublist hsub).filter _
  have hmem : earlier ∈ passedTimes key' (admitted baseWindowSecs multiplier maxWindowSecs left) :=
    mem_passedTimes.mpr he
  obtain ⟨init, last, heq⟩ := List.eq_nil_or_concat _ |>.resolve_left (List.ne_nil_of_mem hmem)
  rw [List.concat_eq_append] at heq
  have hlast := hremembers.last key'
  rw [heq, List.getLast?_concat] at hlast
  obtain ⟨⟨last', window⟩, hstate, rfl⟩ := Option.map_eq_some_iff.mp hlast
  obtain ⟨hlow, -⟩ := hremembers.window key' last' window hstate
  have hle : earlier ≤ last' := by
    rw [heq] at hmem htimes
    rcases List.mem_append.mp hmem with hinit | hsame
    · exact (List.pairwise_append.mp htimes).2.2 earlier hinit last' List.mem_cons_self
    · exact (List.mem_singleton.mp hsame).le
  have hnow : last' ≤ now := by
    have hlastmem : (key', last') ∈ admitted baseWindowSecs multiplier maxWindowSecs left := by
      rw [← mem_passedTimes, heq]
      exact List.mem_append_right _ List.mem_cons_self
    exact hclock.2.2 _ (hsub.subset hlastmem) (key', now) List.mem_cons_self
  have hadmits : BackoffGate.peek _ key' now = .admits := of_decide_eq_true hpass
  rw [peek, hstate] at hadmits
  dsimp only at hadmits
  split at hadmits
  · change baseWindowSecs ≤ now - earlier
    omega
  · cases hadmits

theorem backoff_bounded {calls : List (List Char × Int)}
    (hclock : calls.Pairwise fun a b => a.2 ≤ b.2) :
    Bounded baseWindowSecs multiplier maxWindowSecs calls := by
  refine ⟨(remembers hbase hmax hgrows hfits calls).window,
    Kept.pairwise_iff.mpr (admitted_kept hbase hmax hgrows hfits hclock), ?_, ?_⟩
  · intro before key now after last _ hlast hfar
    have hremembers := remembers hbase hmax hgrows hfits before
    rw [← hremembers.last] at hlast
    obtain ⟨⟨last', window⟩, hstate, rfl⟩ := Option.map_eq_some_iff.mp hlast
    obtain ⟨-, hhigh⟩ := hremembers.window key last' window hstate
    change BackoffGate.peek _ key now = .admits
    rw [peek, hstate]
    exact if_pos (.inr (hhigh.trans hfar))
  · intro key
    -- a key's decisions rest on the settings and on what is stored for the key
    apply occurrences.decisions_filter
      (fun gate => (gate.baseWindowSecs, gate.multiplier, gate.maxWindowSecs, gate.state key))
      fun call => call.1 = key
    · rintro s s' ⟨key', now⟩ hown hview
      obtain rfl : key' = key := of_decide_eq_true hown
      simp only [Prod.mk.injEq] at hview
      change s.peek key' now = s'.peek key' now
      rw [peek, peek, hview.2.2.2]
    · rintro s s' ⟨key', now⟩ hown hview
      obtain rfl : key' = key := of_decide_eq_true hown
      simp only [Prod.mk.injEq] at hview
      obtain ⟨hbase', hgrows', hmax', hstate⟩ := hview
      simp only [occurrences, commit, Function.update_self, hbase', hgrows', hmax', hstate]
    · rintro s ⟨key', now⟩ hother
      have hne : key ≠ key' := Ne.symm (of_decide_eq_false hother)
      simp only [occurrences, commit, Function.update_of_ne hne]
    · rfl

end Laws

end BackoffGate

/-- Along a clock that does not go back, both gates bound what they let through and hold no
signature and no key back for longer than its longest window. -/
theorem gates_bound_and_never_silence {baseSecs capSecs : Int} (capPerHour : Nat)
    (_ : 0 < baseSecs) (hcap : baseSecs ≤ capSecs)
    {baseWindowSecs multiplier maxWindowSecs : Int} (hbase : 0 < baseWindowSecs)
    (hmax : baseWindowSecs ≤ maxWindowSecs) (hgrows : 1 ≤ multiplier)
    (hfits : maxWindowSecs < 2 ^ 63) {calls : List (List Char × Int)}
    (hclock : calls.Pairwise fun a b => a.2 ≤ b.2) :
    WhisperGate.Bounded baseSecs capSecs capPerHour calls ∧
      BackoffGate.Bounded baseWindowSecs multiplier maxWindowSecs calls :=
  ⟨WhisperGate.bounded hcap hclock, BackoffGate.backoff_bounded hbase hmax hgrows hfits hclock⟩

theorem gates_bound_repeated_signature :
    WhisperGate.delivered 900 14400 20 [(['g'], 0), (['g'], 600), (['g'], 1000)] =
      [(['g'], 0), (['g'], 1000)] ∧
    WhisperGate.Bounded 900 14400 20 [(['g'], 0), (['g'], 600), (['g'], 1000)] ∧
    BackoffGate.Bounded 3600 2 86400 [(['g'], 0), (['g'], 600), (['g'], 1000)] :=
  ⟨by decide, gates_bound_and_never_silence 20 (by decide) (by decide) (by decide) (by decide)
    (by decide) (by decide) (by decide)⟩

end Simard.Overseer
