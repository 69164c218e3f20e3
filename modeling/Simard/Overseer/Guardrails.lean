import Mathlib

/-! The gates an Overseer keeps while it acts: a whisper gate with its dedup window and
hourly cap, a backoff gate and a sequencer. What each of them remembers is determined by
what was committed to it. -/
namespace Simard.Overseer

inductive WhisperDecision where
  | deliver
  | suppressDuplicate
  | suppressCapReached
  deriving DecidableEq

/-- The source counts strikes in 32 bits: no signature is delivered `2 ^ 32` times. -/
structure WhisperGate where
  baseSecs : Int
  capSecs : Int
  capPerHour : Nat
  lastDelivered : List Char → Option Int
  strikes : List Char → Nat
  deliveries : List Int

namespace WhisperGate

def withBackoff (baseSecs capSecs : Int) (capPerHour : Nat) : WhisperGate :=
  ⟨baseSecs, max capSecs baseSecs, capPerHour, fun _ => none, fun _ => 0, []⟩

def new (windowSecs : Int) (capPerHour : Nat) : WhisperGate :=
  withBackoff windowSecs windowSecs capPerHour

variable (gate : WhisperGate)

/-- The window doubles with every strike after the first, up to the cap, which also stands
for a product that does not fit into 64 bits. -/
def windowForStrikes (strikes : Nat) : Int :=
  if strikes ≤ 1 then gate.baseSecs
  else
    let grown :=
      if 62 ≤ strikes - 1 then gate.capSecs
      else if gate.baseSecs * 2 ^ (strikes - 1) < 2 ^ 63 then gate.baseSecs * 2 ^ (strikes - 1)
      else gate.capSecs
    min grown gate.capSecs

def windowFor (signature : List Char) : Int :=
  gate.windowForStrikes (gate.strikes signature)

def peek (signature : List Char) (nowSecs : Int) : WhisperDecision :=
  if (gate.lastDelivered signature).any fun last => nowSecs - last < gate.windowFor signature then
    .suppressDuplicate
  else if gate.capPerHour ≤ (gate.deliveries.filter fun t => nowSecs - 3600 < t).length then
    .suppressCapReached
  else .deliver

def commit (signature : List Char) (nowSecs : Int) : WhisperGate :=
  { gate with
    lastDelivered := Function.update gate.lastDelivered signature (some nowSecs)
    strikes := Function.update gate.strikes signature (gate.strikes signature + 1)
    deliveries := (gate.deliveries ++ [nowSecs]).filter fun t => nowSecs - 3600 < t }

theorem peek_deliver {signature : List Char} {nowSecs : Int}
    (h : gate.peek signature nowSecs = .deliver) :
    (∀ last, gate.lastDelivered signature = some last →
      gate.windowFor signature ≤ nowSecs - last) ∧
    (gate.deliveries.filter fun t => nowSecs - 3600 < t).length < gate.capPerHour := by
  unfold peek at h
  split at h
  · cases h
  next hold =>
    split at h
    · cases h
    next hcap =>
      refine ⟨?_, Nat.lt_of_not_le hcap⟩
      intro last hlast
      rw [hlast, Option.any_some, decide_eq_true_eq] at hold
      exact Int.not_lt.mp hold

/-- A gate after some commits, each a signature and a time. -/
def replay (commits : List (List Char × Int)) : WhisperGate :=
  commits.foldl (fun gate entry => gate.commit entry.1 entry.2) gate

@[simp] theorem replay_nil : gate.replay [] = gate := rfl

@[simp] theorem replay_append (commits : List (List Char × Int)) (entry : List Char × Int) :
    gate.replay (commits ++ [entry]) = (gate.replay commits).commit entry.1 entry.2 := by
  simp [replay]

section Replay

variable (baseSecs capSecs : Int) (capPerHour : Nat) (commits : List (List Char × Int))

theorem replay_config : ((withBackoff baseSecs capSecs capPerHour).replay commits).baseSecs =
      baseSecs ∧
    ((withBackoff baseSecs capSecs capPerHour).replay commits).capSecs = max capSecs baseSecs ∧
    ((withBackoff baseSecs capSecs capPerHour).replay commits).capPerHour = capPerHour := by
  induction commits using List.reverseRecOn with
  | nil => exact ⟨rfl, rfl, rfl⟩
  | append_singleton commits entry ih =>
    rw [replay_append]
    exact ih

theorem replay_strikes (signature : List Char) :
    ((withBackoff baseSecs capSecs capPerHour).replay commits).strikes signature =
      commits.countP fun entry => entry.1 = signature := by
  induction commits using List.reverseRecOn with
  | nil => rfl
  | append_singleton commits entry ih =>
    rw [replay_append, List.countP_append]
    by_cases hsame : entry.1 = signature
    · subst hsame
      simp [commit, ih]
    · simp [commit, Function.update_of_ne (Ne.symm hsame), ih, hsame]

theorem replay_lastDelivered (signature : List Char) :
    ((withBackoff baseSecs capSecs capPerHour).replay commits).lastDelivered signature =
      ((commits.filter fun entry => entry.1 = signature).getLast?).map Prod.snd := by
  induction commits using List.reverseRecOn with
  | nil => rfl
  | append_singleton commits entry ih =>
    rw [replay_append, List.filter_append]
    by_cases hsame : entry.1 = signature
    · subst hsame
      simp [commit]
    · simp [commit, Function.update_of_ne (Ne.symm hsame), ih, hsame]

theorem replay_deliveries (hsorted : commits.Pairwise fun a b => a.2 ≤ b.2) {nowSecs : Int}
    (hnow : ∀ entry ∈ commits, entry.2 ≤ nowSecs) :
    (((withBackoff baseSecs capSecs capPerHour).replay commits).deliveries.filter
        fun t => nowSecs - 3600 < t).length =
      commits.countP fun entry => nowSecs - 3600 < entry.2 := by
  induction commits using List.reverseRecOn generalizing nowSecs with
  | nil => rfl
  | append_singleton commits entry ih =>
    rw [List.pairwise_append] at hsorted
    have hbefore (e : List Char × Int) (he : e ∈ commits) : e.2 ≤ entry.2 :=
      hsorted.2.2 e he entry (List.mem_singleton_self entry)
    have hentry : entry.2 ≤ nowSecs :=
      hnow entry (List.mem_append_right _ (List.mem_singleton_self entry))
    have hkept (ts : List Int) : (ts.filter fun t => entry.2 - 3600 < t).filter
        (fun t => nowSecs - 3600 < t) = ts.filter fun t => nowSecs - 3600 < t := by
      rw [List.filter_filter]
      apply List.filter_congr
      intro t _
      by_cases ht : nowSecs - 3600 < t
      · simp only [ht, decide_true, Bool.true_and, decide_eq_true_eq]
        omega
      · simp [ht]
    have hearlier := ih hsorted.1 fun e he => (hbefore e he).trans hentry
    rw [replay_append, List.countP_append]
    change (((_ ++ [entry.2]).filter _).filter _).length = _
    rw [hkept, List.filter_append, List.length_append, hearlier]
    by_cases ht : nowSecs - 3600 < entry.2
    · simp [ht]
    · simp [ht]

theorem replay_deliver (hsorted : commits.Pairwise fun a b => a.2 ≤ b.2) {nowSecs : Int}
    (hnow : ∀ entry ∈ commits, entry.2 ≤ nowSecs) {signature : List Char}
    (h : ((withBackoff baseSecs capSecs capPerHour).replay commits).peek signature nowSecs =
      .deliver) :
    (∀ entry ∈ commits, entry.1 = signature →
      (withBackoff baseSecs capSecs capPerHour).windowForStrikes
        (commits.countP fun e => e.1 = signature) ≤ nowSecs - entry.2) ∧
    (commits.countP fun entry => nowSecs - 3600 < entry.2) < capPerHour := by
  obtain ⟨hlast, hcap⟩ := peek_deliver _ h
  obtain ⟨hbase, hmax, hper⟩ := replay_config baseSecs capSecs capPerHour commits
  rw [replay_deliveries _ _ _ _ hsorted hnow, hper] at hcap
  refine ⟨?_, hcap⟩
  intro entry hentry hsignature
  have hmem : entry ∈ commits.filter fun e => e.1 = signature :=
    List.mem_filter.mpr ⟨hentry, decide_eq_true hsignature⟩
  have hkept : (commits.filter fun e => e.1 = signature).Pairwise fun a b => a.2 ≤ b.2 :=
    hsorted.filter _
  rw [replay_lastDelivered] at hlast
  have hwindow : ((withBackoff baseSecs capSecs capPerHour).replay commits).windowFor signature =
      (withBackoff baseSecs capSecs capPerHour).windowForStrikes
        (commits.countP fun e => e.1 = signature) := by
    rw [windowFor, replay_strikes, windowForStrikes, windowForStrikes, hbase, hmax]
    rfl
  rw [hwindow] at hlast
  rcases List.eq_nil_or_concat (commits.filter fun e => e.1 = signature) with
    hnil | ⟨init, last, heq⟩
  · rw [hnil] at hmem
    cases hmem
  · rw [heq, List.concat_eq_append] at hlast hmem hkept
    have hspaced := hlast last.2 (by simp)
    rcases List.mem_append.mp hmem with hearlier | hsame
    · have hle := (List.pairwise_append.mp hkept).2.2 entry hearlier last List.mem_cons_self
      omega
    · obtain rfl := List.mem_singleton.mp hsame
      exact hspaced

end Replay

end WhisperGate

inductive BackoffDecision where
  | admits
  | suppress
  deriving DecidableEq

structure BackoffGate where
  baseWindowSecs : Int
  multiplier : Int
  maxWindowSecs : Int
  state : List Char → Option (Int × Int)

namespace BackoffGate

def new (baseWindowSecs multiplier maxWindowSecs : Int) : BackoffGate :=
  ⟨baseWindowSecs, multiplier, maxWindowSecs, fun _ => none⟩

variable (gate : BackoffGate)

def peek (key : List Char) (nowSecs : Int) : BackoffDecision :=
  match gate.state key with
  | none => .admits
  | some (lastAdmit, window) =>
      let elapsed := nowSecs - lastAdmit
      if elapsed < 0 ∨ window ≤ elapsed then .admits else .suppress

/-- The product of two 64-bit numbers, at the bounds where it does not fit. -/
def saturatingMul (a b : Int) : Int := max (-(2 ^ 63)) (min (a * b) (2 ^ 63 - 1))

def commit (key : List Char) (nowSecs : Int) : BackoffGate :=
  let nextWindow :=
    match gate.state key with
    | none => gate.baseWindowSecs
    | some (lastAdmit, window) =>
        let elapsed := nowSecs - lastAdmit
        if elapsed < 0 ∨ saturatingMul window 2 ≤ elapsed then gate.baseWindowSecs
        else min (saturatingMul window gate.multiplier) gate.maxWindowSecs
  { gate with state := Function.update gate.state key (some (nowSecs, nextWindow)) }

end BackoffGate

/-- The groups with a sweep planned in this cycle. -/
structure ConflictSequencer where
  activeGroups : List (List Char)

def ConflictSequencer.admits (sequencer : ConflictSequencer) :
    Option (List Char) → Option ConflictSequencer
  | none => some sequencer
  | some group =>
      if sequencer.activeGroups.contains group then none
      else some ⟨sequencer.activeGroups ++ [group]⟩

theorem ConflictSequencer.admits_some {sequencer sequencer' : ConflictSequencer}
    {group : Option (List Char)} (h : sequencer.admits group = some sequencer') :
    sequencer.activeGroups ⊆ sequencer'.activeGroups ∧
      ∀ name, group = some name →
        name ∉ sequencer.activeGroups ∧ name ∈ sequencer'.activeGroups := by
  cases group with
  | none =>
    obtain rfl := Option.some.inj h
    exact ⟨fun _ hname => hname, nofun⟩
  | some name =>
    simp only [admits] at h
    split at h
    · cases h
    next hfresh =>
      obtain rfl := Option.some.inj h
      refine ⟨List.subset_append_left _ _, ?_⟩
      intro other hother
      obtain rfl := Option.some.inj hother
      rw [List.contains_iff_mem] at hfresh
      exact ⟨hfresh, List.mem_append_right _ List.mem_cons_self⟩

end Simard.Overseer
