import Simard.Library.Pool

/-! Calls in progress over one shared state, with a log of those that have returned.
Each call is a program that runs interleaved with the others; a call returns with the
last command it carries out, and the log keeps the order in which calls returned. -/
namespace Simard.Library

structure Calls (σ Call Cmd : Type) (Ans : Cmd → Type) (α : Type) where
  shared : σ
  running : List (Call × Thread Cmd Ans α)
  finished : List (Call × α)

namespace Calls

variable {σ Call ο Cmd : Type} {Ans : Cmd → Type} {α γ : Type}

def init (s : σ) : Calls σ Call Cmd Ans α := ⟨s, [], []⟩

def returning (call : Call) (program : Program Cmd Ans α) : List (Call × α) :=
  (program.result?.map (Prod.mk call)).toList

def step (host : Pool.Host σ Call ο Cmd Ans α) (calls : Calls σ Call Cmd Ans α) :
    Pool.Event Call ο → Calls σ Call Cmd Ans α
  | .start call =>
      { calls with
        running := calls.running ++ [(call, ⟨host.program call, []⟩)]
        finished := calls.finished ++ returning call (host.program call) }
  | .advance index oracle =>
      match calls.running[index]? with
      | some (call, ⟨.step cmd next, past⟩) =>
          let (answer, shared) := host.answer calls.shared oracle cmd
          ⟨shared, calls.running.set index (call, ⟨next answer, past ++ [⟨cmd, answer⟩]⟩),
            calls.finished ++ returning call (next answer)⟩
      | _ => calls

def machine (host : Pool.Host σ Call ο Cmd Ans α) :
    Machine (Calls σ Call Cmd Ans α) (Pool.Event Call ο) := ⟨step host⟩

/-- A condition on the calls that are made and on the commands they carry out, the latter
at the state they meet and at what the call has learned by then. -/
structure Condition (σ Call ο Cmd γ : Type) where
  admits : Call → Bool
  permits : σ → ο → Call → γ → Cmd → Bool

section Rules

variable (host : Pool.Host σ Call ο Cmd Ans α) (protocol : Call → Protocol Cmd Ans γ) (start : γ)

def Condition.holds (condition : Condition σ Call ο Cmd γ) (calls : Calls σ Call Cmd Ans α) :
    Pool.Event Call ο → Bool
  | .start call => condition.admits call
  | .advance index oracle =>
      match calls.running[index]? with
      | some (call, ⟨.step cmd _, past⟩) =>
          condition.permits calls.shared oracle call (Pool.ghost (protocol call) start past) cmd
      | _ => true

def Condition.meets (condition : Condition σ Call ο Cmd γ) (calls : Calls σ Call Cmd Ans α)
    (events : List (Pool.Event Call ο)) : Bool :=
  ((machine host).trace calls events).all fun t => condition.holds protocol start t.before t.event

def Condition.both (left right : Condition σ Call ο Cmd γ) : Condition σ Call ο Cmd γ where
  admits call := left.admits call && right.admits call
  permits s oracle call g cmd :=
    left.permits s oracle call g cmd && right.permits s oracle call g cmd

/-- A command a call may carry out: the call was admitted, its protocol allows the command,
what the call believes holds, and the condition permits the command here. -/
structure Carries (condition : Condition σ Call ο Cmd γ) (believes : γ → Prop) (s : σ)
    (oracle : ο) (call : Call) (g : γ) (cmd : Cmd) : Prop where
  admitted : condition.admits call
  allowed : (protocol call).allowed g cmd
  belief : believes g
  permitted : condition.permits s oracle call g cmd

/-- What a command must do to the call's belief, the shared state and the log; the state
and the log are for two cases, the call going on and the call returning with it. -/
structure Rules (post : Call → γ → α → Prop) (condition : Condition σ Call ο Cmd γ)
    (believes : γ → Prop) (P : σ → List (Call × α) → Prop) : Prop where
  program : ∀ call, (host.program call).Follows (protocol call) (post call) start
  unfinished : ∀ call value, ¬ post call start value
  begins : believes start
  learns : ∀ s oracle call g cmd, Carries protocol condition believes s oracle call g cmd →
    believes ((protocol call).next g cmd (host.answer s oracle cmd).1)
  goesOn : ∀ s oracle call g cmd log, Carries protocol condition believes s oracle call g cmd →
    P s log → (∃ later, (protocol call).allowed
      ((protocol call).next g cmd (host.answer s oracle cmd).1) later) →
    P (host.answer s oracle cmd).2 log
  returns : ∀ s oracle call g cmd log value,
    Carries protocol condition believes s oracle call g cmd → P s log →
    post call ((protocol call).next g cmd (host.answer s oracle cmd).1) value →
    P (host.answer s oracle cmd).2 (log ++ [(call, value)])

variable {host protocol start} {post : Call → γ → α → Prop} {condition : Condition σ Call ο Cmd γ}
  {believes : γ → Prop} {P : σ → List (Call × α) → Prop}

/-- Every call was admitted, believes what it should and is somewhere in a program that
follows its protocol. -/
def Following (protocol : Call → Protocol Cmd Ans γ) (start : γ) (post : Call → γ → α → Prop)
    (condition : Condition σ Call ο Cmd γ) (believes : γ → Prop)
    (calls : Calls σ Call Cmd Ans α) : Prop :=
  ∀ entry ∈ calls.running, condition.admits entry.1 ∧
    believes (Pool.ghost (protocol entry.1) start entry.2.past) ∧
    entry.2.program.Follows (protocol entry.1) (post entry.1)
      (Pool.ghost (protocol entry.1) start entry.2.past)

theorem step_cases (host : Pool.Host σ Call ο Cmd Ans α) (calls : Calls σ Call Cmd Ans α)
    (event : Pool.Event Call ο) :
    (∃ call, event = .start call ∧ step host calls event =
      { calls with
        running := calls.running ++ [(call, ⟨host.program call, []⟩)]
        finished := calls.finished ++ returning call (host.program call) }) ∨
    step host calls event = calls ∨
    (∃ index oracle call cmd next past, event = .advance index oracle ∧
      calls.running[index]? = some (call, ⟨.step cmd next, past⟩) ∧
      step host calls event =
        ⟨(host.answer calls.shared oracle cmd).2, calls.running.set index
          (call, ⟨next (host.answer calls.shared oracle cmd).1,
            past ++ [⟨cmd, (host.answer calls.shared oracle cmd).1⟩]⟩),
          calls.finished ++ returning call (next (host.answer calls.shared oracle cmd).1)⟩) := by
  cases event with
  | start call => exact .inl ⟨call, rfl, rfl⟩
  | advance index oracle =>
    cases hentry : calls.running[index]? with
    | none =>
      refine .inr (.inl ?_)
      simp [step, hentry]
    | some entry =>
      obtain ⟨call, program, past⟩ := entry
      cases program with
      | done value =>
        refine .inr (.inl ?_)
        simp [step, hentry]
      | step cmd next =>
        refine .inr (.inr ⟨index, oracle, call, cmd, next, past, rfl, hentry, ?_⟩)
        simp [step, hentry]

theorem Condition.both_holds {left right : Condition σ Call ο Cmd γ}
    {calls : Calls σ Call Cmd Ans α} {event : Pool.Event Call ο}
    (hleft : left.holds protocol start calls event)
    (hright : right.holds protocol start calls event) :
    (left.both right).holds protocol start calls event := by
  unfold Condition.holds at *
  split
  · exact Bool.and_eq_true_iff.mpr ⟨hleft, hright⟩
  · split
    next hentry =>
      simp only [hentry] at hleft hright
      exact Bool.and_eq_true_iff.mpr ⟨hleft, hright⟩
    next => rfl

theorem Condition.both_meets {left right : Condition σ Call ο Cmd γ}
    {calls : Calls σ Call Cmd Ans α} {events : List (Pool.Event Call ο)}
    (hleft : left.meets host protocol start calls events)
    (hright : right.meets host protocol start calls events) :
    (left.both right).meets host protocol start calls events := by
  unfold Condition.meets at *
  rw [List.all_eq_true] at hleft hright ⊢
  intro t ht
  exact Condition.both_holds (hleft t ht) (hright t ht)

theorem Rules.step (rules : Rules host protocol start post condition believes P)
    (calls : Calls σ Call Cmd Ans α) (event : Pool.Event Call ο)
    (hcondition : condition.holds protocol start calls event)
    (h : Following protocol start post condition believes calls ∧
      P calls.shared calls.finished) :
    Following protocol start post condition believes (step host calls event) ∧
      P (step host calls event).shared (step host calls event).finished := by
  obtain ⟨hfollowing, hP⟩ := h
  rcases step_cases host calls event with
    ⟨call, rfl, hstep⟩ | hstep | ⟨index, oracle, call, cmd, next, past, rfl, hentry, hstep⟩
  · have hfresh : returning call (host.program call) = [] := by
      have hprogram := rules.program call
      cases hstarts : host.program call with
      | done value =>
        rw [hstarts] at hprogram
        exact absurd hprogram (rules.unfinished call value)
      | step cmd next => rfl
    rw [hstep, hfresh, List.append_nil]
    refine ⟨?_, hP⟩
    intro entry hmem
    rcases List.mem_append.mp hmem with hmem | hmem
    · exact hfollowing entry hmem
    · rw [List.mem_singleton.mp hmem]
      exact ⟨hcondition, rules.begins, rules.program call⟩
  · rw [hstep]
    exact ⟨hfollowing, hP⟩
  · obtain ⟨hadmitted, hbelief, hallowed, hnext⟩ := hfollowing _ (List.mem_of_getElem? hentry)
    have hcarries : Carries protocol condition believes calls.shared oracle call
        (Pool.ghost (protocol call) start past) cmd := by
      refine ⟨hadmitted, hallowed, hbelief, ?_⟩
      simpa only [Condition.holds, hentry] using hcondition
    specialize hnext (host.answer calls.shared oracle cmd).1
    rw [hstep]
    refine ⟨?_, ?_⟩
    · intro entry hmem
      rcases List.mem_or_eq_of_mem_set hmem with hmem | rfl
      · exact hfollowing entry hmem
      · refine ⟨hadmitted, ?_⟩
        rw [Pool.ghost_append]
        exact ⟨rules.learns _ oracle call _ cmd hcarries, hnext⟩
    · cases hlater : next (host.answer calls.shared oracle cmd).1 with
      | done value =>
        rw [hlater] at hnext
        exact rules.returns _ oracle call _ cmd _ value hcarries hP hnext
      | step later rest =>
        rw [hlater] at hnext
        have hgoesOn := rules.goesOn _ oracle call _ cmd _ hcarries hP ⟨later, hnext.1⟩
        simpa [returning, Program.result?] using hgoesOn

theorem Rules.run (rules : Rules host protocol start post condition believes P) {s : σ}
    (h : P s []) (events : List (Pool.Event Call ο))
    (hmeets : condition.meets host protocol start (init s) events) :
    P ((machine host).run (init s) events).shared
      ((machine host).run (init s) events).finished := by
  have hinit : Following protocol start post condition believes
      (init s : Calls σ Call Cmd Ans α) := by
    intro entry hmem
    cases hmem
  refine ((machine host).invariant_run_of (P := fun calls : Calls σ Call Cmd Ans α =>
    Following protocol start post condition believes calls ∧ P calls.shared calls.finished)
    (fun calls event => rules.step calls event) ⟨hinit, h⟩ events ?_).2
  intro t ht
  exact List.all_eq_true.mp hmeets t ht

end Rules

end Calls

end Simard.Library
