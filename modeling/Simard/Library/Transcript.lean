import Simard.Library.Program

/-! Transcripts of programs: the commands a program issued with the answers it got, from its
start to its end. A program that may fail stops where it does; the transcript of a sequence is
that of its first part, followed by that of the rest if the first part succeeded. -/
namespace Simard.Library

variable {Cmd : Type} {Ans : Cmd → Type} {ε α β : Type}

/-- A whole run of a program: what it issued and was answered, and what it returned. -/
inductive Transcript : Program Cmd Ans α → List (Sigma Ans) → α → Prop where
  | done (value : α) : Transcript (.done value) [] value
  | step {cmd : Cmd} {next : Ans cmd → Program Cmd Ans α} (answer : Ans cmd)
      {log : List (Sigma Ans)} {value : α} (rest : Transcript (next answer) log value) :
      Transcript (.step cmd next) (⟨cmd, answer⟩ :: log) value

theorem transcript_done_iff {value result : α} {log : List (Sigma Ans)} :
    Transcript (.done value : Program Cmd Ans α) log result ↔ log = [] ∧ result = value := by
  constructor
  · intro h
    cases h
    exact ⟨rfl, rfl⟩
  · rintro ⟨rfl, rfl⟩
    exact .done _

theorem transcript_step_iff {cmd : Cmd} {next : Ans cmd → Program Cmd Ans α} {result : α}
    {log : List (Sigma Ans)} :
    Transcript (.step cmd next) log result ↔
      ∃ answer rest, log = ⟨cmd, answer⟩ :: rest ∧ Transcript (next answer) rest result := by
  constructor
  · intro h
    cases h with
    | step answer rest => exact ⟨answer, _, rfl, rest⟩
  · rintro ⟨answer, rest, rfl, h⟩
    exact .step answer h

theorem transcript_bind_iff {p : Program Cmd Ans α} {f : α → Program Cmd Ans β} {result : β}
    {log : List (Sigma Ans)} :
    Transcript (p >>= f) log result ↔
      ∃ left right value, log = left ++ right ∧ Transcript p left value ∧
        Transcript (f value) right result := by
  induction p generalizing log with
  | done a =>
    rw [Program.done_bind]
    constructor
    · intro h
      exact ⟨[], log, a, rfl, .done a, h⟩
    · rintro ⟨left, right, value, rfl, hleft, hright⟩
      obtain ⟨rfl, rfl⟩ := transcript_done_iff.mp hleft
      exact hright
  | step cmd next ih =>
    rw [Program.step_bind, transcript_step_iff]
    constructor
    · rintro ⟨answer, rest, rfl, h⟩
      obtain ⟨left, right, value, rfl, hleft, hright⟩ := (ih answer).mp h
      exact ⟨⟨cmd, answer⟩ :: left, right, value, rfl, .step answer hleft, hright⟩
    · rintro ⟨left, right, value, rfl, hleft, hright⟩
      obtain ⟨answer, rest, rfl, h⟩ := transcript_step_iff.mp hleft
      exact ⟨answer, rest ++ right, rfl, (ih answer).mpr ⟨rest, right, value, rfl, h, hright⟩⟩

/-- Part of a run: what was issued and answered so far, and what is left of the program. -/
inductive Reaches (p : Program Cmd Ans α) : List (Sigma Ans) → Program Cmd Ans α → Prop where
  | start : Reaches p [] p
  | answered {log : List (Sigma Ans)} {cmd : Cmd} {next : Ans cmd → Program Cmd Ans α}
      (h : Reaches p log (.step cmd next)) (answer : Ans cmd) :
      Reaches p (log ++ [⟨cmd, answer⟩]) (next answer)

theorem Reaches.transcript {p rest : Program Cmd Ans α} {log later : List (Sigma Ans)} {value : α}
    (h : Reaches p log rest) (hlater : Transcript rest later value) :
    Transcript p (log ++ later) value := by
  induction h generalizing later with
  | start => exact hlater
  | answered _ answer ih =>
    rw [List.append_assoc]
    exact ih (.step answer hlater)

/-- Run a program against a world and write down what it issued and was answered. -/
def record {σ : Type} (answer : σ → (cmd : Cmd) → Ans cmd × σ) :
    Program Cmd Ans α → σ → List (Sigma Ans) × α
  | .done value, _ => ([], value)
  | .step cmd next, s =>
      let rest := record answer (next (answer s cmd).1) (answer s cmd).2
      (⟨cmd, (answer s cmd).1⟩ :: rest.1, rest.2)

theorem transcript_record {σ : Type} (answer : σ → (cmd : Cmd) → Ans cmd × σ)
    (p : Program Cmd Ans α) (s : σ) :
    Transcript p (record answer p s).1 (record answer p s).2 := by
  induction p generalizing s with
  | done value => exact .done value
  | step cmd next ih => exact .step (answer s cmd).1 (ih (answer s cmd).1 (answer s cmd).2)

abbrev Fallible (ε : Type) (Cmd : Type) (Ans : Cmd → Type) := ExceptT ε (Program Cmd Ans)

namespace Fallible

def attempt (cmd : Cmd) (read : Ans cmd → Except ε α) : Fallible ε Cmd Ans α :=
  ExceptT.mk (.step cmd fun answer => .done (read answer))

def Runs (p : Fallible ε Cmd Ans α) (log : List (Sigma Ans)) (result : Except ε α) : Prop :=
  Transcript p.run log result

variable {log : List (Sigma Ans)}

theorem runs_attempt {cmd : Cmd} {read : Ans cmd → Except ε α} {result : Except ε α} :
    (attempt cmd read).Runs log result ↔
      ∃ answer, log = [⟨cmd, answer⟩] ∧ result = read answer := by
  change Transcript (.step cmd _) log result ↔ _
  rw [transcript_step_iff]
  apply exists_congr
  intro answer
  constructor
  · rintro ⟨rest, rfl, h⟩
    obtain ⟨rfl, rfl⟩ := transcript_done_iff.mp h
    exact ⟨rfl, rfl⟩
  · rintro ⟨rfl, rfl⟩
    exact ⟨[], rfl, .done _⟩

theorem runs_pure {a : α} {result : Except ε α} :
    (pure a : Fallible ε Cmd Ans α).Runs log result ↔ log = [] ∧ result = .ok a :=
  transcript_done_iff

theorem runs_throw {e : ε} {result : Except ε α} :
    (throw e : Fallible ε Cmd Ans α).Runs log result ↔ log = [] ∧ result = .error e :=
  transcript_done_iff

theorem runs_bind {p : Fallible ε Cmd Ans α} {f : α → Fallible ε Cmd Ans β}
    {result : Except ε β} :
    (p >>= f).Runs log result ↔
      (∃ e, p.Runs log (.error e) ∧ result = .error e) ∨
      ∃ left right value, log = left ++ right ∧ p.Runs left (.ok value) ∧
        (f value).Runs right result := by
  change Transcript (p.run >>= ExceptT.bindCont f) log result ↔ _
  rw [transcript_bind_iff]
  constructor
  · rintro ⟨left, right, value, rfl, hleft, hright⟩
    cases value with
    | error e =>
      obtain ⟨rfl, rfl⟩ := transcript_done_iff.mp hright
      rw [List.append_nil]
      exact .inl ⟨e, hleft, rfl⟩
    | ok value => exact .inr ⟨left, right, value, rfl, hleft, hright⟩
  · rintro (⟨e, h, rfl⟩ | ⟨left, right, value, rfl, hleft, hright⟩)
    · exact ⟨log, [], .error e, (List.append_nil log).symm, h, .done _⟩
    · exact ⟨left, right, .ok value, rfl, hleft, hright⟩

section Exec

variable {σ : Type} {answer : σ → (cmd : Cmd) → Ans cmd × σ} {s s' : σ}

/-- Run alone against a world, to a result and the world it leaves. -/
def exec (answer : σ → (cmd : Cmd) → Ans cmd × σ) (p : Fallible ε Cmd Ans α) (s : σ) :
    Except ε α × σ := Program.exec answer p.run s

@[simp] theorem exec_attempt (cmd : Cmd) (read : Ans cmd → Except ε α) :
    exec answer (attempt cmd read) s = (read (answer s cmd).1, (answer s cmd).2) := rfl

@[simp] theorem exec_pure (a : α) : exec answer (pure a : Fallible ε Cmd Ans α) s = (.ok a, s) :=
  rfl

@[simp] theorem exec_throw (e : ε) :
    exec answer (throw e : Fallible ε Cmd Ans α) s = (.error e, s) := rfl

theorem exec_bind_ok {p : Fallible ε Cmd Ans α} {f : α → Fallible ε Cmd Ans β} {a : α}
    (h : exec answer p s = (.ok a, s')) : exec answer (p >>= f) s = exec answer (f a) s' := by
  change Program.exec answer (p.run >>= ExceptT.bindCont f) s = _
  rw [Program.exec_bind, show Program.exec answer p.run s = _ from h]
  rfl

/-- Where the first command's answer is read well, the rest goes on from there. -/
theorem exec_attempt_ok {cmd : Cmd} {read : Ans cmd → Except ε α} {f : α → Fallible ε Cmd Ans β}
    {a : α} (h : read (answer s cmd).1 = .ok a) :
    exec answer (attempt cmd read >>= f) s = exec answer (f a) (answer s cmd).2 :=
  exec_bind_ok (congrArg (·, (answer s cmd).2) h)

theorem exec_bind_error {p : Fallible ε Cmd Ans α} {f : α → Fallible ε Cmd Ans β} {e : ε}
    (h : exec answer p s = (.error e, s')) : exec answer (p >>= f) s = (.error e, s') := by
  change Program.exec answer (p.run >>= ExceptT.bindCont f) s = _
  rw [Program.exec_bind, show Program.exec answer p.run s = _ from h]
  rfl

end Exec

end Fallible

end Simard.Library
