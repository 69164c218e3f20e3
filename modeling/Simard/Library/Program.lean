import Mathlib

/-! Sequential programs as trees of atomic commands. Everything a program does to
the world is one command at a time, so a scheduler may run other programs between
any two of them. A protocol tracks a ghost value through the answers and says
which commands are allowed at each point; a program that follows a protocol obeys
it however it is interleaved. -/
namespace Simard.Library

inductive Program (Cmd : Type) (Ans : Cmd → Type) (α : Type) where
  | done (value : α)
  | step (cmd : Cmd) (next : Ans cmd → Program Cmd Ans α)

namespace Program

variable {Cmd : Type} {Ans : Cmd → Type} {α β : Type}

def bind : Program Cmd Ans α → (α → Program Cmd Ans β) → Program Cmd Ans β
  | .done value, f => f value
  | .step cmd next, f => .step cmd fun answer => (next answer).bind f

instance : Monad (Program Cmd Ans) where
  pure := .done
  bind := Program.bind

def perform (cmd : Cmd) : Program Cmd Ans (Ans cmd) :=
  .step cmd .done

def result? : Program Cmd Ans α → Option α
  | .done value => some value
  | .step .. => none

/-- Run alone, every command answered by the state as it stands. -/
def exec {σ : Type} (answer : σ → (cmd : Cmd) → Ans cmd × σ) : Program Cmd Ans α → σ → α × σ
  | .done value, s => (value, s)
  | .step cmd next, s => exec answer (next (answer s cmd).1) (answer s cmd).2

@[simp] theorem pure_eq (a : α) : (pure a : Program Cmd Ans α) = .done a := rfl

@[simp] theorem done_bind (a : α) (f : α → Program Cmd Ans β) :
    ((.done a : Program Cmd Ans α) >>= f) = f a := rfl

@[simp] theorem step_bind (cmd : Cmd) (next : Ans cmd → Program Cmd Ans α)
    (f : α → Program Cmd Ans β) :
    ((.step cmd next : Program Cmd Ans α) >>= f) = .step cmd fun answer => next answer >>= f :=
  rfl

@[simp] theorem perform_bind (cmd : Cmd) (f : Ans cmd → Program Cmd Ans β) :
    (perform cmd >>= f) = .step cmd f := rfl

theorem exec_bind {σ : Type} (answer : σ → (cmd : Cmd) → Ans cmd × σ) (p : Program Cmd Ans α)
    (f : α → Program Cmd Ans β) (s : σ) :
    (p >>= f).exec answer s = (f (p.exec answer s).1).exec answer (p.exec answer s).2 := by
  induction p generalizing s with
  | done a => rfl
  | step cmd next ih => exact ih (answer s cmd).1 (answer s cmd).2

end Program

/-- What may be done in which ghost state, and where each answer leads. -/
structure Protocol (Cmd : Type) (Ans : Cmd → Type) (γ : Type) where
  allowed : γ → Cmd → Prop
  next : γ → (cmd : Cmd) → Ans cmd → γ

namespace Program

variable {Cmd : Type} {Ans : Cmd → Type} {γ α β : Type}

/-- Started at a ghost state, the program issues only allowed commands and ends
where the postcondition holds, whatever it is answered. -/
def Follows (protocol : Protocol Cmd Ans γ) (post : γ → α → Prop) : γ → Program Cmd Ans α → Prop
  | g, .done value => post g value
  | g, .step cmd next =>
      protocol.allowed g cmd ∧ ∀ answer, (next answer).Follows protocol post
        (protocol.next g cmd answer)

variable {protocol : Protocol Cmd Ans γ}

@[simp] theorem follows_done {post : γ → α → Prop} {g : γ} {a : α} :
    (done a : Program Cmd Ans α).Follows protocol post g ↔ post g a := Iff.rfl

@[simp] theorem follows_step {post : γ → α → Prop} {g : γ} {cmd : Cmd}
    {next : Ans cmd → Program Cmd Ans α} :
    (step cmd next).Follows protocol post g ↔
      protocol.allowed g cmd ∧ ∀ answer, (next answer).Follows protocol post
        (protocol.next g cmd answer) := Iff.rfl

theorem Follows.mono {post strong : γ → α → Prop} (h : ∀ g a, strong g a → post g a) {g : γ}
    {p : Program Cmd Ans α} (hp : p.Follows protocol strong g) : p.Follows protocol post g := by
  induction p generalizing g with
  | done a => exact h g a hp
  | step cmd next ih => exact ⟨hp.1, fun answer => ih answer (hp.2 answer)⟩

/-- Sequencing: the first part's postcondition is the second part's precondition. -/
theorem Follows.bind {mid : γ → α → Prop} {post : γ → β → Prop} {g : γ}
    {p : Program Cmd Ans α} {f : α → Program Cmd Ans β} (hp : p.Follows protocol mid g)
    (hf : ∀ g a, mid g a → (f a).Follows protocol post g) :
    (p >>= f).Follows protocol post g := by
  induction p generalizing g with
  | done a => exact hf g a hp
  | step cmd next ih => exact ⟨hp.1, fun answer => ih answer (hp.2 answer)⟩

theorem follows_of_allowed (h : ∀ g cmd, protocol.allowed g cmd) (program : Program Cmd Ans α)
    (g : γ) : program.Follows protocol (fun _ _ => True) g := by
  induction program generalizing g with
  | done a => trivial
  | step cmd next ih => exact ⟨h g cmd, fun answer => ih answer _⟩

/-- Every command the program may issue meets a condition. -/
def Issues (p : Cmd → Prop) : Program Cmd Ans α → Prop
  | .done _ => True
  | .step cmd next => p cmd ∧ ∀ answer, (next answer).Issues p

@[simp] theorem issues_done {p : Cmd → Prop} (a : α) :
    (done a : Program Cmd Ans α).Issues p := trivial

@[simp] theorem issues_step {p : Cmd → Prop} {cmd : Cmd}
    {next : Ans cmd → Program Cmd Ans α} :
    (step cmd next).Issues p ↔ p cmd ∧ ∀ answer, (next answer).Issues p := Iff.rfl

theorem Issues.bind {p : Cmd → Prop} {program : Program Cmd Ans α}
    {f : α → Program Cmd Ans β} (h : program.Issues p) (hf : ∀ a, (f a).Issues p) :
    (program >>= f).Issues p := by
  induction program with
  | done a => exact hf a
  | step cmd next ih => exact ⟨h.1, fun answer => ih answer (h.2 answer)⟩

theorem Issues.follows_any {p : Cmd → Prop} {program : Program Cmd Ans α}
    (h : program.Issues p) (hallowed : ∀ g cmd, p cmd → protocol.allowed g cmd) (g : γ) :
    program.Follows protocol (fun _ _ => True) g := by
  induction program generalizing g with
  | done a => trivial
  | step cmd next ih => exact ⟨hallowed g cmd h.1, fun answer => ih answer (h.2 answer) _⟩

theorem Issues.follows {p : Cmd → Prop} {program : Program Cmd Ans α}
    (h : program.Issues p) (hignored : ∀ g cmd, p cmd → protocol.allowed g cmd ∧
      ∀ answer, protocol.next g cmd answer = g) (g : γ) :
    program.Follows protocol (fun g' _ => g' = g) g := by
  induction program with
  | done a => rfl
  | step cmd next ih =>
    refine ⟨(hignored g cmd h.1).1, ?_⟩
    intro answer
    rw [(hignored g cmd h.1).2]
    exact ih answer (h.2 answer)

end Program

end Simard.Library
