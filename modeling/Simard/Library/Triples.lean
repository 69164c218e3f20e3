import Simard.Library.Action

/-! Pre- and postconditions of actions: what a call guarantees where it succeeds, and what it
guarantees of the state where it fails. -/
namespace Simard.Library.Action

variable {σ ε α β : Type}

/-- From a state with `P` the call ends in `Q` if it succeeds and in `E` if it fails. -/
def Meets (P : σ → Prop) (action : Action σ ε α) (Q : α → σ → Prop) (E : σ → Prop) : Prop :=
  ∀ s, P s → match call action s with
    | (.ok a, s') => Q a s'
    | (.error _, s') => E s'

namespace Meets

variable {P P' E E' : σ → Prop} {Q Q' : α → σ → Prop} {R : β → σ → Prop} {action : Action σ ε α}
  {next : α → Action σ ε β}

theorem bind (h : Meets P action Q E) (hnext : ∀ a, Meets (Q a) (next a) R E) :
    Meets P (action >>= next) R E := by
  intro s hs
  have hfirst := h s hs
  rw [call_bind]
  rcases hcall : call action s with ⟨result, s'⟩
  rw [hcall] at hfirst
  cases result with
  | ok a => exact hnext a s' hfirst
  | error e => exact hfirst

theorem imp (h : Meets P action Q E) (hP : ∀ s, P' s → P s) (hQ : ∀ a s, Q a s → Q' a s)
    (hE : ∀ s, E s → E' s) : Meets P' action Q' E' := by
  intro s hs
  have hends := h s (hP s hs)
  rcases hcall : call action s with ⟨result, s'⟩
  rw [hcall] at hends
  cases result with
  | ok a => exact hQ a s' hends
  | error e => exact hE s' hends

theorem pure (a : α) (h : ∀ s, P s → Q a s) : Meets P (Pure.pure a : Action σ ε α) Q E := h

theorem check {result : Except ε α} (hok : ∀ a s, result = .ok a → P s → Q a s)
    (herror : ∀ s, P s → E s) : Meets P (Action.check result) Q E := by
  intro s hs
  cases hresult : result with
  | ok a => exact hok a s hresult hs
  | error e => exact herror s hs

theorem modifies {f : σ → σ} {Q : PUnit → σ → Prop} (h : ∀ s, P s → Q ⟨⟩ (f s)) :
    Meets P (modify f : Action σ ε PUnit) Q E := h

theorem get_bind {next : σ → Action σ ε β} (h : ∀ s, P s → Meets (· = s) (next s) R E) :
    Meets P (get >>= next) R E := fun s hs => h s hs s rfl

theorem always (action : Action σ ε α) :
    Meets (fun _ => True) action (fun _ _ => True) fun _ => True := by
  intro s _
  rcases call action s with ⟨result, s'⟩
  cases result <;> trivial

theorem given {φ : Prop} (h : φ → Meets P action Q E) : Meets (fun s => φ ∧ P s) action Q E :=
  fun s hs => h hs.1 s hs.2

theorem ok (h : Meets P action Q E) {s s' : σ} {a : α} (hs : P s)
    (hcall : call action s = (.ok a, s')) : Q a s' := by
  have hends := h s hs
  rwa [hcall] at hends

theorem error (h : Meets P action Q E) {s s' : σ} {e : ε} (hs : P s)
    (hcall : call action s = (.error e, s')) : E s' := by
  have hends := h s hs
  rwa [hcall] at hends

end Meets

end Simard.Library.Action
