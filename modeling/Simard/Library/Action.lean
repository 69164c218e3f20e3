import Mathlib

/-! Actions that change a state in place and may fail on the way. A failure keeps what
was done before it; an action that checks first and writes last leaves the state as it
was when it fails. -/
namespace Simard.Library

abbrev Action (σ ε : Type) := ExceptT ε (StateM σ)

namespace Action

variable {σ ε α β : Type}

def call (action : Action σ ε α) (s : σ) : Except ε α × σ := action.run.run s

/-- A computation that neither reads nor writes the state. -/
def check (result : Except ε α) : Action σ ε α := ExceptT.mk (pure result)

@[simp] theorem call_pure (a : α) (s : σ) : call (pure a : Action σ ε α) s = (.ok a, s) := rfl

@[simp] theorem call_set (s s' : σ) : call (set s' : Action σ ε PUnit) s = (.ok ⟨⟩, s') := rfl

theorem call_check (result : Except ε α) (s : σ) :
    call (check result) s = (result, s) := rfl

@[simp] theorem call_get_bind (next : σ → Action σ ε β) (s : σ) :
    call (get >>= next) s = call (next s) s := rfl

@[simp] theorem call_set_bind (s s' : σ) (next : PUnit → Action σ ε β) :
    call (set s' >>= next) s = call (next ⟨⟩) s' := rfl

@[simp] theorem call_check_ok (a : α) (next : α → Action σ ε β) (s : σ) :
    call (check (.ok a) >>= next) s = call (next a) s := rfl

@[simp] theorem call_check_error (e : ε) (next : α → Action σ ε β) (s : σ) :
    call (check (.error e) >>= next) s = (.error e, s) := rfl

theorem call_bind (action : Action σ ε α) (next : α → Action σ ε β) (s : σ) :
    call (action >>= next) s =
      match call action s with
      | (.ok a, s') => call (next a) s'
      | (.error e, s') => (.error e, s') := by
  change (match call action s with
    | (result, s') => (ExceptT.bindCont next result).run s') = _
  rcases call action s with ⟨result, s'⟩
  cases result <;> rfl

theorem call_bind_ok {action : Action σ ε α} {next : α → Action σ ε β} {s s'' : σ} {b : β} :
    call (action >>= next) s = (.ok b, s'') ↔
      ∃ a s', call action s = (.ok a, s') ∧ call (next a) s' = (.ok b, s'') := by
  rw [call_bind]
  rcases call action s with ⟨e | a, s'⟩
  · constructor
    · intro h
      cases h
    · rintro ⟨_, _, h, -⟩
      cases h
  · constructor
    · intro h
      exact ⟨a, s', rfl, h⟩
    · rintro ⟨_, _, ⟨⟩, h⟩
      exact h

@[simp] theorem call_modify (f : σ → σ) (s : σ) :
    call (modify f : Action σ ε PUnit) s = (.ok ⟨⟩, f s) := rfl

@[simp] theorem call_modify_bind (f : σ → σ) (next : PUnit → Action σ ε β) (s : σ) :
    call (modify f >>= next) s = call (next ⟨⟩) (f s) := rfl

def attempt {ε' : Type} (action : Action σ ε α) : Action σ ε' (Except ε α) :=
  ExceptT.mk fun s => ((Except.ok (call action s).1, (call action s).2) : Except ε' _ × σ)

@[simp] theorem call_attempt_bind {ε' : Type} (action : Action σ ε α)
    (next : Except ε α → Action σ ε' β) (s : σ) :
    call (attempt action >>= next) s = call (next (call action s).1) (call action s).2 := rfl

def mapError {ε' : Type} (f : ε → ε') (action : Action σ ε α) : Action σ ε' α := do
  match ← attempt action with
  | .ok a => return a
  | .error e => check (.error (f e))

theorem call_mapError {ε' : Type} (f : ε → ε') (action : Action σ ε α) (s : σ) :
    call (mapError f action) s = ((call action s).1.mapError f, (call action s).2) := by
  unfold mapError
  rw [call_attempt_bind]
  rcases call action s with ⟨result, s'⟩
  cases result <;> rfl

theorem mapError_ok {ε' : Type} {f : ε → ε'} {action : Action σ ε α} {s s' : σ} {a : α} :
    call (mapError f action) s = (.ok a, s') ↔ call action s = (.ok a, s') := by
  rw [call_mapError]
  rcases call action s with ⟨e | a, s'⟩
  · simp [Except.mapError]
  · simp [Except.mapError]

/-- Whatever a call returns, the state it leaves is so related to the one it found. -/
def Leaves (R : σ → σ → Prop) (action : Action σ ε α) : Prop := ∀ s, R s (call action s).2

theorem Leaves.bind {R : σ → σ → Prop} [IsTrans σ R] {action : Action σ ε α}
    {next : α → Action σ ε β} (h : Leaves R action) (hnext : ∀ a, Leaves R (next a)) :
    Leaves R (action >>= next) := by
  intro s
  have hfirst := h s
  rw [call_bind]
  rcases hcall : call action s with ⟨result, s'⟩
  rw [hcall] at hfirst
  cases result with
  | ok a => exact IsTrans.trans _ _ _ hfirst (hnext a s')
  | error e => exact hfirst

def Keeps {γ : Type} (part : σ → γ) (action : Action σ ε α) : Prop :=
  Leaves (fun s s' => part s' = part s) action

namespace Keeps

variable {γ : Type} {part : σ → γ}

theorem pure (a : α) : Keeps part (Pure.pure a : Action σ ε α) := fun _ => rfl

theorem check (result : Except ε α) : Keeps part (Action.check result : Action σ ε α) :=
  fun _ => rfl

theorem get : Keeps part (MonadStateOf.get : Action σ ε σ) := fun _ => rfl

theorem modifies {f : σ → σ} (h : ∀ s, part (f s) = part s) :
    Keeps part (modify f : Action σ ε PUnit) := h

theorem attempt {ε' : Type} {action : Action σ ε α} (h : Keeps part action) :
    Keeps part (Action.attempt action : Action σ ε' (Except ε α)) := h

theorem bind {action : Action σ ε α} {next : α → Action σ ε β} (h : Keeps part action)
    (hnext : ∀ a, Keeps part (next a)) : Keeps part (action >>= next) := by
  have htrans : IsTrans σ fun s s' => part s' = part s := ⟨fun _ _ _ h h' => h'.trans h⟩
  exact Leaves.bind h hnext

theorem leaves {R : σ → σ → Prop} {action : Action σ ε α} (h : Keeps part action)
    (hR : ∀ s s', part s' = part s → R s s') : Leaves R action := fun s => hR s _ (h s)

end Keeps

/-- The state after a failed call is the state before it. -/
def Atomic (action : Action σ ε α) : Prop :=
  ∀ s e s', call action s = (.error e, s') → s' = s

namespace Atomic

theorem check_bind {result : Except ε α} {next : α → Action σ ε β}
    (h : ∀ a, result = .ok a → Atomic (next a)) : Atomic (check result >>= next) := by
  intro s e s' hcall
  cases hresult : result with
  | ok a =>
    rw [hresult, call_check_ok] at hcall
    exact h a hresult s e s' hcall
  | error e' =>
    rw [hresult, call_check_error] at hcall
    cases hcall
    rfl

theorem get_bind {next : σ → Action σ ε β} (h : ∀ s, Atomic (next s)) :
    Atomic (get >>= next) := by
  intro s e s' hcall
  exact h s s e s' hcall

theorem set (s' : σ) : Atomic (MonadStateOf.set s' : Action σ ε PUnit) := by
  intro s e s'' hcall
  cases hcall

theorem set_pure (s' : σ) (a : α) :
    Atomic (MonadStateOf.set s' >>= fun _ => pure a : Action σ ε α) := by
  intro s e s'' hcall
  cases hcall

end Atomic

end Action

end Simard.Library
