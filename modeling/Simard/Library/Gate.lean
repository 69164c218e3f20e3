import Simard.Library.History
import Simard.Library.Machine

/-! Gates: every call is decided on what the gate remembers, and only a call that is let
through is committed to memory. A run of a gate is known by the calls it let through. -/
namespace Simard.Library

structure Gate (σ ι δ : Type) where
  peek : σ → ι → δ
  passes : δ → Bool
  commit : σ → ι → σ

namespace Gate

variable {σ ι δ : Type} (gate : Gate σ ι δ)

def admits (s : σ) (call : ι) : δ × σ :=
  let decision := gate.peek s call
  (decision, if gate.passes decision then gate.commit s call else s)

def machine : Machine σ ι := ⟨fun s call => (gate.admits s call).2⟩

def decisions (s : σ) (calls : List ι) : List (ι × δ) :=
  (gate.machine.trace s calls).map fun t => (t.event, (gate.admits t.before t.event).1)

def passed (s : σ) (calls : List ι) : List ι :=
  ((gate.decisions s calls).filter fun d => gate.passes d.2).map Prod.fst

theorem step_eq (s : σ) (call : ι) : gate.machine.step s call =
    if gate.passes (gate.peek s call) then gate.commit s call else s := rfl

@[simp] theorem passed_nil (s : σ) : gate.passed s [] = [] := rfl

theorem passed_concat (s : σ) (calls : List ι) (call : ι) :
    gate.passed s (calls ++ [call]) = gate.passed s calls ++
      if gate.passes (gate.peek (gate.machine.run s calls) call) then [call] else [] := by
  unfold passed decisions
  rw [Machine.trace_append, List.map_append, List.filter_append, List.map_append]
  congr 1
  change ((List.filter _ [(call, gate.peek (gate.machine.run s calls) call)]).map Prod.fst) = _
  rw [List.filter_cons]
  dsimp only
  split <;> rfl

theorem run_eq_foldl (s : σ) (calls : List ι) :
    gate.machine.run s calls = (gate.passed s calls).foldl gate.commit s := by
  induction calls using List.reverseRecOn with
  | nil => rfl
  | append_singleton calls call ih =>
    rw [Machine.run_append, passed_concat, List.foldl_append, ← ih]
    change gate.machine.step _ call = _
    rw [step_eq]
    split <;> rfl

theorem passed_sublist (s : σ) (calls : List ι) : (gate.passed s calls).Sublist calls := by
  induction calls using List.reverseRecOn with
  | nil => exact List.Sublist.refl _
  | append_singleton calls call ih =>
    rw [passed_concat]
    refine ih.append ?_
    split
    · exact List.Sublist.refl _
    · exact List.nil_sublist _

theorem kept_passed {law : List ι → ι → Prop} {s : σ} {calls : List ι}
    (h : ∀ left call right, calls = left ++ call :: right →
      gate.passes (gate.peek (gate.machine.run s left) call) →
      law (gate.passed s left) call) :
    Kept law (gate.passed s calls) := by
  induction calls using List.reverseRecOn with
  | nil => exact Kept.nil
  | append_singleton calls call ih =>
    have hearlier : Kept law (gate.passed s calls) := by
      apply ih
      rintro left c right rfl hpass
      exact h left c (right ++ [call]) (by simp) hpass
    rw [passed_concat]
    split
    next hpass => exact Kept.concat_iff.mpr ⟨hearlier, h calls call [] rfl hpass⟩
    next => rwa [List.append_nil]

/-- Where decisions on some calls rest on a view that other calls leave as it is, they are
those of the run of these calls alone. -/
theorem decisions_filter {V : Type} (view : σ → V) (own : ι → Bool)
    (hpeek : ∀ s s' call, own call → view s = view s' → gate.peek s call = gate.peek s' call)
    (hcommit : ∀ s s' call, own call → view s = view s' →
      view (gate.commit s call) = view (gate.commit s' call))
    (hother : ∀ s call, own call = false → view (gate.commit s call) = view s)
    {s s' : σ} (hview : view s = view s') (calls : List ι) :
    (gate.decisions s calls).filter (fun d => own d.1) =
      gate.decisions s' (calls.filter own) := by
  induction calls generalizing s s' with
  | nil => rfl
  | cons call calls ih =>
    change List.filter _ ((call, gate.peek s call) ::
      gate.decisions (gate.machine.step s call) calls) = _
    cases hown : own call with
    | true =>
      rw [List.filter_cons, List.filter_cons, if_pos hown, if_pos hown]
      have hdecision := hpeek s s' call hown hview
      have hnext : view (gate.machine.step s call) = view (gate.machine.step s' call) := by
        rw [step_eq, step_eq, hdecision]
        split
        · exact hcommit s s' call hown hview
        · exact hview
      rw [ih hnext, hdecision]
      rfl
    | false =>
      have hskip : ¬ own call = true := by
        rw [hown]
        exact Bool.false_ne_true
      rw [List.filter_cons, List.filter_cons, if_neg hskip, if_neg hskip]
      apply ih
      rw [step_eq]
      split
      · exact (hother s call hown).trans hview
      · exact hview

end Gate

end Simard.Library
