import Mathlib

/-! Deterministic machines driven by a list of events, and the rules for their
runs: what every step preserves holds along the run, and an event that closes
the state it needs happens at most once. -/
namespace Simard.Library

structure Machine (σ ε : Type) where
  step : σ → ε → σ

namespace Machine

variable {σ ε : Type} (m : Machine σ ε)

def run (s : σ) (events : List ε) : σ :=
  events.foldl m.step s

/-- One step of a run: the state it found, the event, the state it left. -/
structure Transition (σ ε : Type) where
  before : σ
  event : ε
  after : σ

def trace : σ → List ε → List (Transition σ ε)
  | _, [] => []
  | s, e :: events => ⟨s, e, m.step s e⟩ :: trace (m.step s e) events

@[simp] theorem run_nil (s : σ) : m.run s [] = s := rfl

@[simp] theorem run_cons (s : σ) (e : ε) (events : List ε) :
    m.run s (e :: events) = m.run (m.step s e) events := rfl

@[simp] theorem run_append (s : σ) (left right : List ε) :
    m.run s (left ++ right) = m.run (m.run s left) right := by
  simp [run]

theorem trace_append (s : σ) (left right : List ε) :
    m.trace s (left ++ right) = m.trace s left ++ m.trace (m.run s left) right := by
  induction left generalizing s with
  | nil => rfl
  | cons e left ih => simp [trace, ih]

/-- Every transition of a run starts at the state some prefix of it reaches. -/
theorem mem_trace {s : σ} {events : List ε} {t : Transition σ ε} (h : t ∈ m.trace s events) :
    ∃ left right, events = left ++ t.event :: right ∧ t.before = m.run s left ∧
      t.after = m.step t.before t.event := by
  induction events generalizing s with
  | nil => cases h
  | cons e events ih =>
    rcases List.mem_cons.mp h with rfl | h
    · exact ⟨[], events, rfl, rfl, rfl⟩
    · obtain ⟨left, right, hevents, hbefore, hafter⟩ := ih h
      exact ⟨e :: left, right, by rw [hevents]; rfl, hbefore, hafter⟩

theorem run_of_trace {P : σ → Prop} {s : σ} (hs : P s) {events : List ε}
    (h : ∀ t ∈ m.trace s events, P t.after) : P (m.run s events) := by
  induction events generalizing s with
  | nil => exact hs
  | cons e events ih =>
    rw [trace, List.forall_mem_cons] at h
    exact ih h.1 h.2

theorem invariant_run {P : σ → Prop} (hstep : ∀ s e, P s → P (m.step s e)) {s : σ} (h : P s)
    (events : List ε) : P (m.run s events) := by
  induction events generalizing s with
  | nil => exact h
  | cons e events ih => exact ih (hstep s e h)

/-- The same along a run whose events all meet a condition at their state. -/
theorem invariant_run_of {P : σ → Prop} {ok : σ → ε → Prop}
    (hstep : ∀ s e, ok s e → P s → P (m.step s e)) {s : σ} (h : P s) (events : List ε)
    (hok : ∀ t ∈ m.trace s events, ok t.before t.event) : P (m.run s events) := by
  induction events generalizing s with
  | nil => exact h
  | cons e events ih =>
    apply ih (hstep s e (hok ⟨s, e, m.step s e⟩ List.mem_cons_self) h)
    intro t ht
    exact hok t (List.mem_cons_of_mem _ ht)

/-- Where a step keeps the invariant, and does what it should, exactly under a condition,
all steps of a run do exactly if every step meets the condition. -/
theorem throughout_step_iff {P : σ → Prop} {Q : Transition σ ε → Prop} {ok : σ → ε → Prop}
    (hstep : ∀ s e, P s → (P (m.step s e) ∧ Q ⟨s, e, m.step s e⟩ ↔ ok s e)) {s : σ} (h : P s)
    (events : List ε) :
    (∀ t ∈ m.trace s events, P t.after ∧ Q t) ↔
      ∀ t ∈ m.trace s events, ok t.before t.event := by
  induction events generalizing s with
  | nil => simp [trace]
  | cons e events ih =>
    rw [trace, List.forall_mem_cons, List.forall_mem_cons]
    constructor
    · rintro ⟨hfirst, hrest⟩
      exact ⟨(hstep s e h).mp hfirst, (ih hfirst.1).mp hrest⟩
    · rintro ⟨hfirst, hrest⟩
      have hkept := (hstep s e h).mpr hfirst
      exact ⟨hkept, (ih hkept.1).mpr hrest⟩

/-- What every step makes worse or leaves alone, the latter exactly under a condition, is
still so at the end exactly if it was at the start and every step met the condition. -/
theorem run_iff {P : σ → Prop} {ok : σ → ε → Prop} (hstep : ∀ s e, P (m.step s e) ↔ P s ∧ ok s e)
    (s : σ) (events : List ε) :
    P (m.run s events) ↔ P s ∧ ∀ t ∈ m.trace s events, ok t.before t.event := by
  induction events generalizing s with
  | nil => simp [trace]
  | cons e events ih => rw [run_cons, ih, hstep, trace, List.forall_mem_cons, and_assoc]

theorem throughout_iff {P : σ → Prop} {ok : σ → ε → Prop}
    (hstep : ∀ s e, P s → (P (m.step s e) ↔ ok s e)) {s : σ} (h : P s) (events : List ε) :
    (∀ t ∈ m.trace s events, P t.after) ↔ ∀ t ∈ m.trace s events, ok t.before t.event := by
  have hboth : (∀ t ∈ m.trace s events, P t.after ∧ True) ↔
      ∀ t ∈ m.trace s events, ok t.before t.event := by
    refine m.throughout_step_iff (Q := fun _ => True) (fun s e hs => ?_) h events
    rw [and_true]
    exact hstep s e hs
  simpa only [and_true] using hboth

/-- A view that the events of others leave as it is, and its own events change in the same
way wherever it is the same, is that of the run of its own events. -/
theorem view_run_filter {V : Type} (view : σ → V) (own : ε → Bool)
    (hown : ∀ s s' e, own e → view s = view s' → view (m.step s e) = view (m.step s' e))
    {s s' : σ} (hview : view s = view s') {events : List ε}
    (hother : ∀ e ∈ events, own e = false → ∀ s, view (m.step s e) = view s) :
    view (m.run s events) = view (m.run s' (events.filter own)) := by
  induction events generalizing s s' with
  | nil => exact hview
  | cons e events ih =>
    rw [List.forall_mem_cons] at hother
    cases he : own e with
    | true =>
      rw [List.filter_cons_of_pos he]
      exact ih (hown s s' e he hview) hother.2
    | false =>
      rw [List.filter_cons_of_neg (Bool.not_eq_true _ ▸ he)]
      exact ih ((hother.1 he s).trans hview) hother.2

theorem trace_prefix {s : σ} {left right : List ε} {t : Transition σ ε}
    (h : t ∈ m.trace s left) : t ∈ m.trace s (left ++ right) := by
  rw [trace_append]
  exact List.mem_append_left _ h

theorem invariant_trace_of {P : σ → Prop} {ok : σ → ε → Prop}
    (hstep : ∀ s e, ok s e → P s → P (m.step s e)) {s : σ} (h : P s) {events : List ε}
    (hok : ∀ t ∈ m.trace s events, ok t.before t.event) {t : Transition σ ε}
    (ht : t ∈ m.trace s events) : P t.before := by
  obtain ⟨left, right, rfl, hbefore, -⟩ := m.mem_trace ht
  rw [hbefore]
  apply m.invariant_run_of hstep h left
  intro earlier hearlier
  exact hok earlier (m.trace_prefix hearlier)

/-- What a step established and later steps keep holds at the end of the run. -/
theorem holds_since {Q : σ → Prop} {ok : σ → ε → Prop}
    (hstep : ∀ s e, ok s e → Q s → Q (m.step s e)) {s : σ} {events : List ε}
    (hok : ∀ t ∈ m.trace s events, ok t.before t.event) {t : Transition σ ε}
    (ht : t ∈ m.trace s events) (h : Q t.after) : Q (m.run s events) := by
  obtain ⟨left, right, rfl, hbefore, hafter⟩ := m.mem_trace ht
  rw [run_append, run_cons, ← hbefore, ← hafter]
  apply m.invariant_run_of hstep h right
  intro later hlater
  apply hok
  rw [trace_append, trace, ← hbefore, ← hafter]
  exact List.mem_append_right _ (List.mem_cons_of_mem _ hlater)

theorem fires_at_most_once (inv : σ → Prop) (fires : Transition σ ε → Bool) (closed : σ → Prop)
    (hinv : ∀ s e, inv s → inv (m.step s e))
    (hkeep : ∀ s e, inv s → closed s → closed (m.step s e))
    (hclose : ∀ s e, inv s → fires ⟨s, e, m.step s e⟩ → closed (m.step s e))
    (hopen : ∀ s e, inv s → closed s → fires ⟨s, e, m.step s e⟩ = false) {s : σ} (hs : inv s)
    (events : List ε) : (m.trace s events).countP fires ≤ 1 := by
  have hnever (s : σ) (hs : inv s) (hclosed : closed s) (events : List ε) :
      (m.trace s events).countP fires = 0 := by
    induction events generalizing s with
    | nil => rfl
    | cons e events ih =>
      rw [trace, List.countP_cons, ih _ (hinv s e hs) (hkeep s e hs hclosed),
        hopen s e hs hclosed]
      rfl
  induction events generalizing s with
  | nil => exact Nat.zero_le 1
  | cons e events ih =>
    rw [trace, List.countP_cons]
    by_cases hfires : fires ⟨s, e, m.step s e⟩
    · rw [hnever _ (hinv s e hs) (hclose s e hs hfires), if_pos hfires]
    · rw [if_neg hfires]
      exact ih (hinv s e hs)

theorem invariant_trace {P : σ → Prop} (hstep : ∀ s e, P s → P (m.step s e)) {s : σ} (h : P s)
    {events : List ε} {t : Transition σ ε} (ht : t ∈ m.trace s events) :
    P t.before ∧ t.after = m.step t.before t.event := by
  obtain ⟨left, right, -, hbefore, hafter⟩ := m.mem_trace ht
  rw [hbefore] at hafter ⊢
  exact ⟨m.invariant_run hstep h left, hafter⟩

end Machine

end Simard.Library
