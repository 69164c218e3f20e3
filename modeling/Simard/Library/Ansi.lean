import Mathlib.Data.List.Basic

/-! Escape sequences of terminals, taken out of a text in one pass. A sequence that does not end
takes the rest of the text with it, so a text is read part by part with the state in between. -/
namespace Simard.Library

/-- Where a reader stands: in the text, behind an escape character, in a control sequence, in a
command of the operating system, or behind an escape character in one. -/
inductive AnsiState where
  | plain
  | escape
  | csi
  | osc
  | oscEscape
  deriving DecidableEq

namespace AnsiState

def esc : Char := Char.ofNat 0x1b

def step : AnsiState → Char → AnsiState × Option Char
  | .plain, c => if c = esc then (.escape, none) else (.plain, some c)
  | .escape, c => if c = '[' then (.csi, none) else if c = ']' then (.osc, none) else (.plain, none)
  | .csi, c => if 0x40 ≤ c.toNat ∧ c.toNat ≤ 0x7e then (.plain, none) else (.csi, none)
  | .osc, c =>
      if c = Char.ofNat 7 then (.plain, none)
      else if c = esc then (.oscEscape, none)
      else (.osc, none)
  -- the sequence ends here, with a backslash or without
  | .oscEscape, c =>
      if c = '\\' then (.plain, none) else if c = esc then (.escape, none) else (.plain, some c)

def strip : AnsiState → List Char → List Char
  | _, [] => []
  | s, c :: rest => (s.step c).2.toList ++ strip (s.step c).1 rest

def after (s : AnsiState) (text : List Char) : AnsiState := text.foldl (fun s c => (s.step c).1) s

theorem strip_append (s : AnsiState) (left right : List Char) :
    s.strip (left ++ right) = s.strip left ++ (s.after left).strip right := by
  induction left generalizing s with
  | nil => rfl
  | cons c left ih => simp only [List.cons_append, strip, ih, after, List.foldl_cons,
    List.append_assoc]

theorem strip_plain {text : List Char} (h : esc ∉ text) :
    strip .plain text = text ∧ after .plain text = .plain := by
  induction text with
  | nil => exact ⟨rfl, rfl⟩
  | cons c rest ih =>
    rw [List.mem_cons, not_or] at h
    have hstep : step .plain c = (.plain, some c) := if_neg (Ne.symm h.1)
    obtain ⟨hstrip, hafter⟩ := ih h.2
    constructor
    · rw [strip, hstep, hstrip]
      rfl
    · rw [after, List.foldl_cons, hstep]
      exact hafter

theorem mem_of_mem_strip {s : AnsiState} {text : List Char} {c : Char} (h : c ∈ s.strip text) :
    c ∈ text := by
  have hsame (s : AnsiState) (d : Char) (hc : c ∈ (s.step d).2.toList) : c = d := by
    cases s with
    | plain =>
      rw [step] at hc
      split at hc
      · cases hc
      · exact List.mem_singleton.mp hc
    | escape =>
      rw [step] at hc
      split at hc
      · cases hc
      · split at hc <;> cases hc
    | csi =>
      rw [step] at hc
      split at hc <;> cases hc
    | osc =>
      rw [step] at hc
      split at hc
      · cases hc
      · split at hc <;> cases hc
    | oscEscape =>
      rw [step] at hc
      split at hc
      · cases hc
      · split at hc
        · cases hc
        · exact List.mem_singleton.mp hc
  induction text generalizing s with
  | nil => cases h
  | cons d rest ih =>
    rcases List.mem_append.mp h with hfirst | hrest
    · exact hsame s d hfirst ▸ List.mem_cons_self
    · exact List.mem_cons_of_mem d (ih hrest)

end AnsiState

def stripAnsi (text : List Char) : List Char := AnsiState.strip .plain text

theorem stripAnsi_intercalate {texts : List (List Char)}
    (h : ∀ text ∈ texts, AnsiState.after .plain text = .plain) :
    stripAnsi (['\n'].intercalate texts) = ['\n'].intercalate (texts.map stripAnsi) := by
  induction texts with
  | nil => rfl
  | cons text texts ih =>
    rw [List.forall_mem_cons] at h
    cases texts with
    | nil => simp
    | cons next texts =>
      have hbreak (rest : List Char) :
          AnsiState.strip .plain ('\n' :: rest) = '\n' :: AnsiState.strip .plain rest := rfl
      rw [List.intercalate_cons_cons, List.append_assoc, List.singleton_append, stripAnsi,
        AnsiState.strip_append, h.1, hbreak]
      rw [List.map_cons, List.map_cons, List.intercalate_cons_cons, List.append_assoc,
        List.singleton_append, ← List.map_cons, ← ih h.2]
      rfl

end Simard.Library
