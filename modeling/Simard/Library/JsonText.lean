import Simard.Library.Lines

/-! The texts a JSON value is written as, with blanks between tokens. What a reader that knows only
quotation marks and escapes can tell of them is enough for much: outside of strings there are few
characters, inside of strings no line breaks, and strings can be counted. -/
namespace Simard.Library

/-- A value; an object has its members as they are written. -/
inductive JsonTree (N S : Type) where
  | null
  | bool (value : Bool)
  | number (value : N)
  | string (value : S)
  | array (items : List (JsonTree N S))
  | object (listed : List (S × JsonTree N S))

/-- What the literals stand for. -/
structure JsonReading (N S : Type) where
  number : List Char → N
  string : List Char → S

def jsonBlanks : List Char := [' ', '\t', '\n', '\r']

def IsBlank (text : List Char) : Prop := ∀ c ∈ text, c ∈ jsonBlanks

def IsDigits (text : List Char) : Prop := text ≠ [] ∧ ∀ c ∈ text, c ∈ "0123456789".toList

/-- Digits before and after a point, and an exponent. -/
inductive NumberText : List Char → Prop where
  | mk {sign whole fraction exponent : List Char}
      (hsign : sign = [] ∨ sign = ['-'])
      (hwhole : whole = ['0'] ∨ IsDigits whole ∧ whole.head? ≠ some '0')
      (hfraction : fraction = [] ∨ ∃ digits, fraction = '.' :: digits ∧ IsDigits digits)
      (hexponent : exponent = [] ∨ ∃ mark direction digits,
        exponent = mark :: (direction ++ digits) ∧
        (mark = 'e' ∨ mark = 'E') ∧ (direction = [] ∨ direction = ['+'] ∨ direction = ['-']) ∧
        IsDigits digits) :
      NumberText (sign ++ whole ++ fraction ++ exponent)

/-- What stands between the quotation marks of a string. -/
inductive StringBody : List Char → Prop where
  | nil : StringBody []
  | plain {c : Char} {rest : List Char} (hcontrol : 0x20 ≤ c.toNat) (hquote : c ≠ '"')
      (hescape : c ≠ '\\') (h : StringBody rest) : StringBody (c :: rest)
  | escape {c : Char} {rest : List Char} (hc : c ∈ ['"', '\\', '/', 'b', 'f', 'n', 'r', 't'])
      (h : StringBody rest) : StringBody ('\\' :: c :: rest)
  | unicode {digits rest : List Char} (hlength : digits.length = 4)
      (hdigits : ∀ c ∈ digits, c ∈ "0123456789abcdefABCDEF".toList) (h : StringBody rest) :
      StringBody ('\\' :: 'u' :: (digits ++ rest))

theorem StringBody.of_plain {text : List Char}
    (h : ∀ c ∈ text, 0x20 ≤ c.toNat ∧ c ≠ '"' ∧ c ≠ '\\') : StringBody text := by
  induction text with
  | nil => exact .nil
  | cons c text ih =>
    rw [List.forall_mem_cons] at h
    exact .plain h.1.1 h.1.2.1 h.1.2.2 (ih h.2)

/-- A value, or what stands between the brackets of an array or an object. -/
inductive JsonPart (N S : Type) where
  | value (tree : JsonTree N S)
  | items (trees : List (JsonTree N S))
  | members (listed : List (S × JsonTree N S))

section Grammar

variable {N S : Type}

/-- The text is one of those the part is written as. -/
inductive Writes (reading : JsonReading N S) : List Char → JsonPart N S → Prop where
  | null : Writes reading "null".toList (.value .null)
  | bool (value : Bool) :
      Writes reading (if value then "true".toList else "false".toList) (.value (.bool value))
  | number {text : List Char} (h : NumberText text) :
      Writes reading text (.value (.number (reading.number text)))
  | string {body : List Char} (h : StringBody body) :
      Writes reading ('"' :: (body ++ ['"'])) (.value (.string (reading.string body)))
  | emptyArray {blank : List Char} (hblank : IsBlank blank) :
      Writes reading ('[' :: (blank ++ [']'])) (.value (.array []))
  | array {text : List Char} {trees : List (JsonTree N S)}
    (h : Writes reading text (.items trees)) :
      Writes reading ('[' :: (text ++ [']'])) (.value (.array trees))
  | emptyObject {blank : List Char} (hblank : IsBlank blank) :
      Writes reading ('\x7b' :: (blank ++ ['\x7d'])) (.value (.object []))
  | object {text : List Char} {members : List (S × JsonTree N S)}
      (h : Writes reading text (.members members)) :
      Writes reading ('\x7b' :: (text ++ ['\x7d'])) (.value (.object members))
  | item {left text right : List Char} {tree : JsonTree N S} (hleft : IsBlank left)
      (h : Writes reading text (.value tree)) (hright : IsBlank right) :
      Writes reading (left ++ text ++ right) (.items [tree])
  | items {left text right more : List Char} {tree : JsonTree N S} {trees : List (JsonTree N S)}
      (hleft : IsBlank left) (h : Writes reading text (.value tree)) (hright : IsBlank right)
      (hmore : Writes reading more (.items trees)) :
      Writes reading (left ++ text ++ right ++ ',' :: more) (.items (tree :: trees))
  | member {left body middle text : List Char} {tree : JsonTree N S} (hleft : IsBlank left)
      (hbody : StringBody body) (hmiddle : IsBlank middle)
      (h : Writes reading text (.items [tree])) :
      Writes reading (left ++ '"' :: (body ++ '"' :: (middle ++ ':' :: text)))
        (.members [(reading.string body, tree)])
  | members {left body middle text more : List Char} {tree : JsonTree N S}
      {members : List (S × JsonTree N S)} (hleft : IsBlank left)
      (hbody : StringBody body) (hmiddle : IsBlank middle) (h : Writes reading text (.items [tree]))
      (hmore : Writes reading more (.members members)) :
      Writes reading (left ++ '"' :: (body ++ '"' :: (middle ++ ':' :: (text ++ ',' :: more))))
        (.members ((reading.string body, tree) :: members))

def IsJsonText (reading : JsonReading N S) (text : List Char) (tree : JsonTree N S) : Prop :=
  Writes reading text (.items [tree])

theorem NumberText.solid {text : List Char} (h : NumberText text) :
    text ≠ [] ∧ ∀ c ∈ text, c ∉ jsonBlanks := by
  obtain @⟨sign, whole, fraction, exponent, hsign, hwhole, hfraction, hexponent⟩ := h
  have hsolid : ∀ c ∈ "0123456789-+.eE".toList, c ∉ jsonBlanks := by simp [jsonBlanks]
  have hdigits {digits : List Char} (h : IsDigits digits) :
      ∀ c ∈ digits, c ∈ "0123456789-+.eE".toList := fun c hc => by
    have hmore : ∀ c ∈ "0123456789".toList, c ∈ "0123456789-+.eE".toList := by simp
    exact hmore c (h.2 c hc)
  have hnonempty : whole ≠ [] := by
    rcases hwhole with rfl | ⟨hwhole, -⟩
    · exact List.cons_ne_nil _ _
    · exact hwhole.1
  refine ⟨by simp [hnonempty], fun c hc => hsolid c ?_⟩
  simp only [List.mem_append] at hc
  rcases hc with ((hc | hc) | hc) | hc
  · rcases hsign with rfl | rfl
    · cases hc
    · rw [List.mem_singleton.mp hc]
      decide
  · rcases hwhole with rfl | ⟨hwhole, -⟩
    · rw [List.mem_singleton.mp hc]
      decide
    · exact hdigits hwhole c hc
  · rcases hfraction with rfl | ⟨digits, rfl, hfraction⟩
    · cases hc
    · rcases List.mem_cons.mp hc with rfl | hc
      · decide
      · exact hdigits hfraction c hc
  · rcases hexponent with rfl | ⟨mark, direction, digits, rfl, hmark, hdirection, hexponent⟩
    · cases hc
    · rcases List.mem_cons.mp hc with rfl | hc
      · rcases hmark with rfl | rfl <;> decide
      · rcases List.mem_append.mp hc with hc | hc
        · rcases hdirection with rfl | rfl | rfl
          · cases hc
          · rw [List.mem_singleton.mp hc]
            decide
          · rw [List.mem_singleton.mp hc]
            decide
        · exact hdigits hexponent c hc

theorem Writes.solid_end {reading : JsonReading N S} {text : List Char} {tree : JsonTree N S}
    (h : Writes reading text (.value tree)) : ∃ front c, text = front ++ [c] ∧ c ∉ jsonBlanks := by
  cases h with
  | null => exact ⟨"nul".toList, 'l', rfl, by decide⟩
  | bool value =>
    cases value
    · exact ⟨"fals".toList, 'e', rfl, by decide⟩
    · exact ⟨"tru".toList, 'e', rfl, by decide⟩
  | number h =>
    obtain ⟨hne, hsolid⟩ := h.solid
    exact ⟨text.dropLast, text.getLast hne, (List.dropLast_append_getLast hne).symm,
      hsolid _ (List.getLast_mem hne)⟩
  | @string body h => exact ⟨'"' :: body, '"', rfl, by decide⟩
  | @emptyArray blank hblank => exact ⟨'[' :: blank, ']', rfl, by decide⟩
  | @array items trees h => exact ⟨'[' :: items, ']', rfl, by decide⟩
  | @emptyObject blank hblank => exact ⟨'\x7b' :: blank, '\x7d', rfl, by decide⟩
  | @object members listed h => exact ⟨'\x7b' :: members, '\x7d', rfl, by decide⟩

theorem isJsonText_append_newline {reading : JsonReading N S} {text : List Char}
    {tree : JsonTree N S} :
    IsJsonText reading (text ++ ['\n']) tree ↔ IsJsonText reading text tree := by
  constructor
  · intro h
    unfold IsJsonText at h
    generalize htext : text ++ ['\n'] = whole at h
    cases h with
    | @item left value right _ hleft hvalue hright =>
      rcases List.eq_nil_or_concat right with rfl | ⟨rest, c, rfl⟩
      · obtain ⟨front, c, rfl, hsolid⟩ := hvalue.solid_end
        rw [List.append_nil, ← List.append_assoc] at htext
        obtain ⟨-, hlast⟩ := List.append_inj' htext rfl
        cases hlast
        exact absurd (by decide) hsolid
      · rw [List.concat_eq_append] at htext hright
        rw [← List.append_assoc] at htext
        obtain ⟨rfl, -⟩ := List.append_inj' htext rfl
        exact .item hleft hvalue fun d hd => hright d (List.mem_append_left _ hd)
    | items _ _ _ hmore => cases hmore
  · intro h
    cases h with
    | @item left value right _ hleft hvalue hright =>
      rw [List.append_assoc]
      refine .item hleft hvalue fun c hc => ?_
      rcases List.mem_append.mp hc with hc | hc
      · exact hright c hc
      · rw [List.mem_singleton.mp hc]
        decide
    | items _ _ _ hmore => cases hmore

end Grammar

/-- Where a reader stands: outside of strings, inside of one, or behind a backslash. -/
inductive JsonState where
  | outside
  | inside
  | escaped

def structuralChars : List Char := jsonBlanks ++ "\x7b\x7d[],:-+.0123456789eEtrufalsn".toList

/-- The text leads from one state to the other, and so many strings begin in it. -/
inductive Scans : JsonState → List Char → JsonState → Nat → Prop where
  | nil (s : JsonState) : Scans s [] s 0
  | structural {c : Char} {rest : List Char} {t : JsonState} {n : Nat} (hc : c ∈ structuralChars)
      (h : Scans .outside rest t n) : Scans .outside (c :: rest) t n
  | opens {rest : List Char} {t : JsonState} {n : Nat} (h : Scans .inside rest t n) :
      Scans .outside ('"' :: rest) t (n + 1)
  | plain {c : Char} {rest : List Char} {t : JsonState} {n : Nat} (hcontrol : 0x20 ≤ c.toNat)
      (hquote : c ≠ '"') (hescape : c ≠ '\\') (h : Scans .inside rest t n) :
      Scans .inside (c :: rest) t n
  | closes {rest : List Char} {t : JsonState} {n : Nat} (h : Scans .outside rest t n) :
      Scans .inside ('"' :: rest) t n
  | escapes {rest : List Char} {t : JsonState} {n : Nat} (h : Scans .escaped rest t n) :
      Scans .inside ('\\' :: rest) t n
  | escaped {c : Char} {rest : List Char} {t : JsonState} {n : Nat} (hcontrol : 0x20 ≤ c.toNat)
      (h : Scans .inside rest t n) : Scans .escaped (c :: rest) t n

namespace Scans

variable {s t u : JsonState} {left right text : List Char} {m n : Nat}

theorem append (hleft : Scans s left t m) (hright : Scans t right u n) :
    Scans s (left ++ right) u (m + n) := by
  induction hleft with
  | nil => simpa using hright
  | structural hc _ ih => exact .structural hc (ih hright)
  | opens _ ih =>
    rw [Nat.add_right_comm]
    exact .opens (ih hright)
  | plain hcontrol hquote hescape _ ih => exact .plain hcontrol hquote hescape (ih hright)
  | closes _ ih => exact .closes (ih hright)
  | escapes _ ih => exact .escapes (ih hright)
  | escaped hcontrol _ ih => exact .escaped hcontrol (ih hright)

theorem of_append (h : Scans s (left ++ right) u n) :
    ∃ t m k, Scans s left t m ∧ Scans t right u k ∧ n = m + k := by
  induction left generalizing s n with
  | nil => exact ⟨s, 0, n, .nil s, h, (Nat.zero_add n).symm⟩
  | cons c left ih =>
    cases h with
    | structural hc h =>
      obtain ⟨t, m, k, hleft, hright, hn⟩ := ih h
      exact ⟨t, m, k, .structural hc hleft, hright, hn⟩
    | opens h =>
      obtain ⟨t, m, k, hleft, hright, hn⟩ := ih h
      exact ⟨t, m + 1, k, .opens hleft, hright, by omega⟩
    | plain hcontrol hquote hescape h =>
      obtain ⟨t, m, k, hleft, hright, hn⟩ := ih h
      exact ⟨t, m, k, .plain hcontrol hquote hescape hleft, hright, hn⟩
    | closes h =>
      obtain ⟨t, m, k, hleft, hright, hn⟩ := ih h
      exact ⟨t, m, k, .closes hleft, hright, hn⟩
    | escapes h =>
      obtain ⟨t, m, k, hleft, hright, hn⟩ := ih h
      exact ⟨t, m, k, .escapes hleft, hright, hn⟩
    | escaped hcontrol h =>
      obtain ⟨t, m, k, hleft, hright, hn⟩ := ih h
      exact ⟨t, m, k, .escaped hcontrol hleft, hright, hn⟩

theorem count_unique (h : Scans s text t m) (h' : Scans s text u n) : m = n := by
  induction h generalizing n with
  | nil =>
    cases h'
    rfl
  | structural hc _ ih =>
    cases h' with
    | structural _ h' => exact ih h'
    | opens => exact absurd hc (by decide)
  | opens _ ih =>
    cases h' with
    | structural hc => exact absurd hc (by decide)
    | opens h' => rw [ih h']
  | plain _ hquote hescape _ ih =>
    cases h' with
    | plain _ _ _ h' => exact ih h'
    | closes => exact absurd rfl hquote
    | escapes => exact absurd rfl hescape
  | closes _ ih =>
    cases h' with
    | plain _ hquote => exact absurd rfl hquote
    | closes h' => exact ih h'
  | escapes _ ih =>
    cases h' with
    | plain _ _ hescape => exact absurd rfl hescape
    | escapes h' => exact ih h'
  | escaped _ _ ih =>
    cases h' with
    | escaped _ h' => exact ih h'

theorem outside_of_newline (h : Scans s ('\n' :: text) t n) :
    s = .outside ∧ Scans .outside text t n := by
  cases h with
  | structural _ h => exact ⟨rfl, h⟩
  | plain hcontrol => exact absurd hcontrol (by decide)
  | escaped hcontrol => exact absurd hcontrol (by decide)

theorem mem_or_le (h : Scans s text t n) : ∀ c ∈ text, c ∈ structuralChars ∨ 0x20 ≤ c.toNat := by
  induction h with
  | nil => nofun
  | structural hc _ ih => exact List.forall_mem_cons.mpr ⟨.inl hc, ih⟩
  | plain hcontrol _ _ _ ih => exact List.forall_mem_cons.mpr ⟨.inr hcontrol, ih⟩
  | escaped hcontrol _ ih => exact List.forall_mem_cons.mpr ⟨.inr hcontrol, ih⟩
  | opens _ ih | closes _ ih | escapes _ ih => exact List.forall_mem_cons.mpr ⟨.inr (by decide), ih⟩

theorem structural_of_no_opening (h : Scans .outside text t n)
    (hplain : n = 0 ∨ '"' ∉ text) : ∀ c ∈ text, c ∈ structuralChars := by
  induction text generalizing n with
  | nil => nofun
  | cons c text ih =>
    cases h with
    | structural hc h =>
      rw [List.forall_mem_cons]
      exact ⟨hc, ih h (hplain.imp_right fun hnot hmem => hnot (List.mem_cons_of_mem _ hmem))⟩
    | opens h =>
      rcases hplain with hzero | hnot
      · cases hzero
      · exact absurd List.mem_cons_self hnot

theorem of_structural (h : ∀ c ∈ text, c ∈ structuralChars) : Scans .outside text .outside 0 := by
  induction text with
  | nil => exact .nil _
  | cons c text ih =>
    rw [List.forall_mem_cons] at h
    exact .structural h.1 (ih h.2)

theorem of_plain (h : ∀ c ∈ text, 0x20 ≤ c.toNat ∧ c ≠ '"' ∧ c ≠ '\\') :
    Scans .inside text .inside 0 := by
  induction text with
  | nil => exact .nil _
  | cons c text ih =>
    rw [List.forall_mem_cons] at h
    exact .plain h.1.1 h.1.2.1 h.1.2.2 (ih h.2)

theorem of_stringBody (h : StringBody text) : Scans .inside text .inside 0 := by
  induction h with
  | nil => exact .nil _
  | plain hcontrol hquote hescape _ ih => exact .plain hcontrol hquote hescape ih
  | escape hc _ ih =>
    have hprinted : ∀ c ∈ ['"', '\\', '/', 'b', 'f', 'n', 'r', 't'], 0x20 ≤ c.toNat := by simp
    exact .escapes (.escaped (hprinted _ hc) ih)
  | unicode _ hdigits _ ih =>
    have hplain : ∀ c ∈ "0123456789abcdefABCDEF".toList, 0x20 ≤ c.toNat ∧ c ≠ '"' ∧ c ≠ '\\' := by
      simp
    exact .escapes (.escaped (by decide) ((of_plain fun c hc => hplain c (hdigits c hc)).append ih))

theorem of_string (hbody : StringBody left) (hrest : Scans .outside right t n) :
    Scans .outside ('"' :: (left ++ '"' :: right)) t (n + 1) := by
  have hinside := (of_stringBody hbody).append (.closes hrest)
  rw [Nat.zero_add] at hinside
  exact .opens hinside

theorem of_blank (h : IsBlank text) : Scans .outside text .outside 0 :=
  of_structural fun c hc => List.mem_append_left _ (h c hc)

theorem of_digits (h : IsDigits text) : Scans .outside text .outside 0 := by
  have hstructural : ∀ c ∈ "0123456789".toList, c ∈ structuralChars := by
    simp [structuralChars]
  exact of_structural fun c hc => hstructural c (h.2 c hc)

theorem of_number (h : NumberText text) : Scans .outside text .outside 0 := by
  obtain @⟨sign, whole, fraction, exponent, hsign, hwhole, hfraction, hexponent⟩ := h
  have hsign : Scans .outside sign .outside 0 := by
    rcases hsign with rfl | rfl
    · exact .nil _
    · exact of_structural (by simp [structuralChars])
  have hwhole : Scans .outside whole .outside 0 := by
    rcases hwhole with rfl | ⟨hdigits, -⟩
    · exact of_structural (by simp [structuralChars])
    · exact of_digits hdigits
  have hfraction : Scans .outside fraction .outside 0 := by
    rcases hfraction with rfl | ⟨digits, rfl, hdigits⟩
    · exact .nil _
    · exact .structural (by decide) (of_digits hdigits)
  have hexponent : Scans .outside exponent .outside 0 := by
    rcases hexponent with rfl | ⟨mark, direction, digits, rfl, hmark, hdirection, hdigits⟩
    · exact .nil _
    · have hmark : mark ∈ structuralChars := by
        rcases hmark with rfl | rfl <;> decide
      have hdirection : Scans .outside direction .outside 0 := by
        rcases hdirection with rfl | rfl | rfl
        · exact .nil _
        · exact of_structural (by simp [structuralChars])
        · exact of_structural (by simp [structuralChars])
      exact .structural hmark (hdirection.append (of_digits hdigits))
  exact ((hsign.append hwhole).append hfraction).append hexponent

theorem trimStart (h : Scans .outside text t n) : Scans .outside (Library.trimStart text) t n := by
  induction text with
  | nil => exact h
  | cons c text ih =>
    by_cases hblank : isWhitespace c = true
    · have hskip : Library.trimStart (c :: text) = Library.trimStart text :=
        List.dropWhile_cons_of_pos hblank
      rw [hskip]
      cases h with
      | structural _ h => exact ih h
      | opens => exact absurd hblank (by decide)
    · have hstays : Library.trimStart (c :: text) = c :: text := List.dropWhile_cons_of_neg hblank
      rw [hstays]
      exact h

theorem structural_front (h : Scans .outside (left ++ right) t n) (hquote : '"' ∉ left) :
    ∀ c ∈ left, c ∈ structuralChars := by
  obtain ⟨_, _, _, hleft, -⟩ := of_append h
  exact structural_of_no_opening hleft (.inr hquote)

/-- Inside of a string nothing happens up to a quotation mark or a backslash. -/
theorem skip_plain (h : Scans .inside (left ++ right) t n)
    (hplain : ∀ c ∈ left, c ≠ '"' ∧ c ≠ '\\') : Scans .inside right t n := by
  induction left with
  | nil => exact h
  | cons c left ih =>
    rw [List.forall_mem_cons] at hplain
    cases h with
    | plain _ _ _ h => exact ih h hplain.2
    | closes => exact absurd rfl hplain.1.1
    | escapes => exact absurd rfl hplain.1.2

theorem inside_of_cons {c : Char} (h : Scans s (c :: text) t n) (hc : c ∉ structuralChars)
    (hquote : c ≠ '"') (hescape : c ≠ '\\') : Scans .inside text t n := by
  cases h with
  | structural hstructural => exact absurd hstructural hc
  | opens => exact absurd rfl hquote
  | plain _ _ _ h => exact h
  | closes => exact absurd rfl hquote
  | escapes => exact absurd rfl hescape
  | escaped _ h => exact h

/-- Lines are scanned one by one, since no string goes over the end of a line. -/
theorem of_intercalate {texts : List (List Char)}
    (h : Scans .outside (['\n'].intercalate texts) .outside n) :
    ∃ counts, List.Forall₂ (fun text k => Scans .outside text .outside k) texts counts ∧
      counts.sum = n := by
  induction texts generalizing n with
  | nil =>
    cases h
    exact ⟨[], .nil, rfl⟩
  | cons text texts ih =>
    cases texts with
    | nil =>
      rw [List.intercalate_singleton] at h
      exact ⟨[n], .cons h .nil, List.sum_singleton⟩
    | cons next texts =>
      rw [List.intercalate_cons_cons, List.append_assoc, List.singleton_append] at h
      obtain ⟨u, m, k, hfirst, hrest, rfl⟩ := of_append h
      obtain ⟨rfl, hlater⟩ := outside_of_newline hrest
      obtain ⟨counts, hcounts, rfl⟩ := ih hlater
      exact ⟨m :: counts, .cons hfirst hcounts, List.sum_cons⟩

theorem line_of_intercalate {texts : List (List Char)}
    (h : Scans .outside (['\n'].intercalate texts) .outside n) (hline : text ∈ texts) :
    ∃ k, Scans .outside text .outside k := by
  obtain ⟨counts, hcounts, -⟩ := of_intercalate h
  clear h
  induction hcounts with
  | nil => cases hline
  | cons hfirst _ ih =>
    rcases List.mem_cons.mp hline with rfl | hline
    · exact ⟨_, hfirst⟩
    · exact ih hline

theorem intercalate {texts : List (List Char)} {counts : List Nat}
    (h : List.Forall₂ (fun text k => Scans .outside text .outside k) texts counts) :
    Scans .outside (['\n'].intercalate texts) .outside counts.sum := by
  induction h with
  | nil => exact .nil _
  | @cons text k texts counts hfirst hrest ih =>
    cases hrest with
    | nil =>
      rw [List.intercalate_singleton, List.sum_singleton]
      exact hfirst
    | cons _ _ =>
      rw [List.intercalate_cons_cons, List.append_assoc, List.singleton_append, List.sum_cons]
      exact hfirst.append (.structural (by decide) ih)

end Scans

section Count

variable {N S : Type}

mutual

def JsonTree.strings : JsonTree N S → Nat
  | .null => 0
  | .bool _ => 0
  | .number _ => 0
  | .string _ => 1
  | .array items => itemStrings items
  | .object listed => memberStrings listed

def itemStrings : List (JsonTree N S) → Nat
  | [] => 0
  | tree :: trees => tree.strings + itemStrings trees

def memberStrings : List (S × JsonTree N S) → Nat
  | [] => 0
  | (_, tree) :: members => 1 + tree.strings + memberStrings members

end

def JsonPart.strings : JsonPart N S → Nat
  | .value tree => tree.strings
  | .items trees => itemStrings trees
  | JsonPart.members listed => memberStrings listed

theorem Writes.scans {reading : JsonReading N S} {text : List Char} {part : JsonPart N S}
    (h : Writes reading text part) : Scans .outside text .outside part.strings := by
  induction h with
  | null => exact .of_structural (by simp [structuralChars])
  | bool value => cases value <;> exact .of_structural (by simp [structuralChars])
  | number h => exact .of_number h
  | string h => exact .of_string h (.nil _)
  | emptyArray hblank =>
    exact .structural (by decide)
      ((Scans.of_blank hblank).append (.structural (by decide) (.nil _)))
  | array _ ih => exact .structural (by decide) (ih.append (.structural (by decide) (.nil _)))
  | emptyObject hblank =>
    exact .structural (by decide)
      ((Scans.of_blank hblank).append (.structural (by decide) (.nil _)))
  | object _ ih => exact .structural (by decide) (ih.append (.structural (by decide) (.nil _)))
  | item hleft _ hright ih =>
    have hscans := ((Scans.of_blank hleft).append ih).append (.of_blank hright)
    rw [Nat.zero_add, Nat.add_zero] at hscans
    exact hscans
  | items hleft _ hright _ ih ihmore =>
    have hfirst := ((Scans.of_blank hleft).append ih).append (.of_blank hright)
    rw [Nat.zero_add, Nat.add_zero] at hfirst
    exact hfirst.append (.structural (by decide) ihmore)
  | member hleft hbody hmiddle _ ih =>
    have hvalue := (Scans.of_blank hmiddle).append (.structural (c := ':') (by decide) ih)
    have hscans := (Scans.of_blank hleft).append (.of_string hbody hvalue)
    simpa [JsonPart.strings, itemStrings, memberStrings, Nat.add_comm] using hscans
  | members hleft hbody hmiddle _ _ ih ihmore =>
    have hvalue := (Scans.of_blank hmiddle).append
      (.structural (c := ':') (by decide) (ih.append (.structural (c := ',') (by decide) ihmore)))
    have hscans := (Scans.of_blank hleft).append (.of_string hbody hvalue)
    simpa [JsonPart.strings, itemStrings, memberStrings, Nat.add_comm,
      Nat.add_left_comm] using hscans

end Count

end Simard.Library
