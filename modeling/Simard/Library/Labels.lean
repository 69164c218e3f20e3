import Simard.Library.Lines
import Simard.Library.Text

/-! Lines with a label in front of a colon, and readers that take one line after the other and may
refuse it. -/
namespace Simard.Library

def Solid (text : List Char) : Prop := text ≠ [] ∧ trim text = text

instance (text : List Char) : Decidable (Solid text) := inferInstanceAs (Decidable (_ ∧ _))

theorem trim_subset {text : List Char} {c : Char} (h : c ∈ trim text) : c ∈ text := by
  obtain ⟨before, after, heq, -⟩ := trim_decompose text
  rw [heq]
  simp [h]

theorem head?_trim {text : List Char} {c : Char} (h : (trim text).head? = some c) :
    isWhitespace c = false := by
  have hfront : (trim text) <+: trimStart text := by
    have hsuffix := List.dropWhile_suffix (l := (trimStart text).reverse) isWhitespace
    have hreversed := List.reverse_prefix.mpr hsuffix
    rwa [List.reverse_reverse] at hreversed
  obtain ⟨rest, hrest⟩ := hfront
  obtain ⟨tail, htail⟩ := List.head?_eq_some_iff.mp h
  have hhead : (trimStart text).head? = some c := by rw [← hrest, htail]; rfl
  have hnot := List.head?_dropWhile_not isWhitespace text
  unfold trimStart at hhead
  rw [hhead] at hnot
  simpa using hnot

theorem getLast?_trim {text : List Char} {c : Char} (h : (trim text).getLast? = some c) :
    isWhitespace c = false := by
  unfold trim at h
  rw [List.getLast?_reverse] at h
  have hnot := List.head?_dropWhile_not isWhitespace (trimStart text).reverse
  unfold trimStart at h hnot
  rw [h] at hnot
  simpa using hnot

theorem trim_of_edges {text : List Char} (hhead : ∀ c ∈ text.head?, isWhitespace c = false)
    (hlast : ∀ c ∈ text.getLast?, isWhitespace c = false) : trim text = text := by
  by_cases hempty : text = []
  · rw [hempty]
    rfl
  · have hfirst := List.head?_eq_some_head hempty
    have hend := List.getLast?_eq_some_getLast hempty
    exact trim_of_ends hfirst hend (hhead _ hfirst) (hlast _ hend)

theorem trim_trim (text : List Char) : trim (trim text) = trim text :=
  trim_of_edges (fun _ hc => head?_trim hc) (fun _ hc => getLast?_trim hc)

theorem solid_trim {text : List Char} (h : trim text ≠ []) : Solid (trim text) :=
  ⟨h, trim_trim text⟩

namespace Solid
variable {text : List Char}

theorem head (h : Solid text) {c : Char} (hc : c ∈ text.head?) : isWhitespace c = false := by
  rw [← h.2] at hc
  exact head?_trim hc

theorem last (h : Solid text) {c : Char} (hc : c ∈ text.getLast?) : isWhitespace c = false := by
  rw [← h.2] at hc
  exact getLast?_trim hc

theorem append {front back : List Char} (hfront : Solid front) (mid : List Char)
    (hback : Solid back) :
    Solid (front ++ mid ++ back) := by
  refine ⟨by simp [hfront.1], trim_of_edges ?_ ?_⟩
  · intro c hc
    apply hfront.head
    rwa [List.append_assoc, List.head?_append_of_ne_nil _ hfront.1] at hc
  · intro c hc
    apply hback.last
    rwa [List.getLast?_append_of_ne_nil _ hback.1] at hc

end Solid

/-- White space around a text makes no difference to its trimming. -/
theorem trim_between {before text after : List Char} (hbefore : ∀ c ∈ before, isWhitespace c)
    (hafter : ∀ c ∈ after, isWhitespace c) : trim (before ++ text ++ after) = trim text := by
  have hstart (front text : List Char) (h : ∀ c ∈ front, isWhitespace c) :
      trimStart (front ++ text) = trimStart text := by
    unfold trimStart
    rw [List.dropWhile_append, List.dropWhile_eq_nil_iff.mpr h]
    simp
  have hends (text : List Char) : trim (text ++ after) = trim text := by
    unfold trim
    by_cases hblank : ∀ c ∈ text, isWhitespace c
    · rw [show trimStart (text ++ after) = [] from List.dropWhile_eq_nil_iff.mpr fun c hc =>
          (List.mem_append.mp hc).elim (hblank c) (hafter c),
        show trimStart text = [] from List.dropWhile_eq_nil_iff.mpr hblank]
    · have hkeep : trimStart (text ++ after) = trimStart text ++ after := by
        unfold trimStart
        rw [List.dropWhile_append, if_neg]
        rw [List.isEmpty_iff, List.dropWhile_eq_nil_iff]
        exact hblank
      rw [hkeep, List.reverse_append, hstart after.reverse]
      intro c hc
      exact hafter c (List.mem_reverse.mp hc)
  rw [hends, trim, trim, hstart before text hbefore]

theorem trim_cons_blank {c : Char} (h : isWhitespace c) (text : List Char) :
    trim (c :: text) = trim text := by
  have htrim : trim ([c] ++ text ++ []) = trim text :=
    trim_between (List.forall_mem_singleton.mpr h) (List.forall_mem_nil _)
  rwa [List.append_nil] at htrim

theorem trim_dropReturn (line : List Char) : trim (dropReturn line) = trim line := by
  rcases eq_dropReturn line with heq | heq
  · rw [← heq]
  · have hreturn : ∀ c ∈ ['\r'], isWhitespace c := List.forall_mem_singleton.mpr rfl
    have htrim : trim ([] ++ dropReturn line ++ ['\r']) = trim (dropReturn line) :=
      trim_between (List.forall_mem_nil _) hreturn
    rw [List.nil_append, ← heq] at htrim
    exact htrim.symm

theorem trim_labelled {label : List Char} (h : Solid label) (value : List Char) :
    ∃ rest, trim (label ++ ':' :: value) = label ++ ':' :: rest ∧ trim rest = trim value := by
  obtain ⟨before, after, hvalue, hblank⟩ := trim_decompose value
  rw [List.forall_mem_append] at hblank
  by_cases hempty : trim value = []
  · have hcolon : Solid [':'] := ⟨List.cons_ne_nil _ _, rfl⟩
    have hline : label ++ ':' :: value = [] ++ (label ++ [] ++ [':']) ++ (before ++ after) := by
      rw [hempty] at hvalue
      simp [hvalue]
    rw [hline, trim_between (List.forall_mem_nil _) (List.forall_mem_append.mpr hblank),
      (h.append [] hcolon).2]
    refine ⟨[], ?_, ?_⟩
    · rw [List.append_nil]
    · rw [hempty]
      rfl
  · have hsolid := h.append (':' :: before) (solid_trim hempty)
    have hline :
        label ++ ':' :: value = [] ++ (label ++ (':' :: before) ++ trim value) ++ after := by
      conv_lhs => rw [hvalue]
      simp
    rw [hline, trim_between (List.forall_mem_nil _) hblank.2, hsolid.2]
    refine ⟨before ++ trim value, ?_, ?_⟩
    · simp
    · have htrim : trim (before ++ trim value ++ []) = trim (trim value) :=
        trim_between hblank.1 (List.forall_mem_nil _)
      rw [List.append_nil] at htrim
      rw [htrim, trim_trim]

theorem mem_of_mem_intercalate {sep : List Char} {items : List (List Char)} {c : Char}
    (h : c ∈ sep.intercalate items) : c ∈ sep ∨ ∃ item ∈ items, c ∈ item := by
  induction items with
  | nil => cases h
  | cons item items ih =>
    cases items with
    | nil =>
      rw [List.intercalate_singleton] at h
      exact .inr ⟨item, List.mem_cons_self, h⟩
    | cons next items =>
      rw [List.intercalate_cons_cons, List.append_assoc, List.mem_append, List.mem_append] at h
      rcases h with hitem | hsep | hrest
      · exact .inr ⟨item, List.mem_cons_self, hitem⟩
      · exact .inl hsep
      · rcases ih hrest with hsep | ⟨other, hother, hc⟩
        · exact .inl hsep
        · exact .inr ⟨other, List.mem_cons_of_mem _ hother, hc⟩

theorem solid_intercalate {sep : List Char} {items : List (List Char)} (hne : items ≠ [])
    (hitems : ∀ item ∈ items, Solid item) : Solid (sep.intercalate items) := by
  induction items with
  | nil => exact absurd rfl hne
  | cons item items ih =>
    rw [List.forall_mem_cons] at hitems
    cases items with
    | nil =>
      rw [List.intercalate_singleton]
      exact hitems.1
    | cons next items =>
      rw [List.intercalate_cons_cons]
      exact hitems.1.append sep (ih (List.cons_ne_nil _ _) hitems.2)

def splitPairs (c : Char) : List Char → List (List Char)
  | [] => [[]]
  | [d] => [[d]]
  | a :: b :: rest =>
      if a = c ∧ b = c then [] :: splitPairs c rest
      else
        match splitPairs c (b :: rest) with
        | [] => [[a]]
        | piece :: pieces => (a :: piece) :: pieces

theorem splitPairs_cons {c d : Char} (hd : d ≠ c) {text piece : List Char}
    {pieces : List (List Char)}
    (h : splitPairs c text = piece :: pieces) : splitPairs c (d :: text) =
    (d :: piece) :: pieces := by
  cases text with
  | nil =>
    obtain ⟨rfl, rfl⟩ := List.cons.inj h
    rfl
  | cons b text => rw [splitPairs, if_neg fun hpair => hd hpair.1, h]

theorem splitPairs_append {c d : Char} (hd : d ≠ c) {text : List Char}
    (h : containsText [c, c] text = false) {rest piece : List Char} {pieces : List (List Char)}
    (hrest : splitPairs c (d :: rest) = piece :: pieces) :
    splitPairs c (text ++ d :: rest) = (text ++ piece) :: pieces := by
  induction text with
  | nil => exact hrest
  | cons a text ih =>
    rw [containsText, Bool.or_eq_false_iff] at h
    have hlater := ih h.2
    cases text with
    | nil =>
      rw [List.cons_append, List.nil_append, splitPairs, if_neg fun hpair => hd hpair.2, hrest]
      rfl
    | cons b text =>
      have hpair : ¬ (a = c ∧ b = c) := by
        rintro ⟨rfl, rfl⟩
        simp [List.isPrefixOf] at h
      rw [List.cons_append, List.cons_append, splitPairs, if_neg hpair]
      rw [List.cons_append] at hlater
      rw [hlater]
      rfl

theorem splitPairs_of_clear {c : Char} {text : List Char} (h : containsText [c, c] text = false) :
    splitPairs c text = [text] := by
  induction text with
  | nil => rfl
  | cons a text ih =>
    rw [containsText, Bool.or_eq_false_iff] at h
    cases text with
    | nil => rfl
    | cons b text =>
      have hpair : ¬ (a = c ∧ b = c) := by
        rintro ⟨rfl, rfl⟩
        simp [List.isPrefixOf] at h
      rw [splitPairs, if_neg hpair, ih h.2]

theorem splitPairs_intercalate {c : Char} (hc : c ≠ ' ') {items : List (List Char)}
    (hne : items ≠ [])
    (hitems : ∀ item ∈ items, Solid item ∧ containsText [c, c] item = false) :
    ((splitPairs c ([' ', c, c, ' '].intercalate items)).map trim).filter (! ·.isEmpty) =
      items := by
  have hkept {item : List Char} (h : Solid item) : (! item.isEmpty) = true := by simpa using h.1
  have hsplit :
    ∃ piece pieces, splitPairs c ([' ', c, c, ' '].intercalate items) = piece :: pieces ∧
      (piece :: pieces).map trim = items := by
    induction items with
    | nil => exact absurd rfl hne
    | cons item items ih =>
      rw [List.forall_mem_cons] at hitems
      obtain ⟨⟨hsolid, hclear⟩, hrest⟩ := hitems
      cases items with
      | nil =>
        rw [List.intercalate_singleton, splitPairs_of_clear hclear]
        exact ⟨item, [], rfl, by rw [List.map_singleton, hsolid.2]⟩
      | cons next items =>
        obtain ⟨piece, pieces, hpieces, hmap⟩ := ih (List.cons_ne_nil _ _) hrest
        have hbreak :
          splitPairs c ([' ', c, c, ' '] ++ [' ', c, c, ' '].intercalate (next :: items)) =
            [' '] :: (' ' :: piece) :: pieces := by
          have hblank := splitPairs_cons (Ne.symm hc) hpieces
          have hpair :
            splitPairs c (c :: c :: ' ' :: [' ', c, c, ' '].intercalate (next :: items)) =
              [] :: (' ' :: piece) :: pieces := by
            rw [splitPairs, if_pos ⟨rfl, rfl⟩, hblank]
          exact splitPairs_cons (Ne.symm hc) hpair
        refine ⟨item ++ [' '], (' ' :: piece) :: pieces, ?_, ?_⟩
        · rw [List.intercalate_cons_cons, List.append_assoc]
          exact splitPairs_append (Ne.symm hc) hclear hbreak
        · have hitem : trim ([] ++ item ++ [' ']) = trim item :=
            trim_between (List.forall_mem_nil _) (List.forall_mem_singleton.mpr rfl)
          rw [List.nil_append] at hitem
          rw [List.map_cons, List.map_cons, hitem, hsolid.2, trim_cons_blank rfl, ← List.map_cons,
            hmap]
  obtain ⟨piece, pieces, hpieces, hmap⟩ := hsplit
  rw [hpieces, hmap]
  exact List.filter_eq_self.mpr fun item hmem => hkept (hitems item hmem).1

section Readers
variable {α β γ ε : Type}

theorem foldlM_keeps {P : β → Prop} {f : β → α → Except ε β} {input : List α}
    (hstep : ∀ b b', ∀ a ∈ input, P b → f b a = .ok b' → P b') {b b' : β} (hstart : P b)
    (h : input.foldlM f b = .ok b') : P b' := by
  induction input generalizing b with
  | nil =>
    cases h
    exact hstart
  | cons a input ih =>
    rw [List.foldlM_cons] at h
    cases hfirst : f b a with
    | error e =>
      rw [hfirst] at h
      cases h
    | ok next =>
      rw [hfirst] at h
      exact ih (fun b b' a ha => hstep b b' a (List.mem_cons_of_mem _ ha))
        (hstep b next a List.mem_cons_self hstart hfirst) h

theorem foldlM_map_comm {f : β → α → Except ε β} {g : γ → α → Except ε γ} (put : β → γ)
    (hstep : ∀ b a, g (put b) a = (f b a).map put) (input : List α) (b : β) :
    input.foldlM g (put b) = (input.foldlM f b).map put := by
  induction input generalizing b with
  | nil => rfl
  | cons a input ih =>
    rw [List.foldlM_cons, List.foldlM_cons, hstep]
    cases f b a with
    | error e => rfl
    | ok next => exact ih next

end Readers

end Simard.Library
