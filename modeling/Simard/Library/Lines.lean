import Simard.Library.Words

/-! Texts that are read line by line. What is printed as lines is read back as these lines, and
a reader that goes from line to line with a state reads a text part by part. -/
namespace Simard.Library

def unlines (printed : List (List Char)) : List Char := printed.flatMap (· ++ ['\n'])

theorem splitOn_unlines {printed : List (List Char)} (h : ∀ line ∈ printed, '\n' ∉ line) :
    (unlines printed).splitOn '\n' = printed ++ [[]] := by
  induction printed with
  | nil => rfl
  | cons line printed ih =>
    rw [List.forall_mem_cons] at h
    rw [unlines, List.flatMap_cons, List.append_assoc, List.singleton_append,
      List.splitOn_append_cons_self, List.cons_append]
    rw [List.splitOn_eq_splitOnP, List.splitOnP_eq_singleton (by
      intro c hc
      simpa using fun heq : c = '\n' => h.1 (heq ▸ hc))]
    exact congrArg (line :: ·) (ih h.2)

theorem lines_unlines {printed : List (List Char)} (h : ∀ line ∈ printed, '\n' ∉ line) :
    lines (unlines printed) = printed.map dropReturn := by
  unfold lines
  rw [splitOn_unlines h]
  dsimp only
  rw [List.dropLast_concat, List.getLast?_concat]
  exact List.append_nil _

theorem dropReturn_cons {c : Char} (hc : c ≠ '\r') (rest : List Char) :
    dropReturn (c :: rest) = c :: dropReturn rest := by
  cases rest with
  | nil => simp [dropReturn, hc]
  | cons d rest =>
    unfold dropReturn
    rw [List.getLast?_cons_cons, List.dropLast_cons_cons]
    split
    · rfl
    · rfl

theorem dropReturn_append {beginning : List Char} (h : '\r' ∉ beginning) (rest : List Char) :
    dropReturn (beginning ++ rest) = beginning ++ dropReturn rest := by
  induction beginning with
  | nil => rfl
  | cons c beginning ih =>
    rw [List.mem_cons, not_or] at h
    rw [List.cons_append, dropReturn_cons (Ne.symm h.1), ih h.2, List.cons_append]

theorem dropReturn_append_cons (beginning : List Char) (c : Char) (rest : List Char) :
    dropReturn (beginning ++ c :: rest) = beginning ++ dropReturn (c :: rest) := by
  unfold dropReturn
  rw [List.getLast?_append_cons, List.dropLast_append_cons]
  split
  · rfl
  · rfl

theorem eq_dropReturn (line : List Char) :
    line = dropReturn line ∨ line = dropReturn line ++ ['\r'] := by
  unfold dropReturn
  split
  next hlast => exact .inr (List.dropLast_append_getLast? '\r' hlast).symm
  next => exact .inl rfl

theorem mem_head?_dropReturn {c : Char} {line : List Char} (h : c ∈ (dropReturn line).head?) :
    c ∈ line.head? := by
  rcases eq_dropReturn line with heq | heq
  · rwa [heq]
  · rw [heq]
    exact List.mem_head?_append_of_mem_head? h

theorem dropReturn_of_notMem {line : List Char} (h : '\r' ∉ line) : dropReturn line = line := by
  unfold dropReturn
  exact if_neg fun hlast => h (List.mem_of_mem_getLast? hlast)

theorem mem_of_mem_dropReturn {c : Char} {line : List Char}
    (h : c ∈ dropReturn line) : c ∈ line := by
  rcases eq_dropReturn line with heq | heq
  · rwa [heq]
  · rw [heq]
    exact List.mem_append_left _ h

theorem notMem_of_mem_lines {text line : List Char} (h : line ∈ lines text) : '\n' ∉ line := by
  rcases List.mem_append.mp h with hended | hlast
  · obtain ⟨piece, hpiece, rfl⟩ := List.mem_map.mp hended
    intro hline
    exact notMem_of_mem_splitOn (List.mem_of_mem_dropLast hpiece) (mem_of_mem_dropReturn hline)
  · have hpiece := (Option.filter_eq_some_iff.mp (Option.mem_toList.mp hlast)).1
    exact notMem_of_mem_splitOn (List.mem_of_mem_getLast? hpiece)

/-- A carriage return at the end of a line counts as nothing where a text is looked for that has
none. -/
theorem isPrefixOf_dropReturn {beginning : List Char} (h : '\r' ∉ beginning) (line : List Char) :
    beginning.isPrefixOf (dropReturn line) = beginning.isPrefixOf line := by
  rcases eq_dropReturn line with heq | heq
  · rw [← heq]
  · rw [Bool.eq_iff_iff, List.isPrefixOf_iff_prefix, List.isPrefixOf_iff_prefix]
    constructor
    · intro hbegins
      rw [heq]
      exact hbegins.trans (List.prefix_append _ _)
    · intro hbegins
      rw [heq, List.prefix_concat_iff] at hbegins
      rcases hbegins with hwhole | hbegins
      · exact absurd (hwhole ▸ List.mem_append_right _ List.mem_cons_self) h
      · exact hbegins

theorem containsText_dropReturn {needle : List Char} (h : '\r' ∉ needle) (hne : needle ≠ [])
    (line : List Char) : containsText needle (dropReturn line) = containsText needle line := by
  rcases eq_dropReturn line with heq | heq
  · rw [← heq]
  · have hnil : containsText needle [] = false := by
      cases needle with
      | nil => exact absurd rfl hne
      | cons c needle => rfl
    conv_rhs => rw [heq, containsText_separated h, hnil, Bool.or_false]

theorem trimStart_dropReturn (line : List Char) :
    trimStart (dropReturn line) = dropReturn (trimStart line) := by
  induction line with
  | nil => rfl
  | cons c rest ih =>
    by_cases hblank : isWhitespace c = true
    · have hskip (tail : List Char) : trimStart (c :: tail) = trimStart tail :=
        List.dropWhile_cons_of_pos hblank
      cases rest with
      | nil =>
        rw [hskip]
        unfold dropReturn
        split
        · rfl
        · exact hskip []
      | cons d rest =>
        have hkept : dropReturn (c :: d :: rest) = c :: dropReturn (d :: rest) :=
          dropReturn_append_cons [c] d rest
        rw [hkept, hskip, hskip]
        exact ih
    · have hstays (tail : List Char) : trimStart (c :: tail) = c :: tail :=
        List.dropWhile_cons_of_neg hblank
      have hreturn : c ≠ '\r' := fun heq => hblank (heq ▸ by decide)
      rw [hstays, dropReturn_cons hreturn, hstays]

theorem countP_lines {p : List Char → Bool} (hempty : p [] = false)
    (hreturn : ∀ line, p (dropReturn line) = p line) (text : List Char) :
    (lines text).countP p = (text.splitOn '\n').countP p := by
  have hcomp : p ∘ dropReturn = p := funext hreturn
  unfold lines
  dsimp only
  rcases List.eq_nil_or_concat (text.splitOn '\n') with hnil | ⟨ended, last, hpieces⟩
  · rw [hnil]
    rfl
  · rw [hpieces, List.concat_eq_append, List.dropLast_concat, List.getLast?_concat,
      List.countP_append, List.countP_append, List.countP_map, hcomp]
    congr 1
    by_cases hlast : last = []
    · subst hlast
      rw [List.countP_singleton, hempty]
      rfl
    · rw [Option.filter_some, if_pos (decide_eq_true hlast)]
      rfl

theorem any_lines {p : List Char → Bool} (hempty : p [] = false)
    (hreturn : ∀ line, p (dropReturn line) = p line) (text : List Char) :
    (lines text).any p = (text.splitOn '\n').any p := by
  rw [Bool.eq_iff_iff, List.any_eq_true, List.any_eq_true, ← List.countP_pos_iff,
    ← List.countP_pos_iff, countP_lines hempty hreturn]

theorem stripPrefix_dropReturn {beginning : List Char} (h : '\r' ∉ beginning) (text : List Char) :
    stripPrefix beginning (dropReturn text) = (stripPrefix beginning text).map dropReturn := by
  unfold stripPrefix
  rw [isPrefixOf_dropReturn h]
  split
  next hbegins =>
    obtain ⟨rest, rfl⟩ := List.isPrefixOf_iff_prefix.mp hbegins
    rw [dropReturn_append h, List.drop_left, List.drop_left]
    rfl
  · rfl

theorem exists_of_afterFirst {needle text rest : List Char}
    (h : afterFirst needle text = some rest) :
    ∃ before, text = before ++ (needle ++ rest) := by
  induction text with
  | nil =>
    have hwhole : [] = needle ++ rest := stripPrefix_eq_some.mp h
    exact ⟨[], hwhole⟩
  | cons c text ih =>
    rcases Option.or_eq_some_iff.mp h with hfirst | ⟨-, hlater⟩
    · have hwhole : c :: text = needle ++ rest := stripPrefix_eq_some.mp hfirst
      exact ⟨[], hwhole⟩
    · obtain ⟨before, rfl⟩ := ih hlater
      exact ⟨c :: before, rfl⟩

theorem afterFirst_dropReturn {needle : List Char} (h : '\r' ∉ needle) (hne : needle ≠ [])
    (text : List Char) :
      afterFirst needle (dropReturn text) = (afterFirst needle text).map dropReturn := by
  have hempty : afterFirst needle [] = none := by
    cases needle with
    | nil => exact absurd rfl hne
    | cons c needle => rfl
  induction text with
  | nil => exact stripPrefix_dropReturn h []
  | cons c rest ih =>
    cases rest with
    | nil =>
      have hone : afterFirst needle [c] = stripPrefix needle [c] := by
        rw [afterFirst, hempty, Option.or_none]
      rw [hone, ← stripPrefix_dropReturn h]
      by_cases hc : c = '\r'
      · subst hc
        rfl
      · rw [dropReturn_cons hc]
        exact hone
    | cons d rest =>
      have hkept : dropReturn (c :: d :: rest) = c :: dropReturn (d :: rest) :=
        dropReturn_append_cons [c] d rest
      have hfirst := stripPrefix_dropReturn h (c :: d :: rest)
      rw [hkept] at hfirst ⊢
      rw [afterFirst, hfirst, ih, ← Option.map_or]
      rfl

def readPieces (pieces : List (List Char)) : List (List Char) :=
  pieces.dropLast.map dropReturn ++ (pieces.getLast?.filter (· ≠ [])).toList

theorem lines_eq_readPieces (text : List Char) : lines text = readPieces (text.splitOn '\n') := rfl

theorem readPieces_append (front : List (List Char)) {back : List (List Char)} (hback : back ≠ []) :
    readPieces (front ++ back) = front.map dropReturn ++ readPieces back := by
  unfold readPieces
  rw [List.dropLast_append_of_ne_nil hback, List.map_append, List.append_assoc,
    List.getLast?_append_of_ne_nil _ hback]

theorem mem_readPieces {pieces : List (List Char)} {line : List Char}
    (h : line ∈ readPieces pieces) :
    line ≠ [] ∧ line ∈ pieces ∨ ∃ piece ∈ pieces.dropLast, line = dropReturn piece := by
  rcases List.mem_append.mp h with hended | hlast
  · obtain ⟨piece, hpiece, rfl⟩ := List.mem_map.mp hended
    exact .inr ⟨piece, hpiece, rfl⟩
  · obtain ⟨hpiece, hne⟩ := Option.filter_eq_some_iff.mp (Option.mem_toList.mp hlast)
    exact .inl ⟨of_decide_eq_true hne, List.mem_of_mem_getLast? hpiece⟩

theorem splitOn_intercalate_newline {texts : List (List Char)} (h : texts ≠ []) :
    (['\n'].intercalate texts).splitOn '\n' = texts.flatMap (·.splitOn '\n') := by
  induction texts with
  | nil => exact absurd rfl h
  | cons text texts ih =>
    cases texts with
    | nil => simp
    | cons next texts =>
      rw [List.intercalate_cons_cons, List.append_assoc, List.singleton_append,
        List.splitOn_append_cons_self, ih (List.cons_ne_nil _ _)]
      rfl

theorem flatMap_splitOn_newline {texts : List (List Char)} (h : ∀ text ∈ texts, '\n' ∉ text) :
    texts.flatMap (·.splitOn '\n') = texts := by
  induction texts with
  | nil => rfl
  | cons text texts ih =>
    rw [List.forall_mem_cons] at h
    rw [List.flatMap_cons, List.splitOn_eq_singleton h.1, ih h.2]
    rfl

theorem intercalate_concat_newline {texts : List (List Char)} (h : texts ≠ []) :
    ['\n'].intercalate (texts ++ [[]]) = ['\n'].intercalate texts ++ ['\n'] := by
  induction texts with
  | nil => exact absurd rfl h
  | cons text texts ih =>
    cases texts with
    | nil => simp [List.intercalate_cons_cons]
    | cons next texts =>
      rw [List.cons_append, List.cons_append, List.intercalate_cons_cons, ← List.cons_append,
        ih (List.cons_ne_nil _ _), List.intercalate_cons_cons, List.append_assoc, List.append_assoc,
        List.append_assoc]

theorem mem_intercalate {texts : List (List Char)} {text : List Char} {c : Char}
    (htext : text ∈ texts)
    (hc : c ∈ text) : c ∈ ['\n'].intercalate texts := by
  induction texts with
  | nil => cases htext
  | cons first texts ih =>
    cases texts with
    | nil =>
      rw [List.mem_singleton] at htext
      rw [List.intercalate_singleton, ← htext]
      exact hc
    | cons next texts =>
      rw [List.intercalate_cons_cons]
      rcases List.mem_cons.mp htext with rfl | htext
      · exact List.mem_append_left _ (List.mem_append_left _ hc)
      · exact List.mem_append_right _ (ih htext)

theorem dropReturn_of_mem_splitOn {text piece : List Char} (h : '\r' ∉ text)
    (hpiece : piece ∈ text.splitOn '\n') : dropReturn piece = piece := by
  refine dropReturn_of_notMem fun hreturn => h ?_
  rw [← @List.intercalate_splitOn _ text _ _ '\n']
  exact mem_intercalate hpiece hreturn

/-- The lines of a text without carriage returns are the text, but for a final line break. -/
theorem intercalate_lines {text : List Char} (h : '\r' ∉ text) :
    text = ['\n'].intercalate (lines text) ∨ text = ['\n'].intercalate (lines text) ++ ['\n'] := by
  have hkept : (text.splitOn '\n').dropLast.map dropReturn = (text.splitOn '\n').dropLast :=
    (List.map_congr_left fun piece hpiece =>
      dropReturn_of_mem_splitOn h (List.mem_of_mem_dropLast hpiece)).trans (List.map_id _)
  have hwhole : ['\n'].intercalate (text.splitOn '\n') = text := List.intercalate_splitOn '\n'
  unfold lines
  dsimp only
  rw [hkept]
  rcases List.eq_nil_or_concat (text.splitOn '\n') with hnil | ⟨ended, last, hpieces⟩
  · exact absurd hnil (List.splitOn_ne_nil _ _)
  · rw [hpieces, List.concat_eq_append] at hwhole ⊢
    rw [List.dropLast_concat, List.getLast?_concat]
    by_cases hlast : last = []
    · subst hlast
      rcases List.eq_nil_or_concat ended with rfl | ⟨front, piece, rfl⟩
      · exact .inl hwhole.symm
      · rw [List.concat_eq_append] at hwhole ⊢
        rw [intercalate_concat_newline (by simp)] at hwhole
        refine .inr ?_
        rw [Option.filter_some, if_neg (by simp)]
        simpa using hwhole.symm
    · refine .inl ?_
      rw [Option.filter_some, if_pos (decide_eq_true hlast)]
      exact hwhole.symm

/-- What a reader does at an input in a state: the state it goes on in, and what it gives out. -/
structure Transducer (σ α β : Type) where
  step : σ → α → σ × List β

namespace Transducer

variable {σ α β γ : Type} (reader : Transducer σ α β)

def state (s : σ) (input : List α) : σ := input.foldl (fun s a => (reader.step s a).1) s

def output : σ → List α → List β
  | _, [] => []
  | s, a :: rest => (reader.step s a).2 ++ output (reader.step s a).1 rest

@[simp] theorem state_nil (s : σ) : reader.state s [] = s := rfl

@[simp] theorem state_cons (s : σ) (a : α) (rest : List α) :
    reader.state s (a :: rest) = reader.state (reader.step s a).1 rest := rfl

@[simp] theorem output_nil (s : σ) : reader.output s [] = [] := rfl

@[simp] theorem output_cons (s : σ) (a : α) (rest : List α) :
    reader.output s (a :: rest) = (reader.step s a).2 ++ reader.output (reader.step s a).1 rest :=
  rfl

theorem output_append (s : σ) (left right : List α) :
    reader.output s (left ++ right) =
      reader.output s left ++ reader.output (reader.state s left) right := by
  induction left generalizing s with
  | nil => rfl
  | cons a left ih => rw [List.cons_append, output_cons, ih, output_cons, state_cons,
    List.append_assoc]

theorem state_append (s : σ) (left right : List α) :
    reader.state s (left ++ right) = reader.state (reader.state s left) right :=
  List.foldl_append

def Silent (a : α) : Prop := ∀ s, reader.step s a = (s, [])

variable {reader}

theorem silent_all {input : List α} (h : ∀ a ∈ input, reader.Silent a) (s : σ) :
    reader.state s input = s ∧ reader.output s input = [] := by
  induction input with
  | nil => exact ⟨rfl, rfl⟩
  | cons a input ih =>
    rw [List.forall_mem_cons] at h
    rw [state_cons, output_cons, h.1 s]
    exact ih h.2

theorem output_silent_append {input : List α} (h : ∀ a ∈ input, reader.Silent a) (s : σ)
    (rest : List α) : reader.output s (input ++ rest) = reader.output s rest := by
  rw [output_append, (silent_all h s).1, (silent_all h s).2, List.nil_append]

theorem output_flatMap {part : γ → List α} {given : γ → List β}
    (h : ∀ s x, reader.output s (part x) = given x) (s : σ) (parts : List γ) :
    reader.output s (parts.flatMap part) = parts.flatMap given := by
  induction parts generalizing s with
  | nil => rfl
  | cons x parts ih => rw [List.flatMap_cons, output_append, h, ih, List.flatMap_cons]

theorem mem_output {s : σ} {input : List α} {b : β} :
    b ∈ reader.output s input ↔
      ∃ before a after, input = before ++ a :: after ∧
        b ∈ (reader.step (reader.state s before) a).2 := by
  induction input generalizing s with
  | nil => simp
  | cons first input ih =>
    rw [output_cons, List.mem_append, ih]
    constructor
    · rintro (hfirst | ⟨before, a, after, rfl, hlater⟩)
      · exact ⟨[], first, input, rfl, hfirst⟩
      · exact ⟨first :: before, a, after, rfl, hlater⟩
    · rintro ⟨before, a, after, heq, hmem⟩
      cases before with
      | nil =>
        obtain ⟨rfl, rfl⟩ := List.cons.inj heq
        exact .inl hmem
      | cons head before =>
        obtain ⟨rfl, rfl⟩ := List.cons.inj heq
        exact .inr ⟨before, a, after, rfl, hmem⟩

theorem output_images {other : Transducer σ γ β} {image : γ → List α}
    (hstate : ∀ s x, reader.state s (image x) = (other.step s x).1)
    (houtput : ∀ s x, reader.output s (image x) = (other.step s x).2) (s : σ) (parts : List γ) :
    reader.state s (parts.flatMap image) = other.state s parts ∧
      reader.output s (parts.flatMap image) = other.output s parts := by
  induction parts generalizing s with
  | nil => exact ⟨rfl, rfl⟩
  | cons x parts ih =>
    rw [List.flatMap_cons, state_append, output_append, hstate, houtput, (ih _).1, (ih _).2]
    exact ⟨rfl, rfl⟩

end Transducer

end Simard.Library
