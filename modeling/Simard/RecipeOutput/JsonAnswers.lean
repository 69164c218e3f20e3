import Simard.Library.JsonText
import Simard.RecipeOutput.Extract

/-! A JSON answer among lines of noise. No line of a JSON text looks like noise, with one exception:
where it quotes the launcher and begins with another token than the guard knows. -/
namespace Simard.RecipeOutput
open Simard.Library

def noiseBeginnings : List String :=
  ["Run 'copilot update'", "INFO ", "WARN ", "Recipe:", "Steps:", "[completed]", "[failed]",
    "[skipped]", "[running]"]

/-- The ways in which a line, trimmed, is noise. -/
inductive NoiseShape (t : List Char) : Prop where
  | stamped (h : beginsWith isoShape t = true)
  | begins (text : String) (hknown : text ∈ noiseBeginnings) (h : text.toList <+: t)
  | marked (hhead : t.head? = some '\u2139') (h : containsText "NODE_OPTIONS=".toList t = true)
  | launching (hguard : beginsLikeJson t = false)
      (h : containsText "launching copilot binary=".toList t = true)
  | version (hguard : beginsLikeJson t = false)
      (h : containsText "version=\"GitHub Copilot CLI".toList t = true)

theorem noiseShape_of_launcher {t : List Char} (htrimmed : trimStart t = t)
    (h : isCopilotLauncherLine t = true) : NoiseShape t := by
  unfold isCopilotLauncherLine at h
  simp only [htrimmed] at h
  split at h
  · cases h
  next hguard =>
    have hguard : beginsLikeJson t = false := Bool.eq_false_iff.mpr hguard
    split at h
    · cases h
    · split at h
      next hrun =>
        exact .begins "Run 'copilot update'" (by decide) (List.isPrefixOf_iff_prefix.mp hrun)
      next =>
        split at h
        next hshows =>
          rcases Bool.or_eq_true_iff.mp hshows with hshows | hshows
          · exact .launching hguard hshows
          · exact .version hguard hshows
        next =>
          split at h
          next hmarked =>
            simp only [Bool.and_eq_true, decide_eq_true_eq] at hmarked
            exact .marked hmarked.1.1 hmarked.1.2
          next =>
            rcases Bool.or_eq_true_iff.mp h with hlevel | hlevel
            · exact .begins "INFO " (by decide) (List.isPrefixOf_iff_prefix.mp hlevel)
            · exact .begins "WARN " (by decide) (List.isPrefixOf_iff_prefix.mp hlevel)

theorem noiseShape_of_isNoiseLine {line : List Char} (h : isNoiseLine line = true) :
    NoiseShape (trimStart line) := by
  unfold isNoiseLine at h
  simp only [Bool.or_eq_true, List.isPrefixOf_iff_prefix] at h
  rcases h with ((((((hiso | hlauncher) | h) | h) | h) | h) | h) | h
  · exact .stamped hiso
  · exact noiseShape_of_launcher (trimStart_trimStart line) hlauncher
  · exact .begins "Recipe:" (by decide) h
  · exact .begins "Steps:" (by decide) h
  · exact .begins "[completed]" (by decide) h
  · exact .begins "[failed]" (by decide) h
  · exact .begins "[skipped]" (by decide) h
  · exact .begins "[running]" (by decide) h

def quotesLauncher (line : List Char) : Bool :=
  !beginsLikeJson (trimStart line) &&
    containsText "launching copilot binary=".toList (trimStart line)

theorem isNoiseLine_of_quotesLauncher {line : List Char} (h : quotesLauncher line = true) :
    isNoiseLine line = true := by
  obtain ⟨hguard, hshows⟩ := Bool.and_eq_true_iff.mp h
  have hguard : beginsLikeJson (trimStart line) = false := by simpa using hguard
  by_cases hiso : startsWithIsoTimestamp (trimStart line) = true
  · simp [isNoiseLine, hiso]
  · have hlauncher : isCopilotLauncherLine (trimStart line) = true := by
      unfold isCopilotLauncherLine
      dsimp only
      rw [trimStart_trimStart, if_neg (Bool.eq_false_iff.mp hguard), if_neg hiso]
      split
      · rfl
      · exact if_pos (Bool.or_eq_true_iff.mpr (.inl hshows))
    simp [isNoiseLine, hlauncher]

theorem exists_of_beginsWith {shape : List (Char → Bool)} {text : List Char}
    (h : beginsWith shape text = true) :
    ∃ front rest, text = front ++ rest ∧ front.length = shape.length ∧
      (∀ c ∈ front, ∃ marked ∈ shape, marked c = true) ∧
      ∀ marked ∈ shape, ∃ c ∈ front, marked c = true := by
  induction shape generalizing text with
  | nil => exact ⟨[], text, rfl, rfl, fun c hc => absurd hc List.not_mem_nil,
      fun marked hmarked => absurd hmarked List.not_mem_nil⟩
  | cons marked shape ih =>
    cases text with
    | nil => cases h
    | cons c rest =>
      obtain ⟨hc, hrest⟩ := Bool.and_eq_true_iff.mp h
      obtain ⟨front, rest, rfl, hlength, hchars, hmarks⟩ := ih hrest
      refine ⟨c :: front, rest, rfl, congrArg (· + 1) hlength, ?_, ?_⟩
      · rw [List.forall_mem_cons]
        refine ⟨⟨marked, List.mem_cons_self, hc⟩, fun d hd => ?_⟩
        obtain ⟨other, hother, hd⟩ := hchars d hd
        exact ⟨other, List.mem_cons_of_mem _ hother, hd⟩
      · rw [List.forall_mem_cons]
        refine ⟨⟨c, List.mem_cons_self, hc⟩, fun other hother => ?_⟩
        obtain ⟨d, hd, hmarked⟩ := hmarks other hother
        exact ⟨d, List.mem_cons_of_mem _ hd, hmarked⟩

theorem notMem_of_marks {shape : List (Char → Bool)} {front : List Char} {c : Char}
    (hchars : ∀ c ∈ front, ∃ marked ∈ shape, marked c = true)
    (hc : ∀ marked ∈ shape, marked c = false) : c ∉ front := by
  intro hmem
  obtain ⟨marked, hmarked, htrue⟩ := hchars c hmem
  rw [hc marked hmarked] at htrue
  cases htrue

theorem isoShape_rejects {c : Char} (hc : c = '\r' ∨ c = '"') :
    ∀ marked ∈ isoShape, marked c = false := by
  rcases hc with rfl | rfl <;> simp [isoShape]

theorem agentStamp_rejects {c : Char} (hc : c = '\r' ∨ c = '"') :
    ∀ marked ∈ agentStamp, marked c = false := by
  rcases hc with rfl | rfl <;> simp [agentStamp]

theorem beginsWith_dropReturn {shape : List (Char → Bool)}
    (h : ∀ marked ∈ shape, marked '\r' = false) (text : List Char) :
    beginsWith shape (dropReturn text) = beginsWith shape text := by
  induction shape generalizing text with
  | nil => rfl
  | cons marked shape ih =>
    rw [List.forall_mem_cons] at h
    cases text with
    | nil => rfl
    | cons c rest =>
      by_cases hc : c = '\r'
      · subst hc
        cases rest with
        | nil => simp [dropReturn, beginsWith, h.1]
        | cons d rest =>
          have hkept : dropReturn ('\r' :: d :: rest) = '\r' :: dropReturn (d :: rest) :=
            dropReturn_append_cons ['\r'] d rest
          rw [hkept, beginsWith, beginsWith, h.1, Bool.false_and, Bool.false_and]
      · rw [dropReturn_cons hc, beginsWith, beginsWith, ih h.2]

theorem head?_dropReturn {c : Char} (hc : c ≠ '\r') (line : List Char) :
    (dropReturn line).head? = some c ↔ line.head? = some c := by
  constructor
  · exact fun h => mem_head?_dropReturn h
  · intro h
    obtain ⟨rest, rfl⟩ := List.head?_eq_some_iff.mp h
    rw [dropReturn_cons hc]
    rfl

theorem beginsLikeJson_dropReturn (t : List Char) :
    beginsLikeJson (dropReturn t) = beginsLikeJson t := by
  unfold beginsLikeJson
  rw [decide_eq_decide.mpr (@head?_dropReturn '\x7b' (by decide) t),
    decide_eq_decide.mpr (@head?_dropReturn '"' (by decide) t),
    decide_eq_decide.mpr (@head?_dropReturn '[' (by decide) t)]

theorem isCopilotLauncherLine_dropReturn (line : List Char) :
    isCopilotLauncherLine (dropReturn line) = isCopilotLauncherLine line := by
  unfold isCopilotLauncherLine startsWithIsoTimestamp
  dsimp only
  simp (disch := decide) only [trimStart_dropReturn, beginsLikeJson_dropReturn,
    beginsWith_dropReturn (isoShape_rejects (.inl rfl)), isPrefixOf_dropReturn,
    containsText_dropReturn, head?_dropReturn]

theorem isNoiseLine_dropReturn (line : List Char) :
    isNoiseLine (dropReturn line) = isNoiseLine line := by
  unfold isNoiseLine startsWithIsoTimestamp
  dsimp only
  simp (disch := decide) only [trimStart_dropReturn, isCopilotLauncherLine_dropReturn,
    beginsWith_dropReturn (isoShape_rejects (.inl rfl)), isPrefixOf_dropReturn]

theorem quotesLauncher_dropReturn (line : List Char) :
    quotesLauncher (dropReturn line) = quotesLauncher line := by
  unfold quotesLauncher
  rw [trimStart_dropReturn, beginsLikeJson_dropReturn,
    containsText_dropReturn (by decide) (by decide)]

theorem exists_of_agentPrefix {line payload : List Char}
    (h : stripRecipeAgentPrefix line = some payload) :
    ∃ stamp tail, trimStart line = stamp ++ ("[amplihack:".toList ++ tail) ∧
      beginsWith agentStamp (trimStart line) = true ∧ stamp.length = agentStamp.length ∧
      (∀ c ∈ stamp, ∃ marked ∈ agentStamp, marked c = true) ∧
      afterFirst "] ".toList tail = some payload := by
  unfold stripRecipeAgentPrefix at h
  dsimp only at h
  split at h
  · cases h
  · split at h
    next hstamp =>
      obtain ⟨tail, htail, hpayload⟩ := Option.bind_eq_some_iff.mp h
      obtain ⟨stamp, rest, hline, hlength, hchars, -⟩ := exists_of_beginsWith hstamp
      rw [hline, ← hlength, List.drop_left, stripPrefix_eq_some] at htail
      exact ⟨stamp, tail, by rw [hline, htail], hstamp, hlength, hchars, hpayload⟩
    · cases h

theorem agentPrefix_of_isNoiseLine {line : List Char} (h : isNoiseLine line = true) :
    stripRecipeAgentPrefix line = none := by
  rw [Option.eq_none_iff_forall_ne_some]
  intro payload hpayload
  obtain ⟨stamp, tail, hline, hstamp, -⟩ := exists_of_agentPrefix hpayload
  have hshape := noiseShape_of_isNoiseLine h
  -- the stamp begins with a bracket and a digit
  cases htext : trimStart line with
  | nil =>
    rw [htext] at hstamp
    cases hstamp
  | cons c rest =>
    cases rest with
    | nil =>
      rw [htext] at hstamp
      simp [agentStamp, beginsWith] at hstamp
    | cons d rest =>
      rw [htext] at hstamp hshape
      simp only [agentStamp, beginsWith, Bool.and_eq_true, decide_eq_true_eq] at hstamp
      obtain ⟨rfl, hdigit, -⟩ := hstamp
      cases hshape with
      | stamped hiso =>
        simp [isoShape, beginsWith] at hiso
      | marked hhead => cases hhead
      | launching hguard => cases hguard
      | version hguard => cases hguard
      | begins text hknown hbegins =>
        simp only [noiseBeginnings, List.mem_cons, List.not_mem_nil, or_false] at hknown
        rcases hknown with rfl | rfl | rfl | rfl | rfl | rfl | rfl | rfl | rfl <;>
          simp [List.cons_prefix_cons] at hbegins <;> obtain ⟨rfl, -⟩ := hbegins <;> cases hdigit

theorem five_le_of_infix {needle t : List Char} (hlong : 5 ≤ needle.length)
    (h : containsText needle t = true) : 5 ≤ t.length :=
  hlong.trans (containsText_iff.mp h).length_le

theorem length_of_isNoiseLine {line : List Char} (h : isNoiseLine line = true) :
    5 ≤ line.length := by
  have htrimmed : (trimStart line).length ≤ line.length :=
    (List.dropWhile_suffix isWhitespace).length_le
  refine le_trans ?_ htrimmed
  cases noiseShape_of_isNoiseLine h with
  | stamped hiso =>
    obtain ⟨front, rest, hline, hlength, -⟩ := exists_of_beginsWith hiso
    rw [hline, List.length_append, hlength, isoShape]
    exact le_trans (by decide) (Nat.le_add_right _ _)
  | begins text hknown hbegins =>
    have hlong : ∀ text ∈ noiseBeginnings, 5 ≤ text.toList.length := by decide
    exact (hlong text hknown).trans hbegins.length_le
  | marked _ hshows => exact five_le_of_infix (by decide) hshows
  | launching _ hshows => exact five_le_of_infix (by decide) hshows
  | version _ hshows => exact five_le_of_infix (by decide) hshows

theorem agentPrefix_dropReturn {line payload : List Char}
    (h : stripRecipeAgentPrefix line = some payload) (hnoise : isNoiseLine payload = true) :
    stripRecipeAgentPrefix (dropReturn line) = some (dropReturn payload) := by
  obtain ⟨stamp, tail, hline, hstamp, hlength, hchars, hpayload⟩ := exists_of_agentPrefix h
  have hstampReturn : '\r' ∉ stamp := notMem_of_marks hchars (agentStamp_rejects (.inl rfl))
  have htrimmed : trimStart (dropReturn line) =
      stamp ++ ("[amplihack:".toList ++ dropReturn tail) := by
    rw [trimStart_dropReturn, hline, dropReturn_append hstampReturn, dropReturn_append (by decide)]
  have hafter : afterFirst "] ".toList (dropReturn tail) = some (dropReturn payload) := by
    rw [afterFirst_dropReturn (by decide) (by decide), hpayload]
    rfl
  have hstamped : beginsWith agentStamp (trimStart (dropReturn line)) = true := by
    rw [trimStart_dropReturn, beginsWith_dropReturn (agentStamp_rejects (.inl rfl)), hstamp]
  -- what is left of the payload is still noise, hence long
  have hlong : 27 ≤ (String.ofList (trimStart (dropReturn line))).utf8ByteSize := by
    obtain ⟨before, hbefore⟩ := exists_of_afterFirst hafter
    have hpayloadLong := length_of_isNoiseLine ((isNoiseLine_dropReturn payload).trans hnoise)
    refine le_trans ?_ (length_le_utf8ByteSize _)
    have hagent : "[amplihack:".toList.length = 11 := by decide
    have hend : "] ".toList.length = 2 := by decide
    rw [htrimmed, hbefore]
    simp only [List.length_append, hlength, hagent, hend]
    have hstampLength : agentStamp.length = 11 := rfl
    omega
  unfold stripRecipeAgentPrefix
  dsimp only
  have hbound : "[00:00:00] [amplihack:x:0] ".utf8ByteSize = 27 := by decide
  rw [hbound, if_neg (Nat.not_lt_of_le hlong), if_pos hstamped, htrimmed, ← hlength, List.drop_left,
    stripPrefix_eq_some.mpr rfl]
  exact hafter

def IsNoise (line : List Char) : Prop :=
  isNoiseLine line = true ∨
    ∃ payload, stripRecipeAgentPrefix line = some payload ∧ isNoiseLine payload = true

namespace IsNoise

variable {line : List Char}

theorem dropReturn (h : IsNoise line) : IsNoise (dropReturn line) := by
  rcases h with h | ⟨payload, hpayload, h⟩
  · exact .inl ((isNoiseLine_dropReturn line).trans h)
  · exact .inr ⟨_, agentPrefix_dropReturn hpayload h, (isNoiseLine_dropReturn payload).trans h⟩

theorem keptLine_eq (h : IsNoise line) : keptLine line = none := by
  unfold keptLine
  rcases h with h | ⟨payload, hpayload, h⟩
  · rw [agentPrefix_of_isNoiseLine h]
    exact if_pos h
  · rw [hpayload]
    exact if_pos h

theorem isDroppable_eq (h : IsNoise line) : isDroppable line = true := by
  unfold isDroppable
  rcases h with h | ⟨payload, hpayload, -⟩
  · rw [agentPrefix_of_isNoiseLine h]
    exact h
  · rw [hpayload]

theorem ne_nil (h : IsNoise line) : line ≠ [] := by
  rintro rfl
  have hkept := h.keptLine_eq
  revert hkept
  decide

end IsNoise

section JsonLines

variable {line : List Char} {n : Nat}

theorem noiseBeginnings_foreign : ∀ text ∈ noiseBeginnings,
    '"' ∉ text.toList ∧ ∃ c ∈ text.toList, c ∉ structuralChars := by
  intro text hknown
  simp only [noiseBeginnings, List.mem_cons, List.not_mem_nil, or_false] at hknown
  rcases hknown with rfl | rfl | rfl | rfl | rfl | rfl | rfl | rfl | rfl
  · exact ⟨by decide, 'R', by decide, by decide⟩
  · exact ⟨by decide, 'I', by decide, by decide⟩
  · exact ⟨by decide, 'W', by decide, by decide⟩
  · exact ⟨by decide, 'R', by decide, by decide⟩
  · exact ⟨by decide, 'S', by decide, by decide⟩
  · exact ⟨by decide, 'c', by decide, by decide⟩
  · exact ⟨by decide, 'i', by decide, by decide⟩
  · exact ⟨by decide, 'k', by decide, by decide⟩
  · exact ⟨by decide, 'i', by decide, by decide⟩

theorem not_version_of_scans {s t : JsonState} {text : List Char} (h : Scans s text t n) :
    containsText "version=\"GitHub Copilot CLI".toList text = false := by
  rw [Bool.eq_false_iff, Ne, containsText_iff]
  rintro ⟨before, after, rfl⟩
  rw [List.append_assoc] at h
  obtain ⟨_, _, _, -, hneedle, -⟩ := Scans.of_append h
  -- the name is inside of a string, which ends at the quotation mark
  have hinside := hneedle.inside_of_cons (by decide) (by decide) (by decide)
  have hquote :
      Scans .inside ("ersion=".toList ++ ('"' :: ("GitHub Copilot CLI".toList ++ after))) _ _ :=
    hinside
  have hclosed := hquote.skip_plain (by simp)
  cases hclosed with
  | plain _ hquote => exact hquote rfl
  | closes houtside =>
    cases houtside with
    | structural hstructural => exact absurd hstructural (by decide)

theorem isNoiseLine_of_scans (h : Scans .outside line .outside n) :
    isNoiseLine line = quotesLauncher line := by
  have htrimmed := h.trimStart
  rw [Bool.eq_iff_iff]
  refine ⟨fun hnoise => ?_, isNoiseLine_of_quotesLauncher⟩
  cases noiseShape_of_isNoiseLine hnoise with
  | stamped hiso =>
    obtain ⟨front, rest, hline, -, hchars, hmarks⟩ := exists_of_beginsWith hiso
    rw [hline] at htrimmed
    have hstructural := htrimmed.structural_front
      (notMem_of_marks hchars (isoShape_rejects (.inr rfl)))
    obtain ⟨c, hc, hmarked⟩ := hmarks (· = 'T') (by simp [isoShape])
    obtain rfl : c = 'T' := of_decide_eq_true hmarked
    exact absurd (hstructural _ hc) (by decide)
  | begins text hknown hbegins =>
    obtain ⟨rest, hline⟩ := hbegins
    rw [← hline] at htrimmed
    obtain ⟨hquote, c, hc, hforeign⟩ := noiseBeginnings_foreign text hknown
    exact absurd (htrimmed.structural_front hquote c hc) hforeign
  | marked hhead =>
    obtain ⟨rest, hline⟩ := List.head?_eq_some_iff.mp hhead
    rw [hline] at htrimmed
    cases htrimmed with
    | structural hstructural => exact absurd hstructural (by decide)
  | launching hguard hshows =>
    unfold quotesLauncher
    rw [hguard, hshows]
    rfl
  | version _ hshows =>
    rw [not_version_of_scans htrimmed] at hshows
    cases hshows

theorem agentPrefix_of_scans (h : Scans .outside line .outside n) :
    stripRecipeAgentPrefix line = none := by
  rw [Option.eq_none_iff_forall_ne_some]
  intro payload hpayload
  obtain ⟨stamp, tail, hline, -, -, hchars, -⟩ := exists_of_agentPrefix hpayload
  have htrimmed := h.trimStart
  rw [hline, ← List.append_assoc] at htrimmed
  have hquote : '"' ∉ stamp ++ "[amplihack:".toList := by
    rw [List.mem_append, not_or]
    exact ⟨notMem_of_marks hchars (agentStamp_rejects (.inr rfl)), by decide⟩
  have hstructural := htrimmed.structural_front hquote 'm' (List.mem_append_right _ (by decide))
  exact absurd hstructural (by decide)

theorem keptLine_of_scans (h : Scans .outside line .outside n) :
    keptLine line = if quotesLauncher line then none else some line := by
  unfold keptLine
  dsimp only
  rw [agentPrefix_of_scans h, Option.getD_none, isNoiseLine_of_scans h]

theorem isDroppable_of_scans (h : Scans .outside line .outside n) :
    isDroppable line = quotesLauncher line := by
  unfold isDroppable
  rw [agentPrefix_of_scans h]
  exact isNoiseLine_of_scans h

theorem pos_of_quotesLauncher (h : Scans .outside line .outside n)
    (hquotes : quotesLauncher line = true) : 0 < n := by
  obtain ⟨-, hshows⟩ := Bool.and_eq_true_iff.mp hquotes
  rw [Nat.pos_iff_ne_zero]
  rintro rfl
  have hstructural := Scans.structural_of_no_opening h.trimStart (.inl rfl)
  have hc : 'c' ∈ trimStart line :=
    (containsText_iff.mp hshows).subset (by decide)
  exact absurd (hstructural 'c' hc) (by decide)

theorem exists_counts_kept {texts : List (List Char)} {counts : List Nat}
    (h : List.Forall₂ (fun text k => Scans .outside text .outside k) texts counts) :
    ∃ left, List.Forall₂ (fun text k => Scans .outside text .outside k)
        (texts.filterMap keptLine) left ∧ left.sum ≤ counts.sum ∧
      ((∃ line ∈ texts, quotesLauncher line = true) → left.sum < counts.sum) := by
  induction h with
  | nil => exact ⟨[], .nil, le_rfl, fun ⟨_, hline, _⟩ => absurd hline List.not_mem_nil⟩
  | @cons text k texts counts hfirst hrest ih =>
    obtain ⟨left, hleft, hle, hlt⟩ := ih
    rw [List.sum_cons]
    by_cases hquotes : quotesLauncher text = true
    · have hpos := pos_of_quotesLauncher hfirst hquotes
      rw [List.filterMap_cons, keptLine_of_scans hfirst, if_pos hquotes]
      exact ⟨left, hleft, by omega, fun _ => by omega⟩
    · rw [List.filterMap_cons, keptLine_of_scans hfirst, if_neg hquotes]
      refine ⟨k :: left, .cons hfirst hleft, ?_, ?_⟩
      · rw [List.sum_cons]
        omega
      · rintro ⟨line, hline, hquoting⟩
        rw [List.sum_cons]
        rcases List.mem_cons.mp hline with rfl | hline
        · exact absurd hquoting hquotes
        · have hless := hlt ⟨line, hline, hquoting⟩
          omega

end JsonLines

/-- A JSON text between whole lines of noise; the output may end with a line break. -/
structure NoisyAnswer {N S : Type} (reading : JsonReading N S) where
  before : List (List Char)
  document : List Char
  after : List (List Char)
  ended : Bool
  tree : JsonTree N S
  whole : ∀ line ∈ before ++ after, '\n' ∉ line
  noise : ∀ line ∈ before ++ after, IsNoise line
  json : IsJsonText reading document tree
  noReturn : '\r' ∉ document

/-- The escape sequences of a noise line end in it, and without them it is noise still. -/
structure Contained (line : List Char) : Prop where
  ends : AnsiState.after .plain line = .plain
  noise : IsNoise (stripAnsi line)

theorem contained_of_plain {line : List Char} (h : AnsiState.esc ∉ line) (hnoise : IsNoise line) :
    Contained line where
  ends := (AnsiState.strip_plain h).2
  noise := by
    rw [stripAnsi, (AnsiState.strip_plain h).1]
    exact hnoise

namespace NoisyAnswer

variable {N S : Type} {reading : JsonReading N S} (answer : NoisyAnswer reading)

def text : List Char :=
  ['\n'].intercalate (answer.before ++ answer.document :: answer.after) ++
    if answer.ended then ['\n'] else []

def tail : List (List Char) := answer.after ++ if answer.ended then [[]] else []

theorem text_eq : answer.text =
    ['\n'].intercalate (answer.before ++ answer.document :: answer.tail) := by
  unfold text tail
  cases answer.ended with
  | false => simp
  | true =>
    rw [if_pos rfl, if_pos rfl, ← List.cons_append, ← List.append_assoc,
      intercalate_concat_newline (by simp)]

theorem scans : Scans .outside answer.document .outside (itemStrings [answer.tree]) :=
  Writes.scans answer.json

theorem stripAnsi_document : stripAnsi answer.document = answer.document ∧
    AnsiState.after .plain answer.document = .plain := by
  refine AnsiState.strip_plain fun hesc => ?_
  rcases answer.scans.mem_or_le _ hesc with hmem | hle
  · exact absurd hmem (by decide)
  · exact absurd hle (by decide)

theorem notMem_map_stripAnsi {texts : List (List Char)} (htexts : ∀ text ∈ texts, '\n' ∉ text) :
    ∀ text ∈ texts.map stripAnsi, '\n' ∉ text := by
  intro text htext
  obtain ⟨raw, hraw, rfl⟩ := List.mem_map.mp htext
  exact fun hmem => htexts raw hraw (AnsiState.mem_of_mem_strip hmem)

section Lines

variable {answer} (h : ∀ line ∈ answer.before ++ answer.after, Contained line)

include h

theorem stripAnsi_text : stripAnsi answer.text =
    ['\n'].intercalate (answer.before.map stripAnsi ++ answer.document ::
      answer.tail.map stripAnsi) := by
  rw [text_eq, stripAnsi_intercalate, List.map_append, List.map_cons, answer.stripAnsi_document.1]
  intro line hline
  rcases List.mem_append.mp hline with hline | hline
  · exact (h line (List.mem_append_left _ hline)).ends
  · rcases List.mem_cons.mp hline with rfl | hline
    · exact answer.stripAnsi_document.2
    · rcases List.mem_append.mp hline with hline | hline
      · exact (h line (List.mem_append_right _ hline)).ends
      · split at hline
        · rw [List.mem_singleton.mp hline]
          rfl
        · cases hline

theorem splitOn_text : (stripAnsi answer.text).splitOn '\n' =
    answer.before.map stripAnsi ++ (answer.document.splitOn '\n' ++ answer.tail.map stripAnsi) := by
  have hbefore : ∀ line ∈ answer.before, '\n' ∉ line := fun line hline =>
    answer.whole line (List.mem_append_left _ hline)
  have htail : ∀ line ∈ answer.tail, '\n' ∉ line := by
    intro line hline
    rcases List.mem_append.mp hline with hline | hline
    · exact answer.whole line (List.mem_append_right _ hline)
    · split at hline
      · rw [List.mem_singleton.mp hline]
        exact List.not_mem_nil
      · cases hline
  rw [stripAnsi_text h, splitOn_intercalate_newline (by simp), List.flatMap_append,
    List.flatMap_cons, flatMap_splitOn_newline (notMem_map_stripAnsi hbefore),
    flatMap_splitOn_newline (notMem_map_stripAnsi htail)]

theorem isNoise_of_mem_tail {line : List Char}
    (hline : line ∈ readPieces (answer.tail.map stripAnsi)) : IsNoise line := by
  have hnoise : ∀ piece ∈ answer.after.map stripAnsi, IsNoise piece := by
    intro piece hpiece
    obtain ⟨raw, hraw, rfl⟩ := List.mem_map.mp hpiece
    exact (h raw (List.mem_append_right _ hraw)).noise
  unfold tail at hline
  cases hended : answer.ended with
  | true =>
    rw [hended, if_pos rfl, List.map_append, readPieces_append _ (by simp)] at hline
    rcases List.mem_append.mp hline with hline | hline
    · obtain ⟨piece, hpiece, rfl⟩ := List.mem_map.mp hline
      exact (hnoise piece hpiece).dropReturn
    · cases hline
  | false =>
    rw [hended, if_neg Bool.false_ne_true, List.append_nil] at hline
    rcases mem_readPieces hline with ⟨-, hpiece⟩ | ⟨piece, hpiece, rfl⟩
    · exact hnoise line hpiece
    · exact (hnoise piece (List.mem_of_mem_dropLast hpiece)).dropReturn

theorem after_eq_nil (htail : readPieces (answer.tail.map stripAnsi) = []) : answer.after = [] := by
  by_contra hafter
  obtain ⟨front, last, hafter⟩ := (List.eq_nil_or_concat answer.after).resolve_left hafter
  rw [List.concat_eq_append] at hafter
  have hlast : IsNoise (stripAnsi last) :=
    (h last (List.mem_append_right _ (by simp [hafter]))).noise
  unfold tail at htail
  cases hended : answer.ended with
  | true =>
    rw [hended, if_pos rfl, List.map_append, readPieces_append _ (by simp), hafter] at htail
    simp at htail
  | false =>
    rw [hended, if_neg Bool.false_ne_true, List.append_nil, hafter, List.map_append,
      readPieces_append _ (by simp)] at htail
    simp [readPieces, hlast.ne_nil] at htail

theorem exists_lines : ∃ front middle back,
    lines (stripAnsi answer.text) = front ++ (middle ++ back) ∧
      (∀ line ∈ front ++ back, IsNoise line) ∧
      IsJsonText reading (['\n'].intercalate middle) answer.tree ∧
      middle.any quotesLauncher = (answer.document.splitOn '\n').any quotesLauncher ∧
      (front ++ back = [] → answer.before = [] ∧ answer.after = []) := by
  let front := (answer.before.map stripAnsi).map dropReturn
  have hfront : ∀ line ∈ front, IsNoise line := by
    intro line hline
    obtain ⟨piece, hpiece, rfl⟩ := List.mem_map.mp hline
    obtain ⟨raw, hraw, rfl⟩ := List.mem_map.mp hpiece
    exact (h raw (List.mem_append_left _ hraw)).noise.dropReturn
  have hnil : front = [] → answer.before = [] := by simp [front]
  rw [lines_eq_readPieces, splitOn_text h, readPieces_append _ (by simp [List.splitOn_ne_nil])]
  by_cases htail : answer.tail = []
  · refine ⟨front, lines answer.document, [], ?_, ?_, ?_, ?_, ?_⟩
    · rw [htail, List.map_nil, List.append_nil, List.append_nil]
      rfl
    · rw [List.append_nil]
      exact hfront
    · rcases intercalate_lines answer.noReturn with heq | heq
      · rw [← heq]
        exact answer.json
      · rw [← isJsonText_append_newline, ← heq]
        exact answer.json
    · exact any_lines (by decide) quotesLauncher_dropReturn _
    · intro hempty
      rw [List.append_nil] at hempty
      exact ⟨hnil hempty, (List.append_eq_nil_iff.mp htail).1⟩
  · refine ⟨front, answer.document.splitOn '\n', readPieces (answer.tail.map stripAnsi), ?_, ?_, ?_,
      rfl, ?_⟩
    · rw [readPieces_append _ (by simpa using htail)]
      congr 2
      exact (List.map_congr_left fun piece hpiece =>
        dropReturn_of_mem_splitOn answer.noReturn hpiece).trans (List.map_id _)
    · intro line hline
      rcases List.mem_append.mp hline with hline | hline
      · exact hfront line hline
      · exact isNoise_of_mem_tail h hline
    · rw [List.intercalate_splitOn]
      exact answer.json
    · intro hempty
      obtain ⟨hbefore, hafter⟩ := List.append_eq_nil_iff.mp hempty
      exact ⟨hnil hbefore, after_eq_nil h hafter⟩

theorem json_of_clean (hbefore : answer.before = []) (hafter : answer.after = []) :
    IsJsonText reading (stripAnsi answer.text) answer.tree := by
  rw [stripAnsi_text h, hbefore, tail, hafter]
  cases answer.ended with
  | false =>
    simp only [List.map_nil, List.nil_append, Bool.false_eq_true, if_false,
      List.intercalate_singleton]
    exact answer.json
  | true =>
    rw [if_pos rfl, List.map_nil, List.nil_append, List.nil_append, List.map_singleton]
    have hended := @intercalate_concat_newline [answer.document] (List.cons_ne_nil _ _)
    rw [List.intercalate_singleton] at hended
    change IsJsonText reading (['\n'].intercalate ([answer.document] ++ [[]])) answer.tree
    rw [hended, isJsonText_append_newline]
    exact answer.json

end Lines

end NoisyAnswer

theorem not_json_of_lost {N S : Type} {reading : JsonReading N S} {middle : List (List Char)}
    {tree : JsonTree N S} (hjson : IsJsonText reading (['\n'].intercalate middle) tree)
    (hlost : ∃ line ∈ middle, quotesLauncher line = true) :
    ¬ IsJsonText reading (['\n'].intercalate (middle.filterMap keptLine)) tree := by
  intro hkept
  obtain ⟨counts, hcounts, hsum⟩ := Scans.of_intercalate (Writes.scans hjson)
  obtain ⟨left, hleft, -, hless⟩ := exists_counts_kept hcounts
  have hsame := (Scans.intercalate hleft).count_unique (Writes.scans hkept)
  rw [← hsum] at hsame
  exact absurd hsame (Nat.ne_of_lt (hless hlost))

theorem filterMap_keptLine {N S : Type} {reading : JsonReading N S} {middle : List (List Char)}
    {tree : JsonTree N S} (hjson : IsJsonText reading (['\n'].intercalate middle) tree)
    (hclean : ∀ line ∈ middle, quotesLauncher line = false) :
      middle.filterMap keptLine = middle := by
  obtain ⟨counts, hcounts, -⟩ := Scans.of_intercalate (Writes.scans hjson)
  clear hjson
  induction hcounts with
  | nil => rfl
  | cons hfirst _ ih =>
    rw [List.forall_mem_cons] at hclean
    rw [List.filterMap_cons, keptLine_of_scans hfirst, hclean.1, ih hclean.2]
    rfl

/-- The answer comes through if and only if no line of it quotes the launcher behind a beginning
that the guard does not know. -/
theorem noisy_answer_kept_iff {N S : Type} {reading : JsonReading N S}
    (answer : NoisyAnswer reading)
    (h : ∀ line ∈ answer.before ++ answer.after, Contained line) :
    IsJsonText reading (stripRecipeNoise answer.text) answer.tree ↔
      ∀ line ∈ answer.document.splitOn '\n', quotesLauncher line = false := by
  obtain ⟨front, middle, back, hlines, hnoise, hjson, hsame, hempty⟩ := NoisyAnswer.exists_lines h
  have hquotes : (∀ line ∈ answer.document.splitOn '\n', quotesLauncher line = false) ↔
      ∀ line ∈ middle, quotesLauncher line = false := by
    have hany (texts : List (List Char)) : (∀ line ∈ texts, quotesLauncher line = false) ↔
        texts.any quotesLauncher = false := by simp
    rw [hany, hany, hsame]
  rw [hquotes]
  unfold stripRecipeNoise
  dsimp only
  split
  next hdroppable =>
    have hdropped {side : List (List Char)} (hside : ∀ line ∈ side, IsNoise line) :
        side.filterMap keptLine = [] :=
      List.filterMap_eq_nil_iff.mpr fun line hline => (hside line hline).keptLine_eq
    rw [hlines, List.filterMap_append, List.filterMap_append,
      hdropped fun line hline => hnoise line (List.mem_append_left _ hline),
      hdropped fun line hline => hnoise line (List.mem_append_right _ hline), List.nil_append,
      List.append_nil]
    constructor
    · intro hkept line hline
      by_contra hquoting
      exact not_json_of_lost hjson ⟨line, hline, by simpa using hquoting⟩ hkept
    · intro hclean
      rw [filterMap_keptLine hjson hclean]
      exact hjson
  next hclean =>
    have hnone : ∀ line ∈ front ++ (middle ++ back), isDroppable line = false := by
      rw [← hlines]
      simpa using hclean
    have hsides : front ++ back = [] := by
      rw [List.eq_nil_iff_forall_not_mem]
      intro line hline
      have hdroppable := (hnoise line hline).isDroppable_eq
      have hmem : line ∈ front ++ (middle ++ back) := by
        rcases List.mem_append.mp hline with hline | hline
        · exact List.mem_append_left _ hline
        · exact List.mem_append_right _ (List.mem_append_right _ hline)
      rw [hnone line hmem] at hdroppable
      cases hdroppable
    refine iff_of_true (NoisyAnswer.json_of_clean h (hempty hsides).1 (hempty hsides).2) ?_
    intro line hline
    obtain ⟨k, hscans⟩ := Scans.line_of_intercalate (Writes.scans hjson) hline
    rw [← isDroppable_of_scans hscans]
    exact hnone line (List.mem_append_right _ (List.mem_append_left _ hline))

def plainReading : JsonReading (List Char) (List Char) := ⟨id, id⟩

theorem numberText_one : NumberText ['1'] :=
  @NumberText.mk [] ['1'] [] [] (.inl rfl) (.inr ⟨⟨by decide, by simp⟩, by decide⟩) (.inl rfl)
    (.inl rfl)

/-- A number in an array between two lines of noise. -/
def plainAnswer : NoisyAnswer plainReading where
  before := ["INFO start".toList]
  document := "[1]".toList
  after := ["Steps: 3".toList]
  ended := true
  tree := .array [.number ['1']]
  whole := by decide
  noise := by
    intro line hline
    rcases List.mem_pair.mp hline with rfl | rfl
    · exact .inl (by decide)
    · exact .inl (by decide)
  json :=
    @Writes.item _ _ _ [] _ [] _ nofun
      (.array (@Writes.item _ _ _ [] _ [] _ nofun (.number numberText_one) nofun)) nofun
  noReturn := by decide

theorem plain_answer_kept : (∀ line ∈ plainAnswer.before ++ plainAnswer.after, Contained line) ∧
    IsJsonText plainReading (stripRecipeNoise plainAnswer.text) plainAnswer.tree := by
  have hcontained : ∀ line ∈ plainAnswer.before ++ plainAnswer.after, Contained line := by
    intro line hline
    have hplain : ∀ line ∈ plainAnswer.before ++ plainAnswer.after,
        AnsiState.esc ∉ line := by decide
    exact contained_of_plain (hplain line hline) (plainAnswer.noise line hline)
  exact ⟨hcontained, (noisy_answer_kept_iff plainAnswer hcontained).mpr (by decide)⟩

/-- An array of a number and a string on lines of their own, the comma in front. -/
def quotingAnswer : NoisyAnswer plainReading where
  before := ["INFO start".toList]
  document := "[1\n,\"launching copilot binary=\"\n]".toList
  after := []
  ended := false
  tree := .array [.number ['1'], .string "launching copilot binary=".toList]
  whole := by decide
  noise line hline := by
    rw [List.mem_singleton.mp hline]
    exact .inl (by decide)
  json := by
    have hquoted : StringBody "launching copilot binary=".toList := .of_plain (by simp)
    have hbreak : IsBlank ['\n'] := by simp [IsBlank, jsonBlanks]
    have hitems : Writes plainReading (['1'] ++ ['\n'] ++ ',' ::
        ('"' :: ("launching copilot binary=".toList ++ ['"']) ++ ['\n']))
        (.items [.number ['1'], .string "launching copilot binary=".toList]) :=
      @Writes.items _ _ _ [] _ _ _ _ _ nofun (.number numberText_one) hbreak
        (@Writes.item _ _ _ [] _ _ _ nofun (.string hquoted) hbreak)
    exact @Writes.item _ _ _ [] _ [] _ nofun (.array hitems) nofun
  noReturn := by decide

/-- A noise line with a title for the terminal that does not end. -/
def swallowedAnswer : NoisyAnswer plainReading where
  before := ["INFO \x1b]0;copilot".toList]
  document := "\"ok\"".toList
  after := []
  ended := false
  tree := .string "ok".toList
  whole := by decide
  noise line hline := by
    rw [List.mem_singleton.mp hline]
    exact .inl (by decide)
  json := by
    have hbody : StringBody "ok".toList := .of_plain (by simp)
    exact @Writes.item _ _ plainReading [] _ [] _ nofun (.string hbody) nofun
  noReturn := by decide

theorem not_json_of_structural {text : List Char} {tree : JsonTree (List Char) (List Char)}
    (hstructural : ∀ c ∈ text, c ∈ structuralChars) (hstrings : itemStrings [tree] ≠ 0) :
    ¬ IsJsonText plainReading text tree := fun hjson =>
  hstrings ((Scans.of_structural hstructural).count_unique (Writes.scans hjson)).symm

/-- One answer loses the line that quotes the launcher, another is taken for part of a title. -/
theorem noisy_answers_damaged :
    ((∀ line ∈ quotingAnswer.before ++ quotingAnswer.after, Contained line) ∧
      ¬ IsJsonText plainReading (stripRecipeNoise quotingAnswer.text) quotingAnswer.tree) ∧
    (∀ line ∈ swallowedAnswer.document.splitOn '\n', quotesLauncher line = false) ∧
      ¬ IsJsonText plainReading (stripRecipeNoise swallowedAnswer.text) swallowedAnswer.tree := by
  have hquoting : stripRecipeNoise quotingAnswer.text = ['[', '1', '\n', ']'] := by decide
  have hswallowed : stripRecipeNoise swallowedAnswer.text = [] := by decide
  refine ⟨⟨?_, ?_⟩, by decide, ?_⟩
  · intro line hline
    have hplain : ∀ line ∈ quotingAnswer.before ++ quotingAnswer.after, AnsiState.esc ∉ line := by
      decide
    exact contained_of_plain (hplain line hline) (quotingAnswer.noise line hline)
  · rw [hquoting]
    exact not_json_of_structural (by simp [structuralChars, jsonBlanks]) (by decide)
  · rw [hswallowed]
    exact not_json_of_structural (by simp) (by decide)

end Simard.RecipeOutput
