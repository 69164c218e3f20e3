import Simard.Library.Text

/-! A text cut into words at a separator, and where another text of several words stands in
it: its first word at the end of a word, its last at the beginning of one, and those between
as whole words. -/
namespace Simard.Library

variable {α : Type} {sep : α}

theorem intercalate_append_cons (before word : List α) (rest : List (List α)) :
    [sep].intercalate ((before ++ word) :: rest) = before ++ [sep].intercalate (word :: rest) := by
  cases rest <;> simp

theorem intercalate_suffix (sep : α) (before words : List (List α)) :
    [sep].intercalate words <:+ [sep].intercalate (before ++ words) := by
  induction before with
  | nil => exact List.suffix_rfl
  | cons word before ih =>
    cases htail : before ++ words with
    | nil =>
      obtain ⟨rfl, rfl⟩ := List.append_eq_nil_iff.mp htail
      exact List.nil_suffix
    | cons second rest =>
      rw [htail] at ih
      rw [List.cons_append, htail, List.intercalate_cons_cons]
      exact ih.trans (List.suffix_append _ _)

theorem intercalate_begins (sep : α) (words : List (List α)) (last rest : List α)
    (after : List (List α)) :
    [sep].intercalate (words ++ [last]) <+:
    [sep].intercalate (words ++ (last ++ rest) :: after) := by
  induction words with
  | nil =>
    rw [List.nil_append, List.nil_append, intercalate_append_cons, List.intercalate_singleton]
    exact List.prefix_append _ _
  | cons word words ih =>
    rw [List.cons_append, List.cons_append, List.intercalate_cons_of_ne_nil (by simp),
      List.intercalate_cons_of_ne_nil (by simp), List.prefix_append_right_inj]
    exact ih

variable [DecidableEq α]

theorem notMem_of_mem_splitOn {text piece : List α} (h : piece ∈ text.splitOn sep) :
    sep ∉ piece := by
  induction text generalizing piece with
  | nil =>
    rw [List.splitOn_nil, List.mem_singleton] at h
    rw [h]
    exact List.not_mem_nil
  | cons d text ih =>
    rw [List.splitOn_cons_eq_if_modifyHead] at h
    split at h
    · rcases List.mem_cons.mp h with rfl | h
      · exact List.not_mem_nil
      · exact ih h
    · next hd =>
      cases hpieces : text.splitOn sep with
      | nil => exact absurd hpieces (List.splitOn_ne_nil sep text)
      | cons first pieces =>
        rw [hpieces] at ih h
        rw [List.modifyHead_cons, List.mem_cons] at h
        rcases h with rfl | h
        · rw [List.mem_cons, not_or]
          exact ⟨fun heq => hd (beq_iff_eq.mpr heq.symm), ih List.mem_cons_self⟩
        · exact ih (List.mem_cons_of_mem first h)

/-- Cutting a text takes nothing away but separators. -/
theorem count_flatten_splitOn {c : α} (h : c ≠ sep) (text : List α) :
    (text.splitOn sep).flatten.count c = text.count c := by
  induction text with
  | nil => rfl
  | cons d text ih =>
    rw [List.splitOn_cons_eq_if_modifyHead]
    split
    next hd =>
      rw [List.flatten_cons, List.nil_append, ih, beq_iff_eq.mp hd,
        List.count_cons_of_ne (Ne.symm h)]
    next =>
      cases hpieces : text.splitOn sep with
      | nil => exact absurd hpieces (List.splitOn_ne_nil sep text)
      | cons piece pieces =>
        rw [hpieces, List.flatten_cons] at ih
        rw [List.modifyHead_cons, List.flatten_cons, List.cons_append, List.count_cons,
          List.count_cons, ih]

theorem splitOn_intercalate_parts {parts : List (List α)} (h : parts ≠ []) :
    ([sep].intercalate parts).splitOn sep = parts.flatMap (·.splitOn sep) := by
  induction parts with
  | nil => exact absurd rfl h
  | cons first rest ih =>
    cases rest with
    | nil => simp
    | cons second rest =>
      rw [List.intercalate_cons_cons, List.append_assoc, List.singleton_append,
        List.splitOn_append_cons_self, ih (by simp)]
      rfl

/-- The words stand side by side: the first one ends a word, the last one begins a word, and
what is between them is there word for word. -/
def SideBySide (pattern words : List (List α)) : Prop :=
  ∃ first mid last before u v after, pattern = first :: (mid ++ [last]) ∧
    words = before ++ u :: (mid ++ v :: after) ∧ first <:+ u ∧ last <+: v

/-- Where two texts meet, the last word of the one goes on with the first of the other. -/
theorem splitOn_append {left right last first : List α} {front rest : List (List α)}
    (hleft : left.splitOn sep = front ++ [last]) (hright : right.splitOn sep = first :: rest) :
    (left ++ right).splitOn sep = front ++ (last ++ first) :: rest := by
  induction left generalizing front last with
  | nil =>
    obtain ⟨rfl, rfl⟩ : front = [] ∧ last = [] := by
      simpa [List.singleton_eq_append_iff] using hleft
    exact hright
  | cons c left ih =>
    rw [List.splitOn_cons_eq_if_modifyHead] at hleft
    rw [List.cons_append, List.splitOn_cons_eq_if_modifyHead]
    by_cases hc : (c == sep) = true
    · rw [if_pos hc] at hleft ⊢
      cases front with
      | nil => exact absurd (List.cons.inj hleft).2 (List.splitOn_ne_nil sep left)
      | cons piece front =>
        obtain ⟨rfl, htail⟩ := List.cons.inj hleft
        rw [ih htail]
        rfl
    · rw [if_neg hc] at hleft ⊢
      obtain ⟨piece, pieces, hpieces⟩ := List.exists_cons_of_ne_nil (List.splitOn_ne_nil sep left)
      rw [hpieces, List.modifyHead_cons] at hleft
      cases front with
      | nil =>
        obtain ⟨rfl, rfl⟩ := List.cons.inj hleft
        rw [@ih piece [] hpieces]
        rfl
      | cons head front =>
        obtain ⟨rfl, rfl⟩ := List.cons.inj hleft
        rw [@ih last (piece :: front) hpieces]
        rfl

theorem exists_splitOn_concat (sep : α) (text : List α) :
    ∃ front last, text.splitOn sep = front ++ [last] :=
  ⟨_, _, (List.dropLast_append_getLast (List.splitOn_ne_nil sep text)).symm⟩

theorem exists_splitOn_cons (sep : α) (text : List α) :
    ∃ first rest, text.splitOn sep = first :: rest :=
  List.exists_cons_of_ne_nil (List.splitOn_ne_nil sep text)

theorem splitOn_words_append {mid : List (List α)} (hmid : ∀ word ∈ mid, sep ∉ word)
    (last text : List α) :
    ([sep].intercalate (mid ++ [last]) ++ text).splitOn sep =
      mid ++ (last ++ text).splitOn sep := by
  induction mid with
  | nil => simp
  | cons word mid ih =>
    rw [List.cons_append, List.intercalate_cons_of_ne_nil (by simp), List.append_assoc,
      List.append_assoc, List.singleton_append, List.splitOn_append_cons_self_of_not_mem
        (hmid word List.mem_cons_self),
          ih fun word hword => hmid word (List.mem_cons_of_mem _ hword)]
    rfl

theorem infix_iff_sideBySide {pattern text : List α} (h : sep ∈ pattern) :
    pattern <:+: text ↔ SideBySide (pattern.splitOn sep) (text.splitOn sep) := by
  constructor
  · rintro ⟨front, back, rfl⟩
    obtain ⟨first, rest, rfl, hfirst⟩ := List.eq_append_cons_of_mem h
    obtain ⟨mid, last, hrest⟩ := exists_splitOn_concat sep rest
    have hjoined : rest = [sep].intercalate (mid ++ [last]) := by
      rw [← hrest, List.intercalate_splitOn]
    obtain ⟨before, u, hu⟩ := exists_splitOn_concat sep front
    have hcut (word : List α) (hword : word ∈ mid ++ [last]) : sep ∉ word :=
      notMem_of_mem_splitOn (hrest ▸ hword)
    obtain ⟨v, after, hv⟩ := exists_splitOn_cons sep back
    have hends := splitOn_append hu (List.splitOn_eq_singleton hfirst)
    have hbegins := @splitOn_append _ sep _ last back last v [] after
      (List.splitOn_eq_singleton (hcut last (by simp))) hv
    refine ⟨first, mid, last, before, u ++ first, last ++ v, after, ?_, ?_, ⟨u, rfl⟩, ⟨v, rfl⟩⟩
    · rw [List.splitOn_append_cons_self_of_not_mem hfirst, hrest]
    · rw [← List.append_assoc, List.append_assoc, List.cons_append, List.splitOn_append_cons_self,
        hends, hjoined, splitOn_words_append ?_, hbegins]
      · simp
      · intro word hword
        exact hcut word (List.mem_append_left _ hword)
  · rintro ⟨first, mid, last, before, _, _, after, hpattern, htext, ⟨u, rfl⟩, ⟨v, rfl⟩⟩
    have hpattern' : [sep].intercalate (first :: (mid ++ [last])) = pattern := by
      rw [← hpattern, List.intercalate_splitOn]
    have htext' : [sep].intercalate (before ++ (u ++ first) :: (mid ++ (last ++ v) :: after)) =
        text := by
      rw [← htext, List.intercalate_splitOn]
    rw [← hpattern', ← htext']
    have hbegins := intercalate_begins sep (first :: mid) last v after
    have hends := intercalate_suffix sep before ((u ++ first) :: (mid ++ (last ++ v) :: after))
    rw [intercalate_append_cons] at hends
    exact (hbegins.isInfix.trans (List.suffix_append u _).isInfix).trans hends.isInfix

/-- The words end as the list does: the first one ends a word, and those after it are whole. -/
def EndsIn (pattern words : List (List α)) : Prop :=
  ∃ first mid before u, pattern = first :: mid ∧ words = before ++ u :: mid ∧ first <:+ u

/-- The words begin as the list does: those before the last one are whole, which begins a word. -/
def BeginsIn (pattern words : List (List α)) : Prop :=
  ∃ mid last v after, pattern = mid ++ [last] ∧ words = mid ++ v :: after ∧ last <+: v

/-- The words begin at the end of one part, and go on over others: whole ones, and the beginning of
the last. -/
def SpreadOver {β : Type*} (cut : β → List (List α)) (pattern : List (List α)) (part : β)
    (others : List β) : Prop :=
  ∃ front back mids last, others = mids ++ [last] ∧ pattern = front ++ (mids.flatMap cut ++ back) ∧
    EndsIn front (cut part) ∧ BeginsIn back (cut last)

section Parts

variable {α : Type} {β : Type*} {pattern left right : List (List α)} {cut : β → List (List α)}

theorem not_beginsIn_nil : ¬ BeginsIn pattern [] := by
  rintro ⟨mid, last, v, after, -, hwords, -⟩
  simp at hwords

theorem not_sideBySide_nil : ¬ SideBySide pattern [] := by
  rintro ⟨first, mid, last, before, u, v, after, -, hwords, -, -⟩
  simp at hwords

theorem beginsIn_append : BeginsIn pattern (left ++ right) ↔
    BeginsIn pattern left ∨ ∃ back, pattern = left ++ back ∧ BeginsIn back right := by
  constructor
  · rintro ⟨mid, last, v, after, rfl, hwords, hlast⟩
    rcases List.append_eq_append_iff.mp hwords with ⟨more, rfl, hright⟩ | ⟨more, rfl, hright⟩
    · exact .inr ⟨more ++ [last], by simp, more, last, v, after, rfl, hright, hlast⟩
    · cases more with
      | nil => exact .inr ⟨[last], by simp, [], last, v, after, rfl, hright.symm, hlast⟩
      | cons w more =>
        obtain ⟨rfl, -⟩ := List.cons.inj hright
        exact .inl ⟨mid, last, _, more, rfl, rfl, hlast⟩
  · rintro (⟨mid, last, v, after, rfl, rfl, hlast⟩ | ⟨_, rfl, mid, last, v, after, rfl, rfl, hlast⟩)
    · exact ⟨mid, last, v, after ++ right, rfl, by simp, hlast⟩
    · exact ⟨left ++ mid, last, v, after, by simp, by simp, hlast⟩

theorem sideBySide_append : SideBySide pattern (left ++ right) ↔
    SideBySide pattern left ∨ SideBySide pattern right ∨
      ∃ front back, pattern = front ++ back ∧ EndsIn front left ∧ BeginsIn back right := by
  constructor
  · rintro ⟨first, mid, last, before, u, v, after, rfl, hwords, hfirst, hlast⟩
    rcases List.append_eq_append_iff.mp hwords with ⟨more, rfl, hright⟩ | ⟨more, rfl, hright⟩
    · exact .inr (.inl ⟨first, mid, last, more, u, v, after, rfl, hright, hfirst, hlast⟩)
    · cases more with
      | nil =>
        exact .inr (.inl ⟨first, mid, last, [], u, v, after, rfl, hright.symm, hfirst, hlast⟩)
      | cons w more =>
        obtain ⟨rfl, hrest⟩ := List.cons.inj hright
        have hjoined : BeginsIn (mid ++ [last]) (more ++ right) :=
          ⟨mid, last, v, after, rfl, hrest.symm, hlast⟩
        rcases beginsIn_append.mp hjoined with ⟨mid', last', v', after', hmid, rfl, hlast'⟩ | hcut
        · obtain ⟨rfl, hsame⟩ := List.append_inj' hmid rfl
          obtain rfl := List.singleton_inj.mp hsame
          exact .inl ⟨first, mid, last, before, _, v', after', rfl, rfl, hfirst, hlast'⟩
        · obtain ⟨back, hmid, hback⟩ := hcut
          exact .inr (.inr ⟨first :: more, back, by rw [hmid]; rfl,
            ⟨first, more, before, _, rfl, rfl, hfirst⟩, hback⟩)
  · rintro (hleft | hright | ⟨front, back, rfl, hfront, hback⟩)
    · obtain ⟨first, mid, last, before, u, v, after, rfl, rfl, hfirst, hlast⟩ := hleft
      exact ⟨first, mid, last, before, u, v, after ++ right, rfl, by simp, hfirst, hlast⟩
    · obtain ⟨first, mid, last, before, u, v, after, rfl, rfl, hfirst, hlast⟩ := hright
      exact ⟨first, mid, last, left ++ before, u, v, after, rfl, by simp, hfirst, hlast⟩
    · obtain ⟨first, mid, before, u, rfl, rfl, hfirst⟩ := hfront
      obtain ⟨mid', last, v, after, rfl, rfl, hlast⟩ := hback
      exact ⟨first, mid ++ mid', last, before, u, v, after, by simp, by simp, hfirst, hlast⟩

theorem beginsIn_flatMap {parts : List β} : BeginsIn pattern (parts.flatMap cut) ↔
    ∃ mids last rest back, parts = mids ++ last :: rest ∧ pattern = mids.flatMap cut ++ back ∧
      BeginsIn back (cut last) := by
  induction parts generalizing pattern with
  | nil => simp [not_beginsIn_nil]
  | cons part parts ih =>
    rw [List.flatMap_cons, beginsIn_append]
    constructor
    · rintro (hfirst | ⟨back, rfl, hback⟩)
      · exact ⟨[], part, parts, pattern, rfl, rfl, hfirst⟩
      · obtain ⟨mids, last, rest, back', rfl, rfl, hlast⟩ := ih.mp hback
        exact ⟨part :: mids, last, rest, back', rfl, by simp, hlast⟩
    · rintro ⟨mids, last, rest, back, hparts, rfl, hlast⟩
      cases mids with
      | nil =>
        obtain ⟨rfl, -⟩ := List.cons.inj hparts
        exact .inl hlast
      | cons mid mids =>
        obtain ⟨rfl, rfl⟩ := List.cons.inj hparts
        exact .inr ⟨mids.flatMap cut ++ back, by simp,
          ih.mpr ⟨mids, last, rest, back, rfl, rfl, hlast⟩⟩

/-- Where the words stand side by side in the parts one after the other, one part holds them or they
are spread over neighbours. -/
theorem sideBySide_flatMap {parts : List β} : SideBySide pattern (parts.flatMap cut) ↔
    (∃ part ∈ parts, SideBySide pattern (cut part)) ∨
      ∃ part others, (part :: others) <:+: parts ∧ SpreadOver cut pattern part others := by
  induction parts with
  | nil => simp [not_sideBySide_nil]
  | cons part parts ih =>
    have hspread : (∃ front back, pattern = front ++ back ∧ EndsIn front (cut part) ∧
        BeginsIn back (parts.flatMap cut)) ↔
          ∃ others, others <+: parts ∧ SpreadOver cut pattern part others := by
      simp only [beginsIn_flatMap]
      constructor
      · rintro ⟨front, back, rfl, hfront, mids, last, rest, back', rfl, rfl, hlast⟩
        exact ⟨mids ++ [last], ⟨rest, by simp⟩, front, back', mids, last, rfl, rfl, hfront, hlast⟩
      · rintro ⟨others, ⟨rest, rfl⟩, front, back, mids, last, rfl, rfl, hfront, hlast⟩
        exact ⟨front, _, rfl, hfront, mids, last, rest, back, by simp, rfl, hlast⟩
    rw [List.flatMap_cons, sideBySide_append, ih, hspread]
    simp only [List.infix_cons_iff, List.cons_prefix_cons, List.exists_mem_cons_iff]
    constructor
    · rintro (hpart | (hinside | ⟨a, others, hinfix, hover⟩) | ⟨others, hothers, hover⟩)
      · exact .inl (.inl hpart)
      · exact .inl (.inr hinside)
      · exact .inr ⟨a, others, .inr hinfix, hover⟩
      · exact .inr ⟨part, others, .inl ⟨rfl, hothers⟩, hover⟩
    · rintro ((hpart | hinside) | ⟨a, others, ⟨rfl, hothers⟩ | hinfix, hover⟩)
      · exact .inl hpart
      · exact .inr (.inl (.inl hinside))
      · exact .inr (.inr ⟨others, hothers, hover⟩)
      · exact .inr (.inl (.inr ⟨a, others, hinfix, hover⟩))

end Parts

end Simard.Library
