import Simard.Library.Bytes

/-! Splitting text at a separator, the first one or the last one, and quoting
text for a message. -/
namespace Simard.Library

def splitAtFirst (c : Char) : List Char → Option (List Char × List Char)
  | [] => none
  | d :: rest =>
      if d = c then some ([], rest)
      else (splitAtFirst c rest).map fun p => (d :: p.1, p.2)

def splitAtLast (c : Char) (l : List Char) : Option (List Char × List Char) :=
  (splitAtFirst c l.reverse).map fun p => (p.2.reverse, p.1.reverse)

def splitOnce (c : Char) (s : String) : Option (String × String) :=
  (splitAtFirst c s.toList).map fun p => (String.ofList p.1, String.ofList p.2)

def rsplitOnce (c : Char) (s : String) : Option (String × String) :=
  (splitAtLast c s.toList).map fun p => (String.ofList p.1, String.ofList p.2)

theorem splitAtFirst_of_notMem {c : Char} {l : List Char} (h : c ∉ l) :
    splitAtFirst c l = none := by
  induction l with
  | nil => rfl
  | cons d rest ih =>
    simp only [List.mem_cons, not_or] at h
    simp [splitAtFirst, Ne.symm h.1, ih h.2]

theorem splitAtFirst_append {c : Char} {l : List Char} (h : c ∉ l) (rest : List Char) :
    splitAtFirst c (l ++ c :: rest) = some (l, rest) := by
  induction l with
  | nil => simp [splitAtFirst]
  | cons d l ih =>
    simp only [List.mem_cons, not_or] at h
    simp [splitAtFirst, Ne.symm h.1, ih h.2]

theorem splitAtFirst_eq_some {c : Char} {l before after : List Char} :
    splitAtFirst c l = some (before, after) ↔ l = before ++ c :: after ∧ c ∉ before := by
  constructor
  · intro h
    induction l generalizing before with
    | nil => cases h
    | cons d rest ih =>
      unfold splitAtFirst at h
      split at h
      next hd =>
        cases h
        simp [hd]
      next hd =>
        obtain ⟨⟨first, last⟩, hsplit, hpair⟩ := Option.map_eq_some_iff.mp h
        cases hpair
        obtain ⟨rfl, hfirst⟩ := ih hsplit
        simp [hfirst, Ne.symm hd]
  · rintro ⟨rfl, h⟩
    exact splitAtFirst_append h after

theorem splitAtLast_eq_some {c : Char} {l before after : List Char} :
    splitAtLast c l = some (before, after) ↔ l = before ++ c :: after ∧ c ∉ after := by
  unfold splitAtLast
  constructor
  · intro h
    obtain ⟨⟨first, last⟩, hsplit, hpair⟩ := Option.map_eq_some_iff.mp h
    cases hpair
    obtain ⟨hl, hfirst⟩ := splitAtFirst_eq_some.mp hsplit
    exact ⟨by simpa using congrArg List.reverse hl, by simpa using hfirst⟩
  · rintro ⟨rfl, h⟩
    have hsplit : splitAtFirst c (after.reverse ++ c :: before.reverse) =
        some (after.reverse, before.reverse) := splitAtFirst_append (by simpa using h) _
    simp [hsplit]

theorem splitOnce_eq_some {c : Char} {s before after : String} :
    splitOnce c s = some (before, after) ↔
      s.toList = before.toList ++ c :: after.toList ∧ c ∉ before.toList := by
  unfold splitOnce
  rw [← splitAtFirst_eq_some, Option.map_eq_some_iff]
  constructor
  · rintro ⟨⟨first, last⟩, hsplit, hpair⟩
    cases hpair
    simpa using hsplit
  · intro hsplit
    exact ⟨_, hsplit, by simp⟩

theorem rsplitOnce_eq_some {c : Char} {s before after : String} :
    rsplitOnce c s = some (before, after) ↔
      s.toList = before.toList ++ c :: after.toList ∧ c ∉ after.toList := by
  unfold rsplitOnce
  rw [← splitAtLast_eq_some, Option.map_eq_some_iff]
  constructor
  · rintro ⟨⟨first, last⟩, hsplit, hpair⟩
    cases hpair
    simpa using hsplit
  · intro hsplit
    exact ⟨_, hsplit, by simp⟩

theorem splitOnce_of_notMem {c : Char} {s : String} (h : c ∉ s.toList) : splitOnce c s = none := by
  unfold splitOnce
  rw [splitAtFirst_of_notMem h]
  rfl

/-- Two ways to cut one text at a separator that neither first part holds agree. -/
theorem append_sep_inj {c : Char} {l l' rest rest' : List Char} (h : c ∉ l) (h' : c ∉ l')
    (heq : l ++ c :: rest = l' ++ c :: rest') : l = l' ∧ rest = rest' := by
  have hsplit : some (l, rest) = some (l', rest') := by
    rw [← splitAtFirst_append h, heq, splitAtFirst_append h']
  cases hsplit
  exact ⟨rfl, rfl⟩

def containsText (needle : List Char) : List Char → Bool
  | [] => needle.isEmpty
  | c :: rest => needle.isPrefixOf (c :: rest) || containsText needle rest

theorem containsText_iff {needle text : List Char} :
    containsText needle text = true ↔ needle <:+: text := by
  induction text with
  | nil => simp [containsText]
  | cons c rest ih => simp [containsText, ih, List.infix_cons_iff]

theorem containsText_separated {needle : List Char} {c : Char} (hc : c ∉ needle)
    (left right : List Char) :
    containsText needle (left ++ c :: right) =
      (containsText needle left || containsText needle right) := by
  rw [Bool.eq_iff_iff, Bool.or_eq_true, containsText_iff, containsText_iff, containsText_iff]
  constructor
  · rintro ⟨before, after, heq⟩
    rw [List.append_assoc] at heq
    obtain ⟨mid, rfl, hmid⟩ | ⟨mid, rfl, hmid⟩ := List.append_eq_append_iff.mp heq
    · obtain ⟨tail, rfl, -⟩ | ⟨tail, hneedle, htail⟩ := List.append_eq_append_iff.mp hmid
      · exact .inl ⟨before, tail, by simp⟩
      · cases tail with
        | nil => exact .inl ⟨before, [], by simpa using hneedle⟩
        | cons d tail =>
          cases htail
          exact absurd (by simp [hneedle]) hc
    · cases mid with
      | nil =>
        cases needle with
        | nil => exact .inr List.nil_infix
        | cons d needle =>
          cases hmid
          exact absurd List.mem_cons_self hc
      | cons d mid =>
        cases hmid
        exact .inr ⟨mid, after, by simp⟩
  · rintro (⟨before, after, rfl⟩ | ⟨before, after, rfl⟩)
    · exact ⟨before, after ++ c :: right, by simp⟩
    · exact ⟨left ++ c :: before, after, by simp⟩

def stripPrefix (beginning text : List Char) : Option (List Char) :=
  if beginning.isPrefixOf text then some (text.drop beginning.length) else none

theorem stripPrefix_eq_some {beginning text rest : List Char} :
    stripPrefix beginning text = some rest ↔ text = beginning ++ rest := by
  unfold stripPrefix
  constructor
  · intro h
    split at h
    next hbegins =>
      obtain ⟨tail, rfl⟩ := List.isPrefixOf_iff_prefix.mp hbegins
      rw [List.drop_left] at h
      cases h
      rfl
    next => cases h
  · rintro rfl
    simp

def afterFirst (needle : List Char) : List Char → Option (List Char)
  | [] => stripPrefix needle []
  | c :: rest => (stripPrefix needle (c :: rest)).or (afterFirst needle rest)

@[simp] theorem afterFirst_append (needle rest : List Char) :
    afterFirst needle (needle ++ rest) = some rest := by
  have hfound : stripPrefix needle (needle ++ rest) = some rest := stripPrefix_eq_some.mpr rfl
  cases htext : needle ++ rest with
  | nil =>
    rw [htext] at hfound
    exact hfound
  | cons c tail =>
    rw [htext] at hfound
    rw [afterFirst, hfound, Option.some_or]

theorem afterFirst_skip {c : Char} {needle before : List Char} (h : c ∉ before) (rest : List Char) :
    afterFirst (c :: needle) (before ++ rest) = afterFirst (c :: needle) rest := by
  induction before with
  | nil => rfl
  | cons d before ih =>
    have hd : c ≠ d := fun heq => h (heq ▸ List.mem_cons_self)
    have hmissing : stripPrefix (c :: needle) (d :: (before ++ rest)) = none := by
      simp [stripPrefix, List.isPrefixOf, hd]
    rw [List.cons_append, afterFirst, hmissing, Option.none_or]
    exact ih fun hmem => h (List.mem_cons_of_mem d hmem)

/-- A text is found where it is put, if it does not stand or begin to stand before. -/
theorem afterFirst_clear {needle before : List Char}
    (h : containsText needle (before ++ needle.dropLast) = false) (rest : List Char) :
    afterFirst needle (before ++ (needle ++ rest)) = some rest := by
  induction before with
  | nil => exact afterFirst_append needle rest
  | cons c before ih =>
    rw [List.cons_append, containsText, Bool.or_eq_false_iff] at h
    have hmissing : stripPrefix needle (c :: (before ++ (needle ++ rest))) = none := by
      rw [Option.eq_none_iff_forall_ne_some]
      intro tail htail
      -- so long a beginning ends before the last character of the text put there
      have hbegins : needle <+: c :: (before ++ (needle ++ rest)) :=
        ⟨tail, (stripPrefix_eq_some.mp htail).symm⟩
      have hshort : c :: (before ++ needle.dropLast) <+: c :: (before ++ (needle ++ rest)) := by
        rw [List.cons_prefix_cons, List.prefix_append_right_inj]
        exact ⟨rfl, (List.dropLast_prefix needle).trans (List.prefix_append needle rest)⟩
      have hlength : needle.length ≤ (c :: (before ++ needle.dropLast)).length := by
        simp
        omega
      have hfound := List.prefix_of_prefix_length_le hbegins hshort hlength
      rw [← List.isPrefixOf_iff_prefix, h.1] at hfound
      cases hfound
    rw [List.cons_append, afterFirst, hmissing, Option.none_or]
    exact ih h.2

def trimMatches (marked : Char → Bool) (text : List Char) : List Char :=
  ((text.dropWhile marked).reverse.dropWhile marked).reverse

theorem trimMatches_idempotent (marked : Char → Bool) (text : List Char) :
    trimMatches marked (trimMatches marked text) = trimMatches marked text := by
  change List.rdropWhile marked
    ((List.rdropWhile marked (text.dropWhile marked)).dropWhile marked) =
    List.rdropWhile marked (text.dropWhile marked)
  have hstart : (List.rdropWhile marked (text.dropWhile marked)).dropWhile marked =
      List.rdropWhile marked (text.dropWhile marked) := by
    rw [List.dropWhile_eq_self_iff]
    intro hlength
    have hshort := (List.rdropWhile_prefix marked (text.dropWhile marked)).length_le
    rw [(List.rdropWhile_prefix marked (text.dropWhile marked)).getElem hlength]
    exact List.dropWhile_get_zero_not marked text (hlength.trans_le hshort)
  rw [hstart, List.rdropWhile_idempotent]

def asciiLowercase (s : String) : List Char := s.toList.map Char.toLower

def isWhitespace (c : Char) : Bool :=
  let n := c.toNat
  (9 ≤ n && n ≤ 13) || n = 0x20 || n = 0x85 || n = 0xA0 || n = 0x1680 ||
    (0x2000 ≤ n && n ≤ 0x200A) || n = 0x2028 || n = 0x2029 || n = 0x202F || n = 0x205F || n = 0x3000

def trimStart (l : List Char) : List Char := l.dropWhile isWhitespace

theorem trimStart_trimStart (line : List Char) : trimStart (trimStart line) = trimStart line :=
  List.dropWhile_idempotent isWhitespace line

def trim (l : List Char) : List Char := (trimStart (trimStart l).reverse).reverse

def splitWhitespace (l : List Char) : List (List Char) :=
  (l.splitOnP isWhitespace).filter (· ≠ [])

def dropReturn (line : List Char) : List Char :=
  if line.getLast? = some '\r' then line.dropLast else line

/-- The lines of a text; a final line break ends the last line and starts none, and a last line that
none ends keeps its carriage return. -/
def lines (l : List Char) : List (List Char) :=
  let pieces := l.splitOn '\n'
  pieces.dropLast.map dropReturn ++ (pieces.getLast?.filter (· ≠ [])).toList

def parseDigits (l : List Char) : Option Nat :=
  if l ≠ [] ∧ l.all Char.isDigit then some (l.foldl (fun n c => 10 * n + (c.toNat - 48)) 0)
  else none

/-- An unsigned number below `2 ^ bits`, a plus sign allowed. -/
def parseUnsigned (bits : Nat) (l : List Char) : Option Nat :=
  (parseDigits (if l.head? = some '+' then l.tail else l)).filter (· < 2 ^ bits)

/-- A number in two's complement range, a sign allowed. -/
def parseSigned (bits : Nat) (l : List Char) : Option Int :=
  if l.head? = some '-' then
    ((parseDigits l.tail).map fun n => -(n : Int)).filter (-(2 ^ (bits - 1) : Int) ≤ ·)
  else ((parseDigits (if l.head? = some '+' then l.tail else l)).map fun n => (n : Int)).filter
    (· < (2 ^ (bits - 1) : Int))

theorem parseDigits_toDigits (n : Nat) : parseDigits (Nat.toDigits 10 n) = some n := by
  have hdigits : (Nat.toDigits 10 n).all Char.isDigit := by
    rw [List.all_eq_true]
    intro c hc
    exact Nat.isDigit_of_mem_toDigits (by decide) (by decide) hc
  unfold parseDigits
  rw [if_pos ⟨Nat.toDigits_ne_nil, hdigits⟩]
  exact congrArg some Nat.ofDigitChars_ten_toDigits

theorem parseUnsigned_toDigits {bits n : Nat} (h : n < 2 ^ bits) :
    parseUnsigned bits (Nat.toDigits 10 n) = some n := by
  have hsign : (Nat.toDigits 10 n).head? ≠ some '+' := by
    intro hplus
    have hdigit := @Nat.isDigit_of_mem_toDigits 10 n '+' (by decide) (by decide)
      (List.mem_of_mem_head? hplus)
    exact absurd hdigit (by decide)
  unfold parseUnsigned
  rw [if_neg hsign, parseDigits_toDigits]
  simpa using h

theorem trim_of_solid {l : List Char} (h : ∀ c ∈ l, isWhitespace c = false) : trim l = l := by
  have hstart (l : List Char) (h : ∀ c ∈ l, isWhitespace c = false) : trimStart l = l := by
    cases l with
    | nil => rfl
    | cons c rest => simp [trimStart, List.dropWhile, h c List.mem_cons_self]
  unfold trim
  rw [hstart l h, hstart l.reverse (fun c hc => h c (List.mem_reverse.mp hc)), List.reverse_reverse]

/-- A text that is read as a number is digits, after a plus sign or not. -/
theorem mem_of_parseUnsigned {bits n : Nat} {text : List Char}
    (h : parseUnsigned bits text = some n) : ∀ c ∈ text, c = '+' ∨ c.isDigit := by
  have hdigits : ∀ c ∈ if text.head? = some '+' then text.tail else text, c.isDigit := by
    have hparsed := (Option.filter_eq_some_iff.mp h).1
    generalize (if text.head? = some '+' then text.tail else text) = digits at hparsed ⊢
    unfold parseDigits at hparsed
    split at hparsed
    next hall => exact List.all_eq_true.mp hall.2
    next => cases hparsed
  intro c hc
  cases text with
  | nil => cases hc
  | cons first rest =>
    rcases List.mem_cons.mp hc with rfl | hc
    · by_cases hplus : c = '+'
      · exact .inl hplus
      · rw [List.head?_cons, if_neg (by simpa using hplus)] at hdigits
        exact .inr (hdigits c List.mem_cons_self)
    · refine .inr ?_
      split at hdigits
      · exact hdigits c hc
      · exact hdigits c (List.mem_cons_of_mem _ hc)

theorem isAlphanum_range {c : Char} (h : c.isAlphanum) : 48 ≤ c.toNat ∧ c.toNat ≤ 122 := by
  have hvalue : c.toNat = c.val.toNat := rfl
  simp only [Char.isAlphanum, Char.isAlpha, Char.isUpper, Char.isLower, Char.isDigit,
    Bool.or_eq_true, Bool.and_eq_true, decide_eq_true_eq, UInt32.le_iff_toNat_le] at h
  rcases h with ((h | h) | h)
  · exact ⟨hvalue ▸ le_trans (by decide) h.1, hvalue ▸ le_trans h.2 (by decide)⟩
  · exact ⟨hvalue ▸ le_trans (by decide) h.1, hvalue ▸ le_trans h.2 (by decide)⟩
  · exact ⟨hvalue ▸ le_trans (by decide) h.1, hvalue ▸ le_trans h.2 (by decide)⟩

theorem solid_of_range {c : Char} (hlow : 33 ≤ c.toNat) (hhigh : c.toNat ≤ 126) :
    isWhitespace c = false := by
  rw [Bool.eq_false_iff]
  intro hspace
  simp only [isWhitespace, Bool.or_eq_true, Bool.and_eq_true, decide_eq_true_eq] at hspace
  omega

theorem trim_decompose (l : List Char) :
    ∃ before after, l = before ++ trim l ++ after ∧ ∀ c ∈ before ++ after,
      isWhitespace c = true := by
  have hstart (l : List Char) :
      ∃ before, l = before ++ trimStart l ∧ ∀ c ∈ before, isWhitespace c = true :=
    ⟨l.takeWhile isWhitespace, (List.takeWhile_append_dropWhile).symm,
      fun _ hc => List.mem_takeWhile_imp hc⟩
  obtain ⟨before, hbefore, hspace⟩ := hstart l
  obtain ⟨after, hafter, hspace'⟩ := hstart (trimStart l).reverse
  refine ⟨before, after.reverse, ?_, ?_⟩
  · calc l
        = before ++ (trimStart l).reverse.reverse := by rw [List.reverse_reverse, ← hbefore]
      _ = before ++ trim l ++ after.reverse := by
          rw [hafter, List.reverse_append, List.append_assoc]
          rfl
  · intro c hc
    rcases List.mem_append.mp hc with hc | hc
    · exact hspace c hc
    · exact hspace' c (List.mem_reverse.mp hc)

theorem trim_of_ends {text : List Char} {c d : Char} (hhead : text.head? = some c)
    (hlast : text.getLast? = some d) (hc : isWhitespace c = false) (hd : isWhitespace d = false) :
    trim text = text := by
  have hstart {text : List Char} {c : Char} (hhead : text.head? = some c)
      (hc : isWhitespace c = false) : trimStart text = text := by
    obtain ⟨rest, rfl⟩ := List.head?_eq_some_iff.mp hhead
    simp [trimStart, List.dropWhile, hc]
  unfold trim
  rw [hstart hhead hc, hstart (by rwa [List.head?_reverse]) hd, List.reverse_reverse]

theorem toLower_of_isWhitespace {c : Char} (h : isWhitespace c) : c.toLower = c := by
  apply Char.toLower_eq_of_not_isUpper
  intro hupper
  simp only [Char.isUpper, decide_eq_true_eq] at hupper
  have hrange : 65 ≤ c.toNat ∧ c.toNat ≤ 90 :=
    ⟨UInt32.le_iff_toNat_le.mp hupper.1, UInt32.le_iff_toNat_le.mp hupper.2⟩
  simp only [isWhitespace, Bool.or_eq_true, Bool.and_eq_true, decide_eq_true_eq] at h
  omega

/-- A text that equals one without white space, up to case, has none to trim. -/
theorem trim_of_asciiLowercase {s : String} {l : List Char} (hl : l.all (!isWhitespace ·))
    (h : asciiLowercase s = l) : trim s.toList = s.toList := by
  apply trim_of_solid
  intro c hc
  rw [Bool.eq_false_iff]
  intro hspace
  have hmem : c.toLower ∈ l := h ▸ List.mem_map_of_mem hc
  rw [toLower_of_isWhitespace hspace] at hmem
  have hsolid := List.all_eq_true.mp hl c hmem
  simp [hspace] at hsolid

theorem length_le_utf8ByteSize (l : List Char) : l.length ≤ (String.ofList l).utf8ByteSize := by
  induction l with
  | nil => simp
  | cons c rest ih =>
    rw [String.ofList_cons, String.utf8ByteSize_append, String.utf8ByteSize_singleton,
      List.length_cons]
    have hc := Char.utf8Size_pos c
    omega

private def quoteChar (c : Char) : List Char :=
  if c = '"' then ['\\', '"']
  else if c = '\\' then ['\\', '\\']
  else if c = '\n' then ['\\', 'n']
  else if c = '\r' then ['\\', 'r']
  else if c = '\t' then ['\\', 't']
  else if c.toNat = 0 then ['\\', '0']
  else [c]

/-- Text between quotation marks, with the usual escapes. -/
def quoted (s : String) : String :=
  String.ofList ('"' :: (s.toList.flatMap quoteChar ++ ['"']))

/-- A byte read as a character, as a message shows it: between apostrophes, with
escapes for those that do not print. -/
def byteQuoted (byte : UInt8) : String :=
  let n := byte.toNat
  let shown :=
    if n = 0 then "\\0" else if n = 9 then "\\t" else if n = 10 then "\\n"
    else if n = 13 then "\\r" else if n = 39 then "\\'" else if n = 92 then "\\\\"
    else if n < 32 || (127 ≤ n && n ≤ 160) || n = 173 then
      "\\u\x7b" ++ String.ofList (Nat.toDigits 16 n) ++ "\x7d"
    else String.singleton (Char.ofNat n)
  "'" ++ shown ++ "'"

def isNameByte (b : UInt8) : Bool :=
  let c := Char.ofNat b.toNat
  c.isAlphanum || c = '.' || c = '_' || c = '-'

/-- Letters, digits, dots, underscores and hyphens, at least one and at most so many,
with neither a hyphen nor a dot in front; messages call the name as told. -/
def checkName (what : String) (maxLen : Nat) (name : String) : Except String Unit :=
  let bytes := utf8 name.toList
  match bytes with
  | [] => .error (what ++ " must not be empty")
  | first :: _ =>
      if maxLen < bytes.length then
        .error (what ++ " length " ++ toString bytes.length ++ " exceeds max " ++ toString maxLen)
      else if first = 45 || first = 46 then
        .error (what ++ " must not start with " ++ byteQuoted first)
      else
        match bytes.zipIdx.find? fun entry => !isNameByte entry.1 with
        | some (b, i) => .error (what ++ " contains disallowed byte " ++ byteQuoted b ++
            " at index " ++ toString i)
        | none => .ok ()

/-- The components two paths are compared by: separators and inner `.` steps do
not count, the root and a leading `.` do. -/
def pathComponents (path : String) : List (List Char) :=
  let plain := fun step : List Char => step != [] && step != ['.']
  match path.toList with
  | '/' :: rest => ['/'] :: (rest.splitOn '/').filter plain
  | steps =>
      match steps.splitOn '/' with
      | first :: rest => [first].filter (· != []) ++ rest.filter plain
      | [] => []

def samePath (left right : String) : Bool :=
  pathComponents left = pathComponents right

example : samePath "/work/./tree/" "/work//tree" = true := by decide

theorem splitOnP_word {α : Type} {p : α → Bool} {word : List α} (h : ∀ c ∈ word, p c = false)
    {after right : List α} {rest : List (List α)} (hafter : after.splitOnP p = right :: rest) :
    (word ++ after).splitOnP p = (word ++ right) :: rest := by
  induction word with
  | nil => exact hafter
  | cons c word ih =>
    rw [List.forall_mem_cons] at h
    rw [List.cons_append, List.splitOnP_cons_eq_if_modifyHead, if_neg (by rw [h.1]; decide), ih h.2]
    rfl

theorem splitOnP_between {α : Type} (p : α → Bool) (before after : List α) :
    ∃ front left right rest, (∃ lead, before = lead ++ left) ∧ ∀ word, (∀ c ∈ word, p c = false) →
      (before ++ word ++ after).splitOnP p = front ++ (left ++ word ++ right) :: rest := by
  obtain ⟨right, rest, hafter⟩ := List.exists_cons_of_ne_nil (List.splitOnP_ne_nil p after)
  suffices hpieces : ∃ front left,
      (front = [] ∧ before = left ∨ front ≠ [] ∧ ∃ lead, before = lead ++ left) ∧
      ∀ word, (∀ c ∈ word, p c = false) →
        (before ++ word ++ after).splitOnP p = front ++ (left ++ word ++ right) :: rest by
    obtain ⟨front, left, hleft, hword⟩ := hpieces
    refine ⟨front, left, right, rest, ?_, hword⟩
    rcases hleft with ⟨-, hwhole⟩ | ⟨-, hlead⟩
    · exact ⟨[], hwhole⟩
    · exact hlead
  induction before with
  | nil => exact ⟨[], [], .inl ⟨rfl, rfl⟩, fun word hword => splitOnP_word hword hafter⟩
  | cons c before ih =>
    obtain ⟨front, left, hleft, hword⟩ := ih
    by_cases hsep : p c = true
    · refine ⟨[] :: front, left, .inr ⟨List.cons_ne_nil _ _, ?_⟩, fun word hclear => ?_⟩
      · rcases hleft with ⟨-, rfl⟩ | ⟨-, lead, rfl⟩
        · exact ⟨[c], rfl⟩
        · exact ⟨c :: lead, rfl⟩
      · rw [List.cons_append, List.cons_append, List.splitOnP_cons_eq_if_modifyHead, if_pos hsep,
          hword word hclear]
        rfl
    · have hnext (word : List α) (hclear : ∀ c ∈ word, p c = false) :
          (c :: before ++ word ++ after).splitOnP p =
            (front ++ (left ++ word ++ right) :: rest).modifyHead (List.cons c) := by
        rw [List.cons_append, List.cons_append, List.splitOnP_cons_eq_if_modifyHead, if_neg hsep,
          hword word hclear]
      rcases hleft with ⟨rfl, rfl⟩ | ⟨hne, lead, rfl⟩
      · exact ⟨[], c :: before, .inl ⟨rfl, rfl⟩, fun word hclear => hnext word hclear⟩
      · obtain ⟨piece, front, rfl⟩ := List.exists_cons_of_ne_nil hne
        exact ⟨(c :: piece) :: front, left, .inr ⟨List.cons_ne_nil _ _, c :: lead, rfl⟩,
          fun word hclear => hnext word hclear⟩

end Simard.Library
