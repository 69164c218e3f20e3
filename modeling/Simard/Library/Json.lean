import Simard.Library.Bytes

/-! JSON documents and their compact text. The writer follows the usual compact
form: no blank between tokens, object members in the order given, and only the
quotation mark, the backslash and control characters escaped. The last theorem
reads the text back: two documents with one text are one document. -/
namespace Simard.Library

inductive Json where
  | null
  | bool (value : Bool)
  | num (value : Int)
  | str (value : String)
  | arr (items : List Json)
  | obj (fields : List (String × Json))

namespace Json

def escapeChar (c : Char) : List Char :=
  if c = '"' then ['\\', '"']
  else if c = '\\' then ['\\', '\\']
  else if c = Char.ofNat 8 then ['\\', 'b']
  else if c = '\t' then ['\\', 't']
  else if c = '\n' then ['\\', 'n']
  else if c = Char.ofNat 12 then ['\\', 'f']
  else if c = '\r' then ['\\', 'r']
  else if c.toNat < 32 then
    ['\\', 'u', '0', '0', hexDigit (c.toNat / 16), hexDigit (c.toNat % 16)]
  else [c]

def escape (s : List Char) : List Char :=
  s.flatMap escapeChar

def numText : Int → List Char
  | .ofNat n => Nat.toDigits 10 n
  | .negSucc n => '-' :: Nat.toDigits 10 (n + 1)

def strText (s : String) : List Char :=
  '"' :: (escape s.toList ++ ['"'])

mutual
def text : Json → List Char
  | .null => ['n', 'u', 'l', 'l']
  | .bool true => ['t', 'r', 'u', 'e']
  | .bool false => ['f', 'a', 'l', 's', 'e']
  | .num n => numText n
  | .str s => strText s
  | .arr items => '[' :: itemsText items
  | .obj fields => '{' :: fieldsText fields

def itemsText : List Json → List Char
  | [] => [']']
  | item :: rest => text item ++ moreItemsText rest

def moreItemsText : List Json → List Char
  | [] => [']']
  | item :: rest => ',' :: (text item ++ moreItemsText rest)

def fieldsText : List (String × Json) → List Char
  | [] => ['}']
  | (name, value) :: rest => strText name ++ (':' :: (text value ++ moreFieldsText rest))

def moreFieldsText : List (String × Json) → List Char
  | [] => ['}']
  | (name, value) :: rest =>
      ',' :: (strText name ++ (':' :: (text value ++ moreFieldsText rest)))

end

/-- The compact text as bytes, the form in which a document is stored or hashed. -/
def toVec (document : Json) : List UInt8 :=
  utf8 (text document)

private def unescape : List Char → Option (Char × List Char)
  | '\\' :: 'u' :: '0' :: '0' :: a :: b :: rest =>
      some (Char.ofNat (16 * hexValue a + hexValue b), rest)
  | '\\' :: c :: rest =>
      if c = 'b' then some (Char.ofNat 8, rest)
      else if c = 't' then some ('\t', rest)
      else if c = 'n' then some ('\n', rest)
      else if c = 'f' then some (Char.ofNat 12, rest)
      else if c = 'r' then some ('\r', rest)
      else some (c, rest)
  | '"' :: _ => none
  | c :: rest => some (c, rest)
  | [] => none

private theorem unescape_escapeChar (c : Char) (rest : List Char) :
    unescape (escapeChar c ++ rest) = some (c, rest) := by
  unfold escapeChar
  split
  · subst_vars; rfl
  split
  · subst_vars; rfl
  split
  · subst_vars; rfl
  split
  · subst_vars; rfl
  split
  · subst_vars; rfl
  split
  · subst_vars; rfl
  split
  · subst_vars; rfl
  split
  · rename_i hcontrol
    simp only [List.cons_append, List.nil_append, unescape]
    rw [hexValue_hexDigit _ (by omega), hexValue_hexDigit _ (by omega), Nat.div_add_mod,
      Char.ofNat_toNat]
  · simp only [List.cons_append, List.nil_append]
    rw [unescape.eq_def]
    split <;> simp_all

private theorem escape_unique (left right : List Char) (r s : List Char)
    (h : escape left ++ '"' :: r = escape right ++ '"' :: s) : left = right ∧ r = s := by
  induction left generalizing right with
  | nil =>
    cases right with
    | nil => simpa [escape] using h
    | cons d right =>
      have hread := congrArg unescape h
      simp only [escape, List.flatMap_cons, List.flatMap_nil, List.nil_append,
        List.append_assoc, unescape_escapeChar] at hread
      simp [unescape] at hread
  | cons c left ih =>
    cases right with
    | nil =>
      have hread := congrArg unescape h
      simp only [escape, List.flatMap_cons, List.flatMap_nil, List.nil_append,
        List.append_assoc, unescape_escapeChar] at hread
      simp [unescape] at hread
    | cons d right =>
      have hread := congrArg unescape h
      simp only [escape, List.flatMap_cons, List.append_assoc, unescape_escapeChar,
        Option.some.injEq, Prod.mk.injEq] at hread
      obtain ⟨hc, hrest⟩ := hread
      obtain ⟨hl, hr⟩ := ih right hrest
      exact ⟨by rw [hc, hl], hr⟩

private theorem strText_unique (left right : String) (r s : List Char)
    (h : strText left ++ r = strText right ++ s) : left = right ∧ r = s := by
  simp only [strText, List.cons_append, List.append_assoc, List.nil_append,
    List.cons.injEq, true_and] at h
  obtain ⟨hl, hr⟩ := escape_unique _ _ _ _ h
  exact ⟨String.toList_injective hl, hr⟩

/-- What follows a number in a document is never another digit. -/
private def Stops (rest : List Char) : Prop :=
  ∀ c tail, rest = c :: tail → c.isDigit = false

private theorem stops_cons {c : Char} {rest : List Char} (h : c.isDigit = false) :
    Stops (c :: rest) := by
  intro d tail hd
  cases hd
  exact h

private theorem digits_unique (left right : List Char) (r s : List Char)
    (hleft : ∀ c ∈ left, c.isDigit) (hright : ∀ c ∈ right, c.isDigit)
    (hr : Stops r) (hs : Stops s) (h : left ++ r = right ++ s) : left = right ∧ r = s := by
  induction left generalizing right with
  | nil =>
    cases right with
    | nil => exact ⟨rfl, h⟩
    | cons d right =>
      have hd := hright d List.mem_cons_self
      rw [hr d (right ++ s) h] at hd
      exact absurd hd Bool.false_ne_true
  | cons c left ih =>
    cases right with
    | nil =>
      have hc := hleft c List.mem_cons_self
      rw [hs c (left ++ r) h.symm] at hc
      exact absurd hc Bool.false_ne_true
    | cons d right =>
      simp only [List.cons_append, List.cons.injEq] at h
      obtain ⟨hl, hr'⟩ := ih right (fun c hc => hleft c (List.mem_cons_of_mem _ hc))
        (fun c hc => hright c (List.mem_cons_of_mem _ hc)) h.2
      exact ⟨by rw [h.1, hl], hr'⟩

private theorem toDigits_isDigit (n : Nat) : ∀ c ∈ Nat.toDigits 10 n, c.isDigit :=
  fun _ hc => Nat.isDigit_of_mem_toDigits (by decide) (by decide) hc

private theorem toDigits_unique (n m : Nat) (r s : List Char) (hr : Stops r) (hs : Stops s)
    (h : Nat.toDigits 10 n ++ r = Nat.toDigits 10 m ++ s) : n = m ∧ r = s := by
  obtain ⟨hdigits, hrest⟩ :=
    digits_unique _ _ r s (toDigits_isDigit n) (toDigits_isDigit m) hr hs h
  refine ⟨?_, hrest⟩
  rw [← Nat.ofDigitChars_ten_toDigits (n := n), hdigits, Nat.ofDigitChars_ten_toDigits]

private theorem numText_head (n : Int) :
    ∃ c rest, numText n = c :: rest ∧ (c.isDigit ∨ c = '-') := by
  cases n with
  | ofNat n =>
    cases hdigits : Nat.toDigits 10 n with
    | nil => exact absurd hdigits Nat.toDigits_ne_nil
    | cons c rest =>
      refine ⟨c, rest, hdigits, .inl ?_⟩
      exact toDigits_isDigit n c (by rw [hdigits]; exact List.mem_cons_self)
  | negSucc n => exact ⟨'-', _, rfl, .inr rfl⟩

private theorem numText_unique (n m : Int) (r s : List Char) (hr : Stops r) (hs : Stops s)
    (h : numText n ++ r = numText m ++ s) : n = m ∧ r = s := by
  have hsign (k l : Nat) (u v : List Char) :
      Nat.toDigits 10 k ++ u ≠ '-' :: (Nat.toDigits 10 l ++ v) := by
    intro heq
    cases hdigits : Nat.toDigits 10 k with
    | nil => exact absurd hdigits Nat.toDigits_ne_nil
    | cons c rest =>
      have hc := toDigits_isDigit k c (by rw [hdigits]; exact List.mem_cons_self)
      rw [hdigits, List.cons_append, List.cons.injEq] at heq
      rw [heq.1] at hc
      exact absurd hc (by decide)
  cases n with
  | ofNat n =>
    cases m with
    | ofNat m =>
      obtain ⟨hn, hrest⟩ := toDigits_unique n m r s hr hs h
      exact ⟨by rw [hn], hrest⟩
    | negSucc m => exact absurd h (hsign _ _ _ _)
  | negSucc n =>
    cases m with
    | ofNat m => exact absurd h.symm (hsign _ _ _ _)
    | negSucc m =>
      simp only [numText, List.cons_append, List.cons.injEq, true_and] at h
      obtain ⟨hn, hrest⟩ := toDigits_unique _ _ r s hr hs h
      exact ⟨by rw [Nat.add_right_cancel hn], hrest⟩

private def opens : Json → Char → Prop
  | .null, c => c = 'n'
  | .bool true, c => c = 't'
  | .bool false, c => c = 'f'
  | .num _, c => c.isDigit ∨ c = '-'
  | .str _, c => c = '"'
  | .arr _, c => c = '['
  | .obj _, c => c = '{'

private theorem text_opens (a : Json) : ∃ c rest, text a = c :: rest ∧ opens a c := by
  cases a with
  | null => exact ⟨_, _, rfl, rfl⟩
  | bool b => cases b <;> exact ⟨_, _, rfl, rfl⟩
  | num n =>
    obtain ⟨c, rest, htext, hc⟩ := numText_head n
    exact ⟨c, rest, htext, hc⟩
  | str s => exact ⟨_, _, rfl, rfl⟩
  | arr items => exact ⟨_, _, rfl, rfl⟩
  | obj fields => exact ⟨_, _, rfl, rfl⟩

private theorem opens_shared {a b : Json} {r s : List Char} (h : text a ++ r = text b ++ s) :
    ∃ c, opens a c ∧ opens b c := by
  obtain ⟨c, left, hleft, hc⟩ := text_opens a
  obtain ⟨d, right, hright, hd⟩ := text_opens b
  rw [hleft, hright, List.cons_append, List.cons_append, List.cons.injEq] at h
  exact ⟨c, hc, h.1 ▸ hd⟩

private theorem stops_moreItems (items : List Json) (r : List Char) :
    Stops (moreItemsText items ++ r) := by
  cases items <;> exact stops_cons (by decide)

private theorem stops_moreFields (fields : List (String × Json)) (r : List Char) :
    Stops (moreFieldsText fields ++ r) := by
  cases fields <;> exact stops_cons (by decide)

mutual
private theorem text_unique (a b : Json) (r s : List Char) (hr : Stops r) (hs : Stops s)
    (h : text a ++ r = text b ++ s) : a = b ∧ r = s := by
  obtain ⟨c, ha, hb⟩ := opens_shared h
  match a, b with
  | .null, .null => simpa [text] using h
  | .bool true, .bool true => simpa [text] using h
  | .bool false, .bool false => simpa [text] using h
  | .num n, .num m =>
    simp only [text] at h
    obtain ⟨hn, hrest⟩ := numText_unique n m r s hr hs h
    exact ⟨by rw [hn], hrest⟩
  | .str u, .str v =>
    simp only [text] at h
    obtain ⟨hu, hrest⟩ := strText_unique u v r s h
    exact ⟨by rw [hu], hrest⟩
  | .arr xs, .arr ys =>
    simp only [text, List.cons_append, List.cons.injEq, true_and] at h
    obtain ⟨hx, hrest⟩ := itemsText_unique xs ys r s h
    exact ⟨by rw [hx], hrest⟩
  | .obj xs, .obj ys =>
    simp only [text, List.cons_append, List.cons.injEq, true_and] at h
    obtain ⟨hx, hrest⟩ := fieldsText_unique xs ys r s h
    exact ⟨by rw [hx], hrest⟩
  | .null, .bool true | .null, .bool false | .null, .num _ | .null, .str _ | .null, .arr _
  | .null, .obj _ | .bool true, .null | .bool true, .bool false | .bool true, .num _
  | .bool true, .str _ | .bool true, .arr _ | .bool true, .obj _ | .bool false, .null
  | .bool false, .bool true | .bool false, .num _ | .bool false, .str _ | .bool false, .arr _
  | .bool false, .obj _ | .num _, .null | .num _, .bool true | .num _, .bool false
  | .num _, .str _ | .num _, .arr _ | .num _, .obj _ | .str _, .null | .str _, .bool true
  | .str _, .bool false | .str _, .num _ | .str _, .arr _ | .str _, .obj _ | .arr _, .null
  | .arr _, .bool true | .arr _, .bool false | .arr _, .num _ | .arr _, .str _
  | .arr _, .obj _ | .obj _, .null | .obj _, .bool true | .obj _, .bool false
  | .obj _, .num _ | .obj _, .str _ | .obj _, .arr _ =>
    simp only [opens] at ha hb
    subst_vars
    first
    | exact absurd hb (by decide)
    | exact absurd ha (by decide)

private theorem itemsText_unique (xs ys : List Json) (r s : List Char)
    (h : itemsText xs ++ r = itemsText ys ++ s) : xs = ys ∧ r = s := by
  match xs, ys with
  | [], [] => simpa [itemsText] using h
  | x :: xs, y :: ys =>
    simp only [itemsText, List.append_assoc] at h
    obtain ⟨hx, hrest⟩ := text_unique x y _ _ (stops_moreItems _ _) (stops_moreItems _ _) h
    obtain ⟨hxs, hrs⟩ := moreItemsText_unique xs ys r s hrest
    exact ⟨by rw [hx, hxs], hrs⟩
  | [], y :: ys | y :: ys, [] =>
    obtain ⟨c, rest, htext, hc⟩ := text_opens y
    simp only [itemsText, htext, List.cons_append, List.nil_append, List.cons.injEq] at h
    have hclose : c = ']' := by first | exact h.1 | exact h.1.symm
    subst hclose
    match y with
    | .null | .bool true | .bool false | .num _ | .str _ | .arr _ | .obj _ =>
      exact absurd hc (by simp [opens])

private theorem moreItemsText_unique (xs ys : List Json) (r s : List Char)
    (h : moreItemsText xs ++ r = moreItemsText ys ++ s) : xs = ys ∧ r = s := by
  match xs, ys with
  | [], [] => simpa [moreItemsText] using h
  | [], _ :: _ => simp [moreItemsText] at h
  | _ :: _, [] => simp [moreItemsText] at h
  | x :: xs, y :: ys =>
    simp only [moreItemsText, List.cons_append, List.append_assoc, List.cons.injEq,
      true_and] at h
    obtain ⟨hx, hrest⟩ := text_unique x y _ _ (stops_moreItems _ _) (stops_moreItems _ _) h
    obtain ⟨hxs, hrs⟩ := moreItemsText_unique xs ys r s hrest
    exact ⟨by rw [hx, hxs], hrs⟩

private theorem fieldsText_unique (xs ys : List (String × Json)) (r s : List Char)
    (h : fieldsText xs ++ r = fieldsText ys ++ s) : xs = ys ∧ r = s := by
  match xs, ys with
  | [], [] => simpa [fieldsText] using h
  | [], _ :: _ => simp [fieldsText, strText] at h
  | _ :: _, [] => simp [fieldsText, strText] at h
  | (u, x) :: xs, (v, y) :: ys =>
    simp only [fieldsText, List.cons_append, List.append_assoc] at h
    obtain ⟨hname, htail⟩ := strText_unique u v _ _ h
    rw [List.cons.injEq] at htail
    obtain ⟨hx, hrest⟩ :=
      text_unique x y _ _ (stops_moreFields _ _) (stops_moreFields _ _) htail.2
    obtain ⟨hxs, hrs⟩ := moreFieldsText_unique xs ys r s hrest
    exact ⟨by rw [hname, hx, hxs], hrs⟩

private theorem moreFieldsText_unique (xs ys : List (String × Json)) (r s : List Char)
    (h : moreFieldsText xs ++ r = moreFieldsText ys ++ s) : xs = ys ∧ r = s := by
  match xs, ys with
  | [], [] => simpa [moreFieldsText] using h
  | [], _ :: _ => simp [moreFieldsText] at h
  | _ :: _, [] => simp [moreFieldsText] at h
  | (u, x) :: xs, (v, y) :: ys =>
    simp only [moreFieldsText, List.cons_append, List.append_assoc, List.cons.injEq,
      true_and] at h
    obtain ⟨hname, htail⟩ := strText_unique u v _ _ h
    rw [List.cons.injEq] at htail
    obtain ⟨hx, hrest⟩ :=
      text_unique x y _ _ (stops_moreFields _ _) (stops_moreFields _ _) htail.2
    obtain ⟨hxs, hrs⟩ := moreFieldsText_unique xs ys r s hrest
    exact ⟨by rw [hname, hx, hxs], hrs⟩

end

theorem text_injective : Function.Injective text := by
  intro a b h
  have hstop : Stops [] := fun c tail hc => nomatch hc
  exact (text_unique a b [] [] hstop hstop (by rw [h])).1

instance : DecidableEq Json := fun a b =>
  decidable_of_iff (text a = text b) ⟨fun h => text_injective h, congrArg text⟩

theorem toVec_injective : Function.Injective toVec := by
  intro a b h
  exact text_injective (utf8_injective h)

end Json

end Simard.Library
