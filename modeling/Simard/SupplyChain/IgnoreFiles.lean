import Simard.Library.Lines

/-! The two lists of ignored advisories, `deny.toml` and `.cargo/audit.toml`. They are edited as
text, so that the comments around the entries stay; an entry is found again by the line that
holds the advisory's id in quotes. -/
namespace Simard.SupplyChain
open Simard.Library

def names (id : String) (line : List Char) : Bool :=
  containsText ('"' :: id.toList ++ ['"']) line

def isComment (line : List Char) : Bool := (trimStart line).head? = some '#'

/-- The lines put together again; a newline at the end of the original is restored. -/
def joinPreservingTrailingNewline (original : List Char) (kept : List (List Char)) : List Char :=
  if original.getLast? = some '\n' then ['\n'].intercalate kept ++
    ['\n'] else ['\n'].intercalate kept

/-- The first line that names the advisory goes, and the comment lines directly above it. -/
def removeIgnoreEntry (content : List Char) (id : String) : List Char :=
  let listed := lines content
  match listed.findIdx? (names id) with
  | none => content
  | some entry =>
      let comments := (listed.take entry).reverse.takeWhile isComment
      joinPreservingTrailingNewline content
        (listed.take (entry - comments.length) ++ listed.drop (entry + 1))

def escapeTomlBasic (s : String) : String :=
  String.ofList (s.toList.flatMap fun c =>
    if c = '\\' then ['\\', '\\'] else if c = '"' then ['\\', '"'] else if c =
      '\n' then [' '] else [c])

def isIgnoreOpener (line : List Char) : Bool :=
  let t := trimStart line
  ("ignore".toList.isPrefixOf t && t.contains '=' && t.contains '[') &&
    (trimStart (t.drop "ignore".length)).head? = some '='

def replaceFirst (needle replacement : List Char) : List Char → List Char
  | [] => []
  | c :: rest =>
      if needle.isPrefixOf (c :: rest) then replacement ++ (c :: rest).drop needle.length
      else c :: replaceFirst needle replacement rest

/-- The entry goes before the closing bracket of the first `ignore` array; an array that is closed
on its own line is opened up only if it is empty. -/
def insertIntoIgnoreArray (content entry : List Char) : Except String (List Char) :=
  let listed := lines content
  match listed.findIdx? isIgnoreOpener with
  | none => .error "no `[advisories] ignore = [` array found to insert into"
  | some opener =>
      if (listed.getD opener []).contains ']' then
        .ok (joinPreservingTrailingNewline content (listed.modify opener
          (replaceFirst ['[', ']'] ("[\n".toList ++ entry ++ "\n]".toList))))
      else
        match (listed.drop (opener + 1)).findIdx? fun line => trim line = [']'] with
        | none => .error "unterminated `ignore = [` array (no closing `]`)"
        | some closer =>
            .ok
              (joinPreservingTrailingNewline content (listed.insertIdx (opener + 1 + closer) entry))

section Insertion

variable (ignoredIds : List Char → String → Bool)

def insertDenyIgnore (denyToml : List Char) (id reason : String) : Except String (List Char) :=
  if ignoredIds denyToml id then .ok denyToml
  else
    let escaped := escapeTomlBasic id
    insertIntoIgnoreArray denyToml (("    # " ++ escaped ++ ": auto-added by the supply-chain " ++
      "steward (#2741) — no fixed upstream release; not reachable in Simard's usage.\n    \x7b " ++
      "id = \"" ++
      escaped ++ "\", reason = \"" ++ escapeTomlBasic reason ++ "\" \x7d,").toList)

def insertAuditIgnore (auditToml : List Char) (id reason : String) : Except String (List Char) :=
  if ignoredIds auditToml id then .ok auditToml
  else
    insertIntoIgnoreArray auditToml (("    # " ++
      String.ofList (reason.toList.map fun c => if c = '\n' then ' ' else c) ++ "\n    \"" ++
      escapeTomlBasic id ++ "\",").toList)

end Insertion

theorem names_nil (id : String) : names id [] = false := rfl

theorem names_dropReturn (id : String) (line : List Char) :
    names id (dropReturn line) = names id line := by
  rcases eq_dropReturn line with heq | heq
  · rw [← heq]
  · generalize dropReturn line = read at heq ⊢
    subst heq
    unfold names
    rw [Bool.eq_iff_iff, containsText_iff, containsText_iff]
    constructor
    · rintro ⟨before, after, rfl⟩
      exact ⟨before, after ++ ['\r'], by simp⟩
    · rintro ⟨before, after, heq⟩
      rcases List.eq_nil_or_concat after with rfl | ⟨after, c, rfl⟩
      · have hlast := congrArg List.getLast? heq
        rw [List.append_nil, ← List.append_assoc, List.getLast?_concat,
          List.getLast?_concat] at hlast
        cases hlast
      · rw [List.concat_eq_append, ← List.append_assoc] at heq
        exact ⟨before, after, (List.append_inj' heq rfl).1⟩

theorem countP_names_lines (id : String) (text : List Char) :
    (lines text).countP (names id) = (text.splitOn '\n').countP (names id) :=
  countP_lines (names_nil id) (names_dropReturn id) text

theorem countP_splitOn_intercalate (id : String) {kept : List (List Char)}
    (h : ∀ line ∈ kept, '\n' ∉ line) :
    ((['\n'].intercalate kept).splitOn '\n').countP (names id) = kept.countP (names id) := by
  cases kept with
  | nil => rfl
  | cons line kept => rw [List.splitOn_intercalate _ h (List.cons_ne_nil line kept)]

theorem countP_join (id : String) (original : List Char) {kept : List (List Char)}
    (h : ∀ line ∈ kept, '\n' ∉ line) :
    (lines (joinPreservingTrailingNewline original kept)).countP (names id) =
      kept.countP (names id) := by
  rw [countP_names_lines]
  unfold joinPreservingTrailingNewline
  split
  · rw [List.splitOn_append_cons_self, List.countP_append, countP_splitOn_intercalate id h]
    rfl
  · exact countP_splitOn_intercalate id h

theorem countP_removeIgnoreEntry (content : List Char) (id : String) :
    (lines (removeIgnoreEntry content id)).countP (names id) =
      (lines content).countP (names id) - 1 := by
  unfold removeIgnoreEntry
  dsimp only
  split
  · next hnone =>
    have hzero : (lines content).countP (names id) = 0 := by
      rw [List.countP_eq_zero]
      intro line hline
      rw [List.findIdx?_eq_none_iff.mp hnone line hline]
      nofun
    rw [hzero]
  · next entry hentry =>
    obtain ⟨hlt, hnames, hbefore⟩ := List.findIdx?_eq_some_iff_getElem.mp hentry
    have hfirst (n : Nat) (hn : n ≤ entry) : ((lines content).take n).countP (names id) = 0 := by
      rw [List.countP_eq_zero]
      intro line hline
      obtain ⟨i, hi, rfl⟩ := List.mem_take_iff_getElem.mp hline
      exact hbefore i (by omega)
    have htotal : (lines content).countP (names id) =
        ((lines content).drop (entry + 1)).countP (names id) + 1 := by
      conv_lhs => rw [← List.take_append_drop entry (lines content),
        List.drop_eq_getElem_cons hlt]
      rw [List.countP_append, hfirst entry le_rfl, Nat.zero_add, List.countP_cons_of_pos hnames]
    rw [countP_join, List.countP_append, hfirst _ (Nat.sub_le _ _), htotal, Nat.zero_add,
      Nat.add_sub_cancel]
    intro line hline
    rcases List.mem_append.mp hline with hline | hline
    · exact notMem_of_mem_lines (List.mem_of_mem_take hline)
    · exact notMem_of_mem_lines (List.mem_of_mem_drop hline)

theorem removeIgnoreEntry_eq_zero_iff (content : List Char) (id : String) :
    (lines (removeIgnoreEntry content id)).countP (names id) = 0 ↔
      (lines content).countP (names id) ≤ 1 := by
  rw [countP_removeIgnoreEntry]
  omega

end Simard.SupplyChain
