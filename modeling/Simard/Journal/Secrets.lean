import Simard.Library.Redaction
import Simard.Library.Text

/-! The pass over every journal entry and every filed issue that takes credentials out: key blocks
first, then tokens. -/
namespace Simard.Journal
open Simard.Library

def secretPlaceholder : List Char := "[redacted secret]".toList

def tokenPrefixes : List (List Char) :=
  ["github_pat_".toList, "ghp_".toList, "gho_".toList, "ghu_".toList, "ghs_".toList, "ghr_".toList]

def minTokenBody : Nat := 20

def isTokenChar (c : Char) : Bool := c.isAlphanum || c = '_'

/-- The length of the token that begins here: its beginning and all token characters after it. -/
def tokenLength (text : List Char) : Option Nat :=
  tokenPrefixes.findSome? fun beginning =>
    (stripPrefix beginning text).bind fun body =>
      let bodyLen := (body.takeWhile isTokenChar).length
      if minTokenBody ≤ bodyLen then some (beginning.length + bodyLen) else none

def redactTokens (input : List Char) : List Char :=
  redact (fun text => (tokenLength text).map (· - 1)) secretPlaceholder 0 input

def blockBegin : List Char := "-----BEGIN".toList

/-- The length of a key block that begins here. A block that is not closed is the whole rest. -/
def blockLength (text : List Char) : Nat :=
  match (afterFirst "-----END".toList text).bind (afterFirst "-----".toList) with
  | some rest => text.length - rest.length
  | none => text.length

def redactPemBlocks (input : List Char) : List Char :=
  redact (fun text => if blockBegin.isPrefixOf text then some (blockLength text - 1) else none)
    secretPlaceholder 0 input

def scrubSecrets (input : List Char) : List Char := redactTokens (redactPemBlocks input)

theorem apart_block : MarkApart (blockBegin.IsPrefix ·) secretPlaceholder where
  word text h := ⟨blockBegin, by
    rintro _ ⟨⟩
    decide, h, fun _ hother => hother⟩
  head a rest h := by
    have hhead : blockBegin = '-' :: blockBegin.tail := by decide
    rw [hhead, List.cons_prefix_cons] at h
    rw [← h.1]
    decide

theorem tokenLength_isSome {text : List Char} :
    (tokenLength text).isSome = true ↔ ∃ beginning ∈ tokenPrefixes, ∃ body,
      text = beginning ++ body ∧
      minTokenBody ≤ (body.takeWhile isTokenChar).length := by
  unfold tokenLength
  rw [List.findSome?_isSome_iff]
  refine exists_congr fun beginning => and_congr_right fun _ => ?_
  constructor
  · intro h
    obtain ⟨length, hlength⟩ := Option.isSome_iff_exists.mp h
    obtain ⟨body, hbody, hlong⟩ := Option.bind_eq_some_iff.mp hlength
    dsimp only at hlong
    split at hlong
    next hmin => exact ⟨body, stripPrefix_eq_some.mp hbody, hmin⟩
    next => cases hlong
  · rintro ⟨body, rfl, hmin⟩
    rw [stripPrefix_eq_some.mpr rfl, Option.bind_some]
    dsimp only
    rw [if_pos hmin]
    rfl

theorem tokenPrefixes_plain : (tokenPrefixes.all fun beginning =>
    beginning.head? = some 'g' && !beginning.contains '[') = true := by
  decide

theorem apart_token :
    MarkApart (fun text => (tokenLength text).isSome = true) secretPlaceholder where
  word text h := by
    obtain ⟨beginning, hmem, body, rfl, hmin⟩ := tokenLength_isSome.mp h
    refine ⟨beginning ++ body.takeWhile isTokenChar, ?_, ?_, ?_⟩
    · rintro _ ⟨⟩
      have hplain := List.all_eq_true.mp tokenPrefixes_plain beginning hmem
      rw [Bool.and_eq_true, Bool.not_eq_true', ← Bool.not_eq_true, List.contains_iff_mem] at hplain
      rw [List.mem_append, not_or]
      refine ⟨hplain.2, fun hbody => ?_⟩
      exact absurd (List.mem_takeWhile_imp hbody) (by decide)
    · exact (List.prefix_append_right_inj beginning).mpr (List.takeWhile_prefix _)
    · rintro _ ⟨rest, rfl⟩
      refine tokenLength_isSome.mpr ⟨beginning, hmem, _, List.append_assoc _ _ _, hmin.trans ?_⟩
      rw [List.takeWhile_append_of_pos fun c hc => List.mem_takeWhile_imp hc, List.length_append]
      exact Nat.le_add_right _ _
  head a rest h := by
    obtain ⟨beginning, hmem, body, htext, -⟩ := tokenLength_isSome.mp h
    have hplain := List.all_eq_true.mp tokenPrefixes_plain beginning hmem
    rw [Bool.and_eq_true, decide_eq_true_iff] at hplain
    obtain ⟨tail, hbeginning⟩ := List.head?_eq_some_iff.mp hplain.1
    rw [hbeginning, List.cons_append] at htext
    rw [(List.cons.inj htext).1]
    decide

def Clean (text : List Char) : Prop := ∀ part, part.IsSuffix text →
  ¬ blockBegin.IsPrefix part ∧ tokenLength part = none

theorem clean_scrubSecrets (input : List Char) : Clean (scrubSecrets input) := by
  have hmark : secretPlaceholder ≠ [] := by decide
  have hblocks : ∀ part, part.IsSuffix (redactPemBlocks input) → ¬ blockBegin.IsPrefix part := by
    refine redact_clean apart_block hmark (fun part _ hkept => ?_) 0
    split at hkept
    · cases hkept
    next hother => rwa [List.isPrefixOf_iff_prefix] at hother
  intro part hpart
  constructor
  · exact redact_clean apart_block hmark (fun other hother _ => hblocks other hother) 0 part hpart
  · have htoken : ¬ (tokenLength part).isSome = true := by
      refine redact_clean apart_token hmark (fun other _ hkept => ?_) 0 part hpart
      rw [Option.map_eq_none_iff.mp hkept]
      decide
    exact Option.not_isSome_iff_eq_none.mp htoken

theorem scrubSecrets_of_clean {input : List Char} (h : Clean input) :
    scrubSecrets input = input := by
  have hblocks : redactPemBlocks input = input := by
    refine redact_eq_self fun part hpart => if_neg ?_
    rw [List.isPrefixOf_iff_prefix]
    exact (h part hpart).1
  unfold scrubSecrets
  rw [hblocks]
  refine redact_eq_self fun part hpart => ?_
  rw [(h part hpart).2]
  rfl

/-- Whatever the text, no key block and no token begins anywhere in what is left of it, and a text
is left as it is exactly if none begins in it. -/
theorem secrets_scrubbed (input : List Char) :
    Clean (scrubSecrets input) ∧ (scrubSecrets input = input ↔ Clean input) :=
  ⟨clean_scrubSecrets input, fun hsame => hsame ▸ clean_scrubSecrets input, scrubSecrets_of_clean⟩

end Simard.Journal
