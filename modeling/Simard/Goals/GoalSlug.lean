import Simard.Library.Sha256
import Simard.Library.Text

/-! Goal ids from titles: the words of the title in lower case, joined by hyphens
and cut to a length that fits a branch name, with a digest where the cut would
lose something. -/
namespace Simard.Goals
open Simard.Library

def goalSlugMaxLen : Nat := 56

def isCopilotLauncherPreambleSignature (line : List Char) : Bool :=
  let t := trimStart line
  let shows := fun text : String => containsText text.toList t
  if t.head? = some '\x7b' || t.head? = some '"' || t.head? = some '[' then false
  else if shows "launching copilot binary=" || shows "version=\"GitHub Copilot CLI" then true
  else t.head? = some '\u2139' && shows "NODE_OPTIONS=" && shows "(saved preference)"

def stripLauncherPreamble (title : String) : String :=
  let titleLines := lines title.toList
  if !titleLines.any isCopilotLauncherPreambleSignature then title
  else String.ofList
    (['\n'].intercalate (titleLines.filter (!isCopilotLauncherPreambleSignature ·)))

/-- Lower case as far as it yields ASCII letters: outside ASCII only the Kelvin sign
and the dotted capital I have any in theirs. -/
def toLowercase (c : Char) : List Char :=
  if c = '\u212a' then ['k'] else if c = '\u0130' then ['i', '\u0307'] else [c.toLower]

/-- Letters and digits, with one hyphen for each stretch of anything else. -/
def kebab (lastDash : Bool) : List Char → List Char
  | [] => []
  | c :: rest =>
      if c.isAlphanum then c :: kebab false rest
      else if lastDash then kebab true rest
      else '-' :: kebab true rest

def trimStartDashes (l : List Char) : List Char := l.dropWhile (· = '-')

def trimEndDashes (l : List Char) : List Char := (trimStartDashes l.reverse).reverse

def goalSlug (title : String) : String :=
  let title := stripLauncherPreamble title
  let slug := trimEndDashes (trimStartDashes (kebab false (title.toList.flatMap toLowercase)))
  if slug.length ≤ goalSlugMaxLen then String.ofList slug
  else
    let start := trimEndDashes (slug.take (goalSlugMaxLen - 9))
    String.ofList (start ++ '-' :: (sha256Hex (utf8 title.toList)).toList.take 8)

example : goalSlug "Fix: the  parser (again)" = "fix-the-parser-again" := by decide

end Simard.Goals
