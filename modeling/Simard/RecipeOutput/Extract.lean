import Simard.Library.Ansi
import Simard.Library.Lines

/-! What is read of a recipe's output. Escape sequences are taken out, lines that only the runner or
the launcher prints are dropped, and the prefix of an agent is taken off its lines. -/
namespace Simard.RecipeOutput
open Simard.Library

def beginsWith : List (Char → Bool) → List Char → Bool
  | [], _ => true
  | _ :: _, [] => false
  | marked :: shape, c :: rest => marked c && beginsWith shape rest

def isoShape : List (Char → Bool) :=
  [Char.isDigit, Char.isDigit, Char.isDigit, Char.isDigit, (· = '-'), Char.isDigit, Char.isDigit,
    (· = '-'), Char.isDigit, Char.isDigit, (· = 'T')]

def startsWithIsoTimestamp (text : List Char) : Bool := beginsWith isoShape text

def beginsLikeJson (t : List Char) : Bool :=
  t.head? = some '\x7b' || t.head? = some '"' || t.head? = some '['

def isCopilotLauncherLine (line : List Char) : Bool :=
  let t := trimStart line
  let begins := fun text : String => text.toList.isPrefixOf t
  let shows := fun text : String => containsText text.toList t
  if beginsLikeJson t then false
  else if startsWithIsoTimestamp t then false
  else if begins "Run 'copilot update'" then true
  else if shows "launching copilot binary=" || shows "version=\"GitHub Copilot CLI" then true
  else if t.head? = some '\u2139' && shows "NODE_OPTIONS=" && shows "(saved preference)" then true
  else begins "INFO " || begins "WARN "

def isNoiseLine (line : List Char) : Bool :=
  let t := trimStart line
  let begins := fun text : String => text.toList.isPrefixOf t
  startsWithIsoTimestamp t || isCopilotLauncherLine t ||
    begins "Recipe:" || begins "Steps:" || begins "[completed]" || begins "[failed]" ||
    begins "[skipped]" || begins "[running]"

def agentStamp : List (Char → Bool) :=
  [(· = '['), Char.isDigit, Char.isDigit, (· = ':'), Char.isDigit, Char.isDigit, (· = ':'),
    Char.isDigit, Char.isDigit, (· = ']'), (· = ' ')]

def stripRecipeAgentPrefix (line : List Char) : Option (List Char) :=
  let t := trimStart line
  if (String.ofList t).utf8ByteSize < "[00:00:00] [amplihack:x:0] ".utf8ByteSize then none
  else if beginsWith agentStamp t then
    (stripPrefix "[amplihack:".toList (t.drop agentStamp.length)).bind (afterFirst "] ".toList)
  else none

/-- The line has a prefix that would be taken off, or is noise on its own. -/
def isDroppable (line : List Char) : Bool :=
  match stripRecipeAgentPrefix line with
  | some _ => true
  | none => isNoiseLine line

def keptLine (line : List Char) : Option (List Char) :=
  let payload := (stripRecipeAgentPrefix line).getD line
  if isNoiseLine payload then none else some payload

def stripRecipeNoise (raw : List Char) : List Char :=
  let deAnsi := stripAnsi raw
  if (lines deAnsi).any isDroppable then ['\n'].intercalate ((lines deAnsi).filterMap keptLine)
  else deAnsi

end Simard.RecipeOutput
