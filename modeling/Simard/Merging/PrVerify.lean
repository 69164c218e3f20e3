import Simard.Library.BTreeSet
import Simard.Library.Text

/-! The scans of a pull request's diff that a merge waits for. They read the printed diff line
by line: a line is a header or a line of a file by how it begins, and the file is the one the
last header of a new side named. -/
namespace Simard.Merging
open Simard.Library

def prdPath : List Char := "Specs/ProductArchitecture.md".toList

structure DiffFinding where
  file : List Char
  line : Option Nat
  text : List Char

def DiffFinding.describe (finding : DiffFinding) : List Char :=
  match finding.line with
  | some n =>
      finding.file ++ ':' :: Nat.toDigits 10 n ++ " — ".toList ++ finding.text
  | none => finding.file ++ " — ".toList ++ finding.text

inductive LineKind where
  | added
  | removed
  | context
  deriving DecidableEq

structure DiffLine where
  file : List Char
  kind : LineKind
  newLine : Option Nat
  content : List Char

def normalizeDiffPath (rest : List Char) : List Char :=
  let path := trim (rest.takeWhile (· ≠ '\t'))
  if path = "/dev/null".toList then []
  else ((stripPrefix "b/".toList path).or (stripPrefix "a/".toList path)).getD path

def parseHunkNewStart (line : List Char) : Option Nat :=
  (stripPrefix "@@ ".toList line).bind fun rest =>
    ((splitWhitespace rest).find? fun token => token.head? = some '+').bind fun plus =>
      parseUnsigned 64 (plus.tail.takeWhile (· ≠ ','))

def readLines (currentFile : List Char) (newLine : Nat) : List (List Char) → List DiffLine
  | [] => []
  | raw :: rest =>
      match stripPrefix "+++ ".toList raw with
      | some path => readLines (normalizeDiffPath path) newLine rest
      | none =>
          if "--- ".toList.isPrefixOf raw || "diff --git".toList.isPrefixOf raw ||
              "index ".toList.isPrefixOf raw then
            readLines currentFile newLine rest
          else
            match parseHunkNewStart raw with
            | some start => readLines currentFile start rest
            | none =>
                match raw with
                | '+' :: content =>
                    ⟨currentFile, .added, some newLine, content⟩ ::
                      readLines currentFile (newLine + 1) rest
                | '-' :: content =>
                    ⟨currentFile, .removed, none, content⟩ :: readLines currentFile newLine rest
                | ' ' :: content =>
                    ⟨currentFile, .context, some newLine, content⟩ ::
                      readLines currentFile (newLine + 1) rest
                | _ => readLines currentFile newLine rest

def forEachDiffLine (diff : List Char) : List DiffLine := readLines [] 0 (lines diff)

def pubPrefixes : List (List Char) :=
  ["pub fn ".toList, "pub struct ".toList, "pub enum ".toList, "pub trait ".toList,
    "pub const ".toList, "pub static ".toList, "pub type ".toList, "pub mod ".toList,
    "pub use ".toList, "pub(crate) fn ".toList, "pub async fn ".toList]

def declaresPub (content : List Char) : Bool :=
  pubPrefixes.any fun p => p.isPrefixOf (trimStart content)

def removedFinding (line : DiffLine) : DiffFinding := ⟨line.file, none, trim line.content⟩

def scanAdditiveNoRemovedPub (diff : List Char) : List DiffFinding :=
  ((forEachDiffLine diff).filter fun line =>
    line.kind = .removed && declaresPub line.content).map removedFinding

def scanPrdPreserved (diff : List Char) : List DiffFinding :=
  ((forEachDiffLine diff).filter fun line =>
    line.kind = .removed && line.file = prdPath).map removedFinding

def reportDirs : List (List Char) :=
  ["docs/investigation/".toList, "docs/reports/".toList, "docs/runs/".toList]

def reportTitleMarkers : List (List Char) :=
  ["investigation report".toList, "testing report".toList, "test report".toList,
    "diagnosis report".toList, "diagnostic report".toList, "diagnostics report".toList,
    "recurrence report".toList, "blockage report".toList, "benchmark snapshot".toList,
    "measured-rate".toList, "measured rate".toList, "snapshot findings".toList,
    "postmortem".toList, "post-mortem".toList]

def pointInTimeGuidance : List Char :=
  "point-in-time report doc — record the finding in a GitHub issue (consolidate ".toList ++
    "recurrences into one tracking issue) and/or memory, not a committed repo doc; ".toList ++
    "durable feature/architecture docs are encouraged".toList

/-- The new sides named right after an old side that is not there. -/
def addedPaths (oldIsDevNull : Bool) : List (List Char) → List (List Char)
  | [] => []
  | raw :: rest =>
      match stripPrefix "--- ".toList raw with
      | some path => addedPaths (normalizeDiffPath path).isEmpty rest
      | none =>
          match stripPrefix "+++ ".toList raw with
          | some path =>
              if oldIsDevNull && normalizeDiffPath path ≠ [] then
                normalizeDiffPath path :: addedPaths false rest
              else addedPaths false rest
          | none => addedPaths oldIsDevNull rest

def newlyAddedFiles (diff : List Char) : BTreeSet (List Char) :=
  .ofList (addedPaths false (lines diff))

section Titles

-- the lower case of a text, as the standard library has it
variable (toLowercase : List Char → List Char)

def isMarkdown (path : List Char) : Bool :=
  ".md".toList.isSuffixOf (toLowercase path) || ".markdown".toList.isSuffixOf (toLowercase path)

def frontMatterValue (line key : List Char) : Option (List Char) :=
  ((stripPrefix key (trim line)).bind (stripPrefix [':'])).map trim

def isFence (line : List Char) : Bool := trim line = "---".toList

/-- The titles of a front matter's lines, and those of the first heading after it. -/
def titleTexts (addedLines : List (List Char)) : List (List Char) :=
  let fenced := addedLines.head?.any isFence
  let front := if fenced then addedLines.tail.takeWhile fun line => !isFence line else []
  let body := if fenced then addedLines.drop (front.length + 2) else addedLines
  let fields := front.filterMap fun line =>
    ["type".toList, "doc_type".toList, "title".toList].findSome? (frontMatterValue line)
  let heading := body.findSome? fun line => stripPrefix "# ".toList (trimStart line)
  (fields ++ heading.toList).map toLowercase

def titleNamesAReport (addedLines : List (List Char)) : Bool :=
  (titleTexts toLowercase addedLines).any fun title =>
    reportTitleMarkers.any fun marker => containsText marker title

def addedTo (file : List Char) (lines : List DiffLine) : List (List Char) :=
  (lines.filter fun line => line.kind = .added && line.file = file).map DiffLine.content

def inReportDir (file : List Char) : Bool := reportDirs.any fun dir => dir.isPrefixOf file

def isReport (lines : List DiffLine) (file : List Char) : Bool :=
  inReportDir file || titleNamesAReport toLowercase (addedTo file lines)

def scanNoPointInTimeReportDocs (diff : List Char) : List DiffFinding :=
  (((newlyAddedFiles diff).elems.filter (isMarkdown toLowercase)).filter
    (isReport toLowercase (forEachDiffLine diff))).map fun file => ⟨file, none, pointInTimeGuidance⟩

end Titles

structure CheckItem where
  name : String
  passed : Bool
  note : List Char

def findingCheck (name : String) (findings : List DiffFinding) : CheckItem :=
  if findings.isEmpty then ⟨name, true, "ok".toList⟩
  else ⟨name, false, Nat.toDigits 10 findings.length ++ " violation(s): ".toList ++
    "; ".toList.intercalate ((findings.take 5).map DiffFinding.describe)⟩

def runDiffScans (toLowercase : List Char → List Char) (diff : List Char) : List CheckItem :=
  [findingCheck "additive (no removed pub items)" (scanAdditiveNoRemovedPub diff),
    findingCheck "PRD preserved" (scanPrdPreserved diff),
    findingCheck "no-point-in-time-report-docs (added .md)"
      (scanNoPointInTimeReportDocs toLowercase diff)]

end Simard.Merging
