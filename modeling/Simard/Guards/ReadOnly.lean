import Simard.Library.Text

/-! The guard of an observe-only identity: a command line runs only if it is provably a
read for the tool it calls. What is not recognised counts as a write. -/
namespace Simard.Guards
open Simard.Library

def beginsWith (text beginning : String) : Bool := beginning.toList.isPrefixOf text.toList

inductive HttpDialect where
  | curl
  | wget
  | azRest
  deriving DecidableEq

def stripQuotes (text : List Char) : List Char := trimMatches (fun c => c = '"' || c = '\'') text

def isReadMethod (method : List Char) : Bool :=
  (stripQuotes method).map Char.toLower ∈ ["get".toList, "head".toList, "options".toList]

def carriesBody : HttpDialect → String → Bool
  | .curl, a =>
      a ∈ ["-d", "-F", "-T"] ||
        (beginsWith a "-d" && 2 < a.utf8ByteSize) ||
        (beginsWith a "-F" && 2 < a.utf8ByteSize) ||
        (beginsWith a "-T" && 2 < a.utf8ByteSize) ||
        beginsWith a "--data" || beginsWith a "--form" ||
        a = "--upload-file" || beginsWith a "--upload-file=" ||
        a = "--json" || beginsWith a "--json="
  | .wget, a =>
      a ∈ ["--post-data", "--post-file", "--body-data", "--body-file"] ||
        beginsWith a "--post-data=" || beginsWith a "--post-file=" ||
        beginsWith a "--body-data=" || beginsWith a "--body-file="
  | .azRest, a =>
      a ∈ ["--body", "-b", "--in-file", "--input-file"] ||
        beginsWith a "--body=" || beginsWith a "--in-file=" ||
        (beginsWith a "-b" && 2 < a.utf8ByteSize)

def httpCarriesBody (args : List String) (dialect : HttpDialect) : Bool :=
  args.any (carriesBody dialect)

def methodFlags : HttpDialect → List String
  | .curl => ["-X", "--request"]
  | .wget => ["--method"]
  | .azRest => ["-m", "--method", "--http-method"]

def gluedFlag : HttpDialect → Option String
  | .curl => some "-X"
  | .wget => none
  | .azRest => some "-m"

def valueAfter (beginning token : String) : Option (List Char) :=
  (stripPrefix beginning.toList token.toList).filter (· ≠ [])

def tokenMethods (dialect : HttpDialect) (token : String) (next : Option String) :
    List (List Char) :=
  let flags := methodFlags dialect
  (if token ∈ flags then next.toList.map (stripQuotes ·.toList) else []) ++
    (flags.filterMap fun flag => valueAfter (flag ++ "=") token).map stripQuotes ++
    ((gluedFlag dialect).bind fun flag => valueAfter flag token).toList.map stripQuotes

def httpMethods (dialect : HttpDialect) : List String → List (List Char)
  | [] => []
  | token :: rest => tokenMethods dialect token rest.head? ++ httpMethods dialect rest

def httpIsRead (args : List String) (dialect : HttpDialect) : Bool :=
  !httpCarriesBody args dialect && (httpMethods dialect args).all isReadMethod

def gitReadSubcommands : List String :=
  ["status", "log", "diff", "show", "fetch", "clone", "ls-remote", "ls-files", "ls-tree",
    "rev-parse", "rev-list", "cat-file", "for-each-ref", "describe", "blame", "shortlog", "grep",
    "whatchanged", "name-rev", "cherry", "show-ref", "show-branch", "merge-base", "count-objects",
    "verify-pack", "verify-commit", "verify-tag", "annotate", "version", "help"]

def gitValueGlobals : List String :=
  ["-C", "-c", "--git-dir", "--work-tree", "--namespace", "--exec-path", "--super-prefix"]

def gitBoolGlobals : List String :=
  ["-p", "--paginate", "-P", "--no-pager", "--bare", "--no-replace-objects", "--literal-pathspecs",
    "--glob-pathspecs", "--noglob-pathspecs", "--icase-pathspecs", "--no-optional-locks"]

def isBoolGlobal (a : String) : Bool :=
  a ∈ gitBoolGlobals || beginsWith a "--git-dir=" || beginsWith a "--work-tree=" ||
    beginsWith a "--namespace=" || beginsWith a "--exec-path=" ||
    (beginsWith a "-c" && 2 < a.utf8ByteSize)

/-- A flag at the end that lacks its value leads past the arguments, and the program stops
there. -/
def stripGitGlobals : List String → Option (List String)
  | [] => some []
  | [a] => if a ∈ gitValueGlobals then none else if isBoolGlobal a then some [] else some [a]
  | a :: value :: rest =>
      if a ∈ gitValueGlobals then stripGitGlobals rest
      else if isBoolGlobal a then stripGitGlobals (value :: rest)
      else some (a :: value :: rest)

def gitBranchIsRead (rest : List String) : Bool :=
  let writeFlags := ["-d", "-D", "--delete", "-m", "-M", "--move", "-c", "-C", "--copy",
    "--set-upstream-to", "-u", "--unset-upstream", "--edit-description", "-f", "--force", "--track",
    "--set-upstream"]
  let filterFlags := ["--contains", "--no-contains", "--points-at", "--merged", "--no-merged"]
  !rest.any (· ∈ writeFlags) &&
    (!rest.any (!beginsWith · "-") || rest.any (· ∈ filterFlags))

def gitTagIsRead (rest : List String) : Bool :=
  let writeFlags := ["-d", "--delete", "-a", "--annotate", "-s", "--sign", "-f", "--force", "-m",
    "--message", "-F", "--file", "-e", "--edit", "-u"]
  let listFlags := ["-l", "--list", "--contains", "--no-contains", "--points-at", "--merged",
    "--no-merged", "--format", "--sort", "--column", "-i", "--ignore-case"]
  !rest.any (· ∈ writeFlags) &&
    (!rest.any (!beginsWith · "-") || rest.any fun a => a ∈ listFlags || beginsWith a "-n")

def gitConfigIsRead (rest : List String) : Bool :=
  let readFlags := ["--get", "--get-all", "--get-regexp", "--get-urlmatch", "-l", "--list",
    "--get-color", "--get-colorbool"]
  rest.any (· ∈ readFlags)

def gitRemoteIsRead (rest : List String) : Bool :=
  match rest.head? with
  | none => true
  | some verb => verb ∈ ["-v", "--verbose", "show", "get-url"]

def gitSubcommandIsRead : List String → Bool
  | [] => true
  | sub :: rest =>
      if sub ∈ gitReadSubcommands then true
      else if sub = "branch" then gitBranchIsRead rest
      else if sub = "tag" then gitTagIsRead rest
      else if sub = "config" then gitConfigIsRead rest
      else if sub = "remote" then gitRemoteIsRead rest
      else if sub = "reflog" then rest.head? ∈ [none, some "show"]
      else if sub = "stash" then rest.head? ∈ [some "list", some "show"]
      else if sub = "notes" then rest.head? ∈ [none, some "list", some "show"]
      else if sub = "worktree" then rest.head? = some "list"
      else if sub = "submodule" then rest.head? ∈ [some "status", some "summary"]
      else false

def gitCommandIsRead (gitArgs : List String) : Option Bool :=
  (stripGitGlobals gitArgs).map gitSubcommandIsRead

def azWriteVerbs : List String :=
  ["create", "update", "delete", "set", "add", "remove", "import", "restore", "abandon", "complete",
    "vote", "publish", "merge", "reset", "approve", "reject", "link", "unlink", "edit", "push",
    "upload", "purge", "enable", "disable", "grant", "revoke", "clone", "init", "move", "rename",
    "promote", "unshelve", "apply", "run", "queue", "cancel", "retain", "unmark", "mark"]

def azReadVerbs : List String := ["list", "show", "get"]

def azNeutralHeads : List String := ["login", "logout", "version", "account", "--version", "-v"]

def azCommandIsRead (args : List String) : Bool :=
  if args.head? = some "rest" then httpIsRead args.tail .azRest
  else if args.any (· ∈ azWriteVerbs) then false
  else if args.head?.any (· ∈ azNeutralHeads) then true
  else args.any fun a => a ∈ azReadVerbs || beginsWith a "list-"

def ghWriteVerbs : List String :=
  ["create", "merge", "close", "reopen", "edit", "delete", "comment", "review", "approve",
    "request-changes", "ready", "lock", "unlock", "pin", "unpin", "transfer", "develop", "rename",
    "add", "remove", "set", "sync", "push", "fork", "clone", "rerun", "cancel", "disable", "enable",
    "import", "restore", "upload", "release"]

def ghReadVerbs : List String := ["list", "view", "status", "diff", "checks", "search", "browse"]

def ghApiHasWrite : List String → Bool
  | [] => false
  | [a] => ghToken a
  | a :: value :: rest =>
      if a = "-X" || a = "--method" then !isReadMethod value.toList || ghApiHasWrite rest
      else ghToken a || ghApiHasWrite (value :: rest)
where
  ghToken (a : String) : Bool :=
    if a = "-X" || a = "--method" then false
    else
      a ∈ ["-f", "--raw-field", "-F", "--field", "--input"] ||
        (stripPrefix "--method=".toList a.toList).any (!isReadMethod ·) ||
        (valueAfter "-X" a).any (!isReadMethod ·)

def ghCommandIsRead (args : List String) : Bool :=
  if args.head? = some "api" then !ghApiHasWrite args.tail
  else if args.any (· ∈ ghWriteVerbs) then false
  else args.any (· ∈ ghReadVerbs) || args.head?.any (· ∈ ["auth", "version", "--version"])

def baseName (tool : String) : String :=
  String.ofList (tool.toList.reverse.takeWhile fun c => c ≠ '/' && c ≠ '\\').reverse

/-- Tools that are not screened here pass. There is no answer where the program stops. -/
def commandIsRead : List String → Option Bool
  | [] => some true
  | tool :: args =>
      match baseName tool with
      | "git" => gitCommandIsRead args
      | "az" => some (azCommandIsRead args)
      | "gh" => some (ghCommandIsRead args)
      | "curl" => some (httpIsRead args .curl)
      | "wget" => some (httpIsRead args .wget)
      | _ => some true

end Simard.Guards
