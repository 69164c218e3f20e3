import Simard.Guards.AdoAcl

/-! One flag, two spellings. A flag that writes may stand before its value or be joined to
it, `-f x` or `-fx`, `--field x` or `--field=x`; the tools read both alike, and the guard
reads some of the joined spellings only. -/
namespace Simard.Guards
open Simard.Library

/-- The commands whose writing flags are looked at. -/
inductive ScreenedCommand where
  | ghApi
  | azRest
  | curl
  | wget
  | gitBranch
  deriving DecidableEq

namespace ScreenedCommand

def tool : ScreenedCommand → String
  | .ghApi => "gh"
  | .azRest => "az"
  | .curl => "curl"
  | .wget => "wget"
  | .gitBranch => "git"

def subcommand : ScreenedCommand → List String
  | .ghApi => ["api"]
  | .azRest => ["rest"]
  | .curl => []
  | .wget => []
  | .gitBranch => ["branch"]

def writeFlags : ScreenedCommand → List String
  | .ghApi => ["-f", "-F", "--field", "--raw-field", "--input", "-X", "--method"]
  | .azRest => ["-b", "--body", "--in-file", "--input-file", "-m", "--method", "--http-method"]
  | .curl => ["-X", "--request", "-d", "-F", "-T", "--data", "--form", "--json", "--upload-file"]
  | .wget => ["--method", "--post-data", "--post-file", "--body-data", "--body-file"]
  | .gitBranch => ["-u", "--set-upstream-to"]

def reads : ScreenedCommand → List String → Bool
  | .ghApi, args => !ghApiHasWrite args
  | .azRest, args => httpIsRead args .azRest
  | .curl, args => httpIsRead args .curl
  | .wget, args => httpIsRead args .wget
  | .gitBranch, args => gitBranchIsRead args

end ScreenedCommand

/-- A command line with a gap: the program, options of the program itself, and what stands
before and after the gap. -/
structure GappedLine where
  program : String
  globals : List String
  before : List String
  after : List String

/-- The line calls this command; only `git` takes options before its subcommand. -/
structure GappedLine.Calls (line : GappedLine) (command : ScreenedCommand) : Prop where
  program : baseName line.program = command.tool
  globals : match command with
    | .gitBranch => stripGitGlobals (line.globals ++ ["branch"]) = some ["branch"]
    | _ => line.globals = []

def GappedLine.fill (line : GappedLine) (command : ScreenedCommand) (tokens : List String) :
    List String :=
  line.program :: (line.globals ++ command.subcommand ++ (line.before ++ tokens ++ line.after))

def joinFlag (flag value : String) : String :=
  if beginsWith flag "--" then flag ++ "=" ++ value else flag ++ value

theorem stripGitGlobals_branch (rest : List String) :
    stripGitGlobals ("branch" :: rest) = some ("branch" :: rest) := by
  have hvalue : "branch" ∉ gitValueGlobals := by decide
  have hbool : ¬ isBoolGlobal "branch" = true := by decide
  cases rest with
  | nil => rw [stripGitGlobals, if_neg hvalue, if_neg hbool]
  | cons next rest => rw [stripGitGlobals, if_neg hvalue, if_neg hbool]

theorem stripGitGlobals_append {globals : List String}
    (h : stripGitGlobals (globals ++ ["branch"]) = some ["branch"]) (rest : List String) :
    stripGitGlobals (globals ++ "branch" :: rest) = some ("branch" :: rest) := by
  induction globals using stripGitGlobals.induct with
  | case1 => exact stripGitGlobals_branch rest
  | case2 a ha =>
    rw [List.singleton_append, stripGitGlobals, if_pos ha] at h
    cases h
  | case3 a ha hbool =>
    rw [List.singleton_append, stripGitGlobals, if_neg ha, if_pos hbool]
    exact stripGitGlobals_branch rest
  | case4 a ha hbool =>
    rw [List.singleton_append, stripGitGlobals, if_neg ha, if_neg hbool] at h
    cases h
  | case5 a value globals ha ih =>
    rw [List.cons_append, List.cons_append, stripGitGlobals, if_pos ha] at h ⊢
    exact ih h
  | case6 a value globals ha hbool ih =>
    rw [List.cons_append, List.cons_append, stripGitGlobals, if_neg ha, if_pos hbool] at h ⊢
    exact ih h
  | case7 a value globals ha hbool =>
    rw [List.cons_append, List.cons_append, stripGitGlobals, if_neg ha, if_neg hbool] at h
    cases h

theorem commandIsRead_fill {line : GappedLine} {command : ScreenedCommand}
    (h : line.Calls command) (tokens : List String) :
    commandIsRead (line.fill command tokens) =
      some (command.reads (line.before ++ tokens ++ line.after)) := by
  obtain ⟨hprogram, hglobals⟩ := h
  unfold GappedLine.fill
  rw [commandIsRead, hprogram]
  cases command with
  | ghApi =>
    rw [show line.globals = [] from hglobals]
    rfl
  | azRest =>
    rw [show line.globals = [] from hglobals]
    rfl
  | curl =>
    rw [show line.globals = [] from hglobals]
    rfl
  | wget =>
    rw [show line.globals = [] from hglobals]
    rfl
  | gitBranch =>
    change gitCommandIsRead (line.globals ++ ["branch"] ++ _) = _
    rw [List.append_assoc, List.singleton_append, gitCommandIsRead,
      stripGitGlobals_append hglobals]
    rfl

theorem beginsWith_append (flag rest : String) : beginsWith (flag ++ rest) flag = true :=
  beginsWith_iff.mpr ⟨rest, rfl⟩

theorem beginsWith_trans {text flag beginning : String} (htext : beginsWith text flag = true)
    (hflag : beginsWith flag beginning = true) : beginsWith text beginning = true := by
  obtain ⟨rest, rfl⟩ := beginsWith_iff.mp htext
  obtain ⟨middle, rfl⟩ := beginsWith_iff.mp hflag
  rw [String.append_assoc]
  exact beginsWith_append beginning (middle ++ rest)

theorem beginsWith_joinFlag (flag value : String) :
    beginsWith (joinFlag flag value) flag = true := by
  unfold joinFlag
  split
  · rw [String.append_assoc]
    exact beginsWith_append flag ("=" ++ value)
  · exact beginsWith_append flag value

theorem not_isReadMethod_of_dash {token : String} (h : beginsWith token "-" = true) :
    isReadMethod token.toList = false := by
  obtain ⟨rest, rfl⟩ := beginsWith_iff.mp h
  have hlast : ((("-" ++ rest).toList.dropWhile fun c => c = '"' || c = '\'').reverse.dropWhile
      fun c => c = '"' || c = '\'').getLast? = some '-' := by
    rw [String.toList_append]
    change (('-' :: rest.toList).reverse.dropWhile _).getLast? = _
    rw [List.reverse_cons, List.dropWhile_append]
    split
    · rfl
    · exact List.getLast?_concat
  have hfirst : (stripQuotes ("-" ++ rest).toList).head? = some '-' := by
    unfold stripQuotes trimMatches
    rw [List.head?_reverse]
    exact hlast
  obtain ⟨tail, htail⟩ := List.head?_eq_some_iff.mp hfirst
  rw [isReadMethod, htail]
  simp

theorem carriesBody_dash {dialect : HttpDialect} {token : String}
    (h : carriesBody dialect token = true) : beginsWith token "-" = true := by
  have halone {flag : String} (h : token = flag) (hflag : beginsWith flag "-" = true) :
      beginsWith token "-" = true := h ▸ hflag
  cases dialect <;>
    simp only [carriesBody, Bool.or_eq_true, Bool.and_eq_true, decide_eq_true_eq, List.mem_cons,
      List.not_mem_nil, or_false] at h <;>
    casesm* _ ∨ _, _ ∧ _ <;>
      first | exact halone ‹_› (by decide) | exact beginsWith_trans ‹_› (by decide)

theorem methodFlags_dash (dialect : HttpDialect) :
    ∀ flag ∈ methodFlags dialect, beginsWith flag "-" = true := by
  cases dialect <;> decide

theorem gluedFlag_mem {dialect : HttpDialect} {flag : String} (h : gluedFlag dialect = some flag) :
    flag ∈ methodFlags dialect := by
  cases dialect <;> cases h <;> decide

theorem tokenMethods_plain {dialect : HttpDialect} {token : String}
    (h : beginsWith token "-" = false) (next : Option String) :
    tokenMethods dialect token next = [] := by
  have hafter {flag : String} (hflag : flag ∈ methodFlags dialect) {beginning : String}
      (hbeginning : beginsWith beginning flag = true) : valueAfter beginning token = none := by
    rw [Option.eq_none_iff_forall_ne_some]
    intro value hvalue
    have htoken : beginsWith token beginning = true := by
      unfold beginsWith
      rw [(valueAfter_eq_some.mp hvalue).1, List.isPrefixOf_iff_prefix]
      exact List.prefix_append _ _
    have hdash := beginsWith_trans (beginsWith_trans htoken hbeginning)
      (methodFlags_dash dialect flag hflag)
    rw [h] at hdash
    cases hdash
  have halone : token ∉ methodFlags dialect := by
    intro hmem
    have hdash := methodFlags_dash dialect token hmem
    rw [h] at hdash
    cases hdash
  have hjoined :
      (methodFlags dialect).filterMap (fun flag => valueAfter (flag ++ "=") token) = [] := by
    rw [List.filterMap_eq_nil_iff]
    intro flag hflag
    exact hafter hflag (beginsWith_append flag "=")
  have hglued : ((gluedFlag dialect).bind fun flag => valueAfter flag token) = none := by
    rw [Option.bind_eq_none_iff]
    intro flag hflag
    exact hafter (gluedFlag_mem hflag) (beginsWith_iff.mpr ⟨"", by simp⟩)
  unfold tokenMethods
  simp only [if_neg halone, hjoined, hglued]
  rfl

def endsIn (flags tokens : List String) : Bool := tokens.getLast?.any (· ∈ flags)

theorem httpIsRead_cons (dialect : HttpDialect) (token : String) (rest : List String) :
    httpIsRead (token :: rest) dialect =
      (!carriesBody dialect token && (tokenMethods dialect token rest.head?).all isReadMethod &&
        httpIsRead rest dialect) := by
  unfold httpIsRead httpCarriesBody
  rw [httpMethods, List.any_cons, List.all_append, Bool.not_or]
  simp only [Bool.and_assoc, Bool.and_left_comm]

theorem tokenMethods_some {dialect : HttpDialect} {token : String} (next : String) :
    (tokenMethods dialect token (some next)).all isReadMethod =
      ((!decide (token ∈ methodFlags dialect) || isReadMethod next.toList) &&
        (tokenMethods dialect token none).all isReadMethod) := by
  unfold tokenMethods
  by_cases htoken : token ∈ methodFlags dialect
  · simp [htoken, isReadMethod_stripQuotes]
  · simp [htoken]

theorem httpIsRead_append_dash {dialect : HttpDialect} {token : String}
    (h : beginsWith token "-" = true) (before rest : List String) :
    httpIsRead (before ++ token :: rest) dialect =
      (httpIsRead before dialect && !endsIn (methodFlags dialect) before &&
        httpIsRead (token :: rest) dialect) := by
  induction before with
  | nil => rfl
  | cons first before ih =>
    rw [List.cons_append, httpIsRead_cons, ih, httpIsRead_cons dialect first before]
    cases before with
    | nil =>
      rw [List.nil_append, List.head?_cons, List.head?_nil, tokenMethods_some,
        not_isReadMethod_of_dash h]
      simp [endsIn, httpIsRead, httpCarriesBody, httpMethods, Bool.and_assoc, Bool.and_left_comm]
    | cons second before =>
      rw [List.cons_append, List.head?_cons, List.head?_cons]
      simp only [endsIn, List.getLast?_cons_cons, Bool.and_assoc]

theorem httpIsRead_plain {dialect : HttpDialect} {token : String}
    (h : beginsWith token "-" = false) (rest : List String) :
    httpIsRead (token :: rest) dialect = httpIsRead rest dialect := by
  have hbody : carriesBody dialect token = false := by
    rw [Bool.eq_false_iff]
    intro hbody
    rw [carriesBody_dash hbody] at h
    cases h
  rw [httpIsRead_cons, hbody, tokenMethods_plain h]
  rfl

theorem isReadMethod_of_valueAfter {dialect : HttpDialect} {flag token value : String}
    (hflag : flag ∈ methodFlags dialect)
    (hvalue : valueAfter (flag ++ "=") token = some value.toList ∨
      gluedFlag dialect = some flag ∧ valueAfter flag token = some value.toList)
    {rest : List String} (h : httpIsRead (token :: rest) dialect = true) :
    isReadMethod value.toList = true := by
  rw [httpIsRead_cons, Bool.and_eq_true, Bool.and_eq_true, List.all_eq_true] at h
  rw [← isReadMethod_stripQuotes]
  apply h.1.2
  unfold tokenMethods
  rcases hvalue with hvalue | ⟨hglued, hvalue⟩
  · refine List.mem_append_left _ (List.mem_append_right _ (List.mem_map_of_mem ?_))
    exact List.mem_filterMap.mpr ⟨flag, hflag, hvalue⟩
  · refine List.mem_append_right _ (List.mem_map_of_mem ?_)
    rw [hglued, Option.bind_some, hvalue]
    simp

theorem httpIsRead_rest {dialect : HttpDialect} {token : String} {rest : List String}
    (h : httpIsRead (token :: rest) dialect = true) : httpIsRead rest dialect = true := by
  rw [httpIsRead_cons, Bool.and_eq_true] at h
  exact h.2

theorem httpIsRead_method {dialect : HttpDialect} {flag value : String} {rest : List String}
    (hflag : flag ∈ methodFlags dialect) (hvalue : isReadMethod value.toList = true)
    (h : httpIsRead rest dialect = true) : httpIsRead (flag :: value :: rest) dialect = true := by
  have hplain : beginsWith value "-" = false := by
    rw [Bool.eq_false_iff]
    intro hdash
    rw [not_isReadMethod_of_dash hdash] at hvalue
    cases hvalue
  have hbody : carriesBody dialect flag = false := by
    revert flag
    cases dialect <;> decide
  have hmethods : (tokenMethods dialect flag none).all isReadMethod = true := by
    revert flag
    cases dialect <;> decide
  rw [httpIsRead_cons, List.head?_cons, tokenMethods_some, hbody, hmethods, hvalue,
    httpIsRead_plain hplain, h]
  simp

theorem joinFlag_long {flag : String} (h : beginsWith flag "--" = true) (value : String) :
    joinFlag flag value = flag ++ "=" ++ value := if_pos h

theorem joinFlag_short {flag : String} (h : beginsWith flag "--" = false) (value : String) :
    joinFlag flag value = flag ++ value := by
  unfold joinFlag
  rw [if_neg (by simp [h])]

theorem beginsWith_joinFlag_long {flag : String} (h : beginsWith flag "--" = true)
    (value : String) : beginsWith (joinFlag flag value) (flag ++ "=") = true := by
  rw [joinFlag_long h]
  exact beginsWith_append (flag ++ "=") value

theorem valueAfter_append {beginning value : String} (h : value ≠ "") :
    valueAfter beginning (beginning ++ value) = some value.toList := by
  rw [valueAfter_eq_some, String.toList_append]
  exact ⟨rfl, fun hnil => h (String.toList_eq_nil_iff.mp hnil)⟩

theorem longer_joinFlag {flag value : String} (hshort : beginsWith flag "--" = false)
    (hvalue : value ≠ "") : flag.utf8ByteSize < (joinFlag flag value).utf8ByteSize := by
  have hsize : value.utf8ByteSize ≠ 0 := fun h => hvalue (String.utf8ByteSize_eq_zero_iff.mp h)
  rw [joinFlag_short hshort, String.utf8ByteSize_append]
  omega

def joinedBodyFlags : HttpDialect → List String
  | .curl => ["-d", "-F", "-T", "--data", "--form", "--json", "--upload-file"]
  | .wget => ["--post-data", "--post-file", "--body-data", "--body-file"]
  | .azRest => ["-b", "--body", "--in-file"]

theorem carriesBody_joinFlag {dialect : HttpDialect} {flag value : String}
    (hflag : flag ∈ joinedBodyFlags dialect)
    (hvalue : beginsWith flag "--" = false → value ≠ "") :
    carriesBody dialect (joinFlag flag value) = true := by
  have hjoined {flag beginning : String} (hlong : beginsWith flag "--" = true)
      (heq : flag ++ "=" = beginning) : beginsWith (joinFlag flag value) beginning = true :=
    heq ▸ beginsWith_joinFlag_long hlong value
  cases dialect with
  | curl =>
    rw [carriesBody_curl, givesBody, Bool.or_eq_true, List.any_eq_true, List.any_eq_true]
    by_cases hlater : flag ∈ ["--upload-file", "--json"]
    · have hlong : ∀ flag ∈ ["--upload-file", "--json"], beginsWith flag "--" = true := by decide
      refine .inr ⟨flag, hlater, ?_⟩
      rw [beginsWith_joinFlag_long (hlong flag hlater), Bool.or_true]
    · refine .inl ⟨flag, ?_, beginsWith_joinFlag flag value⟩
      simp only [joinedBodyFlags, List.mem_cons, List.not_mem_nil, or_false] at hflag hlater ⊢
      tauto
  | wget =>
    simp only [joinedBodyFlags, List.mem_cons, List.not_mem_nil, or_false] at hflag
    rcases hflag with rfl | rfl | rfl | rfl
    · simp [carriesBody, @hjoined "--post-data" "--post-data=" (by decide) (by decide)]
    · simp [carriesBody, @hjoined "--post-file" "--post-file=" (by decide) (by decide)]
    · simp [carriesBody, @hjoined "--body-data" "--body-data=" (by decide) (by decide)]
    · simp [carriesBody, @hjoined "--body-file" "--body-file=" (by decide) (by decide)]
  | azRest =>
    simp only [joinedBodyFlags, List.mem_cons, List.not_mem_nil, or_false] at hflag
    rcases hflag with rfl | rfl | rfl
    · have hlonger : 2 < (joinFlag "-b" value).utf8ByteSize :=
        lt_of_eq_of_lt (by decide) (@longer_joinFlag "-b" value (by decide) (hvalue (by decide)))
      simp [carriesBody, beginsWith_joinFlag, hlonger]
    · simp [carriesBody, @hjoined "--body" "--body=" (by decide) (by decide)]
    · simp [carriesBody, @hjoined "--in-file" "--in-file=" (by decide) (by decide)]

theorem gluedFlag_short (dialect : HttpDialect) : ∀ flag ∈ methodFlags dialect,
    beginsWith flag "--" = false → gluedFlag dialect = some flag := by
  cases dialect <;> decide

theorem joined_method_refused {dialect : HttpDialect} {flag value : String}
    (hflag : flag ∈ methodFlags dialect) (hvalue : value ≠ "") {rest : List String}
    (h : httpIsRead (flag :: value :: rest) dialect = false) :
    httpIsRead (joinFlag flag value :: rest) dialect = false := by
  rw [Bool.eq_false_iff] at h ⊢
  intro hread
  refine h (httpIsRead_method hflag ?_ (httpIsRead_rest hread))
  refine isReadMethod_of_valueAfter hflag ?_ hread
  cases hlong : beginsWith flag "--" with
  | true =>
    left
    rw [joinFlag_long hlong]
    exact valueAfter_append hvalue
  | false =>
    right
    rw [joinFlag_short hlong]
    exact ⟨gluedFlag_short dialect flag hflag hlong, valueAfter_append hvalue⟩

theorem joined_body_refused {dialect : HttpDialect} {flag value : String}
    (hflag : flag ∈ joinedBodyFlags dialect)
    (hvalue : beginsWith flag "--" = false → value ≠ "") (rest : List String) :
    httpIsRead (joinFlag flag value :: rest) dialect = false := by
  rw [httpIsRead_cons, carriesBody_joinFlag hflag hvalue]
  rfl

theorem beginsWith_comparable {text a b : String} (ha : beginsWith text a = true)
    (hb : beginsWith text b = true) : beginsWith a b = true ∨ beginsWith b a = true := by
  simp only [beginsWith, List.isPrefixOf_iff_prefix] at *
  exact List.prefix_or_prefix_of_prefix hb ha

theorem not_beginsWith_of_clash {text a b : String} (ha : beginsWith text a = true)
    (hab : beginsWith a b = false) (hba : beginsWith b a = false) : beginsWith text b = false := by
  rw [Bool.eq_false_iff]
  intro hb
  rcases beginsWith_comparable ha hb with h | h
  · rw [hab] at h
    cases h
  · rw [hba] at h
    cases h

theorem ne_of_beginsWith {text a b : String} (ha : beginsWith text a = true)
    (hba : beginsWith b a = false) : text ≠ b := by
  rintro rfl
  rw [ha] at hba
  cases hba

theorem valueAfter_of_clash {text a b : String} (ha : beginsWith text a = true)
    (hab : beginsWith a b = false) (hba : beginsWith b a = false) : valueAfter b text = none := by
  have hmissing := not_beginsWith_of_clash ha hab hba
  unfold beginsWith at hmissing
  simp [valueAfter, stripPrefix, hmissing]

theorem httpIsRead_ignored {dialect : HttpDialect} {token : String}
    (hbody : carriesBody dialect token = false) (hflag : token ∉ methodFlags dialect)
    (hmethods : tokenMethods dialect token none = []) (rest : List String) :
    httpIsRead (token :: rest) dialect = httpIsRead rest dialect := by
  rw [httpIsRead_cons, hbody]
  cases rest with
  | nil =>
    rw [List.head?_nil, hmethods]
    rfl
  | cons next rest =>
    rw [List.head?_cons, tokenMethods_some, hmethods]
    simp [hflag]

theorem joined_inputFile_ignored (value : String) (rest : List String) :
    httpIsRead (joinFlag "--input-file" value :: rest) .azRest = httpIsRead rest .azRest := by
  have hbegins : beginsWith (joinFlag "--input-file" value) "--input-file=" = true :=
    @beginsWith_joinFlag_long "--input-file" (by decide) value
  have hne {flag : String} (h : beginsWith flag "--input-file=" = false) :
      joinFlag "--input-file" value ≠ flag := ne_of_beginsWith hbegins h
  have hmissing {flag : String} (h : beginsWith "--input-file=" flag = false)
      (h' : beginsWith flag "--input-file=" = false) :
      beginsWith (joinFlag "--input-file" value) flag = false :=
        not_beginsWith_of_clash hbegins h h'
  have hvalue {flag : String} (h : beginsWith "--input-file=" flag = false)
      (h' : beginsWith flag "--input-file=" = false) :
      valueAfter flag (joinFlag "--input-file" value) = none := valueAfter_of_clash hbegins h h'
  apply httpIsRead_ignored
  · simp [carriesBody, @hne "--body" (by decide), @hne "-b" (by decide),
      @hne "--in-file" (by decide), @hne "--input-file" (by decide),
      @hmissing "--body=" (by decide) (by decide), @hmissing "--in-file=" (by decide) (by decide),
      @hmissing "-b" (by decide) (by decide)]
  · simp [methodFlags, @hne "-m" (by decide), @hne "--method" (by decide),
      @hne "--http-method" (by decide)]
  · simp [tokenMethods, methodFlags, gluedFlag, @hne "-m" (by decide), @hne "--method" (by decide),
      @hne "--http-method" (by decide), @hvalue "-m=" (by decide) (by decide),
      @hvalue "--method=" (by decide) (by decide),
      @hvalue "--http-method=" (by decide) (by decide),
      @hvalue "-m" (by decide) (by decide)]

theorem joined_empty_ignored {dialect : HttpDialect} {flag : String}
    (hflag : flag ∈ methodFlags dialect) (hlong : beginsWith flag "--" = true)
    (rest : List String) :
    httpIsRead (joinFlag flag "" :: rest) dialect = httpIsRead rest dialect := by
  have hignored : carriesBody dialect (joinFlag flag "") = false ∧
      joinFlag flag "" ∉ methodFlags dialect ∧
        tokenMethods dialect (joinFlag flag "") none = [] := by
    revert flag
    cases dialect <;> decide
  exact httpIsRead_ignored hignored.1 hignored.2.1 hignored.2.2 rest

theorem empty_method_refused {dialect : HttpDialect} {flag : String}
    (hflag : flag ∈ methodFlags dialect) (rest : List String) :
    httpIsRead (flag :: "" :: rest) dialect = false := by
  have hempty : isReadMethod "".toList = false := by decide
  rw [httpIsRead_cons, List.head?_cons, tokenMethods_some, hempty]
  simp [hflag]

def ghMethodFlags : List String := ["-X", "--method"]

theorem ghApiHasWrite_method {flag : String} (h : flag ∈ ghMethodFlags) (value : String)
    (rest : List String) :
    ghApiHasWrite (flag :: value :: rest) = (!isReadMethod value.toList || ghApiHasWrite rest) := by
  have hflag : (flag = "-X" || flag = "--method") = true := by
    simpa [ghMethodFlags] using h
  rw [ghApiHasWrite, if_pos hflag]

theorem ghApiHasWrite_other {token : String} (h : token ∉ ghMethodFlags) (rest : List String) :
    ghApiHasWrite (token :: rest) = (ghApiHasWrite.ghToken token || ghApiHasWrite rest) := by
  have hflag : ¬ (token = "-X" || token = "--method") = true := by
    simpa [ghMethodFlags] using h
  cases rest with
  | nil => simp [ghApiHasWrite]
  | cons next rest => rw [ghApiHasWrite, if_neg hflag]

theorem ghApiHasWrite_append_dash {token : String} (h : beginsWith token "-" = true)
    (before rest : List String) :
    ghApiHasWrite (before ++ token :: rest) =
      (ghApiHasWrite before || endsIn ghMethodFlags before || ghApiHasWrite (token :: rest)) := by
  induction before using ghApiHasWrite.induct with
  | case1 => rfl
  | case2 first =>
    by_cases hfirst : first ∈ ghMethodFlags
    · rw [List.singleton_append, ghApiHasWrite_method hfirst, not_isReadMethod_of_dash h]
      simp [endsIn, hfirst]
    · rw [List.singleton_append, ghApiHasWrite_other hfirst, ghApiHasWrite_other hfirst]
      simp [endsIn, hfirst, ghApiHasWrite]
  | case3 first value before hflag ih =>
    have hfirst : first ∈ ghMethodFlags := by simpa [ghMethodFlags] using hflag
    rw [List.cons_append, List.cons_append, ghApiHasWrite_method hfirst,
      ghApiHasWrite_method hfirst, ih]
    cases before with
    | nil =>
      by_cases hvalue : value ∈ ghMethodFlags
      · have hread : isReadMethod value.toList = false := by
          have hmethods : ∀ flag ∈ ghMethodFlags, isReadMethod flag.toList = false := by decide
          exact hmethods value hvalue
        simp [hread]
      · simp [endsIn, hvalue, ghApiHasWrite]
    | cons second before => simp only [endsIn, List.getLast?_cons_cons, Bool.or_assoc]
  | case4 first value before hflag ih =>
    have hfirst : first ∉ ghMethodFlags := by simpa [ghMethodFlags] using hflag
    rw [List.cons_append, List.cons_append, ghApiHasWrite_other hfirst,
      ghApiHasWrite_other hfirst, ← List.cons_append, ih]
    simp only [endsIn, List.getLast?_cons_cons, Bool.or_assoc]

theorem joinFlag_ne {flag value : String} (h : beginsWith flag "--" = false → value ≠ "") :
    joinFlag flag value ≠ flag := by
  intro heq
  have hsize := congrArg String.utf8ByteSize heq
  cases hlong : beginsWith flag "--" with
  | true =>
    have hequals : "=".utf8ByteSize = 1 := by decide
    rw [joinFlag_long hlong, String.utf8ByteSize_append, String.utf8ByteSize_append] at hsize
    omega
  | false =>
    have hlonger := longer_joinFlag hlong (h hlong)
    omega

def ghFieldFlags : List String := ["-f", "--raw-field", "-F", "--field", "--input"]

theorem joined_field_ignored {flag value : String} (hflag : flag ∈ ghFieldFlags)
    (hvalue : beginsWith flag "--" = false → value ≠ "") (rest : List String) :
    ghApiHasWrite (joinFlag flag value :: rest) = ghApiHasWrite rest := by
  have hbegins := beginsWith_joinFlag flag value
  have halone : ∀ flag ∈ ghFieldFlags, ∀ other ∈ ghMethodFlags ++ ghFieldFlags,
      beginsWith other flag = true → other = flag := by decide
  have hclash : ∀ flag ∈ ghFieldFlags,
      (beginsWith flag "--method=" = false ∧ beginsWith "--method=" flag = false) ∧
        beginsWith flag "-X" = false ∧ beginsWith "-X" flag = false := by decide
  have hlisted : joinFlag flag value ∉ ghMethodFlags ++ ghFieldFlags := by
    intro hmem
    exact joinFlag_ne hvalue (halone flag hflag _ hmem hbegins)
  obtain ⟨hmethod, hfield⟩ := not_or.mp (mt List.mem_append.mpr hlisted)
  obtain ⟨⟨hlong, hlong'⟩, hshort, hshort'⟩ := hclash flag hflag
  have hnolong : stripPrefix "--method=".toList (joinFlag flag value).toList = none := by
    have hmissing := not_beginsWith_of_clash hbegins hlong hlong'
    unfold beginsWith at hmissing
    simp only [stripPrefix, hmissing, Bool.false_eq_true, if_false]
  have htoken : ghApiHasWrite.ghToken (joinFlag flag value) = false := by
    have hnot : ¬ (joinFlag flag value = "-X" || joinFlag flag value = "--method") = true := by
      simpa [ghMethodFlags] using hmethod
    rw [ghApiHasWrite.ghToken, if_neg hnot, valueAfter_of_clash hbegins hshort hshort', hnolong]
    simpa [ghFieldFlags] using hfield
  rw [ghApiHasWrite_other hmethod, htoken, Bool.false_or]

theorem separate_field_refused {flag : String} (hflag : flag ∈ ghFieldFlags) (rest : List String) :
    ghApiHasWrite (flag :: rest) = true := by
  have hother : ∀ flag ∈ ghFieldFlags,
      flag ∉ ghMethodFlags ∧ ghApiHasWrite.ghToken flag = true := by decide
  rw [ghApiHasWrite_other (hother flag hflag).1, (hother flag hflag).2, Bool.true_or]

theorem joined_method_seen {flag value : String} (hflag : flag ∈ ghMethodFlags)
    (hvalue : beginsWith flag "--" = false → value ≠ "") {rest : List String}
    (h : ghApiHasWrite (flag :: value :: rest) = true) :
    ghApiHasWrite (joinFlag flag value :: rest) = true := by
  have hbegins := beginsWith_joinFlag flag value
  have halone : ∀ flag ∈ ghMethodFlags, ∀ other ∈ ghMethodFlags,
      beginsWith other flag = true → other = flag := by decide
  have hmethod : joinFlag flag value ∉ ghMethodFlags := by
    intro hmem
    exact joinFlag_ne hvalue (halone flag hflag _ hmem hbegins)
  have hnot : ¬ (joinFlag flag value = "-X" || joinFlag flag value = "--method") = true := by
    simpa [ghMethodFlags] using hmethod
  rw [ghApiHasWrite_method hflag, Bool.or_eq_true] at h
  rw [ghApiHasWrite_other hmethod, Bool.or_eq_true]
  refine h.imp ?_ id
  intro hwrites
  rw [ghApiHasWrite.ghToken, if_neg hnot, Bool.or_eq_true, Bool.or_eq_true]
  simp only [ghMethodFlags, List.mem_cons, List.not_mem_nil, or_false] at hflag
  rcases hflag with rfl | rfl
  · right
    rw [joinFlag_short (by decide), valueAfter_append (hvalue (by decide))]
    exact hwrites
  · left
    right
    have hstrip : stripPrefix "--method=".toList (joinFlag "--method" value).toList =
        some value.toList := by
      rw [stripPrefix_eq_some, joinFlag_long (by decide), String.toList_append,
        String.toList_append]
      rfl
    rw [hstrip]
    exact hwrites

def branchFlags : List String :=
  ["-d", "-D", "--delete", "-m", "-M", "--move", "-c", "-C", "--copy", "--set-upstream-to", "-u",
    "--unset-upstream", "--edit-description", "-f", "--force", "--track", "--set-upstream",
    "--contains", "--no-contains", "--points-at", "--merged", "--no-merged"]

theorem joined_upstream_ignored {flag value : String}
    (hflag : flag ∈ ScreenedCommand.gitBranch.writeFlags)
    (hvalue : beginsWith flag "--" = false → value ≠ "") (before after : List String) :
    gitBranchIsRead (before ++ joinFlag flag value :: after) =
      gitBranchIsRead (before ++ after) := by
  have hbegins := beginsWith_joinFlag flag value
  have halone : ∀ flag ∈ ScreenedCommand.gitBranch.writeFlags, ∀ other ∈ branchFlags,
      beginsWith other flag = true → other = flag := by decide
  have hdashes : ∀ flag ∈ ScreenedCommand.gitBranch.writeFlags, beginsWith flag "-" = true := by
    decide
  have hlisted : joinFlag flag value ∉ branchFlags := by
    intro hmem
    exact joinFlag_ne hvalue (halone flag hflag _ hmem hbegins)
  have hdash := beginsWith_trans hbegins (hdashes flag hflag)
  simp only [branchFlags, List.mem_cons, List.not_mem_nil, or_false, not_or] at hlisted
  simp [gitBranchIsRead, hlisted, hdash]

theorem separate_upstream_refused {flag : String}
    (hflag : flag ∈ ScreenedCommand.gitBranch.writeFlags) (before after : List String) :
    gitBranchIsRead (before ++ flag :: after) = false := by
  simp only [ScreenedCommand.writeFlags, List.mem_cons, List.not_mem_nil, or_false] at hflag
  rcases hflag with rfl | rfl <;> simp [gitBranchIsRead]

def Recognised (flag value : String) : ScreenedCommand → Prop
  | .ghApi => flag = "-X" ∨ flag = "--method"
  | .azRest => flag ≠ "--input-file" ∧ (flag = "--method" ∨ flag = "--http-method" → value ≠ "")
  | .curl => flag = "--request" → value ≠ ""
  | .wget => flag = "--method" → value ≠ ""
  | .gitBranch => False

/-- The other arguments are no read by themselves, or a method flag stands just before. -/
def WrittenAround (before after : List String) : ScreenedCommand → Prop
  | .ghApi =>
      ghApiHasWrite before = true ∨ endsIn ghMethodFlags before ∨ ghApiHasWrite after = true
  | .azRest => requestAround .azRest
  | .curl => requestAround .curl
  | .wget => requestAround .wget
  | .gitBranch => gitBranchIsRead (before ++ after) = false
where
  requestAround (dialect : HttpDialect) : Prop :=
    httpIsRead before dialect = false ∨ endsIn (methodFlags dialect) before ∨
      httpIsRead after dialect = false

theorem spelling_iff {around separate joined rest recognised : Prop}
    (hseen : recognised → separate → joined)
    (hunseen : ¬ recognised → separate ∧ (joined ↔ rest)) :
    (around ∨ separate → around ∨ joined) ↔ recognised ∨ around ∨ rest := by
  by_cases hrecognised : recognised
  · exact ⟨fun _ => .inl hrecognised, fun _ h => h.imp id (hseen hrecognised)⟩
  · obtain ⟨hseparate, hrest⟩ := hunseen hrecognised
    constructor
    · intro h
      exact .inr ((h (.inr hseparate)).imp id hrest.mp)
    · rintro (h | h) -
      · exact absurd h hrecognised
      · exact h.imp id hrest.mpr

theorem http_spelling_iff {dialect : HttpDialect} {flag value : String} {before after : List String}
    {recognised : Prop} (hdash : beginsWith flag "-" = true)
    (hseen : recognised → httpIsRead (flag :: value :: after) dialect = false →
      httpIsRead (joinFlag flag value :: after) dialect = false)
    (hunseen : ¬ recognised → httpIsRead (flag :: value :: after) dialect = false ∧
      httpIsRead (joinFlag flag value :: after) dialect = httpIsRead after dialect) :
    (httpIsRead (before ++ [flag, value] ++ after) dialect = false →
      httpIsRead (before ++ [joinFlag flag value] ++ after) dialect = false) ↔
      recognised ∨ WrittenAround.requestAround before after dialect := by
  have hjoined := beginsWith_trans (beginsWith_joinFlag flag value) hdash
  rw [List.append_assoc, List.append_assoc, List.cons_append, List.singleton_append,
    List.singleton_append, httpIsRead_append_dash hdash, httpIsRead_append_dash hjoined,
    WrittenAround.requestAround, ← @or_assoc (httpIsRead before dialect = false)]
  simp only [Bool.and_eq_false_iff, Bool.not_eq_false']
  refine spelling_iff hseen ?_
  intro hrecognised
  obtain ⟨hseparate, hrest⟩ := hunseen hrecognised
  exact ⟨hseparate, by rw [hrest]⟩

theorem gh_spelling_iff {flag value : String} (hflag : flag ∈ ScreenedCommand.ghApi.writeFlags)
    (hvalue : beginsWith flag "--" = false → value ≠ "") {before after : List String} :
    ((!ghApiHasWrite (before ++ [flag, value] ++ after)) = false →
      (!ghApiHasWrite (before ++ [joinFlag flag value] ++ after)) = false) ↔
      Recognised flag value .ghApi ∨ WrittenAround before after .ghApi := by
  have hdashes : ∀ flag ∈ ScreenedCommand.ghApi.writeFlags, beginsWith flag "-" = true ∧
      (flag = "-X" ∨ flag = "--method" → flag ∈ ghMethodFlags) ∧
      (¬ (flag = "-X" ∨ flag = "--method") → flag ∈ ghFieldFlags) := by decide
  obtain ⟨hdash, hmethod, hfield⟩ := hdashes flag hflag
  have hjoined := beginsWith_trans (beginsWith_joinFlag flag value) hdash
  rw [List.append_assoc, List.append_assoc, List.cons_append, List.singleton_append,
    List.singleton_append, ghApiHasWrite_append_dash hdash, ghApiHasWrite_append_dash hjoined,
    WrittenAround, ← @or_assoc (ghApiHasWrite before = true)]
  simp only [Bool.not_eq_false', Bool.or_eq_true]
  refine spelling_iff ?_ ?_
  · intro hrecognised
    exact joined_method_seen (hmethod hrecognised) hvalue
  · intro hrecognised
    refine ⟨separate_field_refused (hfield hrecognised) _, ?_⟩
    rw [joined_field_ignored (hfield hrecognised) hvalue]

theorem http_request_iff {dialect : HttpDialect} {flag value : String} {before after : List String}
    {longMethod : Prop} (hdash : beginsWith flag "-" = true)
    (hvalue : beginsWith flag "--" = false → value ≠ "")
    (hkind : flag ∈ joinedBodyFlags dialect ∧ ¬ longMethod ∨
      flag ∈ methodFlags dialect ∧ (beginsWith flag "--" = true → longMethod)) :
    (httpIsRead (before ++ [flag, value] ++ after) dialect = false →
      httpIsRead (before ++ [joinFlag flag value] ++ after) dialect = false) ↔
      (longMethod → value ≠ "") ∨ WrittenAround.requestAround before after dialect := by
  refine http_spelling_iff hdash ?_ ?_
  · intro hmethodValue h
    rcases hkind with ⟨hbody, -⟩ | ⟨hmethod, hlong⟩
    · exact joined_body_refused hbody hvalue after
    · refine joined_method_refused hmethod ?_ h
      cases hspelled : beginsWith flag "--" with
      | true => exact hmethodValue (hlong hspelled)
      | false => exact hvalue hspelled
  · intro hempty
    obtain ⟨hlong, hnone⟩ := Classical.not_imp.mp hempty
    obtain rfl : value = "" := not_not.mp hnone
    rcases hkind with ⟨-, hbody⟩ | ⟨hmethod, -⟩
    · exact absurd hlong hbody
    · have hspelled : beginsWith flag "--" = true := by
        by_contra hshort
        exact hvalue (by simpa using hshort) rfl
      exact ⟨empty_method_refused hmethod after, joined_empty_ignored hmethod hspelled after⟩

/-- Whatever the rest of the line is, a flag and its value are refused in the joined spelling
too exactly when that spelling is recognised, or the rest is refused anyway. -/
theorem joined_flag_refused_iff (command : ScreenedCommand) (line : GappedLine)
    (flag value : String) (hline : line.Calls command) (hflag : flag ∈ command.writeFlags)
    (hvalue : beginsWith flag "--" = false → value ≠ "") :
    (commandIsRead (line.fill command [flag, value]) = some false →
      commandIsRead (line.fill command [joinFlag flag value]) = some false) ↔
      Recognised flag value command ∨ WrittenAround line.before line.after command := by
  have hkinds : ∀ flag ∈ command.writeFlags, beginsWith flag "-" = true := by
    cases command <;> decide
  have hdash := hkinds flag hflag
  rw [commandIsRead_fill hline, commandIsRead_fill hline, Option.some.injEq, Option.some.injEq]
  cases command with
  | ghApi => exact gh_spelling_iff hflag hvalue
  | azRest =>
    by_cases hfile : flag = "--input-file"
    · subst hfile
      refine http_spelling_iff hdash (fun hrecognised => absurd rfl hrecognised.1) ?_
      intro _
      refine ⟨?_, joined_inputFile_ignored value line.after⟩
      rw [httpIsRead_cons]
      rfl
    · have hkinds : ∀ flag ∈ ScreenedCommand.azRest.writeFlags, flag ≠ "--input-file" →
          flag ∈ joinedBodyFlags .azRest ∧ ¬ (flag = "--method" ∨ flag = "--http-method") ∨
            flag ∈ methodFlags .azRest ∧
              (beginsWith flag "--" = true → flag = "--method" ∨ flag = "--http-method") := by
        decide
      have hrecognised : Recognised flag value .azRest ↔
          (flag = "--method" ∨ flag = "--http-method" → value ≠ "") := and_iff_right hfile
      rw [hrecognised]
      exact http_request_iff hdash hvalue (hkinds flag hflag hfile)
  | curl =>
    have hkinds : ∀ flag ∈ ScreenedCommand.curl.writeFlags,
        flag ∈ joinedBodyFlags .curl ∧ ¬ flag = "--request" ∨
          flag ∈ methodFlags .curl ∧ (beginsWith flag "--" = true → flag = "--request") := by
      decide
    exact http_request_iff hdash hvalue (hkinds flag hflag)
  | wget =>
    have hkinds : ∀ flag ∈ ScreenedCommand.wget.writeFlags,
        flag ∈ joinedBodyFlags .wget ∧ ¬ flag = "--method" ∨
          flag ∈ methodFlags .wget ∧ (beginsWith flag "--" = true → flag = "--method") := by
      decide
    exact http_request_iff hdash hvalue (hkinds flag hflag)
  | gitBranch =>
    change (gitBranchIsRead _ = false → gitBranchIsRead _ = false) ↔ False ∨
      gitBranchIsRead _ = false
    rw [List.append_assoc, List.append_assoc, List.cons_append, List.singleton_append,
      List.singleton_append, separate_upstream_refused hflag, joined_upstream_ignored hflag hvalue]
    simp

theorem joined_json_refused :
    baseName "/usr/bin/curl" = "curl" ∧
      commandIsRead ["/usr/bin/curl", "--json=1", "https://host/items"] = some false := by
  have hseparate : commandIsRead ["/usr/bin/curl", "--json", "1", "https://host/items"] =
      some false := by decide
  refine ⟨by decide, ?_⟩
  exact (joined_flag_refused_iff .curl ⟨"/usr/bin/curl", [], [], ["https://host/items"]⟩ "--json"
    "1" ⟨by decide, rfl⟩ (by decide) (by decide)).mpr (.inl fun h => absurd h (by decide)) hseparate

/-- A field that posts, an upstream that is set and a file that is sent, all let through once
they are joined to their flags. -/
theorem joined_writes_pass :
    commandIsRead ["gh", "api", "repos/o/r/issues", "-f", "title=x"] = some false ∧
      commandIsRead ["gh", "api", "repos/o/r/issues", "-ftitle=x"] = some true ∧
      commandIsRead ["git", "branch", "-u", "origin/main"] = some false ∧
      commandIsRead ["git", "branch", "-uorigin/main"] = some true ∧
      commandIsRead ["az", "rest", "--input-file", "body"] = some false ∧
      commandIsRead ["az", "rest", "--input-file=body"] = some true := by
  decide

end Simard.Guards
