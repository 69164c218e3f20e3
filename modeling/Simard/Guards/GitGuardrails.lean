import Simard.Guards.ReadOnly
import Simard.Library.Store
import Simard.Library.Words

/-! The guardrails on git commands. The arguments are joined to one line and searched for
destructive patterns; in a workspace under a protected root only known subcommands run; an
observe-only identity is held to reads before that. -/
namespace Simard.Guards
open Simard.Library

/-- The environment variables that are read; one that is unset or no text is absent. -/
structure GitEnv where
  observeOnly : Option String
  gitGuardrails : Option String
  gitProtectedRepos : Option String

namespace GitEnv

variable (env : GitEnv)

def observeOnlyEnabled : Bool := env.observeOnly.any (· ∈ ["1", "true", "enabled", "yes", "on"])

def guardrailsEnabled : Bool := env.gitGuardrails.all (· ∉ ["0", "false", "disabled"])

def protectedRoots : List (List Char) :=
  ((env.gitProtectedRepos.getD "").toList.splitOn ':').filter (· ≠ [])

end GitEnv

def blockedPatterns : List String :=
  ["push --force", "push -f", "reset --hard", "branch -D main", "branch -D release",
    "branch -D master", "clean -fdx", "reflog expire", "gc --prune=now --aggressive"]

def safeCommands : List String :=
  ["add", "commit", "checkout", "branch", "push", "pull", "fetch", "stash", "status", "log", "diff",
    "show", "tag", "remote", "config", "rev-parse"]

def joinArgs (args : List String) : List Char := [' '].intercalate (args.map String.toList)

def blockedMessage (argv : List String) : String :=
  "GUARDRAIL BLOCKED: observe-only (read-only) identity refuses to run a potentially mutating " ++
    "command `" ++ String.ofList (joinArgs argv) ++ "`. This identity may only OBSERVE target " ++
    "repositories — no commit, push, branch, PR, work-item edit, comment, or ACL change is " ++
    "permitted anywhere. If this command is genuinely read-only and was refused, it was refused " ++
    "by design (fail-closed): use an explicit read form (e.g. `git fetch`/`git log`, `az ... " ++
    "list|show`, `az rest --method GET`, `gh ... list|view`, `curl -X GET`)."

def guardObserveOnlyGit (env : GitEnv) (gitArgs : List String) : Option (Except String Unit) :=
  if env.observeOnlyEnabled then
    (gitCommandIsRead gitArgs).map fun read =>
      if read then .ok () else .error (blockedMessage ("git" :: gitArgs))
  else some (.ok ())

def destructivePattern (args : List String) : Option String :=
  blockedPatterns.find? fun pattern => containsText pattern.toList (joinArgs args)

def isProtected (env : GitEnv) (workspace : String) : Bool :=
  env.protectedRoots.any fun root => root.isPrefixOf workspace.toList

def checkProtected (env : GitEnv) (workspace : String) (args : List String) :
    Except String Unit :=
  let firstArg := args.head?.getD ""
  if isProtected env workspace ∧ firstArg ∉ safeCommands then
    .error ("GUARDRAIL BLOCKED: 'git " ++ firstArg ++ "' is not in the safe command list for " ++
      "protected repo at " ++ workspace ++ ". Safe commands: [" ++
      ", ".intercalate (safeCommands.map quoted) ++ "]")
  else .ok ()

def checkPatterns (args : List String) : Except String Unit :=
  match destructivePattern args with
  | some pattern =>
      .error ("GUARDRAIL BLOCKED: 'git " ++ String.ofList (joinArgs args) ++ "' matches " ++
        "destructive pattern '" ++ pattern ++
          "'. Destructive git operations are not permitted in " ++
        "autonomous mode.")
  | none => .ok ()

def checkGitSafety (env : GitEnv) (workspace : String) (args : List String) :
    Option (Except String Unit) :=
  (guardObserveOnlyGit env args).map fun floor => do
    floor
    if env.guardrailsEnabled then
      checkPatterns args
      checkProtected env workspace args

def wordsOf (text : String) : List (List Char) := text.toList.splitOn ' '

def argWords (args : List String) : List (List Char) := args.flatMap wordsOf

def Patterned (args : List String) : Prop :=
  ∃ pattern ∈ blockedPatterns, SideBySide (wordsOf pattern) (argWords args)

def HoldsPattern (arg : String) : Prop :=
  ∃ pattern ∈ blockedPatterns, SideBySide (wordsOf pattern) (wordsOf arg)

/-- The words of a pattern begin at the end of an argument and go on over others: whole ones, and
the beginning of the last. -/
def GoesOn (arg : String) (others : List String) : Prop :=
  ∃ pattern ∈ blockedPatterns, SpreadOver wordsOf (wordsOf pattern) arg others

theorem destructivePattern_isSome_iff {args : List String} (h : args ≠ []) :
    (destructivePattern args).isSome ↔ Patterned args := by
  have hwords : (joinArgs args).splitOn ' ' = argWords args := by
    rw [joinArgs, splitOn_intercalate_parts (by simpa using h), List.flatMap_map]
    rfl
  have hspaced : ∀ pattern ∈ blockedPatterns, ' ' ∈ pattern.toList := by decide
  rw [destructivePattern, List.find?_isSome, Patterned]
  refine exists_congr fun pattern => and_congr_right fun hpattern => ?_
  rw [containsText_iff, infix_iff_sideBySide (hspaced pattern hpattern), hwords, wordsOf]

/-- One argument holds a pattern, or one begins a pattern that its neighbours go on with. -/
def Together (args : List String) : Prop :=
  (∃ arg ∈ args, HoldsPattern arg) ∨
    ∃ arg others, (arg :: others) <:+: args ∧ GoesOn arg others

theorem patterned_iff {args : List String} : Patterned args ↔ Together args := by
  unfold Patterned Together HoldsPattern GoesOn argWords
  simp only [sideBySide_flatMap]
  constructor
  · rintro ⟨pattern, hpattern, ⟨arg, harg, hholds⟩ | ⟨arg, others, hinfix, hover⟩⟩
    · exact .inl ⟨arg, harg, pattern, hpattern, hholds⟩
    · exact .inr ⟨arg, others, hinfix, pattern, hpattern, hover⟩
  · rintro (⟨arg, harg, pattern, hpattern, hholds⟩ | ⟨arg, others, hinfix,
      pattern, hpattern, hover⟩)
    · exact ⟨pattern, hpattern, .inl ⟨arg, harg, hholds⟩⟩
    · exact ⟨pattern, hpattern, .inr ⟨arg, others, hinfix, hover⟩⟩

theorem GoesOn.ne_nil {arg : String} {others : List String} (h : GoesOn arg others) :
    others ≠ [] := by
  obtain ⟨-, -, front, back, mids, last, rfl, -⟩ := h
  exact List.append_ne_nil_of_right_ne_nil _ (List.cons_ne_nil _ _)

/-- Whether the command may run; no answer where the program stops. -/
def allowed (verdict : Option (Except String Unit)) : Option Bool :=
  verdict.map fun verdict => verdict.toBool

/-- A force push or a hard reset, wherever its flag stands. -/
def Forced (sub : String) (rest : List String) : Prop :=
  sub = "push" ∧ ("-f" ∈ rest ∨ "--force" ∈ rest) ∨ sub = "reset" ∧ "--hard" ∈ rest

def blockedWords : List String :=
  ["push", "--force", "-f", "reset", "--hard", "branch", "-D", "main", "release", "master", "clean",
    "-fdx", "reflog", "expire", "gc", "--prune=now", "--aggressive"]

/-- Where a flag stands makes no difference, nor does text inside an argument. -/
structure PositionBlind (env : GitEnv) (workspace sub : String) (rest : List String) : Prop where
  refused : Forced sub rest → allowed (checkGitSafety env workspace (sub :: rest)) = some false
  unordered : ∀ rest', rest'.Perm rest →
    allowed (checkGitSafety env workspace (sub :: rest')) =
      allowed (checkGitSafety env workspace (sub :: rest))
  unread : (∀ token ∈ sub :: rest, token ∉ blockedWords) →
    checkPatterns (sub :: rest) = .ok ()

def floorReads (env : GitEnv) (args : List String) : Option Bool :=
  if env.observeOnlyEnabled then gitCommandIsRead args else some true

def Unlisted (env : GitEnv) (workspace sub : String) : Prop :=
  isProtected env workspace ∧ sub ∉ safeCommands

instance (env : GitEnv) (workspace sub : String) : Decidable (Unlisted env workspace sub) :=
  inferInstanceAs (Decidable (_ ∧ _))

/-- The words of no pattern stand side by side, in a command that may run otherwise. -/
def LetThrough (env : GitEnv) (workspace sub : String) (args : List String) : Prop :=
  floorReads env args = some true ∧ ¬ Patterned args ∧ ¬ Unlisted env workspace sub

/-- The words of a pattern stand side by side, or the command may not run anyway. -/
def TurnedAway (env : GitEnv) (workspace sub : String) (args : List String) : Prop :=
  floorReads env args = some false ∨
    floorReads env args = some true ∧ (Patterned args ∨ Unlisted env workspace sub)

theorem checkPatterns_eq_ok {args : List String} (h : args ≠ []) :
    checkPatterns args = .ok () ↔ ¬ Patterned args := by
  rw [← destructivePattern_isSome_iff h, checkPatterns]
  cases destructivePattern args <;> simp

theorem checkProtected_eq_ok {env : GitEnv} {workspace sub : String} {rest : List String} :
    checkProtected env workspace (sub :: rest) = .ok () ↔ ¬ Unlisted env workspace sub := by
  unfold checkProtected Unlisted
  dsimp only [List.head?_cons, Option.getD_some]
  split <;> simp_all

variable {env : GitEnv} {workspace sub : String} {rest : List String}

theorem toBool_eq_true {verdict : Except String Unit} :
    verdict.toBool = true ↔ verdict = .ok () := by
  cases verdict <;> simp [Except.toBool]

theorem allowed_checkGitSafety (henabled : env.guardrailsEnabled = true) (workspace sub : String)
    (rest : List String) :
    allowed (checkGitSafety env workspace (sub :: rest)) =
      (floorReads env (sub :: rest)).map fun read =>
        read && (checkPatterns (sub :: rest)).toBool &&
          (checkProtected env workspace (sub :: rest)).toBool := by
  have hbind (left right : Except String Unit) :
      (left >>= fun _ => right).toBool = (left.toBool && right.toBool) := by
    cases left <;> rfl
  unfold allowed checkGitSafety guardObserveOnlyGit floorReads
  by_cases hobserve : env.observeOnlyEnabled = true
  · simp only [if_pos hobserve, if_pos henabled]
    cases gitCommandIsRead (sub :: rest) with
    | none => rfl
    | some read =>
      cases read with
      | true =>
        simp only [Option.map_some, if_true, hbind]
        rfl
      | false => rfl
  · simp only [if_neg hobserve, if_pos henabled, Option.map_some, hbind]
    rfl

theorem letThrough_iff (henabled : env.guardrailsEnabled = true) :
    allowed (checkGitSafety env workspace (sub :: rest)) = some true ↔
      LetThrough env workspace sub (sub :: rest) := by
  rw [allowed_checkGitSafety henabled, Option.map_eq_some_iff, LetThrough]
  simp only [Bool.and_eq_true, toBool_eq_true, checkPatterns_eq_ok (List.cons_ne_nil sub rest),
    checkProtected_eq_ok]
  constructor
  · rintro ⟨read, hread, ⟨rfl, hwords⟩, hlisted⟩
    exact ⟨hread, hwords, hlisted⟩
  · rintro ⟨hread, hwords, hlisted⟩
    exact ⟨true, hread, ⟨rfl, hwords⟩, hlisted⟩

theorem turnedAway_iff (henabled : env.guardrailsEnabled = true) :
    allowed (checkGitSafety env workspace (sub :: rest)) = some false ↔
      TurnedAway env workspace sub (sub :: rest) := by
  have hrest : (checkPatterns (sub :: rest)).toBool = true ∧
      (checkProtected env workspace (sub :: rest)).toBool = true ↔
        ¬ (Patterned (sub :: rest) ∨ Unlisted env workspace sub) := by
    rw [toBool_eq_true, toBool_eq_true, checkPatterns_eq_ok (List.cons_ne_nil sub rest),
      checkProtected_eq_ok, not_or]
  rw [allowed_checkGitSafety henabled, Option.map_eq_some_iff, TurnedAway]
  constructor
  · rintro ⟨read, hread, hverdict⟩
    cases read with
    | false => exact .inl hread
    | true =>
      refine .inr ⟨hread, ?_⟩
      by_contra hneither
      obtain ⟨hpatterns, hprotected⟩ := hrest.mpr hneither
      rw [hpatterns, hprotected] at hverdict
      cases hverdict
  · rintro (hread | ⟨hread, hturned⟩)
    · exact ⟨false, hread, rfl⟩
    · refine ⟨true, hread, ?_⟩
      rw [Bool.true_and, ← Bool.not_eq_true, Bool.and_eq_true, hrest, not_not]
      exact hturned

/-- Subcommands that the floor judges by the first argument, with what makes them reads. -/
def headVerbs : List (String × List String) :=
  [("remote", ["-v", "--verbose", "show", "get-url"]), ("reflog", ["show"]),
    ("stash", ["list", "show"]), ("notes", ["list", "show"]), ("worktree", ["list"]),
    ("submodule", ["status", "summary"])]

def Screened (env : GitEnv) (sub : String) : Prop :=
  env.observeOnlyEnabled = true → sub ∉ gitValueGlobals ∧ isBoolGlobal sub = false

/-- Where the floor judges by the first argument, all arguments make a read or none does. -/
def FloorSettled (env : GitEnv) (sub : String) (rest : List String) : Prop :=
  Screened env sub ∧ (env.observeOnlyEnabled = true → ∀ entry ∈ headVerbs, entry.1 = sub →
    (∀ arg ∈ rest, arg ∈ entry.2) ∨ ∀ arg ∈ rest, arg ∉ entry.2)

/-- No argument holds a pattern, and none begins one that others go on with. -/
structure Scattered (sub : String) (rest : List String) : Prop where
  inside : ∀ arg ∈ sub :: rest, ¬ HoldsPattern arg
  afterSub : ∀ others, others.Subperm rest → ¬ GoesOn sub others
  later : ∀ arg others, (arg :: others).Subperm rest → ¬ GoesOn arg others

/-- What turns the command away does not move: its place in a protected workspace, a pattern in one
argument, or one that the subcommand begins and every argument goes on with. -/
def Fixed (env : GitEnv) (workspace sub : String) (rest : List String) : Prop :=
  Unlisted env workspace sub ∨ (∃ arg ∈ sub :: rest, HoldsPattern arg) ∨
    rest ≠ [] ∧ ∀ arg ∈ rest, GoesOn sub [arg]

/-- Where the words of the patterns stand among the arguments. -/
structure WordsInPlace (env : GitEnv) (workspace sub : String) (rest : List String) : Prop where
  verdict : Screened env sub ∧ Fixed env workspace sub rest ∨
    FloorSettled env sub rest ∧ (floorReads env (sub :: rest) = some false ∨
      floorReads env (sub :: rest) = some true ∧ Scattered sub rest)
  token : Together (sub :: rest) → ∃ token ∈ sub :: rest, token ∈ blockedWords

/-- Only the subcommand begins a pattern, and only single arguments go on with it. -/
structure PlainArgs (sub : String) (rest : List String) : Prop where
  single : ∀ others, others.Subperm rest → GoesOn sub others → others.length = 1
  later : ∀ arg others, (arg :: others).Subperm rest → ¬ GoesOn arg others

section Orders

variable {rest' : List String}

theorem heads_of_perm {verbs : List String}
    (h : (∀ arg ∈ rest, arg ∈ verbs) ∨ ∀ arg ∈ rest, arg ∉ verbs) (hperm : rest'.Perm rest) :
    rest' = [] ∧ rest = [] ∨ ∃ arg' tail' arg tail, rest' = arg' :: tail' ∧ rest = arg :: tail ∧
      (arg' ∈ verbs ↔ arg ∈ verbs) := by
  cases rest with
  | nil => exact .inl ⟨hperm.eq_nil, rfl⟩
  | cons arg tail =>
    have hne : rest' ≠ [] := by
      rintro rfl
      exact List.cons_ne_nil arg tail hperm.symm.eq_nil
    obtain ⟨arg', tail', rfl⟩ := List.exists_cons_of_ne_nil hne
    refine .inr ⟨arg', tail', arg, tail, rfl, rfl, ?_⟩
    have harg' := hperm.subset (List.mem_cons_self (a := arg'))
    rcases h with hall | hnone
    · simp [hall arg' harg', hall arg List.mem_cons_self]
    · simp [hnone arg' harg', hnone arg List.mem_cons_self]

theorem gitSubcommandIsRead_perm (hperm : rest'.Perm rest)
    (hheads : ∀ entry ∈ headVerbs, entry.1 = sub →
      (∀ arg ∈ rest, arg ∈ entry.2) ∨ ∀ arg ∈ rest, arg ∉ entry.2) :
    gitSubcommandIsRead (sub :: rest') = gitSubcommandIsRead (sub :: rest) := by
  have hany (p : String → Bool) : rest'.any p = rest.any p := hperm.any_eq
  unfold gitSubcommandIsRead
  refine ite_congr rfl (fun _ => rfl) fun _ => ite_congr rfl (fun _ => ?_) fun _ =>
    ite_congr rfl (fun _ => ?_) fun _ => ite_congr rfl (fun _ => ?_) fun _ =>
    ite_congr rfl (fun hsub => ?_) fun _ => ite_congr rfl (fun hsub => ?_) fun _ =>
    ite_congr rfl (fun hsub => ?_) fun _ => ite_congr rfl (fun hsub => ?_) fun _ =>
    ite_congr rfl (fun hsub => ?_) fun _ => ite_congr rfl (fun hsub => ?_) fun _ => rfl
  · simp only [gitBranchIsRead, hany]
  · simp only [gitTagIsRead, hany]
  · simp only [gitConfigIsRead, hany]
  · rcases heads_of_perm (hheads _ (.head _) hsub.symm) hperm with
      ⟨rfl, rfl⟩ | ⟨arg', tail', arg, tail, rfl, rfl, hsame⟩
    · rfl
    · exact decide_eq_decide.mpr hsame
  · rcases heads_of_perm (hheads _ (.tail _ (.head _)) hsub.symm) hperm with
      ⟨rfl, rfl⟩ | ⟨arg', tail', arg, tail, rfl, rfl, hsame⟩
    · rfl
    · exact decide_eq_decide.mpr (by simpa using hsame)
  · rcases heads_of_perm (hheads _ (.tail _ (.tail _ (.head _))) hsub.symm) hperm with
      ⟨rfl, rfl⟩ | ⟨arg', tail', arg, tail, rfl, rfl, hsame⟩
    · rfl
    · exact decide_eq_decide.mpr (by simpa using hsame)
  · rcases heads_of_perm (hheads _ (.tail _ (.tail _ (.tail _ (.head _)))) hsub.symm) hperm with
      ⟨rfl, rfl⟩ | ⟨arg', tail', arg, tail, rfl, rfl, hsame⟩
    · rfl
    · exact decide_eq_decide.mpr (by simpa using hsame)
  · rcases heads_of_perm (hheads _ (.tail _ (.tail _ (.tail _ (.tail _ (.head _))))) hsub.symm)
      hperm with ⟨rfl, rfl⟩ | ⟨arg', tail', arg, tail, rfl, rfl, hsame⟩
    · rfl
    · exact decide_eq_decide.mpr (by simpa using hsame)
  · rcases heads_of_perm (hheads _ (.tail _ (.tail _ (.tail _ (.tail _ (.tail _ (.head _))))))
      hsub.symm) hperm with ⟨rfl, rfl⟩ | ⟨arg', tail', arg, tail, rfl, rfl, hsame⟩
    · rfl
    · exact decide_eq_decide.mpr (by simpa using hsame)

theorem stripGitGlobals_of_screened (hvalue : sub ∉ gitValueGlobals)
    (hbool : isBoolGlobal sub = false) : stripGitGlobals (sub :: rest) = some (sub :: rest) := by
  cases rest <;> simp [stripGitGlobals, hvalue, hbool]

theorem Screened.floorReads_ne_none (h : Screened env sub) : floorReads env
    (sub :: rest) ≠ none := by
  unfold floorReads gitCommandIsRead
  split
  next hobserve =>
    obtain ⟨hvalue, hbool⟩ := h hobserve
    rw [stripGitGlobals_of_screened hvalue hbool]
    exact Option.some_ne_none _
  · exact Option.some_ne_none _

theorem FloorSettled.floorReads_eq (h : FloorSettled env sub rest) (hperm : rest'.Perm rest) :
    floorReads env (sub :: rest') = floorReads env (sub :: rest) := by
  unfold floorReads gitCommandIsRead
  split
  next hobserve =>
    obtain ⟨hvalue, hbool⟩ := h.1 hobserve
    rw [stripGitGlobals_of_screened hvalue hbool, stripGitGlobals_of_screened hvalue hbool,
      Option.map_some, Option.map_some, gitSubcommandIsRead_perm hperm (h.2 hobserve)]
  · rfl

theorem Scattered.not_patterned (h : Scattered sub rest) (hperm : rest'.Perm rest) :
    ¬ Patterned (sub :: rest') := by
  rw [patterned_iff]
  rintro (⟨arg, harg, hholds⟩ | ⟨arg, others, hinfix, hgoes⟩)
  · exact h.inside arg ((hperm.cons sub).subset harg) hholds
  · rcases List.infix_cons_iff.mp hinfix with hbegins | hlater
    · obtain ⟨rfl, hothers⟩ := List.cons_prefix_cons.mp hbegins
      exact h.afterSub others (hothers.sublist.subperm.trans hperm.subperm) hgoes
    · exact h.later arg others (hlater.sublist.subperm.trans hperm.subperm) hgoes

theorem Fixed.patterned (h : Fixed env workspace sub rest) (hperm : rest'.Perm rest) :
    Patterned (sub :: rest') ∨ Unlisted env workspace sub := by
  rcases h with hlisted | ⟨arg, harg, hholds⟩ | ⟨hne, hall⟩
  · exact .inr hlisted
  · exact .inl (patterned_iff.mpr (.inl ⟨arg, (hperm.cons sub).symm.subset harg, hholds⟩))
  · refine .inl (patterned_iff.mpr (.inr ?_))
    cases rest' with
    | nil => exact absurd hperm.symm.eq_nil hne
    | cons arg tail =>
      exact ⟨sub, [arg], ⟨[], tail, rfl⟩, hall arg (hperm.subset List.mem_cons_self)⟩

theorem exists_patterned {others : List String} (hothers : others.Subperm rest)
    (hgoes : GoesOn sub others) : ∃ rest', rest'.Perm rest ∧ Patterned (sub :: rest') := by
  obtain ⟨some', hsome, hsub⟩ := hothers
  obtain ⟨remaining, hrest⟩ := hsub.exists_perm_append
  refine ⟨others ++ remaining, ?_,
    patterned_iff.mpr (.inr ⟨sub, others, ⟨[], remaining, rfl⟩, hgoes⟩)⟩
  exact (hsome.symm.append_right remaining).trans hrest.symm

theorem goesOn_single {pattern flag : String} {first last : List Char}
    (hpattern : pattern ∈ blockedPatterns) (hwords : wordsOf pattern = [first, last])
    (hsub : wordsOf sub = [first]) (hflag : wordsOf flag = [last]) : GoesOn sub [flag] :=
  ⟨pattern, hpattern, [first], [last], [], flag, rfl, hwords,
    ⟨first, [], [], first, rfl, hsub, List.suffix_rfl⟩,
    ⟨[], last, last, [], rfl, hflag, List.prefix_rfl⟩⟩

theorem Scattered.not_forced (h : Scattered sub rest) : ¬ Forced sub rest := by
  have hflag {flag : String} (hmem : flag ∈ rest) : [flag].Subperm rest :=
    (List.singleton_sublist.mpr hmem).subperm
  rintro (⟨rfl, hmem | hmem⟩ | ⟨rfl, hmem⟩)
  · exact h.afterSub _ (hflag hmem)
      (@goesOn_single _ "push -f" _ _ _ (by decide) rfl rfl rfl)
  · exact h.afterSub _ (hflag hmem)
      (@goesOn_single _ "push --force" _ _ _ (by decide) rfl rfl rfl)
  · exact h.afterSub _ (hflag hmem)
      (@goesOn_single _ "reset --hard" _ _ _ (by decide) rfl rfl rfl)

theorem PlainArgs.exists_unpatterned (h : PlainArgs sub rest) {arg : String} (harg : arg ∈ rest)
    (hinside : ∀ arg ∈ sub :: rest, ¬ HoldsPattern arg) (hapart : ¬ GoesOn sub [arg]) :
    ∃ rest', rest'.Perm rest ∧ ¬ Patterned (sub :: rest') := by
  have hperm : (arg :: rest.erase arg).Perm rest := (List.perm_cons_erase harg).symm
  refine ⟨arg :: rest.erase arg, hperm, ?_⟩
  rw [patterned_iff]
  rintro (⟨other, hother, hholds⟩ | ⟨other, others, hinfix, hgoes⟩)
  · exact hinside other ((hperm.cons sub).subset hother) hholds
  · rcases List.infix_cons_iff.mp hinfix with hbegins | hlater
    · obtain ⟨rfl, hothers⟩ := List.cons_prefix_cons.mp hbegins
      have hone := h.single others (hothers.sublist.subperm.trans hperm.subperm) hgoes
      obtain ⟨only, rfl⟩ := List.length_eq_one_iff.mp hone
      obtain ⟨rfl, -⟩ := List.cons_prefix_cons.mp hothers
      exact hapart hgoes
    · exact h.later other others (hlater.sublist.subperm.trans hperm.subperm) hgoes

theorem WordsInPlace.position_blind (henabled : env.guardrailsEnabled = true)
    (h : WordsInPlace env workspace sub rest) : PositionBlind env workspace sub rest := by
  have hunread : (∀ token ∈ sub :: rest, token ∉ blockedWords) →
      checkPatterns (sub :: rest) = .ok () := by
    intro hnone
    rw [checkPatterns_eq_ok (List.cons_ne_nil sub rest)]
    intro hpatterned
    obtain ⟨token, htoken, hblocked⟩ := h.token (patterned_iff.mp hpatterned)
    exact hnone token htoken hblocked
  have hturned (hall : ∀ rest', rest'.Perm rest → TurnedAway env workspace sub (sub :: rest')) :
      PositionBlind env workspace sub rest := by
    have hfalse (rest' : List String) (hperm : rest'.Perm rest) :=
      (turnedAway_iff henabled).mpr (hall rest' hperm)
    refine ⟨fun _ => hfalse rest (.refl rest), fun rest' hperm => ?_, hunread⟩
    rw [hfalse rest' hperm, hfalse rest (.refl rest)]
  rcases h.verdict with ⟨hscreened, hfixed⟩ | ⟨hsettled, hwrite | ⟨hread, hscattered⟩⟩
  · refine hturned fun rest' hperm => ?_
    cases hfloor : floorReads env (sub :: rest') with
    | none => exact absurd hfloor hscreened.floorReads_ne_none
    | some read =>
      cases read with
      | false => exact .inl hfloor
      | true => exact .inr ⟨hfloor, hfixed.patterned hperm⟩
  · exact hturned fun rest' hperm => .inl ((hsettled.floorReads_eq hperm).trans hwrite)
  · by_cases hlisted : Unlisted env workspace sub
    · exact hturned fun rest' hperm =>
        .inr ⟨(hsettled.floorReads_eq hperm).trans hread, .inr hlisted⟩
    · have htrue (rest' : List String) (hperm : rest'.Perm rest) :
          allowed (checkGitSafety env workspace (sub :: rest')) = some true :=
        (letThrough_iff henabled).mpr ⟨(hsettled.floorReads_eq hperm).trans hread,
          hscattered.not_patterned hperm, hlisted⟩
      refine ⟨fun hforced => absurd hforced hscattered.not_forced, fun rest' hperm => ?_, hunread⟩
      rw [htrue rest' hperm, htrue rest (.refl rest)]

theorem PositionBlind.words_in_place (henabled : env.guardrailsEnabled = true)
    (hfree : env.observeOnlyEnabled = false) (hplain : PlainArgs sub rest)
    (h : PositionBlind env workspace sub rest) : WordsInPlace env workspace sub rest := by
  have hscreened : Screened env sub := by
    intro hobserve
    rw [hfree] at hobserve
    cases hobserve
  have hread (rest' : List String) : floorReads env (sub :: rest') = some true := by
    unfold floorReads
    rw [hfree]
    rfl
  refine ⟨?_, ?_⟩
  · by_contra hneither
    rw [not_or, not_and, not_and] at hneither
    obtain ⟨hmoves, hunscattered⟩ := hneither
    replace hmoves := hmoves hscreened
    unfold Fixed at hmoves
    push Not at hmoves
    obtain ⟨hlisted, hinside, hsome⟩ := hmoves
    have hgoes : ∃ others, others.Subperm rest ∧ GoesOn sub others := by
      by_contra hnone
      push Not at hnone
      have hsettled : FloorSettled env sub rest := ⟨hscreened, fun hobserve => by
        rw [hfree] at hobserve
        cases hobserve⟩
      exact hunscattered hsettled (.inr ⟨hread rest, hinside, hnone, hplain.later⟩)
    obtain ⟨others, hothers, hgoesOn⟩ := hgoes
    obtain ⟨together, htogether, hpatterned⟩ := exists_patterned hothers hgoesOn
    have hne : rest ≠ [] := by
      rintro rfl
      exact hgoesOn.ne_nil (List.subperm_nil.mp hothers)
    obtain ⟨arg, harg, hapart⟩ := hsome hne
    obtain ⟨apart, hperm, hclean⟩ := hplain.exists_unpatterned harg hinside hapart
    have hrefused := (turnedAway_iff henabled).mpr
      (.inr ⟨hread together, .inl hpatterned⟩ : TurnedAway env workspace sub (sub :: together))
    have hallowed := (letThrough_iff henabled).mpr
      (⟨hread apart, hclean, hlisted⟩ : LetThrough env workspace sub (sub :: apart))
    rw [h.unordered together htogether, ← h.unordered apart hperm, hallowed] at hrefused
    cases hrefused
  · intro htogether
    by_contra hnone
    push Not at hnone
    have hok := h.unread hnone
    rw [checkPatterns_eq_ok (List.cons_ne_nil sub rest)] at hok
    exact hok (patterned_iff.mpr htogether)

end Orders

/-- With the guardrails on, positions make no difference where the words of the patterns stand as
`WordsInPlace` says. Without the observe-only floor it is the only way, for arguments of which no
order but by the subcommand brings the words of a pattern together. -/
theorem position_blind_of_words (env : GitEnv) (henabled : env.guardrailsEnabled = true)
    (workspace sub : String) (rest : List String) :
    (WordsInPlace env workspace sub rest → PositionBlind env workspace sub rest) ∧
    (env.observeOnlyEnabled = false → PlainArgs sub rest →
      PositionBlind env workspace sub rest → WordsInPlace env workspace sub rest) :=
  ⟨fun h => h.position_blind henabled, fun hfree hplain h => h.words_in_place henabled hfree hplain⟩

theorem forced_push_position_blind :
    PositionBlind ⟨none, none, none⟩ "/srv/app" "push" ["--force", "-f"] := by
  have hforce : GoesOn "push" ["--force"] :=
    @goesOn_single _ "push --force" _ _ _ (by decide) rfl rfl rfl
  have hshort : GoesOn "push" ["-f"] := @goesOn_single _ "push -f" _ _ _ (by decide) rfl rfl rfl
  have hfixed : Fixed ⟨none, none, none⟩ "/srv/app" "push" ["--force", "-f"] := by
    refine .inr (.inr ⟨by simp, ?_⟩)
    simpa using ⟨hforce, hshort⟩
  have hscreened : Screened ⟨none, none, none⟩ "push" := by
    intro hobserve
    cases hobserve
  exact (position_blind_of_words ⟨none, none, none⟩ rfl "/srv/app" "push" ["--force", "-f"]).1
    ⟨.inl ⟨hscreened, hfixed⟩, fun _ => ⟨"push", by simp, by decide⟩⟩

/-- A force push goes through once its flag stands last, and a commit is refused for what its
message says. -/
theorem trailing_force_passes :
    (Forced "push" ["origin", "main", "--force"] ∧
      checkGitSafety ⟨none, none, none⟩ "/srv/app" ["push", "origin", "main", "--force"] =
        some (.ok ()) ∧
      ¬ PositionBlind ⟨none, none, none⟩ "/srv/app" "push" ["origin", "main", "--force"]) ∧
    (∀ token ∈ ["commit", "-m", "undo reset --hard"], token ∉ blockedWords) ∧
      destructivePattern ["commit", "-m", "undo reset --hard"] = some "reset --hard" ∧
      ¬ PositionBlind ⟨none, none, none⟩ "/srv/app" "commit" ["-m", "undo reset --hard"] := by
  have hforced : Forced "push" ["origin", "main", "--force"] := .inl ⟨rfl, .inr (by simp)⟩
  have hpasses :
    checkGitSafety ⟨none, none, none⟩ "/srv/app" ["push", "origin", "main", "--force"] =
      some (.ok ()) := by decide
  have hwords : ∀ token ∈ ["commit", "-m", "undo reset --hard"], token ∉ blockedWords := by
    decide
  have hmessage : destructivePattern ["commit", "-m", "undo reset --hard"] =
      some "reset --hard" := by decide
  refine ⟨⟨hforced, hpasses, fun hblind => ?_⟩, hwords, hmessage, fun hblind => ?_⟩
  · have hrefused := hblind.refused hforced
    rw [hpasses] at hrefused
    cases hrefused
  · have hunread := hblind.unread hwords
    rw [checkPatterns, hmessage] at hunread
    cases hunread

end Simard.Guards
