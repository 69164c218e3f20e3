import Simard.Disk.Reclaim
import Simard.Guards.GitGuardrails

/-! One setting names the repositories that two guards protect. The guardrails on git cut it
at colons and compare texts; the deny-set of disk reclamation cuts it at commas and compares
paths component by component. -/
namespace Simard.Guards
open Simard.Library Simard.Disk

def addedRepos (env : GitEnv) : List String :=
  ((((env.gitProtectedRepos.getD "").toList.splitOn ',').map trim).filter (· ≠ [])).map
    String.ofList

def hardcodedProtectedMain : String := "/home/azureuser/src/Simard/worktrees/main"

/-- The deny-set of a run: the daemon's directories, its own one and those of the setting. -/
def resolveDenySet (disk : Disk) (daemonDirs : List String) (env : GitEnv) : ProtectedDenySet :=
  .fromPaths disk (daemonDirs ++ hardcodedProtectedMain :: addedRepos env)

def addedDenySet (disk : Disk) (env : GitEnv) : ProtectedDenySet := .fromPaths disk (addedRepos env)

/-- Both guards protect the same repositories, the workspace by both or by neither, and only
as one of them or below one, component by component. -/
structure GuardedAlike (disk : Disk) (env : GitEnv) (workspace : String) : Prop where
  repos : ∀ components,
    (∃ root ∈ env.protectedRoots, pathComponents (String.ofList root) = components) ↔
      ∃ path ∈ addedRepos env, pathComponents path = components
  guarded : isProtected env workspace = true ↔
    (addedDenySet disk env).contains disk workspace = true
  componentwise : (addedDenySet disk env).contains disk workspace = true ↔
    ∃ path ∈ addedRepos env, samePath workspace path ∨ startsWith workspace path

/-- A setting that both guards read as one repository, or none. -/
structure PlainSetting (value : String) : Prop where
  colons : ':' ∉ value.toList
  commas : ',' ∉ value.toList
  trimmed : trim value.toList = value.toList

theorem count_eq_of_samePath {c : Char} (hslash : c ≠ '/') (hdot : c ≠ '.') {left right : String}
    (h : pathComponents left = pathComponents right) :
    left.toList.count c = right.toList.count c := by
  rw [← count_pathComponents hslash hdot, h, count_pathComponents hslash hdot]

theorem exists_piece {c sep : Char} (h : c ≠ sep) {text : List Char} (hc : c ∈ text) :
    ∃ piece ∈ text.splitOn sep, c ∈ piece := by
  have hcount : 0 < (text.splitOn sep).flatten.count c := by
    rw [count_flatten_splitOn h]
    exact List.count_pos_iff.mpr hc
  exact List.mem_flatten.mp (List.count_pos_iff.mp hcount)

theorem mem_protectedRoots {env : GitEnv} {root : List Char} :
    root ∈ env.protectedRoots ↔
      root ∈ (env.gitProtectedRepos.getD "").toList.splitOn ':' ∧ root ≠ [] := by
  simp [GitEnv.protectedRoots]

theorem mem_addedRepos {env : GitEnv} {path : String} :
    path ∈ addedRepos env ↔ ∃ piece ∈ (env.gitProtectedRepos.getD "").toList.splitOn ',',
      trim piece ≠ [] ∧ String.ofList (trim piece) = path := by
  simp only [addedRepos, List.mem_map, List.mem_filter, decide_eq_true_eq]
  constructor
  · rintro ⟨_, ⟨⟨piece, hpiece, rfl⟩, hne⟩, rfl⟩
    exact ⟨piece, hpiece, hne, rfl⟩
  · rintro ⟨piece, hpiece, hne, rfl⟩
    exact ⟨_, ⟨⟨piece, hpiece, rfl⟩, hne⟩, rfl⟩

theorem mem_of_mem_trim {c : Char} {l : List Char} (h : c ∈ trim l) : c ∈ l := by
  obtain ⟨before, after, hl, -⟩ := trim_decompose l
  rw [hl]
  simp [h]

theorem mem_trim {c : Char} (hc : isWhitespace c = false) {l : List Char} (h : c ∈ l) :
    c ∈ trim l := by
  obtain ⟨before, after, hl, hspace⟩ := trim_decompose l
  rw [hl, List.mem_append, List.mem_append] at h
  have hends (hmem : c ∈ before ++ after) : False := by
    rw [hspace c hmem] at hc
    cases hc
  rcases h with (h | h) | h
  · exact (hends (List.mem_append_left _ h)).elim
  · exact h
  · exact (hends (List.mem_append_right _ h)).elim

variable {env : GitEnv}

theorem colon_tells (h : ∀ path ∈ addedRepos env, ∃ root ∈ env.protectedRoots,
    pathComponents (String.ofList root) = pathComponents path) :
    ':' ∉ (env.gitProtectedRepos.getD "").toList := by
  intro hcolon
  obtain ⟨piece, hpiece, hmem⟩ := @exists_piece ':' ',' (by decide) _ hcolon
  have htrim : ':' ∈ trim piece := mem_trim (by decide) hmem
  obtain ⟨root, hroot, hsame⟩ := h (String.ofList (trim piece))
    (mem_addedRepos.mpr ⟨piece, hpiece, List.ne_nil_of_mem htrim, rfl⟩)
  have hcount := @count_eq_of_samePath ':' (by decide) (by decide) _ _ hsame
  rw [String.toList_ofList, String.toList_ofList] at hcount
  have hfound : ':' ∈ root := by
    rw [← List.count_pos_iff, hcount]
    exact List.count_pos_iff.mpr htrim
  exact notMem_of_mem_splitOn (mem_protectedRoots.mp hroot).1 hfound

theorem comma_tells (h : ∀ root ∈ env.protectedRoots, ∃ path ∈ addedRepos env,
    pathComponents path = pathComponents (String.ofList root)) :
    ',' ∉ (env.gitProtectedRepos.getD "").toList := by
  intro hcomma
  obtain ⟨root, hroot, hmem⟩ := @exists_piece ',' ':' (by decide) _ hcomma
  obtain ⟨path, hpath, hsame⟩ := h root
    (mem_protectedRoots.mpr ⟨hroot, List.ne_nil_of_mem hmem⟩)
  obtain ⟨piece, hpiece, -, rfl⟩ := mem_addedRepos.mp hpath
  have hcount := @count_eq_of_samePath ',' (by decide) (by decide) _ _ hsame
  rw [String.toList_ofList, String.toList_ofList] at hcount
  have hfound : ',' ∈ trim piece := by
    rw [← List.count_pos_iff, hcount]
    exact List.count_pos_iff.mpr hmem
  exact notMem_of_mem_splitOn hpiece (mem_of_mem_trim hfound)

theorem protectedRoots_plain {value : String} (hvalue : env.gitProtectedRepos.getD "" = value)
    (h : ':' ∉ value.toList) : env.protectedRoots = [value.toList].filter (· ≠ []) := by
  rw [GitEnv.protectedRoots, hvalue, List.splitOn_eq_singleton h]

theorem addedRepos_plain {value : String} (hvalue : env.gitProtectedRepos.getD "" = value)
    (h : ',' ∉ value.toList) :
    addedRepos env = ([trim value.toList].filter (· ≠ [])).map String.ofList := by
  rw [addedRepos, hvalue, List.splitOn_eq_singleton h]
  rfl

theorem space_tells {value : List Char}
    (h : pathComponents (String.ofList (trim value)) = pathComponents (String.ofList value)) :
    trim value = value := by
  obtain ⟨before, after, hvalue, hspace⟩ := trim_decompose value
  cases hends : before ++ after with
  | nil =>
    obtain ⟨rfl, rfl⟩ := List.append_eq_nil_iff.mp hends
    simpa using hvalue.symm
  | cons c rest =>
    have hc : c ∈ before ++ after := by simp [hends]
    have hspaced := hspace c hc
    have hslash : c ≠ '/' := by
      rintro rfl
      exact absurd hspaced (by decide)
    have hdot : c ≠ '.' := by
      rintro rfl
      exact absurd hspaced (by decide)
    have hcount := count_eq_of_samePath hslash hdot h
    have htotal := congrArg (List.count c) hvalue
    have hpositive := List.count_pos_iff.mpr hc
    rw [String.toList_ofList, String.toList_ofList] at hcount
    rw [List.count_append, List.count_append] at htotal
    rw [List.count_append] at hpositive
    omega

theorem repos_iff_plainSetting :
    (∀ components,
      (∃ root ∈ env.protectedRoots, pathComponents (String.ofList root) = components) ↔
        ∃ path ∈ addedRepos env, pathComponents path = components) ↔
      PlainSetting (env.gitProtectedRepos.getD "") := by
  constructor
  · intro h
    have hcolon := colon_tells fun path hpath => (h (pathComponents path)).mpr ⟨path, hpath, rfl⟩
    have hcomma := comma_tells fun root hroot =>
      (h (pathComponents (String.ofList root))).mp ⟨root, hroot, rfl⟩
    refine ⟨hcolon, hcomma, ?_⟩
    by_cases hempty : (env.gitProtectedRepos.getD "").toList = []
    · rw [hempty]
      rfl
    · obtain ⟨path, hpath, hsame⟩ := (h (pathComponents
        (String.ofList (env.gitProtectedRepos.getD "").toList))).mp
          ⟨_, by simp [protectedRoots_plain rfl hcolon, hempty], rfl⟩
      rw [addedRepos_plain rfl hcomma] at hpath
      obtain ⟨_, hmem, rfl⟩ := List.mem_map.mp hpath
      rw [List.mem_singleton.mp (List.mem_of_mem_filter hmem)] at hsame
      exact space_tells hsame
  · rintro ⟨hcolon, hcomma, htrim⟩ components
    rw [protectedRoots_plain rfl hcolon, addedRepos_plain rfl hcomma, htrim]
    simp

/-- The workspace's text begins with the repository's and goes on inside its last step. -/
def Overruns (root workspace : String) : Prop :=
  (∃ c rest, workspace.toList = root.toList ++ c :: rest ∧ c ≠ '/') ∧
    (root.toList.splitOn '/').getLast? ∉ [some [], some ['.']]

def Respelled (root workspace : String) : Prop :=
  startsWith workspace root = true ∧ beginsWith workspace root = false

/-- The real paths of the two lie otherwise than the paths themselves. -/
def Moved (disk : Disk) (root workspace : String) : Prop :=
  ∃ real rootReal, disk.canonicalize workspace = some real ∧
    disk.canonicalize root = some rootReal ∧ startsWith real rootReal ≠ startsWith workspace root

def plainStep (step : List Char) : Bool := step != [] && step != ['.']

theorem pathComponents_absolute {path : String} {rest : List Char} (h : path.toList = '/' :: rest) :
    pathComponents path = ['/'] :: (rest.splitOn '/').filter plainStep := by
  unfold pathComponents
  rw [h]
  rfl

theorem steps_begin_iff {front rest : List (List Char)} {last more : List Char} :
    (front ++ [last]).filter plainStep <+: (front ++ (last ++ more) :: rest).filter plainStep ↔
      plainStep last = false ∨ more = [] := by
  rw [List.filter_append, List.filter_append, List.prefix_append_right_inj]
  cases hlast : plainStep last with
  | false => simp [List.filter_cons, hlast]
  | true =>
    have hmore : plainStep (last ++ more) = true := by
      simp only [plainStep, Bool.and_eq_true, bne_iff_ne, ne_eq] at hlast ⊢
      refine ⟨fun hnil => hlast.1 (List.append_eq_nil_iff.mp hnil).1, fun hdot => ?_⟩
      rcases List.append_eq_singleton_iff.mp hdot with ⟨h, -⟩ | ⟨h, -⟩
      · exact hlast.1 h
      · exact hlast.2 h
    rw [List.filter_cons, if_pos hlast, List.filter_cons, if_pos hmore]
    simp

theorem startsWith_append_iff {root workspace : String} {steps more : List Char}
    (hroot : root.toList = '/' :: steps) (hworkspace : workspace.toList = root.toList ++ more) :
    startsWith workspace root = true ↔
      (root.toList.splitOn '/').getLast? ∈ [some [], some ['.']] ∨ more = [] ∨
        more.head? = some '/' := by
  obtain ⟨front, last, hsteps⟩ := exists_splitOn_concat '/' steps
  obtain ⟨first, rest, hmore⟩ := exists_splitOn_cons '/' more
  have hworkspace' : workspace.toList = '/' :: (steps ++ more) := by
    rw [hworkspace, hroot]
    rfl
  have hlast : (root.toList.splitOn '/').getLast? ∈ [some [], some ['.']] ↔
      plainStep last = false := by
    have hcut : root.toList.splitOn '/' = [] :: (front ++ [last]) := by
      rw [hroot, List.splitOn_cons_eq_if_modifyHead, hsteps]
      rfl
    rw [hcut, ← List.cons_append, List.getLast?_concat]
    simp only [plainStep, List.mem_cons, Option.some.injEq, List.not_mem_nil, or_false,
      Bool.and_eq_false_iff, bne_eq_false_iff_eq]
  have hfirst : first = [] ↔ more = [] ∨ more.head? = some '/' := by
    cases more with
    | nil =>
      obtain ⟨rfl, -⟩ := List.cons.inj hmore
      simp
    | cons c more =>
      rw [List.splitOn_cons_eq_if_modifyHead] at hmore
      by_cases hc : (c == '/') = true
      · rw [if_pos hc] at hmore
        obtain ⟨rfl, -⟩ := List.cons.inj hmore
        simpa using hc
      · rw [if_neg hc] at hmore
        obtain ⟨piece, pieces, hpieces⟩ := exists_splitOn_cons '/' more
        rw [hpieces, List.modifyHead_cons] at hmore
        obtain ⟨rfl, -⟩ := List.cons.inj hmore
        simpa using hc
  unfold startsWith
  rw [List.isPrefixOf_iff_prefix, pathComponents_absolute hroot,
    pathComponents_absolute hworkspace', List.cons_prefix_cons, splitOn_append hsteps hmore, hsteps,
    steps_begin_iff, hlast, hfirst]
  simp

theorem overruns_iff {root workspace : String} (hroot : root ≠ "")
    (habsolute : workspace.toList.head? = some '/') :
    beginsWith workspace root = true ∧ startsWith workspace root = false ↔
      Overruns root workspace := by
  have habsolute' {more : List Char} (h : workspace.toList = root.toList ++ more) :
      ∃ steps, root.toList = '/' :: steps := by
    cases hsteps : root.toList with
    | nil => exact absurd (String.toList_eq_nil_iff.mp hsteps) hroot
    | cons c steps =>
      rw [h, hsteps] at habsolute
      obtain rfl : c = '/' := by simpa using habsolute
      exact ⟨steps, rfl⟩
  unfold Overruns beginsWith
  rw [List.isPrefixOf_iff_prefix, ← Bool.not_eq_true]
  constructor
  · rintro ⟨⟨more, hmore⟩, hoff⟩
    obtain ⟨steps, hsteps⟩ := habsolute' hmore.symm
    rw [startsWith_append_iff hsteps hmore.symm, not_or, not_or] at hoff
    obtain ⟨hlast, hne, hhead⟩ := hoff
    cases more with
    | nil => exact absurd rfl hne
    | cons c rest => exact ⟨⟨c, rest, hmore.symm, by simpa using hhead⟩, hlast⟩
  · rintro ⟨⟨c, rest, hmore, hc⟩, hlast⟩
    obtain ⟨steps, hsteps⟩ := habsolute' hmore
    refine ⟨⟨c :: rest, hmore.symm⟩, ?_⟩
    rw [startsWith_append_iff hsteps hmore, not_or, not_or]
    exact ⟨hlast, by simp, by simpa using hc⟩

theorem samePath_or_startsWith (path base : String) :
    (samePath path base || startsWith path base) = startsWith path base := by
  cases hsame : samePath path base with
  | false => rfl
  | true => rw [startsWith_of_samePath hsame, Bool.true_or]

theorem contains_one_iff (disk : Disk) (root workspace : String) :
    (ProtectedDenySet.fromPaths disk [root]).contains disk workspace = startsWith workspace root ↔
      ¬ Moved disk root workspace := by
  unfold ProtectedDenySet.contains ProtectedDenySet.fromPaths Moved
  simp only [List.map_cons, List.map_nil, List.any_cons, List.any_nil, Bool.or_false]
  cases hreal : disk.canonicalize workspace with
  | none => simp [samePath_or_startsWith]
  | some real =>
    cases hroot : disk.canonicalize root with
    | none => simp [samePath_or_startsWith]
    | some rootReal => simp [samePath_or_startsWith]

/-- The two guards agree on an absolute workspace exactly when the setting is one repository
or none, and for one the workspace neither goes on inside its name, nor lies in it under
another spelling, nor is moved by what its real path is. -/
theorem guarded_alike_iff (disk : Disk) (env : GitEnv) (workspace : String)
    (habsolute : workspace.toList.head? = some '/') :
    GuardedAlike disk env workspace ↔
      PlainSetting (env.gitProtectedRepos.getD "") ∧
        (env.gitProtectedRepos.getD "" ≠ "" →
          ¬ Overruns (env.gitProtectedRepos.getD "") workspace ∧
            ¬ Respelled (env.gitProtectedRepos.getD "") workspace ∧
            ¬ Moved disk (env.gitProtectedRepos.getD "") workspace) := by
  have hparts : GuardedAlike disk env workspace ↔
      PlainSetting (env.gitProtectedRepos.getD "") ∧
        (isProtected env workspace = true ↔
          (addedDenySet disk env).contains disk workspace = true) ∧
        ((addedDenySet disk env).contains disk workspace = true ↔
          ∃ path ∈ addedRepos env, samePath workspace path ∨ startsWith workspace path) := by
    rw [← repos_iff_plainSetting]
    exact ⟨fun h => ⟨h.repos, h.guarded, h.componentwise⟩, fun h => ⟨h.1, h.2.1, h.2.2⟩⟩
  rw [hparts]
  refine and_congr_right fun hplain => ?_
  generalize hvalue : env.gitProtectedRepos.getD "" = value at hplain
  obtain ⟨hcolon, hcomma, htrim⟩ := hplain
  have hroots := protectedRoots_plain hvalue hcolon
  have hadded := addedRepos_plain hvalue hcomma
  rw [htrim] at hadded
  by_cases hempty : value = ""
  · subst hempty
    simp [isProtected, hroots, addedDenySet, hadded, ProtectedDenySet.fromPaths,
      ProtectedDenySet.contains]
  · have hne : value.toList ≠ [] := fun hnil => hempty (String.toList_eq_nil_iff.mp hnil)
    have hguarded : isProtected env workspace = beginsWith workspace value := by
      simp [isProtected, hroots, hne, beginsWith]
    have hset : addedRepos env = [value] := by
      simp [hadded, hne]
    have hbelow : (∃ path ∈ addedRepos env, samePath workspace path ∨ startsWith workspace path) ↔
        startsWith workspace value = true := by
      rw [hset, ← samePath_or_startsWith workspace value]
      simp
    have hover := overruns_iff hempty habsolute
    have hmoved := contains_one_iff disk value workspace
    rw [hguarded, hbelow, addedDenySet, hset, ← hover, ← hmoved, Respelled]
    generalize (ProtectedDenySet.fromPaths disk [value]).contains disk workspace = contained
    generalize beginsWith workspace value = begins
    generalize startsWith workspace value = below
    simp only [ne_eq, hempty, not_false_eq_true, true_implies]
    revert contained begins below
    decide

def unlinkedDisk : Disk := ⟨some, fun _ => some false, fun _ _ => none⟩

theorem one_repository_guarded_alike :
    GuardedAlike unlinkedDisk ⟨none, none, some "/home/azureuser/src"⟩
      "/home/azureuser/src/app" := by
  refine (guarded_alike_iff unlinkedDisk ⟨none, none, some "/home/azureuser/src"⟩
    "/home/azureuser/src/app" (by decide)).mpr ⟨⟨by decide, by decide, by decide⟩, fun _ => ?_⟩
  refine ⟨?_, ?_, ?_⟩
  · rw [← overruns_iff (by decide) (by decide)]
    decide
  · unfold Respelled
    decide
  · rintro ⟨_, _, ⟨⟩, ⟨⟩, hmoved⟩
    exact hmoved rfl

/-- Two repositories with a colon between them are guarded by one guard only, and so is a
repository whose name goes on from a protected one. -/
theorem colon_setting_guarded_unlike :
    isProtected ⟨none, none, some "/srv/a:/srv/b"⟩ "/srv/a" = true ∧
      (addedDenySet unlinkedDisk ⟨none, none, some "/srv/a:/srv/b"⟩).contains
        unlinkedDisk "/srv/a" =
        false ∧
      ¬ GuardedAlike unlinkedDisk ⟨none, none, some "/srv/a:/srv/b"⟩ "/srv/a" ∧
      ¬ GuardedAlike unlinkedDisk ⟨none, none, some "/srv/app"⟩ "/srv/app2" := by
  have hguarded : isProtected ⟨none, none, some "/srv/a:/srv/b"⟩ "/srv/a" = true := by decide
  have hdenied :
    (addedDenySet unlinkedDisk ⟨none, none, some "/srv/a:/srv/b"⟩).contains unlinkedDisk
      "/srv/a" = false := by decide
  refine ⟨hguarded, hdenied, fun halike => ?_, fun halike => ?_⟩
  · rw [halike.guarded.mp hguarded] at hdenied
    cases hdenied
  · have hsibling : isProtected ⟨none, none, some "/srv/app"⟩ "/srv/app2" = true := by decide
    have hfree : (addedDenySet unlinkedDisk ⟨none, none, some "/srv/app"⟩).contains unlinkedDisk
        "/srv/app2" = false := by decide
    rw [halike.guarded.mp hsibling] at hfree
    cases hfree

end Simard.Guards
