import Simard.Library.Ansi
import Simard.Library.Machine
import Simard.Library.SipHash
import Simard.Merging.MergeOps
import Simard.Overseer.Investigations

/-! What becomes of a launched recipe. A child writes to its log and ends at some time; it is polled
when a recipe is launched and when its handle is probed, and a poll may fail. A run is forgotten,
and its log removed, only when its own token is launched again after it has ended. -/
namespace Simard.Overseer
open Simard.Library

/-- The piece behind the first place where the separator stands, up to the next. -/
def secondPiece (separator text : List Char) : Option (List Char) :=
  (afterFirst separator text).map fun rest =>
    match afterFirst separator rest with
    | none => rest
    | some tail => rest.take (rest.length - tail.length - separator.length)

def parseU32 (digits : List Char) : Option Nat :=
  let value := digits.foldl (fun n c => 10 * n + (c.toNat - '0'.toNat)) 0
  if digits ≠ [] ∧ value < 2 ^ 32 then some value else none

/-- A word has nothing, or the pull request, or ends the search. -/
inductive WordReading where
  | passed
  | ended
  | found (repo : List Char) (pr : Nat)

/-- A link that has fewer than three parts ends the search. -/
def readWord (word : List Char) : WordReading :=
  match secondPiece "github.com/".toList word with
  | none => .passed
  | some rest =>
      match rest.splitOn '/' with
      | owner :: repo :: kw :: more =>
          let number := (more.headD []).takeWhile Char.isDigit
          if kw = "pull".toList ∧ owner ≠ [] ∧ repo ≠ [] then
            match parseU32 number with
            | some pr => .found (owner ++ '/' :: repo) pr
            | none => .passed
          else .passed
      | _ => .ended

def firstPrRef : List (List Char) → Option (List Char × Nat)
  | [] => none
  | word :: rest =>
      match readWord word with
      | .passed => firstPrRef rest
      | .ended => none
      | .found repo pr => some (repo, pr)

def extractPrRef (output : List Char) : Option (List Char × Nat) :=
  firstPrRef ((stripAnsi output).splitOnP fun c => isWhitespace c || c = '"' || c = '\'' || c = ')')

example : extractPrRef "Opened https://github.com/rysweet/Simard/pull/2601 for review".toList =
    some ("rysweet/Simard".toList, 2601) := by decide

structure ChildExit where
  success : Bool
  description : String
  deriving DecidableEq

inductive WorkstreamStatus where
  | running
  | producedPr (repo : List Char) (pr : Nat)
  | failed (reason : String)
  deriving DecidableEq

def maxProbeLogBytes : Nat := 4 * 1024 * 1024

def readLogTail (lossy : List UInt8 → List Char) (log : Option (List UInt8)) : List Char :=
  lossy ((log.getD []).drop ((log.getD []).length - maxProbeLogBytes))

def ChildExit.verdict (lossy : List UInt8 → List Char) (exit : ChildExit)
    (log : Option (List UInt8)) :
    WorkstreamStatus :=
  match extractPrRef (readLogTail lossy log) with
  | some (repo, pr) => .producedPr repo pr
  | none =>
      if exit.success then .failed "recipe finished but produced no PR"
      else .failed ("recipe exited with " ++ exit.description)

/-- A process that was launched: its log, how it ended if it has, and whether a poll saw that. -/
structure RunChild where
  brief : RecipeBrief
  logPath : String
  exit : Option ChildExit
  reaped : Bool

/-- The child each token is registered for, the children in the order they were launched, and the
logs. -/
structure RunRegistry where
  runs : UInt64 → Option Nat
  children : List RunChild
  logs : String → Option (List UInt8)

/-- What comes of starting a process: it has no log, or a log and no process, or both. -/
inductive SpawnAnswer where
  | noLog (error : String)
  | noProcess (logPath error : String)
  | started (logPath : String)

def SpawnAnswer.path? : SpawnAnswer → Option String
  | .noLog _ => none
  | .noProcess logPath _ => some logPath
  | .started logPath => some logPath

def tokenText (token : UInt64) : String :=
  let digits := Nat.toDigits 16 token.toNat
  String.ofList (List.replicate (16 - digits.length) '0' ++ digits)

namespace RunRegistry

variable (text : TextOps) (lossy : List UInt8 → List Char) (registry : RunRegistry)

def init : RunRegistry := ⟨fun _ => none, [], fun _ => none⟩

def exited (errors : Nat → Option String) (index : Nat) : Bool :=
  (errors index).isNone && (registry.children[index]?).any fun child => child.exit.isSome

def polled (error : Option String) (child : RunChild) : RunChild :=
  if error.isNone ∧ child.exit.isSome then { child with reaped := true } else child

def pollAll (errors : Nat → Option String) : List RunChild :=
  registry.children.mapIdx fun index child =>
    if registry.runs (text.signatureToken child.brief) = some index then polled (errors index) child
    else child

def evict (token : UInt64) : RunRegistry where
  runs := Function.update registry.runs token none
  children := registry.children
  logs := ((registry.runs token).bind fun index => registry.children[index]?).elim registry.logs
    fun child => Function.update registry.logs child.logPath none

def spawn (errors : Nat → Option String) (answer : SpawnAnswer) (brief : RecipeBrief) :
    Except Merging.OverseerError UInt64 × RunRegistry :=
  let token := text.signatureToken brief
  let ownExited := (registry.runs token).any (registry.exited errors)
  let polled := { registry with children := registry.pollAll text errors }
  let kept := if ownExited then polled.evict token else polled
  if (kept.runs token).isSome then (.ok token, kept)
  else
    match answer with
    | .noLog error => (.error (.capability "recipe.spawn" error), kept)
    | .noProcess logPath error => (.error (.capability "recipe.spawn" error),
        { kept with logs := Function.update kept.logs logPath (some []) })
    | .started logPath => (.ok token,
        { runs := Function.update kept.runs token (some kept.children.length)
          children := kept.children ++ [⟨brief, logPath, none, false⟩]
          logs := Function.update kept.logs logPath (some []) })

def probe (errors : Nat → Option String) (token : UInt64) :
    Except Merging.OverseerError WorkstreamStatus × RunRegistry :=
  match (registry.runs token).bind fun index =>
      (registry.children[index]?).map fun child => (index, child) with
  | none =>
    (.error (.capability "recipe.probe" ("unknown workstream " ++ tokenText token)), registry)
  | some (index, child) =>
      let after := { registry with
        children := registry.children.modify index (polled (errors index)) }
      match errors index with
      | some error => (.error (.capability "recipe.probe" error), after)
      | none =>
          match child.exit with
          | none => (.ok .running, after)
          | some exit => (.ok (exit.verdict lossy (registry.logs child.logPath)), after)

/-- A child that has not ended appends to its log, if that is still there. -/
def write (index : Nat) (bytes : List UInt8) : RunRegistry :=
  match registry.children[index]? with
  | none => registry
  | some child =>
      if child.exit.isSome then registry
      else
        let log := (registry.logs child.logPath).map (· ++ bytes)
        { registry with logs := Function.update registry.logs child.logPath log }

def finish (index : Nat) (exit : ChildExit) : RunRegistry :=
  { registry with children := registry.children.modify index fun child =>
      { child with exit := child.exit.or (some exit) } }

end RunRegistry

/-- Calls are made one at a time; in between children write and end. -/
inductive RunEvent where
  | spawn (errors : Nat → Option String) (answer : SpawnAnswer) (brief : RecipeBrief)
  | probe (errors : Nat → Option String) (token : UInt64)
  | childWrites (index : Nat) (bytes : List UInt8)
  | childExits (index : Nat) (exit : ChildExit)

/-- The event neither launches the token nor gives the log to another launch. -/
def RunEvent.Spares (text : TextOps) (token : UInt64) (path : String) : RunEvent → Prop
  | .spawn _ answer brief => text.signatureToken brief ≠ token ∧ answer.path? ≠ some path
  | _ => True

def runMachine (text : TextOps) (lossy : List UInt8 → List Char) :
    Machine RunRegistry RunEvent where
  step registry
    | .spawn errors answer brief => (registry.spawn text errors answer brief).2
    | .probe errors token => (registry.probe lossy errors token).2
    | .childWrites index bytes => registry.write index bytes
    | .childExits index exit => registry.finish index exit

def SpawnAnswer.world (errors : Nat → Option String) (answer : SpawnAnswer) : SpawnWorld where
  pollFails index := (errors index).isSome
  spawns := match answer with
    | .started _ => true
    | _ => false

namespace RunRegistry

variable {text : TextOps} {lossy : List UInt8 → List Char} {registry : RunRegistry}

def forget (registry : RunRegistry) : RecipeRuns :=
  ⟨registry.runs, registry.children.map fun child => ⟨child.brief, none, child.exit.isNone⟩⟩

@[simp] theorem polled_brief (error : Option String) (child : RunChild) :
    (polled error child).brief = child.brief := by
  unfold polled
  split <;> rfl

@[simp] theorem polled_exit (error : Option String) (child : RunChild) :
    (polled error child).exit = child.exit := by
  unfold polled
  split <;> rfl

@[simp] theorem polled_logPath (error : Option String) (child : RunChild) :
    (polled error child).logPath = child.logPath := by
  unfold polled
  split <;> rfl

theorem getElem?_pollAll (errors : Nat → Option String) (index : Nat) :
    (registry.pollAll text errors)[index]? = (registry.children[index]?).map fun child =>
      if registry.runs (text.signatureToken child.brief) = some index then
        polled (errors index) child
      else child := by
  rw [pollAll, List.getElem?_mapIdx]

theorem map_pollAll {β : Type} {f : RunChild → β}
    (hf : ∀ error child, f (polled error child) = f child) (errors : Nat → Option String) :
    (registry.pollAll text errors).map f = registry.children.map f := by
  apply List.ext_getElem?
  intro index
  rw [List.getElem?_map, getElem?_pollAll, List.getElem?_map, Option.map_map]
  congr 1
  funext child
  rw [Function.comp_apply]
  split
  · exact hf _ child
  · rfl

/-- What a launch finds after its polls: a run of its token that has ended is gone. -/
def kept (text : TextOps) (registry : RunRegistry) (errors : Nat → Option String)
    (brief : RecipeBrief) : RunRegistry :=
  if (registry.runs (text.signatureToken brief)).any (registry.exited errors) then
    { registry with children := registry.pollAll text errors }.evict (text.signatureToken brief)
  else { registry with children := registry.pollAll text errors }

theorem kept_children (errors : Nat → Option String) (brief : RecipeBrief) :
    (registry.kept text errors brief).children = registry.pollAll text errors := by
  unfold kept
  split <;> rfl

theorem kept_runs (errors : Nat → Option String) (brief : RecipeBrief) :
    (registry.kept text errors brief).runs =
      if (registry.runs (text.signatureToken brief)).any (registry.exited errors) then
        Function.update registry.runs (text.signatureToken brief) none
      else registry.runs := by
  unfold kept
  split <;> rfl

theorem spawn_eq (errors : Nat → Option String) (answer : SpawnAnswer) (brief : RecipeBrief) :
    registry.spawn text errors answer brief =
      if ((registry.kept text errors brief).runs (text.signatureToken brief)).isSome then
        (.ok (text.signatureToken brief), registry.kept text errors brief)
      else
        match answer with
        | .noLog error =>
          (.error (.capability "recipe.spawn" error), registry.kept text errors brief)
        | .noProcess logPath error => (.error (.capability "recipe.spawn" error),
            { registry.kept text errors brief with
              logs := Function.update (registry.kept text errors brief).logs logPath (some []) })
        | .started logPath => (.ok (text.signatureToken brief),
            { runs := Function.update (registry.kept text errors brief).runs
                (text.signatureToken brief) (some (registry.kept text errors brief).children.length)
              children := (registry.kept text errors brief).children ++
                [⟨brief, logPath, none, false⟩]
              logs := Function.update (registry.kept text errors brief).logs logPath (some []) }) :=
                rfl

theorem forget_exited (errors : Nat → Option String) (answer : SpawnAnswer) (index : Nat) :
    registry.forget.exited (answer.world errors) index = registry.exited errors index := by
  have herror : (!(errors index).isSome) = (errors index).isNone := by
    cases errors index <;> rfl
  change (!(errors index).isSome && ((registry.children.map _)[index]?).any _) = _
  rw [herror, List.getElem?_map, exited]
  cases registry.children[index]? with
  | none => rfl
  | some child =>
    change (_ && !child.exit.isNone) = (_ && child.exit.isSome)
    cases child.exit <;> rfl

theorem forget_children_kept (errors : Nat → Option String) (brief : RecipeBrief) :
    (registry.kept text errors brief).forget.children = registry.forget.children := by
  change (registry.kept text errors brief).children.map _ = registry.children.map _
  rw [kept_children]
  exact map_pollAll (fun error child => by rw [polled_brief, polled_exit]) errors

theorem forget_spawn (errors : Nat → Option String) (answer : SpawnAnswer) (brief : RecipeBrief) :
    (registry.spawn text errors answer brief).2.forget =
      (registry.forget.spawn text (answer.world errors) brief none).2 := by
  have hchildren : (registry.kept text errors brief).forget.children = registry.forget.children :=
    forget_children_kept errors brief
  have hexited : registry.forget.exited (answer.world errors) = registry.exited errors :=
    funext (forget_exited errors answer)
  have hruns : (registry.kept text errors brief).runs =
      if (registry.forget.runs (text.signatureToken brief)).any
          (registry.forget.exited (answer.world errors)) then
        Function.update registry.forget.runs (text.signatureToken brief) none
      else registry.forget.runs := by
    rw [kept_runs, hexited]
    rfl
  have hlength : (registry.kept text errors brief).children.length =
      registry.forget.children.length := by
    rw [← hchildren]
    exact (List.length_map _).symm
  rw [spawn_eq, RecipeRuns.spawn, ← hruns]
  by_cases hrun : ((registry.kept text errors brief).runs (text.signatureToken brief)).isSome = true
  · rw [if_pos hrun, if_pos hrun, ← hchildren]
    rfl
  · rw [if_neg hrun, if_neg hrun]
    cases answer with
    | noLog error =>
      rw [← hchildren]
      rfl
    | noProcess logPath error =>
      rw [← hchildren]
      rfl
    | started logPath =>
      rw [← hlength, ← hchildren]
      change RecipeRuns.mk _ (List.map _ (_ ++ _)) = _
      rw [List.map_append]
      rfl

theorem forget_finish (index : Nat) (exit : ChildExit) :
    (registry.finish index exit).forget = registry.forget.exit index := by
  change RecipeRuns.mk registry.runs _ = RecipeRuns.mk registry.runs _
  congr 1
  apply List.ext_getElem?
  intro other
  change ((registry.children.modify _ _).map _)[other]? =
    ((registry.children.map _).modify _ _)[other]?
  rw [List.getElem?_map, List.getElem?_modify, List.getElem?_modify, List.getElem?_map]
  cases registry.children[other]? with
  | none => rfl
  | some child =>
    by_cases hindex : index = other
    · simp [hindex]
    · simp [hindex]

/-- Every child that has not ended is the one its token is registered for, a token is registered for
a child of its own, and of a child that has ended and is not registered the end was seen. -/
structure Sound (text : TextOps) (registry : RunRegistry) : Prop where
  registered : registry.forget.Registered text
  keyed : ∀ token index, registry.runs token = some index →
    ∃ child, registry.children[index]? = some child ∧ text.signatureToken child.brief = token
  seen : ∀ index child, registry.children[index]? = some child → child.exit.isSome = true →
    registry.runs (text.signatureToken child.brief) ≠ some index → child.reaped = true

theorem Sound.runs_of_running (h : registry.Sound text) {index : Nat} {child : RunChild}
    (hchild : registry.children[index]? = some child) (hrunning : child.exit = none) :
    registry.runs (text.signatureToken child.brief) = some index := by
  have hforgotten : registry.forget.children[index]? = some ⟨child.brief, none, true⟩ := by
    change (registry.children.map _)[index]? = _
    rw [List.getElem?_map, hchild, Option.map_some, hrunning]
    rfl
  exact h.registered index _ hforgotten rfl

theorem sound_init : init.Sound text where
  registered := RecipeRuns.registered_init text
  keyed := nofun
  seen := nofun

theorem Sound.token_of_runs (h : registry.Sound text) {token : UInt64} {index : Nat}
    {child : RunChild}
    (hrun : registry.runs token = some index) (hchild : registry.children[index]? = some child) :
    text.signatureToken child.brief = token := by
  obtain ⟨other, hother, htoken⟩ := h.keyed token index hrun
  rw [hchild] at hother
  obtain rfl := Option.some.inj hother
  exact htoken

theorem Sound.reaped_pollAll (h : registry.Sound text) {errors : Nat → Option String} {index : Nat}
    {child : RunChild} (hchild : (registry.pollAll text errors)[index]? = some child)
    (hended : child.exit.isSome = true) (hpolled : errors index = none) : child.reaped = true := by
  rw [getElem?_pollAll] at hchild
  obtain ⟨before, hbefore, rfl⟩ := Option.map_eq_some_iff.mp hchild
  split at hended
  next hrun =>
    rw [polled_exit] at hended
    rw [if_pos hrun, polled, if_pos ⟨by rw [hpolled]; rfl, hended⟩]
  next hrun =>
    rw [if_neg hrun]
    exact h.seen index before hbefore hended hrun

theorem Sound.seen_pollAll (h : registry.Sound text) {errors : Nat → Option String} {index : Nat}
    {child : RunChild} (hchild : (registry.pollAll text errors)[index]? = some child)
    (hended : child.exit.isSome = true)
    (hrun : registry.runs (text.signatureToken child.brief) ≠ some index) :
      child.reaped = true := by
  rw [getElem?_pollAll] at hchild
  obtain ⟨before, hbefore, rfl⟩ := Option.map_eq_some_iff.mp hchild
  split at hrun
  next hregistered =>
    rw [polled_brief] at hrun
    exact absurd hregistered hrun
  next hregistered =>
    rw [if_neg hregistered] at hended ⊢
    exact h.seen index before hbefore hended hregistered

theorem Sound.keyed_pollAll (h : registry.Sound text)
    {errors : Nat → Option String} {token : UInt64}
    {index : Nat} (hrun : registry.runs token = some index) :
    ∃ child, (registry.pollAll text errors)[index]? = some child ∧
      text.signatureToken child.brief = token := by
  obtain ⟨child, hchild, htoken⟩ := h.keyed token index hrun
  rw [getElem?_pollAll, hchild]
  refine ⟨_, rfl, ?_⟩
  dsimp only
  split
  · rw [polled_brief]
    exact htoken
  · exact htoken

theorem runs_of_kept {errors : Nat → Option String} {brief : RecipeBrief}
    {token : UInt64} {index : Nat}
    (hrun : (registry.kept text errors brief).runs token = some index) :
    registry.runs token = some index := by
  rw [kept_runs] at hrun
  split at hrun
  · by_cases htoken : token = text.signatureToken brief
    · rw [htoken, Function.update_self] at hrun
      cases hrun
    · rwa [Function.update_of_ne htoken] at hrun
  · exact hrun

theorem spawn_noLog (errors : Nat → Option String) (error : String) (brief : RecipeBrief) :
    (registry.spawn text errors (.noLog error) brief).2 = registry.kept text errors brief := by
  rw [spawn_eq]
  split <;> rfl

theorem registered_spawn_forget (h : registry.forget.Registered text) (errors : Nat → Option String)
    (answer : SpawnAnswer) (brief : RecipeBrief) :
    (registry.spawn text errors answer brief).2.forget.Registered text := by
  rw [forget_spawn]
  exact RecipeRuns.registered_spawn h _ brief none

theorem sound_kept (h : registry.Sound text) (errors : Nat → Option String) (brief : RecipeBrief) :
    (registry.kept text errors brief).Sound text where
  registered := by
    rw [← spawn_noLog errors "" brief]
    exact registered_spawn_forget h.registered errors _ brief
  keyed token index hrun := by
    rw [kept_children]
    exact h.keyed_pollAll (runs_of_kept hrun)
  seen index child hchild hended hrun := by
    rw [kept_children] at hchild
    rw [kept_runs] at hrun
    split at hrun
    next hown =>
      by_cases htoken : text.signatureToken child.brief = text.signatureToken brief
      · -- The run of the token itself was polled, or it would not have been forgotten.
        by_cases hregistered : registry.runs (text.signatureToken child.brief) = some index
        · rw [← htoken, hregistered, Option.any_some, exited, Bool.and_eq_true] at hown
          exact h.reaped_pollAll hchild hended (Option.isNone_iff_eq_none.mp hown.1)
        · exact h.seen_pollAll hchild hended hregistered
      · rw [Function.update_of_ne htoken] at hrun
        exact h.seen_pollAll hchild hended hrun
    · exact h.seen_pollAll hchild hended hrun

theorem Sound.start (h : registry.Sound text) {brief : RecipeBrief} (logPath : String)
    (logs : String → Option (List UInt8)) (hfree : registry.runs (text.signatureToken brief) = none)
    (hregistered : (RunRegistry.mk
      (Function.update registry.runs (text.signatureToken brief) (some registry.children.length))
      (registry.children ++ [⟨brief, logPath, none, false⟩]) logs).forget.Registered text) :
    (RunRegistry.mk
      (Function.update registry.runs (text.signatureToken brief) (some registry.children.length))
      (registry.children ++ [⟨brief, logPath, none, false⟩]) logs).Sound text where
  registered := hregistered
  keyed token index hrun := by
    dsimp only at hrun ⊢
    by_cases htoken : token = text.signatureToken brief
    · rw [htoken, Function.update_self] at hrun
      obtain rfl := Option.some.inj hrun
      exact ⟨_, List.getElem?_concat_length, htoken.symm⟩
    · rw [Function.update_of_ne htoken] at hrun
      obtain ⟨child, hchild, hkey⟩ := h.keyed token index hrun
      exact ⟨child, by
        rw [List.getElem?_append_left (List.getElem?_eq_some_iff.mp hchild).1, hchild],
        hkey⟩
  seen index child hchild hended hrun := by
    dsimp only at hchild hrun
    rcases Nat.lt_or_ge index registry.children.length with hlt | hge
    · rw [List.getElem?_append_left hlt] at hchild
      by_cases htoken : text.signatureToken child.brief = text.signatureToken brief
      · apply h.seen index child hchild hended
        rw [htoken, hfree]
        exact nofun
      · rw [Function.update_of_ne htoken] at hrun
        exact h.seen index child hchild hended hrun
    · rw [List.getElem?_append_right hge, List.getElem?_singleton] at hchild
      split at hchild
      · obtain rfl := Option.some.inj hchild
        cases hended
      · cases hchild

theorem Sound.relog (h : registry.Sound text) (logs : String → Option (List UInt8)) :
    { registry with logs := logs }.Sound text :=
  ⟨h.registered, h.keyed, h.seen⟩

theorem sound_spawn (h : registry.Sound text) (errors : Nat → Option String) (answer : SpawnAnswer)
    (brief : RecipeBrief) : (registry.spawn text errors answer brief).2.Sound text := by
  have hkept := sound_kept h errors brief
  have hregistered := registered_spawn_forget h.registered errors answer brief
  rw [spawn_eq] at hregistered ⊢
  split
  · exact hkept
  next hfree =>
    rw [if_neg hfree] at hregistered
    cases answer with
    | noLog error => exact hkept
    | noProcess logPath error => exact hkept.relog _
    | started logPath =>
      exact hkept.start logPath _ (by simpa using hfree) hregistered

variable (lossy) in
theorem probe_leaves (errors : Nat → Option String) (token : UInt64) :
    (registry.probe lossy errors token).2 = registry ∨ ∃ index error,
      (registry.probe lossy errors token).2 =
        { registry with children := registry.children.modify index (polled error) } := by
  unfold probe
  split
  · exact Or.inl rfl
  next index child _ =>
    right
    refine ⟨index, errors index, ?_⟩
    dsimp only
    split
    · rfl
    · split <;> rfl

theorem reaped_polled {error : Option String} {child : RunChild} (h : child.reaped = true) :
    (polled error child).reaped = true := by
  unfold polled
  split
  · rfl
  · exact h

theorem forget_poll (index : Nat) (error : Option String) :
    RunRegistry.forget { registry with children := registry.children.modify index (polled error) } =
      registry.forget := by
  change RecipeRuns.mk registry.runs _ = RecipeRuns.mk registry.runs _
  congr 1
  apply List.ext_getElem?
  intro other
  rw [List.getElem?_map, List.getElem?_map, List.getElem?_modify]
  cases registry.children[other]? with
  | none => rfl
  | some child =>
    change some _ = some _
    congr 1
    dsimp only
    split
    · rw [polled_brief, polled_exit]
    · rfl

theorem Sound.poll (h : registry.Sound text) (polledIndex : Nat) (error : Option String) :
    Sound text
      { registry with children := registry.children.modify polledIndex (polled error) } where
  registered := by
    rw [forget_poll]
    exact h.registered
  keyed token index hrun := by
    obtain ⟨child, hchild, htoken⟩ := h.keyed token index hrun
    dsimp only
    rw [List.getElem?_modify, hchild]
    refine ⟨_, rfl, ?_⟩
    dsimp only
    split
    · rw [polled_brief]
      exact htoken
    · exact htoken
  seen index child hchild hended hrun := by
    dsimp only at hchild hrun
    rw [List.getElem?_modify] at hchild
    obtain ⟨before, hbefore, rfl⟩ := Option.map_eq_some_iff.mp hchild
    by_cases hindex : polledIndex = index
    · rw [if_pos hindex] at hended hrun ⊢
      rw [polled_exit] at hended
      rw [polled_brief] at hrun
      exact reaped_polled (h.seen index before hbefore hended hrun)
    · rw [if_neg hindex] at hended hrun ⊢
      exact h.seen index before hbefore hended hrun

theorem sound_probe (h : registry.Sound text) (errors : Nat → Option String) (token : UInt64) :
    (registry.probe lossy errors token).2.Sound text := by
  obtain hsame | ⟨index, error, hpolled⟩ := probe_leaves lossy errors token
  · rw [hsame]
    exact h
  · rw [hpolled]
    exact h.poll index error

theorem sound_write (h : registry.Sound text) (index : Nat) (bytes : List UInt8) :
    (registry.write index bytes).Sound text := by
  unfold write
  split
  · exact h
  · split
    · exact h
    · exact h.relog _

theorem sound_finish (h : registry.Sound text) (ended : Nat) (exit : ChildExit) :
    (registry.finish ended exit).Sound text where
  registered := by
    rw [forget_finish]
    exact RecipeRuns.registered_exit h.registered ended
  keyed token index hrun := by
    obtain ⟨child, hchild, htoken⟩ := h.keyed token index hrun
    change ∃ child, (registry.children.modify _ _)[index]? = some child ∧ _
    rw [List.getElem?_modify, hchild]
    refine ⟨_, rfl, ?_⟩
    dsimp only
    split <;> exact htoken
  seen index child hchild hended hrun := by
    change (registry.children.modify _ _)[index]? = some child at hchild
    change registry.runs _ ≠ some index at hrun
    rw [List.getElem?_modify] at hchild
    obtain ⟨before, hbefore, rfl⟩ := Option.map_eq_some_iff.mp hchild
    have hbrief : (if ended = index then { before with exit := before.exit.or (some exit) }
        else before).brief = before.brief := by
      split <;> rfl
    have hreaped : (if ended = index then { before with exit := before.exit.or (some exit) }
        else before).reaped = before.reaped := by
      split <;> rfl
    rw [hbrief] at hrun
    rw [hreaped]
    cases hexit : before.exit with
    | none => exact absurd (h.runs_of_running hbefore hexit) hrun
    | some _ => exact h.seen index before hbefore (by rw [hexit]; rfl) hrun

theorem sound_step (h : registry.Sound text) (event : RunEvent) :
    ((runMachine text lossy).step registry event).Sound text := by
  cases event with
  | spawn errors answer brief => exact sound_spawn h errors answer brief
  | probe errors token => exact sound_probe h errors token
  | childWrites index bytes => exact sound_write h index bytes
  | childExits index exit => exact sound_finish h index exit

theorem sound_run (h : registry.Sound text) (events : List RunEvent) :
    ((runMachine text lossy).run registry events).Sound text :=
  (runMachine text lossy).invariant_run
  (P := Sound text) (fun _ event h => sound_step h event) h events

/-- The child has ended and is registered, and its log, which no other child writes, stands. -/
structure Keeps (text : TextOps) (registry : RunRegistry) (index : Nat)
    (token : UInt64) (path : String)
    (exit : ChildExit) (log : Option (List UInt8)) : Prop where
  run : registry.runs token = some index
  child : ∃ child, registry.children[index]? = some child ∧ child.exit = some exit ∧
    child.logPath = path ∧ text.signatureToken child.brief = token
  own : ∀ other child, registry.children[other]? = some child → child.logPath = path → other = index
  log : registry.logs path = log

variable {index : Nat} {token : UInt64} {path : String} {exit : ChildExit}
    {log : Option (List UInt8)}

theorem Keeps.change (h : registry.Keeps text index token path exit log) {children : List RunChild}
    (change : Nat → RunChild → RunChild)
    (hchildren : ∀ i, children[i]? = (registry.children[i]?).map (change i))
    (hbrief : ∀ i child, (change i child).brief = child.brief)
    (hpath : ∀ i child, (change i child).logPath = child.logPath)
    (hexit : ∀ i child ended, child.exit = some ended → (change i child).exit = some ended) :
    Keeps text { registry with children := children } index token path exit log where
  run := h.run
  child := by
    obtain ⟨child, hchild, hended, hlog, htoken⟩ := h.child
    refine ⟨change index child, ?_, hexit index child exit hended, ?_, ?_⟩
    · rw [hchildren, hchild]
      rfl
    · rw [hpath, hlog]
    · rw [hbrief, htoken]
  own other child hchild hlog := by
    rw [hchildren] at hchild
    obtain ⟨before, hbefore, rfl⟩ := Option.map_eq_some_iff.mp hchild
    rw [hpath] at hlog
    exact h.own other before hbefore hlog
  log := h.log

theorem Keeps.poll (h : registry.Keeps text index token path exit log) (polledIndex : Nat)
    (error : Option String) :
    Keeps text { registry with children := registry.children.modify polledIndex (polled error) }
      index token path exit log := by
  apply h.change (fun i child => if polledIndex = i then polled error child else child)
  · intro i
    rw [List.getElem?_modify]
    rfl
  all_goals
    intro i child
    split
  · exact polled_brief error child
  · rfl
  · exact polled_logPath error child
  · rfl
  · rw [polled_exit]
    exact fun _ h => h
  · exact fun _ h => h

theorem Keeps.finish (h : registry.Keeps text index token path exit log) (ended : Nat)
    (other : ChildExit) :
    (registry.finish ended other).Keeps text index token path exit log := by
  apply h.change (fun i child =>
    if ended = i then { child with exit := child.exit.or (some other) } else child)
  · intro i
    rw [List.getElem?_modify]
    rfl
  all_goals
    intro i child
    split
  · rfl
  · rfl
  · rfl
  · rfl
  · intro result hresult
    rw [hresult]
    rfl
  · exact fun _ h => h

theorem Keeps.write (h : registry.Keeps text index token path exit log) (other : Nat)
    (bytes : List UInt8) : (registry.write other bytes).Keeps text index token path exit log := by
  unfold RunRegistry.write
  split
  · exact h
  next child hchild =>
    split
    · exact h
    next hrunning =>
      have hpath : path ≠ child.logPath := by
        intro hpath
        obtain rfl := h.own other child hchild hpath.symm
        obtain ⟨own, hown, hended, -, -⟩ := h.child
        rw [hchild] at hown
        obtain rfl := Option.some.inj hown
        rw [hended] at hrunning
        exact hrunning rfl
      exact ⟨h.run, h.child, h.own, by rw [← h.log]; exact Function.update_of_ne hpath ..⟩

theorem Keeps.kept (h : registry.Keeps text index token path exit log)
    (hsound : registry.Sound text)
    (errors : Nat → Option String) {brief : RecipeBrief}
    (hbrief : text.signatureToken brief ≠ token) :
    (registry.kept text errors brief).Keeps text index token path exit log := by
  have hpolled : Keeps text { registry with children := registry.pollAll text errors }
      index token path exit log := by
    apply h.change (fun i child =>
      if registry.runs (text.signatureToken child.brief) = some i then
        polled (errors i) child else child)
    · intro i
      exact getElem?_pollAll errors i
    all_goals
      intro i child
      split
    · exact polled_brief _ child
    · rfl
    · exact polled_logPath _ child
    · rfl
    · rw [polled_exit]
      exact fun _ h => h
    · exact fun _ h => h
  unfold RunRegistry.kept
  split
  · refine ⟨?_, hpolled.child, hpolled.own, ?_⟩
    · exact (Function.update_of_ne hbrief.symm ..).trans h.run
    · -- The log that goes is that of a child with another token.
      change (Option.elim _ _ _ : String → Option (List UInt8)) path = log
      cases hrun : registry.runs (text.signatureToken brief) with
      | none => exact h.log
      | some other =>
        dsimp only [Option.bind_some]
        cases hchild : (registry.pollAll text errors)[other]? with
        | none => exact h.log
        | some child =>
          rw [Option.elim_some, Function.update_of_ne]
          · exact h.log
          · intro hpath
            obtain rfl := hpolled.own other child hchild hpath.symm
            obtain ⟨own, hown, -, -, htoken⟩ := h.child
            exact hbrief ((hsound.token_of_runs hrun hown).symm.trans htoken)
  · exact hpolled

theorem Keeps.spawn (h : registry.Keeps text index token path exit log)
    (hsound : registry.Sound text)
    (errors : Nat → Option String) {answer : SpawnAnswer} {brief : RecipeBrief}
    (hbrief : text.signatureToken brief ≠ token) (hanswer : answer.path? ≠ some path) :
    (registry.spawn text errors answer brief).2.Keeps text index token path exit log := by
  have hkept := h.kept hsound errors hbrief
  rw [spawn_eq]
  split
  · exact hkept
  · cases answer with
    | noLog error => exact hkept
    | noProcess logPath error =>
      have hpath : path ≠ logPath := fun hpath => hanswer (by rw [hpath]; rfl)
      exact ⟨hkept.run, hkept.child, hkept.own, (Function.update_of_ne hpath ..).trans hkept.log⟩
    | started logPath =>
      have hpath : path ≠ logPath := fun hpath => hanswer (by rw [hpath]; rfl)
      refine ⟨(Function.update_of_ne hbrief.symm ..).trans hkept.run, ?_, ?_,
        (Function.update_of_ne hpath ..).trans hkept.log⟩
      · obtain ⟨child, hchild, hrest⟩ := hkept.child
        refine ⟨child, ?_, hrest⟩
        dsimp only
        rw [List.getElem?_append_left (List.getElem?_eq_some_iff.mp hchild).1, hchild]
      · intro other child hchild hlog
        dsimp only at hchild
        rcases Nat.lt_or_ge other (registry.kept text errors brief).children.length with hlt | hge
        · rw [List.getElem?_append_left hlt] at hchild
          exact hkept.own other child hchild hlog
        · rw [List.getElem?_append_right hge, List.getElem?_singleton] at hchild
          split at hchild
          · obtain rfl := Option.some.inj hchild
            exact absurd hlog.symm hpath
          · cases hchild

theorem Keeps.step (h : registry.Keeps text index token path exit log)
    (hsound : registry.Sound text)
    {event : RunEvent} (hevent : event.Spares text token path) :
    ((runMachine text lossy).step registry event).Keeps text index token path exit log := by
  cases event with
  | spawn errors answer brief => exact h.spawn hsound errors hevent.1 hevent.2
  | probe errors probed =>
    change (registry.probe lossy errors probed).2.Keeps text index token path exit log
    obtain hsame | ⟨polledIndex, error, hpolled⟩ := probe_leaves lossy errors probed
    · rw [hsame]
      exact h
    · rw [hpolled]
      exact h.poll polledIndex error
  | childWrites other bytes => exact h.write other bytes
  | childExits ended other => exact h.finish ended other

theorem Keeps.run_events (h : registry.Keeps text index token path exit log)
    (hsound : registry.Sound text) {events : List RunEvent}
    (hevents : ∀ event ∈ events, event.Spares text token path) :
    ((runMachine text lossy).run registry events).Keeps text index token path exit log := by
  induction events generalizing registry with
  | nil => exact h
  | cons event events ih =>
    rw [List.forall_mem_cons] at hevents
    exact ih (h.step hsound hevents.1) (sound_step hsound event) hevents.2

theorem Keeps.probe (h : registry.Keeps text index token path exit log)
    {errors : Nat → Option String} (hpolled : errors index = none) :
    (registry.probe lossy errors token).1 = .ok (exit.verdict lossy log) := by
  obtain ⟨child, hchild, hended, hpath, -⟩ := h.child
  have hfound : ((registry.runs token).bind fun index =>
      (registry.children[index]?).map fun child => (index, child)) = some (index, child) := by
    rw [h.run, Option.bind_some, hchild, Option.map_some]
  rw [RunRegistry.probe, hfound]
  simp only [hpolled, hended]
  rw [hpath, h.log]

theorem Sound.keeps_finish (h : registry.Sound text) {child : RunChild}
    (hchild : registry.children[index]? = some child) (hrunning : child.exit = none)
    (hown : ∀ other second, registry.children[other]? = some second →
      second.logPath = child.logPath → other = index) (exit : ChildExit) :
    (registry.finish index exit).Keeps text index (text.signatureToken child.brief)
      child.logPath exit
      (registry.logs child.logPath) where
  run := h.runs_of_running hchild hrunning
  child := by
    refine ⟨{ child with exit := some exit }, ?_, rfl, rfl, rfl⟩
    change (registry.children.modify _ _)[index]? = _
    rw [List.getElem?_modify_eq, hchild]
    change some { child with exit := child.exit.or (some exit) } = _
    rw [hrunning]
    rfl
  own other second hsecond hpath := by
    change (registry.children.modify _ _)[other]? = _ at hsecond
    rw [List.getElem?_modify] at hsecond
    obtain ⟨before, hbefore, rfl⟩ := Option.map_eq_some_iff.mp hsecond
    apply hown other before hbefore
    rw [← hpath]
    split <;> rfl
  log := rfl

/-- What a launch and a probe can rely on. -/
structure LaunchesOnce (text : TextOps) (lossy : List UInt8 → List Char) (registry : RunRegistry) :
    Prop where
  /-- No two children of one token are running. -/
  single : ∀ (i j : Nat) (child other : RunChild), registry.children[i]? = some child →
    registry.children[j]? = some other → child.exit = none → other.exit = none →
    text.signatureToken child.brief = text.signatureToken other.brief → i = j
  /-- A child that runs, or whose poll fails, is handed back and no process is started. -/
  suppressed : ∀ (index : Nat) (child : RunChild) (errors : Nat → Option String)
    (answer : SpawnAnswer) (brief : RecipeBrief), registry.children[index]? = some child →
    text.signatureToken brief = text.signatureToken child.brief →
    child.exit = none ∨
      registry.runs (text.signatureToken child.brief) = some index ∧ errors index ≠ none →
    (registry.spawn text errors answer brief).1 = .ok (text.signatureToken child.brief) ∧
      (registry.spawn text errors answer brief).2.children.length = registry.children.length ∧
      (registry.spawn text errors answer brief).2.runs (text.signatureToken child.brief) =
        some index
  /-- When a child ends its result is read, as the log then was, until its token is launched. -/
  readable : ∀ (index : Nat) (child : RunChild) (exit : ChildExit) (later : List RunEvent)
    (errors : Nat → Option String), registry.children[index]? = some child → child.exit = none →
    (∀ other second, registry.children[other]? = some second →
      second.logPath = child.logPath → other = index) →
    (∀ event ∈ later, event.Spares text (text.signatureToken child.brief) child.logPath) →
    errors index = none →
    (((runMachine text lossy).run registry (.childExits index exit :: later)).probe lossy errors
      (text.signatureToken child.brief)).1 = .ok (exit.verdict lossy (registry.logs child.logPath))
  /-- A launch polls every child that has ended, unless the poll fails. -/
  reaped :
    ∀ (errors : Nat → Option String) (answer : SpawnAnswer) (brief : RecipeBrief) (index : Nat)
    (child : RunChild),
    (registry.spawn text errors answer brief).2.children[index]? = some child →
    child.exit.isSome = true → errors index = none → child.reaped = true

theorem Sound.suppressed (h : registry.Sound text) {child : RunChild} {brief : RecipeBrief}
    {errors : Nat → Option String} (answer : SpawnAnswer)
    (hchild : registry.children[index]? = some child)
    (htoken : text.signatureToken brief = text.signatureToken child.brief)
    (hheld : child.exit = none ∨
      registry.runs (text.signatureToken child.brief) = some index ∧ errors index ≠ none) :
    (registry.spawn text errors answer brief).1 = .ok (text.signatureToken child.brief) ∧
      (registry.spawn text errors answer brief).2.children.length = registry.children.length ∧
      (registry.spawn text errors answer brief).2.runs (text.signatureToken child.brief) =
        some index := by
  have hrun : registry.runs (text.signatureToken child.brief) = some index := by
    rcases hheld with hrunning | ⟨hrun, -⟩
    · exact h.runs_of_running hchild hrunning
    · exact hrun
  have hexited : registry.exited errors index = false := by
    rcases hheld with hrunning | ⟨-, hfails⟩
    · rw [exited, hchild, Option.any_some, hrunning]
      exact Bool.and_false _
    · rw [exited, Option.isNone_eq_false_iff.mpr (Option.isSome_iff_ne_none.mpr hfails)]
      exact Bool.false_and _
  have hkept : (registry.kept text errors brief).runs (text.signatureToken brief) = some index := by
    rw [kept_runs, htoken, hrun, Option.any_some, hexited]
    exact hrun
  have hlength : (registry.kept text errors brief).children.length = registry.children.length := by
    rw [kept_children, pollAll, List.length_mapIdx]
  rw [spawn_eq, if_pos (by rw [hkept]; rfl)]
  refine ⟨by rw [htoken], hlength, ?_⟩
  rw [← htoken]
  exact hkept

theorem Sound.reaped_spawn (h : registry.Sound text) {errors : Nat → Option String}
    {answer : SpawnAnswer} {brief : RecipeBrief} {child : RunChild}
    (hchild : (registry.spawn text errors answer brief).2.children[index]? = some child)
    (hended : child.exit.isSome = true) (hpolled : errors index = none) : child.reaped = true := by
  have hkept : (registry.kept text errors brief).children[index]? = some child →
      child.reaped = true := by
    intro hchild
    rw [kept_children] at hchild
    exact h.reaped_pollAll hchild hended hpolled
  rw [spawn_eq] at hchild
  split at hchild
  · exact hkept hchild
  · cases answer with
    | noLog error => exact hkept hchild
    | noProcess logPath error => exact hkept hchild
    | started logPath =>
      dsimp only at hchild
      rw [List.getElem?_append] at hchild
      split at hchild
      · exact hkept hchild
      · rw [List.getElem?_singleton] at hchild
        split at hchild
        · obtain rfl := Option.some.inj hchild
          cases hended
        · cases hchild

theorem Sound.launchesOnce (h : registry.Sound text) : LaunchesOnce text lossy registry where
  single i j child other hchild hother hrunning hsecond htoken := by
    have hfirst := h.runs_of_running hchild hrunning
    rw [htoken, h.runs_of_running hother hsecond] at hfirst
    exact (Option.some.inj hfirst).symm
  suppressed _ _ _ answer _ hchild htoken hheld := h.suppressed answer hchild htoken hheld
  readable index child exit later errors hchild hrunning hown hlater hpolled := by
    have hkeeps := h.keeps_finish hchild hrunning hown exit
    exact (hkeeps.run_events (sound_finish h index exit) hlater).probe hpolled
  reaped _ _ _ _ _ hchild hended hpolled := h.reaped_spawn hchild hended hpolled

end RunRegistry

/-- Launches are made once per token, whatever the calls, the polls that fail and the times at which
children end. -/
theorem recipe_launches_once (text : TextOps) (lossy : List UInt8 → List Char)
    (events : List RunEvent) :
    RunRegistry.LaunchesOnce text lossy ((runMachine text lossy).run RunRegistry.init events) :=
  (RunRegistry.sound_run RunRegistry.sound_init events).launchesOnce

def asciiOps : TextOps := ⟨List.map Char.toLower, SipHash.defaultHash⟩

def asciiText (bytes : List UInt8) : List Char := bytes.map fun byte => Char.ofNat byte.toNat

def docsBrief : RecipeBrief := ⟨"docs".toList, "o/r".toList, none⟩

def testsBrief : RecipeBrief := ⟨"tests".toList, "o/r".toList, none⟩

def launched (logPath : String) (brief : RecipeBrief) : RunEvent :=
  .spawn (fun _ => none) (.started logPath) brief

def openedPr : RunEvent :=
  .childWrites 0 ("github.com/o/r/pull/7".toList.map fun c => UInt8.ofNat c.toNat)

/-- A child whose poll fails at the next launch has ended and was not polled to its end; and a
result that was read is gone when another launch is given the log. -/
theorem ended_child_unseen_and_result_overwritten :
    (((runMachine asciiOps asciiText).run RunRegistry.init [launched "a" docsBrief,
        .childExits 0 ⟨true, "exit status: 0"⟩,
        .spawn (fun _ => some "Interrupted system call") (.started "b")
          testsBrief]).children[0]?).map
      (fun child => (child.exit.isSome, child.reaped)) = some (true, false) ∧
    (((runMachine asciiOps asciiText).run RunRegistry.init [launched "a" docsBrief, openedPr,
        .childExits 0 ⟨true, "exit status: 0"⟩]).probe asciiText (fun _ => none)
      (asciiOps.signatureToken docsBrief)).1.toOption = some (.producedPr "o/r".toList 7) ∧
    (((runMachine asciiOps asciiText).run RunRegistry.init [launched "a" docsBrief, openedPr,
        .childExits 0 ⟨true, "exit status: 0"⟩, launched "a" testsBrief]).probe asciiText
      (fun _ => none) (asciiOps.signatureToken docsBrief)).1.toOption =
      some (.failed "recipe finished but produced no PR") := by
  decide

end Simard.Overseer
