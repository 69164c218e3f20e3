import Simard.Library.Machine
import Simard.Signal.Channel

/-! Conversations over Signal that go on. Each operator has a conversation with a history that is
handed to the agent at every turn; the turns are written to a session file, from which a restarted
daemon takes the conversation up again. -/
namespace Simard.Signal
open Simard.Library

@[irreducible] def maxHistory : Nat := 500

theorem two_le_maxHistory : 2 ≤ maxHistory := by
  unfold maxHistory
  decide

inductive Role where
  | user
  | assistant
  | system
  deriving DecidableEq

/-- A message, with the operator in whose conversation it was said and whether it is a question
that got no reply. -/
structure Message where
  role : Role
  content : String
  operator : String
  failed : Bool
  deriving DecidableEq

def restore (history : List Message) : List Message := history.drop (history.length - maxHistory)

def pushMessage (history : List Message) (message : Message) : List Message :=
  (if maxHistory ≤ history.length then history.tail else history) ++ [message]

/-- The history handed to the agent, the history after the turn, and the reply. A blank reply is
an error like any other. -/
def sendMessage (operator : String) (history : List Message) (text : String)
    (answer : Option String) : List Message × List Message × Option String :=
  let replied := answer.filter fun reply => trim reply.toList ≠ []
  let asked := pushMessage history ⟨.user, text, operator, replied.isNone⟩
  match replied with
  | some reply => (asked, pushMessage asked ⟨.assistant, reply, operator, false⟩, some reply)
  | none => (asked, asked, none)

inductive Lifecycle where
  | reset
  | help
  | close
  deriving DecidableEq

def lifecycleCommand (text : String) : Option Lifecycle :=
  let trimmed := trim text.toList
  if eqIgnoreAsciiCase trimmed "/new" || eqIgnoreAsciiCase trimmed "/reset" then some .reset
  else if eqIgnoreAsciiCase trimmed "/help" then some .help
  else if eqIgnoreAsciiCase trimmed "/close" then some .close
  else none

/-- A live backend and the session it is bound to. -/
structure LiveConversation where
  history : List Message
  session : Nat
  deriving DecidableEq

/-- The active session of each operator and the session files on disk, the live backends, and the
histories handed to the agent so far, newest first. Session ids are handed out in order. -/
structure Daemon where
  index : String → Option Nat
  files : Nat → List Message
  nextSession : Nat
  live : String → Option LiveConversation
  handed : List (String × List Message)

inductive DaemonEvent where
  /-- A message, and what the agent makes of it if it is a turn. -/
  | message (operator text : String) (answer : Option String)
  | restart

namespace Daemon

variable (daemon : Daemon)

def start : Daemon := ⟨fun _ => none, fun _ => [], 0, fun _ => none, []⟩

/-- A new session for the operator, whose live backend is dropped. -/
def rotate (operator : String) : Daemon :=
  { daemon with
    index := Function.update daemon.index operator (some daemon.nextSession)
    nextSession := daemon.nextSession + 1
    live := Function.update daemon.live operator none }

/-- The live conversation of the operator, taken up from the session file if there is none. -/
def ensure (operator : String) : LiveConversation × Daemon :=
  match daemon.live operator with
  | some conversation => (conversation, daemon)
  | none =>
      match daemon.index operator with
      | some session => (⟨restore (daemon.files session), session⟩, daemon)
      | none =>
          (⟨restore (daemon.files daemon.nextSession), daemon.nextSession⟩,
            { daemon with
              index := Function.update daemon.index operator (some daemon.nextSession)
              nextSession := daemon.nextSession + 1 })

/-- A turn: its two messages are written to the file if there was a reply. -/
def turn (operator text : String) (answer : Option String) : Daemon :=
  match daemon.ensure operator with
  | (conversation, daemon) =>
      match sendMessage operator conversation.history text answer with
      | (handed, history, reply) =>
          { daemon with
            live := Function.update daemon.live operator (some ⟨history, conversation.session⟩)
            files :=
              if reply.isSome then
                Function.update daemon.files conversation.session
                  (daemon.files conversation.session ++ history.drop (history.length - 2))
              else daemon.files
            handed := (operator, handed) :: daemon.handed }

def step : DaemonEvent → Daemon
  | .message operator text answer =>
      let text := String.ofList (trim text.toList)
      if text = "" then daemon
      else
        match lifecycleCommand text with
        | some .reset | some .close => daemon.rotate operator
        | some .help => daemon
        | none => daemon.turn operator text answer
  | .restart => { daemon with live := fun _ => none }

end Daemon

def daemonMachine : Machine Daemon DaemonEvent := ⟨Daemon.step⟩

theorem daemonMachine_step (daemon : Daemon) (event : DaemonEvent) :
    daemonMachine.step daemon event = daemon.step event := by
  rw [daemonMachine]

theorem restore_append_of_length {pre recent : List Message} (h : recent.length = maxHistory) :
    restore (pre ++ recent) = recent := by
  rw [restore, List.length_append, h, Nat.add_sub_cancel, List.drop_left]

theorem restore_of_le {history : List Message} (h : history.length ≤ maxHistory) :
    restore history = history := by
  rw [restore, Nat.sub_eq_zero_of_le h, List.drop_zero]

theorem pushMessage_restore (full : List Message) (message : Message) :
    pushMessage (restore full) message = restore (full ++ [message]) := by
  have hpositive := two_le_maxHistory
  unfold pushMessage restore
  rw [List.length_drop, List.length_append, List.length_singleton,
    List.drop_append_of_le_length (by omega)]
  by_cases h : maxHistory ≤ full.length
  · have hnext : full.length + 1 - maxHistory = full.length - maxHistory + 1 := by omega
    rw [if_pos (by omega), List.tail_drop, hnext]
  · have hnext : full.length + 1 - maxHistory = full.length - maxHistory := by omega
    rw [if_neg (by omega), hnext]

theorem restore_filter {full : List Message}
    (h : ∀ message ∈ restore full, message.failed = false) :
    restore (full.filter (!·.failed)) = restore full := by
  have hkept : (restore full).filter (!·.failed) = restore full := by
    rw [List.filter_eq_self]
    intro message hmem
    rw [h message hmem]
    rfl
  by_cases hlength : full.length ≤ maxHistory
  · rw [restore_of_le hlength] at hkept
    rw [hkept]
  · have hsplit : full = full.take (full.length - maxHistory) ++ restore full :=
      (List.take_append_drop _ _).symm
    have hrecent : (restore full).length = maxHistory := by
      rw [restore, List.length_drop]
      omega
    calc restore (full.filter (!·.failed))
        = restore ((full.take (full.length - maxHistory)).filter (!·.failed) ++ restore full) := by
          conv_lhs => rw [hsplit, List.filter_append, hkept]
      _ = restore full := restore_append_of_length hrecent

theorem restore_append (pre : List Message) {recent : List Message}
    (h : recent.length ≤ maxHistory) :
    ∃ kept, restore (pre ++ recent) = kept ++ recent := by
  refine ⟨pre.drop ((pre ++ recent).length - maxHistory), ?_⟩
  rw [restore, List.drop_append_of_le_length]
  rw [List.length_append]
  omega

theorem drop_restore_pair (full : List Message) (asked replied : Message) :
    (restore (full ++ [asked] ++ [replied])).drop
      ((restore (full ++ [asked] ++ [replied])).length - 2) = [asked, replied] := by
  obtain ⟨kept, hkept⟩ := restore_append full (show [asked, replied].length ≤ maxHistory from
    two_le_maxHistory)
  rw [List.append_assoc, List.singleton_append, hkept, List.length_append]
  exact List.drop_left' (by simp)

theorem mem_of_mem_restore {full : List Message} {message : Message} (h : message ∈ restore full) :
    message ∈ full := List.mem_of_mem_drop h

/-- The history is the recent part of all that was said, of which the file has what was
answered. -/
def Recorded (operator : String) (history file : List Message) : Prop :=
  ∃ full, history = restore full ∧ file = full.filter (!·.failed) ∧
    ∀ message ∈ full, message.operator = operator

theorem recorded_restore {operator : String} {file : List Message}
    (hanswered : ∀ message ∈ file, message.failed = false)
    (hown : ∀ message ∈ file, message.operator = operator) :
    Recorded operator (restore file) file := by
  refine ⟨file, rfl, ?_, hown⟩
  symm
  rw [List.filter_eq_self]
  intro message hmem
  rw [hanswered message hmem]
  rfl

theorem Recorded.restore_eq {operator : String} {history file : List Message}
    (h : Recorded operator history file) (hclean : ∀ message ∈ history, message.failed = false) :
    restore file = history := by
  obtain ⟨full, rfl, rfl, -⟩ := h
  exact restore_filter hclean

theorem Recorded.sendMessage {operator : String} {history file : List Message}
    (h : Recorded operator history file) (text : String) (answer : Option String) :
    (∀ message ∈ (sendMessage operator history text answer).1, message.operator = operator) ∧
      Recorded operator (sendMessage operator history text answer).2.1
        (if (sendMessage operator history text answer).2.2.isSome then
          file ++ (sendMessage operator history text answer).2.1.drop
            ((sendMessage operator history text answer).2.1.length - 2)
        else file) ∧
      ((sendMessage operator history text answer).2.2.isSome →
        ∀ message ∈ (sendMessage operator history text answer).2.1.drop
          ((sendMessage operator history text answer).2.1.length - 2),
          message.failed = false ∧ message.operator = operator) := by
  obtain ⟨full, rfl, rfl, hown⟩ := h
  unfold Signal.sendMessage
  dsimp only
  cases answer.filter fun reply => trim reply.toList ≠ [] with
  | none =>
    dsimp only
    rw [pushMessage_restore]
    have howned : ∀ message ∈ full ++ [⟨.user, text, operator, true⟩],
        message.operator = operator := by
      intro message hmem
      rcases List.mem_append.mp hmem with hmem | hmem
      · exact hown message hmem
      · rw [List.mem_singleton.mp hmem]
    refine ⟨fun message hmem => howned message (mem_of_mem_restore hmem), ?_, nofun⟩
    refine ⟨full ++ [⟨.user, text, operator, true⟩], rfl, ?_, howned⟩
    rw [List.filter_append]
    simp
  | some reply =>
    dsimp only
    rw [pushMessage_restore, pushMessage_restore, drop_restore_pair]
    have howned : ∀ message ∈ full ++ [⟨.user, text, operator, false⟩] ++
        [⟨.assistant, reply, operator, false⟩], message.operator = operator := by
      intro message hmem
      simp only [List.append_assoc, List.mem_append, List.mem_singleton] at hmem
      rcases hmem with hmem | rfl | rfl
      · exact hown message hmem
      · rfl
      · rfl
    refine ⟨fun message hmem => ?_, ?_, fun _ => ?_⟩
    · exact howned message (List.mem_append_left _ (mem_of_mem_restore hmem))
    · refine ⟨_, rfl, ?_, howned⟩
      simp
    · simp

namespace Daemon

/-- Every operator's active session is their own, and what it holds, and what their live backend
holds, was said in their conversation. -/
structure Sound (daemon : Daemon) : Prop where
  bound {operator : String} {session : Nat} :
    daemon.index operator = some session → session < daemon.nextSession
  own {operator other : String} {session : Nat} : daemon.index operator = some session →
    daemon.index other = some session → operator = other
  written {operator : String} {session : Nat} : daemon.index operator = some session →
    ∀ message ∈ daemon.files session, message.operator = operator
  fresh : ∀ session, daemon.nextSession ≤ session → daemon.files session = []
  answered : ∀ session, ∀ message ∈ daemon.files session, message.failed = false
  live {operator : String} {conversation : LiveConversation} :
    daemon.live operator = some conversation →
      daemon.index operator = some conversation.session ∧
        Recorded operator conversation.history (daemon.files conversation.session)
  handed : ∀ entry ∈ daemon.handed, ∀ message ∈ entry.2, message.operator = entry.1

theorem sound_start : start.Sound where
  bound := nofun
  own := nofun
  written := nofun
  fresh _ _ := rfl
  answered := nofun
  live := nofun
  handed := nofun

variable {daemon : Daemon}

theorem Sound.setIndex (h : daemon.Sound) (operator : String) :
    ({ daemon with
      index := Function.update daemon.index operator (some daemon.nextSession)
      nextSession := daemon.nextSession + 1
      live := Function.update daemon.live operator none } : Daemon).Sound where
  bound {other session} hindex := by
    dsimp only at hindex ⊢
    rw [Function.update_apply] at hindex
    split at hindex
    · cases hindex
      exact Nat.lt_succ_self _
    · exact (h.bound hindex).trans (Nat.lt_succ_self _)
  own {first second session} hfirst hsecond := by
    dsimp only at hfirst hsecond
    rw [Function.update_apply] at hfirst hsecond
    split at hfirst
    · split at hsecond
      · next hf hs => exact hf.trans hs.symm
      · cases hfirst
        exact absurd (h.bound hsecond) (Nat.lt_irrefl _)
    · split at hsecond
      · cases hsecond
        exact absurd (h.bound hfirst) (Nat.lt_irrefl _)
      · exact h.own hfirst hsecond
  written {other session} hindex := by
    dsimp only at hindex ⊢
    rw [Function.update_apply] at hindex
    split at hindex
    · cases hindex
      rw [h.fresh _ (Nat.le_refl _)]
      exact nofun
    · exact h.written hindex
  fresh session hle := h.fresh session (Nat.le_of_succ_le hle)
  answered := h.answered
  live {other conversation} hlive := by
    dsimp only at hlive ⊢
    rw [Function.update_apply] at hlive ⊢
    split at hlive
    · cases hlive
    · next hne =>
      rw [if_neg hne]
      exact h.live hlive
  handed := h.handed

theorem Sound.ensure (h : daemon.Sound) (operator : String) :
    (daemon.ensure operator).2.Sound ∧
      (daemon.ensure operator).2.index operator = some (daemon.ensure operator).1.session ∧
      Recorded operator (daemon.ensure operator).1.history
        ((daemon.ensure operator).2.files (daemon.ensure operator).1.session) := by
  unfold Daemon.ensure
  cases hlive : daemon.live operator with
  | some conversation => exact ⟨h, h.live hlive⟩
  | none =>
    dsimp only
    cases hindex : daemon.index operator with
    | some session => exact ⟨h, hindex, recorded_restore (h.answered session) (h.written hindex)⟩
    | none =>
      have hnone : Function.update daemon.live operator none = daemon.live := by
        rw [← hlive, Function.update_eq_self]
      have hset := h.setIndex operator
      rw [hnone] at hset
      refine ⟨hset, Function.update_self _ _ _, recorded_restore (h.answered _) ?_⟩
      rw [h.fresh _ (Nat.le_refl _)]
      exact nofun

theorem Sound.turn (h : daemon.Sound) (operator text : String) (answer : Option String) :
    (daemon.turn operator text answer).Sound := by
  obtain ⟨hensured, hindex, hrecorded⟩ := h.ensure operator
  unfold Daemon.turn
  generalize daemon.ensure operator = ensured at hensured hindex hrecorded
  obtain ⟨conversation, ensured⟩ := ensured
  dsimp only at hensured hindex hrecorded ⊢
  obtain ⟨hhanded, hnext, hpair⟩ := hrecorded.sendMessage text answer
  generalize sendMessage operator conversation.history text answer = sent at hhanded hnext hpair
  obtain ⟨handed, history, reply⟩ := sent
  dsimp only at hhanded hnext hpair ⊢
  have hfile (session : Nat) : (if reply.isSome then
      Function.update ensured.files conversation.session
        (ensured.files conversation.session ++ history.drop (history.length - 2))
      else ensured.files) session = if session = conversation.session then
        (if reply.isSome then ensured.files conversation.session ++
          history.drop (history.length - 2) else ensured.files conversation.session)
        else ensured.files session := by
    by_cases hreply : reply.isSome
    · simp only [hreply, if_true, Function.update_apply]
    · simp only [hreply, if_false, Bool.false_eq_true]
      split
      · next heq => rw [heq]
      · rfl
  exact {
    bound := hensured.bound
    own := hensured.own
    written := by
      intro other session hother message hmem
      dsimp only at hother hmem
      rw [hfile] at hmem
      split at hmem
      · next heq =>
        subst heq
        obtain rfl := hensured.own hother hindex
        split at hmem
        · next hreply =>
          rcases List.mem_append.mp hmem with hmem | hmem
          · exact hensured.written hindex message hmem
          · exact (hpair hreply message hmem).2
        · exact hensured.written hindex message hmem
      · exact hensured.written hother message hmem
    fresh := by
      intro session hle
      dsimp only
      rw [hfile, if_neg]
      · exact hensured.fresh session hle
      · rintro rfl
        exact absurd (hensured.bound hindex) (Nat.not_lt_of_le hle)
    answered := by
      intro session message hmem
      dsimp only at hmem
      rw [hfile] at hmem
      split at hmem
      · split at hmem
        · next hreply =>
          rcases List.mem_append.mp hmem with hmem | hmem
          · exact hensured.answered _ message hmem
          · exact (hpair hreply message hmem).1
        · exact hensured.answered _ message hmem
      · exact hensured.answered _ message hmem
    live := by
      intro other live hlive
      dsimp only at hlive ⊢
      rw [Function.update_apply] at hlive
      split at hlive
      · next heq =>
        cases hlive
        subst heq
        refine ⟨hindex, ?_⟩
        rw [hfile, if_pos rfl]
        exact hnext
      · next hne =>
        obtain ⟨hother, hrecorded⟩ := hensured.live hlive
        refine ⟨hother, ?_⟩
        rw [hfile, if_neg]
        · exact hrecorded
        · intro heq
          rw [heq] at hother
          exact hne (hensured.own hother hindex)
    handed := by
      intro entry hmem
      rcases List.mem_cons.mp hmem with rfl | hmem
      · exact hhanded
      · exact hensured.handed entry hmem }

theorem Sound.step (h : daemon.Sound) (event : DaemonEvent) : (daemon.step event).Sound := by
  cases event with
  | message operator text answer =>
    simp only [Daemon.step]
    split
    · exact h
    · split
      · exact h.setIndex operator
      · exact h.setIndex operator
      · exact h
      · exact h.turn operator _ answer
  | restart => exact { h with live := nofun }

/-- Alike on disk and in what was handed out; a live backend that is missing can be had from the
session file. -/
structure Resembles (restarted steady : Daemon) : Prop where
  index : restarted.index = steady.index
  files : restarted.files = steady.files
  nextSession : restarted.nextSession = steady.nextSession
  handed : restarted.handed = steady.handed
  live (operator : String) : restarted.live operator = steady.live operator ∨
    restarted.live operator = none ∧ ∃ conversation, steady.live operator = some conversation ∧
      restore (steady.files conversation.session) = conversation.history

/-- No live backend holds a question that got no reply. -/
def Clean (daemon : Daemon) : Prop :=
  ∀ operator conversation, daemon.live operator = some conversation →
    ∀ message ∈ conversation.history, message.failed = false

variable {restarted steady : Daemon}

theorem resembles_self (daemon : Daemon) : Resembles daemon daemon where
  index := rfl
  files := rfl
  nextSession := rfl
  handed := rfl
  live _ := .inl rfl

theorem Resembles.rotate (h : Resembles restarted steady) (operator : String) :
    Resembles (restarted.rotate operator) (steady.rotate operator) where
  index := by simp only [Daemon.rotate, h.index, h.nextSession]
  files := h.files
  nextSession := by simp only [Daemon.rotate, h.nextSession]
  handed := h.handed
  live other := by
    simp only [Daemon.rotate, Function.update_apply]
    split
    · exact .inl rfl
    · exact h.live other

theorem Resembles.ensure (h : Resembles restarted steady) (hsteady : steady.Sound)
    (operator : String) : (restarted.ensure operator).1 = (steady.ensure operator).1 ∧
      Resembles (restarted.ensure operator).2 (steady.ensure operator).2 := by
  unfold Daemon.ensure
  rcases h.live operator with hsame | ⟨hnone, conversation, hlive, hrestored⟩
  · rw [hsame]
    cases hlive : steady.live operator with
    | some conversation => exact ⟨rfl, h⟩
    | none =>
      dsimp only
      rw [h.index, h.files]
      cases steady.index operator with
      | some session => exact ⟨rfl, h⟩
      | none =>
        dsimp only
        rw [h.nextSession]
        exact ⟨rfl, rfl, rfl, rfl, h.handed, h.live⟩
  · rw [hnone, hlive, h.index, h.files, (hsteady.live hlive).1]
    refine ⟨?_, h⟩
    dsimp only
    rw [hrestored]

theorem Resembles.turn (h : Resembles restarted steady) (hsteady : steady.Sound)
    (operator text : String) (answer : Option String) :
    Resembles (restarted.turn operator text answer) (steady.turn operator text answer) := by
  obtain ⟨hsame, hensured⟩ := h.ensure hsteady operator
  obtain ⟨hsound, hindex, -⟩ := hsteady.ensure operator
  unfold Daemon.turn
  generalize restarted.ensure operator = first at hsame hensured
  generalize steady.ensure operator = second at hsame hensured hsound hindex
  obtain ⟨conversation, first⟩ := first
  obtain ⟨_, second⟩ := second
  dsimp only at hsame hensured hsound hindex ⊢
  subst hsame
  generalize sendMessage operator conversation.history text answer = sent
  obtain ⟨handed, history, reply⟩ := sent
  dsimp only
  refine ⟨hensured.index, by rw [hensured.files], hensured.nextSession, by rw [hensured.handed], ?_⟩
  intro other
  dsimp only
  rw [Function.update_apply, Function.update_apply]
  split
  · exact .inl rfl
  · next hne =>
    rcases hensured.live other with heq | ⟨hnone, found, hlive, hrestored⟩
    · exact .inl heq
    · refine .inr ⟨hnone, found, hlive, ?_⟩
      -- the turn writes to the session of its own operator
      have hother : found.session ≠ conversation.session := by
        intro heq
        have hfound := (hsound.live hlive).1
        rw [heq] at hfound
        exact hne (hsound.own hfound hindex)
      split
      · rw [Function.update_of_ne hother]
        exact hrestored
      · exact hrestored

theorem Resembles.message (h : Resembles restarted steady) (hsteady : steady.Sound)
    (operator text : String) (answer : Option String) :
    Resembles (restarted.step (.message operator text answer))
      (steady.step (.message operator text answer)) := by
  simp only [Daemon.step]
  split
  · exact h
  · split
    · exact h.rotate operator
    · exact h.rotate operator
    · exact h
    · exact h.turn hsteady operator _ answer

theorem Resembles.restart (h : Resembles restarted steady) (hsound : restarted.Sound)
    (hclean : restarted.Clean) : Resembles (restarted.step .restart) steady where
  index := h.index
  files := h.files
  nextSession := h.nextSession
  handed := h.handed
  live operator := by
    rcases h.live operator with hsame | ⟨-, hgone⟩
    · cases hlive : steady.live operator with
      | none => exact .inl rfl
      | some conversation =>
        rw [hlive] at hsame
        refine .inr ⟨rfl, conversation, rfl, ?_⟩
        rw [← h.files]
        exact (hsound.live hsame).2.restore_eq (hclean operator conversation hsame)
    · exact .inr ⟨rfl, hgone⟩

def isMessage : DaemonEvent → Bool
  | .message _ _ _ => true
  | .restart => false

theorem resembles_run {events : List DaemonEvent} (h : Resembles restarted steady)
    (hrestarted : restarted.Sound) (hsteady : steady.Sound)
    (hclean : ∀ t ∈ daemonMachine.trace restarted events, t.event = .restart → t.before.Clean) :
    Resembles (daemonMachine.run restarted events)
      (daemonMachine.run steady (events.filter isMessage)) := by
  induction events generalizing restarted steady with
  | nil => exact h
  | cons event events ih =>
    rw [Machine.trace, List.forall_mem_cons, daemonMachine_step] at hclean
    cases event with
    | message operator text answer =>
      rw [List.filter_cons_of_pos rfl, Machine.run_cons, Machine.run_cons, daemonMachine_step,
        daemonMachine_step]
      exact ih (h.message hsteady operator text answer)
        (hrestarted.step (.message operator text answer))
        (hsteady.step (.message operator text answer)) hclean.2
    | restart =>
      rw [List.filter_cons_of_neg Bool.false_ne_true, Machine.run_cons, daemonMachine_step]
      exact ih (h.restart hrestarted (hclean.1 rfl)) (hrestarted.step .restart) hsteady hclean.2

/-- The histories handed to the agent are the operator's own, and they are those of the run without
restarts if no restart finds a question without a reply in a live backend. -/
theorem restart_invisible (events : List DaemonEvent) :
    (∀ entry ∈ (daemonMachine.run start events).handed,
      ∀ message ∈ entry.2, message.operator = entry.1) ∧
    ((∀ t ∈ daemonMachine.trace start events, t.event = .restart → t.before.Clean) →
      (daemonMachine.run start events).handed =
        (daemonMachine.run start (events.filter isMessage)).handed) := by
  have hsound : (daemonMachine.run start events).Sound :=
    daemonMachine.invariant_run (fun _ event h => h.step event) sound_start events
  refine ⟨hsound.handed, fun hclean => ?_⟩
  exact (resembles_run (resembles_self start) sound_start sound_start hclean).handed

def lostQuestion : List DaemonEvent :=
  [.message "+1" "hello" none, .restart, .message "+1" "again" (some "yes")]

/-- The agent is not handed the first question with the second, as it is without the restart. -/
theorem lostQuestion_visible :
    (daemonMachine.run start lostQuestion).handed.map Prod.snd =
      [[⟨.user, "again", "+1", false⟩], [⟨.user, "hello", "+1", true⟩]] ∧
    (daemonMachine.run start (lostQuestion.filter isMessage)).handed.map Prod.snd =
      [[⟨.user, "hello", "+1", true⟩, ⟨.user, "again", "+1", false⟩],
        [⟨.user, "hello", "+1", true⟩]] ∧
    (daemonMachine.run start lostQuestion).handed ≠
      (daemonMachine.run start (lostQuestion.filter isMessage)).handed := by
  decide +kernel

def keptQuestion : List DaemonEvent :=
  [.message "+1" "hello" (some "hi"), .restart, .message "+1" "again" (some "yes")]

theorem clean_answered : (start.step (.message "+1" "hello" (some "hi"))).Clean := by
  have htext : String.ofList (trim "hello".toList) = "hello" := by decide
  have hturn : lifecycleCommand "hello" = none := by decide
  have hsent : sendMessage "+1" (restore []) "hello" (some "hi") =
      ([⟨.user, "hello", "+1", false⟩],
        [⟨.user, "hello", "+1", false⟩, ⟨.assistant, "hi", "+1", false⟩], some "hi") := by
    decide +kernel
  intro operator conversation hlive
  simp only [Daemon.step, htext, hturn, Daemon.turn, Daemon.ensure, start, hsent,
    String.reduceEq, if_false, Function.update_apply] at hlive
  split at hlive
  · cases hlive
    decide
  · cases hlive

theorem keptQuestion_invisible :
    (∀ t ∈ daemonMachine.trace start keptQuestion, t.event = .restart → t.before.Clean) ∧
      (daemonMachine.run start keptQuestion).handed =
        (daemonMachine.run start (keptQuestion.filter isMessage)).handed := by
  have hclean : ∀ t ∈ daemonMachine.trace start keptQuestion,
      t.event = .restart → t.before.Clean := by
    simp only [keptQuestion, Machine.trace, daemonMachine_step, List.forall_mem_cons]
    refine ⟨fun h => ?_, fun _ => clean_answered, fun h => ?_, fun _ h => ?_⟩ <;> cases h
  exact ⟨hclean, (restart_invisible keptQuestion).2 hclean⟩

end Daemon

end Simard.Signal
