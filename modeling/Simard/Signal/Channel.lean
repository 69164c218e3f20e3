import Simard.Library.Machine
import Simard.Library.Serde
import Simard.Library.Text

/-! The Signal channel. Lines of the daemon are read one after the other; a message of an operator
on the allowlist is a turn of the conversation or a command. What changes something is not done
from a text: it waits in one slot for the `approve` of an operator. -/
namespace Simard.Signal
open Simard.Library

def primaryDeviceId : Nat := 1

def recentOutboundTtl : Nat := 300 * 10 ^ 9

def recentOutboundCap : Nat := 64

structure ParsedInbound where
  sender : String
  body : String
  sourceDevice : Option Nat
  isSyncSent : Bool
  syncDestination : Option String
  deriving DecidableEq

def asStr : Json → Option String
  | .str text => some text
  | _ => none

def asU64 : Json → Option Nat
  | .num (.ofNat n) => if n < 2 ^ 64 then some n else none
  | _ => none

def textOf (first second : String) (document : Json) : Option String :=
  ((document.field first).bind asStr).or ((document.field second).bind asStr)

/-- A message to the account, or one the account itself sent, seen by a linked device. -/
def parseIncoming (fromStr : List Char → Option Json) (line : String) : Option ParsedInbound := do
  let value ← fromStr (trim line.toList)
  let method ← (value.field "method").bind asStr
  if method ≠ "receive" then none
  else
    let envelope ← (value.field "params").bind (Json.field "envelope")
    let sender ← textOf "sourceNumber" "source" envelope
    -- a wider number is cut to 32 bits
    let sourceDevice := ((envelope.field "sourceDevice").bind asU64).map (· % 2 ^ 32)
    match (envelope.field "dataMessage").bind fun message =>
      (message.field "message").bind asStr with
    | some text => if text = "" then none else some ⟨sender, text, sourceDevice, false, none⟩
    | none =>
        let sent ← (envelope.field "syncMessage").bind (Json.field "sentMessage")
        let body := ((sent.field "message").bind asStr).getD ""
        if body = "" then none
        else some ⟨sender, body, sourceDevice, true, textOf "destinationNumber" "destination" sent⟩

def shouldAcceptSyncSent (sourceDevice ownDeviceId : Option Nat) (destination : Option String)
    (account : String) (primary : Nat) : Bool :=
  sourceDevice = some primary && sourceDevice ≠ ownDeviceId && destination = some account

def matchesRecentOutbound (body : String) (recent : List (String × Nat)) (now : Nat) : Bool :=
  recent.any fun entry => entry.1 = body && now - entry.2 ≤ recentOutboundTtl

structure SignalConfig where
  account : String
  allowlist : List String
  readOnlyUnknown : Bool
  ownDeviceId : Option Nat

inductive AuthDecision where
  | authorized
  | readOnly
  | ignored
  deriving DecidableEq

def SignalConfig.authorize (config : SignalConfig) (sender : String) : AuthDecision :=
  if sender ∈ config.allowlist then .authorized
  else if config.readOnlyUnknown then .readOnly
  else .ignored

inductive InboundCommand where
  | status
  | pause
  | approve
  | deploy
  | merge (number : Nat)
  | conversation (text : String)
  deriving DecidableEq

inductive RiskClass where
  | lowRisk
  | highRisk
  deriving DecidableEq

inductive GateDecision where
  | autoExecute
  | pendingSignOff
  deriving DecidableEq

def eqIgnoreAsciiCase (text : List Char) (word : String) : Bool :=
  text.map Char.toLower = word.toList

def parseMerge (trimmed : List Char) : Option Nat :=
  if eqIgnoreAsciiCase (trimmed.take 5) "merge" then
    let rest := trim (trimmed.drop 5)
    let digits := trim (if rest.head? = some '#' then rest.tail else rest)
    parseUnsigned 64 digits
  else none

def parseInbound (text : String) : InboundCommand :=
  let trimmed := trim text.toList
  if eqIgnoreAsciiCase trimmed "status" then .status
  else if eqIgnoreAsciiCase trimmed "pause" then .pause
  else if eqIgnoreAsciiCase trimmed "approve" then .approve
  else if eqIgnoreAsciiCase trimmed "deploy" then .deploy
  else
    match parseMerge trimmed with
    | some number => .merge number
    | none => .conversation (String.ofList trimmed)

def classify : InboundCommand → RiskClass
  | .status | .pause | .approve | .conversation _ => .lowRisk
  | .deploy | .merge _ => .highRisk

def gate (command : InboundCommand) : GateDecision :=
  match classify command with
  | .lowRisk => .autoExecute
  | .highRisk => .pendingSignOff

def operatorNotifyMarker : String := "🔔 SIMARD▶OPERATOR:"

def isOperatorNotification (text : String) : Bool :=
  containsText operatorNotifyMarker.toList text.toList

def decimalText (n : Nat) : String := String.ofList (Nat.toDigits 10 n)

def InboundCommand.action : InboundCommand → String
  | .merge number => "Merging PR #" ++ decimalText number
  | .deploy => "Deploying"
  | .status => "Status"
  | .pause => "Pause"
  | .approve => "Approve"
  | .conversation text => "Conversation(" ++ quoted text ++ ")"

def highRiskPrompt (command : InboundCommand) : String :=
  command.action ++ " is a HIGH-RISK action and will NOT run from a text message. " ++
    "Reply `approve` to sign off; it will then proceed through the existing gated authority."

/-- A command that waits for its sign-off, with the number of the request. -/
structure PendingCommand where
  number : Nat
  sender : String
  command : InboundCommand
  deriving DecidableEq

inductive Happening where
  | turn (sender text : String)
  | request (number : Nat) (sender : String) (command : InboundCommand)
  | prompt (operator : String) (command : InboundCommand)
  | approve (sender : String)
  | execute (number : Nat) (approver : String) (command : InboundCommand)
  | sent (recipient text : String)
  deriving DecidableEq

/-- The channel with what happened on it so far, newest first, and the number of requests. When a
line could not be sent it has ended. -/
structure SignalConversation where
  currentOperator : Option String
  pending : Option PendingCommand
  recentOutbound : List (String × Nat)
  ended : Bool
  requests : Nat
  log : List Happening

/-- What the command handler would answer now. -/
structure HandlerAnswers where
  status : String
  pause : String
  executeApproved : InboundCommand → Except String String

/-- A line of the daemon, read at a time; a reply to it is sent later, or cannot be. -/
structure Delivery where
  line : String
  now : Nat
  answers : HandlerAnswers
  sentAt : Nat
  sends : Bool

inductive SignalEvent where
  | recv (delivery : Delivery)
  | send (isError : Bool) (text : String) (sentAt : Nat) (sends : Bool)
  | restart

namespace SignalConversation

variable (config : SignalConfig) (fromStr : List Char → Option Json) (channel : SignalConversation)

def new : SignalConversation := ⟨none, none, [], false, 0, []⟩

def recordOutbound (text : String) (now : Nat) : SignalConversation :=
  let pushed := channel.recentOutbound ++ [(text, now)]
  let fresh := pushed.dropWhile fun entry => recentOutboundTtl < now - entry.2
  { channel with recentOutbound := fresh.drop (fresh.length - recentOutboundCap) }

def note (happening : Happening) : SignalConversation :=
  { channel with log := happening :: channel.log }

def reply (happening : Happening) (text : String) (sentAt : Nat) (sends : Bool) :
    SignalConversation :=
  if sends then (channel.recordOutbound text sentAt).note happening
  else { channel with ended := true }

/-- What a line asks for, and how far its sender may: nothing, unless it is a message that is
neither a notification of the channel's own nor a copy of what it sent. -/
def accepted (delivery : Delivery) : Option (String × AuthDecision × InboundCommand) :=
  match parseIncoming fromStr delivery.line with
  | none => none
  | some parsed =>
      if isOperatorNotification parsed.body then none
      else if parsed.isSyncSent && !shouldAcceptSyncSent parsed.sourceDevice config.ownDeviceId
          parsed.syncDestination config.account primaryDeviceId then none
      else if parsed.isSyncSent &&
          matchesRecentOutbound parsed.body channel.recentOutbound delivery.now then none
      else some (parsed.sender, config.authorize parsed.sender, parseInbound parsed.body)

def approveBy (sender : String) (delivery : Delivery) : SignalConversation :=
  let asked := channel.note (.approve sender)
  match channel.pending with
  | some pending =>
      let done := { asked with pending := none }.note
        (.execute pending.number sender pending.command)
      let text :=
        match delivery.answers.executeApproved pending.command with
        | .ok message => message
        | .error message => "Approved, but the action failed: " ++ message
      done.reply (.sent sender text) text delivery.sentAt delivery.sends
  | none =>
      let text := "Nothing is awaiting sign-off."
      asked.reply (.sent sender text) text delivery.sentAt delivery.sends

def handleLowRisk (sender : String) (command : InboundCommand) (delivery : Delivery) :
    SignalConversation :=
  match command with
  | .status =>
      channel.reply (.sent sender delivery.answers.status) delivery.answers.status delivery.sentAt
        delivery.sends
  | .pause =>
      channel.reply (.sent sender delivery.answers.pause) delivery.answers.pause delivery.sentAt
        delivery.sends
  | .approve => channel.approveBy sender delivery
  | .conversation _ | .deploy | .merge _ => channel

def askSignOff (sender : String) (command : InboundCommand) (delivery : Delivery) :
    SignalConversation :=
  let number := channel.requests + 1
  let held := { channel with pending := some ⟨number, sender, command⟩, requests := number }
  (held.note (.request number sender command)).reply (.prompt sender command)
    (highRiskPrompt command) delivery.sentAt delivery.sends

def recv (delivery : Delivery) : SignalConversation :=
  match channel.accepted config fromStr delivery with
  | none | some (_, .ignored, _) => channel
  | some (sender, .readOnly, command) =>
      if command = .status then channel.handleLowRisk sender .status delivery else channel
  | some (sender, .authorized, .conversation text) =>
      { channel with currentOperator := some sender }.note (.turn sender text)
  | some (sender, .authorized, command) =>
      match gate command with
      | .autoExecute => channel.handleLowRisk sender command delivery
      | .pendingSignOff => channel.askSignOff sender command delivery

def send (isError : Bool) (text : String) (sentAt : Nat) (sends : Bool) : SignalConversation :=
  match channel.currentOperator.or config.allowlist.head? with
  | none => channel
  | some recipient =>
      let text := if isError then "⚠ " ++ text else text
      channel.reply (.sent recipient text) text sentAt sends

def step : SignalEvent → SignalConversation
  | .recv delivery => if channel.ended then channel else channel.recv config fromStr delivery
  | .send isError text sentAt sends =>
      if channel.ended then channel else channel.send config isError text sentAt sends
  | .restart => { new with requests := channel.requests, log := channel.log }

end SignalConversation

def signalMachine (config : SignalConfig) (fromStr : List Char → Option Json) :
    Machine SignalConversation SignalEvent := ⟨SignalConversation.step config fromStr⟩

def lastPrompt : List Happening → Option (String × InboundCommand)
  | [] => none
  | .prompt operator command :: _ => some (operator, command)
  | _ :: earlier => lastPrompt earlier

/-- The last prompt sent to the operator, unless an `approve` of theirs came after it. -/
def outstanding (operator : String) : List Happening → Option InboundCommand
  | [] => none
  | .prompt other command :: earlier =>
      if other = operator then some command else outstanding operator earlier
  | .approve sender :: earlier => if sender = operator then none else outstanding operator earlier
  | _ :: earlier => outstanding operator earlier

/-- A command is executed while the `approve` of an authorized operator is handled, for a request
of an authorized sender that was not executed before; it is the one of the last prompt. -/
def Signed (config : SignalConfig) (number : Nat) (approver : String) (command : InboundCommand)
    (earlier : List Happening) : Prop :=
  config.authorize approver = .authorized ∧
    (∃ before, earlier = .approve approver :: before) ∧
    (∃ sender, config.authorize sender = .authorized ∧
      .request number sender command ∈ earlier) ∧
    (∀ other found, .execute number other found ∉ earlier) ∧
    ∃ operator, lastPrompt earlier = some (operator, command)

def SignedOff (config : SignalConfig) : List Happening → Prop
  | [] => True
  | .execute number approver command :: earlier =>
      Signed config number approver command earlier ∧ SignedOff config earlier
  | _ :: earlier => SignedOff config earlier

theorem SignedOff.split {config : SignalConfig} {later earlier : List Happening} {number : Nat}
    {approver : String} {command : InboundCommand}
    (h : SignedOff config (later ++ .execute number approver command :: earlier)) :
    Signed config number approver command earlier := by
  induction later with
  | nil => exact h.1
  | cons happening later ih =>
    cases happening with
    | execute => exact ih h.2
    | _ => exact ih h

namespace SignalConversation

/-- The slot holds the last request, which its sender was asked to sign off. -/
structure Asked (config : SignalConfig) (channel : SignalConversation) : Prop where
  signed : SignedOff config channel.log
  numbered {number : Nat} {approver : String} {command : InboundCommand} :
    .execute number approver command ∈ channel.log → number ≤ channel.requests
  pending {pending : PendingCommand} : channel.pending = some pending →
    pending.number ≤ channel.requests ∧ config.authorize pending.sender = .authorized ∧
      .request pending.number pending.sender pending.command ∈ channel.log ∧
      (∀ approver command, .execute pending.number approver command ∉ channel.log) ∧
      (channel.ended = false → lastPrompt channel.log = some (pending.sender, pending.command))

variable {config : SignalConfig} {fromStr : List Char → Option Json} {channel : SignalConversation}

theorem Asked.note (h : channel.Asked config) {happening : Happening}
    (hexecute : ∀ number approver command, happening ≠ .execute number approver command)
    (hprompt : ∀ operator command, happening ≠ .prompt operator command) :
    (channel.note happening).Asked config where
  signed := by
    cases happening with
    | execute => exact absurd rfl (hexecute _ _ _)
    | _ => exact h.signed
  numbered hmem := by
    rcases List.mem_cons.mp hmem with heq | hmem
    · exact absurd heq.symm (hexecute _ _ _)
    · exact h.numbered hmem
  pending hpending := by
    obtain ⟨hnumber, hsender, hrequest, hnone, hlast⟩ := h.pending hpending
    refine ⟨hnumber, hsender, List.mem_cons_of_mem _ hrequest, ?_, ?_⟩
    · intro approver command hmem
      rcases List.mem_cons.mp hmem with heq | hmem
      · exact hexecute _ _ _ heq.symm
      · exact hnone approver command hmem
    · intro hended
      cases happening with
      | prompt => exact absurd rfl (hprompt _ _)
      | _ => exact hlast hended

theorem Asked.reply_sent (h : channel.Asked config) (recipient text : String) (sentAt : Nat)
    (sends : Bool) : (channel.reply (.sent recipient text) text sentAt sends).Asked config := by
  cases sends with
  | true =>
    have hrecorded : (channel.recordOutbound text sentAt).Asked config :=
      ⟨h.signed, h.numbered, h.pending⟩
    exact hrecorded.note nofun nofun
  | false =>
    refine ⟨h.signed, h.numbered, fun hpending => ?_⟩
    obtain ⟨hnumber, hsender, hrequest, hnone, -⟩ := h.pending hpending
    exact ⟨hnumber, hsender, hrequest, hnone, nofun⟩

theorem Asked.approveBy (h : channel.Asked config) (hrunning : channel.ended = false)
    {sender : String} (hsender : config.authorize sender = .authorized) (delivery : Delivery) :
    (channel.approveBy sender delivery).Asked config := by
  have hasked : (channel.note (.approve sender)).Asked config := h.note nofun nofun
  unfold SignalConversation.approveBy
  dsimp only
  cases hpending : channel.pending with
  | none => exact hasked.reply_sent _ _ _ _
  | some pending =>
    obtain ⟨hnumber, hrequester, hrequest, hnone, hlast⟩ := hasked.pending hpending
    refine Asked.reply_sent ?_ _ _ _ _
    refine ⟨⟨⟨hsender, ⟨channel.log, rfl⟩, ⟨pending.sender, hrequester, hrequest⟩, hnone,
      pending.sender, hlast hrunning⟩, hasked.signed⟩, ?_, nofun⟩
    intro number approver command hmem
    rcases List.mem_cons.mp hmem with heq | hmem
    · cases heq
      exact hnumber
    · exact hasked.numbered hmem

theorem Asked.askSignOff (h : channel.Asked config) {sender : String}
    (hsender : config.authorize sender = .authorized) (command : InboundCommand)
    (delivery : Delivery) : (channel.askSignOff sender command delivery).Asked config := by
  -- the number of the new request is above all that were executed
  have hfresh (approver : String) (found : InboundCommand) :
      .execute (channel.requests + 1) approver found ∉ channel.log := by
    intro hmem
    have hle := h.numbered hmem
    omega
  unfold SignalConversation.askSignOff SignalConversation.reply
  cases delivery.sends with
  | true =>
    refine ⟨h.signed, ?_, ?_⟩
    · intro number approver found hmem
      rcases List.mem_cons.mp hmem with heq | hmem
      · cases heq
      · rcases List.mem_cons.mp hmem with heq | hmem
        · cases heq
        · exact (h.numbered hmem).trans (Nat.le_succ _)
    · rintro _ ⟨⟩
      refine ⟨Nat.le_refl _, hsender, List.mem_cons_of_mem _ List.mem_cons_self, ?_, fun _ => rfl⟩
      intro approver found hmem
      rcases List.mem_cons.mp hmem with heq | hmem
      · cases heq
      · rcases List.mem_cons.mp hmem with heq | hmem
        · cases heq
        · exact hfresh approver found hmem
  | false =>
    refine ⟨h.signed, ?_, ?_⟩
    · intro number approver found hmem
      rcases List.mem_cons.mp hmem with heq | hmem
      · cases heq
      · exact (h.numbered hmem).trans (Nat.le_succ _)
    · rintro _ ⟨⟩
      refine ⟨Nat.le_refl _, hsender, List.mem_cons_self, ?_, nofun⟩
      intro approver found hmem
      rcases List.mem_cons.mp hmem with heq | hmem
      · cases heq
      · exact hfresh approver found hmem

theorem Asked.handleLowRisk (h : channel.Asked config) (hrunning : channel.ended = false)
    {sender : String} (command : InboundCommand)
    (hsender : command = .approve → config.authorize sender = .authorized) (delivery : Delivery) :
    (channel.handleLowRisk sender command delivery).Asked config := by
  cases command with
  | status => exact h.reply_sent _ _ _ _
  | pause => exact h.reply_sent _ _ _ _
  | approve => exact h.approveBy hrunning (hsender rfl) delivery
  | conversation text => exact h
  | deploy => exact h
  | merge number => exact h

theorem accepted_authorize {delivery : Delivery} {sender : String} {decision : AuthDecision}
    {command : InboundCommand}
    (h : channel.accepted config fromStr delivery = some (sender, decision, command)) :
    decision = config.authorize sender := by
  unfold accepted at h
  split at h
  · cases h
  · split at h
    · cases h
    · split at h
      · cases h
      · split at h
        · cases h
        · cases h
          rfl

theorem Asked.recv (h : channel.Asked config) (hrunning : channel.ended = false)
    (delivery : Delivery) : (channel.recv config fromStr delivery).Asked config := by
  unfold SignalConversation.recv
  split
  · exact h
  · exact h
  · split
    · exact h.handleLowRisk hrunning .status nofun delivery
    · exact h
  · next sender text _ =>
    have hturn :
        ({ channel with currentOperator := some sender } : SignalConversation).Asked config :=
      ⟨h.signed, h.numbered, h.pending⟩
    exact hturn.note nofun nofun
  · next sender command _ haccepted =>
    have hsender := (accepted_authorize haccepted).symm
    split
    · exact h.handleLowRisk hrunning _ (fun _ => hsender) delivery
    · exact h.askSignOff hsender command delivery

theorem Asked.send (h : channel.Asked config) (isError : Bool) (text : String) (sentAt : Nat)
    (sends : Bool) : (channel.send config isError text sentAt sends).Asked config := by
  unfold SignalConversation.send
  split
  · exact h
  · exact h.reply_sent _ _ _ _

theorem Asked.step (h : channel.Asked config) (event : SignalEvent) :
    (channel.step config fromStr event).Asked config := by
  cases event with
  | recv delivery =>
    simp only [SignalConversation.step]
    split
    · exact h
    · next hrunning => exact h.recv (Bool.not_eq_true _ ▸ hrunning) delivery
  | send isError text sentAt sends =>
    simp only [SignalConversation.step]
    split
    · exact h
    · exact h.send isError text sentAt sends
  | restart => exact ⟨h.signed, h.numbered, nofun⟩

theorem asked_new (config : SignalConfig) : new.Asked config where
  signed := trivial
  numbered := nofun
  pending := nofun

theorem mem_log_reply {happening other : Happening} {text : String} {sentAt : Nat} {sends : Bool}
    (h : other ∈ (channel.reply happening text sentAt sends).log) :
    other = happening ∨ other ∈ channel.log := by
  cases sends with
  | true => exact List.mem_cons.mp h
  | false => exact .inr h

theorem mem_log_handleLowRisk {sender : String} {command : InboundCommand} {delivery : Delivery}
    {number : Nat} {approver : String} {executed : InboundCommand}
    (h : .execute number approver executed ∈ (channel.handleLowRisk sender command delivery).log) :
    .execute number approver executed ∈ channel.log ∨ command = .approve ∧ approver = sender := by
  cases command with
  | status => exact .inl ((mem_log_reply h).resolve_left nofun)
  | pause => exact .inl ((mem_log_reply h).resolve_left nofun)
  | conversation text => exact .inl h
  | deploy => exact .inl h
  | merge n => exact .inl h
  | approve =>
    simp only [SignalConversation.handleLowRisk, SignalConversation.approveBy] at h
    split at h
    · rcases List.mem_cons.mp ((mem_log_reply h).resolve_left nofun) with heq | hmem
      · cases heq
        exact .inr ⟨rfl, rfl⟩
      · exact .inl ((List.mem_cons.mp hmem).resolve_left nofun)
    · exact .inl ((List.mem_cons.mp ((mem_log_reply h).resolve_left nofun)).resolve_left nofun)

theorem execute_recv {delivery : Delivery} {number : Nat} {approver : String}
    {executed : InboundCommand}
    (h : .execute number approver executed ∈ (channel.recv config fromStr delivery).log) :
    .execute number approver executed ∈ channel.log ∨
      channel.accepted config fromStr delivery = some (approver, .authorized, .approve) := by
  unfold SignalConversation.recv at h
  split at h
  · exact .inl h
  · exact .inl h
  · split at h
    · exact .inl ((mem_log_handleLowRisk h).resolve_right nofun)
    · exact .inl h
  · exact .inl ((List.mem_cons.mp h).resolve_left nofun)
  · next sender command _ haccepted =>
    split at h
    · rcases mem_log_handleLowRisk h with hmem | ⟨rfl, rfl⟩
      · exact .inl hmem
      · exact .inr haccepted
    · have hmem := (mem_log_reply h).resolve_left nofun
      exact .inl ((List.mem_cons.mp hmem).resolve_left nofun)

theorem execute_step {event : SignalEvent} {number : Nat} {approver : String}
    {executed : InboundCommand}
    (h : .execute number approver executed ∈ (channel.step config fromStr event).log) :
    .execute number approver executed ∈ channel.log ∨
      ∃ delivery, event = .recv delivery ∧
        channel.accepted config fromStr delivery = some (approver, .authorized, .approve) := by
  cases event with
  | recv delivery =>
    simp only [SignalConversation.step] at h
    split at h
    · exact .inl h
    · exact (execute_recv h).imp_right fun haccepted => ⟨delivery, rfl, haccepted⟩
  | send isError text sentAt sends =>
    simp only [SignalConversation.step, SignalConversation.send] at h
    split at h
    · exact .inl h
    · split at h
      · exact .inl h
      · exact .inl ((mem_log_reply h).resolve_left nofun)
  | restart => exact .inl h

/-- Whatever lines arrive, from any senders and devices, and however the channel is restarted: a
command is executed only while the `approve` of an authorized operator is handled, and every
execution is of a request of its own, the one the last prompt named. -/
theorem sign_off_executes_last_prompt (config : SignalConfig) (fromStr : List Char → Option Json)
    (events : List SignalEvent) :
    (∀ t ∈ (signalMachine config fromStr).trace new events, ∀ number approver command,
      .execute number approver command ∈ t.after.log →
        .execute number approver command ∈ t.before.log ∨
          ∃ delivery, t.event = .recv delivery ∧
            t.before.accepted config fromStr delivery = some (approver, .authorized, .approve)) ∧
    ∀ later earlier number approver command,
      ((signalMachine config fromStr).run new events).log =
        later ++ .execute number approver command :: earlier →
          Signed config number approver command earlier := by
  constructor
  · intro t ht number approver command hmem
    obtain ⟨-, -, -, -, hafter⟩ := (signalMachine config fromStr).mem_trace ht
    rw [hafter] at hmem
    exact execute_step hmem
  · intro later earlier number approver command hlog
    have hasked : ((signalMachine config fromStr).run new events).Asked config :=
      (signalMachine config fromStr).invariant_run (fun _ event h => h.step event)
        (asked_new config) events
    have hsigned := hasked.signed
    rw [hlog] at hsigned
    exact hsigned.split

def ExecutesWhatWasAsked (log : List Happening) : Prop :=
  ∀ later earlier number approver command asked,
    log = later ++ .execute number approver command :: .approve approver :: earlier →
      outstanding approver earlier = some asked → command = asked

def messageDocument (sender text : String) : Json :=
  .obj [("method", .str "receive"), ("params", .obj [("envelope",
    .obj [("source", .str sender), ("dataMessage", .obj [("message", .str text)])])])]

/-- Two operators ask for something; the first one approves. -/
def crossedDocuments : List Json :=
  [messageDocument "+1" "merge #1", messageDocument "+2" "deploy",
    messageDocument "+1" "approve"]

def crossedEvents : List SignalEvent :=
  crossedDocuments.map fun document =>
    .recv ⟨String.ofList document.text, 0, ⟨"online", "paused", fun _ => .ok "done"⟩, 0, true⟩

def crossedChannel : SignalConversation :=
  (signalMachine ⟨"+0", ["+1", "+2"], false, none⟩
    fun text => crossedDocuments.find? (·.text = text)).run new crossedEvents

/-- The first operator was asked to sign off a merge, and a deploy is executed. -/
theorem crossed_deploy_executed :
    crossedChannel.log = [.sent "+1" "done", .execute 2 "+1" .deploy, .approve "+1",
      .prompt "+2" .deploy, .request 2 "+2" .deploy,
      .prompt "+1" (.merge 1), .request 1 "+1" (.merge 1)] ∧
    ¬ ExecutesWhatWasAsked crossedChannel.log := by
  have hlog : crossedChannel.log = [.sent "+1" "done", .execute 2 "+1" .deploy, .approve "+1",
      .prompt "+2" .deploy, .request 2 "+2" .deploy,
      .prompt "+1" (.merge 1), .request 1 "+1" (.merge 1)] := by
    decide
  refine ⟨hlog, fun h => ?_⟩
  have hasked := h [.sent "+1" "done"] _ 2 "+1" .deploy (.merge 1) hlog (by decide)
  cases hasked

end SignalConversation

end Simard.Signal
