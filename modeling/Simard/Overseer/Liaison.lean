import Simard.Library.History
import Simard.Library.Machine

/-! The operator's messages. A message that is accepted is handed to a recipe, and once the
recipe has run, a mark is raised to the number of the message; what is not above the mark is not
accepted. One mark stands for all that was handled, also for what was not. -/
namespace Simard.Overseer
open Simard.Library

structure OperatorMessage where
  authorized : Bool
  groupId : Option String
  messageId : Nat
  text : String
  isEcho : Bool

def liaisonShouldAccept (authorized : Bool) (msgGroupId : Option String)
    (configuredGroupId : String) (isEcho aboveHighWaterMark : Bool) : Bool :=
  authorized && msgGroupId = some configuredGroupId && !isEcho && aboveHighWaterMark

abbrev MarkRecord := Option Nat

def readMark (record : MarkRecord) : Nat := record.getD 0

def recordHighWaterMark (record : MarkRecord) (marker : Nat) : MarkRecord :=
  some (max (readMark record) marker)

def isAboveHighWaterMark (record : MarkRecord) (marker : Nat) : Bool := readMark record < marker

structure LiaisonDirective where
  taskDescription : String
  targetRepo : String

/-- What the recipe decided, as it is read back. -/
structure LiaisonDecisionRecord where
  reply : Option String
  directive : Option LiaisonDirective

/-- A message that is received, and how its handling goes: whether its text is staged, whether
the recipe run succeeds and what it decided, and whether the mark can be written. -/
structure Offer where
  message : OperatorMessage
  staged : Bool
  recipe : Bool
  decision : Option LiaisonDecisionRecord
  records : Bool

structure Received where
  offer : Offer
  accepted : Bool

structure LiaisonConfig where
  enabled : Bool
  groupId : Option String
  operatorNumber : Option String
  stateRoot : Option String

/-- The mark, what was received so far, and what was replied and directed. -/
structure Liaison where
  record : MarkRecord
  received : List Received
  replies : List String
  directives : List LiaisonDirective

def Liaison.init : Liaison := ⟨none, [], [], []⟩

def Offer.runs (offer : Offer) : Bool := offer.staged && offer.recipe

def Liaison.receive (groupId : String) (s : Liaison) (offer : Offer) : Liaison :=
  let above := isAboveHighWaterMark s.record offer.message.messageId
  let accepted := liaisonShouldAccept offer.message.authorized offer.message.groupId groupId
    offer.message.isEcho above
  let logged := { s with received := s.received ++ [⟨offer, accepted⟩] }
  if !accepted || !offer.runs then logged
  else
    let acted := { logged with
      replies := logged.replies ++ (offer.decision.bind LiaisonDecisionRecord.reply).toList
      directives := logged.directives ++
        (offer.decision.bind LiaisonDecisionRecord.directive).toList }
    if offer.records then
      { acted with record := recordHighWaterMark acted.record offer.message.messageId }
    else acted

def LiaisonConfig.group? (config : LiaisonConfig) : Option String :=
  if config.enabled && config.operatorNumber.isSome && config.stateRoot.isSome then config.groupId
  else none

def LiaisonConfig.observeOperatorLiaison (config : LiaisonConfig) (s : Liaison)
    (batch : List Offer) : Liaison :=
  match config.group? with
  | none => s
  | some groupId => batch.foldl (Liaison.receive groupId) s

def liaisonMachine (config : LiaisonConfig) : Machine Liaison (List Offer) :=
  ⟨config.observeOperatorLiaison⟩

section Laws

variable (groupId : String)

def Offer.Eligible (offer : Offer) : Prop :=
  offer.message.authorized = true ∧ offer.message.groupId = some groupId ∧
    offer.message.isEcho = false

/-- A recipe run for the message was made and returned success. -/
def Received.Succeeded (entry : Received) : Prop :=
  entry.accepted = true ∧ entry.offer.runs = true

def NotLost (before : List Received) (entry : Received) : Prop :=
  entry.offer.Eligible groupId →
    (∀ earlier ∈ before, earlier.offer.message.messageId = entry.offer.message.messageId →
      ¬earlier.Succeeded) → entry.accepted = true

def NotRepeated (before : List Received) (entry : Received) : Prop :=
  (∃ earlier ∈ before, earlier.offer.message.messageId = entry.offer.message.messageId ∧
    earlier.Succeeded ∧ earlier.offer.records = true) → entry.accepted = false

/-- A message whose recipe has not worked yet has a positive number, and one larger than those
of all messages before it whose recipe worked and whose mark could be written. -/
def InOrder (before : List Offer) (offer : Offer) : Prop :=
  offer.Eligible groupId →
    (∀ earlier ∈ before, earlier.message.messageId = offer.message.messageId →
      earlier.Eligible groupId → earlier.runs = false) →
    0 < offer.message.messageId ∧
      ∀ earlier ∈ before, earlier.Eligible groupId → earlier.runs = true →
        earlier.records = true → earlier.message.messageId < offer.message.messageId

def Accounted (before : List Received) (entry : Received) : Prop :=
  entry.accepted = true ↔ entry.offer.Eligible groupId ∧ 0 < entry.offer.message.messageId ∧
    ∀ earlier ∈ before, earlier.offer.Eligible groupId → earlier.offer.runs = true →
      earlier.offer.records = true →
      earlier.offer.message.messageId < entry.offer.message.messageId

end Laws

variable {groupId : String} {s : Liaison} {offer : Offer}

theorem accept_iff (groupId : String) (offer : Offer) (record : MarkRecord) :
    liaisonShouldAccept offer.message.authorized offer.message.groupId groupId
      offer.message.isEcho (isAboveHighWaterMark record offer.message.messageId) = true ↔
      offer.Eligible groupId ∧ readMark record < offer.message.messageId := by
  simp [liaisonShouldAccept, Offer.Eligible, isAboveHighWaterMark, and_assoc]

theorem received_receive : (s.receive groupId offer).received = s.received ++ [⟨offer,
    liaisonShouldAccept offer.message.authorized offer.message.groupId groupId
      offer.message.isEcho (isAboveHighWaterMark s.record offer.message.messageId)⟩] := by
  unfold Liaison.receive
  dsimp only
  split
  · rfl
  · split <;> rfl

theorem readMark_receive (n : Nat) : readMark (s.receive groupId offer).record < n ↔
    readMark s.record < n ∧ (offer.Eligible groupId → offer.runs = true → offer.records = true →
      offer.message.messageId < n) := by
  have haccept := accept_iff groupId offer s.record
  unfold Liaison.receive
  dsimp only
  split
  next hskip =>
    rw [Bool.or_eq_true, Bool.not_eq_true', Bool.not_eq_true'] at hskip
    refine ⟨fun hlt => ⟨hlt, fun heligible hruns _ => lt_of_le_of_lt (not_lt.mp ?_) hlt⟩, And.left⟩
    -- an eligible message that ran was turned down for the mark
    intro habove
    rcases hskip with hrejected | hfailed
    · exact Bool.false_ne_true (hrejected.symm.trans (haccept.mpr ⟨heligible, habove⟩))
    · exact Bool.false_ne_true (hfailed.symm.trans hruns)
  next hacts =>
    simp only [Bool.or_eq_true, Bool.not_eq_true', not_or, Bool.not_eq_false] at hacts
    obtain ⟨heligible, -⟩ := haccept.mp hacts.1
    split
    next hrecords => simp [recordHighWaterMark, readMark, heligible, hacts.2, hrecords]
    next hfailed => simp [hfailed]

/-- The mark is the largest number of a message whose recipe worked and whose mark was
written, whether it was accepted or not. -/
structure Marked (groupId : String) (s : Liaison) : Prop where
  mark : ∀ n, readMark s.record < n ↔ 0 < n ∧ ∀ entry ∈ s.received,
    entry.offer.Eligible groupId → entry.offer.runs = true → entry.offer.records = true →
    entry.offer.message.messageId < n
  accounted : Kept (Accounted groupId) s.received

theorem marked_init : Marked groupId Liaison.init :=
  ⟨fun n => by simp [Liaison.init, readMark], Kept.nil⟩

theorem Marked.receive (h : Marked groupId s) (offer : Offer) :
    Marked groupId (s.receive groupId offer) := by
  constructor
  · intro n
    rw [readMark_receive, h.mark, received_receive]
    simp only [List.forall_mem_append, List.forall_mem_singleton]
    rw [and_assoc]
  · rw [received_receive, Kept.concat_iff]
    refine ⟨h.accounted, ?_⟩
    unfold Accounted
    rw [accept_iff, h.mark]

theorem Marked.receiveAll (h : Marked groupId s) (offers : List Offer) :
    Marked groupId (offers.foldl (Liaison.receive groupId) s) := by
  induction offers generalizing s with
  | nil => exact h
  | cons offer offers ih => exact ih (h.receive offer)

theorem offers_receiveAll (offers : List Offer) :
    (offers.foldl (Liaison.receive groupId) s).received.map Received.offer =
      s.received.map Received.offer ++ offers := by
  induction offers generalizing s with
  | nil => simp
  | cons offer offers ih =>
    rw [List.foldl_cons, ih, received_receive]
    simp

theorem run_liaisonMachine {config : LiaisonConfig} (hgroup : config.group? = some groupId)
    (passes : List (List Offer)) :
    (liaisonMachine config).run s passes = passes.flatten.foldl (Liaison.receive groupId) s := by
  rw [List.foldl_flatten]
  induction passes generalizing s with
  | nil => rfl
  | cons batch passes ih =>
    have hbatch :
        (liaisonMachine config).step s batch = batch.foldl (Liaison.receive groupId) s := by
      simp only [liaisonMachine, LiaisonConfig.observeOperatorLiaison, hgroup]
    rw [Machine.run_cons, hbatch, ih, List.foldl_cons]

theorem Accounted.notRepeated {before : List Received} {entry : Received}
    (hbefore : ∀ earlier ∈ before, earlier.accepted = true → earlier.offer.Eligible groupId)
    (h : Accounted groupId before entry) : NotRepeated before entry := by
  rintro ⟨earlier, hearlier, hid, hsucceeded, hrecords⟩
  rw [← Bool.not_eq_true]
  intro haccepted
  have hlt := (h.mp haccepted).2.2 earlier hearlier (hbefore earlier hearlier hsucceeded.1)
    hsucceeded.2 hrecords
  omega

theorem eligible_of_accepted {history : List Received} (h : Kept (Accounted groupId) history)
    {entry : Received} (hentry : entry ∈ history) (haccepted : entry.accepted = true) :
    entry.offer.Eligible groupId := by
  obtain ⟨before, after, heq⟩ := List.append_of_mem hentry
  exact ((h before entry after heq).mp haccepted).1

theorem succeeded_of_inOrder {history : List Received} (h : Kept (Accounted groupId) history)
    (horder : Kept (InOrder groupId) (history.map Received.offer)) {id : Nat}
    (hworked : ∃ entry ∈ history, entry.offer.message.messageId = id ∧
      entry.offer.Eligible groupId ∧ entry.offer.runs = true) :
    ∃ entry ∈ history, entry.offer.message.messageId = id ∧ entry.Succeeded := by
  classical
  let worked (entry : Received) : Bool := entry.offer.message.messageId = id ∧
    entry.offer.Eligible groupId ∧ entry.offer.runs = true
  -- the first one was accepted
  have hsome : (history.find? worked).isSome :=
    List.find?_isSome.mpr (by simpa [worked] using hworked)
  obtain ⟨entry, hfirst⟩ := Option.isSome_iff_exists.mp hsome
  obtain ⟨hentry, before, after, heq, hbefore⟩ := List.find?_eq_some_iff_append.mp hfirst
  obtain ⟨hid, heligible, hruns⟩ := of_decide_eq_true hentry
  have hlate := Kept.map_iff.mp horder before entry after heq heligible ?_
  · have haccepted := (h before entry after heq).mpr ⟨heligible, hlate.1, fun earlier hearlier =>
      hlate.2 earlier.offer (List.mem_map_of_mem hearlier)⟩
    exact ⟨entry, List.mem_of_find?_eq_some hfirst, hid, haccepted, hruns⟩
  · intro offer hoffer hsame hother
    obtain ⟨earlier, hearlier, rfl⟩ := List.mem_map.mp hoffer
    have hnot := hbefore earlier hearlier
    simp only [worked, Bool.not_eq_true', decide_eq_false_iff_not, not_and,
      Bool.not_eq_true] at hnot
    exact hnot (hsame.trans hid) hother

/-- The liaison loses no message and repeats none exactly where every message that is still
to be handled has a larger number than all that were handled before it. -/
theorem not_lost_iff_inOrder (config : LiaisonConfig) (groupId : String)
    (hgroup : config.group? = some groupId) (passes : List (List Offer)) :
    Kept (fun before entry => NotLost groupId before entry ∧ NotRepeated before entry)
        ((liaisonMachine config).run Liaison.init passes).received ↔
      Kept (InOrder groupId) passes.flatten := by
  rw [run_liaisonMachine hgroup]
  generalize hhistory : (passes.flatten.foldl (Liaison.receive groupId) Liaison.init).received =
    history
  have haccounted : Kept (Accounted groupId) history := by
    rw [← hhistory]
    exact (marked_init.receiveAll passes.flatten).accounted
  have hoffers : history.map Received.offer = passes.flatten := by
    rw [← hhistory, offers_receiveAll]
    rfl
  have heligible : ∀ before entry after, history = before ++ entry :: after →
      ∀ earlier ∈ before, earlier.accepted = true → earlier.offer.Eligible groupId := by
    rintro before entry after rfl earlier hearlier
    exact eligible_of_accepted haccounted (List.mem_append_left _ hearlier)
  rw [← hoffers]
  constructor
  · intro hkept
    rw [Kept.map_iff]
    intro before entry after heq hentry hnone
    have haccepted : entry.accepted = true := by
      apply (hkept before entry after heq).1 hentry
      intro earlier hearlier hid hsucceeded
      have hfailed := hnone earlier.offer (List.mem_map_of_mem hearlier) hid
        (heligible before entry after heq earlier hearlier hsucceeded.1)
      exact Bool.false_ne_true (hfailed.symm.trans hsucceeded.2)
    obtain ⟨-, hpos, hbelow⟩ := (haccounted before entry after heq).mp haccepted
    refine ⟨hpos, fun offer hoffer => ?_⟩
    obtain ⟨earlier, hearlier, rfl⟩ := List.mem_map.mp hoffer
    exact hbelow earlier hearlier
  · intro horder before entry after heq
    refine ⟨fun hentry hnone => ?_,
      (haccounted before entry after heq).notRepeated (heligible before entry after heq)⟩
    have hpart : Kept (Accounted groupId) before ∧
        Kept (InOrder groupId) (before.map Received.offer) := by
      rw [heq] at haccounted horder
      rw [List.map_append] at horder
      exact ⟨haccounted.of_append, horder.of_append⟩
    have hlate := Kept.map_iff.mp horder before entry after heq hentry ?_
    · refine (haccounted before entry after heq).mpr ⟨hentry, hlate.1, fun earlier hearlier => ?_⟩
      exact hlate.2 earlier.offer (List.mem_map_of_mem hearlier)
    · intro offer hoffer hid hother
      obtain ⟨earlier, hearlier, rfl⟩ := List.mem_map.mp hoffer
      rw [← Bool.not_eq_true]
      intro hruns
      obtain ⟨done, hdone, hsame, hsucceeded⟩ := succeeded_of_inOrder hpart.1 hpart.2
        ⟨earlier, hearlier, hid, hother, hruns⟩
      exact hnone done hdone hsame hsucceeded

def listening : LiaisonConfig := ⟨true, some "ops", some "+15550100", some "/var/simard"⟩

/-- A message of the operator's; its recipe run fails or goes through. -/
def toldBy (id : Nat) (recipe : Bool) : Offer :=
  ⟨⟨true, some "ops", id, "restart the board", false⟩, true, recipe, none, true⟩

theorem ordered_messages_not_lost :
    Kept (fun before entry => NotLost "ops" before entry ∧ NotRepeated before entry)
      ((liaisonMachine listening).run Liaison.init
        [[toldBy 1 false], [toldBy 1 true, toldBy 2 true]]).received := by
  refine (not_lost_iff_inOrder listening "ops" rfl _).mpr ?_
  rw [show [[toldBy 1 false], [toldBy 1 true, toldBy 2 true]].flatten =
    (([] ++ [toldBy 1 false]) ++ [toldBy 1 true]) ++ [toldBy 2 true] from rfl,
    Kept.concat_iff, Kept.concat_iff, Kept.concat_iff]
  refine ⟨⟨⟨Kept.nil, ?_⟩, ?_⟩, ?_⟩ <;> simp [InOrder, toldBy, Offer.runs]

/-- The first message fails, the second raises the mark, and the first, offered again, is not
accepted. -/
theorem failed_message_lost :
    ¬Kept (fun before entry => NotLost "ops" before entry ∧ NotRepeated before entry)
      ((liaisonMachine listening).run Liaison.init
        [[toldBy 1 false, toldBy 2 true], [toldBy 1 true]]).received := by
  intro hkept
  have hreceived : ((liaisonMachine listening).run Liaison.init
      [[toldBy 1 false, toldBy 2 true], [toldBy 1 true]]).received =
      [⟨toldBy 1 false, true⟩, ⟨toldBy 2 true, true⟩] ++ ⟨toldBy 1 true, false⟩ :: [] := rfl
  have hlost := (hkept _ _ _ hreceived).1 ⟨rfl, rfl, rfl⟩ ?_
  · cases hlost
  · simp [toldBy, Received.Succeeded, Offer.runs]

end Simard.Overseer
