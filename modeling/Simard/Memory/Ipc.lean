import Simard.Library.Bytes
import Simard.Library.Frames
import Simard.Library.Machine

/-! The memory client and its server. A call writes a frame to the stream and reads a frame
from it; nothing in a frame says which call it belongs to. After a failure the client connects
again, once, and where that fails too it keeps the stream it has, with whatever is still
coming on it. -/
namespace Simard.Memory
open Simard.Library

inductive RequestKind where
  | ping
  | recordSensory
  | pruneExpiredSensory
  | pushWorking
  | getWorking
  | clearWorking
  | storeEpisode
  | consolidateEpisodes
  | storeFact
  | storeFactGated
  | searchFacts
  | recallFactsRanked
  | storeProcedure
  | storeProcedureProvenance
  | recallProcedure
  | storeProspective
  | checkTriggers
  | resolveProspective
  | listProspectiveByTrigger
  | searchEpisodesByKeywords
  | drainPassLedger
  | listAllEpisodes
  | listAllProspective
  | getStatistics
  deriving DecidableEq

structure MemoryRequest (Fields : Type) where
  kind : RequestKind
  fields : Fields
  deriving DecidableEq

def MemoryRequest.isRetrySafe {Fields : Type} (req : MemoryRequest Fields) : Bool :=
  match req.kind with
  | .ping | .getWorking | .searchFacts | .recallFactsRanked | .recallProcedure
  | .listProspectiveByTrigger | .searchEpisodesByKeywords | .listAllEpisodes | .listAllProspective
  | .getStatistics | .pruneExpiredSensory | .clearWorking | .storeFactGated => true
  | .recordSensory | .pushWorking | .storeEpisode | .consolidateEpisodes | .storeFact
  | .storeProcedure | .storeProcedureProvenance | .storeProspective | .checkTriggers
  | .resolveProspective | .drainPassLedger => false

/-- How requests and responses are written as text. What is read back, where it can be, is what
was written. -/
structure IpcCodec (Fields Response : Type) where
  encodeRequest : MemoryRequest Fields → List UInt8
  decodeRequest : List UInt8 → Option (MemoryRequest Fields)
  encodeResponse : Response → List UInt8
  decodeResponse : List UInt8 → Option Response
  request_sound : ∀ req req', decodeRequest (encodeRequest req) = some req' → req' = req
  response_sound : ∀ r r', decodeResponse (encodeResponse r) = some r' → r' = r

def maxFrame : Nat := 8 * 1024 * 1024

/-- A byte on a stream, and the call it was written for or in answer to. -/
structure Marked where
  byte : UInt8
  call : Nat
  deriving DecidableEq

def mark (call : Nat) (bytes : List UInt8) : List Marked := bytes.map fun b => ⟨b, call⟩

def values (bytes : List Marked) : List UInt8 := bytes.map Marked.byte

def callOf (bytes : List Marked) : Nat := (bytes.head?.map Marked.call).getD 0

/-- A connection: what the client has written and the server has not read, what the server is
writing, what has come for the client, and whether the server is done with it. -/
structure Conn where
  up : List Marked
  outbox : List Marked
  down : List Marked
  gone : Bool

def Conn.fresh : Conn := ⟨[], [], [], false⟩

section Server

variable {Fields Response : Type}

/-- A request that was dispatched: the frame it was read from, and the response. -/
structure Dispatch (Fields Response : Type) where
  frame : List Marked
  request : MemoryRequest Fields
  response : Response

/-- What the server read, and what it did with it. -/
structure Served (Fields Response : Type) where
  conn : Conn
  frame : List Marked
  dispatch : Option (Dispatch Fields Response)

/-- The server reads a frame, dispatches the request in it and writes the response. A frame that
is too long or does not parse, and a response that cannot be framed, end the connection. -/
def Conn.serveConnection (codec : IpcCodec Fields Response) (c : Conn) (response : Response) :
    Option (Served Fields Response) :=
  if c.gone || c.up.length < 4 then none
  else
    let len := readLength (values (c.up.take 4))
    if maxFrame < len then some ⟨{ c with up := c.up.drop 4, gone := true }, c.up.take 4, none⟩
    else if c.up.length < 4 + len then none
    else
      let read := c.up.take (4 + len)
      let left := { c with up := c.up.drop (4 + len) }
      match codec.decodeRequest ((values read).drop 4) with
      | none => some ⟨{ left with gone := true }, read, none⟩
      | some request =>
          let bytes := codec.encodeResponse response
          if 2 ^ 32 ≤ bytes.length then
            some ⟨{ left with gone := true }, read, some ⟨read, request, response⟩⟩
          else
            some ⟨{ left with outbox := left.outbox ++ mark (callOf read) (frame bytes) }, read,
              some ⟨read, request, response⟩⟩

end Server

inductive Phase (Fields : Type) where
  | idle
  | writing (req : MemoryRequest Fields) (second : Bool)
  | awaitLen (req : MemoryRequest Fields) (second : Bool)
  | awaitBody (req : MemoryRequest Fields) (second : Bool) (len : Nat)
  | recover (req : MemoryRequest Fields) (delivered : Bool)

/-- What a call returned; none is an error. -/
structure Reply (Fields Response : Type) where
  call : Nat
  request : MemoryRequest Fields
  result : Option Response

/-- The connections, the present one first, how far the call is, and what has happened: the
calls begun, the frames the server read and dispatched, what the client read and returned. -/
structure Ipc (Fields Response : Type) where
  cur : Conn
  old : List Conn
  phase : Phase Fields
  call : Nat
  begun : List (Nat × MemoryRequest Fields)
  frames : List (List Marked)
  dispatched : List (Dispatch Fields Response)
  reads : List (Nat × List Marked)
  replies : List (Reply Fields Response)

/-- What happens next, on the client's side or on the server's side of a connection. -/
inductive IpcEvent (Fields Response : Type) where
  | call (req : MemoryRequest Fields)
  | wrote
  | writeFails (written : Nat)
  | readLen
  | readBody
  | readFails (read : Nat)
  | reconnect (connects : Bool)
  | serve (conn : Nat) (response : Response)
  | deliver (conn bytes : Nat)
  | die (conn kept : Nat)

namespace Ipc

variable {Fields Response : Type} (codec : IpcCodec Fields Response) (s : Ipc Fields Response)

def init : Ipc Fields Response := ⟨.fresh, [], .idle, 0, [], [], [], [], []⟩

def conns : List Conn := s.cur :: s.old

def setConn (i : Nat) (c : Conn) : Ipc Fields Response :=
  match i with
  | 0 => { s with cur := c }
  | i + 1 => { s with old := s.old.set i c }

def requestFrame (req : MemoryRequest Fields) : List Marked :=
  mark s.call (frame (codec.encodeRequest req))

def returns (req : MemoryRequest Fields) (result : Option Response) : Ipc Fields Response :=
  { s with phase := .idle, replies := s.replies ++ [⟨s.call, req, result⟩] }

/-- An exchange has failed: the first is recovered from, the second is the call's. -/
def fails (req : MemoryRequest Fields) (second delivered : Bool) : Ipc Fields Response :=
  if second then s.returns req none else { s with phase := .recover req delivered }

def takes (n : Nat) : Ipc Fields Response :=
  { s with
    cur := { s.cur with down := s.cur.down.drop n }
    reads := s.reads ++ [(s.call, s.cur.down.take n)] }

def sends (bytes : List Marked) : Ipc Fields Response :=
  { s with cur := { s.cur with up := s.cur.up ++ bytes } }

def step : IpcEvent Fields Response → Ipc Fields Response
  | .call req =>
      match s.phase with
      | .idle => { s with
          phase := .writing req false, call := s.call + 1, begun := s.begun ++ [(s.call + 1, req)] }
      | _ => s
  | .wrote =>
      match s.phase with
      | .writing req second =>
          if (codec.encodeRequest req).length < 2 ^ 32 then
            { s.sends (s.requestFrame codec req) with phase := .awaitLen req second }
          else s
      | _ => s
  | .writeFails written =>
      match s.phase with
      | .writing req second =>
          if written = 0 ∨ (codec.encodeRequest req).length < 2 ^ 32 ∧
              written < (s.requestFrame codec req).length then
            (s.sends ((s.requestFrame codec req).take written)).fails req second false
          else s
      | _ => s
  | .readLen =>
      match s.phase with
      | .awaitLen req second =>
          if 4 ≤ s.cur.down.length then
            let len := readLength (values (s.cur.down.take 4))
            if maxFrame < len then (s.takes 4).fails req second true
            else { s.takes 4 with phase := .awaitBody req second len }
          else s
      | _ => s
  | .readBody =>
      match s.phase with
      | .awaitBody req second len =>
          if len ≤ s.cur.down.length then
            match codec.decodeResponse (values (s.cur.down.take len)) with
            | some response => (s.takes len).returns req (some response)
            | none => (s.takes len).fails req second true
          else s
      | _ => s
  | .readFails read =>
      match s.phase with
      | .awaitLen req second =>
          if read ≤ s.cur.down.length ∧ read < 4 then (s.takes read).fails req second true else s
      | .awaitBody req second len =>
          if read ≤ s.cur.down.length ∧ read < len then (s.takes read).fails req second true else s
      | _ => s
  | .reconnect connects =>
      match s.phase with
      | .recover req delivered =>
          if !connects then s.returns req none
          else
            let healed := { s with cur := .fresh, old := s.cur :: s.old }
            if !delivered || req.isRetrySafe then { healed with phase := .writing req true }
            else healed.returns req none
      | _ => s
  | .serve i response =>
      match s.conns[i]?.bind fun c => c.serveConnection codec response with
      | none => s
      | some served => { s.setConn i served.conn with
          frames := s.frames ++ [served.frame]
          dispatched := s.dispatched ++ served.dispatch.toList }
  | .deliver i bytes =>
      match s.conns[i]? with
      | none => s
      | some c => s.setConn i
          { c with down := c.down ++ c.outbox.take bytes, outbox := c.outbox.drop bytes }
  | .die i kept =>
      match s.conns[i]? with
      | none => s
      | some c => s.setConn i { c with gone := true, outbox := c.outbox.take kept }

end Ipc

def ipcMachine {Fields Response : Type} (codec : IpcCodec Fields Response) :
    Machine (Ipc Fields Response) (IpcEvent Fields Response) := ⟨Ipc.step codec⟩

def MemoryRequest.limit {Fields : Type} (req : MemoryRequest Fields) : Nat :=
  if req.isRetrySafe then 2 else 1

/-- Answers belong to their requests, requests are not repeated too often, and no byte of one
call is read as part of another. -/
structure IpcPromise {Fields Response : Type} (s : Ipc Fields Response) : Prop where
  answers : ∀ reply ∈ s.replies, ∀ r, reply.result = some r → ∃ d ∈ s.dispatched,
    d.request = reply.request ∧ d.response = r ∧ ∀ b ∈ d.frame, b.call = reply.call
  dispatches : ∀ entry ∈ s.begun,
    (s.dispatched.countP fun d => callOf d.frame = entry.1) ≤ entry.2.limit
  clientReads : ∀ entry ∈ s.reads, ∀ b ∈ entry.2, b.call = entry.1
  serverReads : ∀ bytes ∈ s.frames, ∀ b ∈ bytes, ∀ b' ∈ bytes, b.call = b'.call

/-- Nothing is on the stream, and nothing comes on it any more. -/
def Conn.Quiet (c : Conn) : Prop :=
  (c.up = [] ∨ c.gone = true) ∧ c.outbox = [] ∧ c.down = []

/-- A call that ends in an error without a new connection leaves a quiet stream. -/
def Ipc.Settles {Fields Response : Type} (s : Ipc Fields Response) :
    IpcEvent Fields Response → Prop
  | .reconnect false => s.cur.Quiet
  | .writeFails written => ∀ req, s.phase = .writing req true → written = 0 ∨ s.cur.gone = true
  | .readLen => ∀ req, s.phase = .awaitLen req true →
      readLength (values (s.cur.down.take 4)) ≤ maxFrame
  | .readFails read => ∀ req, (s.phase = .awaitLen req true ∨
      ∃ len, s.phase = .awaitBody req true len) →
        s.cur.gone = true ∧ s.cur.outbox = [] ∧ s.cur.down.length = read
  | _ => True

@[simp] theorem values_mark (call : Nat) (bytes : List UInt8) :
    values (mark call bytes) = bytes := by
  simp [values, mark, Function.comp_def]

theorem call_of_mem_mark {call : Nat} {bytes : List UInt8} {b : Marked} (h : b ∈ mark call bytes) :
    b.call = call := by
  obtain ⟨byte, -, rfl⟩ := List.mem_map.mp h
  rfl

theorem callOf_mark {call : Nat} {bytes : List UInt8} (h : bytes ≠ []) :
    callOf (mark call bytes) = call := by
  cases bytes with
  | nil => exact absurd rfl h
  | cons b bytes => rfl

theorem frame_ne_nil (payload : List UInt8) : frame payload ≠ [] := nofun

section Serving

variable {Fields Response : Type} {codec : IpcCodec Fields Response} {c : Conn}

def Conn.Pure (codec : IpcCodec Fields Response) (c : Conn) : Prop :=
  c.gone = true ∨ c.up = [] ∨ ∃ call req n, (codec.encodeRequest req).length < 2 ^ 32 ∧
    c.up = (mark call (frame (codec.encodeRequest req))).take n

def Conn.ready (c : Conn) (call : Nat) : Bool :=
  !c.gone && frameReady (values c.up) && callOf c.up = call

theorem Conn.ready_iff {call : Nat} : c.ready call = true ↔
    c.gone = false ∧ frameReady (values c.up) = true ∧ callOf c.up = call := by
  simp [Conn.ready, and_assoc]

/-- What the server does with one frame: it rejects it, or dispatches the request in it, with
an answer or without. -/
inductive ServedAs (codec : IpcCodec Fields Response) (c : Conn) (response : Response) :
    Served Fields Response → Prop where
  | rejected {up bytes : List Marked} (hpure : ∀ b ∈ bytes, ∀ b' ∈ bytes, b.call = b'.call) :
      ServedAs codec c response ⟨{ c with up := up, gone := true }, bytes, none⟩
  | unanswered {call : Nat} {req : MemoryRequest Fields} (hready : c.ready call = true)
      (hup : c.up = mark call (frame (codec.encodeRequest req))) :
      ServedAs codec c response
        ⟨{ c with up := [], gone := true }, c.up, some ⟨c.up, req, response⟩⟩
  | answered {call : Nat} {req : MemoryRequest Fields} (hready : c.ready call = true)
      (hup : c.up = mark call (frame (codec.encodeRequest req)))
      (hdecode : codec.decodeRequest (codec.encodeRequest req) = some req)
      (hlength : (codec.encodeResponse response).length < 2 ^ 32) :
      ServedAs codec c response
        ⟨{ c with
          up := []
          outbox := c.outbox ++ mark call (frame (codec.encodeResponse response)) },
          c.up, some ⟨c.up, req, response⟩⟩

theorem serveConnection_cases (hpure : c.Pure codec) {response : Response}
    {served : Served Fields Response} (h : c.serveConnection codec response = some served) :
    ServedAs codec c response served ∧ c.gone = false := by
  unfold Conn.serveConnection at h
  split at h
  · cases h
  next hlive =>
    rw [Bool.or_eq_true, decide_eq_true_eq, not_or, Bool.not_eq_true, not_lt] at hlive
    refine ⟨?_, hlive.1⟩
    rcases hpure with hgone | hnil | ⟨call, req, n, hlength, hup⟩
    · rw [hlive.1] at hgone
      cases hgone
    · rw [hnil] at hlive
      exact absurd hlive.2 (by decide)
    generalize hframe : mark call (frame (codec.encodeRequest req)) = whole at hup
    have hwhole : whole.length = 4 + (codec.encodeRequest req).length := by
      rw [← hframe, mark, List.length_map, length_frame]
    have hmin : min 4 n = 4 := by
      have hfour := hlive.2
      rw [hup, List.length_take] at hfour
      omega
    have hlen : readLength (values (c.up.take 4)) = (codec.encodeRequest req).length := by
      rw [hup, List.take_take, hmin, values, List.map_take, ← hframe]
      change readLength ((values (mark call (frame (codec.encodeRequest req)))).take 4) = _
      rw [values_mark, take_frame, readLength_lengthBytes hlength]
    have hcalls (bytes : List Marked) (hsub : bytes ⊆ whole) :
        ∀ b ∈ bytes, ∀ b' ∈ bytes, b.call = b'.call := by
      intro b hb b' hb'
      rw [← hframe] at hsub
      rw [call_of_mem_mark (hsub hb), call_of_mem_mark (hsub hb')]
    simp only [hlen] at h
    split at h
    · obtain rfl := Option.some.inj h
      refine .rejected (hcalls _ ?_)
      rw [hup]
      exact List.Subset.trans (List.take_subset _ _) (List.take_subset _ _)
    · split at h
      · cases h
      next hfull =>
        have hall : c.up = whole := by
          rw [hup]
          apply List.take_of_length_le
          rw [hup, List.length_take] at hfull
          omega
        have htake : c.up.take (4 + (codec.encodeRequest req).length) = c.up := by
          rw [hall, ← hwhole, List.take_length]
        have hdrop : c.up.drop (4 + (codec.encodeRequest req).length) = [] := by
          rw [hall, ← hwhole, List.drop_length]
        have hvalues : values c.up = frame (codec.encodeRequest req) := by
          rw [hall, ← hframe, values_mark]
        have hcall : callOf c.up = call := by rw [hall, ← hframe, callOf_mark (frame_ne_nil _)]
        have hready : c.ready call = true :=
          Conn.ready_iff.mpr ⟨hlive.1, hvalues ▸ frameReady_frame hlength, hcall⟩
        simp only [htake, hdrop, hvalues, drop_frame, hcall] at h
        split at h
        · obtain rfl := Option.some.inj h
          exact .rejected (hcalls _ (hall ▸ List.Subset.refl _))
        next request hdecode =>
          obtain rfl := codec.request_sound _ _ hdecode
          rw [← hall] at hframe
          split at h
          · obtain rfl := Option.some.inj h
            exact .unanswered hready hframe.symm
          next hanswer =>
            obtain rfl := Option.some.inj h
            exact .answered hready hframe.symm hdecode (not_le.mp hanswer)

theorem up_ne_nil_of_serve {response : Response} {served : Served Fields Response}
    (h : c.serveConnection codec response = some served) : c.up ≠ [] := by
  intro hup
  rw [Conn.serveConnection, hup, if_pos] at h
  · cases h
  · exact Bool.or_eq_true_iff.mpr (.inr rfl)

end Serving

section Sync

variable {Fields Response : Type}

def Dispatch.For (d : Dispatch Fields Response) (call : Nat) (req : MemoryRequest Fields) : Prop :=
  d.request = req ∧ ∀ b ∈ d.frame, b.call = call

variable (codec : IpcCodec Fields Response)

/-- The answer to a request is awaited: the request is there, or its answer is coming, or nothing
will come. -/
inductive Awaits (dispatched : List (Dispatch Fields Response)) (call : Nat)
    (req : MemoryRequest Fields) (c : Conn) : Prop where
  | sent (hup : c.up = mark call (frame (codec.encodeRequest req))) (hout : c.outbox = [])
      (hdown : c.down = [])
  | answered {d : Dispatch Fields Response} (hd : d ∈ dispatched) (hfor : d.For call req)
      (hlength : (codec.encodeResponse d.response).length < 2 ^ 32) (hup : c.up = [])
      (hcoming : c.down ++ c.outbox <+: mark call (frame (codec.encodeResponse d.response)))
  | lost (hgone : c.gone = true) (hout : c.outbox = []) (hdown : c.down = [])

def AwaitsRest (dispatched : List (Dispatch Fields Response)) (call : Nat)
    (req : MemoryRequest Fields) (len : Nat) (c : Conn) : Prop :=
  ∃ d ∈ dispatched, d.For call req ∧ len = (codec.encodeResponse d.response).length ∧ c.up = [] ∧
    c.down ++ c.outbox <+: mark call (codec.encodeResponse d.response)

def Linked (s : Ipc Fields Response) : Prop :=
  match s.phase with
  | .idle | .writing _ _ => s.cur.Quiet
  | .awaitLen req _ => Awaits codec s.dispatched s.call req s.cur
  | .awaitBody req _ len => AwaitsRest codec s.dispatched s.call req len s.cur
  | .recover _ _ => True

/-- The dispatches of a call so far, and those still to come of what it has sent. -/
def weight (s : Ipc Fields Response) (call : Nat) : Nat :=
  s.conns.countP (·.ready call) + s.dispatched.countP fun d => callOf d.frame = call

/-- The request of the present call, and how often it can have been dispatched. -/
def Phase.most : Phase Fields → Option (MemoryRequest Fields × Nat)
  | .idle => none
  | .writing req second => some (req, if second && req.isRetrySafe then 1 else 0)
  | .awaitLen req second | .awaitBody req second _ =>
      some (req, if second && req.isRetrySafe then 2 else 1)
  | .recover req delivered => some (req, if delivered then 1 else 0)

structure Weighed (s : Ipc Fields Response) : Prop where
  later : ∀ call, s.call < call → weight s call = 0
  begun : ∀ entry ∈ s.begun, entry.1 ≤ s.call ∧ weight s entry.1 ≤ entry.2.limit
  present : ∀ req n, s.phase.most = some (req, n) →
    weight s s.call ≤ n ∧ ∀ entry ∈ s.begun, entry.1 = s.call → entry.2 = req

/-- What is so however far the call is. -/
structure Accounted (s : Ipc Fields Response) : Prop where
  pure : ∀ c ∈ s.conns, c.Pure codec
  weighed : Weighed s
  answers : ∀ reply ∈ s.replies, ∀ r, reply.result = some r → ∃ d ∈ s.dispatched,
    d.request = reply.request ∧ d.response = r ∧ ∀ b ∈ d.frame, b.call = reply.call
  clientReads : ∀ entry ∈ s.reads, ∀ b ∈ entry.2, b.call = entry.1
  serverReads : ∀ bytes ∈ s.frames, ∀ b ∈ bytes, ∀ b' ∈ bytes, b.call = b'.call

structure InSync (s : Ipc Fields Response) : Prop extends Accounted codec s where
  linked : Linked codec s

variable {codec} {s s' : Ipc Fields Response}

theorem InSync.promise (h : InSync codec s) : IpcPromise s := by
  refine ⟨h.answers, ?_, h.clientReads, h.serverReads⟩
  intro entry hentry
  exact (Nat.le_add_left _ _).trans (h.weighed.begun entry hentry).2

theorem inSync_init : InSync codec (Ipc.init : Ipc Fields Response) := by
  refine ⟨⟨?_, ⟨fun _ _ => rfl, nofun, nofun⟩, nofun, nofun, nofun⟩, ⟨.inl rfl, rfl, rfl⟩⟩
  intro c hc
  obtain rfl := List.mem_singleton.mp hc
  exact .inr (.inl rfl)

theorem Weighed.mono (h : Weighed s) (hcall : s'.call = s.call) (hbegun : s'.begun = s.begun)
    (hweight : ∀ call, weight s' call ≤ weight s call)
    (hmost : ∀ req n, s'.phase.most = some (req, n) →
      ∃ n' ≤ n, s.phase.most = some (req, n')) : Weighed s' := by
  constructor
  · intro call hlater
    rw [hcall] at hlater
    exact Nat.le_zero.mp ((hweight call).trans (h.later call hlater).le)
  · intro entry hentry
    rw [hbegun] at hentry
    rw [hcall]
    obtain ⟨hle, hlimit⟩ := h.begun entry hentry
    exact ⟨hle, (hweight entry.1).trans hlimit⟩
  · intro req n hphase
    obtain ⟨n', hn, hbefore⟩ := hmost req n hphase
    obtain ⟨hle, hreq⟩ := h.present req n' hbefore
    rw [hcall, hbegun]
    exact ⟨((hweight s.call).trans hle).trans hn, hreq⟩

theorem ready_of_gone {c : Conn} (hgone : c.gone = true) (call : Nat) : c.ready call = false := by
  simp [Conn.ready, hgone]

theorem ready_of_empty {c : Conn} (hup : c.up = []) (call : Nat) : c.ready call = false := by
  simp [Conn.ready, hup, values, frameReady_nil]

theorem not_ready_of_quiet {c : Conn} (h : c.Quiet) (call : Nat) : c.ready call = false := by
  rcases h.1 with hup | hgone
  · exact ready_of_empty hup call
  · exact ready_of_gone hgone call

theorem weight_eq (s : Ipc Fields Response) (call : Nat) :
    weight s call = (if s.cur.ready call then 1 else 0) + (s.old.countP (·.ready call) +
      s.dispatched.countP fun d => callOf d.frame = call) := by
  unfold weight Ipc.conns
  rw [List.countP_cons]
  omega

theorem weight_le_of_cur (hold : s'.old = s.old) (hdispatched : s'.dispatched = s.dispatched)
    (hready : ∀ call, s'.cur.ready call = true → s.cur.ready call = true) (call : Nat) :
    weight s' call ≤ weight s call := by
  rw [weight_eq, weight_eq, hold, hdispatched]
  apply Nat.add_le_add_right
  split
  next hafter => rw [if_pos (hready call hafter)]
  · exact Nat.zero_le _

theorem InSync.call (h : InSync codec s) (req : MemoryRequest Fields) :
    InSync codec (s.step codec (.call req)) := by
  simp only [Ipc.step]
  split
  next hphase =>
    have hquiet : s.cur.Quiet := by
      have hlinked := h.linked
      rwa [Linked, hphase] at hlinked
    refine ⟨⟨h.pure, ?_, h.answers, h.clientReads, h.serverReads⟩, hquiet⟩
    have hzero : weight s (s.call + 1) = 0 := h.weighed.later _ (Nat.lt_succ_self _)
    constructor
    · intro call hlater
      exact h.weighed.later call (Nat.lt_of_succ_lt hlater)
    · intro entry hentry
      rcases List.mem_append.mp hentry with hold | hnew
      · obtain ⟨hle, hlimit⟩ := h.weighed.begun entry hold
        exact ⟨Nat.le_succ_of_le hle, hlimit⟩
      · obtain rfl := List.mem_singleton.mp hnew
        exact ⟨le_rfl, hzero.le.trans (Nat.zero_le _)⟩
    · intro req' n hmost
      simp only [Phase.most, Bool.false_and, Bool.false_eq_true, if_false, Option.some.injEq,
        Prod.mk.injEq] at hmost
      obtain ⟨rfl, rfl⟩ := hmost
      refine ⟨hzero.le, ?_⟩
      intro entry hentry hcall
      rcases List.mem_append.mp hentry with hold | hnew
      · exact absurd hcall (Nat.ne_of_lt (Nat.lt_succ_of_le (h.weighed.begun entry hold).1))
      · obtain rfl := List.mem_singleton.mp hnew
        rfl
  · exact h

theorem linked_writing {req : MemoryRequest Fields} {second : Bool} (h : Linked codec s)
    (hphase : s.phase = .writing req second) : s.cur.Quiet := by
  rwa [Linked, hphase] at h

theorem ready_sends (codec : IpcCodec Fields Response) (hquiet : s.cur.Quiet)
    (req : MemoryRequest Fields) (call : Nat) :
    (s.sends (s.requestFrame codec req)).cur.ready call = true → call = s.call := by
  rw [Conn.ready_iff]
  rintro ⟨hlive, -, hcall⟩
  rcases hquiet.1 with hup | hgone
  · rw [← hcall, Ipc.sends, Ipc.requestFrame, hup, List.nil_append, callOf_mark (frame_ne_nil _)]
  · exact absurd (hlive.symm.trans hgone) Bool.false_ne_true

theorem InSync.wrote (h : InSync codec s) : InSync codec (s.step codec .wrote) := by
  simp only [Ipc.step]
  split
  next req second hphase =>
    split
    next hlength =>
      have hquiet := linked_writing h.linked hphase
      have ⟨hempty, hout, hdown⟩ := hquiet
      refine ⟨⟨?_, ?_, h.answers, h.clientReads, h.serverReads⟩, ?_⟩
      · intro c hc
        rcases List.mem_cons.mp hc with rfl | hold
        · rcases hempty with hup | hgone
          · refine .inr (.inr ⟨s.call, req, (s.requestFrame codec req).length, hlength, ?_⟩)
            simp [Ipc.sends, hup, Ipc.requestFrame]
          · exact .inl hgone
        · exact h.pure c (List.mem_cons_of_mem _ hold)
      · -- only this call can have become heavier, by one
        obtain ⟨hmost, hreq⟩ := h.weighed.present req _ (congrArg Phase.most hphase)
        have hweight (call : Nat) : weight { s.sends (s.requestFrame codec req) with
            phase := .awaitLen req second } call ≤
            weight s call + if call = s.call then 1 else 0 := by
          rw [weight_eq, weight_eq, if_neg (Bool.eq_false_iff.mp (not_ready_of_quiet hquiet call))]
          have hready := ready_sends codec hquiet req call
          split
          next hafter =>
            rw [if_pos (hready hafter)]
            exact Nat.le_of_eq (by rw [Nat.zero_add, Nat.add_comm]; rfl)
          · exact Nat.le_add_right _ _
        constructor
        · intro call hlater
          have hafter : s.call < call := hlater
          have hle := hweight call
          rw [h.weighed.later call hafter, if_neg (Nat.ne_of_gt hafter)] at hle
          exact Nat.le_zero.mp hle
        · intro entry hentry
          obtain ⟨hle, hlimit⟩ := h.weighed.begun entry hentry
          refine ⟨hle, (hweight entry.1).trans ?_⟩
          split
          next hcall =>
            rw [hcall, hreq entry hentry hcall]
            refine (Nat.add_le_add_right hmost 1).trans ?_
            unfold MemoryRequest.limit
            cases second <;> cases req.isRetrySafe <;> decide
          · exact hlimit
        · intro req' n hphase'
          obtain ⟨rfl, rfl⟩ := Prod.mk.inj (Option.some.inj hphase')
          refine ⟨(hweight s.call).trans ?_, hreq⟩
          rw [if_pos rfl]
          refine (Nat.add_le_add_right hmost 1).trans ?_
          cases second <;> cases req.isRetrySafe <;> decide
      · rcases hempty with hup | hgone
        · refine .sent ?_ hout hdown
          simp [Ipc.sends, hup, Ipc.requestFrame]
        · exact .lost hgone hout hdown
    · exact h
  · exact h

theorem Accounted.fails (h : Accounted codec s) {req : MemoryRequest Fields} {n : Nat}
    {second delivered : Bool} (hmost : s.phase.most = some (req, n))
    (hn : second = false → n ≤ if delivered then 1 else 0)
    (hquiet : second = true → s.cur.Quiet) : InSync codec (s.fails req second delivered) := by
  cases second with
  | false =>
    have hweighed : Weighed { s with phase := .recover req delivered } := by
      refine h.weighed.mono rfl rfl (fun _ => le_rfl) ?_
      intro req' n' hafter
      obtain ⟨rfl, rfl⟩ := Prod.mk.inj (Option.some.inj hafter)
      exact ⟨n, hn rfl, hmost⟩
    exact ⟨⟨h.pure, hweighed, h.answers, h.clientReads, h.serverReads⟩, trivial⟩
  | true =>
    refine ⟨⟨h.pure, ?_, ?_, h.clientReads, h.serverReads⟩, hquiet rfl⟩
    · exact h.weighed.mono rfl rfl (fun _ => le_rfl) nofun
    · intro reply hreply r hr
      rcases List.mem_append.mp hreply with hold | hnew
      · exact h.answers reply hold r hr
      · obtain rfl := List.mem_singleton.mp hnew
        cases hr

theorem not_frameReady_take {req : MemoryRequest Fields} {whole : List Marked}
    (hframe : s.requestFrame codec req = whole) {written : Nat}
    (hcut : written = 0 ∨ (codec.encodeRequest req).length < 2 ^ 32 ∧ written < whole.length) :
    frameReady (values (whole.take written)) ≠ true := by
  intro hready
  rcases hcut with rfl | ⟨hlength, hless⟩
  · cases hready
  · have hvalues : values (whole.take written) =
        (frame (codec.encodeRequest req)).take written := by
      rw [← hframe, values, List.map_take]
      exact congrArg (List.take written) (values_mark _ _)
    rw [hvalues] at hready
    have hall := congrArg List.length (take_of_frameReady hlength hready)
    rw [← hframe, Ipc.requestFrame, mark, List.length_map] at hless
    rw [List.length_take] at hall
    omega

theorem InSync.writeFails (h : InSync codec s) (written : Nat)
    (hsettles : s.Settles (.writeFails written)) :
    InSync codec (s.step codec (.writeFails written)) := by
  simp only [Ipc.step]
  split
  next req second hphase =>
    split
    next hcut =>
      have hquiet := linked_writing h.linked hphase
      generalize hframe : s.requestFrame codec req = whole at hcut
      have hup : (s.sends (whole.take written)).cur.gone = true ∨
          (s.sends (whole.take written)).cur.up = whole.take written := by
        rcases hquiet.1 with hup | hgone
        · exact .inr (by simp [Ipc.sends, hup])
        · exact .inl hgone
      have hnotReady (call : Nat) : (s.sends (whole.take written)).cur.ready call = false := by
        rw [Bool.eq_false_iff]
        intro hready
        obtain ⟨hlive, hwhole, -⟩ := Conn.ready_iff.mp hready
        rcases hup with hgone | hup
        · exact absurd (hlive.symm.trans hgone) Bool.false_ne_true
        · rw [hup] at hwhole
          exact not_frameReady_take hframe hcut hwhole
      have haccounted : Accounted codec (s.sends (whole.take written)) := by
        refine ⟨?_, ?_, h.answers, h.clientReads, h.serverReads⟩
        · intro c hc
          rcases List.mem_cons.mp hc with rfl | hold
          · rcases hup with hgone | hup
            · exact .inl hgone
            · rcases hcut with rfl | ⟨hlength, -⟩
              · exact .inr (.inl hup)
              · exact .inr (.inr ⟨s.call, req, written, hlength, by rw [hup, ← hframe]; rfl⟩)
          · exact h.pure c (List.mem_cons_of_mem _ hold)
        · refine h.weighed.mono rfl rfl (weight_le_of_cur rfl rfl fun call hready => ?_) ?_
          · rw [hnotReady call] at hready
            cases hready
          · intro req' n hmost
            exact ⟨n, le_rfl, hmost⟩
      refine haccounted.fails (n := if second && req.isRetrySafe then 1 else 0) ?_ ?_ ?_
      · exact congrArg Phase.most hphase
      · rintro rfl
        exact le_rfl
      · rintro rfl
        refine ⟨?_, hquiet.2⟩
        rcases hsettles req hphase with rfl | hgone
        · rcases hquiet.1 with hup | hgone
          · exact .inl (by simp [Ipc.sends, hup])
          · exact .inr hgone
        · exact .inr hgone
    · exact h
  · exact h

theorem Awaits.call_down {dispatched : List (Dispatch Fields Response)} {call : Nat}
    {req : MemoryRequest Fields} {c : Conn} (h : Awaits codec dispatched call req c) :
    ∀ b ∈ c.down, b.call = call := by
  intro b hb
  cases h with
  | sent _ _ hdown | lost _ _ hdown =>
    rw [hdown] at hb
    cases hb
  | answered _ _ _ _ hcoming => exact call_of_mem_mark (hcoming.subset (List.mem_append_left _ hb))

theorem AwaitsRest.call_down {dispatched : List (Dispatch Fields Response)} {call len : Nat}
    {req : MemoryRequest Fields} {c : Conn} (h : AwaitsRest codec dispatched call req len c) :
    ∀ b ∈ c.down, b.call = call := by
  intro b hb
  obtain ⟨d, -, -, -, -, hcoming⟩ := h
  exact call_of_mem_mark (hcoming.subset (List.mem_append_left _ hb))

theorem Accounted.takes (h : Accounted codec s) (n : Nat)
    (hcalls : ∀ b ∈ s.cur.down, b.call = s.call) : Accounted codec (s.takes n) := by
  refine ⟨?_, ?_, h.answers, ?_, h.serverReads⟩
  · intro c hc
    rcases List.mem_cons.mp hc with rfl | hold
    · exact h.pure s.cur List.mem_cons_self
    · exact h.pure c (List.mem_cons_of_mem _ hold)
  · refine h.weighed.mono rfl rfl (weight_le_of_cur rfl rfl fun _ hready => hready) ?_
    intro req n hmost
    exact ⟨n, le_rfl, hmost⟩
  · intro entry hentry b hb
    rcases List.mem_append.mp hentry with hold | hnew
    · exact h.clientReads entry hold b hb
    · obtain rfl := List.mem_singleton.mp hnew
      exact hcalls b (List.mem_of_mem_take hb)

theorem Awaits.readLen {dispatched : List (Dispatch Fields Response)} {call : Nat}
    {req : MemoryRequest Fields} {c : Conn} (h : Awaits codec dispatched call req c)
    (hlength : 4 ≤ c.down.length) : AwaitsRest codec dispatched call req
      (readLength (values (c.down.take 4))) { c with down := c.down.drop 4 } := by
  cases h with
  | sent _ _ hdown | lost _ _ hdown =>
    rw [hdown] at hlength
    cases hlength
  | @answered d hd hfor hfits hup hcoming =>
    refine ⟨d, hd, hfor, ?_, hup, ?_⟩
    · have hpart : c.down <+: mark call (frame (codec.encodeResponse d.response)) :=
        (List.prefix_append _ _).trans hcoming
      have hlen : values (c.down.take 4) =
          lengthBytes (codec.encodeResponse d.response).length := by
        rw [(hpart.take 4).eq_of_length_le ?_, mark, values, ← List.map_take, take_frame,
          List.map_map]
        · exact List.map_id _
        · rw [List.length_take, List.length_take, Nat.min_eq_left hlength]
          exact Nat.min_le_left _ _
      rw [hlen, readLength_lengthBytes hfits]
    · have hrest := hcoming.drop 4
      rw [List.drop_append_of_le_length hlength, mark, ← List.map_drop, drop_frame] at hrest
      exact hrest

theorem linked_awaitLen {req : MemoryRequest Fields} {second : Bool} (h : Linked codec s)
    (hphase : s.phase = .awaitLen req second) : Awaits codec s.dispatched s.call req s.cur := by
  rwa [Linked, hphase] at h

theorem linked_awaitBody {req : MemoryRequest Fields} {second : Bool} {len : Nat}
    (h : Linked codec s) (hphase : s.phase = .awaitBody req second len) :
    AwaitsRest codec s.dispatched s.call req len s.cur := by
  rwa [Linked, hphase] at h

theorem InSync.readLen (h : InSync codec s) (hsettles : s.Settles .readLen) :
    InSync codec (s.step codec .readLen) := by
  simp only [Ipc.step]
  split
  next req second hphase =>
    split
    next hlength =>
      have hawaits := linked_awaitLen h.linked hphase
      have haccounted := h.toAccounted.takes 4 hawaits.call_down
      split
      next hlong =>
        refine haccounted.fails (n := if second && req.isRetrySafe then 2 else 1) ?_ ?_ ?_
        · exact congrArg Phase.most hphase
        · rintro rfl
          exact le_rfl
        · rintro rfl
          exact absurd (hsettles req hphase) (not_le.mpr hlong)
      · refine ⟨⟨haccounted.pure, ?_, haccounted.answers, haccounted.clientReads,
          haccounted.serverReads⟩, hawaits.readLen hlength⟩
        refine haccounted.weighed.mono rfl rfl (fun _ => le_rfl) ?_
        intro req' n hmost
        exact ⟨n, le_rfl, (congrArg Phase.most hphase).trans hmost⟩
    · exact h
  · exact h

theorem AwaitsRest.readBody {dispatched : List (Dispatch Fields Response)} {call len : Nat}
    {req : MemoryRequest Fields} {c : Conn} (h : AwaitsRest codec dispatched call req len c)
    (hlength : len ≤ c.down.length) :
    Conn.Quiet { c with down := c.down.drop len } ∧ ∃ d ∈ dispatched, d.For call req ∧
      values (c.down.take len) = codec.encodeResponse d.response := by
  obtain ⟨d, hd, hfor, rfl, hup, hcoming⟩ := h
  have hsize : (mark call (codec.encodeResponse d.response)).length =
      (codec.encodeResponse d.response).length := List.length_map _
  have hall : c.down ++ c.outbox = mark call (codec.encodeResponse d.response) := by
    apply hcoming.eq_of_length_le
    rw [hsize, List.length_append]
    exact hlength.trans (Nat.le_add_right _ _)
  have hout : c.outbox = [] := by
    have htotal := congrArg List.length hall
    rw [hsize, List.length_append] at htotal
    exact List.eq_nil_of_length_eq_zero (by omega)
  rw [hout, List.append_nil] at hall
  refine ⟨⟨.inl hup, hout, ?_⟩, d, hd, hfor, ?_⟩
  · rw [hall, ← hsize]
    exact List.drop_length
  · rw [hall, ← hsize, List.take_length, values_mark]

theorem Accounted.returns (h : Accounted codec s) (hquiet : s.cur.Quiet)
    {req : MemoryRequest Fields} {result : Option Response}
    (hresult : ∀ r, result = some r → ∃ d ∈ s.dispatched, d.For s.call req ∧ d.response = r) :
    InSync codec (s.returns req result) := by
  refine ⟨⟨h.pure, ?_, ?_, h.clientReads, h.serverReads⟩, hquiet⟩
  · exact h.weighed.mono rfl rfl (fun _ => le_rfl) nofun
  · intro reply hreply r hr
    rcases List.mem_append.mp hreply with hold | hnew
    · exact h.answers reply hold r hr
    · obtain rfl := List.mem_singleton.mp hnew
      obtain ⟨d, hd, ⟨hreq, hcalls⟩, hresponse⟩ := hresult r hr
      exact ⟨d, hd, hreq, hresponse, hcalls⟩

theorem InSync.readBody (h : InSync codec s) : InSync codec (s.step codec .readBody) := by
  simp only [Ipc.step]
  split
  next req second len hphase =>
    split
    next hlength =>
      have hrest := linked_awaitBody h.linked hphase
      have haccounted := h.toAccounted.takes len hrest.call_down
      obtain ⟨hquiet, d, hd, hfor, hvalues⟩ := hrest.readBody hlength
      rw [hvalues]
      split
      next response hdecode =>
        apply haccounted.returns hquiet
        intro r hr
        obtain rfl := Option.some.inj hr
        exact ⟨d, hd, hfor, (codec.response_sound _ _ hdecode).symm⟩
      · refine haccounted.fails (n := if second && req.isRetrySafe then 2 else 1) ?_ ?_
          fun _ => hquiet
        · exact congrArg Phase.most hphase
        · rintro rfl
          exact le_rfl
    · exact h
  · exact h

theorem InSync.cut (h : InSync codec s) {req : MemoryRequest Fields} {second : Bool} {read : Nat}
    (hmost : s.phase.most = some (req, if second && req.isRetrySafe then 2 else 1))
    (hcalls : ∀ b ∈ s.cur.down, b.call = s.call)
    (hsettles : second = true →
      s.cur.gone = true ∧ s.cur.outbox = [] ∧ s.cur.down.length = read) :
    InSync codec ((s.takes read).fails req second true) := by
  refine (h.toAccounted.takes read hcalls).fails hmost ?_ ?_
  · rintro rfl
    exact le_rfl
  · intro hsecond
    obtain ⟨hgone, hout, rfl⟩ := hsettles hsecond
    exact ⟨.inr hgone, hout, List.drop_length⟩

theorem InSync.readFails (h : InSync codec s) (read : Nat)
    (hsettles : s.Settles (.readFails read)) : InSync codec (s.step codec (.readFails read)) := by
  simp only [Ipc.step]
  split
  next req second hphase =>
    split
    · refine h.cut (congrArg Phase.most hphase) (linked_awaitLen h.linked hphase).call_down ?_
      rintro rfl
      exact hsettles req (.inl hphase)
    · exact h
  next req second len hphase =>
    split
    · refine h.cut (congrArg Phase.most hphase) (linked_awaitBody h.linked hphase).call_down ?_
      rintro rfl
      exact hsettles req (.inr ⟨len, hphase⟩)
    · exact h
  · exact h

theorem Accounted.heal (h : Accounted codec s) :
    Accounted codec { s with cur := .fresh, old := s.cur :: s.old } := by
  refine ⟨?_, ?_, h.answers, h.clientReads, h.serverReads⟩
  · intro c hc
    rcases List.mem_cons.mp hc with rfl | hold
    · exact .inr (.inl rfl)
    · exact h.pure c hold
  · refine h.weighed.mono rfl rfl ?_ ?_
    · intro call
      rw [weight, weight, Ipc.conns, List.countP_cons_of_neg]
      · exact le_rfl
      · exact Bool.eq_false_iff.mp (not_ready_of_quiet ⟨.inl rfl, rfl, rfl⟩ call)
    · intro req n hmost
      exact ⟨n, le_rfl, hmost⟩

theorem InSync.reconnect (h : InSync codec s) (connects : Bool)
    (hsettles : s.Settles (.reconnect connects)) :
    InSync codec (s.step codec (.reconnect connects)) := by
  simp only [Ipc.step]
  split
  next req delivered hphase =>
    cases connects with
    | false => exact h.toAccounted.returns hsettles nofun
    | true =>
      have hhealed := h.toAccounted.heal
      have hquiet : Conn.fresh.Quiet := ⟨.inl rfl, rfl, rfl⟩
      simp only [Bool.not_true, Bool.false_eq_true, if_false]
      split
      next hretry =>
        refine ⟨⟨hhealed.pure, ?_, hhealed.answers, hhealed.clientReads, hhealed.serverReads⟩,
          hquiet⟩
        refine hhealed.weighed.mono rfl rfl (fun _ => le_rfl) ?_
        intro req' n hmost
        obtain ⟨rfl, rfl⟩ := Prod.mk.inj (Option.some.inj hmost)
        refine ⟨if delivered then 1 else 0, ?_, congrArg Phase.most hphase⟩
        cases delivered with
        | false => exact Nat.zero_le _
        | true =>
          rw [Bool.not_true, Bool.false_or] at hretry
          rw [hretry]
          exact le_rfl
      · exact hhealed.returns hquiet nofun
  · exact h

theorem conns_setConn (s : Ipc Fields Response) (i : Nat) (c : Conn) :
    (s.setConn i c).conns = s.conns.set i c := by
  cases i <;> rfl

theorem Awaits.mono {dispatched dispatched' : List (Dispatch Fields Response)} {call : Nat}
    {req : MemoryRequest Fields} {c : Conn} (h : Awaits codec dispatched call req c)
    (hsub : dispatched ⊆ dispatched') : Awaits codec dispatched' call req c := by
  cases h with
  | sent hup hout hdown => exact .sent hup hout hdown
  | answered hd hfor hlength hup hcoming => exact .answered (hsub hd) hfor hlength hup hcoming
  | lost hgone hout hdown => exact .lost hgone hout hdown

theorem AwaitsRest.mono {dispatched dispatched' : List (Dispatch Fields Response)} {call len : Nat}
    {req : MemoryRequest Fields} {c : Conn} (h : AwaitsRest codec dispatched call req len c)
    (hsub : dispatched ⊆ dispatched') : AwaitsRest codec dispatched' call req len c := by
  obtain ⟨d, hd, hrest⟩ := h
  exact ⟨d, hsub hd, hrest⟩

theorem Linked.of_step (h : Linked codec s) (hphase : s'.phase = s.phase)
    (hquiet : s.cur.Quiet → s'.cur.Quiet)
    (hawaits : ∀ req, Awaits codec s.dispatched s.call req s.cur →
      Awaits codec s'.dispatched s'.call req s'.cur)
    (hrest : ∀ req len, AwaitsRest codec s.dispatched s.call req len s.cur →
      AwaitsRest codec s'.dispatched s'.call req len s'.cur) : Linked codec s' := by
  unfold Linked at h ⊢
  rw [hphase]
  split at h
  · exact hquiet h
  · exact hquiet h
  · exact hawaits _ h
  · exact hrest _ _ h
  · trivial

theorem InSync.setConn (h : InSync codec s) {i : Nat} {c c' : Conn} (hc : s.conns[i]? = some c)
    {frames : List (List Marked)} {dispatches : List (Dispatch Fields Response)}
    (hpure : c'.Pure codec)
    (hweight : ∀ call, (if c'.ready call then 1 else 0) +
      (dispatches.countP fun d => callOf d.frame = call) ≤ if c.ready call then 1 else 0)
    (hframes : ∀ bytes ∈ frames, ∀ b ∈ bytes, ∀ b' ∈ bytes, b.call = b'.call)
    (hquiet : c.Quiet → c'.Quiet)
    (hawaits : ∀ req, Awaits codec s.dispatched s.call req c →
      Awaits codec (s.dispatched ++ dispatches) s.call req c')
    (hrest : ∀ req len, AwaitsRest codec s.dispatched s.call req len c →
      AwaitsRest codec (s.dispatched ++ dispatches) s.call req len c') :
    InSync codec { s.setConn i c' with
      frames := s.frames ++ frames, dispatched := s.dispatched ++ dispatches } := by
  generalize hafter : { s.setConn i c' with
    frames := s.frames ++ frames, dispatched := s.dispatched ++ dispatches } = s'
  have hconns : s'.conns = s.conns.set i c' := by
    rw [← hafter]
    exact conns_setConn s i c'
  have hkept : s'.phase = s.phase ∧ s'.call = s.call ∧ s'.begun = s.begun ∧
      s'.reads = s.reads ∧ s'.replies = s.replies := by
    rw [← hafter]
    cases i <;> exact ⟨rfl, rfl, rfl, rfl, rfl⟩
  have hdispatched : s'.dispatched = s.dispatched ++ dispatches := by rw [← hafter]
  obtain ⟨hphase, hcall, hbegun, hreads, hreplies⟩ := hkept
  obtain ⟨hi, hget⟩ := List.getElem?_eq_some_iff.mp hc
  have hsub : s.dispatched ⊆ s'.dispatched := hdispatched ▸ List.subset_append_left _ _
  refine ⟨⟨?_, ?_, ?_, ?_, ?_⟩, ?_⟩
  · intro other hother
    rw [hconns] at hother
    rcases List.mem_or_eq_of_mem_set hother with hold | rfl
    · exact h.pure other hold
    · exact hpure
  · refine h.weighed.mono hcall hbegun ?_ ?_
    · intro call
      have hbefore : (if c.ready call then 1 else 0) ≤ s.conns.countP (·.ready call) := by
        split
        next hready => exact List.countP_pos_iff.mpr ⟨c, List.mem_of_getElem? hc, hready⟩
        · exact Nat.zero_le _
      have hstep := hweight call
      rw [weight, weight, hconns, hdispatched, List.countP_append, List.countP_set hi, hget]
      omega
    · intro req n hmost
      exact ⟨n, le_rfl, hphase ▸ hmost⟩
  · intro reply hreply r hr
    obtain ⟨d, hd, hrest⟩ := h.answers reply (hreplies ▸ hreply) r hr
    exact ⟨d, hsub hd, hrest⟩
  · rw [hreads]
    exact h.clientReads
  · intro bytes hbytes
    rw [← hafter] at hbytes
    rcases List.mem_append.mp hbytes with hold | hnew
    · exact h.serverReads bytes hold
    · exact hframes bytes hnew
  · cases i with
    | zero =>
      obtain rfl : s.cur = c := Option.some.inj hc
      rw [← hafter]
      exact h.linked.of_step rfl hquiet hawaits hrest
    | succ i =>
      have hcur : s'.cur = s.cur := by rw [← hafter]; rfl
      refine h.linked.of_step hphase ?_ ?_ ?_
      · rw [hcur]
        exact id
      · intro req hbefore
        rw [hcall, hcur]
        exact hbefore.mono hsub
      · intro req len hbefore
        rw [hcall, hcur]
        exact hbefore.mono hsub

theorem mark_frame_inj {call call' : Nat} {payload payload' : List UInt8}
    (h : mark call (frame payload) = mark call' (frame payload')) :
    call = call' ∧ payload = payload' := by
  have hcall := congrArg callOf h
  rw [callOf_mark (frame_ne_nil _), callOf_mark (frame_ne_nil _)] at hcall
  have hpayload := congrArg (fun bytes => (values bytes).drop 4) h
  simp only [values_mark, drop_frame] at hpayload
  exact ⟨hcall, hpayload⟩

theorem countP_dispatch_le {c : Conn} {call : Nat} (hready : c.ready call = true)
    (req : MemoryRequest Fields) (response : Response) (other : Nat) :
    ([(⟨c.up, req, response⟩ : Dispatch Fields Response)].countP fun d => callOf d.frame = other) ≤
      if c.ready other then 1 else 0 := by
  obtain ⟨hlive, hwhole, -⟩ := Conn.ready_iff.mp hready
  rw [List.countP_singleton]
  split
  next hother =>
    rw [if_pos (Conn.ready_iff.mpr ⟨hlive, hwhole, of_decide_eq_true hother⟩)]
  · exact Nat.zero_le _

theorem Awaits.ends {dispatched dispatched' : List (Dispatch Fields Response)} {call : Nat}
    {req : MemoryRequest Fields} {c c' : Conn} (h : Awaits codec dispatched call req c)
    (hne : c.up ≠ []) (hgone : c'.gone = true) (hout : c'.outbox = c.outbox)
    (hdown : c'.down = c.down) : Awaits codec dispatched' call req c' := by
  cases h with
  | sent _ hempty hnone | lost _ hempty hnone =>
    exact .lost hgone (hout.trans hempty) (hdown.trans hnone)
  | answered _ _ _ hup _ => exact absurd hup hne

theorem InSync.serve (h : InSync codec s) (i : Nat) (response : Response) :
    InSync codec (s.step codec (.serve i response)) := by
  simp only [Ipc.step]
  split
  · exact h
  next served hserved =>
    obtain ⟨c, hc, hserve⟩ := Option.bind_eq_some_iff.mp hserved
    have hne := up_ne_nil_of_serve hserve
    obtain ⟨hcases, hlive⟩ :=
      serveConnection_cases (h.pure c (List.mem_of_getElem? hc)) hserve
    have hnotRest {req : MemoryRequest Fields} {len : Nat} :
        ¬AwaitsRest codec s.dispatched s.call req len c := by
      rintro ⟨d, -, -, -, hup, -⟩
      exact hne hup
    cases hcases with
    | @rejected up bytes hbytes =>
      refine h.setConn hc (.inl rfl) ?_ ?_ (fun hquiet => ⟨.inr rfl, hquiet.2⟩) ?_
        fun _ _ hrest => absurd hrest hnotRest
      · intro call
        rw [ready_of_gone rfl]
        exact Nat.zero_le _
      · intro read hread
        obtain rfl := List.mem_singleton.mp hread
        exact hbytes
      · intro req hawaits
        exact hawaits.ends hne rfl rfl rfl
    | @unanswered call req hready hup =>
      refine h.setConn hc (.inl rfl) ?_ ?_ (fun hquiet => ⟨.inr rfl, hquiet.2⟩) ?_
        fun _ _ hrest => absurd hrest hnotRest
      · intro other
        rw [ready_of_gone rfl, if_neg Bool.false_ne_true, Nat.zero_add]
        exact countP_dispatch_le hready req response other
      · intro read hread b hb b' hb'
        obtain rfl := List.mem_singleton.mp hread
        rw [hup] at hb hb'
        rw [call_of_mem_mark hb, call_of_mem_mark hb']
      · intro req' hawaits
        exact hawaits.ends hne rfl rfl rfl
    | @answered call req hready hup hdecode hlength =>
      refine h.setConn hc (.inr (.inl rfl)) ?_ ?_ ?_ ?_ fun _ _ hrest => absurd hrest hnotRest
      · intro other
        rw [ready_of_empty rfl, if_neg Bool.false_ne_true, Nat.zero_add]
        exact countP_dispatch_le hready req response other
      · intro read hread b hb b' hb'
        obtain rfl := List.mem_singleton.mp hread
        rw [hup] at hb hb'
        rw [call_of_mem_mark hb, call_of_mem_mark hb']
      · intro hquiet
        rcases hquiet.1 with hempty | hgone
        · exact absurd hempty hne
        · exact absurd (hlive.symm.trans hgone) Bool.false_ne_true
      · intro req' hawaits
        cases hawaits with
        | sent hup' hout hdown =>
          obtain ⟨rfl, hencode⟩ := mark_frame_inj (hup.symm.trans hup')
          obtain rfl := codec.request_sound req' req (hencode ▸ hdecode)
          refine .answered (d := ⟨c.up, req, response⟩) ?_ ⟨rfl, ?_⟩ hlength rfl ?_
          · exact List.mem_append_right _ List.mem_cons_self
          · intro b hb
            rw [hup] at hb
            exact call_of_mem_mark hb
          · rw [hout, hdown]
            exact List.prefix_rfl
        | answered _ _ _ hempty _ => exact absurd hempty hne
        | lost hgone _ _ => exact absurd (hlive.symm.trans hgone) Bool.false_ne_true

theorem InSync.setConn_idle (h : InSync codec s) {i : Nat} {c c' : Conn}
    (hc : s.conns[i]? = some c) (hpure : c'.Pure codec)
    (hready : ∀ call, c'.ready call = true → c.ready call = true)
    (hquiet : c.Quiet → c'.Quiet)
    (hawaits : ∀ req, Awaits codec s.dispatched s.call req c →
      Awaits codec s.dispatched s.call req c')
    (hrest : ∀ req len, AwaitsRest codec s.dispatched s.call req len c →
      AwaitsRest codec s.dispatched s.call req len c') : InSync codec (s.setConn i c') := by
  have hnothing : InSync codec { s.setConn i c' with
      frames := s.frames ++ [], dispatched := s.dispatched ++ [] } := by
    refine h.setConn hc hpure ?_ nofun hquiet ?_ ?_
    · intro call
      split
      next hafter => rw [if_pos (hready call hafter)]; rfl
      · exact Nat.zero_le _
    · rwa [List.append_nil]
    · rwa [List.append_nil]
  simp only [List.append_nil] at hnothing
  cases i <;> exact hnothing

theorem InSync.deliver (h : InSync codec s) (i bytes : Nat) :
    InSync codec (s.step codec (.deliver i bytes)) := by
  simp only [Ipc.step]
  split
  · exact h
  next c hc =>
    have hcoming : (c.down ++ c.outbox.take bytes) ++ c.outbox.drop bytes = c.down ++ c.outbox := by
      rw [List.append_assoc, List.take_append_drop]
    refine h.setConn_idle hc (h.pure c (List.mem_of_getElem? hc)) (fun _ hready => hready) ?_ ?_ ?_
    · rintro ⟨hup, hout, hdown⟩
      exact ⟨hup, by simp [hout], by simp [hout, hdown]⟩
    · intro req hawaits
      cases hawaits with
      | sent hup hout hdown => exact .sent hup (by simp [hout]) (by simp [hout, hdown])
      | answered hd hfor hlength hup hpart =>
        exact .answered hd hfor hlength hup (hcoming ▸ hpart)
      | lost hgone hout hdown => exact .lost hgone (by simp [hout]) (by simp [hout, hdown])
    · rintro req len ⟨d, hd, hfor, hlen, hup, hpart⟩
      exact ⟨d, hd, hfor, hlen, hup, hcoming ▸ hpart⟩

theorem InSync.die (h : InSync codec s) (i kept : Nat) :
    InSync codec (s.step codec (.die i kept)) := by
  simp only [Ipc.step]
  split
  · exact h
  next c hc =>
    have hcut : c.down ++ c.outbox.take kept <+: c.down ++ c.outbox :=
      (List.prefix_append_right_inj _).mpr (List.take_prefix _ _)
    refine h.setConn_idle hc (.inl rfl) ?_ ?_ ?_ ?_
    · intro call hready
      rw [ready_of_gone rfl] at hready
      cases hready
    · rintro ⟨hup, hout, hdown⟩
      exact ⟨.inr rfl, by simp [hout], hdown⟩
    · intro req hawaits
      cases hawaits with
      | sent hup hout hdown => exact .lost rfl (by simp [hout]) hdown
      | answered hd hfor hlength hup hpart =>
        exact .answered hd hfor hlength hup (hcut.trans hpart)
      | lost hgone hout hdown => exact .lost rfl (by simp [hout]) hdown
    · rintro req len ⟨d, hd, hfor, hlen, hup, hpart⟩
      exact ⟨d, hd, hfor, hlen, hup, hcut.trans hpart⟩

end Sync

theorem InSync.step {Fields Response : Type} {codec : IpcCodec Fields Response}
    (s : Ipc Fields Response) (e : IpcEvent Fields Response) (hsettles : s.Settles e)
    (h : InSync codec s) : InSync codec (s.step codec e) := by
  cases e with
  | call req => exact h.call req
  | wrote => exact h.wrote
  | writeFails written => exact h.writeFails written hsettles
  | readLen => exact h.readLen hsettles
  | readBody => exact h.readBody
  | readFails read => exact h.readFails read hsettles
  | reconnect connects => exact h.reconnect connects hsettles
  | serve i response => exact h.serve i response
  | deliver i bytes => exact h.deliver i bytes
  | die i kept => exact h.die i kept

/-- The promise is kept along every run in which no call ends in an error on a stream that still
has something to come. -/
theorem ipcPromise_of_settles {Fields Response : Type} (codec : IpcCodec Fields Response)
    (events : List (IpcEvent Fields Response))
    (hsettles : ∀ t ∈ (ipcMachine codec).trace .init events, t.before.Settles t.event) :
    IpcPromise ((ipcMachine codec).run .init events) :=
  ((ipcMachine codec).invariant_run_of InSync.step inSync_init events hsettles).promise

inductive PlainResponse where
  | pong
  | count
  deriving DecidableEq

def PlainResponse.text : PlainResponse → List UInt8
  | .pong => utf8 "\x7b\"ok\":\"pong\"\x7d".toList
  | .count => utf8 "\x7b\"ok\":\"count\",\"value\":3\x7d".toList

def pingText : List UInt8 := utf8 "\x7b\"op\":\"ping\"\x7d".toList

def pruneText : List UInt8 := utf8 "\x7b\"op\":\"prune_expired_sensory\"\x7d".toList

def encodePlain (req : MemoryRequest Unit) : List UInt8 :=
  match req.kind with
  | .ping => pingText
  | .pruneExpiredSensory => pruneText
  | _ => []

def decodePlain (bytes : List UInt8) : Option (MemoryRequest Unit) :=
  if bytes = pingText then some ⟨.ping, ()⟩
  else if bytes = pruneText then some ⟨.pruneExpiredSensory, ()⟩ else none

theorem decodePlain_encodePlain (kind : RequestKind) : decodePlain (encodePlain ⟨kind, ()⟩) =
    if kind = .ping ∨ kind = .pruneExpiredSensory then some ⟨kind, ()⟩ else none := by
  cases kind <;> decide

def plainCodec : IpcCodec Unit PlainResponse where
  encodeRequest := encodePlain
  decodeRequest := decodePlain
  encodeResponse := PlainResponse.text
  decodeResponse bytes :=
    if bytes = PlainResponse.pong.text then some .pong
    else if bytes = PlainResponse.count.text then some .count else none
  request_sound := by
    rintro ⟨kind, ⟨⟩⟩ req' h
    rw [decodePlain_encodePlain] at h
    split at h
    · exact (Option.some.inj h).symm
    · cases h
  response_sound := by
    intro r r'
    cases r <;> cases r' <;> decide

/-- The answer is late, the client connects again, and the second exchange is answered. -/
def healedCall : List (IpcEvent Unit PlainResponse) :=
  [.call ⟨.ping, ()⟩, .wrote, .readFails 0, .reconnect true, .wrote, .serve 0 .pong, .serve 1 .pong,
    .deliver 1 100, .deliver 0 100, .readLen, .readBody]

theorem healedCall_keeps_promise :
    IpcPromise ((ipcMachine plainCodec).run .init healedCall) ∧
      (((ipcMachine plainCodec).run .init healedCall).replies.map Reply.result) = [some .pong] := by
  refine ⟨ipcPromise_of_settles plainCodec healedCall ?_, by decide⟩
  intro t ht
  simp only [healedCall, Machine.trace, List.mem_cons, List.not_mem_nil, or_false] at ht
  rcases ht with rfl | rfl | rfl | rfl | rfl | rfl | rfl | rfl | rfl | rfl | rfl
  case inr.inr.inl =>
    rintro req (h | ⟨len, h⟩) <;> cases h
  case inr.inr.inr.inr.inr.inr.inr.inr.inr.inl =>
    intro req h
    decide
  all_goals trivial

/-- The answer is late, the client cannot connect again, and the next call reads it. -/
def lateAnswer : List (IpcEvent Unit PlainResponse) :=
  [.call ⟨.pruneExpiredSensory, ()⟩, .wrote, .readFails 0, .reconnect false, .serve 0 .count,
    .deliver 0 100, .call ⟨.ping, ()⟩, .wrote, .readLen, .readBody]

theorem lateAnswer_breaks_promise :
    ¬IpcPromise ((ipcMachine plainCodec).run .init lateAnswer) ∧
      (((ipcMachine plainCodec).run .init lateAnswer).replies.map fun reply =>
        (reply.request.kind, reply.result)) =
          [(.pruneExpiredSensory, none), (.ping, some .count)] := by
  refine ⟨?_, by decide⟩
  intro h
  have hread : ∃ entry ∈ ((ipcMachine plainCodec).run .init lateAnswer).reads,
      entry.1 = 2 ∧ ∃ b ∈ entry.2, b.call ≠ 2 := by decide
  obtain ⟨entry, hentry, hcall, b, hb, hother⟩ := hread
  exact hother ((h.clientReads entry hentry b hb).trans hcall)

end Simard.Memory
