import Ssh2Python.Connection
import Ssh2Python.Lib.Credit
import Mathlib.Logic.Relation

/-!
# A channel and its other end

The two ends of one channel, among the other channels of its session. The other end keeps to the
rules of the protocol: it sends what it has credit for, grants what its window can take, and sends
nothing after it has ended the channel. Packets are under way in both directions, and arrive in
their order. A `LineStep` is something that the other end does, or a call of the client, to this
channel or to another one, during which any number of packets arrive and the socket takes what it
likes.
-/

namespace Ssh2Python

open Lib.CInt Lib.Credit Lib.Outgoing Lib.Wire

/-! ## Messages -/

/-- What data is for: `SSH_MSG_CHANNEL_DATA`, or `SSH_MSG_CHANNEL_EXTENDED_DATA` with its code. -/
inductive StreamTag
  | standard
  | extended (code : Nat)
  deriving DecidableEq, Repr

inductive ChannelMessage
  | data (tag : StreamTag) (bytes : List UInt8)
  | windowAdjust (n : Nat)
  | eof
  | close
  deriving DecidableEq, Repr

def ChannelMessage.encode (id : Nat) : ChannelMessage → List UInt8
  | .data .standard bytes => [msgData] ++ store 4 id ++ store 4 bytes.length ++ bytes
  | .data (.extended code) bytes =>
    [msgExtendedData] ++ store 4 id ++ store 4 code ++ store 4 bytes.length ++ bytes
  | .windowAdjust n => [msgWindowAdjust] ++ store 4 id ++ store 4 n
  | .eof => [msgEof] ++ store 4 id
  | .close => [msgClose] ++ store 4 id

/-- How the other end takes a packet for its channel `id` apart. -/
def decodeMessage (id : Nat) (p : List UInt8) : Option ChannelMessage :=
  if recipient p ≠ id then none
  else if p.headD 0 = msgWindowAdjust then some (.windowAdjust (operand p))
  else if p.headD 0 = msgData then some (.data .standard ((p.drop 9).take (operand p)))
  else if p.headD 0 = msgExtendedData then
    some (.data (.extended (operand p)) ((p.drop 13).take (value ((p.drop 9).take 4))))
  else none

/-- A packet on its way to the client: about the channel, or about something else. -/
inductive Incoming
  | own (m : ChannelMessage)
  | foreign (payload : List UInt8)
  deriving DecidableEq, Repr

def Incoming.encode (id : Nat) : Incoming → List UInt8
  | .own m => m.encode id
  | .foreign payload => payload

/-- A packet that is not about the channel, and of no type that the session has its own use for. -/
def Foreign (id : Nat) (payload : List UInt8) : Prop :=
  payload.headD 0 ∉ ([0, 1, 2, 4, 7, 20, 80, 90, 98] : List UInt8) ∧
    (payload.headD 0 ∈ [msgWindowAdjust, msgData, msgExtendedData, msgEof, msgClose] →
      recipient payload ≠ id)

/-! ## The other end -/

structure PeerEnd where
  /-- The number of the channel at this end. -/
  id : Nat
  /-- What it may still send. -/
  credit : Nat
  /-- What it is ready to receive. -/
  window : Nat
  sent : List (StreamTag × List UInt8) := []
  received : List (StreamTag × List UInt8) := []
  ended : Bool := false
  deriving DecidableEq, Repr

/-- What the other end does with a packet. -/
def PeerEnd.take (peer : PeerEnd) (p : List UInt8) : PeerEnd :=
  match decodeMessage peer.id p with
  | some (.windowAdjust n) => { peer with credit := peer.credit + n }
  | some (.data tag bytes) =>
    { peer with window := peer.window - bytes.length, received := peer.received ++ [(tag, bytes)] }
  | _ => peer

/-- A session, the other end of one of its channels, and what is under way to the client. `reads`
are what the program has read from the channel, with the streams, and `wrote` what it has
written. -/
structure Line where
  session : Session
  inbox : List Incoming := []
  peer : PeerEnd
  reads : List (Int × List UInt8) := []
  wrote : List (StreamTag × List UInt8) := []
  deriving DecidableEq, Repr

/-! ## Calls -/

/-- A call of the client, to one of the channels. -/
inductive LineCall
  | read (streamId : Int) (buflen : Nat)
  | readEx (streamId : Int) (buflen : Nat)
  | write (streamId : Int) (buf : List UInt8)
  | adjust (adjustment : Nat) (force : Bool)
  deriving DecidableEq, Repr

def LineCall.run (s : Session) (id : Nat) : LineCall → Session
  | .read streamId buflen => (s.channelRead id streamId buflen).2
  | .readEx streamId buflen => (s.channelReadEx id streamId buflen).2
  | .write streamId buf => (s.channelWrite id streamId buf).2
  | .adjust adjustment force => (s.receiveWindowAdjust id adjustment force).2

/-- What a call has read. -/
def LineCall.got (s : Session) (id : Nat) : LineCall → List (Int × List UInt8)
  | .read streamId buflen =>
    ((s.channelRead id streamId buflen).1.toOption.map (streamId, ·)).toList
  | .readEx streamId buflen =>
    ((s.channelReadEx id streamId buflen).1.toOption.map (streamId, ·)).toList
  | _ => []

def streamTag (streamId : Int) : StreamTag :=
  if streamId = 0 then .standard else .extended (wrap32 streamId)

/-- What a call has written. -/
def LineCall.gave (s : Session) (id : Nat) : LineCall → List (StreamTag × List UInt8)
  | .write streamId buf =>
    ((s.channelWrite id streamId buf).1.toOption.map (streamTag streamId, buf.take ·)).toList
  | _ => []

/-- An adjustment that is under way is not finished with another amount, and a new one does not make
the window overflow. -/
def AdjustsEvenly (s : Session) (id adjustment : Nat) : Prop :=
  if (s.chan id).adjustState = .idle then
    (s.chan id).remoteEnd.windowSize + adjustment + (s.chan id).adjustQueue < 2 ^ 32
  else s.socket.headD .stuck = .through → adjustment = operand (s.chan id).adjustAdjust

def ReadsEvenly (s : Session) (id buflen : Nat) : Prop :=
  (s.chan id).readState = .jump1 ∨
      (s.chan id).remoteEnd.windowSize < (s.chan id).remoteEnd.windowSizeInitial / 4 * 3 + buflen →
    AdjustsEvenly s id ((s.chan id).readAdjustment buflen)

/-- A call that goes on with a packet that is under way was made with the same arguments before. -/
def LineCall.Repeats (s : Session) (id : Nat) : LineCall → Prop
  | .read _ buflen => ReadsEvenly s id buflen
  | .readEx _ buflen =>
    if (s.chan id).remoteEnd.windowSize < buflen then
      AdjustsEvenly s id (wrap32 buflen) ∧
        ReadsEvenly (s.receiveWindowAdjust id (wrap32 buflen) true).2 id buflen
    else ReadsEvenly s id buflen
  | .write streamId buf => (s.chan id).writeState ≠ .idle →
    (s.chan id).writeBufwrite ≤ buf.length ∧
      (s.chan id).writePacket = writeHead (s.chan id) streamId (s.chan id).writeBufwrite ∧
      ∀ n payload, s.outbox.pending = some ((.writePacket id, n), payload) →
        payload = (s.chan id).writePacket ++ buf.take (s.chan id).writeBufwrite
  | .adjust adjustment _ => AdjustsEvenly s id adjustment

namespace Line

/-- The session during a call: the first `arrive` packets can be read, and the socket answers. -/
def during (l : Line) (c : Nat) (socket : List Push) (arrive : Nat) : Session :=
  { l.session with
    socket := socket, inbound := (l.inbox.take arrive).map (Incoming.encode c), pause := eagain }

/-- The line after a call, where `s` is what the call made of the session. -/
def after (l : Line) (c id : Nat) (s s' : Session) (call : LineCall) : Line where
  session := s'
  inbox := l.inbox.drop (s.inbound.length - s'.inbound.length)
  peer := l.peer
  reads := l.reads ++ if id = c then call.got s id else []
  wrote := l.wrote ++ if id = c then call.gave s id else []

end Line

/-- What happens on a line: the channel `c` of the client and its other end. -/
inductive LineStep (c : Nat) : Line → Line → Prop
  | send (l : Line) (tag : StreamTag) (bytes : List UInt8) (goes : l.peer.ended = false)
      (credit : bytes.length ≤ l.peer.credit)
      (size : bytes.length ≤ (l.session.chan c).remoteEnd.packetSize)
      (code : ∀ n, tag = .extended n → n < 2 ^ 32 ∧ (l.session.chan c).ignoreMode ≠ .ignore) :
      LineStep c l { l with
        inbox := l.inbox ++ [.own (.data tag bytes)]
        peer := { l.peer with
          credit := l.peer.credit - bytes.length, sent := l.peer.sent ++ [(tag, bytes)] } }
  | stop (l : Line) (m : ChannelMessage) (ends : m = .eof ∨ m = .close) :
      LineStep c l { l with
        inbox := l.inbox ++ [.own m], peer := { l.peer with ended := true } }
  | grant (l : Line) (n : Nat) (room : l.peer.window + n < 2 ^ 32) :
      LineStep c l { l with
        inbox := l.inbox ++ [.own (.windowAdjust n)]
        peer := { l.peer with window := l.peer.window + n } }
  | arrive (l : Line) (payload : List UInt8) (foreign : Foreign c payload) :
      LineStep c l { l with inbox := l.inbox ++ [.foreign payload] }
  | take (l : Line) (p : List UInt8) (rest : List (List UInt8))
      (first : l.session.outbox.gone = p :: rest) :
      LineStep c l { l with
        session := { l.session with outbox := { l.session.outbox with gone := rest } }
        peer := l.peer.take p }
  | call (l : Line) (id : Nat) (call : LineCall) (socket : List Push) (n : Nat)
      (opened : (l.session.locate id).isSome) (works : .broken ∉ socket)
      (repeats : id = c → call.Repeats (l.during c socket n) c) :
      LineStep c l (l.after c id (l.during c socket n) (call.run (l.during c socket n) id) call)
  | other (l : Line) (address : Nat) (payload : List UInt8) (socket : List Push)
      (works : .broken ∉ socket) (foreign : decodeMessage l.peer.id payload = none) :
      LineStep c l { l with
        session := (({ l.session with socket := socket }).transportSend (.elsewhere address) payload
          []).2 }

/-- What can become of a line. -/
def LineRun (c : Nat) : Line → Line → Prop :=
  Relation.ReflTransGen (LineStep c)

/-! ## Two links -/

/-- The program that reads `streamId` gets data with this tag. -/
def StreamTag.wantedBy (mode : IgnoreMode) (streamId : Int) : StreamTag → Bool
  | .standard => streamId = 0
  | .extended code => streamId ≠ 0 ∧ streamId = toInt32 code ∨ streamId = 0 ∧ mode = .merge

/-- Data of one stream, or all data. -/
def StreamTag.among (which : Option StreamTag) (tag : StreamTag) : Bool :=
  which = none ∨ which = some tag

def Incoming.dataPart : Incoming → Option (StreamTag × List UInt8)
  | .own (.data tag bytes) => some (tag, bytes)
  | _ => none

def Incoming.grantPart : Incoming → Option Nat
  | .own (.windowAdjust n) => some n
  | _ => none

/-- The data in a packet that the client has sent to the channel `id` of the other end. -/
def sentData (id : Nat) (p : List UInt8) : Option (StreamTag × List UInt8) :=
  match decodeMessage id p with
  | some (.data tag bytes) => some (tag, bytes)
  | _ => none

def sentGrant (id : Nat) (p : List UInt8) : Option Nat :=
  match decodeMessage id p with
  | some (.windowAdjust n) => some n
  | _ => none

/-- What is still in the packets of a channel, with what it is for. -/
def Packet.chunk (p : Packet) : StreamTag × List UInt8 :=
  (if p.data.headD 0 = msgExtendedData then .extended (operand p.data) else .standard,
    p.data.drop p.dataHead)

def chunksOf (c : Nat) (ps : List Packet) : List (StreamTag × List UInt8) :=
  (ps.filter (Session.queued c)).map Packet.chunk

/-- The line as a link from the other end to the program. -/
def Line.receiving (c : Nat) (l : Line) : Link Int StreamTag UInt8 where
  sent := l.peer.sent
  credit := l.peer.credit
  grants := l.session.outbox.gone.filterMap (sentGrant l.peer.id)
  flight := l.inbox.filterMap Incoming.dataPart
  buffer := chunksOf c l.session.packets
  window := (l.session.chan c).remoteEnd.windowSize
  taken := l.reads

/-- The line as a link from the program to the other end, which keeps what it gets. -/
def Line.sending (c : Nat) (l : Line) : Link (Option StreamTag) StreamTag UInt8 where
  sent := l.wrote
  credit := (l.session.chan c).localEnd.windowSize
  grants := l.inbox.filterMap Incoming.grantPart
  flight := l.session.outbox.gone.filterMap (sentData l.peer.id)
  buffer := l.peer.received
  window := l.peer.window + size l.peer.received
  taken := []

end Ssh2Python
