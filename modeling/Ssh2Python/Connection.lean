import Ssh2Python.Errors
import Ssh2Python.Lib.CInt
import Ssh2Python.Lib.Outgoing
import Ssh2Python.Lib.Wire

/-!
# Channels of a connection

The data of channels: `channel.c`, and what `packet.c` makes of the packets that are about them. All
channels of a session share the list of packets that were read (`packets`), and the one packet that
is being sent (`outbox`). What the socket does is part of a session: how it takes the next packets
that are sent (`socket`), the packets that can be read (`inbound`), and what the transport layer
says when there are no more of them (`pause`).
-/

namespace Ssh2Python

open Lib.CInt Lib.Outgoing Lib.Wire

/-! ## Data -/

/-- A number on its way to a `uint32_t`. -/
def wrap32 (x : Int) : Nat :=
  (toUInt32 x).toNat

/-- `libssh2_channel_data` -/
structure ChannelEnd where
  id : Nat := 0
  windowSizeInitial : Nat := 0
  windowSize : Nat := 0
  packetSize : Nat := 0
  close : Bool := false
  eof : Bool := false
  deriving DecidableEq, Repr

/-- `LIBSSH2_CHANNEL_EXTENDED_DATA_NORMAL` and its siblings. -/
inductive IgnoreMode
  | normal
  | ignore
  | merge
  deriving DecidableEq, Repr

/-- `libssh2_nonblocking_states`, those of the functions below. -/
inductive NbState
  | idle
  | created
  | jump1
  deriving DecidableEq, Repr

/-- `LIBSSH2_CHANNEL`. The local end is the source of what is written, the remote end of what is
read. -/
structure ChannelState where
  localEnd : ChannelEnd := {}
  remoteEnd : ChannelEnd := {}
  /-- `remote.extended_data_ignore_mode` -/
  ignoreMode : IgnoreMode := .normal
  adjustQueue : Nat := 0
  readAvail : Nat := 0
  adjustState : NbState := .idle
  adjustAdjust : List UInt8 := []
  readState : NbState := .idle
  writeState : NbState := .idle
  writePacket : List UInt8 := []
  writeBufwrite : Nat := 0
  deriving DecidableEq, Repr

/-- `LIBSSH2_PACKET` -/
structure Packet where
  data : List UInt8
  dataHead : Nat
  deriving DecidableEq, Repr

/-- The memory that a packet is sent from: a member of a channel, or something else. -/
inductive Area
  | adjustAdjust (id : Nat)
  | writePacket (id : Nat)
  | elsewhere (address : Nat)
  deriving DecidableEq, Repr

/-- `LIBSSH2_SESSION` -/
structure Session where
  channels : List ChannelState
  packets : List Packet := []
  /-- `packAdd_channelp`, and the length of its packet, while `packAdd_state` is not idle. -/
  packAdd : Option (Nat × Nat) := none
  outbox : Outbox (Area × Nat) (List UInt8) := {}
  socket : List Push := []
  inbound : List (List UInt8) := []
  pause : Int := eagain
  deriving DecidableEq, Repr

def minAdjust : Nat := 1024

/-- `SSH_MSG_CHANNEL_WINDOW_ADJUST` -/
def msgWindowAdjust : UInt8 := 93

/-- `SSH_MSG_CHANNEL_DATA` -/
def msgData : UInt8 := 94

/-- `SSH_MSG_CHANNEL_EXTENDED_DATA` -/
def msgExtendedData : UInt8 := 95

/-- `SSH_MSG_CHANNEL_EOF` -/
def msgEof : UInt8 := 96

/-- `SSH_MSG_CHANNEL_CLOSE` -/
def msgClose : UInt8 := 97

/-- The number of the channel in a packet. -/
def recipient (data : List UInt8) : Nat :=
  value ((data.drop 1).take 4)

/-- The number behind it: of bytes to add, or of the stream. -/
def operand (data : List UInt8) : Nat :=
  value ((data.drop 5).take 4)

namespace Session

/-- `_libssh2_channel_locate`, among the channels that are open. -/
def locate (s : Session) (id : Nat) : Option ChannelState :=
  s.channels.find? fun ch => ch.localEnd.id = id

def chan (s : Session) (id : Nat) : ChannelState :=
  (s.locate id).getD {}

def put (s : Session) (ch : ChannelState) : Session :=
  { s with channels := s.channels.map fun c => if c.localEnd.id = ch.localEnd.id then ch else c }

/-! ## Sending -/

/-- `_libssh2_transport_send`. A packet that is on its way already is known by its memory and the
length of its first part. -/
def transportSend (s : Session) (area : Area) (data data2 : List UInt8) : Int × Session :=
  let r := s.outbox.offer (area, data.length) (data ++ data2) (s.socket.headD .stuck)
  (match r.1 with
    | .gone => 0
    | .wait => eagain
    | .failed => ErrorCode.socketSend.value,
    { s with outbox := r.2, socket := s.socket.tail })

/-- `_libssh2_channel_receive_window_adjust`, once its state is created. -/
def sendAdjust (s : Session) (id adjustment : Nat) : Int × Session :=
  let ch := s.chan id
  let r := s.transportSend (.adjustAdjust id) ch.adjustAdjust []
  if r.1 = eagain then r
  else if r.1 ≠ 0 then
    (ErrorCode.socketSend.value, r.2.put { ch with adjustQueue := adjustment })
  else (0, r.2.put { ch with
    remoteEnd.windowSize := wrap32 (ch.remoteEnd.windowSize + adjustment), adjustState := .idle })

/-- `_libssh2_channel_receive_window_adjust` -/
def receiveWindowAdjust (s : Session) (id adjustment : Nat) (force : Bool) : Int × Session :=
  let ch := s.chan id
  if ch.adjustState = .idle then
    if force = false ∧ wrap32 (adjustment + ch.adjustQueue) < minAdjust then
      (0, s.put { ch with adjustQueue := wrap32 (ch.adjustQueue + adjustment) })
    else if adjustment = 0 ∧ ch.adjustQueue = 0 then (0, s)
    else
      let amount := wrap32 (adjustment + ch.adjustQueue)
      (s.put { ch with
        adjustQueue := 0
        adjustAdjust := [msgWindowAdjust] ++ store 4 ch.remoteEnd.id ++ store 4 amount
        adjustState := .created }).sendAdjust id amount
  else s.sendAdjust id adjustment

/-! ## Receiving -/

/-- Extended data that is ignored: the window shrinks, and is adjusted at once. -/
def ignoreData (s : Session) (ch : ChannelState) (datalen dataHead : Nat) : Int × Session :=
  let window := ch.remoteEnd.windowSize
  let kept :=
    if window ≤ ch.readAvail + datalen - dataHead then toSize (window - ch.readAvail + dataHead)
    else datalen
  let r := (s.put { ch with remoteEnd.windowSize := wrap32 (window - (kept - dataHead : Int)) }
    ).receiveWindowAdjust ch.localEnd.id (wrap32 (kept - 13 : Int)) true
  if r.1 = eagain then (eagain, { r.2 with packAdd := some (ch.localEnd.id, datalen) })
  else (0, r.2)

/-- Data for a channel goes to the packets, as much of it as there is room for. -/
def keepData (s : Session) (ch : ChannelState) (data : List UInt8) (dataHead : Nat) : Session :=
  let datalen :=
    if ch.remoteEnd.packetSize < data.length - dataHead then ch.remoteEnd.packetSize + dataHead
    else data.length
  let window := ch.remoteEnd.windowSize
  if window ≤ ch.readAvail then s
  else
    let datalen :=
      if window < ch.readAvail + datalen - dataHead then window - ch.readAvail + dataHead
      else datalen
    { s.put { ch with
        remoteEnd.eof := false, readAvail := ch.readAvail + (datalen - dataHead) } with
      packets := s.packets ++ [⟨data.take datalen, dataHead⟩] }

/-- `_libssh2_packet_add`, for the packets about the data of channels. Other packets are kept. -/
def packetAdd (s : Session) (data : List UInt8) : Int × Session :=
  let msg := data.headD 0
  if msg = msgExtendedData ∨ msg = msgData then
    let dataHead := if msg = msgExtendedData then 13 else 9
    match if dataHead ≤ data.length then s.locate (recipient data) else none with
    | none => (0, s)
    | some ch =>
      if ch.ignoreMode = .ignore ∧ msg = msgExtendedData then s.ignoreData ch data.length dataHead
      else (0, s.keepData ch data dataHead)
  else if msg = msgEof then
    match if 5 ≤ data.length then s.locate (recipient data) else none with
    | none => (0, s)
    | some ch => (0, s.put { ch with remoteEnd.eof := true })
  else if msg = msgClose then
    match if 5 ≤ data.length then s.locate (recipient data) else none with
    | none => (0, s)
    | some ch => (0, s.put { ch with remoteEnd.close := true, remoteEnd.eof := true })
  else if msg = msgWindowAdjust then
    match if 9 ≤ data.length then s.locate (recipient data) else none with
    | none => (0, s)
    | some ch =>
      (0, s.put { ch with
        localEnd.windowSize := wrap32 (ch.localEnd.windowSize + operand data) })
  else (0, { s with packets := s.packets ++ [⟨data, 0⟩] })

/-- `_libssh2_transport_read`: the next packet, or the end of the last one. -/
def transportRead (s : Session) : Int × Session :=
  match s.packAdd with
  | some (id, datalen) =>
    let r := s.receiveWindowAdjust id (wrap32 (datalen - 13 : Int)) true
    if r.1 = eagain then (eagain, r.2) else (msgExtendedData.toNat, { r.2 with packAdd := none })
  | none =>
    match s.inbound with
    | [] => (s.pause, s)
    | data :: rest =>
      let r := { s with inbound := rest }.packetAdd data
      if r.1 = 0 then ((data.headD 0).toNat, r.2) else r

/-- The loop over `_libssh2_transport_read`, for at most `n` packets. -/
def drainWithin : Nat → Session → Int × Session
  | 0, s => (s.pause, s)
  | n + 1, s => if 0 < s.transportRead.1 then drainWithin n s.transportRead.2 else s.transportRead

def drain (s : Session) : Int × Session :=
  drainWithin (s.inbound.length + 2) s

end Session

/-! ## Reading -/

/-- The packet holds data of the stream. -/
def ChannelState.wants (ch : ChannelState) (streamId : Int) (p : Packet) : Bool :=
  5 ≤ p.data.length ∧ ch.localEnd.id = recipient p.data ∧
    (streamId ≠ 0 ∧ p.data.headD 0 = msgExtendedData ∧ 9 ≤ p.data.length ∧
        streamId = toInt32 (operand p.data) ∨
      streamId = 0 ∧ p.data.headD 0 = msgData ∨
      streamId = 0 ∧ p.data.headD 0 = msgExtendedData ∧ ch.ignoreMode = .merge)

/-- The loop over the packets: at most `n` bytes, and the packets that are left. -/
def ChannelState.copyOut (ch : ChannelState) (streamId : Int) :
    Nat → List Packet → List UInt8 × List Packet
  | _, [] => ([], [])
  | n, p :: ps =>
    if n = 0 then ([], p :: ps)
    else if ch.wants streamId p then
      if p.data.length - p.dataHead ≤ n then
        (p.data.drop p.dataHead ++ (ch.copyOut streamId (n - (p.data.length - p.dataHead)) ps).1,
          (ch.copyOut streamId (n - (p.data.length - p.dataHead)) ps).2)
      else ((p.data.drop p.dataHead).take n, { p with dataHead := p.dataHead + n } :: ps)
    else ((ch.copyOut streamId n ps).1, p :: (ch.copyOut streamId n ps).2)

/-- What a read asks for when the window has become too narrow. -/
def ChannelState.readAdjustment (ch : ChannelState) (buflen : Nat) : Nat :=
  max (wrap32 (ch.remoteEnd.windowSizeInitial + buflen - ch.remoteEnd.windowSize)) minAdjust

namespace Session

/-- `_libssh2_channel_read`, after the window is wide enough. -/
def readOn (s : Session) (id : Nat) (streamId : Int) (buflen : Nat) :
    Except Int (List UInt8) × Session :=
  let r := s.drain
  if r.1 < 0 ∧ r.1 ≠ eagain then (.error r.1, r.2)
  else
    let ch := r.2.chan id
    let out := ch.copyOut streamId buflen r.2.packets
    let left := { r.2 with packets := out.2 }
    if out.1 = [] then
      if ch.remoteEnd.eof ∨ ch.remoteEnd.close ∨ r.1 ≠ eagain then (.ok [], left)
      else (.error eagain, left)
    else
      (.ok out.1, left.put { ch with
        readAvail := toSize (ch.readAvail - out.1.length)
        remoteEnd.windowSize := wrap32 (ch.remoteEnd.windowSize - out.1.length) })

/-- `_libssh2_channel_read`, before: the window is made wider if it has become too narrow. -/
def widen (s : Session) (id : Nat) (buflen : Nat) : Int × Session :=
  let ch := s.chan id
  if ch.readState = .jump1 ∨
      ch.remoteEnd.windowSize < ch.remoteEnd.windowSizeInitial / 4 * 3 + buflen then
    let r :=
      (s.put { ch with readState := .jump1 }).receiveWindowAdjust id (ch.readAdjustment buflen)
      false
    if r.1 ≠ 0 then r else (0, r.2.put { r.2.chan id with readState := .idle })
  else (0, s)

/-- `_libssh2_channel_read` -/
def channelRead (s : Session) (id : Nat) (streamId : Int) (buflen : Nat) :
    Except Int (List UInt8) × Session :=
  let r := s.widen id buflen
  if r.1 ≠ 0 then (.error r.1, r.2) else r.2.readOn id streamId buflen

/-- `libssh2_channel_read_ex`, where it does not block: what the first adjustment returns is
lost. -/
def channelReadEx (s : Session) (id : Nat) (streamId : Int) (buflen : Nat) :
    Except Int (List UInt8) × Session :=
  if (s.chan id).remoteEnd.windowSize < buflen then
    (s.receiveWindowAdjust id (wrap32 buflen) true).2.channelRead id streamId buflen
  else s.channelRead id streamId buflen

/-- A packet of the channel's data. -/
def queued (id : Nat) (p : Packet) : Bool :=
  (p.data.headD 0 = msgData ∨ p.data.headD 0 = msgExtendedData) ∧ 5 ≤ p.data.length ∧
    recipient p.data = id

/-- `libssh2_channel_eof` -/
def channelEof (s : Session) (id : Nat) : Bool :=
  if s.packets.any (queued id) then false else (s.chan id).remoteEnd.eof

/-- The second result of `libssh2_channel_window_read_ex`. -/
def bytesQueued (s : Session) (id : Nat) : Nat :=
  ((s.packets.filter (queued id)).map fun p => p.data.length - p.dataHead).sum

end Session

/-! ## Writing -/

/-- The head of a packet with data for the other end. -/
def writeHead (ch : ChannelState) (streamId : Int) (bufwrite : Nat) : List UInt8 :=
  (if streamId ≠ 0 then
      [msgExtendedData] ++ store 4 ch.remoteEnd.id ++ store 4 (wrap32 streamId)
    else [msgData] ++ store 4 ch.remoteEnd.id) ++ store 4 bufwrite

namespace Session

/-- `_libssh2_channel_write`, once its state is created. -/
def sendWrite (s : Session) (id : Nat) (buf : List UInt8) : Except Int Nat × Session :=
  let ch := s.chan id
  let r := s.transportSend (.writePacket id) ch.writePacket (buf.take ch.writeBufwrite)
  if r.1 = eagain then (.error eagain, r.2)
  else if r.1 ≠ 0 then (.error r.1, r.2.put { ch with writeState := .idle })
  else (.ok ch.writeBufwrite, r.2.put { ch with
    localEnd.windowSize := wrap32 (ch.localEnd.windowSize - ch.writeBufwrite)
    writeState := .idle })

/-- `_libssh2_channel_write` -/
def channelWrite (s : Session) (id : Nat) (streamId : Int) (buf : List UInt8) :
    Except Int Nat × Session :=
  if (s.chan id).writeState = .idle then
    if (s.chan id).localEnd.close then (.error ErrorCode.channelClosed.value, s)
    else if (s.chan id).localEnd.eof then (.error ErrorCode.channelEofSent.value, s)
    else
      let r := s.drain
      if r.1 < 0 ∧ r.1 ≠ eagain then (.error r.1, r.2)
      else
        let ch := r.2.chan id
        if ch.localEnd.windowSize = 0 then (if r.1 = eagain then .error eagain else .ok 0, r.2)
        else
          let bufwrite :=
            min (min (min buf.length 32700) ch.localEnd.windowSize) ch.localEnd.packetSize
          (r.2.put { ch with
            writeState := .created
            writePacket := writeHead ch streamId bufwrite
            writeBufwrite := bufwrite }).sendWrite id buf
  else s.sendWrite id buf

end Session

end Ssh2Python
