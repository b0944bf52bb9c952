import Ssh2Python.Errors
import Ssh2Python.Lib.CInt
import Ssh2Python.Lib.Wire

/-!
# Reading and writing a remote file

`sftp_read` and `sftp_write` of `sftp.c`. Requests are queued as chunks of the file, sent as far as
the channel takes them, and answered in any order; a call goes on where the one before it had to
wait. What the channel takes, what arrives on it and how often `malloc` succeeds are given to each
call (`PipelineEnv`); the bytes that the channel took are kept in `wire`. Offsets are 64-bit numbers
and wrap around.
-/

namespace Ssh2Python

open Lib.CInt Lib.Wire

/-! ## Data -/

/-- `handle` and `handle_len` of `LIBSSH2_SFTP_HANDLE`. -/
structure RemoteHandle where
  bytes : List UInt8
  /-- `SFTP_HANDLE_MAXLEN` -/
  length_le : bytes.length ≤ 4092
  deriving DecidableEq

/-- `struct sftp_pipeline_chunk` -/
structure PipelineChunk where
  offset : Nat := 0
  len : Nat
  packet : List UInt8
  sent : Nat := 0
  lefttosend : Nat
  requestId : Nat
  deriving DecidableEq, Repr

/-- `LIBSSH2_SFTP_PACKET` -/
structure SftpPacket where
  requestId : Nat
  data : List UInt8
  deriving DecidableEq, Repr

/-- The states of the two functions. -/
inductive PipelineState
  | idle
  | sent
  | sent2
  deriving DecidableEq, Repr

/-- `LIBSSH2_SFTP`, with one open file and what was sent for it. -/
structure Pipeline where
  readState : PipelineState := .idle
  writeState : PipelineState := .idle
  requestId : Nat := 0
  packets : List SftpPacket := []
  zombies : List Nat := []
  lastErrno : Nat := 0
  offset : Nat := 0
  offsetSent : Nat := 0
  acked : Nat := 0
  data : List UInt8 := []
  dataLeft : Nat := 0
  eof : Bool := false
  packetList : List PipelineChunk := []
  wire : List UInt8 := []
  deriving DecidableEq, Repr

/-- What a call meets with. -/
structure PipelineEnv where
  /-- The window of the channel, and what the function that enlarges it returns. -/
  window : Nat := 2 ^ 32
  adjust : Int := 0
  /-- How many chunks can be allocated. -/
  allocs : Nat
  /-- How much the channel takes at each write, and what it returns after that. -/
  writes : List Nat
  stall : Int := eagain
  /-- The packets that arrive, and what `sftp_packet_read` returns after them. -/
  arrivals : List (List UInt8)
  pause : Int := eagain
  deriving DecidableEq, Repr

/-- What a call returned: the bytes in the buffer, or their number, or an error. -/
structure PipelineResult (α : Type) where
  result : Except Int α
  state : Pipeline
  /-- The packets that have not been taken off the channel. -/
  arrivals : List (List UInt8) := []

/-! ## Packets -/

def fxpRead : UInt8 := 5

def fxpWrite : UInt8 := 6

def fxpStatus : UInt8 := 101

def fxpData : UInt8 := 103

/-- The types that `sftp_packet_add` takes. -/
def knownPacketType (b : UInt8) : Bool :=
  1 ≤ b ∧ b ≤ 20 ∨ 101 ≤ b ∧ b ≤ 105 ∨ 200 ≤ b ∧ b ≤ 201

/-- `_libssh2_store_str` -/
def storeStr (s : List UInt8) : List UInt8 :=
  store 4 s.length ++ s

def packetId (data : List UInt8) : Nat :=
  value ((data.drop 1).take 4)

/-- The number behind the request id. -/
def packetCode (data : List UInt8) : Nat :=
  value ((data.drop 5).take 4)

namespace Pipeline

/-- `sftp_packet_add` -/
def packetAdd (s : Pipeline) (data : List UInt8) : Option Int × Pipeline :=
  if data.length < 5 then (some ErrorCode.outOfBoundary.value, s)
  else if knownPacketType (data.headD 0) = false then
    (some ErrorCode.sftpProtocol.value, { s with lastErrno := 0 })
  else if (data.headD 0 = fxpStatus ∨ data.headD 0 = fxpData) ∧ packetId data ∈ s.zombies then
    (none, { s with zombies := s.zombies.erase (packetId data) })
  else (none, { s with packets := s.packets ++ [⟨packetId data, data⟩] })

/-- A packet of the given type and request. -/
def answers (type : UInt8) (requestId : Nat) (p : SftpPacket) : Bool :=
  p.data.headD 0 = type ∧ p.requestId = requestId

/-- `sftp_packet_ask`, for other types than `SSH_FXP_VERSION`. -/
def packetAsk (s : Pipeline) (type : UInt8) (requestId : Nat) : Option (List UInt8 × Pipeline) :=
  (s.packets.find? (answers type requestId)).map fun p =>
    (p.data, { s with packets := s.packets.eraseP (answers type requestId) })

/-- The loop over the types that are waited for. -/
def packetAskv (s : Pipeline) : List UInt8 → Nat → Option (List UInt8 × Pipeline)
  | [], _ => none
  | type :: types, requestId => (s.packetAsk type requestId).or (s.packetAskv types requestId)

/-- `sftp_packet_requirev` and `sftp_packet_require`, for packets of nine bytes at least. -/
def packetRequire (types : List UInt8) (requestId : Nat) (pause : Int) :
    Pipeline → List (List UInt8) → PipelineResult (List UInt8)
  | s, arrivals =>
    match s.packetAskv types requestId with
    | some (data, s) =>
      if data.length < 9 then ⟨.error ErrorCode.bufferTooSmall.value, s, arrivals⟩
      else ⟨.ok data, s, arrivals⟩
    | none =>
      match arrivals with
      | [] => ⟨.error pause, s, []⟩
      | data :: arrivals =>
        match s.packetAdd data with
        | (some rc, s) => ⟨.error rc, s, arrivals⟩
        | (none, s) => packetRequire types requestId pause s arrivals

/-- The loop of `sftp_packetlist_flush`. -/
def flushChunks (s : Pipeline) : List PipelineChunk → Pipeline
  | [] => s
  | c :: cs =>
    match s.packetAskv [fxpStatus, fxpData] c.requestId with
    | some (_, s) => s.flushChunks cs
    | none =>
      if c.sent ≠ 0 then { s with zombies := s.zombies ++ [c.requestId] }.flushChunks cs
      else s.flushChunks cs

/-- `sftp_packetlist_flush` -/
def packetlistFlush (s : Pipeline) : Pipeline :=
  { s.flushChunks s.packetList with packetList := [] }

end Pipeline

/-! ## Sending -/

/-- The channel has taken the next bytes of a chunk. -/
def PipelineChunk.advance (c : PipelineChunk) (n : Nat) : PipelineChunk :=
  { c with lefttosend := c.lefttosend - n, sent := c.sent + n }

/-- What the writes of a chunk, or of a list of chunks, came to. -/
structure Sent (α : Type) where
  /-- The error that ended them. -/
  rc : Option Int
  chunks : α
  wire : List UInt8
  writes : List Nat

/-- The writes of one chunk: a single one, or as many as it takes. -/
def sendChunk (again : Bool) (stall : Int) :
    List Nat → PipelineChunk → List UInt8 → Sent PipelineChunk
  | [], c, wire => ⟨some stall, c, wire, []⟩
  | n :: writes, c, wire =>
    if again ∧ (c.advance (min n c.lefttosend)).lefttosend ≠ 0 then
      sendChunk again stall writes (c.advance (min n c.lefttosend))
        (wire ++ (c.packet.drop c.sent).take (min n c.lefttosend))
    else ⟨none, c.advance (min n c.lefttosend),
      wire ++ (c.packet.drop c.sent).take (min n c.lefttosend), writes⟩

/-- The loop that sends the chunks, from the first one that is not sent; `again` says whether the
first chunk of all is sent to its end. -/
def sendChunks (again : Bool) (stall : Int) :
    List PipelineChunk → List Nat → List UInt8 → Sent (List PipelineChunk)
  | [], writes, wire => ⟨none, [], wire, writes⟩
  | c :: cs, writes, wire =>
    if c.lefttosend = 0 then
      let r := sendChunks false stall cs writes wire
      { r with chunks := c :: r.chunks }
    else
      let first := sendChunk again stall writes c wire
      if first.rc ≠ none ∨ first.chunks.lefttosend ≠ 0 then
        { first with chunks := first.chunks :: cs }
      else
        let r := sendChunks false stall cs first.writes first.wire
        { r with chunks := first.chunks :: r.chunks }

/-! ## `sftp_read` -/

/-- A request for a piece of the file. -/
def readMessage (h : RemoteHandle) (requestId offset size : Nat) : List UInt8 :=
  [fxpRead] ++ store 4 requestId ++ storeStr h.bytes ++ store 8 offset ++ store 4 size

/-- `MAX_SFTP_READ_SIZE` -/
def maxReadSize : Nat := 30000

/-- How much is asked for at once. The sizes go through 32 bits. -/
def readSize (bufferSize count : Nat) : Nat :=
  min (if count % 2 ^ 32 < bufferSize then bufferSize % 2 ^ 32 else count % 2 ^ 32) maxReadSize

/-- The chunk for a request that is to be sent. -/
def PipelineChunk.forRead (h : RemoteHandle) (requestId offset size : Nat) : PipelineChunk where
  offset := offset
  len := size
  packet := store 4 (h.bytes.length + 25 - 4) ++ readMessage h requestId offset size
  lefttosend := h.bytes.length + 25
  requestId := requestId

/-- One more request at the end of the list. -/
def Pipeline.addRead (s : Pipeline) (h : RemoteHandle) (size : Nat) : Pipeline :=
  { s with
    requestId := (s.requestId + 1) % 2 ^ 32
    offsetSent := toSize (s.offsetSent + size)
    packetList := s.packetList ++ [.forRead h s.requestId s.offsetSent size] }

/-- The loop that adds requests for `count` bytes. -/
def requestReads (h : RemoteHandle) (bufferSize : Nat) :
    Nat → Nat → Pipeline → Option Int × Pipeline
  | _, 0, s => (none, s)
  | 0, _ + 1, s => (some ErrorCode.alloc.value, s)
  | allocs + 1, count + 1, s =>
    requestReads h bufferSize allocs (count + 1 - readSize bufferSize (count + 1))
      (s.addRead h (readSize bufferSize (count + 1)))

/-- `LIBSSH2_CHANNEL_WINDOW_DEFAULT*4` -/
def maxReadAhead : Nat := 2 * 1024 * 1024 * 4

/-- `max_read_ahead` -/
def readAhead (bufferSize : Nat) : Nat :=
  min (toSize (bufferSize * 4)) maxReadAhead

/-- The bytes of a packet of data that fit in the buffer, of which `filled` bytes are in use, and
the number of those that are kept. -/
def overlap (bufferSize filled n : Nat) : Nat × Nat :=
  if bufferSize < filled + n then (bufferSize - filled, filled + n - bufferSize) else (n, 0)

/-- A packet of data for the first chunk of the list, with `n` bytes of the file in it. -/
def Pipeline.takeData (s : Pipeline) (c : PipelineChunk) (rest : List PipelineChunk)
    (data : List UInt8) (n bufferSize filled : Nat) : Pipeline :=
  { s with
    offsetSent := toSize (s.offsetSent - (c.len - n : Nat))
    dataLeft := if bufferSize < filled + n then (overlap bufferSize filled n).2 else s.dataLeft
    data := if bufferSize < filled + n then data else s.data
    offset := toSize (s.offset + (overlap bufferSize filled n).1)
    packetList := rest }

/-- The loop over the answers. -/
def receiveReads (bufferSize : Nat) (pause : Int) : List PipelineChunk → List UInt8 → Pipeline →
    List (List UInt8) → PipelineResult (List UInt8)
  | [], buf, s, arrivals =>
    if buf ≠ [] then ⟨.ok buf, s, arrivals⟩ else ⟨.error ErrorCode.sftpProtocol.value, s, arrivals⟩
  | c :: rest, buf, s, arrivals =>
    if c.lefttosend ≠ 0 then
      if buf ≠ [] then ⟨.ok buf, s, arrivals⟩
      else ⟨.error ErrorCode.sftpProtocol.value, s, arrivals⟩
    else
      let r := Pipeline.packetRequire [fxpData, fxpStatus] c.requestId pause s arrivals
      match r.result with
      | .error rc =>
        if rc = eagain ∧ buf ≠ [] then ⟨.ok buf, r.state, r.arrivals⟩
        else if rc = ErrorCode.bufferTooSmall.value then
          ⟨.error ErrorCode.sftpProtocol.value, r.state, r.arrivals⟩
        else ⟨.error rc, { r.state with readState := .sent2 }, r.arrivals⟩
      | .ok data =>
        if data.headD 0 = fxpStatus then
          let s := { r.state with packetList := rest }.packetlistFlush
          if packetCode data = 1 then ⟨.ok buf, { s with eof := true }, r.arrivals⟩
          else ⟨.error ErrorCode.sftpProtocol.value, { s with lastErrno := packetCode data },
            r.arrivals⟩
        else if data.headD 0 = fxpData then
          if c.offset ≠ r.state.offset ∨ data.length - 9 < packetCode data ∨
              c.len < packetCode data then
            ⟨.error ErrorCode.sftpProtocol.value, r.state, r.arrivals⟩
          else
            let s := r.state.takeData c rest data (packetCode data) bufferSize buf.length
            let buf := buf ++
              (data.drop 9).take (overlap bufferSize buf.length (packetCode data)).1
            if buf.length < bufferSize then receiveReads bufferSize pause rest buf s r.arrivals
            else if buf ≠ [] then ⟨.ok buf, s, r.arrivals⟩
            else ⟨.error ErrorCode.sftpProtocol.value, s, r.arrivals⟩
        else ⟨.error ErrorCode.sftpProtocol.value, r.state, r.arrivals⟩

/-- The third phase of `sftp_read`. -/
def readSent2 (bufferSize : Nat) (env : PipelineEnv) (s : Pipeline) : PipelineResult (List UInt8) :=
  receiveReads bufferSize env.pause s.packetList [] { s with readState := .idle } env.arrivals

/-- The second phase of `sftp_read`. -/
def readSent (bufferSize : Nat) (env : PipelineEnv) (s : Pipeline) : PipelineResult (List UInt8) :=
  let r := sendChunks true env.stall s.packetList env.writes s.wire
  match r.rc with
  | some rc =>
    ⟨.error rc, { s with packetList := r.chunks, wire := r.wire, readState := .sent }, env.arrivals⟩
  | none => readSent2 bufferSize env { s with packetList := r.chunks, wire := r.wire }

/-- What is left of the last packet, as far as it fits. -/
def Pipeline.takeLeft (s : Pipeline) (bufferSize : Nat) : List UInt8 × Pipeline :=
  let copy := min bufferSize s.dataLeft
  ((s.data.drop (s.data.length - s.dataLeft)).take copy,
    { s with
      dataLeft := s.dataLeft - copy
      offset := toSize (s.offset + copy)
      data := if s.dataLeft - copy = 0 then [] else s.data })

/-- The first phase of `sftp_read`. -/
def readIdle (h : RemoteHandle) (bufferSize : Nat) (env : PipelineEnv) (s : Pipeline) :
    PipelineResult (List UInt8) :=
  if s.dataLeft ≠ 0 then
    ⟨.ok (s.takeLeft bufferSize).1, (s.takeLeft bufferSize).2, env.arrivals⟩
  else if s.eof then ⟨.ok [], s, env.arrivals⟩
  else if env.window < readAhead bufferSize ∧ env.adjust ≠ 0 then
    ⟨.error env.adjust, s, env.arrivals⟩
  else
    let count := readAhead bufferSize - toSize ((s.offsetSent : Int) - s.offset)
    match requestReads h bufferSize env.allocs count s with
    | (some rc, s) => ⟨.error rc, s, env.arrivals⟩
    | (none, s) => readSent bufferSize env s

/-- `sftp_read` -/
def sftpRead (h : RemoteHandle) (bufferSize : Nat) (env : PipelineEnv) (s : Pipeline) :
    PipelineResult (List UInt8) :=
  match s.readState with
  | .idle => readIdle h bufferSize env { s with lastErrno := 0 }
  | .sent => readSent bufferSize env s
  | .sent2 => readSent2 bufferSize env s

/-! ## `sftp_write` -/

/-- A request to write a piece of the file. -/
def writeMessage (h : RemoteHandle) (requestId offset : Nat) (bytes : List UInt8) : List UInt8 :=
  [fxpWrite] ++ store 4 requestId ++ storeStr h.bytes ++ store 8 offset ++ storeStr bytes

/-- `MAX_SFTP_OUTGOING_SIZE` -/
def maxOutgoingSize : Nat := 30000

def PipelineChunk.forWrite (h : RemoteHandle) (requestId offset : Nat) (bytes : List UInt8) :
    PipelineChunk where
  len := bytes.length
  packet := store 4 (h.bytes.length + bytes.length + 25 - 4) ++
    writeMessage h requestId offset bytes
  lefttosend := h.bytes.length + bytes.length + 25
  requestId := requestId

def Pipeline.addWrite (s : Pipeline) (h : RemoteHandle) (bytes : List UInt8) : Pipeline :=
  { s with
    requestId := (s.requestId + 1) % 2 ^ 32
    offsetSent := toSize (s.offsetSent + bytes.length)
    packetList := s.packetList ++ [.forWrite h s.requestId s.offsetSent bytes] }

/-- The loop that cuts a buffer into chunks. -/
def requestWrites (h : RemoteHandle) : Nat → List UInt8 → Pipeline → Option Int × Pipeline
  | _, [], s => (none, s)
  | 0, _ :: _, s => (some ErrorCode.alloc.value, s)
  | allocs + 1, buffer, s =>
    requestWrites h allocs (buffer.drop maxOutgoingSize)
      (s.addWrite h (buffer.take maxOutgoingSize))

/-- An answer that is an error: nothing that is under way counts. -/
def Pipeline.rewind (s : Pipeline) : Pipeline :=
  let s := s.packetlistFlush
  { s with
    offset := toSize ((s.offset : Int) - s.acked)
    offsetSent := toSize ((s.offset : Int) - s.acked)
    acked := 0 }

/-- The loop over the acknowledgements, which ends at the first one. The result is how many bytes
were acknowledged. -/
def receiveAcks (pause : Int) (s : Pipeline) (arrivals : List (List UInt8)) : PipelineResult Nat :=
  match s.packetList with
  | [] => ⟨.ok 0, s, arrivals⟩
  | c :: rest =>
    if c.lefttosend ≠ 0 then ⟨.ok 0, s, arrivals⟩
    else
      let r := Pipeline.packetRequire [fxpStatus] c.requestId pause s arrivals
      match r.result with
      | .error rc =>
        if rc = ErrorCode.bufferTooSmall.value then
          ⟨.error ErrorCode.sftpProtocol.value, r.state, r.arrivals⟩
        else if rc = eagain then ⟨.error rc, { r.state with writeState := .sent }, r.arrivals⟩
        else ⟨.error rc, r.state, r.arrivals⟩
      | .ok data =>
        let s := { r.state with lastErrno := packetCode data }
        if packetCode data = 0 then
          ⟨.ok c.len, { s with offset := toSize (s.offset + c.len), packetList := rest },
            r.arrivals⟩
        else ⟨.error ErrorCode.sftpProtocol.value, s.rewind, r.arrivals⟩

/-- The second phase of `sftp_write`. -/
def writeSent (count : Nat) (env : PipelineEnv) (s : Pipeline) : PipelineResult Nat :=
  let r := receiveAcks env.pause { s with writeState := .idle } env.arrivals
  match r.result with
  | .error rc => ⟨.error rc, r.state, r.arrivals⟩
  | .ok acked =>
    let acked := acked + r.state.acked
    ⟨.ok (min acked count), { r.state with acked := acked - min acked count }, r.arrivals⟩

/-- The first phase of `sftp_write`. -/
def writeIdle (h : RemoteHandle) (buffer : List UInt8) (env : PipelineEnv) (s : Pipeline) :
    PipelineResult Nat :=
  let already := toSize (toSize ((s.offsetSent : Int) - s.offset) + s.acked)
  match requestWrites h env.allocs (buffer.drop already) s with
  | (some rc, s) => ⟨.error rc, s, env.arrivals⟩
  | (none, s) =>
    let r := sendChunks false env.stall s.packetList env.writes s.wire
    match r.rc with
    | some rc => ⟨.error rc, { s with packetList := r.chunks, wire := r.wire }, env.arrivals⟩
    | none => writeSent buffer.length env { s with packetList := r.chunks, wire := r.wire }

/-- `sftp_write` -/
def sftpWrite (h : RemoteHandle) (buffer : List UInt8) (env : PipelineEnv) (s : Pipeline) :
    PipelineResult Nat :=
  if s.writeState = .sent then writeSent buffer.length env s
  else writeIdle h buffer env { s with lastErrno := 0, writeState := .idle }

end Ssh2Python
