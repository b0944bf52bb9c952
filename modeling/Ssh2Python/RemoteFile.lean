import Ssh2Python.Pipeline
import Ssh2Python.Lib.Patch

/-!
# A remote file and its server

What is at the other end of a pipeline. The server takes whole requests off the wire and answers
each of them once, in any order; its answers arrive in the order in which it gave them. A call meets
with any number of answers that the server has given by then, also to requests that the call itself
has sent (`PipelineCall`).
-/

namespace Ssh2Python

open Lib.CInt Lib.Wire Lib.Patch

/-! ## Requests and answers -/

/-- A request, as the server takes it apart: to read as many bytes as its number says, or to write
the bytes that are its length, if any. -/
structure FileRequest where
  type : UInt8
  requestId : Nat
  handle : List UInt8
  offset : Nat
  len : Nat
  bytes : List UInt8
  deriving DecidableEq, Repr

def decodeRequest (m : List UInt8) : FileRequest :=
  let behind := m.drop (9 + value ((m.drop 5).take 4))
  { type := m.headD 0
    requestId := packetId m
    handle := (m.drop 9).take (value ((m.drop 5).take 4))
    offset := value (behind.take 8)
    len := value ((behind.drop 8).take 4)
    bytes := behind.drop 12 }

/-- `SSH_FXP_DATA` -/
def dataReply (requestId : Nat) (bytes : List UInt8) : List UInt8 :=
  [fxpData] ++ store 4 requestId ++ storeStr bytes

/-- `SSH_FXP_STATUS`, with the texts behind its code. -/
def statusReply (requestId code : Nat) (texts : List UInt8) : List UInt8 :=
  [fxpStatus] ++ store 4 requestId ++ store 4 code ++ texts

/-- The answers to a request to read: some bytes of the file from the offset on, or a status. If the
server answers in full, they are all that was asked for and is there, or the status at the end of
the file. -/
inductive ReadReply (full : Prop) (file : List UInt8) (requestId offset len : Nat) :
    List UInt8 → Prop
  | data (bytes : List UInt8) (short : bytes.length < 2 ^ 32) (part : bytes <+: file.drop offset)
      (all : full → offset < file.length ∧ bytes = (file.drop offset).take len) :
      ReadReply full file requestId offset len (dataReply requestId bytes)
  | status (code : Nat) (texts : List UInt8) (short : code < 2 ^ 32)
      (ends : full → code = 1 ∧ file.length ≤ offset) :
      ReadReply full file requestId offset len (statusReply requestId code texts)

/-- What the server may answer to a message about a file that it only reads. -/
def readServer (full : Prop) (file : List UInt8) (m reply : List UInt8) : Prop :=
  (decodeRequest m).type = fxpRead ∧
    ReadReply full file (decodeRequest m).requestId (decodeRequest m).offset (decodeRequest m).len
    reply

/-! ## Calls and runs -/

/-- A call, with what happens while it is under way: the answers that the server gives after the
requests are sent, each with the place of its request on the wire, and how many answers arrive. -/
structure PipelineCall where
  env : PipelineEnv
  answers : List (Nat × List UInt8)
  arrive : Nat
  deriving DecidableEq

/-- A client, with the server's list of requests that it has answered, and the answers under way. -/
structure RemoteFile where
  client : Pipeline
  answered : List Nat := []
  inflight : List (List UInt8) := []

namespace RemoteFile

/-- The answers that there are during a call. -/
def pool (sys : RemoteFile) (i : PipelineCall) : List (List UInt8) :=
  sys.inflight ++ i.answers.map Prod.snd

def env (sys : RemoteFile) (i : PipelineCall) : PipelineEnv :=
  { i.env with arrivals := (sys.pool i).take i.arrive }

/-- The system after a call. -/
def after {α : Type} (sys : RemoteFile) (i : PipelineCall) (r : PipelineResult α) : RemoteFile where
  client := r.state
  answered := sys.answered ++ i.answers.map Prod.fst
  inflight := r.arrivals ++ (sys.pool i).drop i.arrive

end RemoteFile

/-- The answers are to messages that are on the wire, and to none twice. -/
def Answers (server : List UInt8 → List UInt8 → Prop) (messages : List (List UInt8)) :
    List Nat → List (Nat × List UInt8) → Prop
  | _, [] => True
  | answered, (i, reply) :: rest =>
    i ∉ answered ∧ (∃ m, messages[i]? = some m ∧ server m reply) ∧
      Answers server messages (answered ++ [i]) rest

/-- A call of `sftp_read` that has to wait at most: there is memory for all its chunks, and the
channel does not fail. -/
structure CleanRead (bufferSize : Nat) (env : PipelineEnv) : Prop where
  size_pos : 0 < bufferSize
  size_lt : bufferSize < 2 ^ 32
  adjust : env.adjust = 0 ∨ env.adjust = eagain
  allocs : maxReadAhead ≤ maxReadSize * env.allocs
  stall : env.stall = eagain
  pause : env.pause = eagain

/-- The channel takes every request at once. -/
def TakesAll (env : PipelineEnv) : Prop :=
  maxReadAhead + maxReadSize ≤ env.writes.length ∧ ∀ n ∈ env.writes, 4092 + 25 ≤ n

/-- A call of `sftp_read` that does not have to wait: every request on the wire is answered, and the
answers have arrived. -/
structure PromptRead (sys : RemoteFile) (i : PipelineCall) (wire : List UInt8) : Prop where
  adjust : i.env.adjust = 0
  writes : TakesAll i.env
  answered : ∀ k < (frames wire).length, k ∈ sys.answered ++ i.answers.map Prod.fst
  arrive : (sys.pool i).length ≤ i.arrive

/-- A sequence of calls of `sftp_read`, with their results. Where the server answers in full, the
calls have to wait at most, and where it is prompt, they do not wait. -/
inductive ReadingRun (full prompt : Prop) (file : List UInt8) (h : RemoteHandle) :
    RemoteFile → List (Except Int (List UInt8)) → RemoteFile → Prop
  | nil (sys : RemoteFile) : ReadingRun full prompt file h sys [] sys
  | call {sys last : RemoteFile} {results : List (Except Int (List UInt8))} (i : PipelineCall)
      (bufferSize : Nat) (clean : full → CleanRead bufferSize i.env)
      (answers : Answers (readServer full file)
        (frames (sftpRead h bufferSize (sys.env i) sys.client).state.wire) sys.answered i.answers)
      (soon : prompt →
        PromptRead sys i (sftpRead h bufferSize (sys.env i) sys.client).state.wire)
      (run : ReadingRun full prompt file h
        (sys.after i (sftpRead h bufferSize (sys.env i) sys.client)) results last) :
      ReadingRun full prompt file h sys
        ((sftpRead h bufferSize (sys.env i) sys.client).result :: results) last

/-- The bytes that a call has put into the buffer. -/
def returned : Except Int (List UInt8) → List UInt8
  | .ok bytes => bytes
  | .error _ => []

/-! ## Writing -/

/-- What the server may answer to a request to write: a status. -/
def writeServer (m reply : List UInt8) : Prop :=
  (decodeRequest m).type = fxpWrite ∧ ∃ (code : Nat) (texts : List UInt8), code < 2 ^ 32 ∧
    reply = statusReply (decodeRequest m).requestId code texts

/-- What the answers to these messages leave in the file: the bytes of each request, or, where the
status is an error, some of them. -/
inductive Stored (messages : List (List UInt8)) :
    List (Nat × List UInt8) → List UInt8 → List UInt8 → Prop
  | nil (file : List UInt8) : Stored messages [] file file
  | cons {i : Nat} {reply m file last : List UInt8} {moves : List (Nat × List UInt8)} (k : Nat)
      (message : messages[i]? = some m)
      (all : packetCode reply = 0 → (decodeRequest m).bytes.length ≤ k)
      (rest : Stored messages moves
        (writeAt 0 file (decodeRequest m).offset ((decodeRequest m).bytes.take k)) last) :
      Stored messages ((i, reply) :: moves) file last

/-- A client that writes to a file, and how many of its bytes it takes for written. -/
structure WriteSystem where
  remote : RemoteFile
  file : List UInt8
  written : Nat := 0

namespace WriteSystem

/-- The program passes the next bytes, as many as it likes. -/
def call (sys : WriteSystem) (h : RemoteHandle) (bytes : List UInt8) (i : PipelineCall)
    (count : Nat) :
    PipelineResult Nat :=
  sftpWrite h ((bytes.drop sys.written).take count) (sys.remote.env i) sys.remote.client

def after (sys : WriteSystem) (i : PipelineCall) (file : List UInt8) (r : PipelineResult Nat) :
    WriteSystem where
  remote := sys.remote.after i r
  file := file
  written := sys.written + r.result.toOption.getD 0

end WriteSystem

/-- A call of `sftp_write` that does not have to wait, and all of whose requests are carried out. -/
structure PromptWrite (bytes : List UInt8) (sys : RemoteFile) (i : PipelineCall) (count : Nat)
    (wire : List UInt8) : Prop where
  count_pos : 0 < count
  allocs : bytes.length ≤ i.env.allocs
  many : bytes.length ≤ i.env.writes.length
  large : ∀ n ∈ i.env.writes, 4092 + 25 + maxOutgoingSize ≤ n
  good : ∀ move ∈ i.answers, packetCode move.2 = 0
  answered : ∀ k < (frames wire).length, k ∈ sys.answered ++ i.answers.map Prod.fst
  arrive : (sys.pool i).length ≤ i.arrive

/-- A sequence of calls of `sftp_write`, with their results. Where it is prompt, the calls do not
wait. -/
inductive WritingRun (prompt : Prop) (h : RemoteHandle) (bytes : List UInt8) :
    WriteSystem → List (Except Int Nat) → WriteSystem → Prop
  | nil (sys : WriteSystem) : WritingRun prompt h bytes sys [] sys
  | call {sys last : WriteSystem} {results : List (Except Int Nat)} (i : PipelineCall) (count : Nat)
      {file : List UInt8} (short : count < 2 ^ 32)
      (answers : Answers writeServer (frames (sys.call h bytes i count).state.wire)
        sys.remote.answered i.answers)
      (stored : Stored (frames (sys.call h bytes i count).state.wire) i.answers sys.file file)
      (soon : prompt → PromptWrite bytes sys.remote i count (sys.call h bytes i count).state.wire)
      (run : WritingRun prompt h bytes (sys.after i file (sys.call h bytes i count)) results last) :
      WritingRun prompt h bytes sys ((sys.call h bytes i count).result :: results) last

/-- A file that has been opened, or whose position was set, with nothing under way. -/
def RemoteFile.opened (start requestId : Nat) : RemoteFile where
  client := { offset := start, offsetSent := start, requestId := requestId }

def sampleHandle : RemoteHandle where
  bytes := [7]
  length_le := by decide

/-- A call during which the channel takes everything and all the answers arrive. -/
def sampleCall (answers : List (Nat × List UInt8)) : PipelineCall where
  env :=
    { allocs := 300
      writes := List.replicate (maxReadAhead + maxReadSize) 40000
      arrivals := [] }
  answers := answers
  arrive := answers.length

end Ssh2Python
