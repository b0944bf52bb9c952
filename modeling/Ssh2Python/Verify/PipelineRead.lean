import Ssh2Python.Verify.PipelineReplies
import Mathlib.Data.List.Infix

/-!
# Reading a remote file

`Live` is what holds between the calls of `sftp_read` while the end of the file has not been
reached: what was returned is a piece of the file without gaps (`Position`), the chunks ask for what
follows it (`Window`), and the answers are for them (`Replies`). A server may answer with less than
it was asked for; for one that does not, the chunks follow each other as well (`Placed`), and no
call fails.
-/

namespace Ssh2Python

open Lib.CInt Lib.Wire

/-! ## Messages -/

theorem length_readMessage (h : RemoteHandle) (requestId offset size : Nat) :
    (readMessage h requestId offset size).length = h.bytes.length + 21 := by
  simp only [readMessage, storeStr, List.length_append, List.length_cons, List.length_nil,
    length_store]
  omega

theorem forRead_framed (h : RemoteHandle) (requestId offset size : Nat) :
    (PipelineChunk.forRead h requestId offset size).Framed ∧
      (PipelineChunk.forRead h requestId offset size).message =
        readMessage h requestId offset size := by
  have hlen := length_readMessage h requestId offset size
  have hhandle := h.length_le
  have hmessage : (PipelineChunk.forRead h requestId offset size).message =
      readMessage h requestId offset size := List.drop_left' (length_store 4 _)
  refine ⟨⟨?_, ?_, ?_⟩, hmessage⟩
  · rw [hmessage, frame, hlen]
    rfl
  · rw [hmessage, hlen]
    omega
  · simp only [PipelineChunk.forRead, List.length_append, length_store, hlen]
    omega

theorem decodeRequest_readMessage (h : RemoteHandle) {requestId offset size : Nat}
    (hid : requestId < 2 ^ 32) (hoffset : offset < 2 ^ 64) (hsize : size < 2 ^ 32) :
    decodeRequest (readMessage h requestId offset size) =
      ⟨fxpRead, requestId, h.bytes, offset, size, []⟩ := by
  have hhandle := h.length_le
  have hlayout :=
    @decodeRequest_layout fxpRead requestId offset size h.bytes [] hid (by omega) hoffset
    hsize
  rwa [List.append_nil] at hlayout

/-! ## The invariant -/

variable {full : Prop} {file : List UInt8} {h : RemoteHandle} {start : Nat}

/-- An answer to the request of a chunk. -/
def ReadValid (full : Prop) (file : List UInt8) (c : PipelineChunk) (p : List UInt8) : Prop :=
  ReadReply full file c.requestId c.offset c.len p ∧ packetId p = c.requestId

/-- What was returned is the file from the start on, and what is left of the last packet follows
it. -/
structure Position (file : List UInt8) (start : Nat) (got : List UInt8) (offset : Nat)
    (data : List UInt8) (dataLeft : Nat) : Prop where
  got_part : got <+: file.drop start
  offset_eq : offset = start + got.length
  left_le : dataLeft ≤ data.length
  left_part : data.drop (data.length - dataLeft) <+: file.drop offset

/-- Every chunk starts where the one before it ends. -/
def Chain : Nat → List PipelineChunk → Prop
  | _, [] => True
  | pos, c :: cs => c.offset = pos ∧ Chain (pos + c.len) cs

/-- The chunks are for what follows, or the end of the file has been seen. -/
def Placed (file : List UInt8) (pos : Nat) (cs : List PipelineChunk) : Prop :=
  Chain pos cs ∨ file.length ≤ pos ∧ ∀ c ∈ cs, file.length ≤ c.offset

structure ReadChunk (h : RemoteHandle) (c : PipelineChunk) : Prop where
  message : c.message = readMessage h c.requestId c.offset c.len
  offset_lt : c.offset < 2 ^ 64
  requestId_lt : c.requestId < 2 ^ 32
  len_pos : 0 < c.len
  len_le : c.len ≤ maxReadSize

/-- The chunks that are asked for, from a position of the file on. -/
structure Window (full : Prop) (file : List UInt8) (h : RemoteHandle)
    (pos offsetSent requestId : Nat)
    (cs : List PipelineChunk) : Prop where
  chunks : ∀ c ∈ cs, ReadChunk h c
  numbered : Numbered requestId cs
  sent_eq : offsetSent = toSize ((pos + requestedBytes cs : Nat) : Int)
  ahead : requestedBytes cs ≤ maxReadAhead + maxReadSize
  placed : full → Placed file pos cs

/-- Files and positions that 64 bits are enough for, the bytes that are asked for ahead included if
positions behind the end of the file may matter. -/
structure Fits (full : Prop) (file : List UInt8) (start : Nat) : Prop where
  start_lt : start < 2 ^ 64
  file_lt : file.length < 2 ^ 64
  ahead_lt : full → max start file.length + maxReadAhead + maxReadSize < 2 ^ 64

/-! ## Positions -/

section Position

variable {got data : List UInt8} {offset dataLeft : Nat}

theorem Position.offset_lt (hp : Position file start got offset data dataLeft)
    (hfits : Fits full file start) : offset < 2 ^ 64 := by
  have hle := hp.got_part.length_le
  have hstart := hfits.start_lt
  have hfile := hfits.file_lt
  have hoffset := hp.offset_eq
  rw [List.length_drop] at hle
  omega

theorem Position.pos_le (hp : Position file start got offset data dataLeft) :
    offset + dataLeft ≤ max start file.length := by
  have hgot := hp.got_part.length_le
  have hleft := hp.left_part.length_le
  have hle := hp.left_le
  have hoffset := hp.offset_eq
  rw [List.length_drop] at hgot
  rw [List.length_drop, List.length_drop] at hleft
  omega

/-- Taking the next bytes. -/
theorem Position.take (hp : Position file start got offset data dataLeft)
    (hfits : Fits full file start)
    {bytes data' : List UInt8} {k left : Nat} (hbytes : bytes <+: file.drop offset)
    (hk : k ≤ bytes.length) (hleft : left ≤ data'.length)
    (hdata : data'.drop (data'.length - left) = bytes.drop k) :
    Position file start (got ++ bytes.take k) (toSize ((offset + k : Nat) : Int)) data' left := by
  have hoffset := hp.offset_eq
  have hlt := hp.offset_lt hfits
  have hfile := hfits.file_lt
  have hlen := hbytes.length_le
  rw [List.length_drop] at hlen
  have hsize : toSize ((offset + k : Nat) : Int) = offset + k := by
    rw [toSize_eq (by omega) (by omega)]
    omega
  rw [hsize]
  refine ⟨?_, ?_, hleft, ?_⟩
  · obtain ⟨rest, hrest⟩ := hp.got_part
    have hdrop : file.drop offset = rest := by
      rw [hoffset, ← List.drop_drop, ← hrest, List.drop_left]
    rw [← hrest, ← hdrop]
    exact (List.prefix_append_right_inj got).mpr ((List.take_prefix k bytes).trans hbytes)
  · rw [List.length_append, List.length_take_of_le hk]
    omega
  · rw [hdata, ← List.drop_drop]
    exact hbytes.drop k

end Position

/-! ## Windows -/

section Window

variable {pos offsetSent requestId : Nat} {c : PipelineChunk} {cs cs' : List PipelineChunk}

theorem Window.length_lt (hw : Window full file h pos offsetSent requestId cs) :
    cs.length + 1 < 2 ^ 32 := by
  have hlen := length_le_requestedBytes fun c hc => (hw.chunks c hc).len_pos
  have hahead := hw.ahead
  have hmax : maxReadAhead + maxReadSize = 8418608 := rfl
  omega

theorem Chain.concat (hchain : Chain pos cs) (hc : c.offset = pos + requestedBytes cs) :
    Chain pos (cs ++ [c]) := by
  induction cs generalizing pos with
  | nil => exact ⟨by simpa [requestedBytes] using hc, trivial⟩
  | cons c' cs ih =>
    obtain ⟨hoffset, hrest⟩ := hchain
    rw [requestedBytes_cons] at hc
    exact ⟨hoffset, ih hrest (by omega)⟩

/-- In a chain, nothing is asked for twice. -/
theorem Chain.le (hchain : Chain pos cs) (hc : c ∈ cs) : pos ≤ c.offset := by
  induction cs generalizing pos with
  | nil => exact absurd hc List.not_mem_nil
  | cons c' cs ih =>
    obtain ⟨hoffset, hrest⟩ := hchain
    rcases List.mem_cons.mp hc with rfl | hc
    · exact hoffset.ge
    · exact (Nat.le_add_right _ _).trans (ih hrest hc)

theorem toSize_lt (x : Int) : toSize x < 2 ^ 64 := by
  unfold toSize
  omega

theorem toSize_toSize_add (a b : Nat) :
    toSize (((toSize (a : Int) : Nat) : Int) + (b : Nat)) = toSize ((a + b : Nat) : Int) := by
  unfold toSize
  omega

/-- **One more request** asks for what follows the others. -/
theorem Window.add (hw : Window full file h pos offsetSent requestId cs)
    (hfits : Fits full file start)
    (hpos : pos ≤ max start file.length) {size : Nat} (hsize : 0 < size) (hle : size ≤ maxReadSize)
    (hahead : requestedBytes cs + size ≤ maxReadAhead + maxReadSize) :
    Window full file h pos (toSize ((offsetSent : Int) + size)) ((requestId + 1) % 2 ^ 32)
      (cs ++ [.forRead h requestId offsetSent size]) := by
  have hlt : offsetSent < 2 ^ 64 := hw.sent_eq ▸ toSize_lt _
  refine ⟨fun c hc => ?_, hw.numbered.concat rfl, ?_, ?_, fun hfull => ?_⟩
  · rcases List.mem_append.mp hc with hc | hc
    · exact hw.chunks c hc
    · rw [List.mem_singleton.mp hc]
      exact ⟨(forRead_framed h requestId offsetSent size).2, hlt, hw.numbered.next_lt, hsize, hle⟩
  · rw [hw.sent_eq, toSize_toSize_add, requestedBytes_concat, Nat.add_assoc]
    rfl
  · rw [requestedBytes_concat]
    exact hahead
  · have hroom := hfits.ahead_lt hfull
    have hsent : offsetSent = pos + requestedBytes cs := by
      have hcs := hw.ahead
      rw [hw.sent_eq, toSize_eq (by omega) (by omega)]
      omega
    rcases hw.placed hfull with hchain | ⟨hend, hbehind⟩
    · exact .inl (hchain.concat hsent)
    · refine .inr ⟨hend, fun c hc => ?_⟩
      rcases List.mem_append.mp hc with hc | hc
      · exact hbehind c hc
      · rw [List.mem_singleton.mp hc]
        simp only [PipelineChunk.forRead]
        omega

/-- Sending on does not change what is asked for. -/
theorem Window.advance (hw : Window full file h pos offsetSent requestId cs)
    (hadv : List.Forall₂ PipelineChunk.Advanced cs cs') :
    Window full file h pos offsetSent requestId cs' := by
  have hbytes := requestedBytes_advance hadv
  have hsent := hw.sent_eq
  have hahead := hw.ahead
  refine ⟨fun c' hc' => ?_, hw.numbered.advance hadv, hbytes ▸ hsent, hbytes ▸ hahead,
    fun hfull => ?_⟩
  · obtain ⟨c, hc, k, -, rfl⟩ := mem_advanced hadv hc'
    obtain ⟨hmessage, hoffset, hid, hlenpos, hlenle⟩ := hw.chunks c hc
    exact ⟨hmessage, hoffset, hid, hlenpos, hlenle⟩
  · rcases hw.placed hfull with hchain | ⟨hend, hbehind⟩
    · left
      clear hbytes hsent hahead hw
      induction hadv generalizing pos with
      | nil => trivial
      | cons hc _ ih =>
        obtain ⟨k, -, rfl⟩ := hc
        exact ⟨hchain.1, ih hchain.2⟩
    · refine .inr ⟨hend, fun c' hc' => ?_⟩
      obtain ⟨c, hc, k, -, rfl⟩ := mem_advanced hadv hc'
      exact hbehind c hc

/-- **The first chunk is answered** with as many bytes, or fewer. -/
theorem Window.use (hw : Window full file h pos offsetSent requestId (c :: cs)) {n : Nat}
    (hn : n ≤ c.len) (hplaced : full → Placed file (pos + n) cs) :
    Window full file h (pos + n) (toSize ((offsetSent : Int) - (c.len - n : Nat))) requestId
      cs := by
  have hahead := hw.ahead
  have hsent := hw.sent_eq
  rw [requestedBytes_cons] at hahead hsent
  refine ⟨fun c' hc' => hw.chunks c' (List.mem_cons_of_mem c hc'), hw.numbered.tail, ?_, by omega,
    hplaced⟩
  rw [hsent]
  unfold toSize
  omega

/-- A server that answers in full leaves no gap. -/
theorem Placed.use (hp : Placed file pos (c :: cs)) (hoffset : c.offset < file.length) :
    c.offset = pos ∧ Placed file (pos + min c.len (file.length - c.offset)) cs := by
  rcases hp with ⟨rfl, hchain⟩ | ⟨-, hbehind⟩
  · refine ⟨rfl, ?_⟩
    rcases Nat.le_total c.len (file.length - c.offset) with hle | hle
    · rw [Nat.min_eq_left hle]
      exact .inl hchain
    · rw [Nat.min_eq_right hle]
      refine .inr ⟨by omega, fun c' hc' => ?_⟩
      have hle' := hchain.le hc'
      omega
  · exact absurd (hbehind c List.mem_cons_self) (Nat.not_le.mpr hoffset)

end Window

/-! ## Answers -/

theorem ReadReply.shape {requestId offset len : Nat} {p : List UInt8}
    (hp : ReadReply full file requestId offset len p) : ReplyShape p := by
  cases hp with
  | data bytes => exact dataReply_shape requestId bytes
  | status code texts => exact statusReply_shape requestId code texts

theorem ReadReply.packetId {requestId offset len : Nat} {p : List UInt8}
    (hp : ReadReply full file requestId offset len p) (hid : requestId < 2 ^ 32) :
    packetId p = requestId := by
  cases hp with
  | data bytes => rw [dataReply_eq, packetId_cons _ _ hid]
  | status code texts => rw [statusReply_eq, packetId_cons _ _ hid]

/-- The server answers the chunk whose request it has read. -/
theorem readServer_valid {c : PipelineChunk} (hc : ReadChunk h c) {p : List UInt8}
    (hp : readServer full file c.message p) :
    packetId p = c.requestId ∧ ReadValid full file c p := by
  have hsize : c.len < 2 ^ 32 := hc.len_le.trans_lt (by decide)
  obtain ⟨-, hreply⟩ := hp
  rw [hc.message, decodeRequest_readMessage h hc.requestId_lt hc.offset_lt hsize] at hreply
  have hid := hreply.packetId hc.requestId_lt
  exact ⟨hid, hreply, hid⟩

/-! ## Between calls -/

/-- Before the end of the file is reached. -/
structure Live (full : Prop) (file : List UInt8) (h : RemoteHandle) (start : Nat) (got : List UInt8)
    (answered : List Nat) (replies : List (List UInt8)) (s : Pipeline) : Prop where
  eof : s.eof = false
  filed : s.Filed
  position : Position file start got s.offset s.data s.dataLeft
  window : Window full file h (s.offset + s.dataLeft) s.offsetSent s.requestId s.packetList
  chunks : ∃ gone, OnWire gone s.packetList s.wire ∧
    Replies (ReadValid full file) gone.length s.packetList answered replies

/-- A call that waits goes on with its chunks, the first of which is sent if it waits for its
answer. -/
structure Waiting (s : Pipeline) : Prop where
  busy : s.readState ≠ .idle → s.dataLeft = 0 ∧ s.packetList ≠ []
  first : s.readState = .sent2 → ∀ c ∈ s.packetList.head?, c.lefttosend = 0

/-- The end of the file is reached. -/
structure AtEnd (full : Prop) (file : List UInt8) (start : Nat) (got : List UInt8) (s : Pipeline) :
    Prop where
  eof : s.eof = true
  idle : s.readState = .idle
  dataLeft : s.dataLeft = 0
  position : Position file start got s.offset s.data s.dataLeft
  ends : full → file.length ≤ s.offset

section Steps

variable {got : List UInt8} {answered : List Nat} {replies replies' : List (List UInt8)}
    {s : Pipeline}

theorem Live.shape (hl : Live full file h start got answered replies s) :
    ∀ p ∈ replies, ReplyShape p := by
  obtain ⟨gone, -, hreplies⟩ := hl.chunks
  intro p hp
  obtain ⟨c, -, -, -, hvalid⟩ := hreplies.valid p hp
  exact hvalid.1.shape

/-- Packets come and go. -/
theorem Live.packets (hl : Live full file h start got answered replies s)
    {packets : List SftpPacket}
    (hfiled : ({ s with packets := packets } : Pipeline).Filed) (hperm : replies.Perm replies') :
    Live full file h start got answered replies' { s with packets := packets } := by
  obtain ⟨gone, hwire, hreplies⟩ := hl.chunks
  exact ⟨hl.eof, hfiled, hl.position, hl.window, gone, hwire, hreplies.perm hperm⟩

/-- **One more request.** -/
theorem Live.addRead (hl : Live full file h start got answered replies s)
    (hfits : Fits full file start)
    {size : Nat} (hsize : 0 < size) (hle : size ≤ maxReadSize)
    (hahead : requestedBytes s.packetList + size ≤ maxReadAhead + maxReadSize) :
    Live full file h start got answered replies (s.addRead h size) := by
  obtain ⟨gone, hwire, hreplies⟩ := hl.chunks
  have hfresh := hl.window.numbered.fresh (Nat.lt_of_succ_lt hl.window.length_lt)
  exact ⟨hl.eof, ⟨hl.filed.ids, hl.filed.zombies⟩, hl.position,
    hl.window.add hfits hl.position.pos_le hsize hle hahead, gone,
    hwire.concat (forRead_framed h s.requestId s.offsetSent size).1 rfl, hreplies.concat hfresh⟩

/-- **The chunks are sent on.** -/
theorem Live.send (hl : Live full file h start got answered replies s) (again : Bool) (stall : Int)
    (writes : List Nat) :
    Live full file h start got answered replies
      { s with
        packetList := (sendChunks again stall s.packetList writes s.wire).chunks
        wire := (sendChunks again stall s.packetList writes s.wire).wire } := by
  obtain ⟨gone, hwire, hreplies⟩ := hl.chunks
  obtain ⟨hwire', hadv, -, -⟩ := @sendChunks_spec _ _ _ again stall writes hwire
  exact ⟨hl.eof, ⟨hl.filed.ids, hl.filed.zombies⟩, hl.position, hl.window.advance hadv, gone,
    hwire', hreplies.advance hadv fun c k p hvalid => hvalid⟩

/-- A channel that takes every request at once takes them all. -/
theorem Live.send_none (hl : Live full file h start got answered replies s) {env : PipelineEnv}
    (htakes : TakesAll env) (again : Bool) (stall : Int) :
    (sendChunks again stall s.packetList env.writes s.wire).rc = none := by
  obtain ⟨hmany, hlarge⟩ := htakes
  obtain ⟨gone, hwire, -⟩ := hl.chunks
  have hlen := length_le_requestedBytes fun c hc => (hl.window.chunks c hc).len_pos
  refine (sendChunks_all again stall ((hlen.trans hl.window.ahead).trans hmany) fun n hn c hc =>
    ?_).1
  have hn := hlarge n hn
  have hhandle := h.length_le
  have hframed := hwire.framed c hc
  have htotal := hframed.total
  have hpacket := congrArg List.length hframed.packet_eq
  rw [length_frame, (hl.window.chunks c hc).message, length_readMessage] at hpacket
  omega

/-- **The server answers.** -/
theorem Live.answer (hl : Live full file h start got answered replies s)
    {moves : List (Nat × List UInt8)}
    (hmoves : Answers (readServer full file) (frames s.wire) answered moves) :
    Live full file h start got (answered ++ moves.map Prod.fst) (replies ++ moves.map Prod.snd)
      s := by
  obtain ⟨gone, hwire, hreplies⟩ := hl.chunks
  exact ⟨hl.eof, hl.filed, hl.position, hl.window, gone, hwire, hreplies.answer hwire
    (fun c hc p hp => readServer_valid (hl.window.chunks c hc) hp) hmoves⟩

theorem overlap_add (bufferSize filled n : Nat) (hfilled : filled ≤ bufferSize) :
    (overlap bufferSize filled n).1 + (overlap bufferSize filled n).2 = n ∧
      filled + (overlap bufferSize filled n).1 = min bufferSize (filled + n) := by
  unfold overlap
  split <;> dsimp only <;> omega

/-- **The first chunk is answered with data.** -/
theorem Live.takeData {c : PipelineChunk} {rest : List PipelineChunk} {bytes : List UInt8}
    (hl : Live full file h start got answered (dataReply c.requestId bytes :: replies) s)
    (hfits : Fits full file start) (hlist : s.packetList = c :: rest) (hsent : c.lefttosend = 0)
    (hleft : s.dataLeft = 0) (hpart : bytes <+: file.drop s.offset) (hlen : bytes.length ≤ c.len)
    (hfull : full → c.offset < file.length ∧ bytes = (file.drop c.offset).take c.len)
    {bufferSize filled : Nat} (hfilled : filled ≤ bufferSize) :
    Live full file h start (got ++ bytes.take (overlap bufferSize filled bytes.length).1) answered
      replies
      (s.takeData c rest (dataReply c.requestId bytes) bytes.length bufferSize filled) := by
  obtain ⟨gone, hwire, hreplies⟩ := hl.chunks
  have hwindow := hl.window
  rw [hlist] at hwire hreplies hwindow
  rw [hleft, Nat.add_zero] at hwindow
  have hc := hwire.framed c List.mem_cons_self
  have hchunk := hwindow.chunks c List.mem_cons_self
  obtain ⟨hsum, -⟩ := overlap_add bufferSize filled bytes.length hfilled
  have hid := packetId_cons fxpData (store 4 bytes.length ++ bytes) hchunk.requestId_lt
  rw [← dataReply_eq] at hid
  obtain ⟨-, hrest⟩ := hreplies.use hid
  have hplaced : full → Placed file (s.offset + bytes.length) rest := by
    intro hf
    obtain ⟨hlt, hbytes⟩ := hfull hf
    have hused := ((hwindow.placed hf).use hlt).2
    rwa [hbytes, List.length_take, List.length_drop]
  have hwin := hwindow.use hlen hplaced
  have hpos : Position file start
      (got ++ bytes.take (overlap bufferSize filled bytes.length).1)
      (toSize ((s.offset + (overlap bufferSize filled bytes.length).1 : Nat) : Int))
      (if bufferSize < filled + bytes.length then dataReply c.requestId bytes else s.data)
      (if bufferSize < filled + bytes.length then (overlap bufferSize filled bytes.length).2
        else s.dataLeft) := by
    refine hl.position.take hfits hpart (by omega) ?_ ?_
    · split
      · rw [length_dataReply]
        omega
      · exact hl.position.left_le
    · split
      · have hdrop : (dataReply c.requestId bytes).drop 9 = bytes := by
          rw [dataReply_eq, drop_nine]
        have hn : (dataReply c.requestId bytes).length -
            (overlap bufferSize filled bytes.length).2 =
            9 + (overlap bufferSize filled bytes.length).1 := by
          rw [length_dataReply]
          omega
        rw [hn, ← List.drop_drop, hdrop]
      · next hfit =>
        have hall : (overlap bufferSize filled bytes.length).1 = bytes.length := by
          simp only [overlap, if_neg hfit]
        rw [hleft, Nat.sub_zero, List.drop_length, hall, List.drop_length]
  have hsum' : toSize ((s.offset + (overlap bufferSize filled bytes.length).1 : Nat) : Int) +
      (if bufferSize < filled + bytes.length then (overlap bufferSize filled bytes.length).2
        else s.dataLeft) = s.offset + bytes.length := by
    have hoffset := hpos.offset_eq
    have hstart := hl.position.offset_eq
    have hk : (overlap bufferSize filled bytes.length).1 ≤ bytes.length := by omega
    rw [List.length_append, List.length_take_of_le hk] at hoffset
    split
    · omega
    · next hfit =>
      have hall : (overlap bufferSize filled bytes.length).1 = bytes.length := by
        simp only [overlap, if_neg hfit]
      omega
  refine ⟨hl.eof, ⟨hl.filed.ids, hl.filed.zombies⟩, hpos, ?_, gone ++ [c.message],
    (onWire_cons_iff hc hsent).mp hwire, ?_⟩
  · exact hsum'.symm ▸ hwin
  · rwa [List.length_append, List.length_singleton]

/-- The answer at the end of the file, or an error: the requests behind it are given up. -/
theorem Live.finish {c : PipelineChunk} {rest : List PipelineChunk}
    (hl : Live full file h start got answered replies s) (hlist : s.packetList = c :: rest)
    (hleft : s.dataLeft = 0) (hidle : s.readState = .idle) (hends : full → file.length ≤ c.offset) :
    AtEnd full file start got
      { ({ s with packetList := rest } : Pipeline).packetlistFlush with eof := true } := by
  rw [Pipeline.packetlistFlush_eq]
  refine ⟨rfl, hidle, hleft, hl.position, fun hf => ?_⟩
  have hplaced := hl.window.placed hf
  rw [hlist, hleft, Nat.add_zero] at hplaced
  rcases hplaced with ⟨hoffset, -⟩ | ⟨hend, -⟩
  · exact hoffset ▸ hends hf
  · exact hend

end Steps

end Ssh2Python
