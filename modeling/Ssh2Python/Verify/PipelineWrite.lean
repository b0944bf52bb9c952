import Ssh2Python.Verify.PipelineReplies

/-!
# Writing a remote file

`Writing` is what holds between the calls of `sftp_write` until one of them reports that a request
was not carried out: the chunks are the pieces of the data that follow what is acknowledged
(`Pieces`), a good status for a chunk means that its bytes are in the file (`WriteValid`), and so
are all bytes that were acknowledged.
-/

namespace Ssh2Python

open Lib.CInt Lib.Wire Lib.Patch

/-! ## Messages -/

theorem length_writeMessage (h : RemoteHandle) (requestId offset : Nat) (bytes : List UInt8) :
    (writeMessage h requestId offset bytes).length = h.bytes.length + bytes.length + 21 := by
  simp only [writeMessage, storeStr, List.length_append, List.length_cons, List.length_nil,
    length_store]
  omega

theorem forWrite_framed (h : RemoteHandle) (requestId offset : Nat) {bytes : List UInt8}
    (hshort : bytes.length ≤ maxOutgoingSize) :
    (PipelineChunk.forWrite h requestId offset bytes).Framed ∧
      (PipelineChunk.forWrite h requestId offset bytes).message =
        writeMessage h requestId offset bytes := by
  have hlen := length_writeMessage h requestId offset bytes
  have hhandle := h.length_le
  have hmax : maxOutgoingSize = 30000 := rfl
  have hmessage : (PipelineChunk.forWrite h requestId offset bytes).message =
      writeMessage h requestId offset bytes := List.drop_left' (length_store 4 _)
  refine ⟨⟨?_, ?_, ?_⟩, hmessage⟩
  · rw [hmessage, frame, hlen]
    rfl
  · rw [hmessage, hlen]
    omega
  · simp only [PipelineChunk.forWrite, List.length_append, length_store, hlen]
    omega

theorem decodeRequest_writeMessage (h : RemoteHandle) {requestId offset : Nat} {bytes : List UInt8}
    (hid : requestId < 2 ^ 32) (hoffset : offset < 2 ^ 64) (hshort : bytes.length < 2 ^ 32) :
    decodeRequest (writeMessage h requestId offset bytes) =
      ⟨fxpWrite, requestId, h.bytes, offset, bytes.length, bytes⟩ := by
  have hhandle := h.length_le
  have hlayout := @decodeRequest_layout fxpWrite requestId offset bytes.length h.bytes bytes hid
    (by omega) hoffset hshort
  rwa [List.append_assoc] at hlayout

/-! ## The invariant -/

variable {h : RemoteHandle} {data init file file' : List UInt8} {start : Nat}

/-- A chunk with the piece of the data at a position. -/
structure WriteChunk (h : RemoteHandle) (data : List UInt8) (start pos : Nat) (c : PipelineChunk) :
    Prop where
  message : c.message = writeMessage h c.requestId (start + pos) ((data.drop pos).take c.len)
  requestId_lt : c.requestId < 2 ^ 32
  len_pos : 0 < c.len
  len_le : c.len ≤ maxOutgoingSize
  within : pos + c.len ≤ data.length

/-- The chunks have the pieces of the data from a position on. -/
def Pieces (h : RemoteHandle) (data : List UInt8) (start : Nat) : Nat → List PipelineChunk → Prop
  | _, [] => True
  | pos, c :: cs => WriteChunk h data start pos c ∧ Pieces h data start (pos + c.len) cs

/-- A request to write a piece of the data. -/
def PieceOf (data : List UInt8) (start : Nat) (m : List UInt8) : Prop :=
  ∃ k n, k + n ≤ data.length ∧ (decodeRequest m).offset = start + k ∧
    (decodeRequest m).bytes = (data.drop k).take n

/-- The bytes of a request are in the file. -/
def InFile (data : List UInt8) (start : Nat) (file m : List UInt8) : Prop :=
  ∀ j, (decodeRequest m).offset ≤ start + j →
    start + j < (decodeRequest m).offset + (decodeRequest m).bytes.length → Holds start data file j

/-- An answer to a chunk: if it is good, the bytes are in the file. -/
def WriteValid (data : List UInt8) (start : Nat) (file : List UInt8) (c : PipelineChunk)
    (p : List UInt8) : Prop :=
  ∃ (code : Nat) (texts : List UInt8), code < 2 ^ 32 ∧ p = statusReply c.requestId code texts ∧
    (code = 0 → InFile data start file c.message)

/-- What a request writes. -/
def requestBytes (m : List UInt8) : List UInt8 :=
  (decodeRequest m).bytes

/-- While nothing has failed, with the first `done` bytes acknowledged. -/
structure Writing (h : RemoteHandle) (data init : List UInt8) (start done : Nat)
    (answered : List Nat)
    (replies : List (List UInt8)) (file : List UInt8) (s : Pipeline) : Prop where
  filed : s.Filed
  offset_eq : s.offset = start + done
  sent_eq : s.offsetSent = start + done + requestedBytes s.packetList
  within : done + requestedBytes s.packetList ≤ data.length
  ahead : requestedBytes s.packetList < 2 ^ 32
  numbered : Numbered s.requestId s.packetList
  pieces : Pieces h data start done s.packetList
  chunks : ∃ gone, OnWire gone s.packetList s.wire ∧
    Replies (WriteValid data start file) gone.length s.packetList answered replies ∧
    gone.flatMap requestBytes = data.take done
  patched : Patched 0 init start data file
  stored : ∀ j < done, Holds start data file j

/-! ## Pieces -/

section Pieces

variable {pos : Nat} {c : PipelineChunk} {cs cs' : List PipelineChunk}

theorem Pieces.mem (hpieces : Pieces h data start pos cs) (hc : c ∈ cs) :
    ∃ pos', WriteChunk h data start pos' c := by
  induction cs generalizing pos with
  | nil => exact absurd hc List.not_mem_nil
  | cons c' cs ih =>
    rcases List.mem_cons.mp hc with rfl | hc
    · exact ⟨pos, hpieces.1⟩
    · exact ih hpieces.2 hc

theorem Pieces.concat (hpieces : Pieces h data start pos cs)
    (hc : WriteChunk h data start (pos + requestedBytes cs) c) :
    Pieces h data start pos (cs ++ [c]) := by
  induction cs generalizing pos with
  | nil => exact ⟨by simpa [requestedBytes] using hc, trivial⟩
  | cons c' cs ih =>
    rw [requestedBytes_cons, ← Nat.add_assoc] at hc
    exact ⟨hpieces.1, ih hpieces.2 hc⟩

theorem Pieces.advance (hpieces : Pieces h data start pos cs)
    (hadv : List.Forall₂ PipelineChunk.Advanced cs cs') : Pieces h data start pos cs' := by
  induction hadv generalizing pos with
  | nil => trivial
  | cons hc _ ih =>
    obtain ⟨k, -, rfl⟩ := hc
    obtain ⟨⟨hmessage, hid, hpos, hle, hwithin⟩, hrest⟩ := hpieces
    exact ⟨⟨hmessage, hid, hpos, hle, hwithin⟩, ih hrest⟩

theorem WriteChunk.decode (hc : WriteChunk h data start pos c)
    (hfits : start + data.length < 2 ^ 64) :
    decodeRequest c.message = ⟨fxpWrite, c.requestId, h.bytes, start + pos, c.len,
      (data.drop pos).take c.len⟩ := by
  have hlen := length_piece hc.within
  have hle := hc.len_le
  have hwithin := hc.within
  have hmax : maxOutgoingSize < 2 ^ 32 := by decide
  have hdecode :=
    @decodeRequest_writeMessage h c.requestId (start + pos) ((data.drop pos).take c.len)
    hc.requestId_lt (by omega) (by rw [hlen]; omega)
  rw [hc.message, hdecode, hlen]

theorem WriteChunk.pieceOf (hc : WriteChunk h data start pos c)
    (hfits : start + data.length < 2 ^ 64) :
    PieceOf data start c.message := by
  have hdecode := hc.decode hfits
  exact ⟨pos, c.len, hc.within, by rw [hdecode], by rw [hdecode]⟩

/-- The bytes of a chunk that are in the file. -/
theorem WriteChunk.holds (hc : WriteChunk h data start pos c) (hfits : start + data.length < 2 ^ 64)
    (hin : InFile data start file c.message) {j : Nat} (hj : pos ≤ j) (hlt : j < pos + c.len) :
    Holds start data file j := by
  have hlen := length_piece hc.within
  refine hin j ?_ ?_ <;> rw [hc.decode hfits] <;> dsimp only
  · omega
  · rw [hlen]
    omega

/-- The chunks that are sent follow each other. -/
theorem Pieces.sent (hfits : start + data.length < 2 ^ 64) (hpieces : Pieces h data start pos cs)
    {messages : List (List UInt8)} {wire : List UInt8} (hwire : OnWire messages cs wire) :
    (sentMessages cs).flatMap requestBytes <+: data.drop pos := by
  induction cs generalizing messages pos with
  | nil => exact List.nil_prefix
  | cons c cs ih =>
    by_cases hfull : c.lefttosend = 0
    · obtain ⟨hchunk, hrest⟩ := hpieces
      have hc := hwire.framed c List.mem_cons_self
      have hnext := ih hrest ((onWire_cons_iff hc hfull).mp hwire)
      have hbytes : requestBytes c.message = (data.drop pos).take c.len := by
        rw [requestBytes, hchunk.decode hfits]
      rw [sentMessages_cons hfull, List.flatMap_cons, hbytes]
      conv_rhs => rw [← List.take_append_drop c.len (data.drop pos)]
      rw [← List.drop_drop] at hnext
      exact (List.prefix_append_right_inj _).mpr hnext
    · rw [hwire.sentMessages_nil hfull]
      exact List.nil_prefix

end Pieces

/-! ## The server -/

/-- **What the server does**, if all requests it has not answered yet are for pieces of the data: it
puts pieces of them into the file, and those bytes that it says it has. -/
theorem stored_spec {messages : List (List UInt8)} {answered : List Nat}
    {moves : List (Nat × List UInt8)} (hstored : Stored messages moves file file')
    (hmoves : Answers writeServer messages answered moves)
    (hpieces : ∀ i m, i ∉ answered → messages[i]? = some m → PieceOf data start m) :
    (Patched 0 init start data file → Patched 0 init start data file') ∧
      (∀ j < data.length, Holds start data file j → Holds start data file' j) ∧
      Answers (fun m p => writeServer m p ∧ (packetCode p = 0 → InFile data start file' m)) messages
        answered moves := by
  induction hstored generalizing answered with
  | nil file => exact ⟨id, fun _ _ => id, trivial⟩
  | @cons i reply m file last moves k message all rest ih =>
    obtain ⟨hnew, ⟨m', hm', hserver⟩, hrest⟩ := hmoves
    obtain rfl : m' = m := Option.some.inj (hm'.symm.trans message)
    obtain ⟨pos, n, hwithin, hoffset, hbytes⟩ := hpieces i m' hnew message
    have hpiece : pos + min k n ≤ data.length := by omega
    rw [hoffset, hbytes, List.take_take] at ih
    obtain ⟨hpatched, hholds, hanswers⟩ := ih hrest fun j m hj hm =>
      hpieces j m (fun hmem => hj (List.mem_append_left _ hmem)) hm
    refine ⟨fun hfile => hpatched (hfile.piece hpiece), fun j hj hold => ?_, hnew,
      ⟨m', message, hserver, fun hcode j hge hlt => ?_⟩, hanswers⟩
    · exact hholds j hj (hold.piece hj hpiece)
    · have hlen := length_piece hwithin
      have hall := all hcode
      rw [hbytes, hlen] at hall hlt
      rw [hoffset] at hge hlt
      exact hholds j (by omega) (holds_piece hpiece (by omega) (by omega))

section Steps

variable {done : Nat} {answered : List Nat} {replies replies' : List (List UInt8)} {s : Pipeline}

theorem Writing.status (hw : Writing h data init start done answered replies file s)
    {p : List UInt8}
    (hp : p ∈ replies) : ReplyShape p ∧ p.headD 0 = fxpStatus := by
  obtain ⟨gone, -, hreplies, -⟩ := hw.chunks
  obtain ⟨c, -, -, -, code, texts, -, rfl, -⟩ := hreplies.valid p hp
  refine ⟨statusReply_shape _ _ _, ?_⟩
  rw [statusReply_eq]
  rfl

/-- Packets come and go. -/
theorem Writing.packets (hw : Writing h data init start done answered replies file s)
    {packets : List SftpPacket} (hfiled : ({ s with packets := packets } : Pipeline).Filed)
    (hperm : replies.Perm replies') :
    Writing h data init start done answered replies' file { s with packets := packets } := by
  obtain ⟨gone, hwire, hreplies, hgone⟩ := hw.chunks
  exact ⟨hfiled, hw.offset_eq, hw.sent_eq, hw.within, hw.ahead, hw.numbered, hw.pieces,
    ⟨gone, hwire, hreplies.perm hperm, hgone⟩, hw.patched, hw.stored⟩

/-- The state of the call and what it keeps for later do not matter. -/
theorem Writing.turn (hw : Writing h data init start done answered replies file s)
    (writeState : PipelineState) (lastErrno acked : Nat) :
    Writing h data init start done answered replies file
      { s with writeState := writeState, lastErrno := lastErrno, acked := acked } :=
  ⟨⟨hw.filed.ids, hw.filed.zombies⟩, hw.offset_eq, hw.sent_eq, hw.within, hw.ahead, hw.numbered,
    hw.pieces, hw.chunks, hw.patched, hw.stored⟩

/-- **One more request**, for the next bytes of the data. -/
theorem Writing.addWrite (hw : Writing h data init start done answered replies file s)
    (hfits : start + data.length < 2 ^ 64) {n : Nat} (hpos : 0 < n) (hmax : n ≤ maxOutgoingSize)
    (hwithin : done + requestedBytes s.packetList + n ≤ data.length)
    (hahead : requestedBytes s.packetList + n < 2 ^ 32) :
    Writing h data init start done answered replies file
      (s.addWrite h ((data.drop (done + requestedBytes s.packetList)).take n)) := by
  obtain ⟨gone, hwire, hreplies, hgone⟩ := hw.chunks
  have hlen := length_piece hwithin
  have hsent := hw.sent_eq
  have hchunks : ∀ c ∈ s.packetList, 0 < c.len := fun c hc =>
    (hw.pieces.mem hc).elim fun _ hc => hc.len_pos
  have hmany := length_le_requestedBytes hchunks
  have hfresh := hw.numbered.fresh (by omega)
  obtain ⟨hframed, hmessage⟩ := @forWrite_framed h s.requestId s.offsetSent
    ((data.drop (done + requestedBytes s.packetList)).take n) (by rw [hlen]; exact hmax)
  have hbytes : requestedBytes (s.addWrite h
      ((data.drop (done + requestedBytes s.packetList)).take n)).packetList =
        requestedBytes s.packetList + n := by
    rw [Pipeline.addWrite, requestedBytes_concat, PipelineChunk.forWrite, hlen]
  refine ⟨⟨hw.filed.ids, hw.filed.zombies⟩, hw.offset_eq, ?_, ?_, ?_, hw.numbered.concat rfl,
    hw.pieces.concat ⟨?_, hw.numbered.next_lt, ?_, ?_, ?_⟩,
    ⟨gone, hwire.concat hframed rfl, hreplies.concat hfresh, hgone⟩, hw.patched, hw.stored⟩
  · rw [hbytes]
    simp only [Pipeline.addWrite, hlen]
    rw [toSize_eq (by omega) (by omega)]
    omega
  · rw [hbytes]
    omega
  · rw [hbytes]
    exact hahead
  · rw [hmessage, hsent, Nat.add_assoc]
    simp only [PipelineChunk.forWrite, hlen]
  · simpa only [PipelineChunk.forWrite, hlen] using hpos
  · simpa only [PipelineChunk.forWrite, hlen] using hmax
  · simpa only [PipelineChunk.forWrite, hlen] using hwithin

/-- **The chunks are sent on.** -/
theorem Writing.send (hw : Writing h data init start done answered replies file s) (again : Bool)
    (stall : Int) (writes : List Nat) :
    Writing h data init start done answered replies file
      { s with
        packetList := (sendChunks again stall s.packetList writes s.wire).chunks
        wire := (sendChunks again stall s.packetList writes s.wire).wire } := by
  obtain ⟨gone, hwire, hreplies, hgone⟩ := hw.chunks
  obtain ⟨hwire', hadv, -, -⟩ := @sendChunks_spec _ _ _ again stall writes hwire
  have hbytes := requestedBytes_advance hadv
  refine ⟨⟨hw.filed.ids, hw.filed.zombies⟩, hw.offset_eq, ?_, ?_, ?_, hw.numbered.advance hadv,
    hw.pieces.advance hadv,
    ⟨gone, hwire', hreplies.advance hadv fun c k p hvalid => hvalid, hgone⟩, hw.patched, hw.stored⟩
  · rw [hbytes]
    exact hw.sent_eq
  · rw [hbytes]
    exact hw.within
  · rw [hbytes]
    exact hw.ahead

/-- **The server answers**, and some of the answers arrive during the call. -/
theorem Writing.arrive {sys : RemoteFile} {i : PipelineCall} (hfits : start + data.length < 2 ^ 64)
    (hw : Writing h data init start done sys.answered (s.replies sys.inflight) file s)
    (hmoves : Answers writeServer (frames s.wire) sys.answered i.answers)
    (hstored : Stored (frames s.wire) i.answers file file') :
    Writing h data init start done (sys.answered ++ i.answers.map Prod.fst)
      (s.replies (sys.env i).arrivals ++ (sys.pool i).drop i.arrive) file' s := by
  obtain ⟨gone, hwire, hreplies, hgone⟩ := hw.chunks
  have hpieces : ∀ i m, i ∉ sys.answered → (frames s.wire)[i]? = some m → PieceOf data start m := by
    intro i m hnew hm
    rw [hwire.frames_eq] at hm
    have hge : gone.length ≤ i := by
      by_contra hlt
      exact hnew (hreplies.gone_answered i (Nat.not_le.mp hlt))
    rw [List.getElem?_append_right hge] at hm
    obtain ⟨c, hc, -, rfl⟩ := sentMessages_getElem? hwire hm
    obtain ⟨pos, hchunk⟩ := hw.pieces.mem (List.mem_of_getElem? hc)
    exact hchunk.pieceOf hfits
  obtain ⟨hpatched, hholds, hanswers⟩ := @stored_spec _ init _ _ _ _ _ _ hstored hmoves hpieces
  have hdone := hw.within
  rw [Pipeline.replies_pool]
  refine ⟨hw.filed, hw.offset_eq, hw.sent_eq, hw.within, hw.ahead, hw.numbered, hw.pieces,
    ⟨gone, hwire, Replies.answer (hreplies.mono ?_) hwire ?_ hanswers, hgone⟩, hpatched hw.patched,
    fun j hj => hholds j (by omega) (hw.stored j hj)⟩
  · rintro c hc p ⟨code, texts, hshort, hp, hgood⟩
    obtain ⟨pos, hchunk⟩ := hw.pieces.mem hc
    refine ⟨code, texts, hshort, hp, fun hcode j hge hlt => hholds j ?_ (hgood hcode j hge hlt)⟩
    have hlen := length_piece hchunk.within
    have hwithin := hchunk.within
    rw [hchunk.decode hfits] at hge hlt
    simp only [hlen] at hge hlt
    omega
  · rintro c hc p ⟨⟨-, code, texts, hshort, hp⟩, hgood⟩
    obtain ⟨pos, hchunk⟩ := hw.pieces.mem hc
    rw [hchunk.decode hfits] at hp
    obtain rfl := hp
    rw [statusReply_eq, packetCode_cons _ _ _ hshort] at hgood
    refine ⟨?_, code, texts, hshort, rfl, hgood⟩
    rw [statusReply_eq, packetId_cons _ _ hchunk.requestId_lt]

end Steps

end Ssh2Python
