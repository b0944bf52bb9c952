import Ssh2Python.RemoteFile
import Ssh2Python.Verify.PipelineWire
import Mathlib.Data.List.Nodup

/-!
# Answers and the requests they are for

`Replies` relates the answers that a client has not used yet to its chunks: each is for one chunk
that is sent, no two have one request id, and the server will not answer these requests again. It is
kept when the server answers (`Replies.answer`), when chunks are sent on or added, and when the
answer to the first chunk is used (`Replies.use`). `packetRequire_spec` says that what a call gets
for a request id is the answer with that id, and that nothing else is lost.
-/

namespace Ssh2Python

open Lib.CInt Lib.Wire

/-! ## Fields of packets -/

section Fields

variable (type : UInt8) (requestId n : Nat) (rest : List UInt8)

theorem drop_five : (type :: (store 4 requestId ++ rest)).drop 5 = rest := by
  rw [List.drop_succ_cons]
  exact List.drop_left' (length_store 4 requestId)

theorem drop_nine : (type :: (store 4 requestId ++ (store 4 n ++ rest))).drop 9 = rest := by
  rw [← List.drop_drop (i := 4) (j := 5), drop_five]
  exact List.drop_left' (length_store 4 n)

theorem packetId_cons {requestId : Nat} (h : requestId < 2 ^ 32) :
    packetId (type :: (store 4 requestId ++ rest)) = requestId := by
  rw [packetId, List.drop_one, List.tail_cons, List.take_left' (length_store 4 requestId),
    value_store]
  exact Nat.mod_eq_of_lt h

theorem packetCode_cons {n : Nat} (h : n < 2 ^ 32) :
    packetCode (type :: (store 4 requestId ++ (store 4 n ++ rest))) = n := by
  rw [packetCode, drop_five, List.take_left' (length_store 4 n), value_store]
  exact Nat.mod_eq_of_lt h

end Fields

/-- **The server reads in a request what the client put there.** -/
theorem decodeRequest_layout (type : UInt8) {requestId offset len : Nat} {handle bytes : List UInt8}
    (hid : requestId < 2 ^ 32) (hhandle : handle.length < 2 ^ 32) (hoffset : offset < 2 ^ 64)
    (hlen : len < 2 ^ 32) :
    decodeRequest ([type] ++ store 4 requestId ++ storeStr handle ++ store 8 offset ++
      store 4 len ++ bytes) = ⟨type, requestId, handle, offset, len, bytes⟩ := by
  have hmessage : [type] ++ store 4 requestId ++ storeStr handle ++ store 8 offset ++ store 4 len ++
      bytes = type :: (store 4 requestId ++ (store 4 handle.length ++ (handle ++ (store 8 offset ++
        (store 4 len ++ bytes))))) := by
    simp [storeStr]
  have hvalue : value (store 4 handle.length) = handle.length := by
    rw [value_store]
    exact Nat.mod_eq_of_lt hhandle
  have hcount : value (((type :: (store 4 requestId ++ (store 4 handle.length ++ (handle ++
      (store 8 offset ++ (store 4 len ++ bytes)))))).drop 5).take 4) = handle.length := by
    rw [drop_five, List.take_left' (length_store 4 _), hvalue]
  rw [hmessage]
  simp only [decodeRequest, hcount, packetId_cons type _ hid, drop_nine, List.take_left,
    ← List.drop_drop, List.drop_left, List.take_left' (length_store 8 offset),
    List.drop_left' (length_store 8 offset), List.take_left' (length_store 4 len), value_store]
  have hdrop : (store 8 offset ++ (store 4 len ++ bytes)).drop 12 = bytes := by
    rw [← List.drop_drop (i := 4) (j := 8), List.drop_left' (length_store 8 offset)]
    exact List.drop_left' (length_store 4 len)
  rw [hdrop, Nat.mod_eq_of_lt (by simpa using hoffset), Nat.mod_eq_of_lt (by simpa using hlen)]
  rfl

/-! ## Waiting for an answer -/

/-- A packet that `sftp_packet_add` keeps, and that is long enough. -/
structure ReplyShape (p : List UInt8) : Prop where
  long : 9 ≤ p.length
  type : p.headD 0 = fxpData ∨ p.headD 0 = fxpStatus

theorem ReplyShape.known {p : List UInt8} (h : ReplyShape p) :
    knownPacketType (p.headD 0) = true := by
  rcases h.type with h | h <;> rw [h] <;> decide

theorem dataReply_eq (requestId : Nat) (bytes : List UInt8) :
    dataReply requestId bytes =
    fxpData :: (store 4 requestId ++ (store 4 bytes.length ++ bytes)) := by
  simp [dataReply, storeStr]

theorem statusReply_eq (requestId code : Nat) (texts : List UInt8) :
    statusReply requestId code texts =
    fxpStatus :: (store 4 requestId ++ (store 4 code ++ texts)) := by
  simp [statusReply]

theorem length_dataReply (requestId : Nat) (bytes : List UInt8) :
    (dataReply requestId bytes).length = 9 + bytes.length := by
  simp only [dataReply, storeStr, List.length_append, List.length_cons, List.length_nil,
    length_store]
  omega

theorem dataReply_shape (requestId : Nat) (bytes : List UInt8) :
    ReplyShape (dataReply requestId bytes) := by
  rw [dataReply_eq]
  exact ⟨by simp only [List.length_cons, List.length_append, length_store]; omega, .inl rfl⟩

theorem statusReply_shape (requestId code : Nat) (texts : List UInt8) :
    ReplyShape (statusReply requestId code texts) := by
  rw [statusReply_eq]
  exact ⟨by simp only [List.length_cons, List.length_append, length_store]; omega, .inr rfl⟩

namespace Pipeline

/-- The answers that are there, or will be. -/
def replies (s : Pipeline) (arrivals : List (List UInt8)) : List (List UInt8) :=
  s.packets.map SftpPacket.data ++ arrivals

theorem replies_append (s : Pipeline) (arrivals later : List (List UInt8)) :
    s.replies (arrivals ++ later) = s.replies arrivals ++ later :=
  (List.append_assoc _ _ _).symm

/-- The answers that arrive during a call, and those that come later. -/
theorem replies_pool (s : Pipeline) (sys : RemoteFile) (i : PipelineCall) :
    s.replies (sys.env i).arrivals ++ (sys.pool i).drop i.arrive =
      s.replies sys.inflight ++ i.answers.map Prod.snd := by
  rw [← replies_append, ← replies_append]
  exact congrArg s.replies (List.take_append_drop i.arrive (sys.pool i))

/-- The answer to the first chunk is not there. -/
def Missing (s : Pipeline) (arrivals : List (List UInt8)) : Prop :=
  ∃ c rest, s.packetList = c :: rest ∧ c.lefttosend = 0 ∧
    c.requestId ∉ (s.replies arrivals).map packetId

/-- The packets are filed under their request ids, and all of them are kept. -/
structure Filed (s : Pipeline) : Prop where
  ids : ∀ p ∈ s.packets, p.requestId = packetId p.data
  zombies : s.zombies = []

variable {s s' : Pipeline} {arrivals : List (List UInt8)} {types : List UInt8} {id : Nat}

/-- Taking a packet. -/
theorem packetAsk_some {type : UInt8} {data : List UInt8}
    (h : s.packetAsk type id = some (data, s')) :
    ∃ p, data = p.data ∧ p.data.headD 0 = type ∧ p.requestId = id ∧
      s.packets.Perm (p :: s'.packets) ∧ s' = { s with packets := s'.packets } := by
  unfold packetAsk at h
  rw [Option.map_eq_some_iff] at h
  obtain ⟨p, hfind, heq⟩ := h
  simp only [Prod.mk.injEq] at heq
  obtain ⟨rfl, rfl⟩ := heq
  obtain ⟨hp, front, back, hsplit, hfront⟩ := List.find?_eq_some_iff_append.mp hfind
  simp only [answers, decide_eq_true_eq] at hp
  refine ⟨p, rfl, hp.1, hp.2, ?_, rfl⟩
  have herase : s.packets.eraseP (answers type id) = front ++ back := by
    rw [hsplit, List.eraseP_append_right _ fun b hb => by simpa using hfront b hb,
      List.eraseP_cons_of_pos (by simpa [answers] using hp)]
  rw [herase, hsplit]
  exact List.perm_middle

theorem packetAskv_some {data : List UInt8} (h : s.packetAskv types id = some (data, s')) :
    ∃ p, data = p.data ∧ p.data.headD 0 ∈ types ∧ p.requestId = id ∧
      s.packets.Perm (p :: s'.packets) ∧ s' = { s with packets := s'.packets } := by
  induction types with
  | nil => exact absurd h nofun
  | cons type types ih =>
    rw [packetAskv, Option.or_eq_some_iff] at h
    rcases h with h | ⟨-, h⟩
    · obtain ⟨p, hdata, htype, hid, hperm, hs⟩ := packetAsk_some h
      exact ⟨p, hdata, htype ▸ List.mem_cons_self, hid, hperm, hs⟩
    · obtain ⟨p, hdata, htype, hid, hperm, hs⟩ := ih h
      exact ⟨p, hdata, List.mem_cons_of_mem type htype, hid, hperm, hs⟩

/-- No packet of these types is there. -/
theorem packetAskv_none (hs : s.Filed) (h : s.packetAskv types id = none) {p : SftpPacket}
    (hp : p ∈ s.packets) (htype : p.data.headD 0 ∈ types) : packetId p.data ≠ id := by
  induction types with
  | nil => exact absurd htype List.not_mem_nil
  | cons type types ih =>
    rw [packetAskv, Option.or_eq_none_iff] at h
    rcases List.mem_cons.mp htype with htype | htype
    · have hnot := h.1
      rw [packetAsk, Option.map_eq_none_iff, List.find?_eq_none] at hnot
      rw [← hs.ids p hp]
      intro hid
      exact hnot p hp (by simp only [answers, htype, hid, and_self, decide_true])
    · exact ih h.2 htype

theorem Filed.replace (h : s.Filed) {packets : List SftpPacket}
    (hsub : ∀ p ∈ packets, p ∈ s.packets) : ({ s with packets := packets } : Pipeline).Filed :=
  ⟨fun p hp => h.ids p (hsub p hp), h.zombies⟩

/-- What arrives is filed. -/
theorem packetAdd_eq (h : s.Filed) {p : List UInt8} (hp : ReplyShape p) :
    s.packetAdd p = (none, { s with packets := s.packets ++ [⟨packetId p, p⟩] }) := by
  have hlong := hp.long
  unfold packetAdd
  rw [if_neg (by omega), if_neg (by simp only [hp.known, Bool.true_eq_false, not_false_eq_true]),
    if_neg (by simp [h.zombies])]

theorem Filed.add (h : s.Filed) (p : List UInt8) :
    ({ s with packets := s.packets ++ [⟨packetId p, p⟩] } : Pipeline).Filed := by
  refine ⟨fun q hq => ?_, h.zombies⟩
  rcases List.mem_append.mp hq with hq | hq
  · exact h.ids q hq
  · rw [List.mem_singleton.mp hq]

/-- How waiting for an answer ends. -/
structure Required (types : List UInt8) (id : Nat) (pause : Int) (s : Pipeline)
    (arrivals : List (List UInt8)) (r : PipelineResult (List UInt8)) : Prop where
  filed : r.state.Filed
  state_eq : r.state = { s with packets := r.state.packets }
  result : r.result = .error pause ∧ r.state.replies r.arrivals = s.replies arrivals ∧
      (∀ p ∈ s.replies arrivals, p.headD 0 ∈ types → packetId p ≠ id) ∨
    ∃ data, r.result = .ok data ∧ packetId data = id ∧ data.headD 0 ∈ types ∧
      (s.replies arrivals).Perm (data :: r.state.replies r.arrivals)

/-- An answer that is there already. -/
theorem packetRequire_found {data : List UInt8} (pause : Int) (hs : s.Filed)
    (hshape : ∀ p ∈ s.replies arrivals, ReplyShape p)
    (hask : s.packetAskv types id = some (data, s')) :
    Required types id pause s arrivals (packetRequire types id pause s arrivals) := by
  obtain ⟨p, hdata, htype, hid, hperm, hs'⟩ := packetAskv_some hask
  have hmem : p ∈ s.packets := hperm.mem_iff.mpr List.mem_cons_self
  have hlong := (hshape p.data (List.mem_append_left _ (List.mem_map_of_mem hmem))).long
  have hres : packetRequire types id pause s arrivals = ⟨.ok data, s', arrivals⟩ := by
    rw [packetRequire.eq_def]
    simp only [hask, if_neg (show ¬ data.length < 9 by rw [hdata]; omega)]
  have hsub : ∀ q ∈ s'.packets, q ∈ s.packets := fun q hq =>
    hperm.mem_iff.mpr (List.mem_cons_of_mem p hq)
  rw [hres]
  refine ⟨?_, hs', .inr ⟨data, rfl, ?_, hdata ▸ htype, ?_⟩⟩
  · rw [hs']
    exact hs.replace hsub
  · rw [hdata, ← hs.ids p hmem, hid]
  · have hmap := (hperm.map SftpPacket.data).append_right arrivals
    rw [hdata]
    exact hmap

/-- **Waiting for an answer** finds one with the right request id, or all answers stay. -/
theorem packetRequire_spec (types : List UInt8) (id : Nat) (pause : Int) (hs : s.Filed)
    (hshape : ∀ p ∈ s.replies arrivals, ReplyShape p) :
    Required types id pause s arrivals (packetRequire types id pause s arrivals) := by
  induction arrivals generalizing s with
  | nil =>
    cases hask : s.packetAskv types id with
    | some found => exact packetRequire_found pause hs hshape hask
    | none =>
      have hres : packetRequire types id pause s [] = ⟨.error pause, s, []⟩ := by
        rw [packetRequire]
        simp only [hask]
      rw [hres]
      refine ⟨hs, rfl, .inl ⟨rfl, rfl, fun p hp htype => ?_⟩⟩
      rw [replies, List.append_nil] at hp
      obtain ⟨q, hq, rfl⟩ := List.mem_map.mp hp
      exact packetAskv_none hs hask hq htype
  | cons p arrivals ih =>
    cases hask : s.packetAskv types id with
    | some found => exact packetRequire_found pause hs hshape hask
    | none =>
      have hp := hshape p (List.mem_append_right _ List.mem_cons_self)
      have hres : packetRequire types id pause s (p :: arrivals) = packetRequire types id pause
          { s with packets := s.packets ++ [⟨packetId p, p⟩] } arrivals := by
        rw [packetRequire]
        simp only [hask, packetAdd_eq hs hp]
      have hreplies : ({ s with packets := s.packets ++ [⟨packetId p, p⟩] } : Pipeline).replies
          arrivals = s.replies (p :: arrivals) := by
        simp [replies]
      obtain ⟨hfiled, heq, hresult⟩ := ih (hs.add p) (hreplies ▸ hshape)
      rw [hres]
      rw [hreplies] at hresult
      exact ⟨hfiled, heq, hresult⟩

/-- Waiting for an answer sends nothing. -/
theorem wire_packetRequire (types : List UInt8) (id : Nat) (pause : Int) (s : Pipeline)
    (arrivals : List (List UInt8)) :
    (packetRequire types id pause s arrivals).state.wire = s.wire := by
  induction arrivals generalizing s with
  | nil =>
    unfold packetRequire
    cases hask : s.packetAskv types id with
    | some found =>
      obtain ⟨-, -, -, -, -, hs'⟩ := packetAskv_some hask
      dsimp only
      split <;> rw [hs']
    | none => rfl
  | cons p arrivals ih =>
    unfold packetRequire
    cases hask : s.packetAskv types id with
    | some found =>
      obtain ⟨-, -, -, -, -, hs'⟩ := packetAskv_some hask
      dsimp only
      split <;> rw [hs']
    | none =>
      have hwire : (s.packetAdd p).2.wire = s.wire := by
        unfold packetAdd
        split
        · rfl
        split
        · rfl
        split <;> rfl
      rw [← hwire]
      cases hadd : s.packetAdd p with
      | mk rc s' =>
        simp only [hadd]
        cases rc with
        | some rc => rfl
        | none => exact ih s'

/-- What giving up all requests changes. -/
theorem flushChunks_eq (s : Pipeline) (cs : List PipelineChunk) : s.flushChunks cs =
    { s with packets := (s.flushChunks cs).packets, zombies := (s.flushChunks cs).zombies } := by
  induction cs generalizing s with
  | nil => rfl
  | cons c cs ih =>
    unfold flushChunks
    cases hask : s.packetAskv [fxpStatus, fxpData] c.requestId with
    | some found =>
      obtain ⟨data, s'⟩ := found
      obtain ⟨p, -, -, -, -, hs'⟩ := packetAskv_some hask
      dsimp only
      rw [ih s']
      rw [hs']
    | none =>
      dsimp only
      split
      · rw [ih]
      · exact ih s

theorem packetlistFlush_eq (s : Pipeline) : s.packetlistFlush =
    { s with
      packets := s.packetlistFlush.packets
      zombies := s.packetlistFlush.zombies
      packetList := [] } := by
  unfold packetlistFlush
  rw [flushChunks_eq]

end Pipeline

/-! ## Requests in a row -/

section Requests

variable {c : PipelineChunk} {cs cs' : List PipelineChunk}

def requestedBytes (cs : List PipelineChunk) : Nat :=
  (cs.map PipelineChunk.len).sum

theorem requestedBytes_cons : requestedBytes (c :: cs) = c.len + requestedBytes cs := by
  simp [requestedBytes]

theorem requestedBytes_concat : requestedBytes (cs ++ [c]) = requestedBytes cs + c.len := by
  simp [requestedBytes]

/-- There are not more chunks than bytes that are asked for. -/
theorem length_le_requestedBytes (hcs : ∀ c ∈ cs, 0 < c.len) : cs.length ≤ requestedBytes cs := by
  induction cs with
  | nil => exact Nat.le_refl 0
  | cons c cs ih =>
    have hpos := hcs c List.mem_cons_self
    have hle := ih fun c' hc' => hcs c' (List.mem_cons_of_mem c hc')
    rw [requestedBytes_cons, List.length_cons]
    omega

/-- The request ids follow each other. -/
def Numbered (next : Nat) (cs : List PipelineChunk) : Prop :=
  ∃ n, cs.map PipelineChunk.requestId = (List.range' n cs.length).map (· % 2 ^ 32) ∧
    next = (n + cs.length) % 2 ^ 32

theorem Numbered.next_lt {next : Nat} (hn : Numbered next cs) : next < 2 ^ 32 := by
  obtain ⟨n, -, rfl⟩ := hn
  exact Nat.mod_lt _ (by decide)

/-- A request id comes again only after 2^32 requests. -/
theorem Numbered.fresh {next : Nat} (hn : Numbered next cs) (hlen : cs.length < 2 ^ 32) :
    next ∉ cs.map PipelineChunk.requestId := by
  obtain ⟨n, hids, rfl⟩ := hn
  rw [hids]
  intro hmem
  obtain ⟨i, hi, heq⟩ := List.mem_map.mp hmem
  rw [List.mem_range'_1] at hi
  omega

theorem Numbered.concat {next : Nat} (hn : Numbered next cs) (hc : c.requestId = next) :
    Numbered ((next + 1) % 2 ^ 32) (cs ++ [c]) := by
  obtain ⟨n, hids, rfl⟩ := hn
  refine ⟨n, ?_, ?_⟩
  · rw [List.map_append, List.map_singleton, hids, hc, List.length_append, List.length_singleton,
      List.range'_1_concat, List.map_append, List.map_singleton]
  · rw [List.length_append, List.length_singleton]
    omega

theorem Numbered.tail {next : Nat} (hn : Numbered next (c :: cs)) : Numbered next cs := by
  obtain ⟨n, hids, rfl⟩ := hn
  rw [List.length_cons, List.range'_succ, List.map_cons, List.map_cons] at hids
  refine ⟨n + 1, (List.cons.inj hids).2, ?_⟩
  rw [List.length_cons]
  omega

theorem requestedBytes_advance (hadv : List.Forall₂ PipelineChunk.Advanced cs cs') :
    requestedBytes cs' = requestedBytes cs := by
  have hlens := map_advanced (fun c k => (rfl : (c.advance k).len = c.len)) hadv
  rw [requestedBytes, hlens, requestedBytes]

theorem Numbered.advance {next : Nat} (hn : Numbered next cs)
    (hadv : List.Forall₂ PipelineChunk.Advanced cs cs') : Numbered next cs' := by
  obtain ⟨n, hids, hnext⟩ := hn
  refine ⟨n, ?_, ?_⟩
  · rw [map_advanced (fun c k => (rfl : (c.advance k).requestId = c.requestId)) hadv, hids,
      hadv.length_eq]
  · rw [hnext, hadv.length_eq]

end Requests

/-! ## Chunks and their answers -/

/-- The answers that are not used yet, for the chunks of a list that has come after `gone` others:
they are for chunks that are sent, and no answer to one of these is lost. -/
structure Replies (Valid : PipelineChunk → List UInt8 → Prop) (gone : Nat) (cs : List PipelineChunk)
    (answered : List Nat) (replies : List (List UInt8)) : Prop where
  valid : ∀ p ∈ replies, ∃ c ∈ cs, c.lefttosend = 0 ∧ packetId p = c.requestId ∧ Valid c p
  nodup : (replies.map packetId).Nodup
  ids : (cs.map PipelineChunk.requestId).Nodup
  gone_answered : ∀ j < gone, j ∈ answered
  answered_lt : ∀ j ∈ answered, j < gone + cs.length
  answered_iff : ∀ k c, cs[k]? = some c →
    (c.requestId ∈ replies.map packetId ↔ gone + k ∈ answered)

section Replies

variable {Valid : PipelineChunk → List UInt8 → Prop} {gone : Nat} {c : PipelineChunk}
  {cs cs' : List PipelineChunk} {answered : List Nat} {replies replies' : List (List UInt8)}

theorem Replies.perm (h : Replies Valid gone cs answered replies) (hperm : replies.Perm replies') :
    Replies Valid gone cs answered replies' := by
  have hmap := hperm.map packetId
  exact ⟨fun p hp => h.valid p (hperm.mem_iff.mpr hp), hmap.nodup_iff.mp h.nodup, h.ids,
    h.gone_answered, h.answered_lt, fun k c hk => hmap.mem_iff.symm.trans (h.answered_iff k c hk)⟩

theorem Replies.mono {Valid' : PipelineChunk → List UInt8 → Prop}
    (h : Replies Valid gone cs answered replies) (hvalid : ∀ c ∈ cs, ∀ p, Valid c p → Valid' c p) :
    Replies Valid' gone cs answered replies := by
  refine ⟨fun p hp => ?_, h.nodup, h.ids, h.gone_answered, h.answered_lt, h.answered_iff⟩
  obtain ⟨c, hc, hfull, hid, hval⟩ := h.valid p hp
  exact ⟨c, hc, hfull, hid, hvalid c hc p hval⟩

/-- **The answer to the first chunk** is for it, and can be used. -/
theorem Replies.use {p : List UInt8} (h : Replies Valid gone (c :: cs) answered (p :: replies))
    (hp : packetId p = c.requestId) :
    Valid c p ∧ Replies Valid (gone + 1) cs answered replies := by
  have hids := List.nodup_cons.mp h.ids
  have hnodup := List.nodup_cons.mp h.nodup
  refine ⟨?_, fun q hq => ?_, hnodup.2, hids.2, fun j hj => ?_, fun j hj => ?_, fun k c' hk => ?_⟩
  · obtain ⟨c', hc', -, hid, hvalid⟩ := h.valid p List.mem_cons_self
    rcases List.mem_cons.mp hc' with rfl | hc'
    · exact hvalid
    · refine absurd ?_ hids.1
      rw [← hp, hid]
      exact List.mem_map_of_mem hc'
  · obtain ⟨c', hc', hfull, hid, hvalid⟩ := h.valid q (List.mem_cons_of_mem p hq)
    rcases List.mem_cons.mp hc' with rfl | hc'
    · refine absurd ?_ hnodup.1
      rw [hp, ← hid]
      exact List.mem_map_of_mem hq
    · exact ⟨c', hc', hfull, hid, hvalid⟩
  · rcases Nat.lt_succ_iff_lt_or_eq.mp hj with hj | rfl
    · exact h.gone_answered j hj
    · exact (h.answered_iff 0 c rfl).mp (hp ▸ List.mem_cons_self)
  · have hlt := h.answered_lt j hj
    rw [List.length_cons] at hlt
    omega
  · have hother : c'.requestId ≠ packetId p := by
      intro heq
      refine hids.1 ?_
      rw [← hp, ← heq]
      exact List.mem_map_of_mem (List.mem_of_getElem? hk)
    have hthere := h.answered_iff (k + 1) c' hk
    rw [List.map_cons, List.mem_cons, or_iff_right hother] at hthere
    rw [hthere, Nat.add_assoc, Nat.add_comm 1 k]

/-- More of the chunks is sent. -/
theorem Replies.advance (h : Replies Valid gone cs answered replies)
    (hadv : List.Forall₂ PipelineChunk.Advanced cs cs')
    (hvalid : ∀ c k p, Valid c p → Valid (c.advance k) p) :
    Replies Valid gone cs' answered replies := by
  have hids := map_advanced (fun c k => (rfl : (c.advance k).requestId = c.requestId)) hadv
  have hget {k : Nat} {c' : PipelineChunk} (hk : cs'[k]? = some c') :
      ∃ c, cs[k]? = some c ∧ c.Advanced c' := by
    clear h hids
    induction hadv generalizing k with
    | nil => exact absurd hk (by simp)
    | cons hc _ ih =>
      cases k with
      | zero =>
        obtain rfl : _ = c' := by simpa using hk
        exact ⟨_, rfl, hc⟩
      | succ k => simpa using ih (by simpa using hk)
  refine ⟨fun p hp => ?_, h.nodup, hids ▸ h.ids, h.gone_answered, hadv.length_eq ▸ h.answered_lt,
    fun k c' hk => ?_⟩
  · obtain ⟨c, hc, hfull, hid, hval⟩ := h.valid p hp
    obtain ⟨c', hc', k, hk, rfl⟩ : ∃ c' ∈ cs', c.Advanced c' := by
      clear h hids hget
      induction hadv with
      | nil => exact absurd hc List.not_mem_nil
      | cons hfirst _ ih =>
        rcases List.mem_cons.mp hc with rfl | hc
        · exact ⟨_, List.mem_cons_self, hfirst⟩
        · obtain ⟨c', hc', hadv'⟩ := ih hc
          exact ⟨c', List.mem_cons_of_mem _ hc', hadv'⟩
    refine ⟨c.advance k, hc', ?_, hid, hvalid c k p hval⟩
    simp only [PipelineChunk.advance]
    omega
  · obtain ⟨c, hc, j, -, rfl⟩ := hget hk
    exact h.answered_iff k c hc

/-- A chunk with a new request id. -/
theorem Replies.concat (h : Replies Valid gone cs answered replies)
    (hc : c.requestId ∉ cs.map PipelineChunk.requestId) :
    Replies Valid gone (cs ++ [c]) answered replies := by
  have hnew : c.requestId ∉ replies.map packetId := by
    intro hmem
    obtain ⟨p, hp, hid⟩ := List.mem_map.mp hmem
    obtain ⟨c', hc', -, hid', -⟩ := h.valid p hp
    exact hc (hid ▸ hid' ▸ List.mem_map_of_mem hc')
  refine ⟨fun p hp => ?_, h.nodup, ?_, h.gone_answered, fun j hj => ?_, fun k c' hk => ?_⟩
  · obtain ⟨c', hc', hrest⟩ := h.valid p hp
    exact ⟨c', List.mem_append_left _ hc', hrest⟩
  · rw [List.map_append, List.map_singleton]
    exact List.nodup_append.mpr ⟨h.ids, List.nodup_singleton _, fun id hid id' hid' heq => by
      rw [List.mem_singleton.mp hid'] at heq
      exact hc (heq ▸ hid)⟩
  · have hlt := h.answered_lt j hj
    rw [List.length_append]
    omega
  · rcases Nat.lt_or_ge k cs.length with hlt | hge
    · rw [List.getElem?_append_left hlt] at hk
      exact h.answered_iff k c' hk
    · rw [List.getElem?_append_right hge] at hk
      obtain rfl : c' = c := List.mem_singleton.mp (List.mem_of_getElem? hk)
      refine iff_of_false hnew fun hj => ?_
      have hlt := h.answered_lt _ hj
      omega

/-- An answer that is missing has not been given, if all that were given have arrived. -/
theorem Replies.missing {messages : List (List UInt8)} {s : Pipeline} {arrivals : List (List UInt8)}
    (h : Replies Valid messages.length s.packetList answered (s.replies arrivals))
    (hwire : OnWire messages s.packetList s.wire) (hmissing : s.Missing arrivals) :
    ∃ k < (frames s.wire).length, k ∉ answered := by
  obtain ⟨c, rest, hlist, hsent, hnot⟩ := hmissing
  rw [hlist] at h hwire
  refine ⟨messages.length, ?_, fun hthere => hnot ((h.answered_iff 0 c rfl).mpr hthere)⟩
  rw [hwire.frames_eq, sentMessages_cons hsent, List.length_append, List.length_cons]
  omega

/-- The message at a place of the wire is that of the chunk there. -/
theorem sentMessages_getElem? {messages : List (List UInt8)} {wire m : List UInt8} {k : Nat}
    (h : OnWire messages cs wire) (hk : (sentMessages cs)[k]? = some m) :
    ∃ c, cs[k]? = some c ∧ c.lefttosend = 0 ∧ c.message = m := by
  induction cs generalizing messages k with
  | nil => simp [sentMessages] at hk
  | cons c cs ih =>
    by_cases hfull : c.lefttosend = 0
    · rw [sentMessages_cons hfull] at hk
      cases k with
      | zero => exact ⟨c, rfl, hfull, by simpa using hk⟩
      | succ k =>
        have hc := h.framed c List.mem_cons_self
        simpa using ih ((onWire_cons_iff hc hfull).mp h) (by simpa using hk)
    · rw [h.sentMessages_nil hfull] at hk
      exact absurd hk (by simp)

/-- **The server answers**: to chunks that are sent, and to none again. -/
theorem Replies.answer {messages : List (List UInt8)} {wire : List UInt8}
    {server : List UInt8 → List UInt8 → Prop} {moves : List (Nat × List UInt8)}
    (h : Replies Valid messages.length cs answered replies) (hwire : OnWire messages cs wire)
    (hserver : ∀ c ∈ cs, ∀ p, server c.message p → packetId p = c.requestId ∧ Valid c p)
    (hmoves : Answers server (frames wire) answered moves) :
    Replies Valid messages.length cs (answered ++ moves.map Prod.fst)
      (replies ++ moves.map Prod.snd) := by
  induction moves generalizing answered replies with
  | nil => simpa using h
  | cons move moves ih =>
    obtain ⟨i, p⟩ := move
    obtain ⟨hnew, ⟨m, hm, hp⟩, hrest⟩ := hmoves
    rw [hwire.frames_eq] at hm
    have hge : messages.length ≤ i := by
      by_contra hlt
      exact hnew (h.gone_answered i (Nat.not_le.mp hlt))
    rw [List.getElem?_append_right hge] at hm
    obtain ⟨c, hc, hfull, rfl⟩ := sentMessages_getElem? hwire hm
    have hmem := List.mem_of_getElem? hc
    obtain ⟨hid, hvalid⟩ := hserver c hmem p hp
    have hfresh : packetId p ∉ replies.map packetId := by
      intro hold
      have hthere := (h.answered_iff _ c hc).mp (hid ▸ hold)
      rw [Nat.add_sub_cancel' hge] at hthere
      exact hnew hthere
    have hlt := (List.getElem?_eq_some_iff.mp hc).1
    have hstep : Replies Valid messages.length cs (answered ++ [i]) (replies ++ [p]) := by
      refine ⟨fun q hq => ?_, ?_, h.ids, fun j hj => List.mem_append_left _ (h.gone_answered j hj),
        fun j hj => ?_, fun k c' hk => ?_⟩
      · rcases List.mem_append.mp hq with hq | hq
        · exact h.valid q hq
        · rw [List.mem_singleton.mp hq]
          exact ⟨c, hmem, hfull, hid, hvalid⟩
      · rw [List.map_append, List.map_singleton]
        exact List.nodup_append.mpr ⟨h.nodup, List.nodup_singleton _, fun id hid id' hid' heq => by
          rw [List.mem_singleton.mp hid'] at heq
          exact hfresh (heq ▸ hid)⟩
      · rcases List.mem_append.mp hj with hj | hj
        · exact h.answered_lt j hj
        · rw [List.mem_singleton.mp hj]
          omega
      · have hsame : c'.requestId = packetId p ↔ messages.length + k = i := by
          rw [hid]
          constructor
          · intro heq
            have hk' : k < (cs.map PipelineChunk.requestId).length := by
              rw [List.length_map]
              exact (List.getElem?_eq_some_iff.mp hk).1
            have hinj : k = i - messages.length := by
              refine (List.getElem?_inj hk' h.ids).mp ?_
              rw [List.getElem?_map, List.getElem?_map, hk, hc, Option.map_some, Option.map_some,
                heq]
            omega
          · rintro rfl
            rw [Nat.add_sub_cancel_left, hk] at hc
            exact congrArg PipelineChunk.requestId (Option.some.inj hc)
        rw [List.map_append, List.map_singleton, List.mem_append, List.mem_singleton,
          List.mem_append, List.mem_singleton, h.answered_iff k c' hk, hsame]
    have hgoal := ih hstep hrest
    simpa using hgoal

end Replies

end Ssh2Python
