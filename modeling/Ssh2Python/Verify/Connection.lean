import Ssh2Python.ChannelLine

/-!
# Parts of a session

Channels are found by their numbers, and what happens to one of them leaves the others alone.
Messages are taken apart as they were put together. The loop of a read over the packets is
`takeChunks` on the chunks of its channel (`chunksOf_copyOut`).
-/

namespace Ssh2Python

open Lib.CInt Lib.Credit Lib.Outgoing Lib.Wire

theorem wrap32_eq {x : Int} (h₀ : 0 ≤ x) (h : x < 2 ^ 32) : wrap32 x = x.toNat := by
  rw [wrap32, toUInt32_eq h₀ h]

theorem wrap32_lt (x : Int) : wrap32 x < 2 ^ 32 := by
  have h := toUInt32_lt x
  have h₀ : 0 ≤ toUInt32 x := Int.emod_nonneg x (by decide)
  unfold wrap32
  omega

/-! ## The table of channels -/

namespace Session

variable {s : Session} {ch : ChannelState} {id : Nat}

theorem id_of_locate (h : s.locate id = some ch) : ch.localEnd.id = id := by
  have := List.find?_some h
  simpa using this

theorem chan_of_locate (h : s.locate id = some ch) : s.chan id = ch := by
  rw [chan, h, Option.getD_some]

theorem id_chan (h : (s.locate id).isSome) : (s.chan id).localEnd.id = id := by
  obtain ⟨ch, hch⟩ := Option.isSome_iff_exists.mp h
  rw [chan_of_locate hch]
  exact id_of_locate hch

theorem locate_put (s : Session) (ch : ChannelState) (id : Nat) :
    (s.put ch).locate id
      = if ch.localEnd.id = id then (s.locate id).map fun _ => ch else s.locate id := by
  unfold locate put
  dsimp only
  induction s.channels with
  | nil => simp
  | cons c cs ih =>
    rw [List.map_cons]
    by_cases hid : ch.localEnd.id = id
    · rw [if_pos hid] at ih ⊢
      by_cases hc : c.localEnd.id = ch.localEnd.id
      · rw [if_pos hc, List.find?_cons_of_pos (by simpa using hid),
          List.find?_cons_of_pos (by simpa using hc.trans hid), Option.map_some]
      · have hcid : ¬c.localEnd.id = id := fun h => hc (h.trans hid.symm)
        rw [if_neg hc, List.find?_cons_of_neg (by simpa using hcid),
          List.find?_cons_of_neg (by simpa using hcid), ih]
    · rw [if_neg hid] at ih ⊢
      by_cases hc : c.localEnd.id = ch.localEnd.id
      · have hcid : ¬c.localEnd.id = id := fun h => hid (hc.symm.trans h)
        rw [if_pos hc, List.find?_cons_of_neg (by simpa using hid),
          List.find?_cons_of_neg (by simpa using hcid), ih]
      · rw [if_neg hc, List.find?_cons, List.find?_cons, ih]

@[simp] theorem isSome_locate_put : ((s.put ch).locate id).isSome = (s.locate id).isSome := by
  rw [locate_put]
  split
  · exact Option.isSome_map
  · rfl

theorem chan_put_self (h : (s.locate id).isSome) (hid : ch.localEnd.id = id) :
    (s.put ch).chan id = ch := by
  obtain ⟨ch', hch'⟩ := Option.isSome_iff_exists.mp h
  rw [chan, locate_put, if_pos hid, hch']
  rfl

theorem chan_put_ne (h : ch.localEnd.id ≠ id) : (s.put ch).chan id = s.chan id := by
  rw [chan, locate_put, if_neg h, ← chan]

@[simp] theorem put_packets : (s.put ch).packets = s.packets := rfl

@[simp] theorem put_outbox : (s.put ch).outbox = s.outbox := rfl

end Session

/-! ## Messages -/

section

variable (t : UInt8) (id n : Nat) (rest : List UInt8)

@[simp] theorem recipient_head : recipient (t :: (store 4 id ++ rest)) = id % 2 ^ 32 := by
  have h : (store 4 id ++ rest).take 4 = store 4 id := List.take_left' (length_store 4 id)
  rw [recipient, List.drop_one, List.tail_cons, h]
  exact value_store 4 id

@[simp] theorem recipient_only : recipient (t :: store 4 id) = id % 2 ^ 32 := by
  simpa using recipient_head t id []

@[simp] theorem operand_head :
    operand (t :: (store 4 id ++ (store 4 n ++ rest))) = n % 2 ^ 32 := by
  have hdrop : (t :: (store 4 id ++ (store 4 n ++ rest))).drop 5 = store 4 n ++ rest := by
    rw [List.drop_succ_cons]
    exact List.drop_left' (length_store 4 id)
  have h : (store 4 n ++ rest).take 4 = store 4 n := List.take_left' (length_store 4 n)
  rw [operand, hdrop, h]
  exact value_store 4 n

@[simp] theorem operand_only : operand (t :: (store 4 id ++ store 4 n)) = n % 2 ^ 32 := by
  simpa using operand_head t id n []

end

theorem recipient_append {p : List UInt8} (h : 5 ≤ p.length) (body : List UInt8) :
    recipient (p ++ body) = recipient p := by
  unfold recipient
  rw [List.drop_append_of_le_length (by omega), List.take_append_of_le_length (by
    rw [List.length_drop]
    omega)]

theorem decodeMessage_other {id : Nat} {p : List UInt8} (h : recipient p ≠ id) :
    decodeMessage id p = none := by
  rw [decodeMessage, if_pos h]

theorem decodeMessage_windowAdjust {id n : Nat} (hid : id < 2 ^ 32) (hn : n < 2 ^ 32) :
    decodeMessage id ((ChannelMessage.windowAdjust n).encode id) = some (.windowAdjust n) := by
  have hrecipient := recipient_head msgWindowAdjust id (store 4 n)
  have hoperand := operand_only msgWindowAdjust id n
  rw [Nat.mod_eq_of_lt hid] at hrecipient
  rw [Nat.mod_eq_of_lt hn] at hoperand
  simp only [ChannelMessage.encode, List.cons_append, List.nil_append]
  rw [decodeMessage, hrecipient, hoperand]
  simp

/-- What a write sends is data of its stream. -/
theorem decodeMessage_write (ch : ChannelState) (streamId : Int) (body : List UInt8)
    (hid : ch.remoteEnd.id < 2 ^ 32) (hbody : body.length < 2 ^ 32) :
    decodeMessage ch.remoteEnd.id (writeHead ch streamId body.length ++ body)
      = some (.data (streamTag streamId) body) := by
  have hlen : value ((store 4 body.length ++ body).take 4) = body.length := by
    rw [List.take_left' (length_store 4 _)]
    exact (value_store 4 _).trans (Nat.mod_eq_of_lt hbody)
  have hrest : (store 4 body.length ++ body).drop 4 = body := List.drop_left' (length_store 4 _)
  have hnine (t : UInt8) (rest : List UInt8) :
      (t :: (store 4 ch.remoteEnd.id ++ rest)).drop 5 = rest := by
    rw [List.drop_succ_cons]
    exact List.drop_left' (length_store 4 _)
  unfold writeHead streamTag
  split
  · next h =>
    simp only [List.cons_append, List.nil_append, List.append_assoc]
    rw [decodeMessage, recipient_head, operand_head, Nat.mod_eq_of_lt hid,
      Nat.mod_eq_of_lt (wrap32_lt streamId)]
    have hdrop (k : Nat) (rest : List UInt8) :
        (msgExtendedData :: (store 4 ch.remoteEnd.id ++ (store 4 k ++ rest))).drop 9 = rest := by
      rw [show 9 = 5 + 4 from rfl, ← List.drop_drop, hnine]
      exact List.drop_left' (length_store 4 _)
    rw [show 13 = 9 + 4 from rfl, ← List.drop_drop, hdrop, hlen, hrest, List.take_length]
    simp [msgExtendedData, msgData, msgWindowAdjust]
  · next h =>
    have hstream : streamId = 0 := by simpa using h
    simp only [List.cons_append, List.nil_append, List.append_assoc, if_pos hstream]
    rw [decodeMessage, recipient_head, operand_head, Nat.mod_eq_of_lt hid, Nat.mod_eq_of_lt hbody,
      show 9 = 5 + 4 from rfl, ← List.drop_drop, hnine, hrest, List.take_length]
    simp [msgData, msgWindowAdjust]

/-! ## Packets -/

/-- A packet of extended data has a stream. -/
def Packet.Whole (p : Packet) : Prop :=
  p.data.headD 0 = msgExtendedData → 9 ≤ p.data.length

section

variable {ch : ChannelState} {c n : Nat} {k : Int} {ps : List Packet} {p : Packet}

theorem chunksOf_cons (h : Session.queued c p = true) :
    chunksOf c (p :: ps) = p.chunk :: chunksOf c ps := by
  rw [chunksOf, List.filter_cons_of_pos h, List.map_cons, chunksOf]

theorem chunksOf_cons_other (h : Session.queued c p = false) :
    chunksOf c (p :: ps) = chunksOf c ps := by
  rw [chunksOf, List.filter_cons_of_neg (by simp [h]), chunksOf]

theorem chunksOf_append (ps qs : List Packet) :
    chunksOf c (ps ++ qs) = chunksOf c ps ++ chunksOf c qs := by
  rw [chunksOf, List.filter_append, List.map_append, chunksOf, chunksOf]

theorem wants_eq_false (hid : ch.localEnd.id = c) (h : Session.queued c p = false) :
    ch.wants k p = false := by
  unfold ChannelState.wants
  unfold Session.queued at h
  simp only [decide_eq_false_iff_not] at h ⊢
  rintro ⟨hlen, hrecipient, hwant⟩
  refine h ⟨?_, hlen, hrecipient.symm.trans hid⟩
  obtain hw | hw | hw := hwant
  · exact .inr hw.2.1
  · exact .inl hw.2
  · exact .inr hw.2.1

theorem wants_eq (hid : ch.localEnd.id = c) (h : Session.queued c p = true) (hp : p.Whole) :
    ch.wants k p = p.chunk.1.wantedBy ch.ignoreMode k := by
  unfold Session.queued at h
  simp only [decide_eq_true_eq] at h
  obtain ⟨htype, hlen, hrecipient⟩ := h
  unfold ChannelState.wants Packet.chunk
  by_cases he : p.data.headD 0 = msgExtendedData
  · have hne : msgExtendedData ≠ msgData := by decide
    have hnine := hp he
    simp only [he, hid, hrecipient, hlen, hnine, hne, StreamTag.wantedBy, if_true, true_and,
      and_false, false_or]
  · have hd := htype.resolve_right he
    have hne : msgData ≠ msgExtendedData := by decide
    simp only [hd, hid, hrecipient, hlen, hne, StreamTag.wantedBy, if_false, true_and, false_and,
      and_false, false_or, and_true, or_false]

/-- **The loop of a read** takes what its stream wants out of the chunks of its channel. -/
theorem chunksOf_copyOut (hid : ch.localEnd.id = c)
    (hps : ∀ p ∈ ps, Session.queued c p = true → p.Whole) :
    (ch.copyOut k n ps).1 = (takeChunks (StreamTag.wantedBy ch.ignoreMode k) n (chunksOf c ps)).1 ∧
    chunksOf c (ch.copyOut k n ps).2
      = (takeChunks (StreamTag.wantedBy ch.ignoreMode k) n (chunksOf c ps)).2 := by
  induction ps generalizing n with
  | nil => exact ⟨rfl, rfl⟩
  | cons p ps ih =>
    have ih' := fun n => @ih n fun q hq => hps q (List.mem_cons_of_mem p hq)
    unfold ChannelState.copyOut
    by_cases hn : n = 0
    · subst hn
      simp
    rw [if_neg hn]
    cases hq : Session.queued c p with
    | false =>
      simp only [wants_eq_false hid hq, Bool.false_eq_true, if_false, chunksOf_cons_other hq]
      exact ih' n
    | true =>
      rw [wants_eq hid hq (hps p List.mem_cons_self hq), chunksOf_cons hq, takeChunks, if_neg hn]
      have hlen : p.chunk.2.length = p.data.length - p.dataHead := List.length_drop
      cases hw : p.chunk.1.wantedBy ch.ignoreMode k with
      | false =>
        obtain ⟨h₁, h₂⟩ := ih' n
        simp only [Bool.false_eq_true, if_false, chunksOf_cons hq, h₂]
        exact ⟨h₁, trivial⟩
      | true =>
        simp only [if_true, hlen]
        split
        · obtain ⟨h₁, h₂⟩ := ih' (n - (p.data.length - p.dataHead))
          exact ⟨by rw [h₁]; rfl, h₂⟩
        · have hq' : Session.queued c { p with dataHead := p.dataHead + n } = true := hq
          refine ⟨rfl, ?_⟩
          rw [chunksOf_cons hq']
          simp [Packet.chunk]

/-- What is left are packets that were there, with less in them. -/
theorem mem_copyOut {q : Packet} (h : q ∈ (ch.copyOut k n ps).2) : ∃ p ∈ ps, q.data = p.data := by
  induction ps generalizing n with
  | nil => exact absurd h List.not_mem_nil
  | cons p ps ih =>
    unfold ChannelState.copyOut at h
    split at h
    · exact ⟨q, h, rfl⟩
    · split at h
      · split at h
        · obtain ⟨p', hp', heq⟩ := ih h
          exact ⟨p', List.mem_cons_of_mem p hp', heq⟩
        · obtain rfl | h := List.mem_cons.mp h
          · exact ⟨p, List.mem_cons_self, rfl⟩
          · exact ⟨q, List.mem_cons_of_mem p h, rfl⟩
      · obtain rfl | h := List.mem_cons.mp h
        · exact ⟨q, List.mem_cons_self, rfl⟩
        · obtain ⟨p', hp', heq⟩ := ih h
          exact ⟨p', List.mem_cons_of_mem p hp', heq⟩

/-- A read of one channel leaves the packets of the others. -/
theorem filter_copyOut (hid : ch.localEnd.id ≠ c) :
    (ch.copyOut k n ps).2.filter (Session.queued c) = ps.filter (Session.queued c) := by
  induction ps generalizing n with
  | nil => rfl
  | cons p ps ih =>
    have hother (h : ch.wants k p = true) : Session.queued c p = false := by
      unfold ChannelState.wants at h
      simp only [decide_eq_true_eq] at h
      simp only [Session.queued, decide_eq_false_iff_not]
      rintro ⟨-, -, hc⟩
      exact hid (h.2.1.trans hc)
    unfold ChannelState.copyOut
    split
    · rfl
    · split
      · next hw =>
        have hq := hother hw
        split
        · rw [ih, List.filter_cons_of_neg (by simp [hq])]
        · have hq' : Session.queued c { p with dataHead := p.dataHead + n } = false := hq
          rw [List.filter_cons_of_neg (by simp [hq']), List.filter_cons_of_neg (by simp [hq])]
      · rw [List.filter_cons, List.filter_cons, ih]

end

/-! ## Sending -/

namespace Session

variable {s : Session} {area : Area} {data data2 : List UInt8}

/-- **What sending comes to**, while the socket works: a packet is gone, the one that was on its way
from this memory or the new one; or the call has to wait, and the new packet may be on its way. -/
theorem transportSend_cases (area : Area) (data data2 : List UInt8) (hworks : .broken ∉ s.socket) :
    (s.socket.headD .stuck = .through ∧ ∃ m,
      (s.outbox.pending = none ∧ m = data ++ data2 ∨
        s.outbox.pending = some ((area, data.length), m)) ∧
      s.transportSend area data data2
        = (0, { s with outbox := ⟨none, s.outbox.gone ++ [m]⟩, socket := s.socket.tail })) ∨
    (∃ b : Outbox (Area × Nat) (List UInt8),
      s.transportSend area data data2 = (eagain, { s with outbox := b, socket := s.socket.tail }) ∧
      b.gone = s.outbox.gone ∧
      (b.pending = s.outbox.pending ∨
        s.outbox.pending = none ∧ b.pending = some ((area, data.length), data ++ data2))) := by
  unfold transportSend
  obtain ⟨hp, m, hm, h⟩ | ⟨b, h, hgone, hpending⟩ | ⟨hp, -⟩ :=
    s.outbox.offer_cases (area, data.length) (data ++ data2) (s.socket.headD .stuck)
  · exact .inl ⟨hp, m, hm, by rw [h]⟩
  · exact .inr ⟨b, by rw [h], hgone, hpending⟩
  · exfalso
    cases hs : s.socket with
    | nil => simp [hs] at hp
    | cons q qs =>
      rw [hs, List.headD_cons] at hp
      exact hworks (hs ▸ hp ▸ List.mem_cons_self)

/-! ## Packets that can be read -/

variable {ch : ChannelState} {id adjustment : Nat} {force : Bool}

@[simp] theorem sendAdjust_inbound : (s.sendAdjust id adjustment).2.inbound = s.inbound := by
  unfold sendAdjust
  dsimp only
  split
  · rfl
  · split <;> rfl

@[simp] theorem receiveWindowAdjust_inbound :
    (s.receiveWindowAdjust id adjustment force).2.inbound = s.inbound := by
  unfold receiveWindowAdjust
  dsimp only
  split
  · split
    · rfl
    · split
      · rfl
      · exact sendAdjust_inbound
  · exact sendAdjust_inbound

/-- A packet that is handled takes no other one with it. -/
@[simp] theorem packetAdd_inbound : (s.packetAdd data).2.inbound = s.inbound := by
  have hkeep (ch : ChannelState) (head : Nat) : (s.keepData ch data head).inbound = s.inbound := by
    unfold keepData
    dsimp only
    split <;> rfl
  have hignore (ch : ChannelState) (datalen head : Nat) :
      (s.ignoreData ch datalen head).2.inbound = s.inbound := by
    unfold ignoreData
    dsimp only
    generalize (if ch.remoteEnd.windowSize ≤ _ then _ else _ : Nat) = kept
    split
    · exact receiveWindowAdjust_inbound
    · exact receiveWindowAdjust_inbound
  unfold packetAdd
  dsimp only
  split
  · split
    · rfl
    · split
      · exact hignore _ _ _
      · exact hkeep _ _
  · split
    · split <;> rfl
    · split
      · split <;> rfl
      · split
        · split <;> rfl
        · rfl

theorem transportRead_next {rest : List (List UInt8)} (hwait : s.packAdd = none)
    (hin : s.inbound = data :: rest) :
    s.transportRead = if ({ s with inbound := rest }.packetAdd data).1 = 0 then
        (((data.headD 0).toNat : Int), ({ s with inbound := rest }.packetAdd data).2)
      else { s with inbound := rest }.packetAdd data := by
  unfold transportRead
  rw [hwait, hin]

end Session

end Ssh2Python
