import Ssh2Python.Verify.ChannelNeighbours

/-!
# Packets that arrive for a channel

`LineSound` is the invariant of a line: its two links are balanced and keep what was sent, the books
of the session agree with its packets, and nothing comes after the end of the channel. Every packet
that is read keeps it (`LineSound.transportRead`): data fits into the window, so none of it is cut
off.
-/

namespace Ssh2Python

open Lib.CInt Lib.Credit Lib.Outgoing Lib.Wire

/-! ## The invariant -/

/-- What holds of the channel's own record, where `r` is its number at the other end. -/
structure ChannelState.Sound (r : Nat) (mode : IgnoreMode) (ch : ChannelState) : Prop where
  number : ch.remoteEnd.id = r
  mode_eq : ch.ignoreMode = mode
  adjusting : ch.adjustState ≠ .idle → ∃ n, n < 2 ^ 32 ∧
    ch.adjustAdjust = (ChannelMessage.windowAdjust n).encode r ∧
    ch.remoteEnd.windowSize + n < 2 ^ 32
  writing : ch.writeState ≠ .idle →
    ch.writeBufwrite ≤ ch.localEnd.windowSize ∧ ch.writeBufwrite ≤ 32700
  small : ch.remoteEnd.windowSize < 2 ^ 32

/-- What a session knows about its channel `c`. -/
structure Own (c r : Nat) (mode : IgnoreMode) (s : Session) : Prop where
  here : (s.locate c).isSome
  chan : (s.chan c).Sound r mode
  pendingAdjust : ∀ n p, s.outbox.pending = some ((.adjustAdjust c, n), p) →
    (s.chan c).adjustState ≠ .idle ∧ p = (s.chan c).adjustAdjust
  pendingWrite : ∀ n p, s.outbox.pending = some ((.writePacket c, n), p) →
    (s.chan c).writeState ≠ .idle
  whole : ∀ p ∈ s.packets.filter (Session.queued c), p.Whole
  avail : (s.chan c).readAvail = size (chunksOf c s.packets)

def Incoming.ends (m : Incoming) : Prop :=
  m = .own .eof ∨ m = .own .close

/-- A packet under way that the channel can take. -/
def Incoming.Proper (c : Nat) (mode : IgnoreMode) (packetSize : Nat) : Incoming → Prop
  | .own (.data tag bytes) =>
    bytes.length ≤ packetSize ∧ ∀ n, tag = .extended n → n < 2 ^ 32 ∧ mode ≠ .ignore
  | .own _ => True
  | .foreign payload => Foreign c payload

/-- What is under way to the remote end `e` of a channel. Nothing comes after its end. -/
structure Orderly (c : Nat) (mode : IgnoreMode) (inbox : List Incoming) (e : ChannelEnd)
    (ended : Bool) : Prop where
  proper : ∀ m ∈ inbox, m.Proper c mode e.packetSize
  order : inbox.Pairwise fun m m' => m.ends → m'.dataPart = none
  closed : e.eof = true ∨ e.close = true → inbox.filterMap Incoming.dataPart = []
  ended : (∃ m ∈ inbox, m.ends) ∨ e.eof = true ∨ e.close = true → ended = true

/-- Both links are balanced, and keep what was sent. -/
structure Linked (mode : IgnoreMode) (receiving : Link Int StreamTag UInt8)
    (sending : Link (Option StreamTag) StreamTag UInt8) : Prop where
  receives : receiving.Balanced
  keeps : Link.Kept (StreamTag.wantedBy mode) receiving
  sends : sending.Balanced
  delivers : Link.Kept StreamTag.among sending

/-- **The invariant** of a line. -/
structure LineSound (c : Nat) (mode : IgnoreMode) (l : Line) : Prop where
  id_lt : c < 2 ^ 32
  number_lt : l.peer.id < 2 ^ 32
  room : l.peer.window < 2 ^ 32
  apart : Apart c l.peer.id l.session
  own : Own c l.peer.id mode l.session
  orderly : Orderly c mode l.inbox (l.session.chan c).remoteEnd l.peer.ended
  linked : Linked mode (l.receiving c) (l.sending c)

variable {c r : Nat} {mode : IgnoreMode} {l : Line} {s s' : Session} {ch : ChannelState}

section

variable {R R' : Link Int StreamTag UInt8} {S S' : Link (Option StreamTag) StreamTag UInt8}

theorem Linked.step (h : Linked mode R S) (hR : R' = R ∨ Link.Step (StreamTag.wantedBy mode) R R')
    (hS : S' = S ∨ Link.Step StreamTag.among S S') : Linked mode R' S' := by
  have hleft : R'.Balanced ∧ Link.Kept (StreamTag.wantedBy mode) R' := by
    obtain rfl | hstep := hR
    · exact ⟨h.receives, h.keeps⟩
    · exact ⟨hstep.balanced h.receives, hstep.kept h.keeps⟩
  have hright : S'.Balanced ∧ Link.Kept StreamTag.among S' := by
    obtain rfl | hstep := hS
    · exact ⟨h.sends, h.delivers⟩
    · exact ⟨hstep.balanced h.sends, hstep.kept h.delivers⟩
  exact ⟨hleft.1, hleft.2, hright.1, hright.2⟩

end

theorem LineSound.id_chan (h : LineSound c mode l) : (l.session.chan c).localEnd.id = c :=
  Session.id_chan h.own.here

theorem chan_put_packets (ch : ChannelState) (ps : List Packet) (hopen : (s.locate c).isSome)
    (hid : ch.localEnd.id = c) :
    ({ s.put ch with packets := ps } : Session).chan c = ch :=
  Session.chan_put_self hopen hid

/-- A new record for the channel, and new packets. -/
theorem Own.put_packets (h : Own c r mode s) (ch : ChannelState) (ps : List Packet)
    (hid : ch.localEnd.id = c)
    (hch : ch.Sound r mode)
    (hadjust : ∀ n p, s.outbox.pending = some ((.adjustAdjust c, n), p) →
      ch.adjustState ≠ .idle ∧ p = ch.adjustAdjust)
    (hwrite : ∀ n p, s.outbox.pending = some ((.writePacket c, n), p) → ch.writeState ≠ .idle)
    (hwhole : ∀ p ∈ ps.filter (Session.queued c), p.Whole)
    (havail : ch.readAvail = size (chunksOf c ps)) :
    Own c r mode { s.put ch with packets := ps } := by
  have hchan := chan_put_packets ch ps h.here hid
  exact
    { here := by
        rw [← h.here]
        exact Session.isSome_locate_put
      chan := by rw [hchan]; exact hch
      pendingAdjust := by rw [hchan]; exact hadjust
      pendingWrite := by rw [hchan]; exact hwrite
      whole := hwhole
      avail := by rw [hchan]; exact havail }

theorem Own.put (h : Own c r mode s) (ch : ChannelState) (hid : ch.localEnd.id = c)
    (hch : ch.Sound r mode)
    (hadjust : ∀ n p, s.outbox.pending = some ((.adjustAdjust c, n), p) →
      ch.adjustState ≠ .idle ∧ p = ch.adjustAdjust)
    (hwrite : ∀ n p, s.outbox.pending = some ((.writePacket c, n), p) → ch.writeState ≠ .idle)
    (havail : ch.readAvail = (s.chan c).readAvail) : Own c r mode (s.put ch) :=
  h.put_packets ch s.packets hid hch hadjust hwrite h.whole (havail.trans h.avail)

theorem Apart.put_packets (h : Apart c r s) (ch : ChannelState) (ps : List Packet)
    (hid : ch.localEnd.id = c) :
    Apart c r { s.put ch with packets := ps } := by
  have := h.put ch fun hne => absurd hid hne
  exact ⟨this.numbers, this.adjusts, this.writes, this.pending, this.waiting⟩

theorem Own.untouched (h : Own c r mode s) (hb : Untouched c r s s') : Own c r mode s' where
  here := by rw [hb.located]; exact h.here
  chan := by rw [hb.chan]; exact h.chan
  pendingAdjust n p hp := by
    rw [hb.chan]
    exact h.pendingAdjust n p (hb.pending _ n p hp (.inl rfl))
  pendingWrite n p hp := by
    rw [hb.chan]
    exact h.pendingWrite n p (hb.pending _ n p hp (.inr rfl))
  whole := by rw [hb.packets]; exact h.whole
  avail := by rw [hb.chan, chunksOf, hb.packets]; exact h.avail

theorem filterMap_gone {β : Type} {f : List UInt8 → Option β} {ms ps qs : List (List UInt8)}
    (h : qs = ps ++ ms) (hms : ∀ m ∈ ms, f m = none) : qs.filterMap f = ps.filterMap f := by
  rw [h, List.filterMap_append, List.filterMap_eq_nil_iff.mpr hms, List.append_nil]

theorem receiving_untouched (hb : Untouched c l.peer.id l.session s') :
    ({ l with session := s' } : Line).receiving c = l.receiving c := by
  obtain ⟨ms, hgone, hms⟩ := hb.gone
  have hgrants := filterMap_gone (f := sentGrant l.peer.id) hgone fun m hm => by
    rw [sentGrant, hms m hm]
  simp only [Line.receiving, chunksOf, hb.packets, hb.chan, hgrants]

theorem sending_untouched (hb : Untouched c l.peer.id l.session s') :
    ({ l with session := s' } : Line).sending c = l.sending c := by
  obtain ⟨ms, hgone, hms⟩ := hb.gone
  have hdata := filterMap_gone (f := sentData l.peer.id) hgone fun m hm => by
    rw [sentData, hms m hm]
  simp only [Line.sending, hb.chan, hdata]

/-- **What happens beside the channel** keeps the invariant. -/
theorem LineSound.untouched (h : LineSound c mode l) (ha : Apart c l.peer.id s')
    (hb : Untouched c l.peer.id l.session s') : LineSound c mode { l with session := s' } where
  id_lt := h.id_lt
  number_lt := h.number_lt
  room := h.room
  apart := ha
  own := h.own.untouched hb
  orderly := by
    have hchan : ({ l with session := s' } : Line).session.chan c = l.session.chan c := hb.chan
    rw [hchan]
    exact h.orderly
  linked := by
    rw [receiving_untouched hb, sending_untouched hb]
    exact h.linked

/-! ## The channel's own packets -/

/-- The length of what stands before the data. -/
def StreamTag.headLength : StreamTag → Nat
  | .standard => 9
  | .extended _ => 13

section

variable {ch : ChannelState} {tag : StreamTag} {bytes : List UInt8} {n : Nat}

theorem length_encode_data (c : Nat) (tag : StreamTag) (bytes : List UInt8) :
    ((ChannelMessage.data tag bytes).encode c).length = tag.headLength + bytes.length := by
  cases tag with
  | standard => simp [ChannelMessage.encode, StreamTag.headLength]; omega
  | extended n => simp [ChannelMessage.encode, StreamTag.headLength]; omega

theorem recipient_encode_data (tag : StreamTag) (bytes : List UInt8) (hid : c < 2 ^ 32) :
    recipient ((ChannelMessage.data tag bytes).encode c) = c := by
  have h (t : UInt8) (rest : List UInt8) : recipient (t :: (store 4 c ++ rest)) = c := by
    rw [recipient_head, Nat.mod_eq_of_lt hid]
  cases tag with
  | standard =>
    simpa [ChannelMessage.encode] using h msgData (store 4 bytes.length ++ bytes)
  | extended n =>
    simpa [ChannelMessage.encode] using
      h msgExtendedData (store 4 n ++ (store 4 bytes.length ++ bytes))

theorem drop_encode_data (c : Nat) (tag : StreamTag) (bytes : List UInt8) :
    ((ChannelMessage.data tag bytes).encode c).drop tag.headLength = bytes := by
  cases tag with
  | standard => exact List.drop_left' (by simp [StreamTag.headLength])
  | extended n => exact List.drop_left' (by simp [StreamTag.headLength])

/-- The packet as it is kept, with its data in it. -/
def keptPacket (c : Nat) (tag : StreamTag) (bytes : List UInt8) : Packet :=
  ⟨(ChannelMessage.data tag bytes).encode c, tag.headLength⟩

theorem queued_keptPacket (tag : StreamTag) (bytes : List UInt8) (hid : c < 2 ^ 32) :
    Session.queued c (keptPacket c tag bytes) = true := by
  have hrecipient := recipient_encode_data tag bytes hid
  have hlen := length_encode_data c tag bytes
  simp only [Session.queued, keptPacket, hrecipient, hlen, decide_eq_true_eq, and_true]
  cases tag with
  | standard => simp [ChannelMessage.encode, StreamTag.headLength]; omega
  | extended n => simp [ChannelMessage.encode, StreamTag.headLength]; omega

theorem chunk_keptPacket (hcode : ∀ n, tag = .extended n → n < 2 ^ 32) :
    (keptPacket c tag bytes).chunk = (tag, bytes) := by
  have hdrop := drop_encode_data c tag bytes
  unfold Packet.chunk keptPacket
  rw [hdrop]
  cases tag with
  | standard => simp [ChannelMessage.encode, msgData, msgExtendedData]
  | extended n =>
    have hoperand := operand_head msgExtendedData c n (store 4 bytes.length ++ bytes)
    rw [Nat.mod_eq_of_lt (hcode n rfl)] at hoperand
    simp [ChannelMessage.encode, hoperand]

theorem whole_keptPacket : (keptPacket c tag bytes).Whole := by
  intro he
  have hlen := length_encode_data c tag bytes
  simp only [keptPacket, hlen]
  cases tag with
  | standard => simp [keptPacket, ChannelMessage.encode, msgData, msgExtendedData] at he
  | extended n =>
    simp only [StreamTag.headLength]
    omega

/-- **Data that fits is kept**, unless there is none and the window is full. -/
theorem packetAdd_data (hid : c < 2 ^ 32) (hch : s.locate c = some ch)
    (hsize : bytes.length ≤ ch.remoteEnd.packetSize)
    (hmode : ∀ n, tag = .extended n → ch.ignoreMode ≠ .ignore)
    (hfit : ch.readAvail + bytes.length ≤ ch.remoteEnd.windowSize) :
    s.packetAdd ((ChannelMessage.data tag bytes).encode c)
      = (0, if ch.remoteEnd.windowSize ≤ ch.readAvail then s
          else { s.put { ch with
              remoteEnd.eof := false, readAvail := ch.readAvail + bytes.length } with
            packets := s.packets ++ [keptPacket c tag bytes] }) := by
  have hrecipient := recipient_encode_data tag bytes hid
  have hlen := length_encode_data c tag bytes
  have hkeep : s.keepData ch ((ChannelMessage.data tag bytes).encode c) tag.headLength
      = if ch.remoteEnd.windowSize ≤ ch.readAvail then s
        else { s.put { ch with
            remoteEnd.eof := false, readAvail := ch.readAvail + bytes.length } with
          packets := s.packets ++ [keptPacket c tag bytes] } := by
    have hsub : tag.headLength + bytes.length - tag.headLength = bytes.length := by omega
    have hnot : ¬ch.remoteEnd.packetSize < bytes.length := by omega
    have hfits : ¬ch.remoteEnd.windowSize
        < ch.readAvail + (tag.headLength + bytes.length) - tag.headLength := by omega
    unfold Session.keepData
    simp only [hlen, hsub, if_neg hnot, if_neg hfits]
    rw [List.take_of_length_le hlen.le]
    rfl
  rw [← hkeep]
  unfold Session.packetAdd
  rw [hrecipient, hlen, hch]
  cases tag with
  | standard =>
    simp [ChannelMessage.encode, StreamTag.headLength, msgData, msgExtendedData]
  | extended n =>
    have := hmode n rfl
    simp [ChannelMessage.encode, StreamTag.headLength, this]

theorem packetAdd_windowAdjust (hid : c < 2 ^ 32) (hch : s.locate c = some ch) (hn : n < 2 ^ 32) :
    s.packetAdd ((ChannelMessage.windowAdjust n).encode c)
      = (0, s.put { ch with localEnd.windowSize := wrap32 (ch.localEnd.windowSize + n) }) := by
  have hrecipient := recipient_head msgWindowAdjust c (store 4 n)
  have hoperand := operand_only msgWindowAdjust c n
  rw [Nat.mod_eq_of_lt hid] at hrecipient
  rw [Nat.mod_eq_of_lt hn] at hoperand
  simp only [ChannelMessage.encode, List.cons_append, List.nil_append]
  unfold Session.packetAdd
  rw [hrecipient, hoperand, hch]
  simp [msgWindowAdjust, msgData, msgExtendedData, msgEof, msgClose]

theorem packetAdd_eof (hid : c < 2 ^ 32) (hch : s.locate c = some ch) :
    s.packetAdd (ChannelMessage.eof.encode c) = (0, s.put { ch with remoteEnd.eof := true }) := by
  have hrecipient := recipient_only msgEof c
  rw [Nat.mod_eq_of_lt hid] at hrecipient
  simp only [ChannelMessage.encode, List.cons_append, List.nil_append]
  unfold Session.packetAdd
  rw [hrecipient, hch]
  simp [msgData, msgExtendedData, msgEof]

theorem packetAdd_close (hid : c < 2 ^ 32) (hch : s.locate c = some ch) :
    s.packetAdd (ChannelMessage.close.encode c)
      = (0, s.put { ch with remoteEnd.close := true, remoteEnd.eof := true }) := by
  have hrecipient := recipient_only msgClose c
  rw [Nat.mod_eq_of_lt hid] at hrecipient
  simp only [ChannelMessage.encode, List.cons_append, List.nil_append]
  unfold Session.packetAdd
  rw [hrecipient, hch]
  simp [msgData, msgExtendedData, msgEof, msgClose]

end

/-! ## What arrives -/

/-- What a call to any channel leaves of a session: fewer packets that can be read, and a socket
that works as it did. -/
structure Steady (s s' : Session) : Prop where
  inbound : s'.inbound <:+ s.inbound
  pause : s'.pause = s.pause
  works : .broken ∉ s.socket → .broken ∉ s'.socket
  located : ∀ id, (s'.locate id).isSome = (s.locate id).isSome

theorem Steady.refl (s : Session) : Steady s s where
  inbound := List.suffix_rfl
  pause := rfl
  works h := h
  located _ := rfl

theorem Steady.trans {s'' : Session} (h : Steady s s') (h' : Steady s' s'') : Steady s s'' where
  inbound := h'.inbound.trans h.inbound
  pause := h'.pause.trans h.pause
  works hw := h'.works (h.works hw)
  located id := (h'.located id).trans (h.located id)

theorem Steady.put (s : Session) (ch : ChannelState) : Steady s (s.put ch) where
  inbound := List.suffix_rfl
  pause := rfl
  works h := h
  located _ := Session.isSome_locate_put

theorem Steady.send (s : Session) (b : Outbox (Area × Nat) (List UInt8)) :
    Steady s { s with outbox := b, socket := s.socket.tail } where
  inbound := List.suffix_rfl
  pause := rfl
  works h := not_mem_tail h
  located _ := rfl

theorem Calm.steady (h : Calm c r s s') : Steady s s' where
  inbound := ⟨[], h.inbound⟩
  pause := h.untouched.pause
  works := h.untouched.works
  located := h.untouched.located

/-- A packet that arrives leaves the write of the channel where it was. -/
structure Arrival (c : Nat) (s s' : Session) : Prop extends Steady s s' where
  writeState : (s'.chan c).writeState = (s.chan c).writeState

theorem Arrival.put (hid : ch.localEnd.id = c) (hopen : (s.locate c).isSome)
    (hw : ch.writeState = (s.chan c).writeState) : Arrival c s (s.put ch) where
  toSteady := .put s ch
  writeState := by rw [Session.chan_put_self hopen hid, hw]

theorem Calm.arrival (h : Calm c r s s') : Arrival c s s' where
  toSteady := h.steady
  writeState := by rw [h.untouched.chan]

section

variable {m : Incoming} {ms : List Incoming}

theorem Orderly.tail {e : ChannelEnd} {ended : Bool} (h : Orderly c mode (m :: ms) e ended)
    (hclosed : e.eof = true ∨ e.close = true → ms.filterMap Incoming.dataPart = []) :
    Orderly c mode ms e ended where
  proper m' hm' := h.proper m' (List.mem_cons_of_mem m hm')
  order := h.order.of_cons
  closed := hclosed
  ended := by
    rintro (⟨m', hm', he⟩ | he)
    · exact h.ended (.inl ⟨m', List.mem_cons_of_mem m hm', he⟩)
    · exact h.ended (.inr he)

theorem Orderly.tail_other {e : ChannelEnd} {ended : Bool} (h : Orderly c mode (m :: ms) e ended)
    (hm : m.dataPart = none) : Orderly c mode ms e ended := by
  refine h.tail fun he => ?_
  have := h.closed he
  rwa [List.filterMap_cons_none hm] at this

theorem Orderly.windowSize {inbox : List Incoming} {e : ChannelEnd} {ended : Bool}
    (h : Orderly c mode inbox e ended) (n : Nat) :
    Orderly c mode inbox { e with windowSize := n } ended :=
  ⟨h.proper, h.order, h.closed, h.ended⟩

/-- The end of the channel has come. -/
theorem Orderly.stop {e e' : ChannelEnd} {ended : Bool} (h : Orderly c mode (m :: ms) e ended)
    (hm : m.ends) (hsize : e'.packetSize = e.packetSize) : Orderly c mode ms e' ended where
  proper m' hm' := by
    rw [hsize]
    exact h.proper m' (List.mem_cons_of_mem m hm')
  order := h.order.of_cons
  closed _ := List.filterMap_eq_nil_iff.mpr fun m' hm' =>
    (List.pairwise_cons.mp h.order).1 m' hm' hm
  ended _ := h.ended (.inl ⟨m, List.mem_cons_self, hm⟩)

theorem LineSound.foreign {payload : List UInt8}
    (h : LineSound c mode { l with inbox := .foreign payload :: ms }) :
    LineSound c mode { l with inbox := ms } :=
  ⟨h.id_lt, h.number_lt, h.room, h.apart, h.own, h.orderly.tail_other rfl, h.linked⟩

/-- Data that arrives keeps to the size of packets and to the window, and the channel has not
ended. -/
theorem LineSound.data_fits {tag : StreamTag} {bytes : List UInt8}
    (h : LineSound c mode { l with inbox := .own (.data tag bytes) :: ms })
    (hch : l.session.locate c = some ch) :
    bytes.length ≤ ch.remoteEnd.packetSize ∧ (∀ n, tag = .extended n → ch.ignoreMode ≠ .ignore) ∧
      ch.readAvail + bytes.length ≤ ch.remoteEnd.windowSize ∧
      ¬(ch.remoteEnd.eof = true ∨ ch.remoteEnd.close = true) := by
  have hchan : l.session.chan c = ch := Session.chan_of_locate hch
  obtain ⟨hsize, hcode⟩ := h.orderly.proper _ List.mem_cons_self
  have hmode : ch.ignoreMode = mode := hchan ▸ h.own.chan.mode_eq
  have havail : ch.readAvail = size (chunksOf c l.session.packets) := hchan ▸ h.own.avail
  have hflight : (({ l with inbox := .own (.data tag bytes) :: ms } : Line).receiving c).flight
      = (tag, bytes) :: ms.filterMap Incoming.dataPart := rfl
  have hfits := h.linked.receives.fits hflight
  refine ⟨hchan ▸ hsize, fun n hn => hmode ▸ (hcode n hn).2, ?_, fun he => ?_⟩
  · rw [havail, ← hchan]
    exact hfits
  · have := h.orderly.closed (by rwa [hchan])
    simp [Incoming.dataPart] at this

theorem LineSound.arrival_data {tag : StreamTag} {bytes : List UInt8}
    (h : LineSound c mode { l with inbox := .own (.data tag bytes) :: ms }) :
    LineSound c mode { l with
      session := (l.session.packetAdd ((ChannelMessage.data tag bytes).encode c)).2, inbox := ms } ∧
    (l.session.packetAdd ((ChannelMessage.data tag bytes).encode c)).1 = 0 ∧
    Arrival c l.session (l.session.packetAdd ((ChannelMessage.data tag bytes).encode c)).2 := by
  obtain ⟨ch, hch⟩ := Option.isSome_iff_exists.mp h.own.here
  have hchan : l.session.chan c = ch := Session.chan_of_locate hch
  have hid : ch.localEnd.id = c := Session.id_of_locate hch
  obtain ⟨hsize, hmode, hfit, hopen⟩ := h.data_fits hch
  obtain ⟨-, hcode⟩ := h.orderly.proper _ List.mem_cons_self
  have havail : ch.readAvail = size (chunksOf c l.session.packets) := hchan ▸ h.own.avail
  have hflight : (({ l with inbox := .own (.data tag bytes) :: ms } : Line).receiving c).flight
      = (tag, bytes) :: ms.filterMap Incoming.dataPart := rfl
  rw [packetAdd_data h.id_lt hch hsize hmode hfit]
  -- Only a packet without data finds the window full.
  split
  · next hfull =>
    refine ⟨⟨h.id_lt, h.number_lt, h.room, h.apart, h.own, h.orderly.tail fun he => ?_, ?_⟩, rfl,
      ⟨.refl _, rfl⟩⟩
    · exact absurd he (by rw [hchan]; exact hopen)
    · have hnone : bytes = [] := List.eq_nil_of_length_eq_zero (by omega)
      exact h.linked.step (.inr (.discard _ (tag, bytes) _ hflight hnone)) (.inl rfl)
  · -- The channel has not ended, so that resetting its end changes nothing.
    have heof : ch.remoteEnd.eof = false := by simpa using (not_or.mp hopen).1
    have hrecord : ({ ch with remoteEnd.eof := false, readAvail := ch.readAvail + bytes.length } :
        ChannelState) = { ch with readAvail := ch.readAvail + bytes.length } := by
      rw [← heof]
    rw [hrecord]
    have hkept := queued_keptPacket tag bytes h.id_lt
    have hchunks : chunksOf c (l.session.packets ++ [keptPacket c tag bytes])
        = chunksOf c l.session.packets ++ [(tag, bytes)] := by
      rw [chunksOf_append, chunksOf_cons hkept, chunk_keptPacket fun n hn => (hcode n hn).1]
      rfl
    have hown := h.own
    have hsound := hown.chan
    have hadjust := hown.pendingAdjust
    have hwrite := hown.pendingWrite
    have horderly := h.orderly
    dsimp only at hsound hadjust hwrite horderly
    rw [hchan] at hsound hadjust hwrite horderly
    have hchan' := chan_put_packets { ch with readAvail := ch.readAvail + bytes.length }
      (l.session.packets ++ [keptPacket c tag bytes]) h.own.here hid
    refine ⟨⟨h.id_lt, h.number_lt, h.room,
      h.apart.put_packets { ch with readAvail := ch.readAvail + bytes.length } _ hid,
      hown.put_packets { ch with readAvail := ch.readAvail + bytes.length } _ hid
        ⟨hsound.number, hsound.mode_eq, hsound.adjusting, hsound.writing, hsound.small⟩ hadjust
        hwrite (fun p hp => ?_) ?_, ?_, ?_⟩, rfl, ?_⟩
    · rw [List.filter_append, List.mem_append] at hp
      obtain hp | hp := hp
      · exact hown.whole p hp
      · obtain rfl := List.mem_singleton.mp (List.mem_of_mem_filter hp)
        exact whole_keptPacket
    · rw [hchunks, size_append, size_cons, size_nil, Nat.add_zero, ← havail]
    · rw [hchan']
      exact horderly.tail fun he => absurd he hopen
    · refine h.linked.step (.inr ?_) (.inl ?_)
      · have hstep : Link.Step (StreamTag.wantedBy mode) _ _ := .deliver _ (tag, bytes) _ hflight
        simp only [Line.receiving, hchan, hchan', hchunks]
        simp only [Line.receiving, hchan] at hstep
        exact hstep
      · simp only [Line.sending, hchan', hchan]
        rfl
    · exact ⟨⟨List.suffix_rfl, rfl, id, fun _ => Session.isSome_locate_put⟩, by rw [hchan', hchan]⟩

theorem LineSound.arrival_windowAdjust {n : Nat}
    (h : LineSound c mode { l with inbox := .own (.windowAdjust n) :: ms }) :
    LineSound c mode { l with
      session := (l.session.packetAdd ((ChannelMessage.windowAdjust n).encode c)).2, inbox := ms } ∧
    (l.session.packetAdd ((ChannelMessage.windowAdjust n).encode c)).1 = 0 ∧
    Arrival c l.session (l.session.packetAdd ((ChannelMessage.windowAdjust n).encode c)).2 := by
  obtain ⟨ch, hch⟩ := Option.isSome_iff_exists.mp h.own.here
  have hchan : l.session.chan c = ch := Session.chan_of_locate hch
  have hid : ch.localEnd.id = c := Session.id_of_locate hch
  have hgrants : (({ l with inbox := .own (.windowAdjust n) :: ms } : Line).sending c).grants
      = n :: ms.filterMap Incoming.grantPart := rfl
  have hsum : ch.localEnd.windowSize + n ≤ l.peer.window := by
    have := h.linked.sends
    unfold Link.Balanced at this
    rw [hgrants, List.sum_cons] at this
    simp only [Line.sending, hchan] at this
    omega
  have hroom : l.peer.window < 2 ^ 32 := h.room
  have hwrap : wrap32 (ch.localEnd.windowSize + n) = ch.localEnd.windowSize + n := by
    rw [wrap32_eq (by omega) (by omega)]
    omega
  rw [packetAdd_windowAdjust h.id_lt hch (by omega), hwrap]
  have hown := h.own
  have hsound := hown.chan
  have hadjust := hown.pendingAdjust
  have hwrite := hown.pendingWrite
  have hav := hown.avail
  have horderly := h.orderly
  dsimp only at hsound hadjust hwrite horderly hav
  rw [hchan] at hsound hadjust hwrite horderly hav
  have hchan' : (l.session.put { ch with
      localEnd.windowSize := ch.localEnd.windowSize + n }).chan c
      = { ch with localEnd.windowSize := ch.localEnd.windowSize + n } :=
    Session.chan_put_self h.own.here hid
  refine ⟨⟨h.id_lt, h.number_lt, h.room, h.apart.put _ fun hne => absurd hid hne,
    hown.put _ hid ⟨hsound.number, hsound.mode_eq, hsound.adjusting, fun hs => ?_, hsound.small⟩
      hadjust hwrite (by rw [hchan]), ?_, ?_⟩, rfl, ?_⟩
  · obtain ⟨h₁, h₂⟩ := hsound.writing hs
    exact ⟨h₁.trans (Nat.le_add_right _ _), h₂⟩
  · rw [hchan']
    exact horderly.tail_other rfl
  · refine h.linked.step (.inl ?_) (.inr ?_)
    · simp only [Line.receiving, hchan', hchan]
      rfl
    · have hstep : Link.Step StreamTag.among _ _ := .collect _ n _ hgrants
      simp only [Line.sending, hchan, hchan']
      simp only [Line.sending, hchan] at hstep
      exact hstep
  · exact .put hid h.own.here (by rw [hchan])

/-- The end of the channel arrives, or its last packet. -/
theorem LineSound.arrival_ends {e : ChannelEnd} (h : LineSound c mode { l with inbox := m :: ms })
    (hm : m.ends)
    (hsize : e.packetSize = (l.session.chan c).remoteEnd.packetSize)
    (hid : e.id = (l.session.chan c).remoteEnd.id)
    (hwindow : e.windowSize = (l.session.chan c).remoteEnd.windowSize) :
    LineSound c mode { l with
      session := l.session.put { l.session.chan c with remoteEnd := e }, inbox := ms } ∧
    Arrival c l.session (l.session.put { l.session.chan c with remoteEnd := e }) := by
  have hlocal : (l.session.chan c).localEnd.id = c := h.id_chan
  have hown := h.own
  have hsound := hown.chan
  have hchan' : (l.session.put { l.session.chan c with remoteEnd := e }).chan c
      = { l.session.chan c with remoteEnd := e } :=
    Session.chan_put_self h.own.here hlocal
  have hdata : m.dataPart = none ∧ m.grantPart = none := by
    obtain rfl | rfl := hm
    · exact ⟨rfl, rfl⟩
    · exact ⟨rfl, rfl⟩
  refine ⟨⟨h.id_lt, h.number_lt, h.room, h.apart.put _ fun hne => absurd hlocal hne,
    hown.put _ hlocal ⟨hid.trans hsound.number, hsound.mode_eq, fun hs => ?_, hsound.writing, ?_⟩
      hown.pendingAdjust hown.pendingWrite rfl, ?_, ?_⟩, .put hlocal h.own.here rfl⟩
  · rw [hwindow]
    exact hsound.adjusting hs
  · rw [hwindow]
    exact hsound.small
  · rw [hchan']
    exact h.orderly.stop hm hsize
  · refine h.linked.step (.inl ?_) (.inl ?_)
    · simp only [Line.receiving, hchan', hwindow, List.filterMap_cons_none hdata.1]
      rfl
    · simp only [Line.sending, hchan', List.filterMap_cons_none hdata.2]
      rfl

/-- **A packet that arrives** keeps the invariant, whatever it is about. -/
theorem LineSound.arrival (h : LineSound c mode { l with inbox := m :: ms })
    (hworks : .broken ∉ l.session.socket) :
    LineSound c mode { l with session := (l.session.packetAdd (m.encode c)).2, inbox := ms } ∧
    ((l.session.packetAdd (m.encode c)).1 = 0 ∨ (l.session.packetAdd (m.encode c)).1 = eagain) ∧
    Arrival c l.session (l.session.packetAdd (m.encode c)).2 := by
  cases m with
  | foreign payload =>
    have hforeign : Foreign c payload := h.orderly.proper _ List.mem_cons_self
    have hold : LineSound c mode { l with inbox := ms } := h.foreign
    obtain ⟨hcalm, hrc⟩ := hold.apart.calm_packetAdd hworks hforeign
    exact ⟨hold.untouched hcalm.apart hcalm.untouched, hrc, hcalm.arrival⟩
  | own m =>
    obtain ⟨ch, hch⟩ := Option.isSome_iff_exists.mp h.own.here
    have hchan : l.session.chan c = ch := Session.chan_of_locate hch
    cases m with
    | data tag bytes =>
      obtain ⟨h₁, h₂, h₃⟩ := h.arrival_data
      exact ⟨h₁, .inl h₂, h₃⟩
    | windowAdjust n =>
      obtain ⟨h₁, h₂, h₃⟩ := h.arrival_windowAdjust
      exact ⟨h₁, .inl h₂, h₃⟩
    | eof =>
      have := h.arrival_ends (e := { ch.remoteEnd with eof := true }) (.inl rfl) (by rw [hchan])
        (by rw [hchan]) (by rw [hchan])
      rw [hchan] at this
      simp only [Incoming.encode]
      rw [packetAdd_eof h.id_lt hch]
      exact ⟨this.1, .inl rfl, this.2⟩
    | close =>
      have := h.arrival_ends (e := { ch.remoteEnd with close := true, eof := true }) (.inr rfl)
        (by rw [hchan]) (by rw [hchan]) (by rw [hchan])
      rw [hchan] at this
      simp only [Incoming.encode]
      rw [packetAdd_close h.id_lt hch]
      exact ⟨this.1, .inl rfl, this.2⟩

end

/-! ## Reading all packets -/

/-- The packets that can be read are the first of those under way, and the socket works. -/
structure Ready (c : Nat) (l : Line) : Prop where
  inbound : l.session.inbound <+: l.inbox.map (Incoming.encode c)
  pause : l.session.pause = eagain
  works : .broken ∉ l.session.socket

/-- The line, where the session has become `s'` and has read some of its packets. -/
def Line.moved (l : Line) (s' : Session) : Line :=
  { l with
    session := s', inbox := l.inbox.drop (l.session.inbound.length - s'.inbound.length) }

theorem moved_of_inbound (h : s'.inbound = l.session.inbound) :
    l.moved s' = { l with session := s' } := by
  rw [Line.moved, h, Nat.sub_self, List.drop_zero]

theorem moved_moved {s'' : Session} (h : s'.inbound <:+ l.session.inbound)
    (h' : s''.inbound <:+ s'.inbound) : (l.moved s').moved s'' = l.moved s'' := by
  have := h.length_le
  have := h'.length_le
  simp only [Line.moved, List.drop_drop]
  congr 2
  omega

theorem Ready.moved (h : Ready c l) (hs : Steady l.session s') : Ready c (l.moved s') where
  inbound := by
    obtain ⟨k, hk⟩ := hs.inbound
    have hdrop : s'.inbound
        = l.session.inbound.drop (l.session.inbound.length - s'.inbound.length) := by
      rw [← hk]
      simp
    obtain ⟨more, hmore⟩ := h.inbound
    simp only [Line.moved]
    rw [List.map_drop, ← hmore, List.drop_append_of_le_length (Nat.sub_le _ _), ← hdrop]
    exact List.prefix_append _ _
  pause := hs.pause.trans h.pause
  works := hs.works h.works

/-- The invariant, after something that was steady. -/
structure Goes (c : Nat) (mode : IgnoreMode) (l : Line) (s' : Session) : Prop where
  sound : LineSound c mode (l.moved s')
  steady : Steady l.session s'

theorem LineSound.goes (h : LineSound c mode l) : Goes c mode l l.session where
  sound := by
    rw [moved_of_inbound rfl]
    exact h
  steady := .refl _

theorem Goes.ready (h : Goes c mode l s') (hr : Ready c l) : Ready c (l.moved s') :=
  hr.moved h.steady

theorem Steady.goes {s'' : Session} (h : Steady l.session s') (h' : Goes c mode (l.moved s') s'') :
    Goes c mode l s'' where
  sound := by
    rw [← moved_moved h.inbound h'.steady.inbound]
    exact h'.sound
  steady := h.trans h'.steady

theorem Goes.trans {s'' : Session} (h : Goes c mode l s') (h' : Goes c mode (l.moved s') s'') :
    Goes c mode l s'' :=
  h.steady.goes h'

/-- No packet was read. -/
theorem LineSound.still (h : LineSound c mode { l with session := s' })
    (hi : s'.inbound = l.session.inbound)
    (hs : Steady l.session s') : Goes c mode l s' where
  sound := by
    rw [moved_of_inbound hi]
    exact h
  steady := hs

theorem LineSound.calm (h : LineSound c mode l) (hc : Calm c l.peer.id l.session s') :
    Goes c mode l s' where
  sound := by
    rw [moved_of_inbound hc.inbound]
    exact h.untouched hc.apart hc.untouched
  steady := hc.steady

/-- The socket, and the packets that can be read, are no concern of the invariant. -/
theorem LineSound.outside (h : LineSound c mode l) (socket : List Push)
    (inbound : List (List UInt8))
    (pause : Int) :
    LineSound c mode { l with
      session := { l.session with socket := socket, inbound := inbound, pause := pause } } where
  id_lt := h.id_lt
  number_lt := h.number_lt
  room := h.room
  apart := ⟨h.apart.numbers, h.apart.adjusts, h.apart.writes, h.apart.pending, h.apart.waiting⟩
  own := ⟨h.own.here, h.own.chan, h.own.pendingAdjust, h.own.pendingWrite, h.own.whole, h.own.avail⟩
  orderly := h.orderly
  linked := h.linked

theorem type_encode (m : Incoming) (hm : ∀ payload, m = .foreign payload → Foreign c payload) :
    (m.encode c).headD 0 ≠ 0 := by
  cases m with
  | foreign payload =>
    intro h
    apply (hm payload rfl).1
    rw [show payload.headD 0 = 0 from h]
    exact List.mem_cons_self
  | own m =>
    cases m with
    | data tag bytes =>
      cases tag with
      | standard => simp [Incoming.encode, ChannelMessage.encode, msgData]
      | extended n => simp [Incoming.encode, ChannelMessage.encode, msgExtendedData]
    | windowAdjust n => simp [Incoming.encode, ChannelMessage.encode, msgWindowAdjust]
    | eof => simp [Incoming.encode, ChannelMessage.encode, msgEof]
    | close => simp [Incoming.encode, ChannelMessage.encode, msgClose]

/-- **One packet is read**, or the end of the last one. -/
theorem LineSound.transportRead (h : LineSound c mode l) (hr : Ready c l) :
    Goes c mode l l.session.transportRead.2 ∧
      (0 < l.session.transportRead.1 ∨ l.session.transportRead.1 = eagain) ∧
      (l.session.transportRead.2.chan c).writeState = (l.session.chan c).writeState := by
  cases hwait : l.session.packAdd with
  | some w =>
    unfold Session.transportRead
    rw [hwait]
    obtain ⟨id, datalen⟩ := w
    obtain ⟨hid, hopen⟩ := h.apart.waiting id datalen hwait
    have hcalm := h.apart.calm_receiveWindowAdjust hr.works hid hopen
      (wrap32 (datalen - 13 : Int)) true
    dsimp only
    split
    · exact ⟨h.calm hcalm, .inr rfl, hcalm.arrival.writeState⟩
    · exact ⟨h.calm (hcalm.trans (hcalm.apart.calm_packAdd fun _ _ hw => by simp at hw)),
        .inl (by simp [msgExtendedData]), hcalm.arrival.writeState⟩
  | none =>
    cases hin : l.session.inbound with
    | nil =>
      unfold Session.transportRead
      rw [hwait, hin]
      dsimp only
      rw [hr.pause]
      exact ⟨h.goes, .inr rfl, rfl⟩
    | cons data rest =>
      have hprefix := hr.inbound
      rw [hin] at hprefix
      cases hbox : l.inbox with
      | nil => simp [hbox] at hprefix
      | cons m ms =>
        rw [hbox, List.map_cons, List.cons_prefix_cons] at hprefix
        obtain ⟨rfl, -⟩ := hprefix
        have hpop : LineSound c mode { ({ l with
            session := { l.session with inbound := rest } } : Line) with inbox := m :: ms } := by
          rw [← hbox]
          exact h.outside l.session.socket rest l.session.pause
        obtain ⟨hsound, hrc, hsteady⟩ := hpop.arrival hr.works
        have hgoes : Goes c mode l (({ l.session with inbound := rest } : Session).packetAdd
            (m.encode c)).2 := by
          refine ⟨?_, ?_, hsteady.pause, hsteady.works, hsteady.located⟩
          · rw [Line.moved, Session.packetAdd_inbound, hin, hbox]
            simpa using hsound
          · rw [Session.packetAdd_inbound, hin]
            exact List.suffix_cons _ _
        have hpositive : (0 : Int) < ((m.encode c).headD 0).toNat := by
          have hproper := h.orderly.proper m (by rw [hbox]; exact List.mem_cons_self)
          have hne := type_encode m fun payload hm => by
            rw [hm] at hproper
            exact hproper
          have : ((m.encode c).headD 0).toNat ≠ 0 := fun h0 => hne (UInt8.toNat_inj.mp h0)
          omega
        rw [Session.transportRead_next hwait hin]
        split
        · exact ⟨hgoes, .inl hpositive, hsteady.writeState⟩
        · next hne => exact ⟨hgoes, .inr (hrc.resolve_left hne), hsteady.writeState⟩

theorem LineSound.drainWithin (n : Nat) (h : LineSound c mode l) (hr : Ready c l) :
    Goes c mode l (l.session.drainWithin n).2 ∧ (l.session.drainWithin n).1 = eagain ∧
      ((l.session.drainWithin n).2.chan c).writeState = (l.session.chan c).writeState := by
  -- The line moves on with every packet, and the invariant with it.
  induction n generalizing l with
  | zero => exact ⟨h.goes, hr.pause, rfl⟩
  | succ n ih =>
    obtain ⟨hgoes, hrc, hstate⟩ := h.transportRead hr
    unfold Session.drainWithin
    split
    · obtain ⟨hrest, heq, hstate'⟩ := ih hgoes.sound (hgoes.ready hr)
      exact ⟨hgoes.trans hrest, heq, hstate'.trans hstate⟩
    · next hle => exact ⟨hgoes, hrc.resolve_left hle, hstate⟩

/-- **All packets that can be read are read**, until there are no more. -/
theorem LineSound.drain (h : LineSound c mode l) (hr : Ready c l) :
    Goes c mode l l.session.drain.2 ∧ l.session.drain.1 = eagain ∧
      (l.session.drain.2.chan c).writeState = (l.session.chan c).writeState :=
  h.drainWithin _ hr

end Ssh2Python
