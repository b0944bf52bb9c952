import Ssh2Python.Verify.ChannelArrivals

/-!
# Calls to a channel

Every call that the program makes keeps the invariant of the line, with what the call has read or
written (`LineSound.call`): to the channel itself (`LineSound.channelReadEx`,
`LineSound.channelWrite`, `LineSound.receiveWindowAdjust`), and to another one.
-/

namespace Ssh2Python

open Lib.CInt Lib.Credit Lib.Outgoing Lib.Wire

variable {c r : Nat} {mode : IgnoreMode} {l : Line} {s s' : Session} {ch : ChannelState}

/-! ## Changes of the record -/

/-- A new record that tells the same of both ends. -/
theorem LineSound.put (h : LineSound c mode l) (ch : ChannelState) (hid : ch.localEnd.id = c)
    (hch : ch.Sound l.peer.id mode)
    (hadjust : ∀ n p, l.session.outbox.pending = some ((.adjustAdjust c, n), p) →
      ch.adjustState ≠ .idle ∧ p = ch.adjustAdjust)
    (hwrite : ∀ n p, l.session.outbox.pending = some ((.writePacket c, n), p) →
      ch.writeState ≠ .idle)
    (havail : ch.readAvail = (l.session.chan c).readAvail)
    (hlocal : ch.localEnd = (l.session.chan c).localEnd)
    (hremote : ch.remoteEnd = (l.session.chan c).remoteEnd) :
    LineSound c mode { l with session := l.session.put ch } := by
  have hchan : (l.session.put ch).chan c = ch := Session.chan_put_self h.own.here hid
  refine ⟨h.id_lt, h.number_lt, h.room, h.apart.put ch fun hne => absurd hid hne,
    h.own.put ch hid hch hadjust hwrite havail, ?_, h.linked.step (.inl ?_) (.inl ?_)⟩
  · rw [hchan, hremote]
    exact h.orderly
  · simp only [Line.receiving, hchan, hremote]
    rfl
  · simp only [Line.sending, hchan, hlocal]
    rfl

theorem LineSound.put_quiet (h : LineSound c mode l) (readState : NbState) (adjustQueue : Nat) :
    Goes c mode l (l.session.put { l.session.chan c with
      readState := readState, adjustQueue := adjustQueue }) := by
  have hsound := h.own.chan
  exact (h.put { l.session.chan c with readState := readState, adjustQueue := adjustQueue }
    h.id_chan ⟨hsound.number, hsound.mode_eq, hsound.adjusting, hsound.writing, hsound.small⟩
    h.own.pendingAdjust h.own.pendingWrite rfl rfl rfl).still rfl (.put _ _)

/-! ## What is sent -/

/-- A packet waits for the socket: one that did before, or the one that is sent now. -/
theorem LineSound.waits (h : LineSound c mode l) {area : Area} {data : List UInt8} {n : Nat}
    {b : Outbox (Area × Nat) (List UInt8)} {socket : List Push}
    (hgone : b.gone = l.session.outbox.gone)
    (hpending : b.pending = l.session.outbox.pending ∨
      l.session.outbox.pending = none ∧ b.pending = some ((area, n), data))
    (hadjust : area = .adjustAdjust c →
      (l.session.chan c).adjustState ≠ .idle ∧ data = (l.session.chan c).adjustAdjust)
    (hwrite : area = .writePacket c → (l.session.chan c).writeState ≠ .idle)
    (hother : area ≠ .adjustAdjust c → area ≠ .writePacket c →
      decodeMessage l.peer.id data = none) :
    LineSound c mode { l with session := { l.session with outbox := b, socket := socket } } := by
  have hcases {area' : Area} {k : Nat} {p : List UInt8} (hp : b.pending = some ((area', k), p)) :
      l.session.outbox.pending = some ((area', k), p) ∨ area' = area ∧ p = data := by
    obtain hsame | ⟨-, hnew⟩ := hpending
    · exact .inl (hsame ▸ hp)
    · rw [hnew] at hp
      simp only [Option.some.injEq, Prod.mk.injEq] at hp
      exact .inr ⟨hp.1.1.symm, hp.2.symm⟩
  refine ⟨h.id_lt, h.number_lt, h.room, h.apart.outbox ?_,
    ⟨h.own.here, h.own.chan, ?_, ?_, h.own.whole, h.own.avail⟩, h.orderly,
    h.linked.step (.inl ?_) (.inl ?_)⟩
  · intro area' k p hp ha hw
    obtain hp | ⟨rfl, rfl⟩ := hcases hp
    · exact h.apart.pending area' k p hp ha hw
    · exact hother ha hw
  · intro k p hp
    obtain hp | ⟨rfl, rfl⟩ := hcases hp
    · exact h.own.pendingAdjust k p hp
    · exact hadjust rfl
  · intro k p hp
    obtain hp | ⟨rfl, -⟩ := hcases hp
    · exact h.own.pendingWrite k p hp
    · exact hwrite rfl
  · simp only [Line.receiving, hgone]
    rfl
  · simp only [Line.sending, hgone]
    rfl

/-- The line, where a packet is gone and the record of the channel is new. -/
def Line.sentOne (l : Line) (m : List UInt8) (ch : ChannelState)
    (wrote : List (StreamTag × List UInt8)) : Line :=
  { l with
    session := { l.session with
      outbox := ⟨none, l.session.outbox.gone ++ [m]⟩, socket := l.session.socket.tail }.put ch
    wrote := l.wrote ++ wrote }

theorem receiving_sentOne {m : List UInt8} {wrote : List (StreamTag × List UInt8)}
    (hopen : (l.session.locate c).isSome) (hid : ch.localEnd.id = c) :
    (l.sentOne m ch wrote).receiving c = { l.receiving c with
      grants := (l.receiving c).grants ++ (sentGrant l.peer.id m).toList
      window := ch.remoteEnd.windowSize } := by
  have hchan : (l.sentOne m ch wrote).session.chan c = ch := Session.chan_put_self hopen hid
  have hgone : (l.sentOne m ch wrote).session.outbox.gone = l.session.outbox.gone ++ [m] := rfl
  have hone : [m].filterMap (sentGrant l.peer.id) = (sentGrant l.peer.id m).toList := by
    cases h : sentGrant l.peer.id m <;> simp [h]
  unfold Line.receiving
  rw [hchan, hgone, List.filterMap_append]
  simp only [Line.sentOne, Session.put_packets, ← hone]

theorem sending_sentOne {m : List UInt8} {wrote : List (StreamTag × List UInt8)}
    (hopen : (l.session.locate c).isSome) (hid : ch.localEnd.id = c) :
    (l.sentOne m ch wrote).sending c = { l.sending c with
      sent := (l.sending c).sent ++ wrote
      credit := ch.localEnd.windowSize
      flight := (l.sending c).flight ++ (sentData l.peer.id m).toList } := by
  have hchan : (l.sentOne m ch wrote).session.chan c = ch := Session.chan_put_self hopen hid
  have hgone : (l.sentOne m ch wrote).session.outbox.gone = l.session.outbox.gone ++ [m] := rfl
  have hone : [m].filterMap (sentData l.peer.id) = (sentData l.peer.id m).toList := by
    cases h : sentData l.peer.id m <;> simp [h]
  unfold Line.sending
  rw [hchan, hgone, List.filterMap_append]
  simp only [Line.sentOne, ← hone]

theorem LineSound.sentOne (h : LineSound c mode l) (m : List UInt8)
    (wrote : List (StreamTag × List UInt8))
    (hid : ch.localEnd.id = c) (hch : ch.Sound l.peer.id mode)
    (havail : ch.readAvail = (l.session.chan c).readAvail) {n : Nat}
    (hremote : ch.remoteEnd = { (l.session.chan c).remoteEnd with windowSize := n })
    (hreceives : (l.sentOne m ch wrote).receiving c = l.receiving c ∨
      Link.Step (StreamTag.wantedBy mode) (l.receiving c) ((l.sentOne m ch wrote).receiving c))
    (hsends : (l.sentOne m ch wrote).sending c = l.sending c ∨
      Link.Step StreamTag.among (l.sending c) ((l.sentOne m ch wrote).sending c)) :
    LineSound c mode (l.sentOne m ch wrote) := by
  have hout : Own c l.peer.id mode { l.session with
      outbox := ⟨none, l.session.outbox.gone ++ [m]⟩, socket := l.session.socket.tail } :=
    ⟨h.own.here, h.own.chan, fun _ _ hp => by simp at hp, fun _ _ hp => by simp at hp, h.own.whole,
      h.own.avail⟩
  have hapart : Apart c l.peer.id { l.session with
      outbox := ⟨none, l.session.outbox.gone ++ [m]⟩, socket := l.session.socket.tail } :=
    h.apart.outbox fun _ _ _ hp => by simp at hp
  have hchan : (l.sentOne m ch wrote).session.chan c = ch := Session.chan_put_self h.own.here hid
  refine ⟨h.id_lt, h.number_lt, h.room, hapart.put ch fun hne => absurd hid hne,
    hout.put ch hid hch (fun _ _ hp => by simp at hp) (fun _ _ hp => by simp at hp) havail, ?_,
    h.linked.step hreceives hsends⟩
  rw [hchan, hremote]
  exact h.orderly.windowSize n

/-! ## The window -/

section

variable {adjustment : Nat}

theorem operand_windowAdjust {n : Nat} (hn : n < 2 ^ 32) :
    operand ((ChannelMessage.windowAdjust n).encode r) = n := by
  have := operand_only msgWindowAdjust r n
  rw [Nat.mod_eq_of_lt hn] at this
  simpa [ChannelMessage.encode] using this

theorem sentGrant_windowAdjust {n : Nat} (hr : r < 2 ^ 32) (hn : n < 2 ^ 32) :
    sentGrant r ((ChannelMessage.windowAdjust n).encode r) = some n ∧
      sentData r ((ChannelMessage.windowAdjust n).encode r) = none := by
  rw [sentGrant, sentData, decodeMessage_windowAdjust hr hn]
  exact ⟨rfl, rfl⟩

theorem LineSound.sendAdjust (h : LineSound c mode l) (hworks : .broken ∉ l.session.socket)
    (hstate : (l.session.chan c).adjustState ≠ .idle)
    (heven : l.session.socket.headD .stuck = .through →
      adjustment = operand (l.session.chan c).adjustAdjust) :
    Goes c mode l (l.session.sendAdjust c adjustment).2 := by
  obtain ⟨n, hn, hpacket, hsmall⟩ := h.own.chan.adjusting hstate
  have hsound := h.own.chan
  obtain ⟨hthrough, m, hm, heq⟩ | ⟨b, heq, hgone, hpending⟩ :=
    Session.transportSend_cases (.adjustAdjust c) (l.session.chan c).adjustAdjust [] hworks
  · -- Whether it has waited or not, what gets through is the packet in the record.
    have hm' : m = (ChannelMessage.windowAdjust n).encode l.peer.id := by
      obtain ⟨-, rfl⟩ | hm := hm
      · rw [List.append_nil, hpacket]
      · rw [(h.own.pendingAdjust _ m hm).2, hpacket]
    have hamount : adjustment = n := by
      rw [heven hthrough, hpacket, operand_windowAdjust hn]
    have hwrap : wrap32 ((l.session.chan c).remoteEnd.windowSize + adjustment)
        = (l.session.chan c).remoteEnd.windowSize + n := by
      rw [hamount, wrap32_eq (by omega) (by omega)]
      omega
    generalize hrecord : ({ l.session.chan c with
      remoteEnd.windowSize := (l.session.chan c).remoteEnd.windowSize + n
      adjustState := .idle } : ChannelState) = ch
    have hresult : (l.session.sendAdjust c adjustment).2 = (l.sentOne m ch []).session := by
      unfold Session.sendAdjust
      dsimp only
      rw [heq, hwrap, hrecord]
      simp [Line.sentOne, eagain]
    have hid : ch.localEnd.id = c := hrecord ▸ h.id_chan
    obtain ⟨hgrant, hdata⟩ := sentGrant_windowAdjust h.number_lt hn
    rw [hresult]
    refine LineSound.still ?_ rfl ((Steady.send _ _).trans (.put _ ch))
    have hsent := h.sentOne m [] hid ?_ (by rw [← hrecord])
      (n := (l.session.chan c).remoteEnd.windowSize + n) (by rw [← hrecord]) (.inr ?_) (.inl ?_)
    · rw [Line.sentOne, List.append_nil] at hsent
      exact hsent
    · subst hrecord
      exact ⟨hsound.number, hsound.mode_eq, fun hne => absurd rfl hne, hsound.writing, hsmall⟩
    · rw [receiving_sentOne h.own.here hid, hm', hgrant, ← hrecord]
      exact .grant (l.receiving c) n
    · rw [sending_sentOne h.own.here hid, hm', hdata, ← hrecord]
      simp [Line.sending]
  · have hresult : (l.session.sendAdjust c adjustment).2
        = { l.session with outbox := b, socket := l.session.socket.tail } := by
      unfold Session.sendAdjust
      dsimp only
      rw [heq]
      rfl
    rw [hresult]
    refine LineSound.still ?_ rfl (.send _ b)
    exact h.waits hgone hpending (fun _ => ⟨hstate, List.append_nil _⟩) (fun he => by simp at he)
      fun ha => absurd rfl ha

/-- **The channel's window grows** by what the other end is told. -/
theorem LineSound.receiveWindowAdjust (h : LineSound c mode l) (hworks : .broken ∉ l.session.socket)
    (force : Bool) (heven : AdjustsEvenly l.session c adjustment) :
    Goes c mode l (l.session.receiveWindowAdjust c adjustment force).2 := by
  unfold AdjustsEvenly at heven
  unfold Session.receiveWindowAdjust
  dsimp only
  split
  · next hidle =>
    rw [if_pos hidle] at heven
    have hsound := h.own.chan
    have hamount : wrap32 (adjustment + (l.session.chan c).adjustQueue)
        = adjustment + (l.session.chan c).adjustQueue := by
      rw [wrap32_eq (by omega) (by omega)]
      omega
    split
    · exact h.put_quiet _ _
    · split
      · exact h.goes
      · generalize hrecord : ({ l.session.chan c with
          adjustQueue := 0
          adjustAdjust := [msgWindowAdjust] ++ store 4 (l.session.chan c).remoteEnd.id
            ++ store 4 (wrap32 (adjustment + (l.session.chan c).adjustQueue))
          adjustState := .created } : ChannelState) = ch
        have hid : ch.localEnd.id = c := hrecord ▸ h.id_chan
        have hchan : (l.session.put ch).chan c = ch := Session.chan_put_self h.own.here hid
        have hstart : Goes c mode l (l.session.put ch) := by
          refine (h.put ch hid ?_
            (fun n p hp => absurd hidle (h.own.pendingAdjust n p hp).1) ?_ ?_ ?_ ?_).still rfl
            (.put _ _)
          · subst hrecord
            exact ⟨hsound.number, hsound.mode_eq, fun _ => ⟨_, wrap32_lt _, by
              rw [ChannelMessage.encode, ← hsound.number], by rw [hamount]; dsimp only; omega⟩,
              hsound.writing, hsound.small⟩
          · subst hrecord
            exact h.own.pendingWrite
          · rw [← hrecord]
          · rw [← hrecord]
          · rw [← hrecord]
        refine hstart.trans (hstart.sound.sendAdjust hworks ?_ fun _ => ?_)
        · simp only [Line.moved]
          rw [hchan, ← hrecord]
          simp
        · simp only [Line.moved]
          rw [hchan, ← hrecord]
          have := operand_only msgWindowAdjust (l.session.chan c).remoteEnd.id
            (wrap32 (adjustment + (l.session.chan c).adjustQueue))
          rw [Nat.mod_eq_of_lt (wrap32_lt _)] at this
          simpa using this.symm
  · next hstate =>
    rw [if_neg hstate] at heven
    exact h.sendAdjust hworks hstate heven

end

/-! ## Reading -/

section

variable {k : Int} {n : Nat}

/-- What the loop of a read makes of the chunks, and of the packets. -/
theorem LineSound.copyOut (h : LineSound c mode l) (k : Int) (n : Nat) :
    ((l.session.chan c).copyOut k n l.session.packets).1
      = (takeChunks (StreamTag.wantedBy mode k) n (l.receiving c).buffer).1 ∧
    chunksOf c ((l.session.chan c).copyOut k n l.session.packets).2
      = (takeChunks (StreamTag.wantedBy mode k) n (l.receiving c).buffer).2 ∧
    ∀ p ∈ ((l.session.chan c).copyOut k n l.session.packets).2.filter (Session.queued c),
      p.Whole := by
  have hwhole (p : Packet) (hp : p ∈ l.session.packets) (hq : Session.queued c p = true) :
      p.Whole :=
    h.own.whole p (List.mem_filter.mpr ⟨hp, hq⟩)
  have hcopy := chunksOf_copyOut (k := k) (n := n) h.id_chan hwhole
  rw [h.own.chan.mode_eq] at hcopy
  refine ⟨hcopy.1, hcopy.2, fun q hq => ?_⟩
  obtain ⟨hmem, hqueued⟩ := List.mem_filter.mp hq
  obtain ⟨p, hp, hdata⟩ := mem_copyOut hmem
  have := hwhole p hp (by
    simp only [Session.queued] at hqueued ⊢
    rwa [hdata] at hqueued)
  unfold Packet.Whole at this ⊢
  rwa [hdata]

/-- A read that comes away with nothing, whether it says so or has to wait. -/
theorem LineSound.read_nothing (h : LineSound c mode l)
    (hnone : ((l.session.chan c).copyOut k n l.session.packets).1 = [])
    {reads : List (Int × List UInt8)} (hreads : reads = [] ∨ reads = [(k, [])]) :
    LineSound c mode { l with
      session := { l.session with packets := ((l.session.chan c).copyOut k n l.session.packets).2 }
      reads := l.reads ++ reads } := by
  obtain ⟨hout, hleft, hwhole⟩ := h.copyOut k n
  rw [hnone] at hout
  have hsize := @takeChunks_size _ _ (StreamTag.wantedBy mode k) (l.receiving c).buffer n
  rw [← hout, ← hleft, List.length_nil, Nat.zero_add] at hsize
  refine ⟨h.id_lt, h.number_lt, h.room,
    ⟨h.apart.numbers, h.apart.adjusts, h.apart.writes, h.apart.pending, h.apart.waiting⟩,
    ⟨h.own.here, h.own.chan, h.own.pendingAdjust, h.own.pendingWrite, hwhole, ?_⟩, h.orderly,
    h.linked.step (.inr ?_) (.inl rfl)⟩
  · exact h.own.avail.trans hsize.symm
  · obtain rfl | rfl := hreads
    · have hstep : Link.Step (StreamTag.wantedBy mode) (l.receiving c) _ := .sweep _ k n hout.symm
      rw [← hleft] at hstep
      rw [List.append_nil]
      exact hstep
    · have hstep : Link.Step (StreamTag.wantedBy mode) (l.receiving c) _ := .take _ k n
      rw [← hleft, ← hout] at hstep
      exact hstep

/-- What a read hands out leaves the window. -/
theorem LineSound.read_some (h : LineSound c mode l) (k : Int) (n : Nat)
    {out : List UInt8 × List Packet}
    (hcopy : (l.session.chan c).copyOut k n l.session.packets = out) :
    Goes c mode { l with reads := l.reads ++ [(k, out.1)] }
      (({ l.session with packets := out.2 } : Session).put { l.session.chan c with
        readAvail := toSize ((l.session.chan c).readAvail - out.1.length)
        remoteEnd.windowSize :=
          wrap32 ((l.session.chan c).remoteEnd.windowSize - out.1.length) }) := by
  obtain ⟨hout, hleft, hwhole⟩ := h.copyOut k n
  rw [hcopy] at hout hleft hwhole
  have hsize := @takeChunks_size _ _ (StreamTag.wantedBy mode k) (l.receiving c).buffer n
  rw [← hout, ← hleft] at hsize
  have hbuffer := h.linked.receives.buffer_le
  have havail := h.own.avail
  have hsmall := h.own.chan.small
  have hav : size (l.receiving c).buffer = (l.session.chan c).readAvail := havail.symm
  have hwin : (l.receiving c).window = (l.session.chan c).remoteEnd.windowSize := rfl
  rw [hwin, hav] at hbuffer
  rw [hav] at hsize
  have hreadAvail : toSize ((l.session.chan c).readAvail - out.1.length)
      = (l.session.chan c).readAvail - out.1.length := toSize_sub (by omega) (by omega)
  have hwindow : wrap32 ((l.session.chan c).remoteEnd.windowSize - out.1.length)
      = (l.session.chan c).remoteEnd.windowSize - out.1.length := by
    rw [wrap32_eq (by omega) (by omega)]
    omega
  rw [hreadAvail, hwindow]
  generalize hrecord : ({ l.session.chan c with
    readAvail := (l.session.chan c).readAvail - out.1.length
    remoteEnd.windowSize := (l.session.chan c).remoteEnd.windowSize - out.1.length } :
      ChannelState) = ch
  have hid : ch.localEnd.id = c := hrecord ▸ h.id_chan
  have hchan := chan_put_packets ch out.2 h.own.here hid
  have hsound := h.own.chan
  refine LineSound.still ?_ rfl ⟨List.suffix_rfl, rfl, id, fun _ => Session.isSome_locate_put⟩
  refine ⟨h.id_lt, h.number_lt, h.room, h.apart.put_packets ch _ hid,
    h.own.put_packets ch _ hid ?_ ?_ ?_ hwhole ?_, ?_, h.linked.step (.inr ?_) (.inl ?_)⟩
  · subst hrecord
    exact ⟨hsound.number, hsound.mode_eq, fun hs => by
      obtain ⟨m, hm, hpacket, hlt⟩ := hsound.adjusting hs
      exact ⟨m, hm, hpacket, by dsimp only; omega⟩, hsound.writing, by dsimp only; omega⟩
  · subst hrecord
    exact h.own.pendingAdjust
  · subst hrecord
    exact h.own.pendingWrite
  · rw [← hrecord]
    dsimp only
    omega
  · have horderly := h.orderly.windowSize ((l.session.chan c).remoteEnd.windowSize - out.1.length)
    have hremote : ch.remoteEnd = { (l.session.chan c).remoteEnd with
      windowSize := (l.session.chan c).remoteEnd.windowSize - out.1.length } := by rw [← hrecord]
    rw [← hremote] at horderly
    have hchan' : (({ l.session with packets := out.2 } : Session).put ch).chan c = ch := hchan
    dsimp only
    rw [hchan']
    exact horderly
  · have hstep : Link.Step (StreamTag.wantedBy mode) (l.receiving c) _ := .take _ k n
    rw [← hleft, ← hout] at hstep
    have hchan' : (({ l.session with packets := out.2 } : Session).put ch).chan c = ch := hchan
    have hremote : ch.remoteEnd.windowSize
      = (l.session.chan c).remoteEnd.windowSize - out.1.length := by rw [← hrecord]
    simp only [Line.receiving, hchan', hremote]
    exact hstep
  · have hchan' : (({ l.session with packets := out.2 } : Session).put ch).chan c = ch := hchan
    have hlocal : ch.localEnd = (l.session.chan c).localEnd := by rw [← hrecord]
    simp only [Line.sending, hchan', hlocal]
    rfl

theorem LineSound.readOn (h : LineSound c mode l) (hr : Ready c l) (k : Int) (n : Nat) :
    Goes c mode { l with
        reads := l.reads ++ ((l.session.readOn c k n).1.toOption.map (k, ·)).toList }
      (l.session.readOn c k n).2 := by
  -- The drain ends with EAGAIN, which is no reason to stop.
  obtain ⟨hgoes, hrc, -⟩ := h.drain hr
  unfold Session.readOn
  simp only [hrc]
  rw [if_neg (by simp)]
  have hpackets : Steady l.session.drain.2 { l.session.drain.2 with
      packets := ((l.session.drain.2.chan c).copyOut k n l.session.drain.2.packets).2 } :=
    ⟨List.suffix_rfl, rfl, id, fun _ => rfl⟩
  split
  · next hnone =>
    split
    · exact Steady.goes (l := { l with reads := l.reads ++ [(k, [])] }) hgoes.steady
        (LineSound.still (hgoes.sound.read_nothing hnone (.inr rfl)) rfl hpackets)
    · rw [show ((Except.error eagain : Except Int (List UInt8)).toOption.map (k, ·)).toList =
        [] from rfl]
      exact Steady.goes (l := { l with reads := l.reads ++ [] }) hgoes.steady
        (LineSound.still (hgoes.sound.read_nothing hnone (.inl rfl)) rfl hpackets)
  · exact Steady.goes (l := { l with reads := l.reads ++ [(k, _)] }) hgoes.steady
      (hgoes.sound.read_some k n rfl)

theorem AdjustsEvenly.quiet {adjustment : Nat} {readState : NbState} (h : LineSound c mode l)
    (heven : AdjustsEvenly l.session c adjustment) :
    AdjustsEvenly (l.session.put { l.session.chan c with readState := readState }) c
      adjustment := by
  have hchan : (l.session.put { l.session.chan c with readState := readState }).chan c
      = { l.session.chan c with readState := readState } :=
    Session.chan_put_self h.own.here h.id_chan
  unfold AdjustsEvenly at heven ⊢
  rw [hchan]
  exact heven

/-- **A window that has become too narrow** is made wider first. -/
theorem LineSound.widen (h : LineSound c mode l) (hr : Ready c l)
    (heven : ReadsEvenly l.session c n) :
    Goes c mode l (l.session.widen c n).2 := by
  unfold Session.widen
  dsimp only
  split
  · next hnarrow =>
    have hput := h.put_quiet .jump1 (l.session.chan c).adjustQueue
    have hadjust := hput.trans (hput.sound.receiveWindowAdjust (hput.ready hr).works false
      ((heven hnarrow).quiet h))
    split
    · exact hadjust
    · exact hadjust.trans (hadjust.sound.put_quiet .idle _)
  · exact h.goes

theorem LineSound.channelRead (h : LineSound c mode l) (hr : Ready c l)
    (heven : ReadsEvenly l.session c n) :
    Goes c mode { l with
        reads := l.reads ++ ((l.session.channelRead c k n).1.toOption.map (k, ·)).toList }
      (l.session.channelRead c k n).2 := by
  have hwide := h.widen hr heven
  unfold Session.channelRead
  dsimp only
  split
  · simp only [Except.toOption, Option.map_none, Option.toList_none, List.append_nil]
    exact hwide
  · exact Steady.goes (l := { l with reads := l.reads ++ _ }) hwide.steady
      (hwide.sound.readOn (hwide.ready hr) k n)

theorem LineSound.channelReadEx (h : LineSound c mode l) (hr : Ready c l)
    (heven : LineCall.Repeats l.session c (.readEx k n)) :
    Goes c mode { l with
        reads := l.reads ++ ((l.session.channelReadEx c k n).1.toOption.map (k, ·)).toList }
      (l.session.channelReadEx c k n).2 := by
  simp only [LineCall.Repeats] at heven
  unfold Session.channelReadEx
  split
  · next hnarrow =>
    rw [if_pos hnarrow] at heven
    have hadjust := h.receiveWindowAdjust hr.works true heven.1
    exact Steady.goes (l := { l with reads := l.reads ++ _ }) hadjust.steady
      (hadjust.sound.channelRead (hadjust.ready hr) heven.2)
  · next hwide =>
    rw [if_neg hwide] at heven
    exact h.channelRead hr heven

/-- A read that says that there is no more: nothing of its stream is left, and the channel has
ended. -/
def Session.Finished (c : Nat) (want : StreamTag → Bool) (s : Session) : Prop :=
  content want (chunksOf c s.packets) = [] ∧
    ((s.chan c).remoteEnd.eof = true ∨ (s.chan c).remoteEnd.close = true)

theorem LineSound.readOn_end (h : LineSound c mode l) (hr : Ready c l) (hn : n ≠ 0)
    (hend : (l.session.readOn c k n).1 = .ok []) :
    (l.session.readOn c k n).2.Finished c (StreamTag.wantedBy mode k) := by
  obtain ⟨hgoes, hrc, -⟩ := h.drain hr
  unfold Session.readOn at hend ⊢
  simp only [hrc] at hend ⊢
  rw [if_neg (by simp)] at hend ⊢
  split at hend
  · next hnone =>
    rw [if_pos hnone]
    split at hend
    · next hended =>
      rw [if_pos hended]
      obtain ⟨hout, hleft, -⟩ := hgoes.sound.copyOut k n
      have hout := hout.symm.trans hnone
      refine ⟨?_, ?_⟩
      · exact (congrArg (content (StreamTag.wantedBy mode k)) hleft).trans
          ((takeChunks_content_of_nil hout).trans (takeChunks_eq_nil hout hn))
      · obtain he | he | he := hended
        · exact .inl he
        · exact .inr he
        · exact absurd rfl he
    · simp at hend
  · next hsome => exact absurd (Except.ok.inj hend) hsome

theorem LineSound.channelRead_end (h : LineSound c mode l) (hr : Ready c l)
    (heven : ReadsEvenly l.session c n) (hn : n ≠ 0)
    (hend : (l.session.channelRead c k n).1 = .ok []) :
    (l.session.channelRead c k n).2.Finished c (StreamTag.wantedBy mode k) := by
  have hwide := h.widen hr heven
  unfold Session.channelRead at hend ⊢
  dsimp only at hend ⊢
  split at hend
  · simp at hend
  · next hzero =>
    rw [if_neg hzero]
    exact hwide.sound.readOn_end (hwide.ready hr) hn hend

theorem LineSound.channelReadEx_end (h : LineSound c mode l) (hr : Ready c l)
    (heven : LineCall.Repeats l.session c (.readEx k n)) (hn : n ≠ 0)
    (hend : (l.session.channelReadEx c k n).1 = .ok []) :
    (l.session.channelReadEx c k n).2.Finished c (StreamTag.wantedBy mode k) := by
  simp only [LineCall.Repeats] at heven
  unfold Session.channelReadEx at hend ⊢
  split at hend
  · next hnarrow =>
    rw [if_pos hnarrow] at heven ⊢
    have hadjust := h.receiveWindowAdjust hr.works true heven.1
    exact hadjust.sound.channelRead_end (hadjust.ready hr) heven.2 hn hend
  · next hwide =>
    rw [if_neg hwide] at heven ⊢
    exact h.channelRead_end hr heven hn hend

/-- An adjustment is sent, or it waits and leaves the record as it is. -/
theorem sendAdjust_result (adjustment : Nat) (hworks : .broken ∉ s.socket) :
    (s.sendAdjust c adjustment).1 = 0 ∨
      (s.sendAdjust c adjustment).1 = eagain ∧ (s.sendAdjust c adjustment).2.chan c = s.chan c := by
  obtain ⟨-, m, -, heq⟩ | ⟨b, heq, -, -⟩ :=
    Session.transportSend_cases (.adjustAdjust c) (s.chan c).adjustAdjust [] hworks
  · left
    unfold Session.sendAdjust
    dsimp only
    rw [heq]
    simp [eagain]
  · right
    unfold Session.sendAdjust
    dsimp only
    rw [heq]
    exact ⟨rfl, rfl⟩

theorem receiveWindowAdjust_result (adjustment : Nat) (force : Bool) (hopen : (s.locate c).isSome)
    (hworks : .broken ∉ s.socket) :
    (s.receiveWindowAdjust c adjustment force).1 = 0 ∨
      (s.receiveWindowAdjust c adjustment force).1 = eagain ∧
        ((s.receiveWindowAdjust c adjustment force).2.chan c).readState = (s.chan c).readState := by
  have hid := Session.id_chan hopen
  unfold Session.receiveWindowAdjust
  dsimp only
  split
  · split
    · exact .inl rfl
    · split
      · exact .inl rfl
      · obtain hzero | ⟨hwait, hchan⟩ := sendAdjust_result (c := c) (s := s.put { s.chan c with
            adjustQueue := 0
            adjustAdjust := [msgWindowAdjust] ++ store 4 (s.chan c).remoteEnd.id
              ++ store 4 (wrap32 (adjustment + (s.chan c).adjustQueue))
            adjustState := .created }) (wrap32 (adjustment + (s.chan c).adjustQueue)) hworks
        · exact .inl hzero
        · refine .inr ⟨hwait, ?_⟩
          rw [hchan, Session.chan_put_self hopen (by exact hid)]
  · obtain hzero | ⟨hwait, hchan⟩ := sendAdjust_result (c := c) adjustment hworks
    · exact .inl hzero
    · exact .inr ⟨hwait, by rw [hchan]⟩

/-- A read that has to wait: nothing of its stream is there, or its window adjustment is not
sent. -/
def Session.Waits (c : Nat) (want : StreamTag → Bool) (s : Session) : Prop :=
  content want (chunksOf c s.packets) = [] ∨ (s.chan c).readState = .jump1

theorem LineSound.readOn_waits {e : Int} (h : LineSound c mode l) (hr : Ready c l) (hn : n ≠ 0)
    (herror : (l.session.readOn c k n).1 = .error e) :
    e = eagain ∧ (l.session.readOn c k n).2.Waits c (StreamTag.wantedBy mode k) := by
  obtain ⟨hgoes, hrc, -⟩ := h.drain hr
  unfold Session.readOn at herror ⊢
  simp only [hrc] at herror ⊢
  rw [if_neg (by simp)] at herror ⊢
  split at herror
  · next hnone =>
    rw [if_pos hnone]
    split at herror
    · simp at herror
    · next hopen =>
      rw [if_neg hopen]
      obtain ⟨hout, hleft, -⟩ := hgoes.sound.copyOut k n
      have hout := hout.symm.trans hnone
      refine ⟨(Except.error.inj herror).symm, .inl ?_⟩
      exact (congrArg (content (StreamTag.wantedBy mode k)) hleft).trans
        ((takeChunks_content_of_nil hout).trans (takeChunks_eq_nil hout hn))
  · simp at herror

theorem LineSound.channelRead_waits {e : Int} (h : LineSound c mode l) (hr : Ready c l)
    (heven : ReadsEvenly l.session c n) (hn : n ≠ 0)
    (herror : (l.session.channelRead c k n).1 = .error e) :
    e = eagain ∧ (l.session.channelRead c k n).2.Waits c (StreamTag.wantedBy mode k) := by
  have hwide := h.widen hr heven
  have hresult : (l.session.widen c n).1 = 0 ∨
      (l.session.widen c n).1 = eagain ∧ ((l.session.widen c n).2.chan c).readState = .jump1 := by
    have hput := h.put_quiet .jump1 (l.session.chan c).adjustQueue
    unfold Session.widen
    dsimp only
    split
    · split
      · next hne =>
        obtain hzero | ⟨hwait, hstate⟩ := receiveWindowAdjust_result (c := c)
          ((l.session.chan c).readAdjustment n) false hput.sound.own.here (hput.ready hr).works
        · exact absurd hzero hne
        · refine .inr ⟨hwait, hstate.trans ?_⟩
          simp only [Line.moved]
          rw [Session.chan_put_self h.own.here (by exact h.id_chan)]
      · exact .inl rfl
    · exact .inl rfl
  unfold Session.channelRead at herror ⊢
  dsimp only at herror ⊢
  split at herror
  · next hne =>
    rw [if_pos hne]
    obtain hzero | ⟨hwait, hstate⟩ := hresult
    · exact absurd hzero hne
    · exact ⟨(Except.error.inj herror).symm.trans hwait, .inr hstate⟩
  · next hzero =>
    rw [if_neg hzero]
    exact hwide.sound.readOn_waits (hwide.ready hr) hn herror

theorem LineSound.channelReadEx_waits {e : Int} (h : LineSound c mode l) (hr : Ready c l)
    (heven : LineCall.Repeats l.session c (.readEx k n)) (hn : n ≠ 0)
    (herror : (l.session.channelReadEx c k n).1 = .error e) :
    e = eagain ∧ (l.session.channelReadEx c k n).2.Waits c (StreamTag.wantedBy mode k) := by
  simp only [LineCall.Repeats] at heven
  unfold Session.channelReadEx at herror ⊢
  split at herror
  · next hnarrow =>
    rw [if_pos hnarrow] at heven ⊢
    have hadjust := h.receiveWindowAdjust hr.works true heven.1
    exact hadjust.sound.channelRead_waits (hadjust.ready hr) heven.2 hn herror
  · next hwide =>
    rw [if_neg hwide] at heven ⊢
    exact h.channelRead_waits hr heven hn herror

end

/-! ## Writing -/

section

variable {k : Int} {buf : List UInt8}

theorem LineSound.sendWrite (h : LineSound c mode l) (hworks : .broken ∉ l.session.socket)
    (hstate : (l.session.chan c).writeState ≠ .idle)
    (hlen : (l.session.chan c).writeBufwrite ≤ buf.length)
    (hpacket : (l.session.chan c).writePacket
      = writeHead (l.session.chan c) k (l.session.chan c).writeBufwrite)
    (hsame : ∀ n payload, l.session.outbox.pending = some ((.writePacket c, n), payload) →
      payload = (l.session.chan c).writePacket ++ buf.take (l.session.chan c).writeBufwrite) :
    Goes c mode { l with wrote := l.wrote ++
        ((l.session.sendWrite c buf).1.toOption.map (streamTag k, buf.take ·)).toList }
      (l.session.sendWrite c buf).2 := by
  have hsound := h.own.chan
  obtain ⟨hcredit, hsmall⟩ := hsound.writing hstate
  have hbody : (buf.take (l.session.chan c).writeBufwrite).length
      = (l.session.chan c).writeBufwrite := List.length_take_of_le hlen
  have hdecode := decodeMessage_write (l.session.chan c) k
    (buf.take (l.session.chan c).writeBufwrite) (by rw [hsound.number]; exact h.number_lt)
    (by omega)
  rw [hbody, ← hpacket, hsound.number] at hdecode
  obtain ⟨-, m, hm, heq⟩ | ⟨b, heq, hgone, hpending⟩ :=
    Session.transportSend_cases (.writePacket c) (l.session.chan c).writePacket
      (buf.take (l.session.chan c).writeBufwrite) hworks
  · have hm' : m = (l.session.chan c).writePacket ++ buf.take (l.session.chan c).writeBufwrite := by
      obtain ⟨-, rfl⟩ | hm := hm
      · rfl
      · exact hsame _ m hm
    rw [← hm'] at hdecode
    have hwrap : wrap32 ((l.session.chan c).localEnd.windowSize - (l.session.chan c).writeBufwrite)
        = (l.session.chan c).localEnd.windowSize - (l.session.chan c).writeBufwrite := by
      have hsends := h.linked.sends
      have hroom := h.room
      unfold Link.Balanced at hsends
      simp only [Line.sending] at hsends
      rw [wrap32_eq (by omega) (by omega)]
      omega
    generalize hrecord : ({ l.session.chan c with
      localEnd.windowSize :=
        (l.session.chan c).localEnd.windowSize - (l.session.chan c).writeBufwrite
      writeState := .idle } : ChannelState) = ch
    have hresult : l.session.sendWrite c buf = (.ok (l.session.chan c).writeBufwrite,
        (l.sentOne m ch [(streamTag k, buf.take (l.session.chan c).writeBufwrite)]).session) := by
      unfold Session.sendWrite
      dsimp only
      rw [heq, hwrap, hrecord]
      simp [Line.sentOne, eagain]
    have hid : ch.localEnd.id = c := hrecord ▸ h.id_chan
    rw [hresult]
    refine LineSound.still (h.sentOne m
      [(streamTag k, buf.take (l.session.chan c).writeBufwrite)] hid ?_
      (by rw [← hrecord]) (n := (l.session.chan c).remoteEnd.windowSize) (by rw [← hrecord])
      (.inl ?_) (.inr ?_)) rfl ?_
    · subst hrecord
      exact ⟨hsound.number, hsound.mode_eq, hsound.adjusting, fun hs => absurd rfl hs, hsound.small⟩
    · rw [receiving_sentOne h.own.here hid, sentGrant, hdecode, ← hrecord]
      simp [Line.receiving]
    · rw [sending_sentOne h.own.here hid, sentData, hdecode, ← hrecord]
      have hstep : Link.Step StreamTag.among (l.sending c) _ :=
        .send _ (streamTag k, buf.take (l.session.chan c).writeBufwrite) (by
          rw [hbody]
          exact hcredit)
      dsimp only at hstep
      rw [hbody] at hstep
      exact hstep
    · exact (Steady.send _ _).trans (.put _ ch)
  · have hresult : l.session.sendWrite c buf
        = (.error eagain, { l.session with outbox := b, socket := l.session.socket.tail }) := by
      unfold Session.sendWrite
      dsimp only
      rw [heq]
      rfl
    rw [hresult]
    simp only [Except.toOption, Option.map_none, Option.toList_none, List.append_nil]
    exact LineSound.still (h.waits hgone hpending (fun he => by simp at he) (fun _ => hstate)
      fun _ hw => absurd rfl hw) rfl (.send _ b)

/-- A write starts with a packet of `n` bytes. -/
theorem LineSound.startWrite (h : LineSound c mode l) (hworks : .broken ∉ l.session.socket)
    (hnone : ∀ n payload, l.session.outbox.pending ≠ some ((.writePacket c, n), payload)) {n : Nat}
    (hlen : n ≤ buf.length) (hsmall : n ≤ 32700)
    (hcredit : n ≤ (l.session.chan c).localEnd.windowSize) :
    Goes c mode { l with wrote := l.wrote ++
        (((l.session.put { l.session.chan c with
          writeState := .created
          writePacket := writeHead (l.session.chan c) k n
          writeBufwrite := n }).sendWrite c buf).1.toOption.map (streamTag k, buf.take ·)).toList }
      ((l.session.put { l.session.chan c with
        writeState := .created
        writePacket := writeHead (l.session.chan c) k n
        writeBufwrite := n }).sendWrite c buf).2 := by
  have hsound := h.own.chan
  generalize hrecord : ({ l.session.chan c with
    writeState := .created
    writePacket := writeHead (l.session.chan c) k n
    writeBufwrite := n } : ChannelState) = ch
  have hid : ch.localEnd.id = c := hrecord ▸ h.id_chan
  have hchan : (l.session.put ch).chan c = ch := Session.chan_put_self h.own.here hid
  have hput : LineSound c mode { l with session := l.session.put ch } := by
    refine h.put ch hid ?_ ?_ (fun n p hp => absurd hp (hnone n p)) (by rw [← hrecord])
      (by rw [← hrecord]) (by rw [← hrecord])
    · subst hrecord
      exact ⟨hsound.number, hsound.mode_eq, hsound.adjusting, fun _ => ⟨hcredit, hsmall⟩,
        hsound.small⟩
    · subst hrecord
      exact h.own.pendingAdjust
  have hmoved := LineSound.still hput rfl (.put _ _)
  -- The put has changed nothing but the record, so that the packet that is sent is the new one.
  refine Steady.goes (l := { l with wrote := l.wrote ++ _ }) (.put _ ch)
    (hmoved.sound.sendWrite hworks ?_ ?_ ?_ fun n payload hp => absurd hp (hnone n payload))
  · simp only [Line.moved]
    rw [hchan, ← hrecord]
    simp
  · simp only [Line.moved]
    rw [hchan, ← hrecord]
    exact hlen
  · simp only [Line.moved]
    rw [hchan, ← hrecord]
    rfl

/-- **What the program writes** is sent as data of its stream, within the window. -/
theorem LineSound.channelWrite (h : LineSound c mode l) (hr : Ready c l)
    (hsame : LineCall.Repeats l.session c (.write k buf)) :
    Goes c mode { l with wrote := l.wrote ++
        ((l.session.channelWrite c k buf).1.toOption.map (streamTag k, buf.take ·)).toList }
      (l.session.channelWrite c k buf).2 := by
  simp only [LineCall.Repeats] at hsame
  unfold Session.channelWrite
  split
  · next hidle =>
    split
    · simp only [Except.toOption, Option.map_none, Option.toList_none, List.append_nil]
      exact h.goes
    · split
      · simp only [Except.toOption, Option.map_none, Option.toList_none, List.append_nil]
        exact h.goes
      · obtain ⟨hgoes, hrc, hstate⟩ := h.drain hr
        simp only [hrc]
        rw [if_neg (by simp)]
        split
        · simp only [if_true, Except.toOption, Option.map_none, Option.toList_none, List.append_nil]
          exact hgoes
        · exact Steady.goes (l := { l with wrote := l.wrote ++ _ }) hgoes.steady
            (hgoes.sound.startWrite (hgoes.ready hr).works
              (fun n payload hp => hgoes.sound.own.pendingWrite n payload hp (hstate.trans hidle))
              (by omega) (by omega) (by
                simp only [Line.moved]
                omega))
  · next hstate =>
    obtain ⟨hlen, hpacket, hpending⟩ := hsame hstate
    exact h.sendWrite hr.works hstate hlen hpacket hpending

end

/-! ## Calls to another channel -/

section

variable {id n : Nat} {k : Int} {buf : List UInt8}

theorem Goes.calm {s'' : Session} (h : Goes c mode l s') (hc : Calm c l.peer.id s' s'') :
    Goes c mode l s'' :=
  h.trans (h.sound.calm hc)

theorem Goes.located (h : Goes c mode l s') (hopen : (l.session.locate id).isSome) :
    (s'.locate id).isSome := by
  rw [h.steady.located]
  exact hopen

theorem Apart.calm_record (h : Apart c r s) (ch : ChannelState) (hid : id ≠ c)
    (hnum : ch.localEnd.id = id)
    (hch : ch.Elsewhere r) : Calm c r s (s.put ch) :=
  h.calm_put ch (by rwa [hnum]) hch

theorem LineSound.readOn_other (h : LineSound c mode l) (hr : Ready c l) (hid : id ≠ c)
    (hopen : (l.session.locate id).isSome) (k : Int) (n : Nat) :
    Goes c mode l (l.session.readOn id k n).2 := by
  obtain ⟨hgoes, hrc, -⟩ := h.drain hr
  have hopen' := hgoes.located hopen
  have hnum := Session.id_chan hopen'
  have helse := hgoes.sound.apart.elsewhere hid hopen'
  have hleft := hgoes.calm (hgoes.sound.apart.calm_packets
    (@filter_copyOut (l.session.drain.2.chan id) c n k l.session.drain.2.packets (by rwa [hnum])))
  unfold Session.readOn
  simp only [hrc]
  rw [if_neg (by simp)]
  split
  · split
    · exact hleft
    · exact hleft
  · exact hleft.calm (hleft.sound.apart.calm_record _ hid (by exact hnum)
      ⟨helse.number, helse.adjusts, helse.writes⟩)

theorem LineSound.widen_other (h : LineSound c mode l) (hr : Ready c l) (hid : id ≠ c)
    (hopen : (l.session.locate id).isSome) : Goes c mode l (l.session.widen id n).2 := by
  have hnum := Session.id_chan hopen
  have helse := h.apart.elsewhere hid hopen
  unfold Session.widen
  dsimp only
  split
  · have hput := h.calm (h.apart.calm_record { l.session.chan id with readState := .jump1 }
      hid (by exact hnum) ⟨helse.number, helse.adjusts, helse.writes⟩)
    have hadjust := hput.calm (hput.sound.apart.calm_receiveWindowAdjust (hput.ready hr).works hid
      (hput.located hopen) ((l.session.chan id).readAdjustment n) false)
    split
    · exact hadjust
    · have hopen' := hadjust.located hopen
      have helse' := hadjust.sound.apart.elsewhere hid hopen'
      exact hadjust.calm (hadjust.sound.apart.calm_record _ hid (by exact Session.id_chan hopen')
        ⟨helse'.number, helse'.adjusts, helse'.writes⟩)
  · exact h.goes

theorem LineSound.channelRead_other (h : LineSound c mode l) (hr : Ready c l) (hid : id ≠ c)
    (hopen : (l.session.locate id).isSome) :
    Goes c mode l (l.session.channelRead id k n).2 := by
  have hwide := h.widen_other (n := n) hr hid hopen
  unfold Session.channelRead
  dsimp only
  split
  · exact hwide
  · exact hwide.trans (hwide.sound.readOn_other (hwide.ready hr) hid (hwide.located hopen) k n)

theorem LineSound.channelReadEx_other (h : LineSound c mode l) (hr : Ready c l) (hid : id ≠ c)
    (hopen : (l.session.locate id).isSome) :
    Goes c mode l (l.session.channelReadEx id k n).2 := by
  unfold Session.channelReadEx
  split
  · have hadjust := h.calm (h.apart.calm_receiveWindowAdjust hr.works hid hopen (wrap32 n) true)
    exact hadjust.trans (hadjust.sound.channelRead_other (hadjust.ready hr) hid
      (hadjust.located hopen))
  · exact h.channelRead_other hr hid hopen

theorem Apart.calm_sendWrite (h : Apart c r s) (hworks : .broken ∉ s.socket) (hid : id ≠ c)
    (hopen : (s.locate id).isSome) (hstate : (s.chan id).writeState ≠ .idle) :
    Calm c r s (s.sendWrite id buf).2 := by
  obtain ⟨hlen, hrecipient⟩ := h.writes id hid hopen hstate
  have hsend := h.calm_send (.writePacket id) (s.chan id).writePacket
    (buf.take (s.chan id).writeBufwrite) hworks (by simp) (by simpa using hid)
    (decodeMessage_other (by rwa [recipient_append hlen]))
  have helse := h.elsewhere hid hopen
  have hnum := Session.id_chan hopen
  unfold Session.sendWrite
  dsimp only
  split
  · exact hsend
  · split
    · exact hsend.trans (hsend.apart.calm_record _ hid (by exact hnum)
        ⟨helse.number, helse.adjusts, fun hn => absurd rfl hn⟩)
    · exact hsend.trans (hsend.apart.calm_record _ hid (by exact hnum)
        ⟨helse.number, helse.adjusts, fun hn => absurd rfl hn⟩)

theorem recipient_writeHead (ch : ChannelState) (k : Int) (n : Nat) :
    5 ≤ (writeHead ch k n).length ∧ recipient (writeHead ch k n) = ch.remoteEnd.id % 2 ^ 32 := by
  unfold writeHead
  split
  · simp
  · simp

theorem LineSound.channelWrite_other (h : LineSound c mode l) (hr : Ready c l) (hid : id ≠ c)
    (hopen : (l.session.locate id).isSome) :
    Goes c mode l (l.session.channelWrite id k buf).2 := by
  unfold Session.channelWrite
  split
  · split
    · exact h.goes
    · split
      · exact h.goes
      · obtain ⟨hgoes, hrc, -⟩ := h.drain hr
        have hopen' := hgoes.located hopen
        have hnum := Session.id_chan hopen'
        have helse := hgoes.sound.apart.elsewhere hid hopen'
        simp only [hrc]
        rw [if_neg (by simp)]
        split
        · exact hgoes
        · generalize min
            (min (min buf.length 32700) (l.session.drain.2.chan id).localEnd.windowSize)
            (l.session.drain.2.chan id).localEnd.packetSize = bufwrite
          have hhead := recipient_writeHead (l.session.drain.2.chan id) k bufwrite
          have hstart := hgoes.calm (hgoes.sound.apart.calm_record {
            l.session.drain.2.chan id with
            writeState := .created
            writePacket := writeHead (l.session.drain.2.chan id) k bufwrite
            writeBufwrite := bufwrite } hid (by exact hnum)
            ⟨helse.number, helse.adjusts, fun _ => ⟨hhead.1, by
              dsimp only
              rw [hhead.2]
              exact helse.number⟩⟩)
          refine hstart.calm (hstart.sound.apart.calm_sendWrite (hstart.ready hr).works hid
            (hstart.located hopen) ?_)
          simp only [Line.moved]
          rw [Session.chan_put_self hopen' (by exact hnum)]
          simp
  · next hstate => exact h.calm (h.apart.calm_sendWrite hr.works hid hopen hstate)

end

/-! ## Every call -/

/-- **A call keeps the invariant**, with what it has read or written. -/
theorem LineSound.call {id : Nat} {call : LineCall} (h : LineSound c mode l) (hr : Ready c l)
    (hopen : (l.session.locate id).isSome) (hrepeats : id = c → call.Repeats l.session c) :
    LineSound c mode { l.moved (call.run l.session id) with
      reads := l.reads ++ if id = c then call.got l.session id else []
      wrote := l.wrote ++ if id = c then call.gave l.session id else [] } := by
  by_cases hid : id = c
  · subst hid
    have heven := hrepeats rfl
    simp only [if_true]
    cases call with
    | read k n =>
      have := (h.channelRead (k := k) hr heven).sound
      simp only [LineCall.run, LineCall.got, LineCall.gave, List.append_nil]
      exact this
    | readEx k n =>
      have := (h.channelReadEx hr heven).sound
      simp only [LineCall.run, LineCall.got, LineCall.gave, List.append_nil]
      exact this
    | write k buf =>
      have := (h.channelWrite hr heven).sound
      simp only [LineCall.run, LineCall.got, LineCall.gave, List.append_nil]
      exact this
    | adjust n force =>
      have := (h.receiveWindowAdjust hr.works force heven).sound
      simp only [LineCall.run, LineCall.got, LineCall.gave, List.append_nil]
      exact this
  · simp only [if_neg hid, List.append_nil]
    cases call with
    | read k n => exact (h.channelRead_other hr hid hopen).sound
    | readEx k n => exact (h.channelReadEx_other hr hid hopen).sound
    | write k buf => exact (h.channelWrite_other hr hid hopen).sound
    | adjust n force =>
      exact (h.calm (h.apart.calm_receiveWindowAdjust hr.works hid hopen n force)).sound

end Ssh2Python
