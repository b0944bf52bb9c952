import Ssh2Python.Verify.ChannelCalls

/-!
# Runs of a channel

From a channel that was just opened, every run keeps the invariant (`LineRun.sound`). So the window
of the channel always has room for what the other end may still send (`run_window`), what the
program reads is what was sent, in its order and with nothing lost at the end (`run_reads`,
`run_eof`, `run_read_end`, `run_read_waits`), and the other end gets what the program has written
(`run_writes`).
-/

namespace Ssh2Python

open Lib.CInt Lib.Credit Lib.Outgoing Lib.Wire

variable {c : Nat} {mode : IgnoreMode} {l l' : Line} {s : Session}

/-! ## Channels that were just opened -/

/-- The channel is open at both ends, and nothing was sent yet. -/
structure Opened (c : Nat) (mode : IgnoreMode) (l : Line) : Prop where
  id_lt : c < 2 ^ 32
  number_lt : l.peer.id < 2 ^ 32
  here : (l.session.locate c).isSome
  number : (l.session.chan c).remoteEnd.id = l.peer.id
  mode_eq : (l.session.chan c).ignoreMode = mode
  others : ∀ ch ∈ l.session.channels, ch.localEnd.id ≠ c → ch.remoteEnd.id % 2 ^ 32 ≠ l.peer.id
  idle : ∀ ch ∈ l.session.channels, ch.adjustState = .idle ∧ ch.writeState = .idle
  silent : l.session.outbox = {} ∧ l.session.packAdd = none ∧ l.inbox = []
  unread : l.session.packets.filter (Session.queued c) = [] ∧ (l.session.chan c).readAvail = 0
  unsent : l.peer.sent = [] ∧ l.peer.received = [] ∧ l.reads = [] ∧ l.wrote = []
  open_eq : (l.session.chan c).remoteEnd.eof = false ∧ (l.session.chan c).remoteEnd.close = false
  credit : l.peer.credit = (l.session.chan c).remoteEnd.windowSize
  window : l.peer.window = (l.session.chan c).localEnd.windowSize
  room : l.peer.credit < 2 ^ 32 ∧ l.peer.window < 2 ^ 32

theorem mem_chan {id : Nat} (h : (s.locate id).isSome) : s.chan id ∈ s.channels := by
  obtain ⟨ch, hch⟩ := Option.isSome_iff_exists.mp h
  rw [Session.chan_of_locate hch]
  exact List.mem_of_find?_eq_some hch

theorem Opened.sound (h : Opened c mode l) : LineSound c mode l := by
  obtain ⟨hout, hwait, hinbox⟩ := h.silent
  obtain ⟨hpackets, havail⟩ := h.unread
  obtain ⟨hsent, hreceived, hreads, hwrote⟩ := h.unsent
  obtain ⟨heof, hclose⟩ := h.open_eq
  have hidle {id : Nat} (hopen : (l.session.locate id).isSome) := h.idle _ (mem_chan hopen)
  have hchunks : chunksOf c l.session.packets = [] := by rw [chunksOf, hpackets, List.map_nil]
  have hcredit := h.credit
  have hroom := h.room
  refine ⟨h.id_lt, h.number_lt, hroom.2, ?_, ?_, ?_, ?_⟩
  · exact
      { numbers := fun id hid hopen => h.others _ (mem_chan hopen) (by rwa [Session.id_chan hopen])
        adjusts := fun id _ hopen hs => absurd (hidle hopen).1 hs
        writes := fun id _ hopen hs => absurd (hidle hopen).2 hs
        pending := fun _ _ _ hp => by simp [hout] at hp
        waiting := fun _ _ hw => by simp [hwait] at hw }
  · exact
      { here := h.here
        chan := ⟨h.number, h.mode_eq, fun hs => absurd (hidle h.here).1 hs,
          fun hs => absurd (hidle h.here).2 hs, hcredit ▸ hroom.1⟩
        pendingAdjust := fun _ _ hp => by simp [hout] at hp
        pendingWrite := fun _ _ hp => by simp [hout] at hp
        whole := fun p hp => by simp [hpackets] at hp
        avail := by rw [havail, hchunks, size_nil] }
  · rw [hinbox]
    exact
      { proper := fun _ hm => absurd hm List.not_mem_nil
        order := .nil
        closed := fun _ => rfl
        ended := fun he => by simp [heof, hclose] at he }
  · refine ⟨?_, fun k _ => ?_, ?_, fun which _ => ?_⟩
    · simp [Link.Balanced, Line.receiving, hout, hinbox, hchunks, hcredit]
    · simp [Line.receiving, hinbox, hchunks, hreads, hsent, Link.takenBy]
    · simp [Link.Balanced, Line.sending, hout, hinbox, hreceived, h.window]
    · simp [Line.sending, hout, hreceived, hwrote, Link.takenBy]

/-! ## Steps of the other end -/

theorem LineSound.send {tag : StreamTag} {bytes : List UInt8} (h : LineSound c mode l)
    (goes : l.peer.ended = false) (credit : bytes.length ≤ l.peer.credit)
    (size : bytes.length ≤ (l.session.chan c).remoteEnd.packetSize)
    (code : ∀ n, tag = .extended n → n < 2 ^ 32 ∧ (l.session.chan c).ignoreMode ≠ .ignore) :
    LineSound c mode { l with
      inbox := l.inbox ++ [.own (.data tag bytes)]
      peer := { l.peer with
        credit := l.peer.credit - bytes.length, sent := l.peer.sent ++ [(tag, bytes)] } } := by
  have hopen : ¬((∃ m ∈ l.inbox, m.ends) ∨ (l.session.chan c).remoteEnd.eof = true ∨
      (l.session.chan c).remoteEnd.close = true) := fun he => by
    have := h.orderly.ended he
    rw [goes] at this
    exact Bool.false_ne_true this
  obtain ⟨hnoend, hends⟩ := not_or.mp hopen
  refine ⟨h.id_lt, h.number_lt, h.room, h.apart, h.own,
    ⟨fun m hm => ?_, ?_, fun he => absurd he hends,
    fun he => ?_⟩, h.linked.step (.inr ?_) (.inl ?_)⟩
  · obtain hm | hm := List.mem_append.mp hm
    · exact h.orderly.proper m hm
    · obtain rfl := List.mem_singleton.mp hm
      rw [h.own.chan.mode_eq] at code
      exact ⟨size, code⟩
  · apply List.pairwise_append.mpr
    refine ⟨h.orderly.order, List.pairwise_singleton _ _, fun m hm _ _ he => ?_⟩
    exact absurd ⟨m, hm, he⟩ hnoend
  · obtain ⟨m, hm, he⟩ | he := he
    · obtain hm | hm := List.mem_append.mp hm
      · exact absurd ⟨m, hm, he⟩ hnoend
      · obtain rfl := List.mem_singleton.mp hm
        simp [Incoming.ends] at he
    · exact absurd he hends
  · have hstep : Link.Step (StreamTag.wantedBy mode) (l.receiving c) _ :=
      .send _ (tag, bytes) credit
    simp only [Line.receiving, List.filterMap_append] at hstep ⊢
    exact hstep
  · simp [Line.sending, Incoming.grantPart]

/-- Something that holds no data comes to what is under way. -/
theorem Orderly.append {m : Incoming} {inbox : List Incoming} {e : ChannelEnd} {ended ended' : Bool}
    (h : Orderly c mode inbox e ended) (hproper : m.Proper c mode e.packetSize)
    (hm : m.dataPart = none) (hended : ended = true → ended' = true)
    (hends : m.ends → ended' = true) : Orderly c mode (inbox ++ [m]) e ended' where
  proper m' hm' := by
    obtain hm' | hm' := List.mem_append.mp hm'
    · exact h.proper m' hm'
    · obtain rfl := List.mem_singleton.mp hm'
      exact hproper
  order := List.pairwise_append.mpr ⟨h.order, List.pairwise_singleton _ _, fun _ _ m' hm' _ => by
    obtain rfl := List.mem_singleton.mp hm'
    exact hm⟩
  closed he := by
    rw [List.filterMap_append, h.closed he, List.nil_append, List.filterMap_cons_none hm,
      List.filterMap_nil]
  ended := by
    rintro (⟨m', hm', he⟩ | he)
    · obtain hm' | hm' := List.mem_append.mp hm'
      · exact hended (h.ended (.inl ⟨m', hm', he⟩))
      · obtain rfl := List.mem_singleton.mp hm'
        exact hends he
    · exact hended (h.ended (.inr he))

theorem LineSound.stop {m : ChannelMessage} (h : LineSound c mode l)
    (ends : m = .eof ∨ m = .close) :
    LineSound c mode { l with
      inbox := l.inbox ++ [.own m], peer := { l.peer with ended := true } } := by
  have hm : (Incoming.own m).Proper c mode (l.session.chan c).remoteEnd.packetSize ∧
      (Incoming.own m).dataPart = none ∧ (Incoming.own m).grantPart = none := by
    obtain rfl | rfl := ends
    · exact ⟨trivial, rfl, rfl⟩
    · exact ⟨trivial, rfl, rfl⟩
  refine ⟨h.id_lt, h.number_lt, h.room, h.apart, h.own,
    h.orderly.append hm.1 hm.2.1 (fun _ => rfl) fun _ => rfl, h.linked.step (.inl ?_) (.inl ?_)⟩
  · simp [Line.receiving, hm.2.1]
  · simp [Line.sending, hm.2.2]

theorem LineSound.grant {n : Nat} (h : LineSound c mode l) (room : l.peer.window + n < 2 ^ 32) :
    LineSound c mode { l with
      inbox := l.inbox ++ [.own (.windowAdjust n)]
      peer := { l.peer with window := l.peer.window + n } } := by
  refine ⟨h.id_lt, h.number_lt, room, h.apart, h.own,
    h.orderly.append trivial rfl id fun he => by simp [Incoming.ends] at he,
    h.linked.step (.inl ?_) (.inr ?_)⟩
  · simp [Line.receiving, Incoming.dataPart]
  · have hstep : Link.Step StreamTag.among (l.sending c) _ := .grant _ n
    have hwindow : l.peer.window + size l.peer.received + n
        = l.peer.window + n + size l.peer.received := Nat.add_right_comm _ _ _
    simp only [Line.sending, List.filterMap_append, hwindow] at hstep ⊢
    exact hstep

theorem LineSound.arrive {payload : List UInt8} (h : LineSound c mode l)
    (foreign : Foreign c payload) :
    LineSound c mode { l with inbox := l.inbox ++ [.foreign payload] } := by
  refine ⟨h.id_lt, h.number_lt, h.room, h.apart, h.own,
    h.orderly.append foreign rfl id fun he => by simp [Incoming.ends] at he,
    h.linked.step (.inl ?_) (.inl ?_)⟩
  · simp [Line.receiving, Incoming.dataPart]
  · simp [Line.sending, Incoming.grantPart]

/-- A packet grants something, holds data, or is about something else. -/
theorem PeerEnd.take_cases (peer : PeerEnd) (p : List UInt8) :
    (∃ n, peer.take p = { peer with credit := peer.credit + n } ∧ sentGrant peer.id p = some n ∧
      sentData peer.id p = none) ∨
    (∃ tag bytes, peer.take p = { peer with
        window := peer.window - bytes.length, received := peer.received ++ [(tag, bytes)] } ∧
      sentGrant peer.id p = none ∧ sentData peer.id p = some (tag, bytes)) ∨
    peer.take p = peer ∧ sentGrant peer.id p = none ∧ sentData peer.id p = none := by
  unfold PeerEnd.take sentGrant sentData
  cases decodeMessage peer.id p with
  | none => exact .inr (.inr ⟨rfl, rfl, rfl⟩)
  | some m =>
    cases m with
    | windowAdjust n => exact .inl ⟨n, rfl, rfl, rfl⟩
    | data tag bytes => exact .inr (.inl ⟨tag, bytes, rfl, rfl, rfl⟩)
    | eof => exact .inr (.inr ⟨rfl, rfl, rfl⟩)
    | close => exact .inr (.inr ⟨rfl, rfl, rfl⟩)

/-- **The other end takes a packet** that the client has sent. -/
theorem LineSound.take {p : List UInt8} {rest : List (List UInt8)} (h : LineSound c mode l)
    (first : l.session.outbox.gone = p :: rest) :
    LineSound c mode { l with
      session := { l.session with outbox := { l.session.outbox with gone := rest } }
      peer := l.peer.take p } := by
  have hid : (l.peer.take p).id = l.peer.id := by
    unfold PeerEnd.take
    split <;> rfl
  have hended : (l.peer.take p).ended = l.peer.ended := by
    unfold PeerEnd.take
    split <;> rfl
  have hapart : Apart c (l.peer.take p).id { l.session with
      outbox := { l.session.outbox with gone := rest } } := by
    rw [hid]
    exact h.apart.outbox h.apart.pending
  have hown : Own c (l.peer.take p).id mode { l.session with
      outbox := { l.session.outbox with gone := rest } } := by
    rw [hid]
    exact ⟨h.own.here, h.own.chan, h.own.pendingAdjust, h.own.pendingWrite, h.own.whole,
      h.own.avail⟩
  have horderly := h.orderly
  rw [← hended] at horderly
  have hroom : (l.peer.take p).window ≤ l.peer.window := by
    unfold PeerEnd.take
    split
    · rfl
    · exact Nat.sub_le _ _
    · rfl
  refine ⟨h.id_lt, hid ▸ h.number_lt, hroom.trans_lt h.room, hapart, hown, horderly, ?_⟩
  have hgrants : (l.receiving c).grants
      = (sentGrant l.peer.id p).toList ++ rest.filterMap (sentGrant l.peer.id) := by
    simp only [Line.receiving, first]
    cases hp : sentGrant l.peer.id p <;> simp [hp]
  have hflight : (l.sending c).flight
      = (sentData l.peer.id p).toList ++ rest.filterMap (sentData l.peer.id) := by
    simp only [Line.sending, first]
    cases hp : sentData l.peer.id p <;> simp [hp]
  obtain ⟨n, htake, hgrant, hdata⟩ | ⟨tag, bytes, htake, hgrant, hdata⟩ | ⟨htake, hgrant, hdata⟩ :=
    l.peer.take_cases p
  · rw [hgrant] at hgrants
    rw [hdata] at hflight
    rw [htake]
    refine h.linked.step (.inr (.collect (l.receiving c) n _ hgrants)) (.inl ?_)
    exact congrArg (fun x => { l.sending c with flight := x }) hflight.symm
  · rw [hgrant] at hgrants
    rw [hdata] at hflight
    have hfits := h.linked.sends.fits hflight
    simp only [Line.sending] at hfits
    have hwindow : l.peer.window - bytes.length + size (l.peer.received ++ [(tag, bytes)])
        = l.peer.window + size l.peer.received := by
      rw [size_append, size_cons, size_nil]
      dsimp only
      omega
    rw [htake]
    refine h.linked.step (.inl ?_) (.inr ?_)
    · exact congrArg (fun x => { l.receiving c with grants := x }) hgrants.symm
    · have hstep : Link.Step StreamTag.among (l.sending c) _ := .deliver _ (tag, bytes) _ hflight
      simp only [Line.sending] at hstep ⊢
      rw [hwindow]
      exact hstep
  · rw [hgrant] at hgrants
    rw [hdata] at hflight
    rw [htake]
    refine h.linked.step (.inl ?_) (.inl ?_)
    · exact congrArg (fun x => { l.receiving c with grants := x }) hgrants.symm
    · exact congrArg (fun x => { l.sending c with flight := x }) hflight.symm

/-! ## Every run -/

theorem LineSound.during (h : LineSound c mode l) (socket : List Push) (n : Nat) :
    LineSound c mode { l with session := l.during c socket n } :=
  h.outside socket _ _

theorem ready_during {socket : List Push} (works : .broken ∉ socket) (n : Nat) :
    Ready c { l with session := l.during c socket n } where
  inbound := by
    simp only [Line.during]
    rw [List.map_take]
    exact List.take_prefix _ _
  pause := rfl
  works := works

/-- **One step keeps the invariant.** -/
theorem LineStep.sound (hs : LineStep c l l') (h : LineSound c mode l) : LineSound c mode l' := by
  cases hs with
  | send tag bytes goes credit size code => exact h.send goes credit size code
  | stop m ends => exact h.stop ends
  | grant n room => exact h.grant room
  | arrive payload foreign => exact h.arrive foreign
  | take p rest first => exact h.take first
  | call id call socket n opened works repeats =>
    exact (h.during socket n).call (ready_during works n) opened repeats
  | other address payload socket works foreign =>
    have hsocket := h.outside socket l.session.inbound l.session.pause
    have hsend := hsocket.apart.calm_send (.elsewhere address) payload [] works (by simp) (by simp)
      (by simpa using foreign)
    exact hsocket.untouched hsend.apart hsend.untouched

theorem LineRun.sound (hrun : LineRun c l l') (h : LineSound c mode l) : LineSound c mode l' := by
  induction hrun with
  | refl => exact h
  | tail _ hstep ih => exact hstep.sound ih

/-! ## A short talk -/

/-- A channel where the other end may send 20 bytes, and the program 100. -/
def quietLine : Line where
  session := { channels := [{
    localEnd := { id := 0, windowSize := 100, packetSize := 50 }
    remoteEnd := { id := 7, windowSizeInitial := 8, windowSize := 20, packetSize := 50 } }] }
  peer := { id := 7, credit := 20, window := 100 }

/-- The other end has sent a word, and ended the channel. -/
def answeredLine : Line :=
  { quietLine with
    inbox := [.own (.data .standard [104, 105]), .own .eof]
    peer := {
      id := 7, credit := 18, window := 100, sent := [(.standard, [104, 105])], ended := true } }

/-- The program has read it. -/
def heardLine : Line :=
  { answeredLine with
    session := { channels := [{
      localEnd := { id := 0, windowSize := 100, packetSize := 50 }
      remoteEnd := {
        id := 7, windowSizeInitial := 8, windowSize := 18, packetSize := 50, eof := true } }] }
    inbox := []
    reads := [(0, [104, 105])] }

/-- The program has written something itself, which is under way. -/
def talkLine : Line :=
  { heardLine with
    session := {
      channels := [{
        localEnd := { id := 0, windowSize := 97, packetSize := 50 }
        remoteEnd := {
          id := 7, windowSizeInitial := 8, windowSize := 18, packetSize := 50, eof := true }
        writePacket := [94, 0, 0, 0, 7, 0, 0, 0, 3]
        writeBufwrite := 3 }]
      outbox := { gone := [[94, 0, 0, 0, 7, 0, 0, 0, 3, 1, 2, 3]] } }
    wrote := [(.standard, [1, 2, 3])] }

theorem quietLine_opened : Opened 0 .normal quietLine where
  id_lt := by decide
  number_lt := by decide
  here := by decide
  number := by decide
  mode_eq := by decide
  others := by decide
  idle := by decide
  silent := by decide
  unread := by decide
  unsent := by decide
  open_eq := by decide
  credit := by decide
  window := by decide
  room := by decide

/-- A read of a window that is wide enough adjusts nothing. -/
theorem repeats_readEx {k : Int} {n : Nat} (hwide : n ≤ (s.chan c).remoteEnd.windowSize)
    (hidle : (s.chan c).readState ≠ .jump1)
    (hfar : (s.chan c).remoteEnd.windowSizeInitial / 4 * 3 + n ≤ (s.chan c).remoteEnd.windowSize) :
    LineCall.Repeats s c (.readEx k n) := by
  simp only [LineCall.Repeats, if_neg (Nat.not_lt.mpr hwide)]
  unfold ReadsEvenly
  rintro (h | h)
  · exact absurd h hidle
  · exact absurd h (Nat.not_lt.mpr hfar)

theorem answeredLine_heard : LineStep 0 answeredLine heardLine := by
  have hread := LineStep.call (c := 0) answeredLine 0 (.readEx 0 4) [] 2 (by decide) (by decide)
    fun _ => repeats_readEx (by decide) (by decide) (by decide)
  have heq : answeredLine.after 0 0 (answeredLine.during 0 [] 2)
      (LineCall.run (answeredLine.during 0 [] 2) 0 (.readEx 0 4)) (.readEx 0 4) = heardLine := by
    decide +kernel
  rwa [heq] at hread

theorem heardLine_talks : LineStep 0 heardLine talkLine := by
  have hwrite := LineStep.call (c := 0) heardLine 0 (.write 0 [1, 2, 3]) [.through] 0 (by decide)
    (by decide) fun _ hs => absurd hs (by decide)
  have heq : heardLine.after 0 0 (heardLine.during 0 [.through] 0)
      (LineCall.run (heardLine.during 0 [.through] 0) 0 (.write 0 [1, 2, 3])) (.write 0 [1, 2, 3])
        = talkLine := by
    decide +kernel
  rwa [heq] at hwrite

theorem quietLine_talks : LineRun 0 quietLine talkLine := by
  have hsend : LineStep 0 quietLine _ :=
    .send quietLine .standard [104, 105] rfl (by decide) (by decide) (by simp)
  have hstop : LineRun 0 quietLine answeredLine := .tail (.single hsend) (.stop _ .eof (.inl rfl))
  exact (hstop.tail answeredLine_heard).tail heardLine_talks

theorem talkLine_alone : Link.Alone (StreamTag.wantedBy .normal) 0 talkLine.reads := by
  intro t ht hne
  obtain rfl := List.mem_singleton.mp ht
  exact absurd rfl hne

/-! ## What the program can rely on -/

section

variable {l₀ : Line} {k : Int} {n : Nat}

theorem bytesQueued_eq : s.bytesQueued c = size (chunksOf c s.packets) := by
  simp only [Session.bytesQueued, size, chunksOf, List.map_map]
  congr 1
  exact List.map_congr_left fun p _ => (List.length_drop).symm

/-- What the program has read, when nothing is left of the stream and the channel has ended. -/
theorem LineSound.finished (h : LineSound c mode l)
    (hfinished : l.session.Finished c (StreamTag.wantedBy mode k))
    (halone : Link.Alone (StreamTag.wantedBy mode) k l.reads) :
    Link.takenBy k l.reads = content (StreamTag.wantedBy mode k) l.peer.sent ∧
      l.peer.ended = true := by
  obtain ⟨hnone, hended⟩ := hfinished
  have hkept := h.linked.keeps k halone
  simp only [Line.receiving] at hkept
  rw [h.orderly.closed hended, List.append_nil, hnone, List.append_nil] at hkept
  exact ⟨hkept, h.orderly.ended (.inr hended)⟩

end

/-! ## An adjustment that has to wait

`libssh2_channel_read_ex` does not look at what its adjustment comes to. When the adjustment has to
wait and gets through at the start of the read, the read takes it for its own. So `LineCall.Repeats`
cannot be left out: the other end is told one amount, and the window grows by another (`run_drift`).
-/

section

variable {k : Int} {n : Nat} {rest : List Push} {ch : ChannelState}

/-- An adjustment that the socket does not take at once. -/
theorem sendAdjust_waits (hfree : s.outbox.pending = none)
    (hsocket : s.socket.headD .stuck = .stuck)
    (adjustment : Nat) :
    (s.sendAdjust c adjustment).2 = { s with
      outbox := { s.outbox with
        pending :=
          some ((.adjustAdjust c, (s.chan c).adjustAdjust.length), (s.chan c).adjustAdjust) }
      socket := s.socket.tail } := by
  unfold Session.sendAdjust Session.transportSend Outbox.offer
  simp only [hfree, hsocket, List.append_nil]
  rfl

/-- One that has waited, and gets through. -/
theorem sendAdjust_resumes {p : List UInt8}
    (hwait : s.outbox.pending
      = some ((.adjustAdjust c, (s.chan c).adjustAdjust.length), p))
    (hsocket : s.socket.headD .stuck = .through) (adjustment : Nat) :
    s.sendAdjust c adjustment = (0, { s with
        outbox := ⟨none, s.outbox.gone ++ [p]⟩, socket := s.socket.tail }.put { s.chan c with
      remoteEnd.windowSize := wrap32 ((s.chan c).remoteEnd.windowSize + adjustment)
      adjustState := .idle }) := by
  unfold Session.sendAdjust Session.transportSend Outbox.offer
  simp only [hwait, hsocket, if_true]
  simp [eagain]

/-- The start of an adjustment by `n` that is forced. -/
theorem receiveWindowAdjust_waits (hopen : (s.locate c).isSome)
    (hidle : (s.chan c).adjustState = .idle) (hfree : s.outbox.pending = none)
    (hsocket : s.socket.headD .stuck = .stuck) (hzero : n ≠ 0)
    (hch : ch = { s.chan c with
      adjustQueue := 0
      adjustAdjust := (ChannelMessage.windowAdjust (wrap32 (n + (s.chan c).adjustQueue))).encode
        (s.chan c).remoteEnd.id
      adjustState := .created }) :
    (s.receiveWindowAdjust c n true).2 = { s.put ch with
      outbox := { s.outbox with
        pending := some ((.adjustAdjust c, ch.adjustAdjust.length), ch.adjustAdjust) }
      socket := s.socket.tail } := by
  have hid : ch.localEnd.id = c := by
    rw [hch]
    exact Session.id_chan hopen
  have hchan : (s.put ch).chan c = ch := Session.chan_put_self hopen hid
  have hsend := sendAdjust_waits (s := s.put ch) (c := c) hfree hsocket
    (wrap32 (n + (s.chan c).adjustQueue))
  rw [hchan] at hsend
  unfold Session.receiveWindowAdjust
  dsimp only
  rw [if_pos hidle, if_neg (by simp), if_neg (by simp [hzero])]
  rw [hch] at hsend ⊢
  exact hsend

/-- A read goes on with the adjustment that was started before it, and takes its own amount for
it. -/
theorem widen_waited (hopen : (s.locate c).isSome) (hidle : (s.chan c).adjustState = .idle)
    (hfree : s.outbox.pending = none) (hsocket : s.socket = .stuck :: .through :: rest)
    (hnarrow : (s.chan c).remoteEnd.windowSize < n) (hn : n + (s.chan c).adjustQueue < 2 ^ 32) :
    ∃ s' : Session, (s.receiveWindowAdjust c (wrap32 n) true).2.widen c n = (0, s') ∧
      s'.outbox.gone = s.outbox.gone ++
        [(ChannelMessage.windowAdjust (n + (s.chan c).adjustQueue)).encode
          (s.chan c).remoteEnd.id] ∧
      (s'.chan c).remoteEnd.windowSize
        = wrap32 ((s.chan c).remoteEnd.windowSize + (s.chan c).readAdjustment n) ∧
      s'.packets = s.packets ∧ s'.inbound = s.inbound := by
  have hwrap : wrap32 n = n := by
    rw [wrap32_eq (by omega) (by omega)]
    omega
  have hamount : wrap32 (n + (s.chan c).adjustQueue) = n + (s.chan c).adjustQueue := by
    rw [wrap32_eq (by omega) (by omega)]
    omega
  obtain ⟨ch, hch⟩ : ∃ ch : ChannelState, ch = { s.chan c with
      adjustQueue := 0
      adjustAdjust := (ChannelMessage.windowAdjust (wrap32 (n + (s.chan c).adjustQueue))).encode
        (s.chan c).remoteEnd.id
      adjustState := .created } := ⟨_, rfl⟩
  have hid : ch.localEnd.id = c := by
    rw [hch]
    exact Session.id_chan hopen
  rw [hwrap, receiveWindowAdjust_waits hopen hidle hfree (by rw [hsocket]; rfl) (by omega) hch,
    hsocket]
  generalize hs₁ : ({ s.put ch with
    outbox := { s.outbox with
      pending := some ((.adjustAdjust c, ch.adjustAdjust.length), ch.adjustAdjust) }
    socket := (Push.stuck :: Push.through :: rest).tail } : Session) = s₁
  have hopen₁ : (s₁.locate c).isSome := by
    rw [← hs₁, ← hopen]
    exact Session.isSome_locate_put
  have hchan₁ : s₁.chan c = ch := by
    rw [← hs₁]
    exact Session.chan_put_self hopen hid
  have hnarrow₁ : ch.remoteEnd.windowSize < ch.remoteEnd.windowSizeInitial / 4 * 3 + n := by
    rw [hch]
    dsimp only
    omega
  have hchan₂ : (s₁.put { ch with readState := .jump1 }).chan c = { ch with readState := .jump1 } :=
    Session.chan_put_self hopen₁ hid
  have hresume := sendAdjust_resumes (s := s₁.put { ch with readState := .jump1 }) (c := c)
    (p := ch.adjustAdjust) (by rw [hchan₂, ← hs₁]; rfl) (by rw [← hs₁]; rfl) (ch.readAdjustment n)
  have hsecond : (s₁.put { ch with readState := .jump1 }).receiveWindowAdjust c
    (ch.readAdjustment n)
      false = (s₁.put { ch with readState := .jump1 }).sendAdjust c (ch.readAdjustment n) := by
    unfold Session.receiveWindowAdjust
    dsimp only
    rw [hchan₂, if_neg (by simp [hch])]
  rw [hresume, hchan₂] at hsecond
  unfold Session.widen
  dsimp only
  rw [hchan₁, if_pos (.inr hnarrow₁), hsecond, if_neg (by simp)]
  generalize hs₂ : ({ s₁.put { ch with readState := .jump1 } with
    outbox := ⟨none, (s₁.put { ch with readState := .jump1 }).outbox.gone ++ [ch.adjustAdjust]⟩
    socket := (s₁.put { ch with readState := .jump1 }).socket.tail } : Session) = s₂
  have hopen₂ : (s₂.locate c).isSome := by
    rw [← hs₂, ← hopen₁]
    exact Session.isSome_locate_put
  generalize hlast : ({ ch with
    readState := .jump1
    remoteEnd.windowSize := wrap32 (ch.remoteEnd.windowSize + ch.readAdjustment n)
    adjustState := .idle } : ChannelState) = last
  have hid' : last.localEnd.id = c := by
    rw [← hlast]
    exact hid
  have hchan₃ : (s₂.put last).chan c = last := Session.chan_put_self hopen₂ hid'
  rw [hchan₃]
  refine ⟨_, rfl, ?_, ?_, ?_, ?_⟩
  · rw [← hamount, Session.put_outbox, Session.put_outbox, ← hs₂]
    dsimp only
    rw [Session.put_outbox, ← hs₁, hch]
  · rw [Session.chan_put_self (by simpa using hopen₂) (by exact hid'), ← hlast, hch]
    rfl
  · rw [← hs₂, ← hs₁]
    rfl
  · rw [← hs₂, ← hs₁]
    rfl

/-- The read does not learn of the adjustment that it started, and goes on. -/
theorem channelReadEx_waited (hopen : (s.locate c).isSome) (hidle : (s.chan c).adjustState = .idle)
    (hfree : s.outbox.pending = none) (hsocket : s.socket = .stuck :: .through :: rest)
    (hnarrow : (s.chan c).remoteEnd.windowSize < n) (hn : n + (s.chan c).adjustQueue < 2 ^ 32) :
    ∃ s' : Session, s.channelReadEx c k n = s'.readOn c k n ∧
      s'.outbox.gone = s.outbox.gone ++
        [(ChannelMessage.windowAdjust (n + (s.chan c).adjustQueue)).encode
          (s.chan c).remoteEnd.id] ∧
      (s'.chan c).remoteEnd.windowSize
        = wrap32 ((s.chan c).remoteEnd.windowSize + (s.chan c).readAdjustment n) ∧
      s'.packets = s.packets ∧ s'.inbound = s.inbound := by
  obtain ⟨s', hwiden, hrest⟩ := widen_waited hopen hidle hfree hsocket hnarrow hn
  refine ⟨s', ?_, hrest⟩
  rw [Session.channelReadEx, if_pos hnarrow, Session.channelRead, hwiden]
  exact if_neg fun h => h rfl

/-- A session whose socket is full for a moment. -/
def stuckSession : Session :=
  quietLine.during 0 [.stuck, .through] 0

theorem stuckSession_eq : stuckSession = quietLine.during 0 (.stuck :: .through :: []) 0 := rfl

end

end Ssh2Python
