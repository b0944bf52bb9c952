import Ssh2Python.Verify.Connection

/-!
# What other channels do

A session keeps its channels apart: what is sent for one of them is not about the others (`Apart`),
and a call to one of them, as well as the packets that arrive for it, leaves the rest as it is
(`Untouched`).
-/

namespace Ssh2Python

open Lib.CInt Lib.Credit Lib.Outgoing Lib.Wire

/-! ## Two relations -/

/-- Nothing that the session sends for another channel than `c` is about the channel `r` of the
other end. -/
structure Apart (c r : Nat) (s : Session) : Prop where
  numbers : ∀ id, id ≠ c → (s.locate id).isSome → (s.chan id).remoteEnd.id % 2 ^ 32 ≠ r
  adjusts : ∀ id, id ≠ c → (s.locate id).isSome → (s.chan id).adjustState ≠ .idle →
    decodeMessage r (s.chan id).adjustAdjust = none
  writes : ∀ id, id ≠ c → (s.locate id).isSome → (s.chan id).writeState ≠ .idle →
    5 ≤ (s.chan id).writePacket.length ∧ recipient (s.chan id).writePacket ≠ r
  pending : ∀ area n p, s.outbox.pending = some ((area, n), p) → area ≠ .adjustAdjust c →
    area ≠ .writePacket c → decodeMessage r p = none
  waiting : ∀ id n, s.packAdd = some (id, n) → id ≠ c ∧ (s.locate id).isSome

/-- Nothing happened to the channel `c`, or was sent to `r`. -/
structure Untouched (c r : Nat) (s s' : Session) : Prop where
  chan : s'.chan c = s.chan c
  located : ∀ id, (s'.locate id).isSome = (s.locate id).isSome
  packets : s'.packets.filter (Session.queued c) = s.packets.filter (Session.queued c)
  gone : ∃ ms, s'.outbox.gone = s.outbox.gone ++ ms ∧ ∀ m ∈ ms, decodeMessage r m = none
  pending : ∀ area n p, s'.outbox.pending = some ((area, n), p) →
    area = .adjustAdjust c ∨ area = .writePacket c → s.outbox.pending = some ((area, n), p)
  pause : s'.pause = s.pause
  works : .broken ∉ s.socket → .broken ∉ s'.socket

/-- The two together, with the packets that can be read. -/
structure Calm (c r : Nat) (s s' : Session) : Prop where
  apart : Apart c r s'
  untouched : Untouched c r s s'
  inbound : s'.inbound = s.inbound

variable {c r id : Nat} {s s' s'' : Session} {ch : ChannelState} {area : Area}
  {data data2 : List UInt8}

theorem Untouched.refl (s : Session) : Untouched c r s s where
  chan := rfl
  located _ := rfl
  packets := rfl
  gone := ⟨[], by simp, by simp⟩
  pending _ _ _ h _ := h
  pause := rfl
  works h := h

theorem Untouched.trans (h : Untouched c r s s') (h' : Untouched c r s' s'') :
    Untouched c r s s'' where
  chan := h'.chan.trans h.chan
  located id := (h'.located id).trans (h.located id)
  packets := h'.packets.trans h.packets
  gone := by
    obtain ⟨ms, hms, hm⟩ := h.gone
    obtain ⟨ms', hms', hm'⟩ := h'.gone
    refine ⟨ms ++ ms', by rw [hms', hms, List.append_assoc], fun m hmem => ?_⟩
    obtain hmem | hmem := List.mem_append.mp hmem
    · exact hm m hmem
    · exact hm' m hmem
  pending area n p hp ha := h.pending area n p (h'.pending area n p hp ha) ha
  pause := h'.pause.trans h.pause
  works hw := h'.works (h.works hw)

theorem Calm.trans (h : Calm c r s s') (h' : Calm c r s' s'') : Calm c r s s'' where
  apart := h'.apart
  untouched := h.untouched.trans h'.untouched
  inbound := h'.inbound.trans h.inbound

theorem Apart.calm (h : Apart c r s) : Calm c r s s where
  apart := h
  untouched := .refl s
  inbound := rfl

/-! ## Steps beside a channel -/

/-- What a record of another channel has to keep to. -/
structure ChannelState.Elsewhere (r : Nat) (ch : ChannelState) : Prop where
  number : ch.remoteEnd.id % 2 ^ 32 ≠ r
  adjusts : ch.adjustState ≠ .idle → decodeMessage r ch.adjustAdjust = none
  writes : ch.writeState ≠ .idle → 5 ≤ ch.writePacket.length ∧ recipient ch.writePacket ≠ r

theorem Apart.elsewhere (h : Apart c r s) (hid : id ≠ c) (hopen : (s.locate id).isSome) :
    (s.chan id).Elsewhere r where
  number := h.numbers id hid hopen
  adjusts := h.adjusts id hid hopen
  writes := h.writes id hid hopen

theorem Apart.put (h : Apart c r s) (ch : ChannelState)
    (hch : ch.localEnd.id ≠ c → ch.Elsewhere r) :
    Apart c r (s.put ch) := by
  have hfields (id : Nat) (hid : id ≠ c) (hopen : ((s.put ch).locate id).isSome) :
      ((s.put ch).chan id).Elsewhere r := by
    rw [Session.isSome_locate_put] at hopen
    by_cases hc : ch.localEnd.id = id
    · rw [Session.chan_put_self hopen hc]
      exact hch (hc ▸ hid)
    · rw [Session.chan_put_ne hc]
      exact h.elsewhere hid hopen
  exact
    { numbers := fun id hid hopen => (hfields id hid hopen).number
      adjusts := fun id hid hopen => (hfields id hid hopen).adjusts
      writes := fun id hid hopen => (hfields id hid hopen).writes
      pending := h.pending
      waiting := fun id n hw => by
        rw [Session.isSome_locate_put]
        exact h.waiting id n hw }

theorem Apart.calm_put (h : Apart c r s) (ch : ChannelState) (hid : ch.localEnd.id ≠ c)
    (hch : ch.Elsewhere r) :
    Calm c r s (s.put ch) where
  apart := h.put ch fun _ => hch
  untouched :=
    { chan := Session.chan_put_ne hid
      located := fun id => Session.isSome_locate_put
      packets := rfl
      gone := ⟨[], by simp, by simp⟩
      pending := fun _ _ _ hp _ => hp
      pause := rfl
      works := fun hw => hw }
  inbound := rfl

/-- Only the way out has changed. -/
theorem Apart.outbox (h : Apart c r s) {b : Outbox (Area × Nat) (List UInt8)} {socket : List Push}
    (hb : ∀ area n p, b.pending = some ((area, n), p) → area ≠ .adjustAdjust c →
      area ≠ .writePacket c → decodeMessage r p = none) :
    Apart c r { s with outbox := b, socket := socket } where
  numbers := h.numbers
  adjusts := h.adjusts
  writes := h.writes
  pending := hb
  waiting := h.waiting

theorem not_mem_tail {α : Type*} {a : α} {l : List α} (h : a ∉ l) : a ∉ l.tail :=
  fun hmem => h (List.mem_of_mem_tail hmem)

theorem Apart.calm_send (h : Apart c r s) (area : Area) (data data2 : List UInt8)
    (hworks : .broken ∉ s.socket)
    (hadjust : area ≠ .adjustAdjust c) (hwrite : area ≠ .writePacket c)
    (hdata : decodeMessage r (data ++ data2) = none) :
    Calm c r s (s.transportSend area data data2).2 := by
  obtain ⟨-, m, hm, heq⟩ | ⟨b, heq, hgone, hpending⟩ :=
    Session.transportSend_cases area data data2 hworks
  · rw [heq]
    have hnone : decodeMessage r m = none := by
      obtain ⟨-, rfl⟩ | hm := hm
      · exact hdata
      · exact h.pending area _ m hm hadjust hwrite
    refine ⟨h.outbox fun _ _ _ hp => by simp at hp, ?_, rfl⟩
    exact
      { chan := rfl
        located := fun _ => rfl
        packets := rfl
        gone := ⟨[m], rfl, by simpa using hnone⟩
        pending := fun _ _ _ hp => by simp at hp
        pause := rfl
        works := fun hw => not_mem_tail hw }
  · rw [heq]
    have hold (area' : Area) (n : Nat) (p : List UInt8)
        (hp : b.pending = some ((area', n), p)) :
        s.outbox.pending = some ((area', n), p) ∨ area' = area ∧ p = data ++ data2 := by
      obtain hsame | ⟨-, hnew⟩ := hpending
      · exact .inl (hsame ▸ hp)
      · rw [hnew] at hp
        simp only [Option.some.injEq, Prod.mk.injEq] at hp
        exact .inr ⟨hp.1.1.symm, hp.2.symm⟩
    refine ⟨h.outbox fun area' n p hp ha hw => ?_, ?_, rfl⟩
    · obtain hp | ⟨-, rfl⟩ := hold area' n p hp
      · exact h.pending area' n p hp ha hw
      · exact hdata
    · exact
        { chan := rfl
          located := fun _ => rfl
          packets := rfl
          gone := ⟨[], by simp [hgone], by simp⟩
          pending := fun area' n p hp hown => by
            obtain hp | ⟨rfl, -⟩ := hold area' n p hp
            · exact hp
            · exact absurd hown (not_or.mpr ⟨hadjust, hwrite⟩)
          pause := rfl
          works := fun hw => not_mem_tail hw }

/-! ## Calls to another channel -/

section

variable {adjustment : Nat}

theorem Apart.calm_sendAdjust (h : Apart c r s) (hworks : .broken ∉ s.socket) (hid : id ≠ c)
    (hopen : (s.locate id).isSome) (hstate : (s.chan id).adjustState ≠ .idle) :
    Calm c r s (s.sendAdjust id adjustment).2 := by
  have hsend := h.calm_send (.adjustAdjust id) (s.chan id).adjustAdjust [] hworks
    (by simpa using hid) (by simp) (by simpa using h.adjusts id hid hopen hstate)
  have hch := h.elsewhere hid hopen
  have hnum := Session.id_chan hopen
  unfold Session.sendAdjust
  dsimp only
  split
  · exact hsend
  · split
    · exact hsend.trans (hsend.apart.calm_put _ (by simpa [hnum] using hid)
        ⟨hch.number, hch.adjusts, hch.writes⟩)
    · exact hsend.trans (hsend.apart.calm_put _ (by simpa [hnum] using hid)
        ⟨hch.number, fun hn => absurd rfl hn, hch.writes⟩)

/-- The packet that makes a window larger, as it is sent to the channel with this number. -/
theorem decodeMessage_adjust_other {n amount : Nat} (h : n % 2 ^ 32 ≠ r) :
    decodeMessage r ([msgWindowAdjust] ++ store 4 n ++ store 4 amount) = none := by
  apply decodeMessage_other
  simpa using h

theorem Apart.calm_receiveWindowAdjust (h : Apart c r s) (hworks : .broken ∉ s.socket)
    (hid : id ≠ c)
    (hopen : (s.locate id).isSome) (adjustment : Nat) (force : Bool) :
    Calm c r s (s.receiveWindowAdjust id adjustment force).2 := by
  have hch := h.elsewhere hid hopen
  have hnum := Session.id_chan hopen
  unfold Session.receiveWindowAdjust
  dsimp only
  split
  · split
    · exact h.calm_put _ (by simpa [hnum] using hid) ⟨hch.number, hch.adjusts, hch.writes⟩
    · split
      · exact h.calm
      · have hput := h.calm_put ({ s.chan id with
            adjustQueue := 0
            adjustAdjust := [msgWindowAdjust] ++ store 4 (s.chan id).remoteEnd.id
              ++ store 4 (wrap32 (adjustment + (s.chan id).adjustQueue))
            adjustState := .created }) (by simpa [hnum] using hid)
          ⟨hch.number, fun _ => decodeMessage_adjust_other hch.number, hch.writes⟩
        refine hput.trans (hput.apart.calm_sendAdjust hworks hid ?_ ?_)
        · rw [Session.isSome_locate_put]
          exact hopen
        · rw [Session.chan_put_self hopen (by exact hnum)]
          simp
  · next hstate => exact h.calm_sendAdjust hworks hid hopen hstate

end

/-! ## Packets about something else -/

theorem Apart.calm_packets (h : Apart c r s) {ps : List Packet}
    (hps : ps.filter (Session.queued c) = s.packets.filter (Session.queued c)) :
    Calm c r s { s with packets := ps } where
  apart := ⟨h.numbers, h.adjusts, h.writes, h.pending, h.waiting⟩
  untouched :=
    { chan := rfl
      located := fun _ => rfl
      packets := hps
      gone := ⟨[], by simp, by simp⟩
      pending := fun _ _ _ hp _ => hp
      pause := rfl
      works := fun hw => hw }
  inbound := rfl

theorem Apart.calm_packAdd (h : Apart c r s) {w : Option (Nat × Nat)}
    (hw : ∀ id n, w = some (id, n) → id ≠ c ∧ (s.locate id).isSome) :
    Calm c r s { s with packAdd := w } where
  apart := ⟨h.numbers, h.adjusts, h.writes, h.pending, hw⟩
  untouched :=
    { chan := rfl
      located := fun _ => rfl
      packets := rfl
      gone := ⟨[], by simp, by simp⟩
      pending := fun _ _ _ hp _ => hp
      pause := rfl
      works := fun hw => hw }
  inbound := rfl

theorem locate_of_ite {b : Prop} [Decidable b] {o : Option ChannelState}
    (h : (if b then o else none) = some ch) : o = some ch :=
  (Option.ite_none_right_eq_some.mp h).2

theorem Apart.elsewhere_located (h : Apart c r s) (hid : id ≠ c) (hch : s.locate id = some ch) :
    ch.Elsewhere r ∧ ch.localEnd.id = id := by
  have hopen : (s.locate id).isSome := by rw [hch, Option.isSome_some]
  have := h.elsewhere hid hopen
  rw [Session.chan_of_locate hch] at this
  exact ⟨this, Session.id_of_locate hch⟩

theorem Apart.calm_keepData (h : Apart c r s) (hch : ch.Elsewhere r) (hid : ch.localEnd.id ≠ c)
    (hdata : recipient data ≠ c) (head : Nat) :
    Calm c r s (s.keepData ch data head) := by
  unfold Session.keepData
  dsimp only
  split
  · exact h.calm
  · generalize (if ch.remoteEnd.windowSize < _ then _ else _ : Nat) = n
    have hput := h.calm_put ({ ch with
      remoteEnd.eof := false, readAvail := ch.readAvail + (n - head) }) hid
      ⟨hch.number, hch.adjusts, hch.writes⟩
    refine hput.trans (hput.apart.calm_packets ?_)
    have hqueued : Session.queued c ⟨data.take n, head⟩ = false := by
      simp only [Session.queued, decide_eq_false_iff_not]
      rintro ⟨-, hlong, hrecipient⟩
      apply hdata
      rw [List.length_take] at hlong
      rw [← hrecipient, recipient, recipient, List.drop_take, List.take_take,
        Nat.min_eq_left (by omega)]
    rw [List.filter_append, List.filter_cons_of_neg (by simp [hqueued])]
    simp

theorem Apart.calm_ignoreData (h : Apart c r s) (hworks : .broken ∉ s.socket)
    (hch : s.locate id = some ch) (hid : id ≠ c) (datalen head : Nat) :
    Calm c r s (s.ignoreData ch datalen head).2 ∧
      ((s.ignoreData ch datalen head).1 = 0 ∨ (s.ignoreData ch datalen head).1 = eagain) := by
  obtain ⟨helse, hnum⟩ := h.elsewhere_located hid hch
  have hopen : (s.locate id).isSome := by rw [hch, Option.isSome_some]
  unfold Session.ignoreData
  dsimp only
  generalize (if ch.remoteEnd.windowSize ≤ _ then _ else _ : Nat) = kept
  have hput := h.calm_put ({ ch with
    remoteEnd.windowSize := wrap32 (ch.remoteEnd.windowSize - (kept - head : Int)) })
    (by simpa [hnum] using hid) ⟨helse.number, helse.adjusts, helse.writes⟩
  have hopen' : ((s.put { ch with
      remoteEnd.windowSize := wrap32 (ch.remoteEnd.windowSize - (kept - head : Int)) }).locate
      ch.localEnd.id).isSome := by
    rw [Session.isSome_locate_put, hnum]
    exact hopen
  have hadjust := hput.trans (hput.apart.calm_receiveWindowAdjust
    hworks (by rwa [hnum]) hopen' (wrap32 (kept - 13 : Int)) true)
  split
  · refine ⟨hadjust.trans (hadjust.apart.calm_packAdd fun id' n hw => ?_), .inr rfl⟩
    simp only [Option.some.injEq, Prod.mk.injEq] at hw
    obtain ⟨rfl, -⟩ := hw
    refine ⟨by rwa [hnum], ?_⟩
    rw [hadjust.untouched.located, hnum]
    exact hopen
  · exact ⟨hadjust, .inl rfl⟩

/-- **A packet about something else** leaves the channel alone. -/
theorem Apart.calm_packetAdd (h : Apart c r s) (hworks : .broken ∉ s.socket) (hf : Foreign c data) :
    Calm c r s (s.packetAdd data).2 ∧
    ((s.packetAdd data).1 = 0 ∨ (s.packetAdd data).1 = eagain) := by
  have hrecipient (t : UInt8) (ht : data.headD 0 = t)
      (hmem : t ∈ [msgWindowAdjust, msgData, msgExtendedData, msgEof, msgClose]) :
      recipient data ≠ c := hf.2 (ht ▸ hmem)
  unfold Session.packetAdd
  dsimp only
  split
  · next htype =>
    have hr : recipient data ≠ c := by
      obtain ht | ht := htype
      · exact hrecipient _ ht (by simp)
      · exact hrecipient _ ht (by simp)
    split
    · exact ⟨h.calm, .inl rfl⟩
    · next ch hch =>
      have hch := locate_of_ite hch
      obtain ⟨helse, hnum⟩ := h.elsewhere_located hr hch
      split
      · exact h.calm_ignoreData hworks hch hr _ _
      · exact ⟨h.calm_keepData helse (by rwa [hnum]) hr _, .inl rfl⟩
  · split
    · next ht =>
      have hr := hrecipient _ ht (by simp)
      split
      · exact ⟨h.calm, .inl rfl⟩
      · next ch hch =>
        obtain ⟨helse, hnum⟩ := h.elsewhere_located hr (locate_of_ite hch)
        exact ⟨h.calm_put _ (by simpa [hnum] using hr) ⟨helse.number, helse.adjusts, helse.writes⟩,
          .inl rfl⟩
    · split
      · next ht =>
        have hr := hrecipient _ ht (by simp)
        split
        · exact ⟨h.calm, .inl rfl⟩
        · next ch hch =>
          obtain ⟨helse, hnum⟩ := h.elsewhere_located hr (locate_of_ite hch)
          exact ⟨h.calm_put _ (by simpa [hnum] using hr) ⟨helse.number, helse.adjusts,
            helse.writes⟩, .inl rfl⟩
      · split
        · next ht =>
          have hr := hrecipient _ ht (by simp)
          split
          · exact ⟨h.calm, .inl rfl⟩
          · next ch hch =>
            obtain ⟨helse, hnum⟩ := h.elsewhere_located hr (locate_of_ite hch)
            exact ⟨h.calm_put _ (by simpa [hnum] using hr)
              ⟨helse.number, helse.adjusts, helse.writes⟩, .inl rfl⟩
        · next htype _ _ _ =>
          refine ⟨h.calm_packets ?_, .inl rfl⟩
          have hqueued : Session.queued c ⟨data, 0⟩ = false := by
            simp only [Session.queued, decide_eq_false_iff_not]
            rintro ⟨ht, -, -⟩
            exact htype ht.symm
          rw [List.filter_append, List.filter_cons_of_neg (by simp [hqueued])]
          simp

end Ssh2Python
