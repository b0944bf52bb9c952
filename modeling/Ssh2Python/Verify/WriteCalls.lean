import Ssh2Python.Verify.PipelineWrite
import Mathlib.Data.List.Infix

/-!
# Calls of `sftp_write`

What the loop over the acknowledgements comes to (`receiveAcks_spec`), what cutting a buffer into
requests does (`requestWrites_spec`), and what a call comes to (`sftpWrite_spec`).
-/

namespace Ssh2Python

open Lib.CInt Lib.Wire Lib.Patch

variable {h : RemoteHandle} {data init file : List UInt8} {start done : Nat} {answered : List Nat}
  {replies later arrivals : List (List UInt8)} {pause : Int} {s : Pipeline}

/-! ## Acknowledgements -/

/-- **The first chunk is acknowledged.** -/
theorem Writing.ack (hfits : start + data.length < 2 ^ 64) {c : PipelineChunk}
    {rest : List PipelineChunk}
    {p : List UInt8} (hw : Writing h data init start done answered (p :: replies) file s)
    (hlist : s.packetList = c :: rest) (hsent : c.lefttosend = 0) (hid : packetId p = c.requestId)
    (hcode : packetCode p = 0) (lastErrno : Nat) :
    Writing h data init start (done + c.len) answered replies file
      { s with
        lastErrno := lastErrno
        offset := toSize ((s.offset + c.len : Nat) : Int)
        packetList := rest } := by
  obtain ⟨gone, hwire, hreplies, hgone⟩ := hw.chunks
  have hpieces := hw.pieces
  have hnumbered := hw.numbered
  have hoffset := hw.offset_eq
  have hsum := hw.sent_eq
  have hwithin := hw.within
  have hahead := hw.ahead
  rw [hlist] at hwire hreplies hpieces hnumbered
  rw [hlist, requestedBytes_cons] at hsum hwithin hahead
  obtain ⟨hchunk, hrest⟩ := hpieces
  obtain ⟨⟨code, texts, hshort, rfl, hgood⟩, hreplies⟩ := hreplies.use hid
  rw [statusReply_eq, packetCode_cons _ _ _ hshort] at hcode
  have hc := hwire.framed c List.mem_cons_self
  refine ⟨⟨hw.filed.ids, hw.filed.zombies⟩, ?_, ?_, by dsimp only; omega, by dsimp only; omega,
    hnumbered.tail, hrest, ⟨gone ++ [c.message], (onWire_cons_iff hc hsent).mp hwire, ?_, ?_⟩,
    hw.patched, fun j hj => ?_⟩
  · dsimp only
    rw [toSize_eq (by omega) (by omega)]
    omega
  · dsimp only
    omega
  · rwa [List.length_append, List.length_singleton]
  · rw [List.flatMap_append, hgone, List.flatMap_singleton, requestBytes, hchunk.decode hfits]
    exact List.take_add.symm
  · rcases Nat.lt_or_ge j done with hlt | hge
    · exact hw.stored j hlt
    · exact hchunk.holds hfits (hgood hcode) hge hj

/-- How the loop over the acknowledgements ends. -/
structure Acked (h : RemoteHandle) (data init : List UInt8) (start done : Nat) (answered : List Nat)
    (later : List (List UInt8)) (file : List UInt8) (s : Pipeline) (arrivals : List (List UInt8))
    (r : PipelineResult Nat) : Prop where
  ok : ∀ n, r.result = .ok n →
    Writing h data init start (done + n) answered (r.state.replies r.arrivals ++ later) file
      r.state ∧ r.state.acked = s.acked ∧ r.state.writeState = s.writeState ∧
      ∀ p ∈ r.state.replies r.arrivals, p ∈ s.replies arrivals
  error : ∀ rc, r.result = .error rc →
    Writing h data init start done answered (r.state.replies r.arrivals ++ later) file r.state ∧
        r.state.acked = s.acked ∧ r.state.Missing r.arrivals ∨
      rc = ErrorCode.sftpProtocol.value ∧ ∃ p ∈ s.replies arrivals, packetCode p ≠ 0
  zero : r.result = .ok 0 → ∀ c ∈ s.packetList.head?, c.lefttosend ≠ 0

theorem receiveAcks_spec (hfits : start + data.length < 2 ^ 64)
    (hw : Writing h data init start done answered (s.replies arrivals ++ later) file s) :
    Acked h data init start done answered later file s arrivals (receiveAcks pause s arrivals) := by
  have hnone : (∀ c ∈ s.packetList.head?, c.lefttosend ≠ 0) →
      Acked h data init start done answered later file s arrivals ⟨.ok 0, s, arrivals⟩ := by
    intro hhead
    refine ⟨fun n hn => ?_, fun rc hrc => absurd hrc nofun, fun _ => hhead⟩
    obtain rfl := Except.ok.inj hn
    exact ⟨hw, rfl, rfl, fun p hp => hp⟩
  unfold receiveAcks
  cases hlist : s.packetList with
  | nil => exact hnone (by simp [hlist])
  | cons c rest =>
    by_cases hsent : c.lefttosend = 0
    · have hreq := Pipeline.packetRequire_spec [fxpStatus] c.requestId pause hw.filed
        fun p hp => (hw.status (List.mem_append_left _ hp)).1
      simp only [if_neg (not_not_intro hsent)]
      generalize Pipeline.packetRequire [fxpStatus] c.requestId pause s arrivals = r at hreq ⊢
      have hlist' : r.state.packetList = c :: rest := by
        rw [hreq.state_eq]
        exact hlist
      have hacked : r.state.acked = s.acked := by rw [hreq.state_eq]
      have hstate : r.state.writeState = s.writeState := by rw [hreq.state_eq]
      have hwriting (replies' : List (List UInt8))
          (hperm : (s.replies arrivals ++ later).Perm replies') :
          Writing h data init start done answered replies' file r.state := by
        have hpackets := hw.packets (hreq.state_eq ▸ hreq.filed) hperm
        rwa [← hreq.state_eq] at hpackets
      rcases hreq.result with ⟨hres, hsame, hnot⟩ | ⟨p, hres, hid, -, hperm⟩
      · have hthere := hwriting (r.state.replies r.arrivals ++ later) (hsame ▸ List.Perm.refl _)
        have hmissing : r.state.Missing r.arrivals := by
          refine ⟨c, rest, hlist', hsent, fun hmem => ?_⟩
          rw [hsame] at hmem
          obtain ⟨p, hp, hid⟩ := List.mem_map.mp hmem
          have htype := (hw.status (List.mem_append_left _ hp)).2
          exact hnot p hp (List.mem_singleton.mpr htype) hid
        simp only [hres]
        split
        · exact ⟨fun n hn => absurd hn nofun, fun rc _ => .inl ⟨hthere, hacked, hmissing⟩,
            fun hzero => absurd hzero nofun⟩
        split
        · exact ⟨fun n hn => absurd hn nofun,
            fun rc _ => .inl ⟨hthere.turn .sent r.state.lastErrno r.state.acked, hacked, hmissing⟩,
            fun hzero => absurd hzero nofun⟩
        · exact ⟨fun n hn => absurd hn nofun, fun rc _ => .inl ⟨hthere, hacked, hmissing⟩,
            fun hzero => absurd hzero nofun⟩
      · have hthere :=
          hwriting (p :: (r.state.replies r.arrivals ++ later)) (hperm.append_right later)
        have hmem : p ∈ s.replies arrivals := hperm.mem_iff.mpr List.mem_cons_self
        simp only [hres]
        split
        · next hcode =>
          have hnext := hthere.ack hfits hlist' hsent hid hcode (packetCode p)
          have hpos := (hw.pieces.mem (hlist ▸ List.mem_cons_self)).elim fun _ hc => hc.len_pos
          refine ⟨fun n hn => ?_, fun rc hrc => absurd hrc nofun, fun hzero => ?_⟩
          · obtain rfl := Except.ok.inj hn
            exact ⟨hnext, hacked, hstate, fun q hq => hperm.mem_iff.mpr (List.mem_cons_of_mem p hq)⟩
          · exact absurd (Except.ok.inj hzero) hpos.ne'
        · next hcode =>
          refine ⟨fun n hn => absurd hn nofun, fun rc hrc => .inr ⟨?_, p, hmem, hcode⟩,
            fun hzero => absurd hzero nofun⟩
          exact (Except.error.inj hrc).symm
    · simp only [if_pos hsent]
      refine hnone fun c' hc' => ?_
      rw [hlist] at hc'
      obtain rfl : c = c' := by simpa using hc'
      exact hsent

/-- Waiting for acknowledgements sends nothing. -/
theorem wire_receiveAcks (pause : Int) (s : Pipeline) (arrivals : List (List UInt8)) :
    (receiveAcks pause s arrivals).state.wire = s.wire := by
  unfold receiveAcks
  cases s.packetList with
  | nil => rfl
  | cons c rest =>
    have hreq := Pipeline.wire_packetRequire [fxpStatus] c.requestId pause s arrivals
    dsimp only
    generalize Pipeline.packetRequire [fxpStatus] c.requestId pause s arrivals = r at hreq ⊢
    split
    · rfl
    cases r.result with
    | error rc =>
      dsimp only
      split
      · exact hreq
      split <;> exact hreq
    | ok data =>
      dsimp only
      split
      · exact hreq
      · simp only [Pipeline.rewind]
        rw [Pipeline.packetlistFlush_eq]
        exact hreq

/-! ## Cutting a buffer into requests -/

theorem requestWrites_succ (h : RemoteHandle) (allocs : Nat) {buffer : List UInt8}
    (hne : buffer ≠ [])
    (s : Pipeline) : requestWrites h (allocs + 1) buffer s =
      requestWrites h allocs (buffer.drop maxOutgoingSize)
        (s.addWrite h (buffer.take maxOutgoingSize)) := by
  cases buffer with
  | nil => exact absurd rfl hne
  | cons b buffer => rfl

/-- What making requests changes. -/
theorem requestWrites_eq (h : RemoteHandle) (allocs : Nat) (buffer : List UInt8) (s : Pipeline) :
    (requestWrites h allocs buffer s).2 =
      { s with
        requestId := (requestWrites h allocs buffer s).2.requestId
        offsetSent := (requestWrites h allocs buffer s).2.offsetSent
        packetList := (requestWrites h allocs buffer s).2.packetList } := by
  induction allocs generalizing buffer s with
  | zero => cases buffer <;> rfl
  | succ allocs ih =>
    cases buffer with
    | nil => rfl
    | cons b buffer =>
      rw [requestWrites_succ h allocs (List.cons_ne_nil b buffer), ih]
      rfl

/-- **Making requests** keeps the invariant also where there is no memory for some of them, and asks
for the whole buffer otherwise. -/
theorem requestWrites_spec (hfits : start + data.length < 2 ^ 64) (allocs : Nat)
    {buffer : List UInt8}
    (hw : Writing h data init start done answered replies file s)
    (hbuffer : buffer <+: data.drop (done + requestedBytes s.packetList))
    (hahead : requestedBytes s.packetList + buffer.length < 2 ^ 32) :
    Writing h data init start done answered replies file (requestWrites h allocs buffer s).2 ∧
      ((requestWrites h allocs buffer s).1 = none →
        requestedBytes (requestWrites h allocs buffer s).2.packetList =
          requestedBytes s.packetList + buffer.length) := by
  induction allocs generalizing buffer s with
  | zero =>
    cases buffer with
    | nil => exact ⟨hw, fun _ => rfl⟩
    | cons b buffer => exact ⟨hw, fun hnone => absurd hnone nofun⟩
  | succ allocs ih =>
    by_cases hne : buffer = []
    · rw [hne]
      exact ⟨hw, fun _ => rfl⟩
    · rw [requestWrites_succ h allocs hne]
      have hpos : 0 < buffer.length := List.length_pos_iff.mpr hne
      have hle := hbuffer.length_le
      rw [List.length_drop] at hle
      have hmax : maxOutgoingSize = 30000 := rfl
      have hbytes : buffer.take maxOutgoingSize =
          (data.drop (done + requestedBytes s.packetList)).take
          (min maxOutgoingSize buffer.length) := by
        conv_lhs => rw [List.prefix_iff_eq_take.mp hbuffer]
        rw [List.take_take]
      have hadd := hw.addWrite hfits (n := min maxOutgoingSize buffer.length) (by omega)
        (Nat.min_le_left _ _) (by omega) (by omega)
      rw [← hbytes] at hadd
      have hcount : requestedBytes (s.addWrite h (buffer.take maxOutgoingSize)).packetList =
          requestedBytes s.packetList + min maxOutgoingSize buffer.length := by
        rw [Pipeline.addWrite, requestedBytes_concat, PipelineChunk.forWrite, List.length_take]
      have hrest : buffer.drop maxOutgoingSize <+: data.drop (done +
          requestedBytes (s.addWrite h (buffer.take maxOutgoingSize)).packetList) := by
        rw [hcount, ← Nat.add_assoc, ← List.drop_drop]
        rcases Nat.le_total buffer.length maxOutgoingSize with hshort | hlong
        · rw [List.drop_of_length_le hshort]
          exact List.nil_prefix
        · rw [Nat.min_eq_left hlong]
          exact hbuffer.drop maxOutgoingSize
      obtain ⟨hwriting, hsum⟩ := ih hadd hrest (by rw [hcount, List.length_drop]; omega)
      refine ⟨hwriting, fun hnone => ?_⟩
      rw [hsum hnone, hcount, List.length_drop]
      omega

/-- There is memory enough where there is some for every byte. -/
theorem requestWrites_none {allocs : Nat} {buffer : List UInt8} (hallocs : buffer.length ≤ allocs) :
    (requestWrites h allocs buffer s).1 = none := by
  induction allocs generalizing buffer s with
  | zero =>
    obtain rfl : buffer = [] := by simpa using hallocs
    rfl
  | succ allocs ih =>
    cases buffer with
    | nil => rfl
    | cons b buffer =>
      rw [requestWrites_succ h allocs (List.cons_ne_nil b buffer)]
      refine ih ?_
      have hmax : maxOutgoingSize = 30000 := rfl
      rw [List.length_drop, List.length_cons]
      rw [List.length_cons] at hallocs
      omega

/-! ## Calls -/

/-- What a call leaves, unless a request was not carried out: more of the data is written. -/
def WriteCalled (h : RemoteHandle) (data init : List UInt8) (start written : Nat)
    (answered : List Nat)
    (later : List (List UInt8)) (file : List UInt8) (r : PipelineResult Nat) : Prop :=
  r.result ≠ .error ErrorCode.sftpProtocol.value →
    Writing h data init start (written + r.result.toOption.getD 0 + r.state.acked) answered
      (r.state.replies (r.arrivals ++ later)) file r.state

theorem wire_writeSent (count : Nat) (env : PipelineEnv) (s : Pipeline) :
    (writeSent count env s).state.wire = s.wire := by
  have hwire := wire_receiveAcks env.pause { s with writeState := .idle } env.arrivals
  unfold writeSent
  dsimp only
  generalize receiveAcks env.pause { s with writeState := .idle } env.arrivals = r at hwire ⊢
  cases r.result with
  | error rc => exact hwire
  | ok n => exact hwire

section Call

variable {written : Nat} {sys : RemoteFile} {i : PipelineCall} {file' : List UInt8}

/-- **The second phase.** -/
theorem writeSent_spec (hfits : start + data.length < 2 ^ 64) {env : PipelineEnv}
    (hw : Writing h data init start (written + s.acked) answered
      (s.replies env.arrivals ++ later) file s)
    (count : Nat) :
    WriteCalled h data init start written answered later file (writeSent count env s) := by
  have hturn := hw.turn .idle s.lastErrno s.acked
  have hacks := @receiveAcks_spec h data init file start (written + s.acked) answered later
    env.arrivals env.pause { s with writeState := .idle } hfits hturn
  unfold WriteCalled writeSent
  generalize receiveAcks env.pause { s with writeState := .idle } env.arrivals = r at hacks ⊢
  cases hres : r.result with
  | error rc =>
    simp only [hres]
    intro hrc
    rcases hacks.error rc hres with ⟨hthere, hacked, -⟩ | ⟨rfl, -⟩
    · rw [Pipeline.replies_append, hacked]
      exact hthere
    · exact absurd rfl hrc
  | ok n =>
    simp only [hres]
    intro _
    obtain ⟨hthere, hacked, -, -⟩ := hacks.ok n hres
    have hsum : written + min (n + r.state.acked) count +
        (n + r.state.acked - min (n + r.state.acked) count) = written + s.acked + n := by
      rw [hacked]
      dsimp only
      omega
    rw [Pipeline.replies_append]
    simp only [Except.toOption, Option.getD_some]
    rw [hsum]
    exact hthere.turn r.state.writeState r.state.lastErrno _

/-- What was passed before, and is under way or could not be returned. -/
theorem Writing.already (hfits : start + data.length < 2 ^ 64)
    (hw : Writing h data init start (written + s.acked) answered replies file s) :
    toSize (toSize ((s.offsetSent : Int) - s.offset) + s.acked) =
      requestedBytes s.packetList + s.acked := by
  have hoffset := hw.offset_eq
  have hsent := hw.sent_eq
  have hwithin := hw.within
  have hdiff : toSize ((s.offsetSent : Int) - s.offset) = requestedBytes s.packetList := by
    rw [toSize_eq (by omega) (by omega)]
    omega
  rw [hdiff, toSize_eq (by omega) (by omega)]
  omega

theorem drop_already {buffer : List UInt8} (hbuffer : buffer <+: data.drop written)
    (requested acked : Nat) :
    buffer.drop (requested + acked) <+: data.drop (written + acked + requested) := by
  have hdrop := hbuffer.drop (requested + acked)
  rwa [List.drop_drop,
    show written + (requested + acked) = written + acked + requested by omega] at hdrop

/-- **The first phase.** -/
theorem writeIdle_spec (hfits : start + data.length < 2 ^ 64) {buffer : List UInt8}
    (hw : Writing h data init start (written + s.acked) sys.answered (s.replies sys.inflight) file
      s)
    (hbuffer : buffer <+: data.drop written) (hcount : buffer.length < 2 ^ 32)
    (hmoves : Answers writeServer (frames (writeIdle h buffer (sys.env i) s).state.wire)
      sys.answered i.answers)
    (hstored : Stored (frames (writeIdle h buffer (sys.env i) s).state.wire) i.answers file file') :
    WriteCalled h data init start written (sys.answered ++ i.answers.map Prod.fst)
      ((sys.pool i).drop i.arrive) file' (writeIdle h buffer (sys.env i) s) := by
  have halready := hw.already hfits
  have hrest := drop_already hbuffer (requestedBytes s.packetList) s.acked
  have hahead := hw.ahead
  have hrequests := requestWrites_spec hfits (sys.env i).allocs hw hrest
    (by rw [List.length_drop]; omega)
  have heq := requestWrites_eq h (sys.env i).allocs
    (buffer.drop (requestedBytes s.packetList + s.acked)) s
  unfold writeIdle at hmoves hstored ⊢
  rw [halready] at hmoves hstored ⊢
  dsimp only at hmoves hstored ⊢
  generalize requestWrites h (sys.env i).allocs
    (buffer.drop (requestedBytes s.packetList + s.acked)) s =
    requests at hmoves hstored hrequests heq ⊢
  obtain ⟨rc, s'⟩ := requests
  obtain ⟨hwriting, -⟩ := hrequests
  dsimp only at hmoves hstored heq hwriting ⊢
  have hacked : s'.acked = s.acked := by rw [heq]
  have hreplies : s.replies sys.inflight = s'.replies sys.inflight := by
    rw [heq]
    rfl
  rw [hreplies, ← hacked] at hwriting
  cases rc with
  | some rc =>
    intro _
    rw [Pipeline.replies_append]
    exact hwriting.arrive hfits hmoves hstored
  | none =>
    have hsend := hwriting.send false (sys.env i).stall (sys.env i).writes
    dsimp only at hmoves hstored ⊢
    generalize sendChunks false (sys.env i).stall s'.packetList (sys.env i).writes s'.wire = r
      at hmoves hstored hsend ⊢
    cases hrc : r.rc with
    | some rc =>
      simp only [hrc] at hmoves hstored ⊢
      intro _
      rw [Pipeline.replies_append]
      exact Writing.arrive (s := { s' with packetList := r.chunks, wire := r.wire }) hfits hsend
        hmoves
        hstored
    | none =>
      simp only [hrc] at hmoves hstored ⊢
      rw [wire_writeSent] at hmoves hstored
      exact writeSent_spec hfits
        (Writing.arrive (s := { s' with packetList := r.chunks, wire := r.wire })
          hfits hsend hmoves hstored) buffer.length

/-- **A call of `sftp_write`**, whatever the server answers and whenever the answers arrive. -/
theorem sftpWrite_spec (hfits : start + data.length < 2 ^ 64) {buffer : List UInt8}
    (hw : Writing h data init start (written + s.acked) sys.answered (s.replies sys.inflight) file
      s)
    (hbuffer : buffer <+: data.drop written) (hcount : buffer.length < 2 ^ 32)
    (hmoves : Answers writeServer (frames (sftpWrite h buffer (sys.env i) s).state.wire)
      sys.answered i.answers)
    (hstored : Stored (frames (sftpWrite h buffer (sys.env i) s).state.wire) i.answers file file') :
    WriteCalled h data init start written (sys.answered ++ i.answers.map Prod.fst)
      ((sys.pool i).drop i.arrive) file' (sftpWrite h buffer (sys.env i) s) := by
  unfold sftpWrite at hmoves hstored ⊢
  by_cases hsent : s.writeState = .sent
  · rw [if_pos hsent] at hmoves hstored ⊢
    rw [wire_writeSent] at hmoves hstored
    exact writeSent_spec hfits (hw.arrive hfits hmoves hstored) buffer.length
  · rw [if_neg hsent] at hmoves hstored ⊢
    exact writeIdle_spec hfits (hw.turn .idle 0 s.acked) hbuffer hcount hmoves hstored

/-! ## Calls that do not wait -/

/-- No status is an error. -/
def AllGood (replies : List (List UInt8)) : Prop :=
  ∀ p ∈ replies, packetCode p = 0

/-- A call that does not wait, and writes something if it can. -/
structure WriteDone (some : Prop) (later : List (List UInt8)) (r : PipelineResult Nat) : Prop where
  ok : ∃ n, r.result = .ok n ∧ (some → 0 < n)
  state : r.state.writeState ≠ .sent
  good : AllGood (r.state.replies (r.arrivals ++ later))

/-- **The second phase**, if all chunks are sent and answered. -/
theorem writeSent_done (hfits : start + data.length < 2 ^ 64) {env : PipelineEnv}
    (hw : Writing h data init start (written + s.acked) answered (s.replies env.arrivals) file s)
    (hsent : ∀ c ∈ s.packetList, c.lefttosend = 0) (hgood : AllGood (s.replies env.arrivals))
    (hanswered : ∀ k < (frames s.wire).length, k ∈ answered) (count : Nat) :
    WriteDone (0 < count ∧ 0 < requestedBytes s.packetList + s.acked) []
      (writeSent count env s) := by
  have hturn := hw.turn .idle s.lastErrno s.acked
  have hwire := wire_receiveAcks env.pause { s with writeState := .idle } env.arrivals
  have hacks := @receiveAcks_spec h data init file start (written + s.acked) answered []
    env.arrivals env.pause { s with writeState := .idle } hfits (by rwa [List.append_nil])
  unfold writeSent
  dsimp only
  generalize receiveAcks env.pause { s with writeState := .idle } env.arrivals = r at hacks hwire ⊢
  cases hres : r.result with
  | error rc =>
    rcases hacks.error rc hres with ⟨hthere, -, hmissing⟩ | ⟨-, p, hp, hcode⟩
    · obtain ⟨gone, hon, hreplies, -⟩ := hthere.chunks
      rw [List.append_nil] at hreplies
      obtain ⟨k, hk, hnot⟩ := hreplies.missing hon hmissing
      rw [hwire] at hk
      exact absurd (hanswered k hk) hnot
    · exact absurd (hgood p hp) hcode
  | ok n =>
    obtain ⟨-, hacked, hstate, hsub⟩ := hacks.ok n hres
    refine ⟨⟨_, rfl, fun hsome => ?_⟩, ?_, fun p hp => ?_⟩
    · have hzero : n = 0 → requestedBytes s.packetList = 0 := by
        rintro rfl
        have hhead := hacks.zero hres
        dsimp only at hhead
        cases hlist : s.packetList with
        | nil => rfl
        | cons c rest =>
          rw [hlist] at hhead hsent
          exact absurd (hsent c List.mem_cons_self) (hhead c rfl)
      dsimp only at hacked ⊢
      rw [hacked]
      omega
    · dsimp only at hstate ⊢
      rw [hstate]
      exact nofun
    · rw [List.append_nil] at hp
      exact hgood p (hsub p hp)

theorem writeIdle_eq {buffer : List UInt8} {env : PipelineEnv} {already : Nat}
    (halready : toSize (toSize ((s.offsetSent : Int) - s.offset) + s.acked) = already)
    (hnone : (requestWrites h env.allocs (buffer.drop already) s).1 = none)
    (hrc : (sendChunks false env.stall
      (requestWrites h env.allocs (buffer.drop already) s).2.packetList
      env.writes (requestWrites h env.allocs (buffer.drop already) s).2.wire).rc = none) :
    writeIdle h buffer env s = writeSent buffer.length env
      { (requestWrites h env.allocs (buffer.drop already) s).2 with
        packetList := (sendChunks false env.stall
          (requestWrites h env.allocs (buffer.drop already) s).2.packetList env.writes
          (requestWrites h env.allocs (buffer.drop already) s).2.wire).chunks
        wire := (sendChunks false env.stall
          (requestWrites h env.allocs (buffer.drop already) s).2.packetList env.writes
          (requestWrites h env.allocs (buffer.drop already) s).2.wire).wire } := by
  unfold writeIdle
  rw [halready]
  dsimp only
  generalize requestWrites h env.allocs (buffer.drop already) s = requests at hnone hrc ⊢
  obtain ⟨rc, s'⟩ := requests
  obtain rfl : rc = none := hnone
  dsimp only at hrc ⊢
  rw [hrc]

/-- A channel that takes whole requests takes them all. -/
theorem Writing.send_all (hw : Writing h data init start done answered replies file s)
    {writes : List Nat} (hmany : data.length ≤ writes.length)
    (hlarge : ∀ n ∈ writes, 4092 + 25 + maxOutgoingSize ≤ n) (again : Bool) (stall : Int) :
    (sendChunks again stall s.packetList writes s.wire).rc = none ∧
      ∀ c ∈ (sendChunks again stall s.packetList writes s.wire).chunks, c.lefttosend = 0 := by
  obtain ⟨gone, hwire, -⟩ := hw.chunks
  have hchunks : ∀ c ∈ s.packetList, 0 < c.len := fun c hc =>
    (hw.pieces.mem hc).elim fun _ hc => hc.len_pos
  have hlen := length_le_requestedBytes hchunks
  have hwithin := hw.within
  refine sendChunks_all again stall (by omega) fun n hn c hc => ?_
  have hn := hlarge n hn
  have hhandle := h.length_le
  obtain ⟨pos, hchunk⟩ := hw.pieces.mem hc
  have hmax := hchunk.len_le
  have hframed := hwire.framed c hc
  have htotal := hframed.total
  have hpacket := congrArg List.length hframed.packet_eq
  rw [length_frame, hchunk.message, length_writeMessage, length_piece hchunk.within] at hpacket
  omega

/-- **The first phase**, if there is memory and the channel takes all chunks. -/
theorem writeIdle_done (hfits : start + data.length < 2 ^ 64) {buffer : List UInt8} {count : Nat}
    (hw : Writing h data init start (written + s.acked) sys.answered (s.replies sys.inflight) file
      s)
    (hbuffer : buffer = (data.drop written).take count) (hcount : count < 2 ^ 32)
    (hgood : AllGood (s.replies sys.inflight))
    (hsoon : PromptWrite data sys i count (writeIdle h buffer (sys.env i) s).state.wire)
    (hmoves : Answers writeServer (frames (writeIdle h buffer (sys.env i) s).state.wire)
      sys.answered i.answers)
    (hstored : Stored (frames (writeIdle h buffer (sys.env i) s).state.wire) i.answers file file') :
    WriteDone (written < data.length) ((sys.pool i).drop i.arrive)
      (writeIdle h buffer (sys.env i) s) := by
  have hprefix' : buffer <+: data.drop written := hbuffer ▸ List.take_prefix _ _
  have hlen : buffer.length = min count (data.length - written) := by
    rw [hbuffer, List.length_take, List.length_drop]
  have hallocs := hsoon.allocs
  have hpos := hsoon.count_pos
  have hwithin := hw.within
  have hahead := hw.ahead
  have halready := hw.already hfits
  have hnone : (requestWrites h (sys.env i).allocs
      (buffer.drop (requestedBytes s.packetList + s.acked)) s).1 = none := by
    refine requestWrites_none (hallocs.trans' ?_)
    rw [List.length_drop]
    omega
  obtain ⟨hwriting, hsum⟩ := requestWrites_spec hfits (sys.env i).allocs hw
    (drop_already hprefix' (requestedBytes s.packetList) s.acked) (by rw [List.length_drop]; omega)
  have hsum := hsum hnone
  have heq := requestWrites_eq h (sys.env i).allocs
    (buffer.drop (requestedBytes s.packetList + s.acked)) s
  have hmany : data.length ≤ (sys.env i).writes.length := hsoon.many
  obtain ⟨hrc, hall⟩ := hwriting.send_all hmany hsoon.large false (sys.env i).stall
  have hsend := hwriting.send false (sys.env i).stall (sys.env i).writes
  have hcall := writeIdle_eq halready hnone hrc
  rw [hcall] at hsoon hmoves hstored ⊢
  have hacked : (requestWrites h (sys.env i).allocs
      (buffer.drop (requestedBytes s.packetList + s.acked)) s).2.acked = s.acked := by rw [heq]
  have hreplies : (requestWrites h (sys.env i).allocs
      (buffer.drop (requestedBytes s.packetList + s.acked)) s).2.replies sys.inflight =
        s.replies sys.inflight := by
    rw [heq]
    rfl
  rw [wire_writeSent] at hsoon hmoves hstored
  rw [← hreplies] at hsend
  clear heq hcall hnone hrc
  generalize (requestWrites h (sys.env i).allocs
    (buffer.drop (requestedBytes s.packetList + s.acked)) s).2 = s' at *
  dsimp only at hsoon hmoves hstored hsend ⊢
  generalize sendChunks false (sys.env i).stall s'.packetList (sys.env i).writes s'.wire = r at *
  rw [← hacked] at hsend
  have hbytes : requestedBytes r.chunks = requestedBytes s'.packetList := by
    have hbefore := hwriting.sent_eq
    have hafter := hsend.sent_eq
    dsimp only at hafter
    omega
  have harrive :=
    Writing.arrive (s := { s' with packetList := r.chunks, wire := r.wire }) hfits hsend
    hmoves hstored
  have hgoods : AllGood (s'.replies (sys.env i).arrivals) := by
    intro p hp
    have hpool := Pipeline.replies_pool s' sys i
    rw [List.drop_of_length_le hsoon.arrive, List.append_nil, hreplies] at hpool
    rw [hpool] at hp
    rcases List.mem_append.mp hp with hp | hp
    · exact hgood p hp
    · obtain ⟨move, hmove, rfl⟩ := List.mem_map.mp hp
      exact hsoon.good move hmove
  rw [List.drop_of_length_le hsoon.arrive] at harrive ⊢
  rw [List.append_nil] at harrive
  obtain ⟨⟨n, hn, hsome⟩, hstate, hlast⟩ := writeSent_done
    (s := { s' with packetList := r.chunks, wire := r.wire }) hfits harrive hall hgoods
    hsoon.answered
    buffer.length
  refine ⟨⟨n, hn, fun hmore => hsome ⟨by omega, ?_⟩⟩, hstate, hlast⟩
  rw [List.length_drop] at hsum
  dsimp only
  omega

end Call

end Ssh2Python
