import Ssh2Python.Verify.PipelineRead

/-!
# Calls of `sftp_read`

What the loop over the answers comes to (`receiveReads_spec`), what making requests does, and what a
call comes to in each of its states (`sftpRead_spec`): it goes on with `Live`, or the end of the
file is reached. `Missing` is what a call waits for that the channel does not stop.
-/

namespace Ssh2Python

open Lib.CInt Lib.Wire

variable {full : Prop} {file : List UInt8} {h : RemoteHandle} {start : Nat}

/-! ## Receiving -/

/-- How the loop over the answers ends. -/
structure Received (full : Prop) (file : List UInt8) (h : RemoteHandle) (start : Nat)
    (got : List UInt8)
    (answered : List Nat) (later : List (List UInt8)) (pause : Int)
    (r : PipelineResult (List UInt8)) : Prop where
  ok : ∀ out, r.result = .ok out →
    Live full file h start (got ++ out) answered (r.state.replies r.arrivals ++ later) r.state ∧
        r.state.readState = .idle ∧ out ≠ [] ∨
      AtEnd full file start (got ++ out) r.state
  again : r.result = .error eagain →
    Live full file h start got answered (r.state.replies r.arrivals ++ later) r.state ∧
      Waiting r.state ∧ r.state.Missing r.arrivals
  error : full → pause = eagain → ∀ rc, r.result = .error rc → rc = eagain

section Receive

variable {got : List UInt8} {answered : List Nat} {later : List (List UInt8)} {pause : Int}

/-- An error of the protocol is no end of a loop that a server which answers in full can come to. -/
theorem received_error {s : Pipeline} {arrivals : List (List UInt8)} (hnot : full → False) :
    Received full file h start got answered later pause
      ⟨.error ErrorCode.sftpProtocol.value, s, arrivals⟩ := by
  refine ⟨fun out hout => absurd hout nofun, fun hagain => ?_, fun hf => (hnot hf).elim⟩
  exact absurd (Except.error.inj hagain) (by decide)

/-- What is in the buffer is returned. -/
theorem received_buffer {s : Pipeline} {arrivals : List (List UInt8)} {buf : List UInt8}
    (hl : Live full file h start (got ++ buf) answered (s.replies arrivals ++ later) s)
    (hidle : s.readState = .idle) (hbuf : buf ≠ []) :
    Received full file h start got answered later pause ⟨.ok buf, s, arrivals⟩ := by
  refine ⟨fun out hout => ?_, fun hagain => absurd hagain nofun, fun _ _ rc hrc => absurd hrc nofun⟩
  obtain rfl := Except.ok.inj hout
  exact .inl ⟨hl, hidle, hbuf⟩

theorem receiveReads_spec (hfits : Fits full file start) {bufferSize : Nat}
    (hsize : full → 0 < bufferSize)
    {cs : List PipelineChunk} {buf : List UInt8} {s : Pipeline} {arrivals : List (List UInt8)}
    (hl : Live full file h start (got ++ buf) answered (s.replies arrivals ++ later) s)
    (hlist : s.packetList = cs) (hleft : s.dataLeft = 0) (hidle : s.readState = .idle)
    (hbuf : buf.length ≤ bufferSize)
    (hfirst : full → buf = [] → cs ≠ [] ∧ ∀ c ∈ cs.head?, c.lefttosend = 0) :
    Received full file h start got answered later pause
      (receiveReads bufferSize pause cs buf s arrivals) := by
  induction cs generalizing buf s arrivals with
  | nil =>
    unfold receiveReads
    split
    · next hne => exact received_buffer hl hidle hne
    · next hnil =>
      exact received_error fun hf => (hfirst hf (not_not.mp hnil)).1 rfl
  | cons c rest ih =>
    unfold receiveReads
    by_cases hsent : c.lefttosend = 0
    · rw [if_neg (not_not_intro hsent)]
      have hreq := Pipeline.packetRequire_spec [fxpData, fxpStatus] c.requestId pause hl.filed
        fun p hp => hl.shape p (List.mem_append_left _ hp)
      generalize Pipeline.packetRequire [fxpData, fxpStatus] c.requestId pause s arrivals =
        r at hreq ⊢
      have hlist' : r.state.packetList = c :: rest := by
        rw [hreq.state_eq]
        exact hlist
      have hleft' : r.state.dataLeft = 0 := by
        rw [hreq.state_eq]
        exact hleft
      have hidle' : r.state.readState = .idle := by
        rw [hreq.state_eq]
        exact hidle
      have hstate (replies' : List (List UInt8))
          (hperm : (s.replies arrivals ++ later).Perm replies') :
          Live full file h start (got ++ buf) answered replies' r.state := by
        have hpackets := hl.packets (hreq.state_eq ▸ hreq.filed) hperm
        rwa [← hreq.state_eq] at hpackets
      rcases hreq.result with ⟨hres, hsame, hnot⟩ | ⟨data, hres, hid, -, hperm⟩
      · have hmissing : c.requestId ∉ (r.state.replies r.arrivals).map packetId := by
          rw [hsame]
          intro hmem
          obtain ⟨p, hp, hid⟩ := List.mem_map.mp hmem
          have htype := (hl.shape p (List.mem_append_left _ hp)).type
          exact hnot p hp (by rwa [List.mem_cons, List.mem_singleton]) hid
        have hlive := hstate (r.state.replies r.arrivals ++ later) (hsame ▸ List.Perm.refl _)
        simp only [hres]
        split
        · next hwait => exact received_buffer hlive hidle' hwait.2
        split
        · next hsmall =>
          refine ⟨fun out hout => absurd hout nofun, fun hagain => ?_, fun _ hpause => ?_⟩
          · exact absurd (Except.error.inj hagain) (by decide)
          · exact absurd (hpause.symm.trans hsmall) (by decide)
        · next hbusy hsmall =>
          refine ⟨fun out hout => absurd hout nofun, fun hagain => ?_, fun _ hpause rc hrc => ?_⟩
          · obtain rfl : buf = [] := by
              by_contra hne
              exact hbusy ⟨Except.error.inj hagain, hne⟩
            rw [List.append_nil] at hlive
            refine ⟨⟨hlive.eof, ⟨hlive.filed.ids, hlive.filed.zombies⟩, hlive.position,
              hlive.window,
              hlive.chunks⟩, ⟨fun _ => ⟨hleft', ?_⟩, fun _ c' hc' => ?_⟩, c, rest, hlist', hsent,
              hmissing⟩
            · rw [hlist']
              exact List.cons_ne_nil c rest
            · rw [hlist'] at hc'
              obtain rfl : c = c' := by simpa using hc'
              exact hsent
          · rw [← Except.error.inj hrc, hpause]
      · have hlive := hstate (data :: (r.state.replies r.arrivals ++ later))
          ((hperm.append_right later).trans (List.Perm.refl _))
        obtain ⟨gone, -, hreplies⟩ := hlive.chunks
        have hwindow := hlive.window
        rw [hlist'] at hreplies hwindow
        rw [hleft', Nat.add_zero] at hwindow
        obtain ⟨⟨hvalid, -⟩, -⟩ := hreplies.use hid
        simp only [hres]
        cases hvalid with
        | data bytes short part all =>
          have hhead : (dataReply c.requestId bytes).headD 0 = fxpData := by
            rw [dataReply_eq]
            rfl
          have hcode : packetCode (dataReply c.requestId bytes) = bytes.length := by
            rw [dataReply_eq, packetCode_cons _ _ _ short]
          have hdrop : (dataReply c.requestId bytes).drop 9 = bytes := by
            rw [dataReply_eq, drop_nine]
          have hlen := length_dataReply c.requestId bytes
          rw [hhead, if_neg (by decide), if_pos rfl, hcode, hdrop]
          split
          · next hbad =>
            refine received_error fun hf => ?_
            obtain ⟨hlt, hbytes⟩ := all hf
            have hoffset := ((hwindow.placed hf).use hlt).1
            have hshort : bytes.length ≤ c.len := by
              rw [hbytes]
              exact List.length_take_le _ _
            omega
          · next hgood =>
            have hoffset : c.offset = r.state.offset := by omega
            have hshort : bytes.length ≤ c.len := by omega
            have htaken := hlive.takeData hfits hlist' hsent hleft' (hoffset ▸ part) hshort all hbuf
            rw [List.append_assoc] at htaken
            obtain ⟨-, hfill⟩ := overlap_add bufferSize buf.length bytes.length hbuf
            have hfilled : (buf ++
                bytes.take (overlap bufferSize buf.length bytes.length).1).length =
                min bufferSize (buf.length + bytes.length) := by
              rw [List.length_append, List.length_take]
              omega
            split
            · next hmore =>
              have hroom : ¬ bufferSize < buf.length + bytes.length := by omega
              refine ih htaken rfl ?_ hidle' (by omega) fun hf hnil => ?_
              · simp only [Pipeline.takeData, if_neg hroom, hleft']
              · -- all that was asked for is there, so the buffer is not empty
                obtain ⟨hlt, hbytes⟩ := all hf
                have hpos := (hwindow.chunks c List.mem_cons_self).len_pos
                have hlen' := congrArg List.length hbytes
                rw [List.length_take, List.length_drop] at hlen'
                rw [hnil, List.length_nil] at hfilled
                omega
            · next hfull =>
              split
              · next hne => exact received_buffer htaken hidle' hne
              · next hnil =>
                refine received_error fun hf => ?_
                have hpos := hsize hf
                rw [not_not.mp hnil, List.length_nil] at hfull
                omega
        | status code texts short ends =>
          have hhead : (statusReply c.requestId code texts).headD 0 = fxpStatus := by
            rw [statusReply_eq]
            rfl
          have hcode : packetCode (statusReply c.requestId code texts) = code := by
            rw [statusReply_eq, packetCode_cons _ _ _ short]
          rw [hhead, if_pos rfl, hcode]
          split
          · next heof =>
            refine ⟨fun out hout => .inr ?_, fun hagain => absurd hagain nofun,
              fun _ _ rc hrc => absurd hrc nofun⟩
            obtain rfl := Except.ok.inj hout
            exact hlive.finish hlist' hleft' hidle' fun hf => (ends hf).2
          · next hother => exact received_error fun hf => hother (ends hf).1
    · rw [if_pos hsent]
      split
      · next hne => exact received_buffer hl hidle hne
      · next hnil =>
        exact received_error fun hf => hsent ((hfirst hf (not_not.mp hnil)).2 c rfl)

/-- Receiving sends nothing. -/
theorem wire_receiveReads (bufferSize : Nat) (pause : Int) (cs : List PipelineChunk)
    (buf : List UInt8)
    (s : Pipeline) (arrivals : List (List UInt8)) :
    (receiveReads bufferSize pause cs buf s arrivals).state.wire = s.wire := by
  induction cs generalizing buf s arrivals with
  | nil =>
    unfold receiveReads
    split <;> rfl
  | cons c rest ih =>
    have hreq := Pipeline.wire_packetRequire [fxpData, fxpStatus] c.requestId pause s arrivals
    unfold receiveReads
    generalize Pipeline.packetRequire [fxpData, fxpStatus] c.requestId pause s arrivals =
      r at hreq ⊢
    split
    · split <;> rfl
    cases hres : r.result with
    | error rc =>
      simp only [hres]
      split
      · exact hreq
      split <;> exact hreq
    | ok data =>
      have hflush : ({ r.state with packetList := rest } : Pipeline).packetlistFlush.wire =
          s.wire := by
        rw [Pipeline.packetlistFlush_eq]
        exact hreq
      simp only [hres]
      split
      · split <;> exact hflush
      split
      · split
        · exact hreq
        split
        · exact (ih _ _ _).trans hreq
        split <;> exact hreq
      · exact hreq

end Receive

/-! ## Asking for more -/

section Request

variable {got : List UInt8} {answered : List Nat} {replies : List (List UInt8)} {bufferSize : Nat}
  {s : Pipeline}

/-- What making requests changes. -/
theorem requestReads_eq (h : RemoteHandle) (bufferSize allocs count : Nat) (s : Pipeline) :
    (requestReads h bufferSize allocs count s).2 =
      { s with
        requestId := (requestReads h bufferSize allocs count s).2.requestId
        offsetSent := (requestReads h bufferSize allocs count s).2.offsetSent
        packetList := (requestReads h bufferSize allocs count s).2.packetList } := by
  induction allocs generalizing count s with
  | zero => cases count <;> rfl
  | succ allocs ih =>
    cases count with
    | zero => rfl
    | succ count =>
      rw [requestReads, ih]
      rfl

/-- Nothing is taken off the list. -/
theorem packetList_requestReads (h : RemoteHandle) (bufferSize allocs count : Nat) (s : Pipeline) :
    s.packetList <+: (requestReads h bufferSize allocs count s).2.packetList := by
  induction allocs generalizing count s with
  | zero => cases count <;> exact List.prefix_refl _
  | succ allocs ih =>
    cases count with
    | zero => exact List.prefix_refl _
    | succ count =>
      rw [requestReads]
      exact (List.prefix_append s.packetList _).trans (ih _ (s.addRead h _))

/-- Where the size of the requests is no number of 32 bits but 0, the loop does not end before there
is no memory. -/
theorem requestReads_zero {count : Nat} (allocs : Nat) (hcount : 0 < count)
    (hzero : readSize bufferSize count = 0) :
    (requestReads h bufferSize allocs count s).1 ≠ none := by
  obtain ⟨count, rfl⟩ := Nat.exists_eq_add_one_of_ne_zero hcount.ne'
  induction allocs generalizing s with
  | zero => exact nofun
  | succ allocs ih =>
    rw [requestReads, hzero, Nat.sub_zero]
    exact ih

/-- **Making requests** keeps the window, and leaves none without a chunk. -/
theorem requestReads_live (bufferSize allocs count : Nat) (hfits : Fits full file start)
    (hl : Live full file h start got answered replies s)
    (hahead : count = 0 ∨ requestedBytes s.packetList + count ≤ maxReadAhead)
    (hnone : (requestReads h bufferSize allocs count s).1 = none) :
    Live full file h start got answered replies (requestReads h bufferSize allocs count s).2 ∧
      (0 < count → (requestReads h bufferSize allocs count s).2.packetList ≠ []) := by
  induction allocs generalizing count s with
  | zero =>
    cases count with
    | zero => exact ⟨hl, fun hpos => absurd hpos (Nat.lt_irrefl 0)⟩
    | succ count => exact absurd hnone nofun
  | succ allocs ih =>
    cases count with
    | zero => exact ⟨hl, fun hpos => absurd hpos (Nat.lt_irrefl 0)⟩
    | succ count =>
      have hsize : 0 < readSize bufferSize (count + 1) := by
        by_contra hzero
        exact requestReads_zero _ (Nat.succ_pos count) (Nat.eq_zero_of_not_pos hzero) hnone
      have hle : readSize bufferSize (count + 1) ≤ maxReadSize := Nat.min_le_right _ _
      have hroom := hahead.resolve_left (Nat.succ_ne_zero count)
      have hbytes : requestedBytes (s.addRead h (readSize bufferSize (count + 1))).packetList =
          requestedBytes s.packetList + readSize bufferSize (count + 1) := requestedBytes_concat
      have hadd := hl.addRead hfits hsize hle (by omega)
      have hmore := packetList_requestReads h bufferSize allocs
        (count + 1 - readSize bufferSize (count + 1))
        (s.addRead h (readSize bufferSize (count + 1)))
      rw [requestReads] at hnone ⊢
      refine ⟨(ih _ hadd (by omega) hnone).1, fun _ hnil => ?_⟩
      rw [hnil] at hmore
      exact List.append_ne_nil_of_right_ne_nil _ (List.cons_ne_nil _ _) (List.prefix_nil.mp hmore)

/-- The loop fails only where there is no memory. -/
theorem requestReads_error (h : RemoteHandle) (bufferSize allocs count : Nat) (s : Pipeline) :
    ∀ rc ∈ (requestReads h bufferSize allocs count s).1, rc = ErrorCode.alloc.value := by
  induction allocs generalizing count s with
  | zero => cases count <;> simp [requestReads]
  | succ allocs ih =>
    cases count with
    | zero => simp [requestReads]
    | succ count =>
      rw [requestReads]
      exact ih _ _

/-- There is memory enough for the requests of a call. -/
theorem requestReads_none {allocs count : Nat} (hsize : bufferSize < 2 ^ 32)
    (hcount : count < 2 ^ 32)
    (hallocs : count ≤ maxReadSize * allocs) :
    (requestReads h bufferSize allocs count s).1 = none := by
  induction allocs generalizing count s with
  | zero =>
    obtain rfl : count = 0 := by omega
    rfl
  | succ allocs ih =>
    cases count with
    | zero => rfl
    | succ count =>
      rw [requestReads]
      rw [Nat.mul_succ] at hallocs
      refine ih (by omega) ?_
      unfold readSize
      split <;> omega

end Request

/-! ## Calls -/

/-- What holds between the calls. -/
def Reading (full : Prop) (file : List UInt8) (h : RemoteHandle) (start : Nat) (got : List UInt8)
    (answered : List Nat) (inflight : List (List UInt8)) (s : Pipeline) : Prop :=
  Live full file h start got answered (s.replies inflight) s ∧ Waiting s ∨
    AtEnd full file start got s

/-- What a call comes to; `later` are the answers that arrive after it. -/
structure ReadCalled (full : Prop) (file : List UInt8) (h : RemoteHandle) (start : Nat)
    (got : List UInt8) (answered : List Nat) (env : PipelineEnv) (later : List (List UInt8))
    (r : PipelineResult (List UInt8)) : Prop where
  ok : ∀ out, r.result = .ok out →
    Reading full file h start (got ++ out) answered (r.arrivals ++ later) r.state
  again : r.result = .error eagain →
    Live full file h start got answered (r.state.replies (r.arrivals ++ later)) r.state ∧
    Waiting r.state
  missing : r.result = .error eagain → env.adjust = 0 → TakesAll env → r.state.Missing r.arrivals
  error : full → ∀ rc, r.result = .error rc → rc = eagain
  last : full → r.result = .ok [] → AtEnd full file start got r.state

section Call

variable {got : List UInt8} {answered : List Nat} {replies later : List (List UInt8)}
    {bufferSize : Nat}
  {s : Pipeline} {sys : RemoteFile} {i : PipelineCall}

theorem Waiting.of_idle (hidle : s.readState = .idle) : Waiting s := by
  refine ⟨fun hbusy => absurd hidle hbusy, fun hsent => ?_⟩
  rw [hidle] at hsent
  exact absurd hsent nofun

/-- The state of the call does not matter. -/
theorem Live.turn (hl : Live full file h start got answered replies s) (readState : PipelineState)
    (lastErrno : Nat) :
    Live full file h start got answered replies
      { s with readState := readState, lastErrno := lastErrno } :=
  ⟨hl.eof, ⟨hl.filed.ids, hl.filed.zombies⟩, hl.position, hl.window, hl.chunks⟩

/-- The server answers, and some of the answers arrive during the call. -/
theorem Live.arrive (hl : Live full file h start got sys.answered (s.replies sys.inflight) s)
    (hmoves : Answers (readServer full file) (frames s.wire) sys.answered i.answers) :
    Live full file h start got (sys.answered ++ i.answers.map Prod.fst)
      (s.replies (sys.env i).arrivals ++ (sys.pool i).drop i.arrive) s := by
  rw [Pipeline.replies_pool]
  exact hl.answer hmoves

/-- A call that returns before it has received anything. -/
theorem Live.called {r : PipelineResult (List UInt8)} {env : PipelineEnv} {out : List UInt8}
    (hl : Live full file h start (got ++ out) answered
      (r.state.replies r.arrivals ++ later) r.state)
    (hresult : r.result = .ok out ∧ (full → out ≠ []) ∨
      ∃ rc, r.result = .error rc ∧ out = [] ∧ (full → rc = eagain) ∧
      (env.adjust = 0 → ¬ TakesAll env))
    (hwaiting : Waiting r.state) : ReadCalled full file h start got answered env later r := by
  rw [← Pipeline.replies_append] at hl
  rcases hresult with ⟨hok, hne⟩ | ⟨rc, herror, rfl, hrc, hstop⟩
  · refine ⟨fun out' hout => ?_, fun hagain => ?_, fun hagain => ?_, fun _ rc hrc => ?_,
      fun hf hlast => ?_⟩
    · obtain rfl : out = out' := Except.ok.inj (hok.symm.trans hout)
      exact .inl ⟨hl, hwaiting⟩
    · exact absurd (hok.symm.trans hagain) nofun
    · exact absurd (hok.symm.trans hagain) nofun
    · exact absurd (hok.symm.trans hrc) nofun
    · exact absurd (Except.ok.inj (hok.symm.trans hlast)) (hne hf)
  · rw [List.append_nil] at hl
    refine ⟨fun out' hout => ?_, fun _ => ⟨hl, hwaiting⟩, fun _ hadjust htakes => ?_,
      fun hf rc' hrc' => ?_, fun _ hlast => ?_⟩
    · exact absurd (herror.symm.trans hout) nofun
    · exact absurd htakes (hstop hadjust)
    · exact Except.error.inj (herror.symm.trans hrc') ▸ hrc hf
    · exact absurd (herror.symm.trans hlast) nofun

/-- **The third phase.** -/
theorem readSent2_spec (hfits : Fits full file start) (hclean : full → CleanRead bufferSize i.env)
    (hl : Live full file h start got answered (s.replies (sys.env i).arrivals ++ later) s)
    (hleft : s.dataLeft = 0)
    (hfirst : full → s.packetList ≠ [] ∧ ∀ c ∈ s.packetList.head?, c.lefttosend = 0) :
    ReadCalled full file h start got answered i.env later (readSent2 bufferSize (sys.env i) s) := by
  have hturn := hl.turn .idle s.lastErrno
  rw [← List.append_nil got] at hturn
  have hreceived : Received full file h start got answered later (sys.env i).pause
      (readSent2 bufferSize (sys.env i) s) := by
    unfold readSent2
    exact receiveReads_spec hfits (fun hf => (hclean hf).size_pos) hturn rfl hleft rfl
      (Nat.zero_le bufferSize) fun hf _ => hfirst hf
  obtain ⟨hok, hagain, herror⟩ := hreceived
  refine ⟨fun out hout => ?_, fun hout => ?_, fun hout _ _ => (hagain hout).2.2,
    fun hf => herror hf (hclean hf).pause, fun hf hout => ?_⟩
  · rcases hok out hout with ⟨hlive, hidle, -⟩ | hend
    · refine .inl ⟨?_, .of_idle hidle⟩
      rwa [Pipeline.replies_append]
    · exact .inr hend
  · obtain ⟨hlive, hwaiting, -⟩ := hagain hout
    refine ⟨?_, hwaiting⟩
    rwa [Pipeline.replies_append]
  · rcases hok [] hout with ⟨-, -, hne⟩ | hend
    · exact absurd rfl hne
    · rwa [List.append_nil] at hend

/-- **The second phase.** -/
theorem readSent_spec (hfits : Fits full file start) (hclean : full → CleanRead bufferSize i.env)
    (hl : Live full file h start got sys.answered (s.replies sys.inflight) s)
    (hleft : s.dataLeft = 0)
    (hchunks : full → s.packetList ≠ [])
    (hmoves : Answers (readServer full file) (frames (readSent bufferSize (sys.env i) s).state.wire)
      sys.answered i.answers) :
    ReadCalled full file h start got (sys.answered ++ i.answers.map Prod.fst) i.env
      ((sys.pool i).drop i.arrive) (readSent bufferSize (sys.env i) s) := by
  have hsend := hl.send true (sys.env i).stall (sys.env i).writes
  obtain ⟨gone, hwire, -⟩ := hl.chunks
  obtain ⟨-, hadv, hfirst, hstall⟩ :=
    @sendChunks_spec _ _ _ true (sys.env i).stall (sys.env i).writes
    hwire
  have hnil : (sendChunks true (sys.env i).stall s.packetList (sys.env i).writes s.wire).chunks =
      [] → s.packetList = [] := by
    intro hnil
    rw [hnil] at hadv
    exact List.forall₂_nil_right_iff.mp hadv
  have hnone : s.packetList = [] →
      (sendChunks true (sys.env i).stall s.packetList (sys.env i).writes s.wire).rc = none := by
    intro hnil
    rw [hnil]
    rfl
  have hall (htakes : TakesAll i.env) :
      (sendChunks true (sys.env i).stall s.packetList (sys.env i).writes s.wire).rc = none :=
    @Live.send_none _ _ _ _ _ _ _ _ hl (sys.env i) htakes true (sys.env i).stall
  unfold readSent at hmoves ⊢
  generalize sendChunks true (sys.env i).stall s.packetList (sys.env i).writes s.wire = r at *
  cases hrc : r.rc with
  | some rc =>
    simp only [hrc] at hmoves ⊢
    have harrive :=
      Live.arrive (s := { s with packetList := r.chunks, wire := r.wire }) hsend hmoves
    rw [← List.append_nil got] at harrive
    refine (harrive.turn .sent s.lastErrno).called (.inr ⟨rc, rfl, rfl, fun hf => ?_,
      fun _ htakes => ?_⟩)
      ⟨fun _ => ⟨hleft, fun hnil' => ?_⟩, nofun⟩
    · rw [hstall rc hrc]
      exact (hclean hf).stall
    · exact absurd (hrc.symm.trans (hall htakes)) nofun
    · have hno := hnone (hnil hnil')
      rw [hrc] at hno
      exact absurd hno nofun
  | none =>
    simp only [hrc] at hmoves ⊢
    rw [readSent2, wire_receiveReads] at hmoves
    have harrive :=
      Live.arrive (s := { s with packetList := r.chunks, wire := r.wire }) hsend hmoves
    refine readSent2_spec hfits hclean harrive hleft fun hf => ⟨?_, hfirst hrc rfl⟩
    exact fun hnil' => hchunks hf (hnil hnil')

/-- **What is left of the last packet** is returned. -/
theorem Live.takeLeft (hfits : Fits full file start)
    (hl : Live full file h start got answered replies s) (bufferSize : Nat) :
    Live full file h start (got ++ (s.takeLeft bufferSize).1) answered replies
      (s.takeLeft bufferSize).2 := by
  have hle := hl.position.left_le
  have hk : min bufferSize s.dataLeft ≤ (s.data.drop (s.data.length - s.dataLeft)).length := by
    rw [List.length_drop]
    omega
  have hposition : Position file start (got ++ (s.takeLeft bufferSize).1)
      (s.takeLeft bufferSize).2.offset (s.takeLeft bufferSize).2.data
      (s.takeLeft bufferSize).2.dataLeft := by
    refine hl.position.take hfits hl.position.left_part hk ?_ ?_ <;> simp only [Pipeline.takeLeft]
    · split
      · next hzero => exact hzero.le
      · exact (Nat.sub_le _ _).trans hle
    · rw [List.drop_drop]
      split
      · rw [List.drop_nil, List.drop_of_length_le (by omega)]
      · congr 1
        omega
  have hsum : (s.takeLeft bufferSize).2.offset + (s.takeLeft bufferSize).2.dataLeft =
      s.offset + s.dataLeft := by
    have hoffset := hposition.offset_eq
    have hstart := hl.position.offset_eq
    simp only [Pipeline.takeLeft, List.length_append, List.length_take_of_le hk] at hoffset ⊢
    omega
  refine ⟨hl.eof, ⟨hl.filed.ids, hl.filed.zombies⟩, hposition, ?_, hl.chunks⟩
  rw [hsum]
  exact hl.window

/-- The bytes that are asked for and have not been returned. -/
theorem Live.already (hfits : Fits full file start)
    (hl : Live full file h start got answered replies s) (hleft : s.dataLeft = 0) :
    toSize ((s.offsetSent : Int) - s.offset) = requestedBytes s.packetList := by
  have hlt := hl.position.offset_lt hfits
  have hsent := hl.window.sent_eq
  have hahead := hl.window.ahead
  have hmax : maxReadAhead + maxReadSize = 8418608 := rfl
  rw [hleft, Nat.add_zero] at hsent
  rw [hsent]
  unfold toSize
  omega

theorem readAhead_pos (hpos : 0 < bufferSize) (hlt : bufferSize < 2 ^ 32) :
    0 < readAhead bufferSize := by
  unfold readAhead toSize maxReadAhead
  omega

/-- **The first phase.** -/
theorem readIdle_spec (hfits : Fits full file start) (hclean : full → CleanRead bufferSize i.env)
    (hl : Live full file h start got sys.answered (s.replies sys.inflight) s)
    (hidle : s.readState = .idle)
    (hmoves : Answers (readServer full file)
      (frames (readIdle h bufferSize (sys.env i) s).state.wire) sys.answered i.answers) :
    ReadCalled full file h start got (sys.answered ++ i.answers.map Prod.fst) i.env
      ((sys.pool i).drop i.arrive) (readIdle h bufferSize (sys.env i) s) := by
  unfold readIdle at hmoves ⊢
  by_cases hleft : s.dataLeft = 0
  · rw [if_neg (not_not_intro hleft), if_neg (by simp [hl.eof])] at hmoves ⊢
    split at hmoves
    · next hwindow =>
      rw [if_pos hwindow]
      have harrive := hl.arrive hmoves
      rw [← List.append_nil got] at harrive
      refine harrive.called (.inr ⟨_, rfl, rfl, fun hf => ?_, fun hadjust => ?_⟩) (.of_idle hidle)
      · exact (hclean hf).adjust.resolve_left hwindow.2
      · exact absurd hadjust hwindow.2
    · next hwindow =>
      rw [if_neg hwindow]
      have hahead : readAhead bufferSize ≤ maxReadAhead := Nat.min_le_right _ _
      rw [hl.already hfits hleft] at hmoves ⊢
      have hmax : maxReadAhead < 2 ^ 32 := by decide
      have hlive := requestReads_live bufferSize (sys.env i).allocs
        (readAhead bufferSize - requestedBytes s.packetList) hfits hl (by omega)
      have herror := requestReads_error h bufferSize (sys.env i).allocs
        (readAhead bufferSize - requestedBytes s.packetList) s
      have hnone (hf : full) : (requestReads h bufferSize (sys.env i).allocs
          (readAhead bufferSize - requestedBytes s.packetList) s).1 = none :=
        requestReads_none (hclean hf).size_lt (by omega)
          (((Nat.sub_le _ _).trans hahead).trans (hclean hf).allocs)
      have hmore := packetList_requestReads h bufferSize (sys.env i).allocs
        (readAhead bufferSize - requestedBytes s.packetList) s
      have hrequests := requestReads_eq h bufferSize (sys.env i).allocs
        (readAhead bufferSize - requestedBytes s.packetList) s
      cases hreq : requestReads h bufferSize (sys.env i).allocs
          (readAhead bufferSize - requestedBytes s.packetList) s with
      | mk rc s' =>
        simp only [hreq] at hmoves hlive herror hnone hmore hrequests ⊢
        cases rc with
        | some rc =>
          have hrc : rc ≠ eagain := by
            rw [herror rc rfl]
            decide
          exact ⟨fun out hout => absurd hout nofun,
            fun hagain => absurd (Except.error.inj hagain) hrc,
            fun hagain => absurd (Except.error.inj hagain) hrc, fun hf => absurd (hnone hf) nofun,
            fun _ hlast => absurd hlast nofun⟩
        | none =>
          obtain ⟨hlive, hsome⟩ := hlive rfl
          have hreplies : s.replies sys.inflight = s'.replies sys.inflight := by
            rw [hrequests]
            rfl
          have hleft' : s'.dataLeft = 0 := by
            rw [hrequests]
            exact hleft
          rw [hreplies] at hlive
          refine readSent_spec hfits hclean hlive hleft' (fun hf hnil => ?_) hmoves
          rw [hnil] at hmore
          have hnone' : requestedBytes s.packetList = 0 := by
            rw [List.prefix_nil.mp hmore]
            rfl
          have hpos := readAhead_pos (hclean hf).size_pos (hclean hf).size_lt
          exact hsome (by omega) hnil
  · rw [if_pos hleft] at hmoves ⊢
    have harrive := (hl.takeLeft hfits bufferSize).arrive hmoves
    refine harrive.called (.inl ⟨rfl, fun hf hnil => ?_⟩) (.of_idle hidle)
    have hpos := (hclean hf).size_pos
    have hle := hl.position.left_le
    have hlen := congrArg List.length hnil
    simp only [Pipeline.takeLeft, List.length_take, List.length_drop, List.length_nil] at hlen
    omega

/-- Nothing comes behind the end of the file. -/
theorem AtEnd.sftpRead (hend : AtEnd full file start got s) (h : RemoteHandle)
    (bufferSize : Nat) (env : PipelineEnv) :
    (sftpRead h bufferSize env s).result = .ok [] ∧
      AtEnd full file start got (sftpRead h bufferSize env s).state := by
  obtain ⟨heof, hidle, hleft, hposition, hends⟩ := hend
  have hcall : Ssh2Python.sftpRead h bufferSize env s =
      ⟨.ok [], { s with readState := .idle, lastErrno := 0 }, env.arrivals⟩ := by
    simp only [Ssh2Python.sftpRead, readIdle, hidle, hleft, heof, ne_eq, not_true_eq_false,
      if_false, if_true]
  rw [hcall]
  exact ⟨rfl, heof, rfl, hleft, hposition, hends⟩

/-- **A call of `sftp_read`**, whatever the server answers and whenever the answers arrive. -/
theorem sftpRead_spec (hfits : Fits full file start) (hclean : full → CleanRead bufferSize i.env)
    (hreading : Reading full file h start got sys.answered sys.inflight sys.client)
    (hmoves : Answers (readServer full file)
      (frames (sftpRead h bufferSize (sys.env i) sys.client).state.wire) sys.answered i.answers) :
    ReadCalled full file h start got (sys.answered ++ i.answers.map Prod.fst) i.env
      ((sys.pool i).drop i.arrive) (sftpRead h bufferSize (sys.env i) sys.client) := by
  rcases hreading with ⟨hl, hwaiting⟩ | hend
  · unfold sftpRead at hmoves ⊢
    cases hstate : sys.client.readState with
    | idle =>
      simp only [hstate] at hmoves ⊢
      exact readIdle_spec hfits hclean (hl.turn .idle 0) rfl hmoves
    | sent =>
      simp only [hstate] at hmoves ⊢
      obtain ⟨hleft, hchunks⟩ := hwaiting.busy (by rw [hstate]; exact nofun)
      exact readSent_spec hfits hclean hl hleft (fun _ => hchunks) hmoves
    | sent2 =>
      simp only [hstate] at hmoves ⊢
      obtain ⟨hleft, hchunks⟩ := hwaiting.busy (by rw [hstate]; exact nofun)
      rw [readSent2, wire_receiveReads] at hmoves
      exact readSent2_spec hfits hclean (hl.arrive hmoves) hleft
        fun _ => ⟨hchunks, hwaiting.first hstate⟩
  · obtain ⟨hres, hstate⟩ := hend.sftpRead h bufferSize (sys.env i)
    refine ⟨fun out hout => .inr ?_, fun hagain => absurd (hres.symm.trans hagain) nofun,
      fun hagain => absurd (hres.symm.trans hagain) nofun,
      fun _ rc hrc => absurd (hres.symm.trans hrc) nofun, fun _ _ => hstate⟩
    obtain rfl : [] = out := Except.ok.inj (hres.symm.trans hout)
    rwa [List.append_nil]

end Call

end Ssh2Python
