import Ssh2Python.Verify.WriteCalls

/-!
# Runs of `sftp_write`

`writingRun_stored` says that the bytes a program takes for written are in the file,
`writingRun_whole` that nothing else is changed when all of them are, and `writingRun_end` that it
comes to that.
-/

namespace Ssh2Python

open Lib.CInt Lib.Wire Lib.Patch

variable {prompt : Prop} {h : RemoteHandle} {data init file : List UInt8} {start count : Nat}
  {sys last : WriteSystem} {results : List (Except Int Nat)} {i : PipelineCall}

/-- What holds between the calls. -/
def Writes (h : RemoteHandle) (data init : List UInt8) (start : Nat) (sys : WriteSystem) : Prop :=
  Writing h data init start (sys.written + sys.remote.client.acked) sys.remote.answered
    (sys.remote.client.replies sys.remote.inflight) sys.file sys.remote.client

/-- A client that starts to write to a file. -/
def WriteSystem.opened (start requestId : Nat) (file : List UInt8) : WriteSystem where
  remote := .opened start requestId
  file := file

theorem writes_opened {requestId : Nat} (hid : requestId < 2 ^ 32) :
    Writes h data init start (.opened start requestId init) := by
  refine ⟨⟨by simp [WriteSystem.opened, RemoteFile.opened], rfl⟩, rfl, rfl, Nat.zero_le _,
    Nat.two_pow_pos 32,
    ⟨requestId, rfl, ?_⟩, trivial, ⟨[], ?_, ?_⟩, .refl init data start, fun j hj => ?_⟩
  · simp only [WriteSystem.opened, RemoteFile.opened, List.length_nil, Nat.add_zero]
    rw [Nat.mod_eq_of_lt hid]
  · exact ⟨rfl, by simp, by simp [WriteSystem.opened, RemoteFile.opened], .nil⟩
  · refine ⟨?_, rfl⟩
    exact ⟨by simp [WriteSystem.opened, RemoteFile.opened, Pipeline.replies], .nil, .nil, by simp,
      by simp [WriteSystem.opened, RemoteFile.opened],
      by simp [WriteSystem.opened, RemoteFile.opened]⟩
  · exact absurd hj (Nat.not_lt_zero j)

/-- **A call** that does not report that a request was not carried out. -/
theorem Writes.call (hfits : start + data.length < 2 ^ 64) (hw : Writes h data init start sys)
    (hcount : count < 2 ^ 32)
    (hmoves : Answers writeServer (frames (sys.call h data i count).state.wire) sys.remote.answered
      i.answers)
    (hstored : Stored (frames (sys.call h data i count).state.wire) i.answers sys.file file)
    (hok : (sys.call h data i count).result ≠ .error ErrorCode.sftpProtocol.value) :
    Writes h data init start (sys.after i file (sys.call h data i count)) := by
  have hlen : ((data.drop sys.written).take count).length < 2 ^ 32 :=
    (List.length_take_le _ _).trans_lt hcount
  exact sftpWrite_spec hfits hw (List.take_prefix _ _) hlen hmoves hstored hok

/-- **A run**, by induction on its calls. -/
theorem WritingRun.writes (hfits : start + data.length < 2 ^ 64)
    (hrun : WritingRun prompt h data sys results last) (hw : Writes h data init start sys)
    (hok : .error ErrorCode.sftpProtocol.value ∉ results) : Writes h data init start last := by
  induction hrun with
  | nil sys => exact hw
  | call i count short answers stored soon run ih =>
    rw [List.mem_cons, not_or] at hok
    exact ih (hw.call hfits short answers stored (Ne.symm hok.1)) hok.2

theorem Writes.stored (hw : Writes h data init start sys) :
    sys.written ≤ data.length ∧
      (sys.file.drop start).take sys.written = data.take sys.written ∧
      Patched 0 init start data sys.file := by
  have hwithin := hw.within
  refine ⟨by omega, List.ext_getElem? fun j => ?_, hw.patched⟩
  rcases Nat.lt_or_ge j sys.written with hlt | hge
  · rw [List.getElem?_take_of_lt hlt, List.getElem?_take_of_lt hlt, List.getElem?_drop]
    exact Writing.stored hw j (by omega)
  · rw [List.getElem?_eq_none (by rw [List.length_take]; omega),
      List.getElem?_eq_none (by rw [List.length_take]; omega)]

theorem Writes.whole (hw : Writes h data init start sys) (hne : data ≠ [])
    (hall : sys.written = data.length) : sys.file = writeAt 0 init start data :=
  hw.patched.eq_writeAt hne fun j hj => Writing.stored hw j (by omega)

/-- **What was written is there.** Whatever calls had to wait or failed for want of memory or of a
channel, and in whatever order the server carried out the requests: unless a call reported that one
was not carried out, the bytes that the program takes for written are in the file, and every other
byte is an old one, one of the program's at its place, or a zero behind the old end. -/
theorem writingRun_stored {requestId : Nat} (hfits : start + data.length < 2 ^ 64)
    (hid : requestId < 2 ^ 32)
    (hrun : WritingRun prompt h data (.opened start requestId init) results last)
    (hok : .error ErrorCode.sftpProtocol.value ∉ results) :
    last.written ≤ data.length ∧
      (last.file.drop start).take last.written = data.take last.written ∧
      Patched 0 init start data last.file :=
  (hrun.writes hfits (writes_opened hid) hok).stored

theorem WritingRun.cons {r : Except Int Nat} (i : PipelineCall) (count : Nat)
    (hcount : count < 2 ^ 32)
    (hmoves : Answers writeServer (frames (sys.call h data i count).state.wire) sys.remote.answered
      i.answers)
    (hstored : Stored (frames (sys.call h data i count).state.wire) i.answers sys.file file)
    (hsoon : prompt → PromptWrite data sys.remote i count (sys.call h data i count).state.wire)
    (hres : (sys.call h data i count).result = r)
    (hrun : WritingRun prompt h data (sys.after i file (sys.call h data i count)) results last) :
    WritingRun prompt h data sys (r :: results) last :=
  hres ▸ .call i count hcount hmoves hstored hsoon hrun

/-- A server that has read a request of a client, and says that it has done what it asks for. -/
theorem writeServer_of {requestId offset : Nat} {bytes : List UInt8} (h : RemoteHandle)
    (hid : requestId < 2 ^ 32) (hoffset : offset < 2 ^ 64) (hshort : bytes.length < 2 ^ 32) :
    writeServer (writeMessage h requestId offset bytes) (statusReply requestId 0 []) := by
  rw [writeServer, decodeRequest_writeMessage h hid hoffset hshort]
  exact ⟨rfl, 0, [], by decide, rfl⟩

/-- A call that has to wait for an answer, which comes during the next one. -/
theorem writingRun_sample :
    ∃ last, WritingRun False sampleHandle [1, 2, 3] (.opened 1 0 [9, 9, 9, 9, 9])
    [.error eagain, .ok 2, .ok 1] last ∧ last.written = 3 ∧ last.file = [9, 1, 2, 3, 9] ∧
      frames last.remote.client.wire =
        [writeMessage sampleHandle 0 1 [1, 2], writeMessage sampleHandle 1 3 [3]] := by
  have hfirst : writeServer (writeMessage sampleHandle 0 1 [1, 2]) (statusReply 0 0 []) :=
    writeServer_of sampleHandle (by decide) (by decide) (by decide)
  have hsecond : writeServer (writeMessage sampleHandle 1 3 [3]) (statusReply 1 0 []) :=
    writeServer_of sampleHandle (by decide) (by decide) (by decide)
  refine ⟨_, .cons (sampleCall []) 2 (by decide) trivial (.nil _) nofun (by decide)
    (.cons (sampleCall [(0, statusReply 0 0 [])]) 3 (by decide)
      ⟨by decide, ⟨_, by decide, hfirst⟩, trivial⟩
      (.cons 2 (m := writeMessage sampleHandle 0 1 [1, 2]) (by decide) (by decide) (.nil _)) nofun
        (by decide)
      (.cons (sampleCall [(1, statusReply 1 0 [])]) 3 (by decide)
        ⟨by decide, ⟨_, by decide, hsecond⟩, trivial⟩
        (.cons 1 (m := writeMessage sampleHandle 1 3 [3]) (by decide) (by decide) (.nil _)) nofun
          (by decide)
        (.nil _))), by decide, by decide, by decide⟩

theorem writingRun_stored_sample :
    3 ≤ ([1, 2, 3] : List UInt8).length ∧
      (([9, 1, 2, 3, 9] : List UInt8).drop 1).take 3 = ([1, 2, 3] : List UInt8).take 3 ∧
      Patched 0 ([9, 9, 9, 9, 9] : List UInt8) 1 [1, 2, 3] [9, 1, 2, 3, 9] := by
  obtain ⟨last, hrun, hwritten, hfile, -⟩ := writingRun_sample
  have hstored := writingRun_stored (by decide) (by decide) hrun (by decide)
  rwa [hwritten, hfile] at hstored

/-- **Each byte once.** The requests that the server has been sent write the data from its start on,
one piece after the other, whatever the channel took of them at a time. -/
theorem writingRun_sent {requestId : Nat} (hfits : start + data.length < 2 ^ 64)
    (hid : requestId < 2 ^ 32)
    (hrun : WritingRun prompt h data (.opened start requestId init) results last)
    (hok : .error ErrorCode.sftpProtocol.value ∉ results) :
    (frames last.remote.client.wire).flatMap requestBytes <+: data := by
  have hw := hrun.writes hfits (writes_opened hid) hok
  obtain ⟨gone, hwire, -, hgone⟩ := hw.chunks
  rw [hwire.frames_eq, List.flatMap_append, hgone]
  conv_rhs => rw [← List.take_append_drop (last.written + last.remote.client.acked) data]
  exact (List.prefix_append_right_inj _).mpr (hw.pieces.sent hfits hwire)

theorem writingRun_sent_sample :
    [writeMessage sampleHandle 0 1 [1, 2],
      writeMessage sampleHandle 1 3 [3]].flatMap requestBytes <+:
      [1, 2, 3] := by
  obtain ⟨last, hrun, -, -, hwire⟩ := writingRun_sample
  rw [← hwire]
  exact writingRun_sent (by decide) (by decide) hrun (by decide)

/-- **All in one piece.** When all bytes are written, the file is what one write makes of it. -/
theorem writingRun_whole {requestId : Nat} (hfits : start + data.length < 2 ^ 64)
    (hid : requestId < 2 ^ 32) (hne : data ≠ [])
    (hrun : WritingRun prompt h data (.opened start requestId init) results last)
    (hok : .error ErrorCode.sftpProtocol.value ∉ results) (hall : last.written = data.length) :
    last.file = writeAt 0 init start data :=
  (hrun.writes hfits (writes_opened hid) hok).whole hne hall

theorem writingRun_whole_sample :
    ([9, 1, 2, 3, 9] : List UInt8) = writeAt 0 [9, 9, 9, 9, 9] 1 [1, 2, 3] := by
  obtain ⟨last, hrun, hwritten, hfile, -⟩ := writingRun_sample
  rw [← hfile]
  exact writingRun_whole (by decide) (by decide) (by decide) hrun (by decide) hwritten

/-- Nothing has failed and no call waits. -/
structure Prompt (sys : WriteSystem) : Prop where
  state : sys.remote.client.writeState ≠ .sent
  good : AllGood (sys.remote.client.replies sys.remote.inflight)

/-- A call that does not have to wait. -/
theorem Writes.done (hfits : start + data.length < 2 ^ 64) (hw : Writes h data init start sys)
    (hprompt : Prompt sys) (hcount : count < 2 ^ 32)
    (hmoves : Answers writeServer (frames (sys.call h data i count).state.wire) sys.remote.answered
      i.answers)
    (hstored : Stored (frames (sys.call h data i count).state.wire) i.answers sys.file file)
    (hsoon : PromptWrite data sys.remote i count (sys.call h data i count).state.wire) :
    WriteDone (sys.written < data.length) ((sys.remote.pool i).drop i.arrive)
      (sys.call h data i count) := by
  unfold WriteSystem.call sftpWrite at hmoves hstored hsoon ⊢
  rw [if_neg hprompt.state] at hmoves hstored hsoon ⊢
  exact writeIdle_done hfits (hw.turn .idle 0 sys.remote.client.acked) rfl hcount hprompt.good hsoon
    hmoves hstored

/-- Every call that does not have to wait brings the end nearer. -/
theorem WritingRun.grows (hfits : start + data.length < 2 ^ 64)
    (hrun : WritingRun prompt h data sys results last) (hw : Writes h data init start sys)
    (hprompt : Prompt sys) (hsoon : prompt) :
    (∀ rc, .error rc ∉ results) ∧ min data.length (sys.written + results.length) ≤
      last.written := by
  induction hrun with
  | nil sys => exact ⟨by simp, Nat.min_le_right _ _⟩
  | @call sys last results i count file short answers stored soon run ih =>
    obtain ⟨⟨n, hn, hmore⟩, hstate, hgood⟩ :=
      hw.done hfits hprompt short answers stored (soon hsoon)
    have hok : (sys.call h data i count).result ≠ .error ErrorCode.sftpProtocol.value := by
      simp [hn]
    have hnext := hw.call hfits short answers stored hok
    have hwithin := hnext.within
    have hwritten : (sys.after i file (sys.call h data i count)).written = sys.written + n := by
      simp only [WriteSystem.after, hn, Except.toOption, Option.getD_some]
    obtain ⟨hnone, hle⟩ := ih hnext ⟨hstate, hgood⟩
    refine ⟨fun rc hrc => ?_, ?_⟩
    · rcases List.mem_cons.mp hrc with hrc | hrc
      · simp [hn] at hrc
      · exact hnone rc hrc
    · rw [hwritten] at hle hwithin
      rw [List.length_cons]
      omega

/-- **Writing comes to its end.** Where no call has to wait and all requests are carried out, there
are not more calls than bytes before the file is what one write makes of it, and none of them
fails. -/
theorem writingRun_end {requestId : Nat} (hfits : start + data.length < 2 ^ 64)
    (hid : requestId < 2 ^ 32) (hne : data ≠ [])
    (hrun : WritingRun True h data (.opened start requestId init) results last) :
    (∀ rc, .error rc ∉ results) ∧ (data.length ≤ results.length →
      last.written = data.length ∧ last.file = writeAt 0 init start data) := by
  have hopened := @writes_opened h data init start requestId hid
  have hprompt : Prompt (.opened start requestId init) :=
    ⟨nofun, by simp [AllGood, WriteSystem.opened, RemoteFile.opened, Pipeline.replies]⟩
  obtain ⟨hnone, hle⟩ := hrun.grows hfits hopened hprompt trivial
  have hlast := hrun.writes hfits hopened (hnone _)
  refine ⟨hnone, fun hmany => ?_⟩
  have hall : last.written = data.length := by
    have hmost := hlast.stored.1
    simp only [WriteSystem.opened] at hle
    omega
  exact ⟨hall, hlast.whole hne hall⟩

/-- Three calls, the last one with nothing left to write. -/
theorem writingRun_prompt :
    ∃ last, WritingRun True sampleHandle [1, 2, 3] (.opened 1 0 [9, 9, 9, 9, 9])
    [.ok 2, .ok 1, .ok 0] last ∧ last.file = [9, 1, 2, 3, 9] := by
  have hfirst : writeServer (writeMessage sampleHandle 0 1 [1, 2]) (statusReply 0 0 []) :=
    writeServer_of sampleHandle (by decide) (by decide) (by decide)
  have hsecond : writeServer (writeMessage sampleHandle 1 3 [3]) (statusReply 1 0 []) :=
    writeServer_of sampleHandle (by decide) (by decide) (by decide)
  have hlarge (answers : List (Nat × List UInt8)) :
      3 ≤ (sampleCall answers).env.writes.length ∧
        ∀ n ∈ (sampleCall answers).env.writes, 4092 + 25 + maxOutgoingSize ≤ n := by
    refine ⟨List.length_replicate.ge.trans' (by decide), fun n hn => ?_⟩
    rw [List.eq_of_mem_replicate hn]
    decide
  refine ⟨_, .cons (sampleCall [(0, statusReply 0 0 [])]) 2 (by decide)
    ⟨by decide, ⟨_, by decide, hfirst⟩, trivial⟩
    (.cons 2 (m := writeMessage sampleHandle 0 1 [1, 2]) (by decide) (by decide) (.nil _))
    (fun _ => ⟨by decide, by decide, (hlarge _).1, (hlarge _).2, by decide, by decide, by decide⟩)
    (by decide)
    (.cons (sampleCall [(1, statusReply 1 0 [])]) 5 (by decide)
      ⟨by decide, ⟨_, by decide, hsecond⟩, trivial⟩
      (.cons 1 (m := writeMessage sampleHandle 1 3 [3]) (by decide) (by decide) (.nil _))
      (fun _ => ⟨by decide, by decide, (hlarge _).1, (hlarge _).2, by decide, by decide, by decide⟩)
      (by decide)
      (.cons (sampleCall []) 5 (by decide) trivial (.nil _)
        (fun _ => ⟨by decide, by decide, (hlarge _).1,
          (hlarge _).2, by decide, by decide, by decide⟩)
        (by decide) (.nil _))), by decide⟩

theorem writingRun_end_sample :
    (∀ rc, .error rc ∉ ([.ok 2, .ok 1, .ok 0] : List (Except Int Nat))) ∧
      ([9, 1, 2, 3, 9] : List UInt8) = writeAt 0 [9, 9, 9, 9, 9] 1 [1, 2, 3] := by
  obtain ⟨last, hrun, hfile⟩ := writingRun_prompt
  obtain ⟨hnone, hends⟩ := writingRun_end (by decide) (by decide) (by decide) hrun
  exact ⟨hnone, hfile ▸ (hends (by decide)).2⟩

end Ssh2Python
