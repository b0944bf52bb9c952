import Ssh2Python.Verify.ReadCalls

/-!
# Runs of `sftp_read`

`readingRun_part` and `readingRun_whole` say that calls in a row return the file, without gaps and
to its end, and `readingRun_end` that they get there.
-/

namespace Ssh2Python

open Lib.CInt Lib.Wire

variable {full : Prop} {file : List UInt8} {h : RemoteHandle} {start : Nat}

section Run

variable {prompt : Prop} {got : List UInt8} {sys last : RemoteFile}
    {results : List (Except Int (List UInt8))}
  {i : PipelineCall} {bufferSize : Nat}

/-- A file that is opened. -/
theorem reading_opened {requestId : Nat} (hfits : Fits full file start) (hid : requestId < 2 ^ 32) :
    Reading full file h start [] [] [] (RemoteFile.opened start requestId).client := by
  have hstart := hfits.start_lt
  have hposition : Position file start [] start [] 0 :=
    ⟨List.nil_prefix, rfl, Nat.le_refl 0, List.nil_prefix⟩
  have hwindow : Window full file h (start + 0) start requestId [] := by
    refine ⟨by simp, ⟨requestId, rfl, ?_⟩, ?_, Nat.zero_le _, fun _ => .inl trivial⟩
    · rw [List.length_nil, Nat.add_zero, Nat.mod_eq_of_lt hid]
    · rw [toSize_eq (by omega) (by simp only [requestedBytes, List.map_nil, List.sum_nil]; omega)]
      simp [requestedBytes]
  refine .inl ⟨⟨rfl, ⟨by simp [RemoteFile.opened], rfl⟩, hposition, hwindow, [], ?_, ?_⟩,
    .of_idle rfl⟩
  · exact ⟨rfl, by simp, by simp [RemoteFile.opened], .nil⟩
  · exact ⟨by simp [RemoteFile.opened, Pipeline.replies], .nil, .nil, by simp, by simp,
      by simp [RemoteFile.opened]⟩

/-- A call that does not fail goes on. -/
theorem Reading.call (hfits : Fits full file start) (hclean : full → CleanRead bufferSize i.env)
    (hreading : Reading full file h start got sys.answered sys.inflight sys.client)
    (hmoves : Answers (readServer full file)
      (frames (sftpRead h bufferSize (sys.env i) sys.client).state.wire) sys.answered i.answers)
    (hok : ∀ rc, (sftpRead h bufferSize (sys.env i) sys.client).result = .error rc → rc = eagain) :
    Reading full file h start
      (got ++ returned (sftpRead h bufferSize (sys.env i) sys.client).result)
      (sys.after i (sftpRead h bufferSize (sys.env i) sys.client)).answered
      (sys.after i (sftpRead h bufferSize (sys.env i) sys.client)).inflight
      (sys.after i (sftpRead h bufferSize (sys.env i) sys.client)).client := by
  have hcalled := sftpRead_spec hfits hclean hreading hmoves
  cases hres : (sftpRead h bufferSize (sys.env i) sys.client).result with
  | ok out => exact hcalled.ok out hres
  | error rc =>
    obtain rfl := hok rc hres
    rw [returned, List.append_nil]
    exact .inl (hcalled.again hres)

/-- **A run without errors**, by induction on its calls. -/
theorem ReadingRun.reading (hfits : Fits full file start)
    (hrun : ReadingRun full prompt file h sys results last)
    (hreading : Reading full file h start got sys.answered sys.inflight sys.client)
    (hok : ∀ rc, .error rc ∈ results → rc = eagain) :
    Reading full file h start (got ++ results.flatMap returned) last.answered last.inflight
      last.client := by
  induction hrun generalizing got with
  | nil sys => simpa using hreading
  | call i bufferSize clean answers soon run ih =>
    have hnext := hreading.call hfits clean answers fun rc hrc => hok rc (hrc ▸ List.mem_cons_self)
    rw [List.flatMap_cons, ← List.append_assoc]
    exact ih hnext fun rc hrc => hok rc (List.mem_cons_of_mem _ hrc)

/-- Calls that have to wait at most do not fail. -/
theorem ReadingRun.error (hfits : Fits full file start)
    (hrun : ReadingRun full prompt file h sys results last)
    (hreading : Reading full file h start got sys.answered sys.inflight sys.client) (hf : full) :
    ∀ rc, .error rc ∈ results → rc = eagain := by
  induction hrun generalizing got with
  | nil sys => simp
  | call i bufferSize clean answers soon run ih =>
    have hcalled := sftpRead_spec hfits clean hreading answers
    have hnext := hreading.call hfits clean answers (hcalled.error hf)
    intro rc hrc
    rcases List.mem_cons.mp hrc with hrc | hrc
    · exact hcalled.error hf rc hrc.symm
    · exact ih hnext rc hrc

/-- The end of the file stays where it is. -/
theorem ReadingRun.finished (hrun : ReadingRun full prompt file h sys results last)
    (hend : AtEnd full file start got sys.client) :
    AtEnd full file start (got ++ results.flatMap returned) last.client := by
  induction hrun generalizing got with
  | nil sys => simpa using hend
  | @call sys last results i bufferSize clean answers soon run ih =>
    obtain ⟨hres, hstate⟩ := hend.sftpRead h bufferSize (sys.env i)
    rw [List.flatMap_cons, hres, returned, List.nil_append]
    exact ih hstate

/-- After an empty result the file is at its end. -/
theorem ReadingRun.empty (hfits : Fits full file start)
    (hrun : ReadingRun full prompt file h sys results last)
    (hreading : Reading full file h start got sys.answered sys.inflight sys.client) (hf : full)
    (hempty : .ok [] ∈ results) :
    AtEnd full file start (got ++ results.flatMap returned) last.client := by
  induction hrun generalizing got with
  | nil sys => exact absurd hempty List.not_mem_nil
  | @call sys last results i bufferSize clean answers soon run ih =>
    have hcalled := sftpRead_spec hfits clean hreading answers
    rcases List.mem_cons.mp hempty with hempty | hempty
    · have hend := run.finished (hcalled.last hf hempty.symm)
      rwa [List.flatMap_cons, ← hempty, returned, List.nil_append]
    · rw [List.flatMap_cons, ← List.append_assoc]
      exact ih (hreading.call hfits clean answers (hcalled.error hf)) hempty

theorem Reading.part {answered : List Nat} {inflight : List (List UInt8)} {s : Pipeline}
    (hreading : Reading full file h start got answered inflight s) : got <+: file.drop start := by
  rcases hreading with ⟨hl, -⟩ | hend
  · exact hl.position.got_part
  · exact hend.position.got_part

theorem AtEnd.all {s : Pipeline} (hend : AtEnd full file start got s) (hf : full) :
    got = file.drop start := by
  have hoffset := hend.position.offset_eq
  have hends := hend.ends hf
  refine hend.position.got_part.eq_of_length_le ?_
  rw [List.length_drop]
  omega

/-- **No gaps, nothing twice.** Whatever pieces the server answers with, in whatever order, and
wherever the calls had to wait: what they returned is the file from the start on. -/
theorem readingRun_part {requestId : Nat} (hstart : start < 2 ^ 64) (hfile : file.length < 2 ^ 64)
    (hid : requestId < 2 ^ 32)
    (hrun : ReadingRun False prompt file h (.opened start requestId) results last)
    (hok : ∀ rc, .error rc ∈ results → rc = eagain) :
    results.flatMap returned <+: file.drop start := by
  have hfits : Fits False file start := ⟨hstart, hfile, nofun⟩
  exact (hrun.reading hfits (reading_opened hfits hid) hok).part

/-- A server that has read a request of a client. -/
theorem readServer_of {requestId offset size : Nat} {reply : List UInt8} (h : RemoteHandle)
    (hid : requestId < 2 ^ 32) (hoffset : offset < 2 ^ 64) (hsize : size < 2 ^ 32)
    (hreply : ReadReply full file requestId offset size reply) :
    readServer full file (readMessage h requestId offset size) reply := by
  rw [readServer, decodeRequest_readMessage h hid hoffset hsize]
  exact ⟨rfl, hreply⟩

theorem ReadingRun.cons {r : Except Int (List UInt8)} (i : PipelineCall) (bufferSize : Nat)
    (hclean : full → CleanRead bufferSize i.env)
    (hmoves : Answers (readServer full file)
      (frames (sftpRead h bufferSize (sys.env i) sys.client).state.wire) sys.answered i.answers)
    (hsoon : prompt → PromptRead sys i (sftpRead h bufferSize (sys.env i) sys.client).state.wire)
    (hres : (sftpRead h bufferSize (sys.env i) sys.client).result = r)
    (hrun : ReadingRun full prompt file h
      (sys.after i (sftpRead h bufferSize (sys.env i) sys.client)) results last) :
    ReadingRun full prompt file h sys (r :: results) last :=
  hres ▸ .call i bufferSize hclean hmoves hsoon hrun

/-- An answer with less than was asked for, and a call that has to wait for the next one. -/
theorem readingRun_sample : ∃ last, ReadingRun False False [1, 2, 3] sampleHandle (.opened 0 0)
    [.ok [1], .error eagain, .ok [2]] last := by
  have hfirst : readServer False [1, 2, 3] (readMessage sampleHandle 0 0 4) (dataReply 0 [1]) :=
    readServer_of sampleHandle (by decide) (by decide) (by decide)
      (.data [1] (by decide) (by decide) nofun)
  have hsecond : readServer False [1, 2, 3] (readMessage sampleHandle 1 1 4) (dataReply 1 [2]) :=
    readServer_of sampleHandle (by decide) (by decide) (by decide)
      (.data [2] (by decide) (by decide) nofun)
  exact ⟨_, .cons (sampleCall [(0, dataReply 0 [1])]) 1 nofun
    ⟨by decide, ⟨_, by decide, hfirst⟩, trivial⟩ nofun (by decide)
    (.cons (sampleCall []) 1 nofun trivial nofun (by decide)
      (.cons (sampleCall [(1, dataReply 1 [2])]) 1 nofun
        ⟨by decide, ⟨_, by decide, hsecond⟩, trivial⟩ nofun (by decide) (.nil _)))⟩

theorem readingRun_part_sample :
    ([.ok [1], .error eagain, .ok [2]] : List (Except Int (List UInt8))).flatMap returned <+:
      ([1, 2, 3] : List UInt8).drop 0 := by
  obtain ⟨last, hrun⟩ := readingRun_sample
  exact readingRun_part (by decide) (by decide) (by decide) hrun (by simp)

/-- **The whole file.** A server that answers in full is read without an error, and to the end when
a call returns nothing. -/
theorem readingRun_whole {requestId : Nat} (hid : requestId < 2 ^ 32)
    (hroom : max start file.length + maxReadAhead + maxReadSize < 2 ^ 64)
    (hrun : ReadingRun True prompt file h (.opened start requestId) results last) :
    (∀ rc, .error rc ∈ results → rc = eagain) ∧
      results.flatMap returned <+: file.drop start ∧
      (.ok [] ∈ results → results.flatMap returned = file.drop start) := by
  have hfits : Fits True file start := ⟨by omega, by omega, fun _ => hroom⟩
  have hopened := reading_opened (h := h) hfits hid
  have herror := hrun.error hfits hopened trivial
  exact ⟨herror, (hrun.reading hfits hopened herror).part,
    fun hempty => (hrun.empty hfits hopened trivial hempty).all trivial⟩

theorem sampleCall_clean {bufferSize : Nat} (hpos : 0 < bufferSize) (hlt : bufferSize < 2 ^ 32)
    (answers : List (Nat × List UInt8)) : CleanRead bufferSize (sampleCall answers).env := by
  have hallocs : maxReadAhead ≤ maxReadSize * 300 := by decide
  exact ⟨hpos, hlt, .inl rfl, hallocs, rfl, rfl⟩

theorem sampleCall_takesAll (answers : List (Nat × List UInt8)) :
    TakesAll (sampleCall answers).env := by
  refine ⟨List.length_replicate.ge, fun n hn => ?_⟩
  rw [List.eq_of_mem_replicate hn]
  decide

/-- Answers with all that was asked for, the last one behind the end of the file. -/
theorem readingRun_whole_run : ∃ last, ReadingRun True True [1, 2, 3] sampleHandle (.opened 0 0)
    [.ok [1, 2], .ok [3], .ok [], .ok []] last := by
  have hfirst : readServer True [1, 2, 3] (readMessage sampleHandle 0 0 8)
      (dataReply 0 [1, 2, 3]) :=
    readServer_of sampleHandle (by decide) (by decide) (by decide)
      (.data [1, 2, 3] (by decide) (by decide) fun _ => by decide)
  have hsecond : readServer True [1, 2, 3] (readMessage sampleHandle 1 3 8) (statusReply 1 1 []) :=
    readServer_of sampleHandle (by decide) (by decide) (by decide)
      (.status 1 [] (by decide) fun _ => by decide)
  exact ⟨_, .cons (sampleCall [(0, dataReply 0 [1, 2, 3])]) 2
    (fun _ => sampleCall_clean (by decide) (by decide) _)
    ⟨by decide, ⟨_, by decide, hfirst⟩, trivial⟩
    (fun _ => ⟨rfl, sampleCall_takesAll _, by decide, by decide⟩) (by decide)
    (.cons (sampleCall []) 2 (fun _ => sampleCall_clean (by decide) (by decide) _) trivial
      (fun _ => ⟨rfl, sampleCall_takesAll _, by decide, by decide⟩) (by decide)
      (.cons (sampleCall [(1, statusReply 1 1 [])]) 2
        (fun _ => sampleCall_clean (by decide) (by decide) _)
        ⟨by decide, ⟨_, by decide, hsecond⟩, trivial⟩
        (fun _ => ⟨rfl, sampleCall_takesAll _, by decide, by decide⟩) (by decide)
        (.cons (sampleCall []) 2 (fun _ => sampleCall_clean (by decide) (by decide) _) trivial
          (fun _ => ⟨rfl, sampleCall_takesAll _, by decide, by decide⟩) (by decide) (.nil _))))⟩

theorem readingRun_whole_sample :
    ([.ok [1, 2], .ok [3], .ok [], .ok []] : List (Except Int (List UInt8))).flatMap returned =
      ([1, 2, 3] : List UInt8).drop 0 := by
  obtain ⟨last, hrun⟩ := readingRun_whole_run
  exact (readingRun_whole (by decide) (by decide) hrun).2.2 (by simp)

/-- A call that does not have to wait returns something, or nothing at the end. -/
theorem PromptRead.ok {r : PipelineResult (List UInt8)}
    (hsoon : PromptRead sys i r.state.wire)
    (hcalled : ReadCalled full file h start got (sys.answered ++ i.answers.map Prod.fst) i.env
      ((sys.pool i).drop i.arrive) r) (hf : full) : ∃ out, r.result = .ok out := by
  cases hres : r.result with
  | ok out => exact ⟨out, rfl⟩
  | error rc =>
    obtain rfl := hcalled.error hf rc hres
    obtain ⟨hlive, -⟩ := hcalled.again hres
    obtain ⟨gone, hwire, hreplies⟩ := hlive.chunks
    rw [List.drop_of_length_le hsoon.arrive, List.append_nil] at hreplies
    obtain ⟨k, hk, hnot⟩ := hreplies.missing hwire (hcalled.missing hres hsoon.adjust hsoon.writes)
    exact absurd (hsoon.answered k hk) hnot

/-- No call has to wait or fails, and each brings the end nearer. -/
theorem ReadingRun.grows (hfits : Fits full file start)
    (hrun : ReadingRun full prompt file h sys results last)
    (hreading : Reading full file h start got sys.answered sys.inflight sys.client) (hf : full)
    (hprompt : prompt) : (∀ rc, .error rc ∉ results) ∧
      (.ok [] ∈ results ∨ results.length ≤ (results.flatMap returned).length) := by
  induction hrun generalizing got with
  | nil sys => exact ⟨fun _ => List.not_mem_nil, .inr (Nat.le_refl 0)⟩
  | call i bufferSize clean answers soon run ih =>
    have hcalled := sftpRead_spec hfits clean hreading answers
    have hnext := hreading.call hfits clean answers (hcalled.error hf)
    obtain ⟨out, hout⟩ := (soon hprompt).ok hcalled hf
    obtain ⟨hnone, hends⟩ := ih hnext
    rw [hout]
    refine ⟨fun rc hrc => ?_, ?_⟩
    · rcases List.mem_cons.mp hrc with hrc | hrc
      · cases hrc
      · exact hnone rc hrc
    · cases out with
      | nil => exact .inl List.mem_cons_self
      | cons b out =>
        refine hends.imp (List.mem_cons_of_mem _) fun hle => ?_
        rw [List.flatMap_cons, returned, List.length_append, List.length_cons, List.length_cons]
        omega

/-- **Reading comes to its end.** Where the channel takes the requests and their answers have
arrived, no call waits or fails, and there are not more calls than bytes before the whole file is
returned. -/
theorem readingRun_end {requestId : Nat} (hid : requestId < 2 ^ 32)
    (hroom : max start file.length + maxReadAhead + maxReadSize < 2 ^ 64)
    (hrun : ReadingRun True True file h (.opened start requestId) results last) :
    (∀ rc, .error rc ∉ results) ∧
      (file.length - start < results.length → results.flatMap returned = file.drop start) := by
  have hfits : Fits True file start := ⟨by omega, by omega, fun _ => hroom⟩
  have hopened := reading_opened (h := h) hfits hid
  have hpart := (hrun.reading hfits hopened (hrun.error hfits hopened trivial)).part
  obtain ⟨hnone, hends⟩ := hrun.grows hfits hopened trivial trivial
  refine ⟨hnone, fun hmany => ?_⟩
  rcases hends with hempty | hlong
  · exact (hrun.empty hfits hopened trivial hempty).all trivial
  · have hle := hpart.length_le
    rw [List.nil_append, List.length_drop] at hle
    omega

theorem readingRun_end_sample :
    ([.ok [1, 2], .ok [3], .ok [], .ok []] : List (Except Int (List UInt8))).flatMap returned =
      ([1, 2, 3] : List UInt8).drop 0 := by
  obtain ⟨last, hrun⟩ := readingRun_whole_run
  exact (readingRun_end (by decide) (by decide) hrun).2 (by decide)

end Run

end Ssh2Python
