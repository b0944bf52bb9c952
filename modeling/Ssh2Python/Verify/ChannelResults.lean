import Ssh2Python.ChannelResults

/-!
# When a channel returns what was counted

All methods that return counts go through one conversion to `int`. `returnWindow_ok_iff` and
`channelReadEx_counted_iff` say which counts survive it, `counts_unchanged_iff` puts the methods
together. For the exit signal, `cutString_null` is the whole reason: a length that comes from a NULL
pointer makes every string `None`.
-/

namespace Ssh2Python

open Lib.CInt

/-! ## Counts -/

theorem returnWindow_ok_iff (call : ChannelCall) {rc : Nat} (h : rc < 2 ^ 32) :
    (returnWindow call rc).result = .ok rc ↔ rc < 2 ^ 31 := by
  rw [returnWindow, handleErrorCodes_ok_iff]
  constructor
  · rintro ⟨hrc, -⟩
    have hfits := toInt32_eq_iff.mp hrc.symm
    omega
  · intro hlt
    have hrc : toInt32 rc = rc := toInt32_eq_iff.mpr ⟨by omega, by omega⟩
    exact ⟨hrc.symm, .inl (by omega)⟩

/-- What `handle_error_codes` lets pass of a `ssize_t`. -/
theorem toInt32_passes_iff (x : Int) :
    (0 ≤ toInt32 x ∨ toInt32 x = eagain) ↔
      x % 2 ^ 32 < 2 ^ 31 ∨ x % 2 ^ 32 = 2 ^ 32 + eagain := by
  have hlt := toInt32_lt x
  have hle := le_toInt32 x
  obtain ⟨k, hk⟩ := toInt32_dvd x
  generalize toInt32 x = y at *
  omega

/-- A native success is a prefix of the buffer. -/
theorem NativeFill.bytes_counted {native : NativeFill} (h0 : 0 ≤ native.rc)
    (hle : native.rc ≤ native.buf.length) :
    native.bytes <+: native.buf ∧ (native.bytes.length : Int) = native.rc := by
  unfold NativeFill.bytes
  split
  · refine ⟨List.take_prefix _ _, ?_⟩
    rw [List.length_take]
    omega
  · refine ⟨List.nil_prefix, ?_⟩
    simp only [List.length_nil]
    omega

theorem channelReadEx_counted_iff {size : Nat} (streamId : Int) {native : NativeFill}
    (h : (CountCall.readEx size streamId native).Succeeds) :
    Counted native (channelReadEx size streamId (some native)) ↔
      (CountCall.readEx size streamId native).Fits := by
  obtain ⟨h0, hle, hlen⟩ := h
  rw [CountCall.Fits, ← toInt32_passes_iff]
  constructor
  · rintro ⟨buf, hres, -, -⟩
    by_contra hno
    have hneg : toInt32 native.rc < 0 := by omega
    obtain ⟨e, he, -⟩ := handleErrorCodes_raises hneg fun hE => hno (.inr hE)
    rw [channelReadEx, he] at hres
    cases hres
  · intro hpass
    obtain ⟨hpre, hcount⟩ := native.bytes_counted h0 (by omega)
    refine ⟨native.bytes, ?_, hpre, hcount⟩
    rw [channelReadEx, handleErrorCodes_returns hpass]
    rfl

/-- **When a count comes back unchanged**: for every method and every success of its native
function, a window exactly when it is below 2 GiB, and a read exactly when the lower half of its
count is no error code. -/
theorem counts_unchanged_iff (c : CountCall) (h : c.Succeeds) : c.Unchanged ↔ c.Fits := by
  cases c with
  | windowReadEx readAvail windowSizeInitial rc => exact returnWindow_ok_iff _ h
  | windowRead rc => exact returnWindow_ok_iff _ h
  | windowWriteEx windowSizeInitial rc => exact returnWindow_ok_iff _ h
  | windowWrite rc => exact returnWindow_ok_iff _ h
  | read size native => exact channelReadEx_counted_iff 0 h
  | readEx size streamId native => exact channelReadEx_counted_iff streamId h
  | readStderr size native => exact channelReadEx_counted_iff extendedDataStderr h

theorem counts_unchanged_read :
    (CountCall.readStderr 4 ⟨2, [104, 105, 0, 0]⟩).Unchanged := by
  refine (counts_unchanged_iff (.readStderr 4 ⟨2, [104, 105, 0, 0]⟩) ?_).mpr ?_
  · exact ⟨by decide, by decide, by decide⟩
  · exact .inl (by decide)

/-- A window of 2 GiB raises, and one that is 37 bytes short of 4 GiB is taken for `EAGAIN`. -/
theorem windows_changed :
    (∃ e, (channelWindowRead (2 ^ 31)).result = .error e) ∧
      (channelWindowRead (2 ^ 32 - 37)).result = .ok eagain ∧
      ¬(CountCall.windowRead (2 ^ 31)).Unchanged := by
  have hneg : toInt32 ((2 ^ 31 : Nat) : Int) = -2 ^ 31 := by decide
  have hagain : toInt32 ((2 ^ 32 - 37 : Nat) : Int) = eagain := by decide
  refine ⟨?_, ?_, fun h => ?_⟩
  · obtain ⟨e, he, -⟩ := @handleErrorCodes_raises (-2 ^ 31) (by decide) (by decide)
    refine ⟨e, ?_⟩
    rw [channelWindowRead, returnWindow, hneg, he]
  · rw [channelWindowRead, returnWindow, hagain]
    exact handleErrorCodes_returns (.inr rfl)
  · have hlt := (returnWindow_ok_iff (.windowReadEx none none) (by decide)).mp h
    exact absurd hlt (by decide)

theorem Buffers.copyBytes_none (native : NativeFill) :
    copyBytes native none = ⟨[], .ok native.bytes⟩ := by
  unfold copyBytes NativeFill.bytes
  split <;> rfl

/-- The result of `read_ex` is that of the call whose buffers are followed elsewhere. -/
theorem Buffers.channelReadEx_result (size : Nat) (streamId : Int) (native : NativeFill) :
    (Buffers.channelReadEx true native none).result =
      (Ssh2Python.channelReadEx size streamId (some native)).result := by
  unfold Buffers.channelReadEx Ssh2Python.channelReadEx
  rw [Buffers.copyBytes_none]
  cases hc : handleErrorCodes (toInt32 native.rc) with
  | error e =>
    simp only [hc]
    rfl
  | ok v =>
    simp only [hc]
    rfl

/-! ## The exit signal -/

/-- Nothing is cut out of a string whose length comes from NULL. -/
theorem cutString_null (s : Option (List UInt8)) : cutString s (lengthOf none) = none := by
  simp [cutString, lengthOf]

/-- **What `get_exit_signal` returns** when there is memory for the name: nothing about the
signal. -/
theorem channelGetExitSignal_eq (signal : Option (List UInt8)) :
    channelGetExitSignal signal true = .ok ⟨0, none, none, none⟩ := by
  unfold channelGetExitSignal
  simp only [cutString_null]
  cases signal with
  | none => rfl
  | some name => rfl

/-- **When the signal is reported**: exactly when there is none. -/
theorem exitSignalReported_iff (signal : Option SignalName) :
    ExitSignalReported signal ↔ signal = none := by
  rw [ExitSignalReported, channelGetExitSignal_eq]
  cases signal with
  | none => simp
  | some name => simp

/-- A process that was killed. -/
theorem killed_not_reported :
    channelGetExitSignal (some (asciiBytes "KILL")) true = .ok ⟨0, none, none, none⟩ ∧
      ¬ExitSignalReported (some ⟨asciiBytes "KILL", by decide, by decide⟩) := by
  refine ⟨channelGetExitSignal_eq _, fun h => ?_⟩
  have hres : (Except.ok ⟨0, none, none, none⟩ : Except PyExc ExitSignal) =
      .ok ⟨0, some (asciiBytes "KILL"), none, none⟩ := (channelGetExitSignal_eq _).symm.trans h
  simp at hres

end Ssh2Python
