import Ssh2Python.Buffers
import Ssh2Python.KnownHostLine

/-!
# What a channel returns

The methods of `Channel` that return what a native function counted, and `get_exit_signal`, which
returns strings. The counts pass through `handle_error_codes`, whose parameter is an `int`, whatever
the type of the native function is: `unsigned long` for the windows and `ssize_t` for the reads. The
lengths of the strings come back through pointers.
-/

namespace Ssh2Python

open Lib.CInt

/-! ## Counts -/

/-- Native calls on a channel, with what is passed to them; a pointer may be NULL. -/
inductive ChannelCall
  | readEx (streamId : Int) (size : Nat)
  | windowReadEx (readAvail windowSizeInitial : Option Nat)
  | windowWriteEx (windowSizeInitial : Option Nat)
  deriving DecidableEq, Repr

/-- `return handle_error_codes(rc)` with an `unsigned long`. -/
def returnWindow (call : ChannelCall) (rc : Nat) : Effect ChannelCall Int :=
  ⟨[call], handleErrorCodes (toInt32 rc)⟩

/-- `Channel.window_read_ex` -/
def channelWindowReadEx (readAvail windowSizeInitial rc : Nat) : Effect ChannelCall Int :=
  returnWindow (.windowReadEx (some readAvail) (some windowSizeInitial)) rc

/-- `Channel.window_read` -/
def channelWindowRead (rc : Nat) : Effect ChannelCall Int :=
  returnWindow (.windowReadEx none none) rc

/-- `Channel.window_write_ex` -/
def channelWindowWriteEx (windowSizeInitial rc : Nat) : Effect ChannelCall Int :=
  returnWindow (.windowWriteEx (some windowSizeInitial)) rc

/-- `Channel.window_write` -/
def channelWindowWrite (rc : Nat) : Effect ChannelCall Int :=
  returnWindow (.windowWriteEx none) rc

/-- `Channel.read_ex`; there is no native call when `malloc` fails. -/
def channelReadEx (size : Nat) (streamId : Int) :
    Option NativeFill → Effect ChannelCall (Int × List UInt8)
  | none => ⟨[], .error memoryError⟩
  | some r =>
    ⟨[.readEx streamId size], (handleErrorCodes (toInt32 r.rc)).map fun _ => (r.rc, r.bytes)⟩

/-- `Channel.read` -/
def channelRead (size : Nat) (native : Option NativeFill) :
    Effect ChannelCall (Int × List UInt8) :=
  channelReadEx size 0 native

/-- `Channel.read_stderr` -/
def channelReadStderr (size : Nat) (native : Option NativeFill) :
    Effect ChannelCall (Int × List UInt8) :=
  channelReadEx size extendedDataStderr native

/-- A call that returns a count, with its native result. -/
inductive CountCall
  | windowReadEx (readAvail windowSizeInitial rc : Nat)
  | windowRead (rc : Nat)
  | windowWriteEx (windowSizeInitial rc : Nat)
  | windowWrite (rc : Nat)
  | read (size : Nat) (native : NativeFill)
  | readEx (size : Nat) (streamId : Int) (native : NativeFill)
  | readStderr (size : Nat) (native : NativeFill)
  deriving DecidableEq, Repr

/-- A size of a window, which is 32 bits wide, or a count of at most the bytes asked for, in a
buffer of that size. -/
def CountCall.Succeeds : CountCall → Prop
  | .windowReadEx _ _ rc | .windowRead rc | .windowWriteEx _ rc | .windowWrite rc => rc < 2 ^ 32
  | .read size native | .readEx size _ native | .readStderr size native =>
    0 ≤ native.rc ∧ native.rc ≤ size ∧ native.buf.length = size

/-- The wrapper gives back the count, and for a read as many bytes. -/
def Counted (native : NativeFill) (e : Effect ChannelCall (Int × List UInt8)) : Prop :=
  ∃ buf, e.result = .ok (native.rc, buf) ∧ buf <+: native.buf ∧ (buf.length : Int) = native.rc

def CountCall.Unchanged : CountCall → Prop
  | .windowReadEx readAvail windowSizeInitial rc =>
    (channelWindowReadEx readAvail windowSizeInitial rc).result = .ok rc
  | .windowRead rc => (channelWindowRead rc).result = .ok rc
  | .windowWriteEx windowSizeInitial rc =>
    (channelWindowWriteEx windowSizeInitial rc).result = .ok rc
  | .windowWrite rc => (channelWindowWrite rc).result = .ok rc
  | .read size native => Counted native (channelRead size (some native))
  | .readEx size streamId native => Counted native (channelReadEx size streamId (some native))
  | .readStderr size native => Counted native (channelReadStderr size (some native))

/-- Counts that `handle_error_codes` does not mistake for an error. A read returns its own `rc`, so
that `EAGAIN` is harmless there. -/
def CountCall.Fits : CountCall → Prop
  | .windowReadEx _ _ rc | .windowRead rc | .windowWriteEx _ rc | .windowWrite rc => rc < 2 ^ 31
  | .read _ native | .readEx _ _ native | .readStderr _ native =>
    native.rc % 2 ^ 32 < 2 ^ 31 ∨ native.rc % 2 ^ 32 = 2 ^ 32 + eagain

/-! ## The exit signal -/

/-- The name of a signal as the server sent it. -/
structure SignalName where
  bytes : List UInt8
  nonempty : bytes ≠ []
  nul_free : 0 ∉ bytes

/-- An out-parameter of type `size_t *`: NULL, or the address of a variable. -/
abbrev SizePtr := Option Nat

/-- What `libssh2_channel_get_exit_signal` leaves: its code, what the three string pointers point at
(`none` for NULL), and the lengths it stored, with the addresses. -/
structure ExitSignalOut where
  rc : Int
  exitsignal : Option (List UInt8)
  errmsg : Option (List UInt8)
  langtag : Option (List UInt8)
  stores : List (Nat × Nat)
  deriving DecidableEq, Repr

/-- `if(len) *len = value` -/
def storeSize (len : SizePtr) (value : Nat) : List (Nat × Nat) :=
  match len with
  | some address => [(address, value)]
  | none => []

/-- `libssh2_channel_get_exit_signal`, with pointers for the strings that are not NULL and point at
`initial` before the call. The message and the tag are not implemented there. -/
def nativeExitSignal (signal : Option (List UInt8)) (alloc : Bool) (initial : List UInt8)
    (exitsignalLen errmsgLen langtagLen : SizePtr) : ExitSignalOut :=
  match signal with
  | some name =>
    if alloc then
      ⟨0, some (name ++ [0]), none, none,
        storeSize exitsignalLen name.length ++ storeSize errmsgLen 0 ++ storeSize langtagLen 0⟩
    else ⟨ErrorCode.alloc.value, none, some initial, some initial, []⟩
  | none =>
    ⟨0, none, none, none,
      storeSize exitsignalLen 0 ++ storeSize errmsgLen 0 ++ storeSize langtagLen 0⟩

/-- `if len is not NULL: py_len = <size_t>len`: the pointer itself is taken for the length. -/
def lengthOf (len : SizePtr) : Nat :=
  len.getD 0

/-- `py_s = s[:length]` if the length is positive, else `None`. -/
def cutString (s : Option (List UInt8)) (length : Nat) : Option (List UInt8) :=
  if 0 < length then s.map (·.take length) else none

structure ExitSignal where
  rc : Int
  exitsignal : Option (List UInt8)
  errmsg : Option (List UInt8)
  langtag : Option (List UInt8)
  deriving DecidableEq, Repr

/-- `Channel.get_exit_signal`, where the three pointers for the lengths are NULL. -/
def channelGetExitSignal (signal : Option (List UInt8)) (alloc : Bool) : Except PyExc ExitSignal :=
  let exitsignalLen : SizePtr := none
  let errmsgLen : SizePtr := none
  let langtagLen : SizePtr := none
  let out :=
    nativeExitSignal signal alloc (asciiBytes "none\x00") exitsignalLen errmsgLen langtagLen
  (handleErrorCodes out.rc).map fun _ =>
    ⟨out.rc, cutString out.exitsignal (lengthOf exitsignalLen),
      cutString out.errmsg (lengthOf errmsgLen), cutString out.langtag (lengthOf langtagLen)⟩

/-- The answer the documentation describes for a channel with, or without, an exit signal. -/
def ExitSignalReported (signal : Option SignalName) : Prop :=
  channelGetExitSignal (signal.map SignalName.bytes) true =
    .ok ⟨0, signal.map SignalName.bytes, none, none⟩

end Ssh2Python
