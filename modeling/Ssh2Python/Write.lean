import Ssh2Python.Lib.CInt
import Ssh2Python.Lib.Transfer
import Ssh2Python.Utils

/-!
# The write loops

`Channel.write`, `Channel.write_ex`, `Channel.write_stderr` and `SFTPHandle.write` each hold a copy
of one loop, which offers the rest of the buffer to `libssh2` until all of it was taken, the socket
would block or an error is reported. `writeLoop` is that loop, with the native function and the
initial value of `rc` as parameters: the channel methods leave `rc` uninitialised, so its value is
whatever the stack holds.

The native side is a script: the list of the results that the successive native calls return. A
call that asks for a result past the end of its script has not returned yet (`blocked`).
-/

namespace Ssh2Python

open Lib.CInt Lib.Transfer

/-- The native functions behind the loops. In `libssh2.h`, `libssh2_channel_write` and
`libssh2_channel_write_stderr` are macros for `libssh2_channel_write_ex`. -/
inductive NativeWrite
  | channelWriteEx (streamId : Int)
  | sftpWrite
  deriving DecidableEq, Repr

def extendedDataStderr : Int := 1

def NativeWrite.channelWrite : NativeWrite := .channelWriteEx 0

def NativeWrite.channelWriteStderr : NativeWrite := .channelWriteEx extendedDataStderr

/-- One native call: the offset of the pointer in the `bytes` object, the length, the result. -/
structure WriteCall where
  fn : NativeWrite
  offset : Nat
  len : Nat
  rc : Int
  deriving DecidableEq, Repr

inductive WriteStatus
  /-- `return rc, bytes_written` -/
  | returned (rc : Int) (bytesWritten : Nat)
  /-- `return handle_error_codes(rc)`, when that did not raise -/
  | code (v : Int)
  | raised (e : PyExc)
  | blocked
  deriving DecidableEq, Repr

structure WriteRun where
  calls : List WriteCall
  status : WriteStatus
  deriving DecidableEq, Repr

def WriteRun.cons (c : WriteCall) (r : WriteRun) : WriteRun :=
  { r with calls := c :: r.calls }

/-- `return handle_error_codes(rc)`: the argument is converted from `ssize_t` to `int`. -/
def returnErrorCode (rc : Int) : WriteStatus :=
  match handleErrorCodes (toInt32 rc) with
  | .ok v => .code v
  | .error e => .raised e

/-- The loop, from the state where `ptr` is the position of `_buf`, `rem` the value of
`buf_remainder` and `rc` the last result. -/
def writeLoop (fn : NativeWrite) (totSize : Nat) (results : List Int) (ptr rem : Nat) (rc : Int) :
    WriteRun :=
  if rem = 0 then ⟨[], .returned rc (toSize ((totSize : Int) - rem))⟩
  else match results with
    | [] => ⟨[], .blocked⟩
    | r :: rs =>
      if r < 0 ∧ r ≠ eagain then ⟨[⟨fn, ptr, rem, r⟩], returnErrorCode r⟩
      else if r = eagain then
        ⟨[⟨fn, ptr, rem, r⟩], .returned r (toSize ((totSize : Int) - rem))⟩
      else
        (writeLoop fn totSize rs (ptr + r.toNat) (toSize ((rem : Int) - r)) r).cons
          ⟨fn, ptr, rem, r⟩

section Equations

variable (fn : NativeWrite) (tot ptr : Nat) {rem : Nat} (rc : Int) (rs : List Int)

theorem writeLoop_done :
    writeLoop fn tot rs ptr 0 rc = ⟨[], .returned rc (toSize ((tot : Int) - (0 : Nat)))⟩ := by
  cases rs <;> simp [writeLoop]

theorem writeLoop_blocked (hrem : rem ≠ 0) : writeLoop fn tot [] ptr rem rc = ⟨[], .blocked⟩ := by
  simp [writeLoop, hrem]

theorem writeLoop_error (hrem : rem ≠ 0) {r : Int} (hneg : r < 0) (hE : r ≠ eagain) :
    writeLoop fn tot (r :: rs) ptr rem rc = ⟨[⟨fn, ptr, rem, r⟩], returnErrorCode r⟩ := by
  rw [writeLoop, if_neg hrem]
  exact if_pos ⟨hneg, hE⟩

theorem writeLoop_eagain (hrem : rem ≠ 0) :
    writeLoop fn tot (eagain :: rs) ptr rem rc =
      ⟨[⟨fn, ptr, rem, eagain⟩], .returned eagain (toSize ((tot : Int) - rem))⟩ := by
  simp [writeLoop, hrem]

theorem writeLoop_count (hrem : rem ≠ 0) {r : Int} (hr : 0 ≤ r) :
    writeLoop fn tot (r :: rs) ptr rem rc =
      (writeLoop fn tot rs (ptr + r.toNat) (toSize ((rem : Int) - r)) r).cons
        ⟨fn, ptr, rem, r⟩ := by
  have hE : r ≠ eagain := fun h => absurd eagain_neg (by omega)
  rw [writeLoop, if_neg hrem]
  simp only [if_neg hE, if_neg (fun h => absurd h.1 (by omega) : ¬(r < 0 ∧ r ≠ eagain))]

end Equations

/-- The body the channel methods share: `buf not None`, then `to_bytes`, then the loop. -/
def channelWriteWith (fn : NativeWrite) (buf : PyObj) (uninit : Int) (results : List Int) :
    WriteRun :=
  match buf with
  | .none => ⟨[], .raised { cls := .typeError }⟩
  | buf => match toBytes buf with
    | .error e => ⟨[], .raised e⟩
    | .ok none => ⟨[], .raised { cls := .typeError }⟩
    | .ok (some b) => writeLoop fn b.length results 0 b.length uninit

/-- `Channel.write`. -/
def channelWrite (buf : PyObj) (uninit : Int) (results : List Int) : WriteRun :=
  channelWriteWith .channelWrite buf uninit results

/-- `Channel.write_ex`. -/
def channelWriteEx (streamId : Int) (buf : PyObj) (uninit : Int) (results : List Int) : WriteRun :=
  channelWriteWith (.channelWriteEx streamId) buf uninit results

/-- `Channel.write_stderr`. -/
def channelWriteStderr (buf : PyObj) (uninit : Int) (results : List Int) : WriteRun :=
  channelWriteWith .channelWriteStderr buf uninit results

/-- `SFTPHandle.write`, which takes `bytes` only and starts with `rc = 0`. -/
def sftpHandleWrite (buf : PyObj) (results : List Int) : WriteRun :=
  match buf with
  | .bytes b => writeLoop .sftpWrite b.length results 0 b.length 0
  | _ => ⟨[], .raised { cls := .typeError }⟩

/-! ## A client that resumes -/

inductive WriteOp
  | write
  | writeEx (streamId : Int)
  | writeStderr
  | sftpWrite
  deriving DecidableEq, Repr

def WriteOp.apply : WriteOp → PyBytes → Int → List Int → WriteRun
  | .write, b, u, rs => channelWrite (.bytes b) u rs
  | .writeEx sid, b, u, rs => channelWriteEx sid (.bytes b) u rs
  | .writeStderr, b, u, rs => channelWriteStderr (.bytes b) u rs
  | .sftpWrite, b, _, rs => sftpHandleWrite (.bytes b) rs

/-- The native function that each method calls. -/
def WriteOp.nativeFn : WriteOp → NativeWrite
  | .write => .channelWrite
  | .writeEx sid => .channelWriteEx sid
  | .writeStderr => .channelWriteStderr
  | .sftpWrite => .sftpWrite

/-- The value of `rc` when the loop starts. -/
def WriteOp.initialRc : WriteOp → Int → Int
  | .sftpWrite, _ => 0
  | _, uninit => uninit

/-- A call the client made: its argument and how it went. -/
structure ClientCall where
  arg : PyBytes
  run : WriteRun

/-- The documented use of `op`: after `(EAGAIN, n)` the same function is called again with the
argument from `n` on. -/
inductive ClientRun (op : WriteOp) : PyBytes → List ClientCall → Prop
  | last (arg : PyBytes) (uninit : Int) (results : List Int) :
      ClientRun op arg [⟨arg, op.apply arg uninit results⟩]
  | resume {arg : PyBytes} {uninit : Int} {results : List Int} {n : Nat} {cs : List ClientCall}
      (again : (op.apply arg uninit results).status = .returned eagain n)
      (rest : ClientRun op (arg.drop n) cs) :
      ClientRun op arg (⟨arg, op.apply arg uninit results⟩ :: cs)

/-- What the native call was told it took; an error code takes nothing. -/
def WriteCall.attempt (c : WriteCall) : Attempt :=
  ⟨c.offset, c.len, c.rc.toNat⟩

/-- The bytes `libssh2` accepted over a run, in the order it accepted them. -/
def acceptedBytes (cs : List ClientCall) : List UInt8 :=
  cs.flatMap fun c => takenFrom c.arg.data (c.run.calls.map WriteCall.attempt)

def WriteStatus.bytesWritten : WriteStatus → Nat
  | .returned _ n => n
  | _ => 0

@[simp] theorem WriteStatus.bytesWritten_returned (rc : Int) (n : Nat) :
    (WriteStatus.returned rc n).bytesWritten = n := rfl

def WriteStatus.Raises (s : WriteStatus) : Prop :=
  ∃ e, s = .raised e

/-- The last call wrote its whole argument. -/
def Finished (cs : List ClientCall) : Prop :=
  ∃ c, cs.getLast? = some c ∧ ∃ rc, c.run.status = .returned rc c.arg.length

/-- The run is not in the middle of a call, and its last call asks for no further one. -/
def Stopped (cs : List ClientCall) : Prop :=
  ∃ c, cs.getLast? = some c ∧ c.run.status ≠ .blocked ∧ ∀ n, c.run.status ≠ .returned eagain n

/-- What a native write may return: an `int` error code, `EAGAIN` among them, or a count of at most
what it was offered. -/
def WriteCall.Legal (c : WriteCall) : Prop :=
  -2 ^ 31 ≤ c.rc ∧ c.rc ≤ c.len

instance (c : WriteCall) : Decidable c.Legal :=
  inferInstanceAs (Decidable (_ ∧ _))

def WriteRun.lastResult (r : WriteRun) : Option Int :=
  r.calls.getLast?.map WriteCall.rc

/-- The documented pair for a buffer of `len` bytes: `EAGAIN` when the last native call would have
blocked, with something left to write, and otherwise no error and everything written. -/
structure WriteRun.Documented (r : WriteRun) (len : Nat) (rc : Int) (n : Nat) : Prop where
  eagain_iff : rc = eagain ↔ r.lastResult = some eagain
  partly : rc = eagain → n < len
  whole : rc ≠ eagain → 0 ≤ rc ∧ n = len

/-- What one call does with the bytes `arg` when the native calls return `results`, one after the
other. -/
structure CallDelivers (op : WriteOp) (arg : PyBytes) (results : List Int) (r : WriteRun) :
    Prop where
  /-- Each native call is one of the method's own, and returns the next of the results. -/
  native : (∀ w ∈ r.calls, w.fn = op.nativeFn) ∧ r.calls.map WriteCall.rc <+: results
  /-- It is offered exactly the part of the argument that the calls before it left. -/
  offers : ∀ us w vs, r.calls = us ++ w :: vs →
    w.offset = total (us.map WriteCall.attempt) ∧ w.offset + w.len = arg.length
  bounded : r.calls.length ≤
    r.calls.countP (fun w => 0 < w.rc) + r.calls.countP (fun w => w.rc = 0) + 1
  /-- With something to write, a call that is over has called `libssh2`. -/
  called : arg.length ≠ 0 → r.status ≠ .blocked → r.calls ≠ []
  /-- The pair is the documented one, and counts what was taken. -/
  pair : ∀ rc n, r.status = .returned rc n → arg.length ≠ 0 →
    r.Documented arg.length rc n ∧ n = total (r.calls.map WriteCall.attempt)
  /-- Only a native error raises. -/
  raises : r.status.Raises → ∃ rc, r.lastResult = some rc ∧ rc < 0 ∧ rc ≠ eagain
  pairOnly : ∀ v, r.status ≠ .code v
  /-- The call is over when the native calls have returned often enough. -/
  returns : arg.length + results.count 0 < results.length → r.status ≠ .blocked

/-! ## Any argument, any stack -/

/-- A call with an argument as Python passes it; `uninit` is what the stack holds where `rc` is not
initialised. -/
def WriteOp.call : WriteOp → PyObj → Int → List Int → WriteRun
  | .write, x, uninit, results => channelWrite x uninit results
  | .writeEx sid, x, uninit, results => channelWriteEx sid x uninit results
  | .writeStderr, x, uninit, results => channelWriteStderr x uninit results
  | .sftpWrite, x, _, results => sftpHandleWrite x results

/-- The `write_ex` that each channel method stands for. -/
def WriteOp.asEx : WriteOp → WriteOp
  | .write => .writeEx 0
  | .writeStderr => .writeEx extendedDataStderr
  | op => op

/-- The bytes the function is to write, if its argument has any. -/
def WriteOp.bytesOf : WriteOp → PyObj → Except PyExc PyBytes
  | .sftpWrite, .bytes b => .ok b
  | .sftpWrite, _ => .error { cls := .typeError }
  | _, x => bytesArg x

/-- What a caller may rely on: the run does not depend on the stack, it is the run of `write_ex` on
the stream the method names, and a call that is over without an exception returned the documented
pair. -/
structure WritesDetermined (op : WriteOp) (x : PyObj) (results : List Int) : Prop where
  determined : ∀ u v, op.call x u results = op.call x v results
  asEx : ∀ u v, op.call x u results = op.asEx.call x v results
  pair : ∀ u, (op.call x u results).status ≠ .blocked → ¬(op.call x u results).status.Raises →
    ∃ b rc n, op.bytesOf x = .ok b ∧ (op.call x u results).status = .returned rc n ∧
      (op.call x u results).Documented b.length rc n

end Ssh2Python
