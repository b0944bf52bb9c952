import Ssh2Python.ChannelResults
import Ssh2Python.KnownHostLine
import Ssh2Python.Sftp

/-!
# Fresh buffers

The methods that let `libssh2` fill a buffer which was just allocated. Such a buffer holds what the
heap held there before; the native call overwrites a prefix of it and says how many bytes count, and
of the long entry of a directory it says nothing: that one is cut at the first NUL, wherever it is.
The results are those of the methods, for a given heap.
-/

namespace Ssh2Python

open Lib.CInt Lib.CString

/-! ## What the native calls do -/

/-- A native call that filled a buffer of `size` bytes: its code, and what it wrote, from the start
of the buffer on. A positive code is a number of bytes that were written. -/
structure DataFill (size : Nat) where
  rc : Int
  written : List UInt8
  fits : written.length ≤ size
  counted : rc ≤ written.length

/-- A directory read. The long entry is written, with a NUL behind it, if there is room for more
than one byte. -/
structure EntryFill (size longSize : Nat) extends DataFill size where
  longWritten : List UInt8
  attrs : SftpAttrs
  longFits : longWritten.length ≤ longSize
  skipped : longSize ≤ 1 → longWritten = []
  terminated : 0 < rc → 1 < longSize → 0 ∈ longWritten

/-- A native writer of lines, for a file type and the size of a buffer. Its length is that of a part
of the buffer. -/
structure LineWriter where
  native : Int → Nat → NativeLine
  fits : ∀ type size, (native type size).written.length ≤ size
  bounded : ∀ type size, (native type size).rc = 0 → (native type size).outlen ≤ size

/-! ## The memory -/

/-- What the heap holds where the buffers of a call are put: that of the data and that of the long
entry, with what stands behind the latter. -/
structure Leftovers where
  data : FreshMemory
  long : FreshMemory
  behind : List UInt8

def DataFill.fill {size : Nat} (f : DataFill size) (heap : Leftovers) : NativeFill where
  rc := f.rc
  buf := heap.data.after size f.written

def EntryFill.entry {size longSize : Nat} (f : EntryFill size longSize) (heap : Leftovers) :
    NativeEntry where
  toNativeFill := f.fill heap
  longentry := heap.long.after longSize f.longWritten ++ heap.behind
  attrs := f.attrs

/-! ## The operations -/

/-- An operation with what its native calls do; `none` is a buffer that was not allocated. -/
inductive FillOp
  | readEx (size : Nat) (streamId : Int) (native : Option (DataFill size))
  | read (maxlen : Nat) (native : Option (DataFill maxlen))
  /-- The macro passes no buffer for the long entry. -/
  | readdir (maxlen : Nat) (native : Option (EntryFill maxlen 0))
  | readdirEx (longentryMaxlen maxlen : Nat) (native : Option (EntryFill maxlen longentryMaxlen))
  | realpath (path : PyObj) (maxLen : Nat) (native : Option (DataFill maxLen))
  /-- At most `fuel` calls deep. -/
  | writeline (writer : LineWriter) (alloc : Nat → Bool) (fuel : Nat) (fType : Int) (bufLen : Nat)

inductive PyData
  | data (rc : Int) (buf : List UInt8)
  | entry (rc : Int) (buf : List UInt8) (attrs : SftpAttrs)
  | longEntry (rc : Int) (buf entry : List UInt8) (attrs : SftpAttrs)
  | path (r : RealpathResult)
  | line (output : List UInt8)

/-- The call of the native writer that ends the recursion of `writeline`, with the size of its
buffer, or the exception that does. -/
def lastLine (native : Int → Nat → NativeLine) (alloc : Nat → Bool) :
    Nat → Int → Nat → Option (Except PyExc (NativeLine × Nat))
  | 0, _, _ => none
  | fuel + 1, fType, bufLen =>
    if alloc bufLen = false then some (.error memoryError)
    else if (native fType bufLen).rc = ErrorCode.bufferTooSmall.value then
      lastLine native alloc fuel fileOpenSSH (toSize ((bufLen : Int) * 2))
    else some (.ok (native fType bufLen, bufLen))

/-- Bytes that are taken out of a buffer of `size` bytes, and how many are looked at for that. -/
structure Copy where
  size : Nat
  written : List UInt8
  bytes : List UInt8
  examined : Nat
  deriving DecidableEq, Repr

/-- The first `n` bytes. -/
def copyPrefix (size : Nat) (written mem : List UInt8) (n : Nat) : Copy :=
  ⟨size, written, mem.take n, n⟩

/-- The bytes up to a NUL, which is looked at too. -/
def copyString (size : Nat) (written mem : List UInt8) : Copy :=
  ⟨size, written, cstring mem, strlen mem + 1⟩

namespace FillOp

/-- The Python result. -/
def result (heap : Leftovers) : FillOp → Option (Except PyExc PyData)
  | .readEx size streamId native =>
    some ((channelReadEx size streamId (native.map (·.fill heap))).result.map fun r =>
      .data r.1 r.2)
  | .read maxlen native =>
    some ((sftpHandleRead maxlen (native.map (·.fill heap))).result.map fun r => .data r.1 r.2)
  | .readdir maxlen native =>
    some ((readdirOnce maxlen (native.map (·.entry heap))).result.map fun r =>
      .entry r.1 r.2.1 r.2.2)
  | .readdirEx longentryMaxlen maxlen native =>
    some ((readdirExOnce longentryMaxlen maxlen (native.map (·.entry heap))).result.map fun r =>
      .longEntry r.1 r.2.1 r.2.2.1 r.2.2.2)
  | .realpath path maxLen native =>
    some ((sftpRealpath path maxLen (native.map (·.fill heap))).result.map .path)
  | .writeline writer alloc fuel fType bufLen =>
    (Ssh2Python.writeline writer.native alloc heap.data fuel fType bufLen).map fun r =>
      r.map .line

/-- The bytes that the method takes out of the buffers. -/
def copies (heap : Leftovers) : FillOp → List Copy
  | .readEx size _ (some f) =>
    if 0 < f.rc then [copyPrefix size f.written (f.fill heap).buf f.rc.toNat] else []
  | .read maxlen (some f) =>
    if 0 < f.rc then [copyPrefix maxlen f.written (f.fill heap).buf f.rc.toNat] else []
  | .readdir maxlen (some f) =>
    if 0 < f.rc then [copyPrefix maxlen f.written (f.entry heap).buf f.rc.toNat] else []
  | .readdirEx longentryMaxlen maxlen (some f) =>
    if 0 < f.rc then
      [copyPrefix maxlen f.written (f.entry heap).buf f.rc.toNat,
        copyString longentryMaxlen f.longWritten (f.entry heap).longentry]
    else []
  | .realpath _ maxLen (some f) =>
    if 0 ≤ f.rc then [copyPrefix maxLen f.written (f.fill heap).buf f.rc.toNat] else []
  | .writeline writer alloc fuel fType bufLen =>
    match lastLine writer.native alloc fuel fType bufLen with
    | some (.ok (r, size)) =>
      if r.rc = 0 then [copyPrefix size r.written (heap.data.after size r.written) r.outlen] else []
    | _ => []
  | _ => []

/-- The result is the same whatever the buffers held before, what is returned was written by the
native call, and nothing outside of the buffers is looked at. -/
structure Clean (op : FillOp) : Prop where
  same : ∀ heap heap' : Leftovers, heap.behind = heap'.behind → op.result heap = op.result heap'
  written : ∀ heap, ∀ c ∈ op.copies heap, c.bytes <+: c.written
  inside : ∀ heap, ∀ c ∈ op.copies heap, c.examined ≤ c.size

/-- Nothing is copied of a long entry for which there was no room, and the line is as long as the
writer says. -/
def Fits : FillOp → Prop
  | .readdirEx longentryMaxlen _ (some f) => 0 < f.rc → 1 < longentryMaxlen
  | .writeline writer alloc fuel fType bufLen =>
    ∀ r size, lastLine writer.native alloc fuel fType bufLen = some (.ok (r, size)) → r.rc = 0 →
      r.outlen ≤ r.written.length
  | _ => True

end FillOp

end Ssh2Python
