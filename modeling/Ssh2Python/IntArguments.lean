import Ssh2Python.Buffers
import Ssh2Python.KnownHostLine

/-!
# Integer arguments

An integer argument crosses two declarations. The parameter of the method has a C type, and an
integer outside of it raises `OverflowError`; the parameter of the native function has another one,
and there the value is converted without a check. A method is the list of these crossings, in the
order of its parameters, with what else can raise before the native call. The strings that are
passed are in `Ssh2Python.Arguments`.
-/

namespace Ssh2Python

open Lib.CInt

structure IntParam where
  value : Int
  /-- The type that the method declares. -/
  accepts : IntType
  /-- The type in the prototype of the native function. -/
  native : IntType

/-- The conversion of a Python integer to a C type. -/
def pyLongAs (t : IntType) (x : Int) : Except PyExc Int :=
  if t.Contains x then .ok x else .error { cls := .overflowError }

/-- The integers of the native call. -/
def passInts : List IntParam → Except PyExc (List Int)
  | [] => .ok []
  | p :: ps => do
    let x ← pyLongAs p.accepts p.value
    let xs ← passInts ps
    return p.native.convert x :: xs

inductive IntFn
  | channelReceiveWindowAdjust2 | scpSend64 | sftpRealpath | sftpOpenEx | sftpOpen
  | knownhostWriteline | sftpSeek64
  deriving DecidableEq, Repr

/-- A call of a method that passes integers. -/
structure IntMethod where
  fn : IntFn
  /-- What is converted in front of the integers. -/
  before : Except PyExc Unit := .ok ()
  params : List IntParam
  /-- What is converted or allocated behind them. -/
  behind : Except PyExc Unit := .ok ()

/-- The native call, if there is one. -/
def IntMethod.call (m : IntMethod) : Except PyExc (IntFn × List Int) := do
  let _ ← m.before
  let xs ← passInts m.params
  let _ ← m.behind
  return (m.fn, xs)

namespace IntMethod

/-- `Channel.receive_window_adjust2` -/
def receiveWindowAdjust2 (adjustment force : Int) : IntMethod where
  fn := .channelReceiveWindowAdjust2
  params := [⟨adjustment, .ulong, .ulong⟩, ⟨force, .ulong, .uchar⟩]

/-- `Session.scp_send64`: the size is a `libssh2_uint64_t` here and a `libssh2_int64_t` there. -/
def scpSend64 (path : PyObj) (mode size mtime atime : Int) : IntMethod where
  fn := .scpSend64
  params := [⟨mode, .int, .int⟩, ⟨size, .ulong, .long⟩, ⟨mtime, .long, .long⟩,
    ⟨atime, .long, .long⟩]
  behind := (bytesArg path).map fun _ => ()

/-- `SFTP.realpath`; `libssh2_sftp_realpath` is a macro for `libssh2_sftp_symlink_ex`, whose
`target_len` is an `unsigned int`. -/
def realpath (alloc : Nat → Bool) (path : PyObj) (maxLen : Int) : IntMethod where
  fn := .sftpRealpath
  params := [⟨maxLen, .ulong, .uint⟩]
  behind :=
    if path = .none then .error { cls := .typeError }
    else if alloc maxLen.toNat = false then .error memoryError
    else (bytesArg path).map fun _ => ()

/-- `SFTP.open_ex` -/
def openEx (filename : PyObj) (filenameLen flags mode openType : Int) : IntMethod where
  fn := .sftpOpenEx
  before := (Buffers.bytesNotNone filename).map fun _ => ()
  params := [⟨filenameLen, .uint, .uint⟩, ⟨flags, .ulong, .ulong⟩, ⟨mode, .long, .long⟩,
    ⟨openType, .int, .int⟩]

/-- `SFTP.open` -/
def sftpOpen (filename : PyObj) (flags mode : Int) : IntMethod where
  fn := .sftpOpen
  params := [⟨flags, .ulong, .ulong⟩, ⟨mode, .long, .long⟩]
  behind := (bytesArg filename).map fun _ => ()

/-- `KnownHost.writeline`, up to its first native call. -/
def writeline (alloc : Nat → Bool) (fType bufLen : Int) : IntMethod where
  fn := .knownhostWriteline
  params := [⟨fType, .int, .int⟩, ⟨bufLen, .ulong, .ulong⟩]
  behind := if alloc bufLen.toNat = false then .error memoryError else .ok ()

/-- `SFTPHandle.seek64` -/
def seek64 (offset : Int) : IntMethod where
  fn := .sftpSeek64
  params := [⟨offset, .ulong, .ulong⟩]

def Accepts (m : IntMethod) : Prop :=
  ∀ p ∈ m.params, p.accepts.Contains p.value

/-- An integer outside of its declared type raises; integers inside reach the native function,
unless something else raises, and reach it as they are. -/
structure ForwardsExactly (m : IntMethod) : Prop where
  rejects : ¬m.Accepts → ∃ e, m.call = .error e
  reaches : m.Accepts → m.before = .ok () → m.behind = .ok () → ∃ xs, m.call = .ok (m.fn, xs)
  exact : ∀ fn xs, m.call = .ok (fn, xs) → xs = m.params.map (·.value)

end IntMethod

/-! ## The operations -/

/-- An operation with the integers that it is given. -/
inductive IntOp
  | receiveWindowAdjust2 (adjustment force : Int)
  | scpSend64 (mode size mtime atime : Int)
  | realpath (maxLen : Int)
  | openEx (filenameLen flags mode openType : Int)
  | sftpOpen (flags mode : Int)
  | writeline (fType bufLen : Int)
  | seek64 (offset : Int)
  deriving DecidableEq, Repr

/-- The call, for the sizes that `malloc` gives and the text that is passed with the integers. -/
def IntOp.method (alloc : Nat → Bool) (text : PyObj) : IntOp → IntMethod
  | .receiveWindowAdjust2 adjustment force => .receiveWindowAdjust2 adjustment force
  | .scpSend64 mode size mtime atime => .scpSend64 text mode size mtime atime
  | .realpath maxLen => .realpath alloc text maxLen
  | .openEx filenameLen flags mode openType => .openEx text filenameLen flags mode openType
  | .sftpOpen flags mode => .sftpOpen text flags mode
  | .writeline fType bufLen => .writeline alloc fType bufLen
  | .seek64 offset => .seek64 offset

/-- The integers are rejected, or the one whose native type is smaller than its declared type is in
the native type too. -/
def IntOp.Fits : IntOp → Prop
  | .receiveWindowAdjust2 adjustment force =>
    IntType.ulong.Contains adjustment → IntType.ulong.Contains force → force < 2 ^ 8
  | .scpSend64 mode size mtime atime =>
    IntType.int.Contains mode → IntType.ulong.Contains size → IntType.long.Contains mtime →
      IntType.long.Contains atime → size < 2 ^ 63
  | .realpath maxLen => IntType.ulong.Contains maxLen → maxLen < 2 ^ 32
  | .openEx _ _ _ _ | .sftpOpen _ _ | .writeline _ _ | .seek64 _ => True

end Ssh2Python
