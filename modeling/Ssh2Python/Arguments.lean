import Ssh2Python.Agent
import Ssh2Python.KeyboardInteractive
import Ssh2Python.Open
import Ssh2Python.SftpHandle

/-!
# String arguments

How the methods hand text and bytes to `libssh2`. An argument is checked against its declaration, it
is converted by `to_bytes`, and what is passed is a pointer into the `bytes` object. The length
comes from somewhere else: from a macro of `libssh2.h` or the function itself, which look for a NUL,
from `len`, or from the caller; and `libssh2` may use less than it is given, because it keeps a
string as a C string or its length in 32 bits. A method is the list of its parameters in the order
of their conversion; numeric arguments are left out unless they are lengths.
-/

namespace Ssh2Python

open Lib.CInt Lib.CString

/-! ## Parameters -/

/-- Where the length of a string comes from. -/
inductive Measure
  /-- `(unsigned int)strlen(s)`, in a macro or where `_libssh2_store_str` puts it into a packet. -/
  | strlen32
  /-- A C string, or one that is kept as a C string although its length is given. -/
  | strlen
  /-- A C string that is copied into a buffer with this much room, if the reader of the key has
  one. -/
  | strlenUpTo (room : Option Nat)
  /-- `len` of the bytes, for a parameter or a field of 32 bits. -/
  | len32
  /-- `len` of the bytes, for a `size_t`. -/
  | len
  /-- `(int)len` for `BIO_new_mem_buf`, which looks for a NUL when it is negative. -/
  | memBuf
  /-- `cdef int n = len(argument)`, for a `size_t`. -/
  | argumentLen
  /-- An `unsigned int` that the caller gives. -/
  | given (n : Int)
  deriving DecidableEq, Repr

/-- What becomes of `None`. -/
inductive NoneRule
  /-- The parameter is declared `not None`. -/
  | rejected
  /-- There is no `char *` of `None`. -/
  | noPointer
  /-- NULL, or the value that stands for nothing. -/
  | null
  deriving DecidableEq, Repr

structure Param where
  measure : Measure
  /-- It goes through `to_bytes`; the others are declared `bytes` or `const char *`. -/
  text : Bool := true
  ifNone : NoneRule := .rejected
  /-- It is converted by the callback, while the native call runs. -/
  inCallback : Bool := false
  default : Option PyObj := none

/-- A string as `libssh2` gets it: the bytes of the object that the pointer points into, and the
length. -/
structure NativeString where
  data : List UInt8
  len : Nat
  deriving DecidableEq, Repr

/-- The bytes that `libssh2` acts on; a NUL follows the data of a `bytes` object. -/
def NativeString.acts (s : NativeString) : List UInt8 :=
  (s.data ++ [0]).take s.len

/-- `len` of an argument. -/
def pyLen : PyObj → Nat
  | .bytes b => b.length
  | .text s => s.points.length
  | _ => 0

def Measure.length (x : PyObj) (b : PyBytes) : Measure → Nat
  | .strlen32 => (toUInt32 (Lib.CString.strlen (b.data ++ [0]))).toNat
  | .strlen => Lib.CString.strlen (b.data ++ [0])
  | .strlenUpTo none => Lib.CString.strlen (b.data ++ [0])
  | .strlenUpTo (some room) => min (Lib.CString.strlen (b.data ++ [0])) room
  | .len32 => (toUInt32 b.length).toNat
  | .len => b.length
  | .memBuf =>
    if 0 ≤ toInt32 b.length then (toInt32 b.length).toNat else Lib.CString.strlen (b.data ++ [0])
  | .argumentLen => toSize (toInt32 (pyLen x))
  | .given n => n.toNat

def typeError : PyExc := { cls := .typeError }

/-- The conversion of a length that the caller gives. -/
def Measure.check : Measure → Except PyExc Unit
  | .given n => if 0 ≤ n ∧ n < 2 ^ 32 then .ok () else .error { cls := .overflowError }
  | _ => .ok ()

namespace Param

/-- The declaration of the parameter, before anything else is done. -/
def check (p : Param) (x : PyObj) : Except PyExc Unit :=
  match x with
  | .none => if p.ifNone = .rejected then .error typeError else .ok ()
  | .bytes _ => p.measure.check
  | .text _ => if p.text then p.measure.check else .error typeError
  | .other => if p.text then .ok () else .error typeError

/-- `to_bytes`. A response that the callback cannot convert leaves its slot empty. -/
def toBytes (p : Param) (x : PyObj) : Except PyExc (Option PyBytes) :=
  if p.inCallback then
    match responseBytes x with
    | .ok b => .ok (some b)
    | .error _ => .ok (some ⟨[], by decide⟩)
  else Ssh2Python.toBytes x

/-- The conversion to a pointer, with the length. -/
def pointer (p : Param) (x : PyObj) : Option PyBytes → Except PyExc (Option NativeString)
  | some b => .ok (some ⟨b.data, p.measure.length x b⟩)
  | none => if p.ifNone = .null then .ok none else .error typeError

end Param

/-- The arguments of a call; a parameter that is left out has its default. -/
def fillArgs : List Param → List (Option PyObj) → Except PyExc (List (Param × PyObj))
  | [], [] => .ok []
  | p :: ps, a :: as => match a.or p.default with
    | none => .error typeError
    | some x => (fillArgs ps as).map ((p, x) :: ·)
  | _, _ => .error typeError

/-- All declarations are checked first, then all strings are converted. -/
def nativeStrings (vals : List (Param × PyObj)) : Except PyExc (List (Option NativeString)) := do
  let _ ← vals.mapM fun v => v.1.check v.2
  let bs ← vals.mapM fun v => v.1.toBytes v.2
  (vals.zip bs).mapM fun v => v.1.1.pointer v.1.2 v.2

/-! ## The methods -/

/-- The methods that pass strings. A method that makes one native call is named by it; `room` is
what the reader of a private key, which depends on the format of the key, takes of its
passphrase. -/
inductive StringMethod
  | userauthList | userauthPublickeyFromfile (room : Option Nat) | userauthPublickey
  | userauthHostbasedFromfile (room : Option Nat) | userauthPublickeyFrommemory (room : Option Nat)
  | userauthPassword | userauthKeyboardinteractive
  | userauthKeyboardinteractiveCallback | agentAuth | directTcpipEx | directTcpip
  | directStreamlocalEx | forwardListenEx | setLastError | scpRecv2 | scpSend64 | methodPref
  | channelPty | channelExecute | channelSubsystem | channelSetenv | channelProcessStartup
  | channelSignal | channelX11ReqEx
  | sftpOpenEx (filenameLen : Int) | sftpOpen | sftpOpendir
  | sftpRenameEx (sourceFilenameLen destFilenameLen : Int) | sftpRename | sftpUnlink | sftpStatvfs
  | sftpMkdir | sftpRmdir | sftpStat | sftpLstat | sftpSetstat | sftpSymlink | sftpRealpath
  | agentUserauth | agentSetIdentityPath
  | knownHostAddc (typemask : Int) | knownHostCheckp (typemask : Int) | knownHostReadline
  | knownHostReadfile
  | knownHostWritefile
  | publicKeySystemAdd | publicKeySystemRemove
  deriving DecidableEq, Repr

/-- `''` -/
def emptyText : PyObj :=
  .text ⟨[]⟩

/-- `'vt100'` -/
def vt100 : PyObj :=
  .text (PyStr.ofChars "vt100".toList)

/-- A key that is base64 (`LIBSSH2_KNOWNHOST_KEYENC_BASE64`) is kept and compared as a C string, one
that is not is encoded with its length. -/
def knownHostKey (typemask : Int) : Measure :=
  if typemask / 2 ^ 17 % 2 = 1 then .strlen else .len

namespace StringMethod

/-- The parameters, in the order in which the method converts them. -/
def params : StringMethod → List Param
  -- user name
  | userauthList => [{ measure := .len32 }]
  -- user name, public key, private key, passphrase
  | userauthPublickeyFromfile room =>
    [{ measure := .strlen32 }, { measure := .strlen, ifNone := .null, default := some .none },
     { measure := .strlen },
     { measure := .strlenUpTo room, ifNone := .noPointer, default := some emptyText }]
  -- user name, public key data
  | userauthPublickey => [{ measure := .strlen32 }, { measure := .len32, text := false }]
  -- user name, public key, private key, passphrase, host name
  | userauthHostbasedFromfile room =>
    [{ measure := .strlen32 }, { measure := .strlen, ifNone := .null, default := some .none },
     { measure := .strlen },
     { measure := .strlenUpTo room, ifNone := .noPointer, default := some emptyText },
     { measure := .strlen32 }]
  -- user name, passphrase, private key, public key
  | userauthPublickeyFrommemory room =>
    [{ measure := .len32, ifNone := .noPointer },
     { measure := .strlenUpTo room, ifNone := .noPointer, default := some emptyText },
     { measure := .memBuf, text := false, ifNone := .noPointer },
     { measure := .len, text := false, ifNone := .null, default := some .none }]
  -- user name, password
  | userauthPassword => [{ measure := .strlen32 }, { measure := .strlen32 }]
  | userauthKeyboardinteractive =>
    [{ measure := .strlen32 }, { measure := .len32, inCallback := true }]
  | userauthKeyboardinteractiveCallback => [{ measure := .strlen32 }]
  | agentAuth => [{ measure := .strlen32 }]
  -- host, source host
  | directTcpipEx => [{ measure := .strlen32 }, { measure := .strlen32 }]
  | directTcpip => [{ measure := .strlen32 }]
  -- socket path, source host
  | directStreamlocalEx => [{ measure := .strlen32 }, { measure := .strlen32 }]
  | forwardListenEx => [{ measure := .strlen32, ifNone := .null, default := some .none }]
  | setLastError => [{ measure := .strlen }]
  | scpRecv2 => [{ measure := .strlen }]
  | scpSend64 => [{ measure := .strlen }]
  | methodPref => [{ measure := .strlen }]
  | channelPty => [{ measure := .strlen32, ifNone := .noPointer, default := some vt100 }]
  | channelExecute => [{ measure := .strlen32 }]
  | channelSubsystem => [{ measure := .strlen32 }]
  -- name, value
  | channelSetenv => [{ measure := .strlen32 }, { measure := .strlen32 }]
  -- request, message
  | channelProcessStartup =>
    [{ measure := .len32, ifNone := .noPointer },
     { measure := .len32, ifNone := .null, default := some .none }]
  | channelSignal => [{ measure := .argumentLen }]
  -- protocol, cookie
  | channelX11ReqEx =>
    [{ measure := .strlen32, text := false }, { measure := .strlen32, text := false }]
  | sftpOpenEx filenameLen => [{ measure := .given filenameLen, text := false }]
  | sftpOpen => [{ measure := .strlen32 }]
  | sftpOpendir => [{ measure := .strlen32 }]
  | sftpRenameEx sourceFilenameLen destFilenameLen =>
    [{ measure := .given sourceFilenameLen, text := false },
     { measure := .given destFilenameLen, text := false }]
  | sftpRename => [{ measure := .strlen32 }, { measure := .strlen32 }]
  | sftpUnlink => [{ measure := .strlen32 }]
  | sftpStatvfs => [{ measure := .len32, ifNone := .noPointer }]
  | sftpMkdir => [{ measure := .strlen32 }]
  | sftpRmdir => [{ measure := .strlen32 }]
  | sftpStat => [{ measure := .strlen32 }]
  | sftpLstat => [{ measure := .strlen32 }]
  | sftpSetstat => [{ measure := .strlen32 }]
  -- path, target
  | sftpSymlink => [{ measure := .strlen32 }, { measure := .strlen32 }]
  | sftpRealpath => [{ measure := .strlen32 }]
  | agentUserauth => [{ measure := .strlen32 }]
  | agentSetIdentityPath => [{ measure := .strlen }]
  -- host, key, salt, comment
  | knownHostAddc typemask =>
    [{ measure := .strlen, text := false }, { measure := knownHostKey typemask, text := false },
     { measure := .strlen, text := false, ifNone := .null, default := some .none },
     { measure := .strlen, text := false, ifNone := .null, default := some .none }]
  -- host, key
  | knownHostCheckp typemask =>
    [{ measure := .strlen, text := false }, { measure := knownHostKey typemask, text := false }]
  | knownHostReadline => [{ measure := .strlen, text := false }]
  | knownHostReadfile => [{ measure := .strlen }]
  | knownHostWritefile => [{ measure := .strlen }]
  -- name, blob
  | publicKeySystemAdd =>
    [{ measure := .len32, text := false, ifNone := .noPointer },
     { measure := .len32, text := false, ifNone := .noPointer }]
  | publicKeySystemRemove =>
    [{ measure := .len32, text := false, ifNone := .noPointer },
     { measure := .len32, text := false, ifNone := .noPointer }]

end StringMethod

/-! ## What should be passed -/

/-- The bytes that an argument stands for. -/
def PyObj.utf8 : PyObj → Option (List UInt8)
  | .bytes b => some b.data
  | .text s => match s.encode with
    | .ok b => some b.data
    | .error _ => .none
  | _ => .none

/-- `libssh2` acts on the argument, and on all of it. -/
def ArgExact (x : PyObj) : Option NativeString → Prop
  | some s => x.utf8 = some s.acts ∧ s.acts.length = s.len
  | none => x = .none

/-- The call raises before the native call, or all its arguments reach `libssh2` as they are. -/
def StringMethod.PassesExactly (m : StringMethod) (args : List (Option PyObj)) : Prop :=
  ∀ vals strs, fillArgs m.params args = .ok vals → nativeStrings vals = .ok strs →
    List.Forall₂ (fun v s => ArgExact v.2 s) vals strs

/-- The measure finds the length of the argument `x`, whose bytes are `b`. -/
def Measure.Finds (x : PyObj) (b : List UInt8) : Measure → Prop
  | .strlen32 => 0 ∉ b ∧ b.length < 2 ^ 32
  | .strlen => 0 ∉ b
  | .strlenUpTo none => 0 ∉ b
  | .strlenUpTo (some room) => 0 ∉ b ∧ b.length ≤ room
  | .len32 => b.length < 2 ^ 32
  | .len => True
  | .memBuf => b.length < 2 ^ 31 ∨ toInt32 b.length < 0 ∧ 0 ∉ b
  | .argumentLen => pyLen x = b.length ∧ b.length < 2 ^ 31
  | .given n => n = b.length

/-- An argument that is passed has the length that its measure finds; one that only the callback
converts can be converted. -/
def Param.Fits (p : Param) (x : PyObj) : Prop :=
  (∀ b, x.utf8 = some b → p.measure.Finds x b) ∧ (p.inCallback = true → x.utf8 ≠ none)

/-- The call raises before the native call, or all its arguments fit their parameters. -/
def StringMethod.ArgsFit (m : StringMethod) (args : List (Option PyObj)) : Prop :=
  ∀ vals strs, fillArgs m.params args = .ok vals → nativeStrings vals = .ok strs →
    ∀ v ∈ vals, v.1.Fits v.2

end Ssh2Python
