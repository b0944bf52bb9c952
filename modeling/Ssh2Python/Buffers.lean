import Ssh2Python.Sftp

/-!
# Native buffers

The methods that allocate native buffers, or take over one that `libssh2` allocated, with every
`malloc` and `free` they make. The buffers of a call are numbered from zero; the calls of an
`Effect` are here the events of the buffers, where `.acquire` is a `malloc` of the bindings or a
buffer handed over by `libssh2`. Objects that hold a buffer go when the call has raised, or with its
result, so their destructors are part of the call.
-/

namespace Ssh2Python

open Lib.CInt Lib.Ledger

/-! ## C memory -/

abbrev Buf (α : Type) := Effect (Event Nat) α

/-- NULL, or a buffer of the call. -/
abbrev BufPtr := Option Nat

def malloc (i : Nat) (succeeds : Bool) : Buf BufPtr :=
  if succeeds then ⟨[.acquire i], .ok (some i)⟩ else ⟨[], .ok none⟩

/-- `libssh2` reads or writes the buffer. -/
def pass : BufPtr → Buf Unit
  | some i => .emit (.call i)
  | none => pure ()

/-- `free`, which does nothing for NULL. -/
def free : BufPtr → Buf Unit
  | some i => .emit (.release i)
  | none => pure ()

/-- `try: ... finally: ...` -/
def Effect.andFinally {κ α : Type} (body : Effect κ α) (last : Effect κ Unit) : Effect κ α :=
  ⟨body.calls ++ last.calls, body.result⟩

/-- A conversion to a Python object, which may raise. -/
def converted {α : Type} (a : α) : Option PyExc → Buf α
  | none => pure a
  | some e => .raise e

/-- `malloc`, and `MemoryError` if it fails. -/
def mallocOrRaise (i : Nat) (succeeds : Bool) : Buf BufPtr := do
  let p ← malloc i succeeds
  if p = none then .raise memoryError else return p

/-- `buf = cbuf[:rc]` if `rc > 0`, else `b''`. -/
def copyBytes (native : NativeFill) (copy : Option PyExc) : Buf (List UInt8) :=
  if 0 < native.rc then converted native.bytes copy else return []

/-- `b_longentry = longentry` if `rc > 0`, else `b''`. -/
def copyLongentry (native : NativeEntry) (copy : Option PyExc) : Buf (List UInt8) :=
  if 0 < native.rc
  then converted (native.longentry.take (Lib.CString.strlen native.longentry)) copy
  else return []

namespace Buffers

/-! ## Reading -/

/-- `Channel.read_ex` -/
def channelReadEx (alloc : Bool) (native : NativeFill) (copy : Option PyExc) :
    Buf (Int × List UInt8) := do
  let cbuf ← mallocOrRaise 0 alloc
  pass cbuf
  let buf ← (copyBytes native copy).andFinally (free cbuf)
  let _ ← Effect.lift (handleErrorCodes (toInt32 native.rc))
  return (native.rc, buf)

/-- `SFTPHandle.read` -/
def sftpHandleRead (alloc : Bool) (native : NativeFill) (copy : Option PyExc) :
    Buf (Int × List UInt8) := do
  let cbuf ← mallocOrRaise 0 alloc
  pass cbuf
  let buf ← (copyBytes native copy).andFinally (free cbuf)
  return (native.rc, buf)

/-- `SFTPAttributes()`, used by the rest of the call and freed by its destructor. -/
def withAttributes {α : Type} (alloc : Bool) (body : BufPtr → Buf α) : Buf α := do
  let attrs ← mallocOrRaise 0 alloc
  (body attrs).andFinally (free attrs)

/-- `SFTPHandle._readdir` -/
def readdirOnce (allocAttrs alloc : Bool) (native : NativeEntry) (copy : Option PyExc) :
    Buf (Int × List UInt8 × SftpAttrs) :=
  withAttributes allocAttrs fun attrs => do
    let cbuf ← mallocOrRaise 1 alloc
    pass cbuf
    pass attrs
    let buf ← (copyBytes native.toNativeFill copy).andFinally (free cbuf)
    return (native.rc, buf, native.attrs)

/-- `SFTPHandle._readdir_ex`: the two buffers are looked at together. -/
def readdirExOnce (allocAttrs alloc allocLong : Bool) (native : NativeEntry)
    (copy copyLong : Option PyExc) : Buf (Int × List UInt8 × List UInt8 × SftpAttrs) :=
  withAttributes allocAttrs fun attrs => do
    let cbuf ← malloc 1 alloc
    let longentry ← malloc 2 allocLong
    if cbuf = none ∨ longentry = none then .raise memoryError
    else
      pass cbuf
      pass longentry
      pass attrs
      let bufs ← Effect.andFinally
        (do
          let buf ← copyBytes native.toNativeFill copy
          let entry ← copyLongentry native copyLong
          return (buf, entry))
        (do
          free cbuf
          free longentry)
      return (native.rc, bufs.1, bufs.2, native.attrs)

/-- `SFTP.realpath`: the path is converted after the buffer was allocated, outside of the `try`. -/
def sftpRealpath (path : PyObj) (alloc : Bool) (native : NativeFill) : Buf RealpathResult :=
  if path = .none then .raise { cls := .typeError }
  else do
    let target ← mallocOrRaise 0 alloc
    let _ ← Effect.lift (bytesArg path)
    pass target
    Effect.andFinally
      (.lift (if native.rc < 0 then (handleErrorCodes native.rc).map .code
        else (toStrLen native.buf native.rc.toNat).map .path))
      (free target)

/-! ## Buffers that `libssh2` hands over -/

/-- `libssh2_session_last_error` with `want_buf`: it allocates a copy of the message and overwrites
the pointer, also when that fails. -/
structure NativeLastError where
  message : List UInt8
  alloc : Bool

/-- `Session.last_error`: the pointer to the buffer of the bindings is the one that is overwritten.
`fresh` is what a new `bytes` object of a given length holds, and keeps when it is made from
NULL. -/
def sessionLastError (alloc : Bool) (fresh : Nat → List UInt8) (native : NativeLastError) :
    Buf PyStr := do
  let _ ← malloc 0 alloc
  let errorMsg ← malloc 1 native.alloc
  let msg := if native.message ≠ [] ∧ errorMsg = none then fresh native.message.length
    else native.message
  Effect.andFinally
    (do
      pass errorMsg
      Effect.lift (toStr (msg ++ [0])))
    (free errorMsg)

/-- `libssh2_session_supported_algs`: a code that is not positive, or an array with the names. -/
inductive NativeAlgs
  | code (rc : Int) (notPos : rc ≤ 0)
  | names (first : CText) (rest : List CText)

inductive AlgsResult
  | code (v : Int)
  | names (xs : List PyStr)

/-- `Session.supported_algs` -/
def sessionSupportedAlgs : NativeAlgs → Buf AlgsResult
  | .code rc _ =>
    if rc < 0 then do
      let v ← Effect.lift (handleErrorCodes rc)
      return .code v
    else return .names []
  | .names first rest => do
    let algs ← malloc 0 true
    Effect.andFinally
      (do
        pass algs
        let xs ← Effect.lift ((first :: rest).mapM fun name => toStr name.mem)
        return .names xs)
      (free algs)

/-- `libssh2_channel_get_exit_signal`: the channel has no signal, or its name is copied to a new
buffer, or there is no memory for it. -/
inductive NativeSignal
  | none
  | name (s : List UInt8)
  | noMemory
  deriving DecidableEq

/-- What it returns. -/
def NativeSignal.rc : NativeSignal → Int
  | .noMemory => ErrorCode.alloc.value
  | _ => 0

/-- `Channel.get_exit_signal`: the pointers for the lengths are NULL, so all lengths stay zero and
nothing is made of the name. -/
def channelGetExitSignal (native : NativeSignal) : Buf Int := do
  let exitsignal ← match native with
    | .name _ => malloc 0 true
    | _ => pure Option.none
  pass exitsignal
  let _ ← Effect.lift (handleErrorCodes native.rc)
  return native.rc

/-! ## Known hosts -/

/-- A parameter declared `bytes`. -/
def bytesOrNone : PyObj → Except PyExc (Option PyBytes)
  | .bytes b => .ok (some b)
  | .none => .ok none
  | _ => .error { cls := .typeError }

/-- A parameter declared `bytes ... not None`. -/
def bytesNotNone (x : PyObj) : Except PyExc PyBytes := do
  match ← bytesOrNone x with
  | some b => return b
  | none => throw { cls := .typeError }

/-- `_store`: a buffer of the bindings, or a node that belongs to the collection. -/
inductive Store
  | buffer (p : BufPtr)
  | node
  deriving DecidableEq

/-- The destructor of `KnownHostEntry` is named `_dealloc__`, which nothing calls. -/
def entryDealloc : Store → Buf Unit
  | _ => pure ()

/-- `PyNewKnownHostEntry` -/
def newKnownHostEntry (alloc : Bool) : Buf Store := do
  let p ← mallocOrRaise 0 alloc
  return .buffer p

def addError (host : PyBytes) (rc : Int) : PyExc where
  cls := .knownHostAddError
  args := [.text "Error adding known host entry for host %s - error code %s", .bytes host.data,
    .int rc]

/-- `KnownHost.addc`: `libssh2_knownhost_addc` sets the store when it returns 0. -/
def knownHostAddc (host key salt comment : PyObj) (alloc : Bool) (rc : Int) : Buf Unit := do
  let host ← Effect.lift (bytesNotNone host)
  let _ ← Effect.lift (bytesNotNone key)
  let _ ← Effect.lift (bytesOrNone salt)
  let _ ← Effect.lift (bytesOrNone comment)
  let own ← newKnownHostEntry alloc
  let store := if rc = 0 then Store.node else own
  Effect.andFinally
    (if rc ≠ 0 then .raise (addError host rc) else return ())
    (entryDealloc store)

/-- The exception of `KnownHost.checkp` for a code other than `LIBSSH2_KNOWNHOST_CHECK_MATCH`. -/
def checkError (host : PyBytes) (rc : Int) : PyExc :=
  if rc = 3 then
    { cls := .knownHostCheckFailure
      args := [.text "Could not check known host entry for host %s - error code %s",
        .bytes host.data, .int rc] }
  else if rc = 2 then
    { cls := .knownHostCheckNotFoundError
      args := [.text "Host %s not found in known hosts collection", .bytes host.data] }
  else if rc = 1 then
    { cls := .knownHostCheckMisMatchError
      args := [.text "Known host key for host %s does not match provided key - error code %s",
        .bytes host.data, .int rc] }
  else
    { cls := .knownHostCheckError
      args := [.text "Unknown error occurred checking known host %s", .bytes host.data] }

/-- `KnownHost.checkp`: `libssh2_knownhost_checkp` sets the store to the node that it found, if it
found one; `found` says so. -/
def knownHostCheckp (host key : PyObj) (alloc : Bool) (rc : Int) (found : Bool) : Buf Unit := do
  let host ← Effect.lift (bytesNotNone host)
  let _ ← Effect.lift (bytesNotNone key)
  let own ← newKnownHostEntry alloc
  let store := if found then Store.node else own
  Effect.andFinally (if rc ≠ 0 then .raise (checkError host rc) else return ()) (entryDealloc store)

/-- What happens to a call of `KnownHost.writeline`. -/
inductive Writeline
  /-- The call itself raises: an argument is rejected, or the recursion is too deep. -/
  | refused (e : PyExc)
  | noMemory
  /-- `LIBSSH2_ERROR_BUFFER_TOO_SMALL`, and what happens to the recursive call. -/
  | tooSmall (again : Writeline)
  | code (rc : Int) (ne : rc ≠ 0 ∧ rc ≠ ErrorCode.bufferTooSmall.value)
  | line (output : List UInt8) (copy : Option PyExc)

/-- `KnownHost.writeline`, which calls itself inside its `try`. -/
def knownHostWriteline (depth : Nat) : Writeline → Buf (List UInt8)
  | .refused e => .raise e
  | .noMemory => do
    let _ ← mallocOrRaise depth false
    return []
  | .tooSmall again => do
    let buf ← mallocOrRaise depth true
    pass buf
    (knownHostWriteline (depth + 1) again).andFinally (free buf)
  | .code rc _ => do
    let buf ← mallocOrRaise depth true
    pass buf
    Effect.andFinally
      (.raise { cls := .knownHostWriteLineError,
                args :=
                  [.text "Error writing line for known host entry - error code %s", .int rc] })
      (free buf)
  | .line output copy => do
    let buf ← mallocOrRaise depth true
    pass buf
    (if output ≠ [] then converted output copy else return []).andFinally (free buf)

/-! ## Public keys -/

/-- The loop of `to_c_attr`: of each element of the list, the exception that its conversion
raises. -/
def convertAttrs : List (Option PyExc) → Except PyExc Unit
  | [] => .ok ()
  | none :: attrs => convertAttrs attrs
  | some e :: _ => .error e

/-- `to_c_attr` -/
def toCAttr (attrs : List (Option PyExc)) (alloc : Bool) : Buf BufPtr := do
  let p ← mallocOrRaise 0 alloc
  let _ ← Effect.lift (convertAttrs attrs)
  return p

/-- `_attrs`, which stays NULL for an empty list. -/
def attrsPointer (attrs : List (Option PyExc)) (alloc : Bool) : Buf BufPtr :=
  if attrs = [] then pure none else toCAttr attrs alloc

/-- `PublicKeySystem.add`; a list that is `None` has no length. -/
def publicKeySystemAdd (name blob : PyObj) (attrs : Option (List (Option PyExc))) (alloc : Bool)
    (rc : Int) : Buf Int := do
  let name ← Effect.lift (bytesOrNone name)
  let blob ← Effect.lift (bytesOrNone blob)
  if name = none then .raise { cls := .typeError }
  else match attrs with
    | none => .raise { cls := .typeError }
    | some attrs =>
      let p ← attrsPointer attrs alloc
      if blob = none then .raise { cls := .typeError }
      else
        pass p
        free p
        .lift (handleErrorCodes rc)

end Buffers

/-! ## Operations -/

/-- An operation that uses buffers, with its native results and what raises on the way. -/
inductive BufferOp
  | channelReadEx (alloc : Bool) (native : NativeFill) (copy : Option PyExc)
  | channelGetExitSignal (native : Buffers.NativeSignal)
  | sftpHandleRead (alloc : Bool) (native : NativeFill) (copy : Option PyExc)
  | readdir (allocAttrs alloc : Bool) (native : NativeEntry) (copy : Option PyExc)
  | readdirEx (allocAttrs alloc allocLong : Bool) (native : NativeEntry)
      (copy copyLong : Option PyExc)
  | sftpRealpath (path : PyObj) (alloc : Bool) (native : NativeFill)
  | sessionLastError (alloc : Bool) (fresh : Nat → List UInt8) (native : Buffers.NativeLastError)
  | sessionSupportedAlgs (native : Buffers.NativeAlgs)
  | knownHostAddc (host key salt comment : PyObj) (alloc : Bool) (rc : Int)
  | knownHostCheckp (host key : PyObj) (alloc : Bool) (rc : Int) (found : Bool)
  | knownHostWriteline (call : Buffers.Writeline)
  | publicKeySystemAdd (name blob : PyObj) (attrs : Option (List (Option PyExc))) (alloc : Bool)
      (rc : Int)

/-- What happens to the buffers of the call, until the objects it returned are gone. -/
def BufferOp.log : BufferOp → List (Event Nat)
  | .channelReadEx alloc native copy => (Buffers.channelReadEx alloc native copy).calls
  | .channelGetExitSignal native => (Buffers.channelGetExitSignal native).calls
  | .sftpHandleRead alloc native copy => (Buffers.sftpHandleRead alloc native copy).calls
  | .readdir allocAttrs alloc native copy =>
    (Buffers.readdirOnce allocAttrs alloc native copy).calls
  | .readdirEx allocAttrs alloc allocLong native copy copyLong =>
    (Buffers.readdirExOnce allocAttrs alloc allocLong native copy copyLong).calls
  | .sftpRealpath path alloc native => (Buffers.sftpRealpath path alloc native).calls
  | .sessionLastError alloc fresh native => (Buffers.sessionLastError alloc fresh native).calls
  | .sessionSupportedAlgs native => (Buffers.sessionSupportedAlgs native).calls
  | .knownHostAddc host key salt comment alloc rc =>
    (Buffers.knownHostAddc host key salt comment alloc rc).calls
  | .knownHostCheckp host key alloc rc found =>
    (Buffers.knownHostCheckp host key alloc rc found).calls
  | .knownHostWriteline call => (Buffers.knownHostWriteline 0 call).calls
  | .publicKeySystemAdd name blob attrs alloc rc =>
    (Buffers.publicKeySystemAdd name blob attrs alloc rc).calls

/-- Whatever buffers are owned before the call, the same are owned after it, and none is passed or
released that is not owned. -/
def BufferOp.KeepsBuffers (op : BufferOp) : Prop :=
  Keeps op.log

/-- Where the buffers are kept. -/
def BufferOp.Settles : BufferOp → Prop
  | .channelGetExitSignal native => ∀ s, native ≠ .name s
  -- both buffers, or none
  | .readdirEx allocAttrs alloc allocLong _ _ _ => allocAttrs = true → alloc = allocLong
  | .sftpRealpath path alloc _ => path = .none ∨ alloc = false ∨ ∃ b, bytesArg path = .ok b
  | .sessionLastError alloc _ _ => alloc = false
  | .knownHostAddc host key salt comment alloc _ =>
    alloc = false ∨ (∃ e, Buffers.bytesNotNone host = .error e) ∨
      (∃ e, Buffers.bytesNotNone key = .error e) ∨ (∃ e, Buffers.bytesOrNone salt = .error e) ∨
      ∃ e, Buffers.bytesOrNone comment = .error e
  | .knownHostCheckp host key alloc _ _ =>
    alloc = false ∨ (∃ e, Buffers.bytesNotNone host = .error e) ∨
      ∃ e, Buffers.bytesNotNone key = .error e
  | .publicKeySystemAdd name blob attrs alloc _ =>
    alloc = false ∨ attrs = none ∨ attrs = some [] ∨ (∀ b, name ≠ .bytes b) ∨
      (∃ e, Buffers.bytesOrNone blob = .error e) ∨
      (blob ≠ .none ∧ ∃ xs, attrs = some xs ∧ Buffers.convertAttrs xs = .ok ())
  | _ => True

end Ssh2Python
