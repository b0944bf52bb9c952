import Ssh2Python.Lib.Run
import Ssh2Python.Utils

/-!
# Operations that wrap a native pointer

Fourteen methods ask `libssh2` for a pointer and wrap it; all of them go through `wrapPointer` when
the pointer is there and when it is not, where they read the error number of the session. That
number is state: it is what was recorded last, by this call or by an earlier one. The numeric
arguments do not matter here and are left out.
-/

namespace Ssh2Python

/-- What a native entry point did: its pointer is NULL or not, and the last error it recorded. -/
structure NativeOpen where
  ptr : Bool
  recorded : Option Int
  deriving DecidableEq, Repr

/-- The error number of the session after the call. -/
def NativeOpen.errno (n : NativeOpen) (before : Int) : Int :=
  n.recorded.getD before

inductive WrapperClass
  | channel
  | sftp
  | sftpHandle
  | listener
  deriving DecidableEq, Repr

/-- What stands next to the object, or to the code, in a tuple. -/
inductive Beside
  | nothing
  | port (n : Int)
  | fileInfo
  deriving DecidableEq, Repr

inductive OpenResult
  | object (cls : WrapperClass) (beside : Beside)
  | code (v : Int) (beside : Beside)
  | raised (e : PyExc)
  /-- An attribute of the C struct of `None` was read. -/
  | undefined
  deriving DecidableEq, Repr

/-- `return handle_error_codes(libssh2_session_last_errno(session))` if the pointer is NULL, else
the object; `codeBeside` and `objBeside` are the other component where a tuple is returned. -/
def wrapPointer (cls : WrapperClass) (objBeside codeBeside : Beside) (errno : Int)
    (n : NativeOpen) : OpenResult :=
  if n.ptr then .object cls objBeside
  else match handleErrorCodes (n.errno errno) with
    | .ok v => .code v codeBeside
    | .error e => .raised e

/-- The arguments that are converted before the native call, in order. -/
def convertArgs : List PyObj → Except PyExc (List PyBytes)
  | [] => .ok []
  | x :: xs => do
    let b ← bytesArg x
    let bs ← convertArgs xs
    return b :: bs

/-! ## Receivers -/

/-- The object a method of `SFTP` or `Listener` is called on: one that wraps a native pointer, one
that the public constructor made with a session, or one it made with `None`. -/
inductive Receiver
  | native
  | null
  | orphan
  deriving DecidableEq, Repr

/-- A native entry point returns NULL for a NULL handle, before it does anything else. -/
def Receiver.outcome (r : Receiver) (n : NativeOpen) : NativeOpen :=
  match r with
  | .native => n
  | _ => ⟨false, none⟩

/-- The same on a receiver that keeps its session in `_session`. -/
def wrapPointerOn (r : Receiver) (cls : WrapperClass) (errno : Int) (n : NativeOpen) : OpenResult :=
  let n := r.outcome n
  match r with
  | .orphan => if n.ptr then .object cls .nothing else .undefined
  | _ => wrapPointer cls .nothing .nothing errno n

/-! ## The fourteen methods -/

section Methods

variable (errno : Int) (n : NativeOpen)

/-- `Session.open_session`. -/
def openSession : OpenResult :=
  wrapPointer .channel .nothing .nothing errno n

/-- `Session.direct_tcpip_ex`. -/
def directTcpipEx : OpenResult :=
  wrapPointer .channel .nothing .nothing errno n

/-- `Session.direct_tcpip`. -/
def directTcpip : OpenResult :=
  wrapPointer .channel .nothing .nothing errno n

/-- `Session.direct_streamlocal_ex`. -/
def directStreamlocalEx : OpenResult :=
  wrapPointer .channel .nothing .nothing errno n

/-- `Session.forward_listen`. -/
def forwardListen : OpenResult :=
  wrapPointer .listener .nothing .nothing errno n

/-- `Session.forward_listen_ex`, which returns the object with the bound port. -/
def forwardListenEx (boundPort : Int) : OpenResult :=
  wrapPointer .listener (.port boundPort) (.port 0) errno n

/-- `Session.sftp_init`. -/
def sftpInit : OpenResult :=
  wrapPointer .sftp .nothing .nothing errno n

/-- `Session.scp_recv2`, which returns the object with a `FileInfo`. -/
def scpRecv2 : OpenResult :=
  wrapPointer .channel .fileInfo .nothing errno n

/-- `Session.scp_send64`. -/
def scpSend64 : OpenResult :=
  wrapPointer .channel .nothing .nothing errno n

variable (r : Receiver)

/-- `SFTP.get_channel`. -/
def sftpGetChannel : OpenResult :=
  wrapPointerOn r .channel errno n

/-- `SFTP.open_ex`. -/
def sftpOpenEx : OpenResult :=
  wrapPointerOn r .sftpHandle errno n

/-- `SFTP.open`. -/
def sftpOpen : OpenResult :=
  wrapPointerOn r .sftpHandle errno n

/-- `SFTP.opendir`. -/
def sftpOpendir : OpenResult :=
  wrapPointerOn r .sftpHandle errno n

/-- `Listener.forward_accept`. -/
def listenerForwardAccept : OpenResult :=
  wrapPointerOn r .channel errno n

end Methods

/-! ## Runs -/

inductive OpenOp
  | openSession
  | directTcpipEx (host shost : PyObj)
  | directTcpip (host : PyObj)
  | directStreamlocalEx (socketPath shost : PyObj)
  | forwardListen
  | forwardListenEx (host : PyObj) (boundPort : Int)
  | sftpInit
  | scpRecv2 (path : PyObj)
  | scpSend64 (path : PyObj)
  | sftpGetChannel (r : Receiver)
  | sftpOpenEx (r : Receiver) (filename : PyBytes)
  | sftpOpen (r : Receiver) (filename : PyObj)
  | sftpOpendir (r : Receiver) (path : PyObj)
  | listenerForwardAccept (r : Receiver)

/-- The text arguments; the host of `forward_listen_ex` may be `None`. -/
def OpenOp.args : OpenOp → List PyObj
  | .directTcpipEx host shost => [host, shost]
  | .directTcpip host => [host]
  | .directStreamlocalEx socketPath shost => [socketPath, shost]
  | .forwardListenEx host _ => if host = .none then [] else [host]
  | .scpRecv2 path => [path]
  | .scpSend64 path => [path]
  | .sftpOpen _ filename => [filename]
  | .sftpOpendir _ path => [path]
  | _ => []

/-- The receiver; a method of `Session` always has a native session. -/
def OpenOp.receiver : OpenOp → Receiver
  | .sftpGetChannel r => r
  | .sftpOpenEx r _ => r
  | .sftpOpen r _ => r
  | .sftpOpendir r _ => r
  | .listenerForwardAccept r => r
  | _ => .native

def OpenOp.result (errno : Int) (n : NativeOpen) : OpenOp → OpenResult
  | .openSession => Ssh2Python.openSession errno n
  | .directTcpipEx _ _ => Ssh2Python.directTcpipEx errno n
  | .directTcpip _ => Ssh2Python.directTcpip errno n
  | .directStreamlocalEx _ _ => Ssh2Python.directStreamlocalEx errno n
  | .forwardListen => Ssh2Python.forwardListen errno n
  | .forwardListenEx _ boundPort => Ssh2Python.forwardListenEx errno n boundPort
  | .sftpInit => Ssh2Python.sftpInit errno n
  | .scpRecv2 _ => Ssh2Python.scpRecv2 errno n
  | .scpSend64 _ => Ssh2Python.scpSend64 errno n
  | .sftpGetChannel r => Ssh2Python.sftpGetChannel errno n r
  | .sftpOpenEx r _ => Ssh2Python.sftpOpenEx errno n r
  | .sftpOpen r _ => Ssh2Python.sftpOpen errno n r
  | .sftpOpendir r _ => Ssh2Python.sftpOpendir errno n r
  | .listenerForwardAccept r => Ssh2Python.listenerForwardAccept errno n r

/-- A step of the session: one of the fourteen operations with what its native call does, or
anything else, which may record an error. -/
inductive OpenAction
  | call (op : OpenOp) (n : NativeOpen)
  | other (recorded : Option Int)

/-- A call either was rejected for its arguments, before the native call, or recorded what it
recorded and gave its result. -/
inductive OpenEvent
  | rejected (e : PyExc)
  | opened (n : NativeOpen) (result : OpenResult)

/-- The state is the error number; there is no step after undefined behaviour. -/
def openStep : Lib.Run.Step (Option Int) OpenAction OpenEvent
  | none, _ => none
  | some errno, .other recorded => some (some (recorded.getD errno), [])
  | some errno, .call op n =>
    match convertArgs op.args with
    | .error e => some (some errno, [.rejected e])
    | .ok _ =>
      let n := op.receiver.outcome n
      let r := op.result errno n
      some (if r = .undefined then none else some (n.errno errno), [.opened n r])

/-- An operation gives an object around a pointer, `EAGAIN` because this very call would block, or
an `SSH2Error`. -/
def OpenEvent.Ok : OpenEvent → Prop
  | .rejected _ => True
  | .opened n r => match r with
    | .object _ _ => n.ptr = true
    | .code v _ => v = eagain ∧ n.ptr = false ∧ n.recorded = some eagain
    | .raised e => e.IsSSH2Error
    | .undefined => False

/-- The pointer is there, or this call recorded an error, or an earlier one left an error that is
not `EAGAIN` and the receiver has a session to read it from. -/
def OpenAction.Explained : Option Int → OpenAction → Prop
  | some errno, .call op n =>
    (∃ e, convertArgs op.args = .error e) ∨
    (op.receiver.outcome n).ptr = true ∨
    (∃ c, (op.receiver.outcome n).recorded = some c ∧ c < 0) ∨
    (op.receiver ≠ .orphan ∧ (op.receiver.outcome n).recorded = none ∧ errno < 0 ∧ errno ≠ eagain)
  | _, _ => True

end Ssh2Python
