import Ssh2Python.Lib.Run
import Ssh2Python.Utils

/-!
# Negotiated methods

`Session.handshake` and `Session.methods`, with what `libssh2_session_methods` reads of the native
session. Which methods are negotiated depends on how far key exchange got, also in a later
re-exchange, so every operation that runs `libssh2` may leave a different table. `to_str` of a NULL
pointer measures it with `strlen`: the process has crashed after that.
-/

namespace Ssh2Python

/-- The methods of a native session; a slot is NULL before its method is negotiated. -/
structure MethodTable where
  kex : Option CText
  hostkey : Option CText
  cryptCS : Option CText
  cryptSC : Option CText
  macCS : Option CText
  macSC : Option CText
  compCS : Option CText
  compSC : Option CText

def MethodTable.empty : MethodTable :=
  ⟨none, none, none, none, none, none, none, none⟩

/-- `libssh2_session_methods`; the languages are always the empty string. -/
def libssh2SessionMethods (t : MethodTable) (methodType : Int) : Option CText :=
  if methodType = 0 then t.kex
  else if methodType = 1 then t.hostkey
  else if methodType = 2 then t.cryptCS
  else if methodType = 3 then t.cryptSC
  else if methodType = 4 then t.macCS
  else if methodType = 5 then t.macSC
  else if methodType = 6 then t.compCS
  else if methodType = 7 then t.compSC
  else if methodType = 8 then some ⟨[], by simp⟩
  else if methodType = 9 then some ⟨[], by simp⟩
  else none

/-- The argument of `handshake`, as far as `PyObject_AsFileDescriptor` and `not self.sock` see
it. -/
inductive SockArg
  | none
  | noDescriptor
  | sock (truthy : Bool)
  deriving DecidableEq, Repr

structure MethodsSession where
  /-- The truth value of `self.sock`; `None` is false. -/
  sock : Bool
  table : MethodTable

/-- `Session()` -/
def MethodsSession.new : MethodsSession :=
  ⟨false, .empty⟩

inductive MethodsOp
  /-- A handshake, the code of the native call and the table it leaves. -/
  | handshake (arg : SockArg) (rc : Int) (table : MethodTable)
  /-- Any other operation, after which the native table may be another. -/
  | other (table : MethodTable)
  | methods (methodType : Int)

inductive MethodsResult
  | none
  | text (s : PyStr)
  | raised (e : PyExc)
  | nullDeref
  deriving DecidableEq

/-- What an operation returned: `handshake` a code, `methods` what it read from the native
answer. -/
inductive MethodsEvent
  | handshake (result : Except PyExc Int)
  | methods (native : Option CText) (result : MethodsResult)

/-- `Session.handshake`: `self.sock` is set whatever the native call returned. -/
def MethodsSession.handshake (s : MethodsSession) (arg : SockArg) (rc : Int) (table : MethodTable) :
    MethodsSession × Except PyExc Int :=
  match arg with
  | .none => (s, .error { cls := .typeError })
  | .noDescriptor => (s, .error { cls := .typeError })
  | .sock truthy => (⟨truthy, table⟩, handleErrorCodes rc)

/-- `Session.methods`. -/
def MethodsSession.methods (s : MethodsSession) (methodType : Int) : MethodsResult :=
  if s.sock = false then .none
  else match libssh2SessionMethods s.table methodType with
    | none => .nullDeref
    | some name => match toStr name.mem with
      | .ok t => .text t
      | .error e => .raised e

/-- A step of a session; there is none after a crash. -/
def methodsStep : Lib.Run.Step (Option MethodsSession) MethodsOp MethodsEvent
  | none, _ => none
  | some s, .handshake arg rc table =>
    let (s', r) := s.handshake arg rc table
    some (some s', [.handshake r])
  | some s, .other table => some (some { s with table := table }, [])
  | some s, .methods t =>
    let r := s.methods t
    some (if r = .nullDeref then none else some s, [.methods (libssh2SessionMethods s.table t) r])

/-- What `methods` may give: nothing, the text of the native method, or an `SSH2Error`. -/
def MethodsEvent.Ok : MethodsEvent → Prop
  | .handshake _ => True
  | .methods native r => match r with
    | .none => True
    | .text s => ∃ name, native = some name ∧ s = name.text
    | .raised e => e.IsSSH2Error
    | .nullDeref => False

/-- `methods` is asked only before there is a socket or for a method that has been negotiated. -/
def MethodsOp.Safe : Option MethodsSession → MethodsOp → Prop
  | some s, .methods t => s.sock = false ∨ libssh2SessionMethods s.table t ≠ none
  | _, _ => True

end Ssh2Python
