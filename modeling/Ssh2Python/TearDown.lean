import Ssh2Python.Effect
import Ssh2Python.Open

/-!
# Torn down once

`PublicKeySystem` and `Listener`, whose native object the program can free by a method of its own:
`shutdown` and `forward_cancel`. The first class frees it again in its destructor, the second has
none. The machine is one object, with what `libssh2` did to the native object that it points to.
-/

namespace Ssh2Python

/-! ## The two classes -/

/-- The handle is the native object that the methods pass, or NULL. -/
inductive TearDownCall
  | use (handle : Option Nat)
  /-- `libssh2_publickey_shutdown` or `libssh2_channel_forward_cancel`, and its code. -/
  | tearDown (handle : Option Nat) (rc : Int)
  deriving DecidableEq, Repr

def TearDownCall.handle : TearDownCall → Option Nat
  | .use h => h
  | .tearDown h _ => h

/-- `PublicKeySystem` -/
structure PublicKeySystem where
  pkeyS : Option Nat
  /-- The session is not `None`, and its own pointer is not NULL. -/
  session : Bool
  deriving DecidableEq

namespace PublicKeySystem

/-- `PublicKeySystem.add`, from what the conversion of its arguments gives. -/
def add (p : PublicKeySystem) (args : Except PyExc Unit) (rc : Int) : Effect TearDownCall Int := do
  .lift args
  .emit (.use p.pkeyS)
  .lift (handleErrorCodes rc)

/-- `PublicKeySystem.remove` -/
def remove (p : PublicKeySystem) (args : Except PyExc Unit) (rc : Int) :
    Effect TearDownCall Int := do
  .lift args
  .emit (.use p.pkeyS)
  .lift (handleErrorCodes rc)

/-- `PublicKeySystem.list_fetch`; `none` when the native call succeeds, as it then writes to the
NULL pointer that it was given. -/
def listFetch (p : PublicKeySystem) (rc : Int) : Effect TearDownCall (Option Int) := do
  .emit (.use p.pkeyS)
  if rc = 0 then return none
  else
    let v ← .lift (handleErrorCodes rc)
    return some v

/-- `PublicKeySystem.shutdown` -/
def shutdown (p : PublicKeySystem) (rc : Int) : Effect TearDownCall Int := do
  .emit (.tearDown p.pkeyS rc)
  .lift (handleErrorCodes rc)

/-- `PublicKeySystem.__dealloc__` -/
def dealloc (p : PublicKeySystem) (rc : Int) : Effect TearDownCall Unit :=
  if p.session ∧ p.pkeyS ≠ none then .emit (.tearDown p.pkeyS rc) else return ()

end PublicKeySystem

structure Listener where
  listener : Option Nat
  /-- The session is not `None`. -/
  session : Bool
  deriving DecidableEq

namespace Listener

def receiver (l : Listener) : Receiver :=
  if l.listener ≠ none then .native else if l.session then .null else .orphan

/-- `Listener.forward_accept` -/
def forwardAccept (l : Listener) (errno : Int) (n : NativeOpen) : Effect TearDownCall OpenResult :=
  ⟨[.use l.listener], match listenerForwardAccept errno n l.receiver with
    | .raised e => .error e
    | r => .ok r⟩

/-- `Listener.forward_cancel` -/
def forwardCancel (l : Listener) (rc : Int) : Effect TearDownCall Int := do
  .emit (.tearDown l.listener rc)
  .lift (handleErrorCodes rc)

end Listener

/-! ## Runs of one object -/

inductive TearDownObject
  | publicKeySystem (p : PublicKeySystem)
  | listener (l : Listener)
  deriving DecidableEq

def TearDownObject.handle : TearDownObject → Option Nat
  | .publicKeySystem p => p.pkeyS
  | .listener l => l.listener

/-- A method, or what happens to the object, with what the native call gives. -/
inductive TearDownOp
  | add (args : Except PyExc Unit) (rc : Int)
  | remove (args : Except PyExc Unit) (rc : Int)
  | listFetch (rc : Int)
  | shutdown (rc : Int)
  | forwardAccept (errno : Int) (n : NativeOpen)
  | forwardCancel (rc : Int)
  /-- The collector sets the session to `None`. -/
  | clear
  | destroy (rc : Int)

structure TearDownEvent where
  calls : List TearDownCall
  ending : Ending
  deriving DecidableEq

def Effect.tearDownEvent {α : Type} (e : Effect TearDownCall α) : TearDownEvent :=
  ⟨e.calls, e.ending⟩

namespace TearDownObject

/-- A class has only methods of its own; `Listener` has no destructor. -/
def event : TearDownObject → TearDownOp → Option TearDownEvent
  | .publicKeySystem p, .add args rc => some (p.add args rc).tearDownEvent
  | .publicKeySystem p, .remove args rc => some (p.remove args rc).tearDownEvent
  | .publicKeySystem p, .listFetch rc => some (p.listFetch rc).tearDownEvent
  | .publicKeySystem p, .shutdown rc => some (p.shutdown rc).tearDownEvent
  | .publicKeySystem p, .destroy rc => some (p.dealloc rc).tearDownEvent
  | .listener l, .forwardAccept errno n => some (l.forwardAccept errno n).tearDownEvent
  | .listener l, .forwardCancel rc => some (l.forwardCancel rc).tearDownEvent
  | .listener _, .destroy _ => some ⟨[], .normal⟩
  | _, .clear => some ⟨[], .normal⟩
  | _, _ => none

/-- The object afterwards: no method changes the pointer. It is gone when it is destroyed, and when
the process has crashed in `list_fetch`. -/
def after : TearDownObject → TearDownOp → Option TearDownObject
  | _, .destroy _ => none
  | .publicKeySystem p, .clear => some (.publicKeySystem { p with session := false })
  | .listener l, .clear => some (.listener { l with session := false })
  | o, .listFetch rc => if rc = 0 then none else some o
  | o, _ => some o

/-- The method that frees the native object. -/
def tearDown (rc : Int) : TearDownObject → TearDownOp
  | .publicKeySystem _ => .shutdown rc
  | .listener _ => .forwardCancel rc

end TearDownObject

/-- The native object has been freed. -/
def TearDownCall.completes : TearDownCall → Bool
  | .use _ => false
  | .tearDown _ rc => rc ≠ eagain

structure TearDownWorld where
  obj : TearDownObject
  /-- `libssh2` has freed the native object. -/
  freed : Bool
  deriving DecidableEq

def tearDownStep : Lib.Run.Step (Option TearDownWorld) TearDownOp TearDownEvent
  | none, _ => none
  | some w, op => (w.obj.event op).map fun e =>
    ((w.obj.after op).map fun o => ⟨o, w.freed || e.calls.any TearDownCall.completes⟩, [e])

/-! ## What the runs should do -/

/-- A native object that has been freed is not passed again, and one whose tear-down would block can
be torn down later. -/
structure TornDownOnce (es : List TearDownEvent) (s : Option TearDownWorld) : Prop where
  once : ∀ before h rc after, es.flatMap TearDownEvent.calls =
    before ++ .tearDown (some h) rc :: after → rc ≠ eagain → ∀ c ∈ after, c.handle ≠ some h
  resumes : ∀ w h, s = some w → .tearDown (some h) eagain ∈ es.flatMap TearDownEvent.calls →
    (∀ rc, rc ≠ eagain → .tearDown (some h) rc ∉ es.flatMap TearDownEvent.calls) →
    ∀ rc, ∃ s' e, tearDownStep s (w.obj.tearDown rc) = some (s', [e]) ∧
      e.calls = [.tearDown (some h) rc]

/-- What does not pass the pointer: a call whose arguments are rejected, and a destructor that finds
no session, or none at all. -/
def TearDownOp.PassesNothing : TearDownObject → TearDownOp → Prop
  | _, .add args _ => ∃ e, args = .error e
  | _, .remove args _ => ∃ e, args = .error e
  | _, .clear => True
  | .publicKeySystem p, .destroy _ => p.session = false
  | .listener _, .destroy _ => True
  | _, _ => False

/-- Nothing that passes the pointer happens after the native object has been freed. -/
def TearDownOp.BeforeFreed : Option TearDownWorld → TearDownOp → Prop
  | some w, op => w.freed = true → w.obj.handle ≠ none → op.PassesNothing w.obj
  | none, _ => True

end Ssh2Python
