import Ssh2Python.Errors
import Ssh2Python.Lib.Ledger

/-!
# Python objects and their native objects

The classes that own a native object, their destructors, and the ways in which objects come and go.
A wrapper refers to its parent, the `SFTP` of an `SFTPHandle` and the `Session` of anything else,
and so keeps it alive. It is destroyed when nothing refers to it; its destructor runs while it still
has its link. The cycle collector may set the links of unreachable wrappers to `None` before. The
machine is the heap of all wrappers, with what a program, the reference counts and the collector can
do to it.
-/

namespace Ssh2Python

open Lib.Ledger

/-! ## Native objects -/

/-- The classes whose native objects belong to a session. -/
inductive SessionClass
  | sftp
  | channel
  | agent
  | knownHost
  | publicKeySystem
  deriving DecidableEq, Repr

inductive PyClass
  | session
  | child (c : SessionClass)
  | sftpHandle
  deriving DecidableEq, Repr

def PyClass.parent : PyClass → Option PyClass
  | .session => none
  | .child _ => some .session
  | .sftpHandle => some (.child .sftp)

/-- A native object. It has the number of the wrapper that was made for it, and it knows its
parents. An SFTP instance and its channel are one native object, as each is freed with the other. -/
inductive Native
  | session (k : Nat)
  | child (c : SessionClass) (session k : Nat)
  | handle (session sftp k : Nat)
  deriving DecidableEq, Repr

namespace Native

def number : Native → Nat
  | session k => k
  | child _ _ k => k
  | handle _ _ k => k

def cls : Native → PyClass
  | session _ => .session
  | child c _ _ => .child c
  | handle _ _ _ => .sftpHandle

def parent : Native → Option Native
  | session _ => none
  | child _ s _ => some (session s)
  | handle s f _ => some (child .sftp s f)

/-- The parent, and the parent of that. -/
def owners : Native → List Native
  | session _ => []
  | child _ s _ => [session s]
  | handle s f _ => [child .sftp s f, session s]

end Native

/-! ## Native calls -/

/-- The native functions that free what they are given. `clear_agent` is two calls. -/
inductive FreeFn
  | sessionFree
  | sftpShutdown
  | sftpCloseHandle
  | channelFree
  | clearAgent
  | knownhostFree
  | publickeyShutdown
  deriving DecidableEq, Repr

inductive ObjCall
  /-- A call that returned a new native object. -/
  | acquired (p : Native)
  /-- A call of a method of the class. -/
  | use (cls : PyClass) (p : Native)
  | free (fn : FreeFn) (p : Option Native) (rc : Int)
  deriving DecidableEq

/-- The native object that the call has freed: none if the call would block. A session that could
not be freed yet may have lost some of its channels, so it counts as freed. -/
def ObjCall.released : ObjCall → List Native
  | .free .sessionFree (some p) _ => [p]
  | .free _ (some p) rc => if rc = eagain then [] else [p]
  | _ => []

/-! ## Destructors -/

/-- What five of the destructors have in common. `session` is the `_session` of the wrapper: `None`,
or the pointer of the session. -/
def guardedDealloc (calls : Native → List ObjCall) :
    Option (Option Native) → Option Native → List ObjCall
  | some (some _), some p => calls p
  | _, _ => []

/-- `SFTP.__dealloc__` -/
def sftpDealloc (rc : Int) : Option (Option Native) → Option Native → List ObjCall :=
  guardedDealloc fun p => [.free .sftpShutdown (some p) rc]

/-- `Channel.__dealloc__` -/
def channelDealloc (rc : Int) : Option (Option Native) → Option Native → List ObjCall :=
  guardedDealloc fun p => [.free .channelFree (some p) rc]

/-- `Agent.__dealloc__` -/
def agentDealloc : Option (Option Native) → Option Native → List ObjCall :=
  guardedDealloc fun p => [.free .clearAgent (some p) 0]

/-- `KnownHost.__dealloc__` -/
def knownHostDealloc : Option (Option Native) → Option Native → List ObjCall :=
  guardedDealloc fun p => [.free .knownhostFree (some p) 0]

/-- `PublicKeySystem.__dealloc__` -/
def publicKeySystemDealloc (rc : Int) : Option (Option Native) → Option Native → List ObjCall :=
  guardedDealloc fun p => [.free .publickeyShutdown (some p) rc]

/-- `Session.__dealloc__` -/
def sessionDealloc (rc : Int) : Option Native → List ObjCall
  | some p => [.free .sessionFree (some p) rc]
  | none => []

/-- `SFTPHandle.__dealloc__`, which looks at nothing but `_closed`. -/
def sftpHandleDealloc (rc : Int) (closed : Bool) (handle : Option Native) : List ObjCall :=
  if closed then [] else [.free .sftpCloseHandle handle rc]

/-! ## The heap -/

structure Wrapper where
  cls : PyClass
  /-- The native pointer; NULL in an object that the public constructor made. -/
  native : Option Native
  /-- The parent, or `None`. -/
  link : Option Nat
  /-- `_closed` of an `SFTPHandle`. -/
  closed : Bool := false
  /-- The references to the object other than the links of wrappers. -/
  refs : Nat := 1
  /-- The object is unreachable: whatever still refers to it is so too. -/
  trash : Bool := false
  deriving DecidableEq

structure Heap where
  objs : Nat → Option Wrapper
  next : Nat

namespace Heap

def empty : Heap :=
  ⟨fun _ => none, 0⟩

def alloc (w : Heap) (o : Wrapper) : Heap :=
  ⟨Function.update w.objs w.next (some o), w.next + 1⟩

def set (w : Heap) (i : Nat) (o : Wrapper) : Heap :=
  { w with objs := Function.update w.objs i (some o) }

def erase (w : Heap) (i : Nat) : Heap :=
  { w with objs := Function.update w.objs i none }

/-- All wrappers of the heap. -/
def all (w : Heap) (P : Wrapper → Bool) : Bool :=
  (List.range w.next).all fun k => (w.objs k).all P

/-- The calls of the destructor of `o`. -/
def destructor (w : Heap) (o : Wrapper) (rc : Int) : List ObjCall :=
  let session := (o.link.bind w.objs).map (·.native)
  match o.cls with
  | .session => sessionDealloc rc o.native
  | .sftpHandle => sftpHandleDealloc rc o.closed o.native
  | .child .sftp => sftpDealloc rc session o.native
  | .child .channel => channelDealloc rc session o.native
  | .child .agent => agentDealloc session o.native
  | .child .knownHost => knownHostDealloc session o.native
  | .child .publicKeySystem => publicKeySystemDealloc rc session o.native

/-- What happens to a wrapper that is there and meets a condition. -/
def on (w : Heap) (i : Nat) (P : Wrapper → Prop) [DecidablePred P]
    (f : Wrapper → Heap × List ObjCall) : Option (Heap × List ObjCall) :=
  match w.objs i with
  | some o => if P o then some (f o) else none
  | none => none

end Heap

/-! ## What can happen -/

/-- The wrappers are given by their numbers, the codes are what the native functions return. A call
that makes nothing and releases nothing is a `use`. -/
inductive HeapOp
  | newSession
  /-- A method of the session that returns a wrapper, or the constructor of `Agent`. -/
  | wrap (c : SessionClass) (session : Nat)
  /-- `SFTP.open`, `open_ex` and `opendir`. -/
  | openHandle (sftp : Nat)
  /-- A public constructor, with or without a parent. -/
  | construct (cls : PyClass) (parent : Option Nat)
  /-- `SFTP.get_channel` -/
  | getChannel (sftp : Nat)
  | use (i : Nat)
  /-- `SFTPHandle.close` -/
  | close (i : Nat) (rc : Int)
  /-- `PublicKeySystem.shutdown` -/
  | shutdown (i : Nat) (rc : Int)
  | newRef (i : Nat)
  | dropRef (i : Nat)
  /-- The wrapper becomes unreachable, after the wrappers that have a link to it. -/
  | abandon (i : Nat)
  /-- The collector sets the link to `None`. -/
  | clear (i : Nat)
  | destroy (i : Nat) (rc : Int)
  deriving DecidableEq

/-- A step of the heap. -/
def heapStep : Lib.Run.Step Heap HeapOp ObjCall
  | w, .newSession =>
    some (w.alloc { cls := .session, native := some (.session w.next), link := none },
      [.acquired (.session w.next)])
  | w, .wrap c i => w.on i (fun o => o.cls = .session ∧ o.trash = false) fun o =>
    match o.native with
    | some (.session s) =>
      (w.alloc { cls := .child c, native := some (.child c s w.next), link := some i },
        [.acquired (.child c s w.next)])
    | _ => (w, [])
  | w, .openHandle i => w.on i (fun o => o.cls = .child .sftp ∧ o.trash = false) fun o =>
    match o.native with
    | some (.child .sftp s f) =>
      (w.alloc { cls := .sftpHandle, native := some (.handle s f w.next), link := some i },
        [.acquired (.handle s f w.next)])
    | _ => (w, [])
  | w, .construct cls none =>
    if cls ≠ .session ∧ cls ≠ .child .agent then
      some (w.alloc { cls := cls, native := none, link := none }, [])
    else none
  | w, .construct cls (some i) =>
    w.on i (fun o => cls.parent = some o.cls ∧ cls ≠ .child .agent ∧ o.trash = false) fun _ =>
      (w.alloc { cls := cls, native := none, link := some i }, [])
  | w, .getChannel i => w.on i (fun o => o.cls = .child .sftp ∧ o.trash = false) fun o =>
    match o.native with
    | some p =>
      (w.alloc { cls := .child .channel, native := some p, link := o.link },
        [.use (.child .sftp) p])
    | none => (w, [])
  | w, .use i => w.on i (·.trash = false) fun o => (w, (o.native.map (.use o.cls)).toList)
  | w, .close i rc => w.on i (fun o => o.cls = .sftpHandle ∧ o.trash = false) fun o =>
    if o.closed then (w, [])
    else (w.set i { o with closed := true }, [.free .sftpCloseHandle o.native rc])
  | w, .shutdown i rc =>
    w.on i (fun o => o.cls = .child .publicKeySystem ∧ o.trash = false) fun o =>
      (w, [.free .publickeyShutdown o.native rc])
  | w, .newRef i => w.on i (·.trash = false) fun o => (w.set i { o with refs := o.refs + 1 }, [])
  | w, .dropRef i => w.on i (0 < ·.refs) fun o => (w.set i { o with refs := o.refs - 1 }, [])
  | w, .abandon i =>
    w.on i (fun _ => w.all (fun c => c.link ≠ some i ∨ c.trash = true) = true) fun o =>
      (w.set i { o with trash := true }, [])
  | w, .clear i => w.on i (·.trash = true) fun o => (w.set i { o with link := none }, [])
  | w, .destroy i rc =>
    w.on i (fun o => o.refs = 0 ∧ w.all (fun c => c.link ≠ some i) = true) fun o =>
      (w.erase i, w.destructor o rc)

/-! ## Destruction in order -/

/-- What the destructors owe to `libssh2`: nothing is freed after its parent, and nothing twice. -/
structure DestroyedInOrder (calls : List ObjCall) : Prop where
  parents : ∀ before fn p rc after, calls = before ++ .free fn (some p) rc :: after →
    ∀ q ∈ p.owners, q ∉ before.flatMap ObjCall.released
  once : ∀ p, (calls.flatMap ObjCall.released).count p ≤ 1

/-- No `SFTPHandle` that is still open was opened from `p`, or from an `SFTP` of `p`. -/
def Heap.NoOpenHandle (w : Heap) (p : Native) : Prop :=
  ∀ k h q, w.objs k = some h → h.native = some q → h.cls = .sftpHandle → h.closed = false →
    p ∉ q.owners

/-- `get_channel` finds a NULL pointer and so returns no channel, `PublicKeySystem.shutdown` does
not complete, and whenever a `Session` is destroyed, or an `SFTP` whose destructor completes the
shutdown, no `SFTPHandle` of it is still open. -/
def HeapOp.InOrder (w : Heap) : HeapOp → Prop
  | .getChannel i => ∀ o, w.objs i = some o → o.native = none
  | .shutdown i rc => ∀ o, w.objs i = some o → o.native = none ∨ rc = eagain
  | .destroy i rc => ∀ o p, w.objs i = some o → o.native = some p →
    o.cls = .session ∨ (o.cls = .child .sftp ∧ o.link ≠ none ∧ rc ≠ eagain) → w.NoOpenHandle p
  | _ => True

/-- No link is cleared: wrappers are destroyed by reference counting alone. -/
def HeapOp.RefCounted (w : Heap) : HeapOp → Prop
  | .getChannel i => ∀ o, w.objs i = some o → o.native = none
  | .shutdown i rc => ∀ o, w.objs i = some o → o.native = none ∨ rc = eagain
  | .clear _ => False
  | _ => True

/-! ## Owners of channels -/

/-- The native channel that the call hands over to be freed. -/
def ObjCall.handedOver : ObjCall → List Native
  | .free .channelFree (some p) _ => [p]
  | .free .sftpShutdown (some p) _ => [p]
  | _ => []

/-- The SFTP instance that an operation of `SFTP` or `SFTPHandle` runs on. -/
def ObjCall.sftpUsed : ObjCall → Option Native
  | .use (.child .sftp) p => some p
  | .use .sftpHandle p => p.parent
  | .free .sftpShutdown p _ => p
  | .free .sftpCloseHandle (some p) _ => p.parent
  | _ => none

/-- The wrapper is one of those that free a channel. -/
def Wrapper.OwnsChannel (o : Wrapper) (p : Native) : Prop :=
  o.native = some p ∧ (o.cls = .child .channel ∨ o.cls = .child .sftp)

/-- Each channel has one owner, which hands it over once, and none is used for SFTP after a
`Channel` has freed it. -/
structure ChannelsOwnedOnce (calls : List ObjCall) (w : Heap) : Prop where
  owner : ∀ i j o o' p, w.objs i = some o → w.objs j = some o' → o.OwnsChannel p →
    o'.OwnsChannel p → i = j
  once : ∀ p, (calls.flatMap ObjCall.handedOver).count p ≤ 1
  used : ∀ before c after, calls = before ++ c :: after → ∀ p, c.sftpUsed = some p →
    ∀ rc, rc ≠ eagain → .free .channelFree (some p) rc ∉ before

/-- `get_channel` finds a NULL pointer and so returns no channel. -/
def HeapOp.NoTakeOver (w : Heap) : HeapOp → Prop
  | .getChannel i => ∀ o, w.objs i = some o → o.native = none
  | _ => True

/-! ## What is released -/

/-- The number of the session that the object was created from. -/
def Native.sessionNumber : Native → Nat
  | .session k => k
  | .child _ s _ => s
  | .handle s _ _ => s

/-- A session, one of its channels or SFTP instances, or an open file or directory of those. -/
def Native.InTree (p : Native) : Prop :=
  p.cls = .session ∨ p.cls = .child .channel ∨ p.cls = .child .sftp ∨ p.cls = .sftpHandle

/-- The native objects whose release is one of `p`: a session releases its remaining channels, but
no file or directory that is still open. -/
def Native.releasedWith : Native → List Native
  | .child .channel s k => [.child .channel s k, .session s]
  | .child .sftp s k => [.child .sftp s k, .session s]
  | p => [p]

/-- Which release calls free what they are given. One that succeeds does and one that would block
does not; one that fails may have done so or not: in a blocking session the wait for the socket may
end the call with an error of its own, `LIBSSH2_ERROR_TIMEOUT` say, before anything is freed. -/
structure Freeing where
  frees : Native → Int → Bool
  success : ∀ p, frees p 0 = true
  again : ∀ p, frees p eagain = false

/-- The call has freed `p`. -/
def ObjCall.frees (f : Freeing) (p : Native) : ObjCall → Bool
  | .free _ (some q) rc => q = p && f.frees p rc
  | _ => false

/-- `p` has been freed by one of the calls. -/
def freedBy (f : Freeing) (calls : List ObjCall) (p : Native) : Bool :=
  calls.any (·.frees f p)

/-- The native session and everything that was created from it have been released since, each before
what it belongs to was freed: a call that is given an object of a freed parent releases nothing. -/
def AllReleased (f : Freeing) (s : Nat) (calls : List ObjCall) : Prop :=
  ∀ before p after, calls = before ++ .acquired p :: after → p.sessionNumber = s → p.InTree →
    ∃ between c rest, after = between ++ c :: rest ∧ (∃ q ∈ p.releasedWith, c.frees f q = true) ∧
      ∀ q ∈ p.owners, freedBy f (before ++ .acquired p :: between) q = false

/-- No wrapper of the session, or of anything that was created from it, is left. -/
def Heap.Gone (w : Heap) (s : Nat) : Prop :=
  ∀ i o p, w.objs i = some o → o.native = some p → p.sessionNumber ≠ s

/-- Nothing but this wrapper releases its native object: a session, or a file or directory that is
still open. -/
def Wrapper.Owes (o : Wrapper) : Prop :=
  o.cls = .session ∨ o.cls = .sftpHandle ∧ o.closed = false

instance (o : Wrapper) : Decidable o.Owes :=
  inferInstanceAs (Decidable (_ ∨ _))

/-- The only wrapper of a native object releases it, and nothing that it belongs to has been freed
by the calls so far. -/
def Heap.CompletesAt (f : Freeing) (w : Heap) (calls : List ObjCall) (s i : Nat) (rc : Int) :
    Prop :=
  ∀ o ∈ w.objs i, o.Owes → ∀ p ∈ o.native, p.sessionNumber = s →
    f.frees p rc = true ∧ ∀ q ∈ p.owners, freedBy f calls q = false

instance (f : Freeing) (w : Heap) (calls : List ObjCall) (s i : Nat) (rc : Int) :
    Decidable (w.CompletesAt f calls s i rc) :=
  inferInstanceAs (Decidable (∀ o ∈ w.objs i, _ → ∀ p ∈ o.native, _ → _))

/-- A `Session` is destroyed, and an open `SFTPHandle` is closed or destroyed, by a call that frees
its native object, and the `SFTPHandle` before its `SFTP` and its `Session` have been freed. The
state is the heap with the native calls so far. -/
def HeapOp.Completes (f : Freeing) (s : Nat) (st : Heap × List ObjCall) : HeapOp → Prop
  | .close i rc => st.1.CompletesAt f st.2 s i rc
  | .destroy i rc => st.1.CompletesAt f st.2 s i rc
  | _ => True

end Ssh2Python
