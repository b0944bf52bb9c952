import Ssh2Python.Effect
import Ssh2Python.Lib.Ledger
import Ssh2Python.Write

/-!
# SFTP handles

The methods of `SFTPHandle`, with the native calls each makes. `_closed` is the only field of the
object that changes; the pointer `_handle` stays as `SFTP.open` set it. A buffer that could not be
allocated is `none` in place of the native call that would have filled it. The machine at the end is
one handle object, from its creation to its deallocation.
-/

namespace Ssh2Python

open Lib.CInt Lib.CString

/-! ## Native calls -/

/-- The native functions that take the handle. `libssh2_sftp_readdir`, `libssh2_sftp_rewind`,
`libssh2_sftp_fstat` and `libssh2_sftp_fsetstat` are macros for others of them. -/
inductive HandleFn
  | closeHandle
  | read (maxlen : Nat)
  | readdirEx (maxlen longentryMaxlen : Nat)
  | write (count : Nat)
  | fsync
  | seek (offset : Nat)
  | seek64 (offset : Nat)
  | tell
  | fstatEx (setstat : Int)
  | fstatvfs
  deriving DecidableEq, Repr

/-- A call on the handle and the code it returned, which is `0` for a `void` function. -/
structure HandleCall where
  fn : HandleFn
  rc : Int
  deriving DecidableEq, Repr

def memoryError : PyExc := { cls := .memoryError }

/-- A native call that filled a buffer: its code, and the memory of the buffer after it. -/
structure NativeFill where
  rc : Int
  buf : List UInt8
  deriving DecidableEq, Repr

structure SftpAttrs where
  flags : Nat
  filesize : Nat
  uid : Nat
  gid : Nat
  permissions : Nat
  atime : Nat
  mtime : Nat
  deriving DecidableEq, Repr

/-- A native directory read: it also fills the long entry and the attributes. -/
structure NativeEntry extends NativeFill where
  longentry : List UInt8
  attrs : SftpAttrs
  deriving DecidableEq, Repr

/-- `cbuf[:rc]` if the call returned a count, else `b''`. -/
def NativeFill.bytes (r : NativeFill) : List UInt8 :=
  if 0 < r.rc then r.buf.take r.rc.toNat else []

/-! ## Reading -/

def channelWindowDefault : Nat := 2 * 1024 * 1024

/-- `SFTPHandle.read`. -/
def sftpHandleRead (maxlen : Nat) : Option NativeFill → Effect HandleCall (Int × List UInt8)
  | none => ⟨[], .error memoryError⟩
  | some r => ⟨[⟨.read maxlen, r.rc⟩], .ok (r.rc, r.bytes)⟩

inductive NextResult
  | item (rc : Int) (data : List UInt8)
  | stopIteration
  deriving DecidableEq, Repr

/-- `SFTPHandle.__next__`, which keeps `rc` in a C `int`. -/
def sftpHandleNext (native : Option NativeFill) : Effect HandleCall NextResult :=
  let e := sftpHandleRead channelWindowDefault native
  ⟨e.calls, match e.result with
    | .error exc => .error exc
    | .ok (rc, data) =>
      if toInt32 rc ≠ rc then .error { cls := .overflowError }
      else if rc ≠ eagain ∧ rc ≤ 0 then .ok .stopIteration
      else .ok (.item rc data)⟩

/-- `SFTPHandle._readdir`. -/
def readdirOnce (maxlen : Nat) :
    Option NativeEntry → Effect HandleCall (Int × List UInt8 × SftpAttrs)
  | none => ⟨[], .error memoryError⟩
  | some r => ⟨[⟨.readdirEx maxlen 0, r.rc⟩], .ok (r.rc, r.bytes, r.attrs)⟩

/-- `SFTPHandle._readdir_ex`. -/
def readdirExOnce (longentryMaxlen maxlen : Nat) :
    Option NativeEntry → Effect HandleCall (Int × List UInt8 × List UInt8 × SftpAttrs)
  | none => ⟨[], .error memoryError⟩
  | some r =>
    let longentry := if 0 < r.rc then r.longentry.take (strlen r.longentry) else []
    ⟨[⟨.readdirEx maxlen longentryMaxlen, r.rc⟩], .ok (r.rc, r.bytes, longentry, r.attrs)⟩

/-! ## Generators -/

inductive GenEnd
  /-- Waiting to be resumed. -/
  | suspended
  | finished
  | raised (e : PyExc)
  deriving DecidableEq, Repr

structure GenRun (β : Type) where
  calls : List HandleCall := []
  yields : List β := []
  ending : GenEnd

def GenRun.push {β : Type} (calls : List HandleCall) (b : β) (r : GenRun β) : GenRun β :=
  { r with calls := calls ++ r.calls, yields := b :: r.yields }

/-- The variables of the loop: the first fetch sets them, a later one updates them. -/
def assign {β : Type} (update : β → β → β) : Option β → β → β
  | none, new => new
  | some old, new => update old new

/-- The loop of the two generators: fetch, stop unless the code is `EAGAIN` or positive, yield, and
so on. `update` is the assignment at the end of the loop. -/
def generate {ν β : Type} (fetch : ν → Effect HandleCall β) (rc : β → Int) (update : β → β → β) :
    Option β → List ν → GenRun β
  | _, [] => { ending := .suspended }
  | vars, n :: ns =>
    let e := fetch n
    match e.result with
    | .error exc => { calls := e.calls, ending := .raised exc }
    | .ok new =>
      let vars := assign update vars new
      if rc vars = eagain ∨ 0 < rc vars then
        (generate fetch rc update (some vars) ns).push e.calls vars
      else { calls := e.calls, ending := .finished }

/-- `SFTPHandle.readdir`, resumed as long as the list of native results lasts. -/
def sftpHandleReaddir (maxlen : Nat) (natives : List (Option NativeEntry)) :
    GenRun (Int × List UInt8 × SftpAttrs) :=
  generate (readdirOnce maxlen) (·.1) (fun _ new => new) none natives

/-- `SFTPHandle.readdir_ex`. The assignment in the loop names its third target `entryb`, so `entry`
keeps its first value. -/
def sftpHandleReaddirEx (longentryMaxlen maxlen : Nat) (natives : List (Option NativeEntry)) :
    GenRun (Int × List UInt8 × List UInt8 × SftpAttrs) :=
  generate (readdirExOnce longentryMaxlen maxlen) (·.1)
    (fun old new => (new.1, new.2.1, old.2.2.1, new.2.2.2)) none natives

/-- `for rc, data in handle`. -/
def sftpHandleIterate : List (Option NativeFill) → GenRun (Int × List UInt8)
  | [] => { ending := .suspended }
  | n :: ns =>
    let e := sftpHandleNext n
    match e.result with
    | .error exc => { calls := e.calls, ending := .raised exc }
    | .ok .stopIteration => { calls := e.calls, ending := .finished }
    | .ok (.item rc data) => (sftpHandleIterate ns).push e.calls (rc, data)

/-! ## What a listing should yield -/

/-- The result of a fetch lets a generator go on. -/
def goesOn {β : Type} (rc : β → Int) (b : β) : Bool :=
  rc b = eagain ∨ 0 < rc b

/-- The results of the fetches, up to the first that raises. -/
def fetched {ν β : Type} (fetch : ν → Effect HandleCall β) : List ν → List β
  | [] => []
  | n :: ns => match (fetch n).result with
    | .ok b => b :: fetched fetch ns
    | .error _ => []

/-- The longest prefix of the results with codes that let a generator go on. -/
def listing {ν β : Type} (fetch : ν → Effect HandleCall β) (rc : β → Int) (natives : List ν) :
    List β :=
  (fetched fetch natives).takeWhile (goesOn rc)

/-- The generator yields the listing, result by result, and fetches one result more, at which it
ends. -/
structure ListsExactly {ν β : Type} (fetch : ν → Effect HandleCall β) (rc : β → Int)
    (natives : List ν) (g : GenRun β) : Prop where
  yields : g.yields = listing fetch rc natives
  calls : g.calls = (natives.take (g.yields.length + 1)).flatMap fun n => (fetch n).calls
  finished : g.ending = .finished ↔ ∃ b, (fetched fetch natives)[g.yields.length]? = some b

/-- All entries that a call of `readdir_ex` lists have the same long entry. -/
def SameLongEntry (longentryMaxlen maxlen : Nat) (natives : List (Option NativeEntry)) : Prop :=
  ∀ r ∈ listing (readdirExOnce longentryMaxlen maxlen) (·.1) natives,
    ∀ r' ∈ listing (readdirExOnce longentryMaxlen maxlen) (·.1) natives, r.2.2.1 = r'.2.2.1

/-! ## The other methods -/

def WriteCall.handleCall (c : WriteCall) : HandleCall :=
  ⟨.write c.len, c.rc⟩

/-- `SFTPHandle.fsync`. -/
def sftpHandleFsync (rc : Int) : Effect HandleCall Int :=
  ⟨[⟨.fsync, rc⟩], handleErrorCodes rc⟩

def sftpHandleSeek (offset : Nat) : Effect HandleCall Unit :=
  ⟨[⟨.seek offset, 0⟩], .ok ()⟩

def sftpHandleSeek64 (offset : Nat) : Effect HandleCall Unit :=
  ⟨[⟨.seek64 offset, 0⟩], .ok ()⟩

def sftpHandleRewind : Effect HandleCall Unit :=
  ⟨[⟨.seek64 0, 0⟩], .ok ()⟩

/-- `SFTPHandle.tell`: `handle_error_codes` takes an `int`. -/
def sftpHandleTell (rc : Nat) : Effect HandleCall Int :=
  ⟨[⟨.tell, rc⟩], handleErrorCodes (toInt32 rc)⟩

/-- `SFTPHandle.tell64` calls the same native function. -/
def sftpHandleTell64 (rc : Nat) : Effect HandleCall Int :=
  ⟨[⟨.tell, rc⟩], handleErrorCodes (toInt32 rc)⟩

inductive StatResult (α : Type)
  | code (v : Int)
  | value (a : α)

/-- `if rc != 0: return handle_error_codes(rc)`, else the object that was filled. -/
def statResult {α : Type} (rc : Int) (a : α) : Except PyExc (StatResult α) :=
  if rc ≠ 0 then (handleErrorCodes rc).map .code else .ok (.value a)

def sftpHandleFstatEx (setstat rc : Int) : Effect HandleCall Int :=
  ⟨[⟨.fstatEx setstat, rc⟩], handleErrorCodes rc⟩

def sftpHandleFstat : Option (Int × SftpAttrs) → Effect HandleCall (StatResult SftpAttrs)
  | none => ⟨[], .error memoryError⟩
  | some (rc, attrs) => ⟨[⟨.fstatEx 0, rc⟩], statResult rc attrs⟩

def sftpHandleFsetstat (rc : Int) : Effect HandleCall Int :=
  ⟨[⟨.fstatEx 1, rc⟩], handleErrorCodes rc⟩

def sftpHandleFstatvfs {α : Type} : Option (Int × α) → Effect HandleCall (StatResult α)
  | none => ⟨[], .error memoryError⟩
  | some (rc, vfs) => ⟨[⟨.fstatvfs, rc⟩], statResult rc vfs⟩

/-! ## Closing -/

structure SftpHandle where
  closed : Bool
  deriving DecidableEq, Repr

/-- `PySFTPHandle` -/
def SftpHandle.new : SftpHandle := ⟨false⟩

/-- `SFTPHandle.close`, which returns `None` for a closed handle. -/
def SftpHandle.close (h : SftpHandle) (rc : Int) : SftpHandle × Effect HandleCall (Option Int) :=
  if h.closed then (h, ⟨[], .ok none⟩) else (⟨true⟩, ⟨[⟨.closeHandle, rc⟩], .ok (some rc)⟩)

/-- `SFTPHandle.__exit__`. -/
def SftpHandle.exit (h : SftpHandle) (rc : Int) : SftpHandle × Effect HandleCall Unit :=
  ((h.close rc).1, ⟨(h.close rc).2.calls, .ok ()⟩)

/-- `SFTPHandle.__dealloc__`. -/
def SftpHandle.dealloc (h : SftpHandle) (rc : Int) : List HandleCall :=
  if h.closed then [] else [⟨.closeHandle, rc⟩]

/-! ## One handle and its runs -/

/-- What a program can do with a handle object, with what the native calls give. A step of one of
the generators is a single fetch. -/
inductive HandleOp
  | read (maxlen : Nat) (native : Option NativeFill)
  | next (native : Option NativeFill)
  | readdirStep (maxlen : Nat) (native : Option NativeEntry)
  | readdirExStep (longentryMaxlen maxlen : Nat) (native : Option NativeEntry)
  | write (buf : PyObj) (results : List Int)
  | fsync (rc : Int)
  | seek (offset : Nat)
  | seek64 (offset : Nat)
  | rewind
  | tell (rc : Nat)
  | tell64 (rc : Nat)
  | fstatEx (setstat rc : Int)
  | fstat (native : Option (Int × SftpAttrs))
  | fsetstat (rc : Int)
  | fstatvfs (native : Option (Int × Unit))
  | close (rc : Int)
  | exit (rc : Int)
  | dealloc (rc : Int)

/-- The calls of an operation that leaves the handle as it is. -/
def HandleOp.useCalls : HandleOp → List HandleCall
  | .read maxlen native => (sftpHandleRead maxlen native).calls
  | .next native => (sftpHandleNext native).calls
  | .readdirStep maxlen native => (readdirOnce maxlen native).calls
  | .readdirExStep longentryMaxlen maxlen native =>
    (readdirExOnce longentryMaxlen maxlen native).calls
  | .write buf results => (sftpHandleWrite buf results).calls.map WriteCall.handleCall
  | .fsync rc => (sftpHandleFsync rc).calls
  | .seek offset => (sftpHandleSeek offset).calls
  | .seek64 offset => (sftpHandleSeek64 offset).calls
  | .rewind => sftpHandleRewind.calls
  | .tell rc => (sftpHandleTell rc).calls
  | .tell64 rc => (sftpHandleTell64 rc).calls
  | .fstatEx setstat rc => (sftpHandleFstatEx setstat rc).calls
  | .fstat native => (sftpHandleFstat native).calls
  | .fsetstat rc => (sftpHandleFsetstat rc).calls
  | .fstatvfs native => (sftpHandleFstatvfs native).calls
  | .close _ => []
  | .exit _ => []
  | .dealloc _ => []

/-- The operation passes the handle to `libssh2`: its buffer could be allocated, and there is
something to write. -/
def HandleOp.usesHandle : HandleOp → Bool
  | .read _ native => native.isSome
  | .next native => native.isSome
  | .readdirStep _ native => native.isSome
  | .readdirExStep _ _ native => native.isSome
  | .write (.bytes b) _ => b.length ≠ 0
  | .write _ _ => false
  | .fstat native => native.isSome
  | .fstatvfs native => native.isSome
  | .close _ => false
  | .exit _ => false
  | .dealloc _ => false
  | _ => true

/-- A step of the handle object; there is none after its deallocation. -/
def handleStep : Lib.Run.Step (Option SftpHandle) HandleOp HandleCall
  | none, _ => none
  | some h, .close rc => some (some (h.close rc).1, (h.close rc).2.calls)
  | some h, .exit rc => some (some (h.exit rc).1, (h.exit rc).2.calls)
  | some h, .dealloc rc => some (none, h.dealloc rc)
  | some h, op => some (some h, op.useCalls)

/-- The native close has completed, which frees the handle. -/
def HandleCall.Completes (c : HandleCall) : Prop :=
  c.fn = .closeHandle ∧ c.rc ≠ eagain

instance (c : HandleCall) : Decidable c.Completes :=
  inferInstanceAs (Decidable (_ ∧ _))

/-- What the flag is for: a completed close is the last call on the handle, `closed` says whether
there was one, and as long as there was none `close` and `__dealloc__` make the call. -/
def CloseTracked (calls : List HandleCall) (s : Option SftpHandle) : Prop :=
  (∀ pre c post, calls = pre ++ c :: post → c.Completes → post = []) ∧
  ∀ h, s = some h →
    (h.closed = true ↔ ∃ c ∈ calls, c.Completes) ∧
    ((¬∃ c ∈ calls, c.Completes) → ∀ rc, (h.close rc).2.calls = [⟨.closeHandle, rc⟩] ∧
      h.dealloc rc = [⟨.closeHandle, rc⟩])

/-! ## The file offset -/

/-- What moves the offset that `libssh2` keeps for the handle, and what reads it. After a transfer
the offset is what `libssh2` has made of it. -/
inductive OffsetOp
  | seek64 (offset : UInt64)
  | rewind
  | read (maxlen : Nat) (native : Option NativeFill) (after : UInt64)
  | write (buf : PyObj) (results : List Int) (after : UInt64)
  | tell64

/-- A call of `tell64`: the offset at that time, and the result. -/
structure Told where
  offset : UInt64
  result : Except PyExc Int

/-- A step of the offset. The assumption on `libssh2` is that `seek64` stores the offset and that
the tell functions return it. -/
def offsetStep : Lib.Run.Step UInt64 OffsetOp Told
  | _, .seek64 offset => some (offset, [])
  | _, .rewind => some (0, [])
  | s, .read maxlen native after =>
    some (if (sftpHandleRead maxlen native).calls = [] then s else after, [])
  | s, .write buf results after =>
    some (if (sftpHandleWrite buf results).calls = [] then s else after, [])
  | s, .tell64 => some (s, [⟨s, (sftpHandleTell64 s.toNat).result⟩])

/-- The result is the offset. -/
def Told.Exact (t : Told) : Prop :=
  t.result = .ok t.offset.toNat

/-- The offset is told while it fits a C `int`. -/
def OffsetOp.Fits (s : UInt64) (op : OffsetOp) : Prop :=
  op = .tell64 → s.toNat < 2 ^ 31

end Ssh2Python
