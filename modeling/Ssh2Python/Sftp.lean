import Ssh2Python.SftpHandle

/-!
# SFTP sessions

The methods of `SFTP` that read data of the server, and the operations that transfer or list data
taken together: `TransferOp` is one of them with what its native calls give, and `outcome` the codes
those calls returned, in order, and the way the operation ended.
-/

namespace Ssh2Python

open Lib.CInt

inductive SftpFn
  | realpath (path : PyBytes) (maxlen : Nat)
  deriving DecidableEq

/-- A call on the SFTP instance and the code it returned. -/
structure SftpCall where
  fn : SftpFn
  rc : Int
  deriving DecidableEq

inductive RealpathResult
  | code (v : Int)
  | path (s : PyStr)

/-- `SFTP.realpath`: the buffer is allocated before the path is converted. -/
def sftpRealpath (path : PyObj) (maxLen : Nat) (native : Option NativeFill) :
    Effect SftpCall RealpathResult :=
  if path = .none then ⟨[], .error { cls := .typeError }⟩
  else match native with
    | none => ⟨[], .error memoryError⟩
    | some r => match bytesArg path with
      | .error e => ⟨[], .error e⟩
      | .ok p =>
        ⟨[⟨.realpath p (toUInt32 maxLen).toNat, r.rc⟩],
          if r.rc < 0 then (handleErrorCodes r.rc).map .code
          else (toStrLen r.buf r.rc.toNat).map .path⟩

/-! ## Transfers and listings -/

structure Outcome where
  codes : List Int
  ending : Ending
  deriving DecidableEq, Repr

def GenEnd.ending : GenEnd → Ending
  | .suspended => .suspended
  | .finished => .normal
  | .raised e => .raised e

def GenRun.outcome {β : Type} (g : GenRun β) : Outcome :=
  ⟨g.calls.map (·.rc), g.ending.ending⟩

def WriteStatus.ending : WriteStatus → Ending
  | .returned _ _ => .normal
  | .code _ => .normal
  | .raised e => .raised e
  | .blocked => .suspended

/-- An operation that transfers or lists data or closes a handle, with its native results. -/
inductive TransferOp
  | read (maxlen : Nat) (native : Option NativeFill)
  | iterate (natives : List (Option NativeFill))
  | readdir (maxlen : Nat) (natives : List (Option NativeEntry))
  | readdirEx (longentryMaxlen maxlen : Nat) (natives : List (Option NativeEntry))
  | write (buf : PyObj) (results : List Int)
  | close (h : SftpHandle) (rc : Int)
  | fsync (rc : Int)
  | realpath (path : PyObj) (maxLen : Nat) (native : Option NativeFill)

def TransferOp.outcome : TransferOp → Outcome
  | .read maxlen native =>
    let e := sftpHandleRead maxlen native
    ⟨e.calls.map (·.rc), e.ending⟩
  | .iterate natives => (sftpHandleIterate natives).outcome
  | .readdir maxlen natives => (sftpHandleReaddir maxlen natives).outcome
  | .readdirEx longentryMaxlen maxlen natives =>
    (sftpHandleReaddirEx longentryMaxlen maxlen natives).outcome
  | .write buf results =>
    let r := sftpHandleWrite buf results
    ⟨r.calls.map (·.rc), r.status.ending⟩
  | .close h rc =>
    let e := (h.close rc).2
    ⟨e.calls.map (·.rc), e.ending⟩
  | .fsync rc =>
    let e := sftpHandleFsync rc
    ⟨e.calls.map (·.rc), e.ending⟩
  | .realpath path maxLen native =>
    let e := sftpRealpath path maxLen native
    ⟨e.calls.map (·.rc), e.ending⟩

/-- The operations that go on until the data or the directory ends. -/
def TransferOp.traverses : TransferOp → Bool
  | .iterate _ => true
  | .readdir _ _ => true
  | .readdirEx _ _ _ => true
  | _ => false

def IsError (rc : Int) : Prop :=
  rc < 0 ∧ rc ≠ eagain

instance (rc : Int) : Decidable (IsError rc) :=
  inferInstanceAs (Decidable (_ ∧ _))

/-- A native error is the last result and leaves the operation as an `SSH2Error`. -/
def Outcome.Surfaces (o : Outcome) : Prop :=
  ∀ pre rc post, o.codes = pre ++ rc :: post → IsError rc →
    post = [] ∧ ∃ e, o.ending = .raised e ∧ e.IsSSH2Error

/-- Errors surface, and a traversal ends without one only after the result `0`. -/
def TransferOp.ErrorsSurface (op : TransferOp) : Prop :=
  op.outcome.Surfaces ∧
  (op.traverses = true → op.outcome.ending = .normal → op.outcome.codes.getLast? = some 0)

/-! ## When they surface -/

/-- The code of a traversal makes it go on; `fits` is the conversion it goes through. -/
def Continues (fits : Int → Prop) (rc : Int) : Prop :=
  fits rc ∧ (rc = eagain ∨ 0 < rc)

/-- No error among the results a traversal reaches; `none` is a failed allocation. -/
def NoErrorReached (fits : Int → Prop) (codes : List (Option Int)) : Prop :=
  ∀ pre rc post, codes = pre ++ some rc :: post →
    (∀ c ∈ pre, ∃ p, c = some p ∧ Continues fits p) → ¬IsError rc

/-- `write`, `fsync` and `realpath` translate their codes; of the others each needs that no native
call it makes returns an error. -/
def TransferOp.ErrorFree : TransferOp → Prop
  | .read _ native => ∀ r, native = some r → ¬IsError r.rc
  | .iterate natives =>
    NoErrorReached (fun rc => toInt32 rc = rc) (natives.map (Option.map (·.rc)))
  | .readdir _ natives => NoErrorReached (fun _ => True) (natives.map (Option.map (·.rc)))
  | .readdirEx _ _ natives => NoErrorReached (fun _ => True) (natives.map (Option.map (·.rc)))
  | .close h rc => h.closed = true ∨ ¬IsError rc
  | .write _ _ => True
  | .fsync _ => True
  | .realpath _ _ _ => True

/-- The error codes of `libssh2` are `int`s; `libssh2_sftp_write` returns them as `ssize_t`. -/
def TransferOp.IntCodes : TransferOp → Prop
  | .write _ results => ∀ rc ∈ results, -2 ^ 31 ≤ rc
  | _ => True

end Ssh2Python
