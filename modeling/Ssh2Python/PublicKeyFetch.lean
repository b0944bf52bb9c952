import Mathlib.Data.List.Forall2
import Mathlib.Logic.Function.Basic
import Ssh2Python.Sftp
import Ssh2Python.TearDown

/-!
# Fetching the list of public keys

`PublicKeySystem.list_fetch` and the objects of class `PublicKeyList` that it makes. The native list
is one array: `libssh2_publickey_list_fetch` stores its address, and `libssh2_publickey_list_free`
frees all of it. `listFetchThrough` is the method for any value of its variable `pkey_list`, which
the source sets to NULL.
-/

namespace Ssh2Python

/-! ## The native side -/

structure ReportedAttribute where
  name : List UInt8
  value : List UInt8
  deriving DecidableEq

/-- A public key as the server reports it. -/
structure ReportedKey where
  name : List UInt8
  blob : List UInt8
  attrs : List ReportedAttribute
  deriving DecidableEq

/-- What `libssh2_publickey_list_fetch` gives. The array is allocated with its first key, so it is
NULL for the empty list. -/
inductive NativeKeys
  | code (rc : Int) (ne : rc ≠ 0)
  | keys (reported : List ReportedKey) (array : Option Nat) (alloc : array = none ↔ reported = [])

namespace NativeKeys

def rc : NativeKeys → Int
  | .code rc _ => rc
  | .keys _ _ _ => 0

/-- The call returns a code other than zero. -/
def Fails : NativeKeys → Prop
  | .code _ _ => True
  | .keys _ _ _ => False

def reported : NativeKeys → List ReportedKey
  | .code _ _ => []
  | .keys ks _ _ => ks

end NativeKeys

/-- The first argument is the pointer of the subsystem. `libssh2_publickey_list_free` may be passed
what stands behind `None`; that is `none` here. -/
inductive KeysCall
  | listFetch (pkey : Option Nat)
  | listFree (pkey : Option (Option Nat)) (keyList : Option Nat)
  deriving DecidableEq

/-- The array that a call frees: `libssh2_publickey_list_free` does nothing if it is passed NULL, as
either argument. -/
def KeysCall.freed : KeysCall → Option Nat
  | .listFetch _ => none
  | .listFree (some none) _ => none
  | .listFree _ keyList => keyList

/-! ## `PublicKeyList` -/

/-- `pkeyS` is `none` for `None`. -/
structure PublicKeyList where
  keyList : Option Nat
  pkeyS : Option PublicKeySystem
  deriving DecidableEq

def argCountError (n : Nat) : PyExc where
  cls := .typeError
  args := [.text "__cinit__() takes exactly 1 positional argument (%zd given)", .int n]

def noAttrError : PyExc where
  cls := .attributeError
  args := [.text "'ssh2.publickey.PublicKeyList' object has no attribute 'attr'"]

namespace PublicKeyList

/-- `PublicKeyList.__dealloc__` -/
def dealloc (o : PublicKeyList) : KeysCall :=
  .listFree (o.pkeyS.map PublicKeySystem.pkeyS) o.keyList

/-- `PublicKeyList.__new__`, for the arguments that it passes on to `__cinit__`. An object that
could not be initialised is destroyed as it is. -/
def new : List (Option PublicKeySystem) → Effect KeysCall PublicKeyList
  | [pkeyS] => return ⟨none, pkeyS⟩
  | args => do
    .emit (dealloc ⟨none, none⟩)
    .raise (argCountError args.length)

/-- `self.attr`: the class has no such attribute. -/
def attr {α : Type} (_ : PublicKeyList) : Except PyExc α :=
  .error noAttrError

/-- `PublicKeyList.name` -/
def name (o : PublicKeyList) : Except PyExc (List UInt8) :=
  o.attr

/-- `PublicKeyList.blob` -/
def blob (o : PublicKeyList) : Except PyExc (List UInt8) :=
  o.attr

/-- `PublicKeyList.num_attrs` -/
def numAttrs (o : PublicKeyList) : Except PyExc Nat :=
  o.attr

end PublicKeyList

/-- `PyPublicKeyList` -/
def pyPublicKeyList (list : Option Nat) : Effect KeysCall PublicKeyList := do
  let keyList ← PublicKeyList.new []
  return { keyList with keyList := list }

/-- `[PyPublicKeyList(pkey_list[i]) for i in …]` -/
def pyPublicKeyLists (pkeyList : Nat → Option Nat) :
    List Nat → Effect KeysCall (List PublicKeyList)
  | [] => return []
  | i :: is => do
    let k ← pyPublicKeyList (pkeyList i)
    let ks ← pyPublicKeyLists pkeyList is
    return k :: ks

/-! ## `list_fetch` -/

inductive KeysResult
  | code (v : Int)
  | keys (ks : List PublicKeyList)
  deriving DecidableEq

namespace PublicKeySystem

/-- `PublicKeySystem.list_fetch` for a value of `pkey_list`: NULL, or a place in memory where the
pointers `pkey_list[i]` stand. The result is `none` if the process crashes. -/
def listFetchThrough (p : PublicKeySystem) (pkeyList : Option (Nat → Option Nat))
    (native : NativeKeys) : Effect KeysCall (Option KeysResult) := do
  .emit (.listFetch p.pkeyS)
  match native with
  | .code rc _ =>
    let v ← .lift (handleErrorCodes rc)
    return some (.code v)
  | .keys reported array _ => match pkeyList with
    -- `*pkey_list = list` in `libssh2_publickey_list_fetch`
    | none => return none
    | some cells =>
      if reported.length < 1 then return some (.keys [])
      else
        let keys ← pyPublicKeyLists (Function.update cells 0 array) (List.range reported.length)
        return some (.keys keys)

/-- `PublicKeySystem.list_fetch` -/
def listFetchKeys (p : PublicKeySystem) (native : NativeKeys) :
    Effect KeysCall (Option KeysResult) :=
  p.listFetchThrough none native

end PublicKeySystem

/-! ## What it should do -/

/-- The object shows the key. -/
structure PublicKeyList.Shows (o : PublicKeyList) (k : ReportedKey) : Prop where
  name : o.name = .ok k.name
  blob : o.blob = .ok k.blob
  numAttrs : o.numAttrs = .ok k.attrs.length

/-- Destroyed in any order, the last of the objects frees the array, and no other call does. -/
def FreedLast (calls : List KeysCall) (objs : List PublicKeyList) (array : Option Nat) : Prop :=
  ∀ gone left, (gone ++ left).Perm objs →
    (calls ++ gone.map PublicKeyList.dealloc).filterMap KeysCall.freed =
      if left = [] then array.toList else []

/-- An error is raised, and a list of keys is returned as one object for each key, in order. -/
def NativeKeys.Faithful : NativeKeys → Effect KeysCall (Option KeysResult) → Prop
  | .code rc _, r => IsError rc → ∃ e, r.result = .error e ∧ e.IsSSH2Error
  | .keys reported array _, r => ∃ objs, r.result = .ok (some (.keys objs)) ∧
    List.Forall₂ PublicKeyList.Shows objs reported ∧ FreedLast r.calls objs array

end Ssh2Python
