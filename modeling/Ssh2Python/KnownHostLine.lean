import Ssh2Python.Lib.CInt
import Ssh2Python.Lib.CString
import Ssh2Python.SftpHandle

/-!
# Lines of known hosts

`KnownHost.writeline` and the function of `knownhost.c` behind it. The native writer is told the
size of a buffer; it says how much room the line takes, and writes it only if there is enough. The
wrapper starts with the size of the caller and, as long as that was too small, calls itself with
twice the size. A fresh buffer holds what the heap held there before.
-/

namespace Ssh2Python

open Lib.CInt Lib.CString

/-! ## `knownhost_writeline` -/

/-- The name of a host in its node: a C string, or what `_libssh2_base64_encode` makes of the hash
and the salt, which is empty when it fails. -/
inductive HostName
  | plain (name : List UInt8)
  | sha1 (name64 salt64 : List UInt8)
  deriving DecidableEq, Repr

/-- `struct known_host`, as far as a line is made of it. The strings are what was allocated for
them, without the NUL that is forced behind them; `key_type_len` and `comment_len` are their
lengths. -/
structure KnownHostNode where
  name : HostName
  /-- `typemask & LIBSSH2_KNOWNHOST_KEY_MASK`, shifted down. -/
  keyMask : Nat
  key : List UInt8
  keyTypeName : Option (List UInt8) := none
  comment : Option (List UInt8) := none
  deriving DecidableEq, Repr

/-- What a `%s` prints of the memory. -/
def printed (mem : List UInt8) : List UInt8 :=
  cstring (mem ++ [0])

def asciiBytes (s : String) : List UInt8 :=
  s.toList.map fun c => UInt8.ofNat c.toNat

/-- `key_type_name` and its length, or that the type is not supported. -/
def KnownHostNode.keyType (node : KnownHostNode) : Option (List UInt8) :=
  match node.keyMask with
  | 1 => some []
  | 2 => some (asciiBytes "ssh-rsa")
  | 3 => some (asciiBytes "ssh-dss")
  | 4 => some (asciiBytes "ecdsa-sha2-nistp256")
  | 5 => some (asciiBytes "ecdsa-sha2-nistp384")
  | 6 => some (asciiBytes "ecdsa-sha2-nistp521")
  | 7 => some (asciiBytes "ssh-ed25519")
  | 15 => node.keyTypeName
  | _ => none

/-- What stands in front of the key type, with the separators between its parts. -/
def HostName.printed : HostName → List UInt8
  | .plain name => Ssh2Python.printed name
  | .sha1 name64 salt64 => asciiBytes "|1|" ++ salt64 ++ asciiBytes "|" ++ name64

/-- The room for the name, and for the blank, the line feed and the NUL. -/
def HostName.room : HostName → Nat
  | .plain name => strlen (name ++ [0]) + 3
  | .sha1 name64 salt64 => salt64.length + name64.length + 7

/-- One of the two encodings came back empty. -/
def HostName.encodingFailed : HostName → Bool
  | .plain _ => false
  | .sha1 name64 salt64 => name64 = [] ∨ salt64 = []

def KnownHostNode.requiredSize (node : KnownHostNode) (keyType : List UInt8) : Nat :=
  strlen (node.key ++ [0]) + (if keyType = [] then 0 else keyType.length + 1) +
    (match node.comment with
      | some comment => comment.length + 1
      | none => 0) + node.name.room

/-- The line that the `snprintf` writes. -/
def KnownHostNode.line (node : KnownHostNode) (keyType : List UInt8) : List UInt8 :=
  node.name.printed ++ asciiBytes " " ++
    (if keyType = [] then [] else printed keyType ++ asciiBytes " ") ++ printed node.key ++
    (match node.comment with
      | some comment => asciiBytes " " ++ printed comment
      | none => []) ++ asciiBytes "\n"

/-- What a call of the native writer gives: `rc`, `*outlen` and the bytes it wrote to the buffer. -/
structure NativeLine where
  rc : Int
  outlen : Nat := 0
  written : List UInt8 := []
  deriving DecidableEq, Repr

/-- `LIBSSH2_KNOWNHOST_FILE_OPENSSH` -/
def fileOpenSSH : Int := 1

/-- `knownhost_writeline` -/
def knownhostWriteline (node : KnownHostNode) (type : Int) (buflen : Nat) : NativeLine :=
  if type ≠ fileOpenSSH then { rc := ErrorCode.methodNotSupported.value }
  else match node.keyType with
    | none => { rc := ErrorCode.methodNotSupported.value }
    | some keyType =>
      if node.name.encodingFailed then { rc := ErrorCode.alloc.value }
      else if node.requiredSize keyType ≤ buflen then
        { rc := 0, outlen := node.requiredSize keyType - 1, written := node.line keyType ++ [0] }
      else { rc := ErrorCode.bufferTooSmall.value, outlen := node.requiredSize keyType - 1 }

/-! ## `KnownHost.writeline` -/

/-- What the heap holds where `malloc` puts a buffer of the given size. -/
structure FreshMemory where
  bytes : Nat → List UInt8
  length_bytes : ∀ n, (bytes n).length = n

/-- The buffer of `n` bytes after a prefix of it was written. -/
def FreshMemory.after (fresh : FreshMemory) (n : Nat) (written : List UInt8) : List UInt8 :=
  written ++ (fresh.bytes n).drop written.length

def writelineError (rc : Int) : PyExc where
  cls := .knownHostWriteLineError
  args := [.text "Error writing line for known host entry - error code %s", .int rc]

/-- `KnownHost.writeline`, at most `fuel` calls deep; `alloc` says for which sizes `malloc` gives
memory. The recursive call takes the default of `f_type`. -/
def writeline (native : Int → Nat → NativeLine) (alloc : Nat → Bool) (fresh : FreshMemory) :
    Nat → Int → Nat → Option (Except PyExc (List UInt8))
  | 0, _, _ => none
  | fuel + 1, fType, bufLen =>
    if alloc bufLen = false then some (.error memoryError)
    else if (native fType bufLen).rc = ErrorCode.bufferTooSmall.value then
      writeline native alloc fresh fuel fileOpenSSH (toSize ((bufLen : Int) * 2))
    else if (native fType bufLen).rc ≠ 0 then
      some (.error (writelineError (native fType bufLen).rc))
    else if 0 < (native fType bufLen).outlen then
      some (.ok ((fresh.after bufLen (native fType bufLen).written).take
        (native fType bufLen).outlen))
    else some (.ok [])

/-- What the wrapper relies on: below some size the buffer is too small, and from that size on the
result is always the same, with the line written as far as its length says. -/
structure WritesFrom (native : Nat → NativeLine) (need : Nat) (result : NativeLine) : Prop where
  need_le : need ≤ 2 ^ 63
  small : ∀ n < need, (native n).rc = ErrorCode.bufferTooSmall.value
  enough : ∀ n, need ≤ n → native n = result
  notSmall : result.rc ≠ ErrorCode.bufferTooSmall.value
  written : result.outlen ≤ result.written.length

/-- The line, or the exception, for a buffer that is large enough. -/
def NativeLine.outcome (result : NativeLine) : Except PyExc (List UInt8) :=
  if result.rc ≠ 0 then .error (writelineError result.rc)
  else .ok (result.written.take result.outlen)

/-- When the doubling gets there: it does not start from zero, unless nothing is needed, and there
is memory for the first size and for every size that follows one that was too small. -/
structure DoublingFits (need : Nat) (alloc : Nat → Bool) (bufLen : Nat) : Prop where
  start : bufLen = 0 → need = 0
  memory : ∀ j, (∀ i < j, bufLen * 2 ^ i < need) → alloc (bufLen * 2 ^ j) = true

end Ssh2Python
