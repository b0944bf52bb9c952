import Ssh2Python.Errors
import Ssh2Python.Lib.CString

/-!
# Host keys and their fingerprints

`Session.hostkey` and `Session.hostkey_hash`, and the part of the native session they read: the key
of the server, and three digests of it that stand one after the other in the structure, each
followed by an `int` that says whether it is valid. A native pointer is the memory from there on.
-/

namespace Ssh2Python

open Lib.CString

/-! ## The native session -/

inductive ByteOrder
  | little
  | big
  deriving DecidableEq, Repr

/-- The four bytes of an `int` in memory. -/
def intBytes (order : ByteOrder) (x : UInt32) : List UInt8 :=
  let bytes := [x.toUInt8, (x >>> 8).toUInt8, (x >>> 16).toUInt8, (x >>> 24).toUInt8]
  match order with
  | .little => bytes
  | .big => bytes.reverse

/-- A digest of the host key, such as `server_hostkey_md5` with `server_hostkey_md5_valid`. -/
structure HostkeyDigest (length : Nat) where
  bytes : List UInt8
  valid : UInt32
  length_eq : bytes.length = length
  deriving DecidableEq

/-- What the two functions read of `_LIBSSH2_SESSION`. -/
structure HostkeyFields where
  /-- The memory at `server_hostkey`. -/
  hostkey : List UInt8
  hostkeyLen : UInt32
  md5 : HostkeyDigest 16
  sha1 : HostkeyDigest 20
  sha256 : HostkeyDigest 32
  /-- The memory after the digests. -/
  behind : List UInt8
  deriving DecidableEq

inductive HashType
  | md5
  | sha1
  | sha256
  deriving DecidableEq, Repr

/-- `LIBSSH2_HOSTKEY_HASH_MD5` and so on. -/
def HashType.value : HashType → Int
  | .md5 => 1
  | .sha1 => 2
  | .sha256 => 3

namespace HostkeyFields

/-- The memory from the digest on. -/
def mem (order : ByteOrder) (s : HostkeyFields) (t : HashType) : List UInt8 :=
  let sha256 := s.sha256.bytes ++ (intBytes order s.sha256.valid ++ s.behind)
  let sha1 := s.sha1.bytes ++ (intBytes order s.sha1.valid ++ sha256)
  match t with
  | .md5 => s.md5.bytes ++ (intBytes order s.md5.valid ++ sha1)
  | .sha1 => sha1
  | .sha256 => sha256

def digest (s : HostkeyFields) : HashType → List UInt8
  | .md5 => s.md5.bytes
  | .sha1 => s.sha1.bytes
  | .sha256 => s.sha256.bytes

def valid (s : HostkeyFields) : HashType → UInt32
  | .md5 => s.md5.valid
  | .sha1 => s.sha1.valid
  | .sha256 => s.sha256.valid

end HostkeyFields

/-- `libssh2_hostkey_hash` -/
def libssh2HostkeyHash (order : ByteOrder) (s : HostkeyFields) (hashType : Int) :
    Option (List UInt8) :=
  if hashType = HashType.md5.value then
    if s.md5.valid ≠ 0 then some (s.mem order .md5) else none
  else if hashType = HashType.sha1.value then
    if s.sha1.valid ≠ 0 then some (s.mem order .sha1) else none
  else if hashType = HashType.sha256.value then
    if s.sha256.valid ≠ 0 then some (s.mem order .sha256) else none
  else none

/-- The prefixes that `hostkey_type` knows, with the type of each, in the order of the source. -/
def hostkeyTypes : List (List UInt8 × Int) :=
  [([0, 0, 0, 7] ++ "ssh-rsa".toUTF8.toList, 1), ([0, 0, 0, 7] ++ "ssh-dss".toUTF8.toList, 2),
   ([0, 0, 0, 0x0b] ++ "ssh-ed25519".toUTF8.toList, 6),
   ([0, 0, 0, 0x13] ++ "ecdsa-sha2-nistp256".toUTF8.toList, 3),
   ([0, 0, 0, 0x13] ++ "ecdsa-sha2-nistp384".toUTF8.toList, 4),
   ([0, 0, 0, 0x13] ++ "ecdsa-sha2-nistp521".toUTF8.toList, 5)]

def hostkeyType (hostkey : List UInt8) : Int :=
  ((hostkeyTypes.find? fun t => t.1.isPrefixOf hostkey).map Prod.snd).getD 0

/-- `libssh2_session_hostkey`: the pointer, the length and the type. -/
def libssh2SessionHostkey (s : HostkeyFields) : Option (List UInt8 × Nat × Int) :=
  if s.hostkeyLen ≠ 0 then
    some (s.hostkey, s.hostkeyLen.toNat, hostkeyType (s.hostkey.take s.hostkeyLen.toNat))
  else none

/-! ## The methods of `Session` -/

/-- `Session.hostkey_hash`. The conversion of a `char *` to `bytes` measures it. -/
def sessionHostkeyHash (order : ByteOrder) (s : HostkeyFields) (hashType : Int) :
    Option (List UInt8) :=
  (libssh2HostkeyHash order s hashType).map cstring

/-- `Session.hostkey` -/
def sessionHostkey (s : HostkeyFields) : Except PyExc (List UInt8 × Int) :=
  match libssh2SessionHostkey s with
  | none => .error { cls := .sessionHostKeyError,
                     args := [.text "Error retrieving server host key for session"] }
  | some (key, len, keyType) => .ok (key.take len, keyType)

end Ssh2Python
