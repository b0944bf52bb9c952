import Ssh2Python.KnownHostLine
import Ssh2Python.Lib.Base64

/-!
# Collections of known hosts

`knownhost.c`: how entries are added, read from lines and files, written to a file, and checked
against the key of a host. A collection is the list of its entries. A pointer into a line is the
memory from there on, with the NUL behind the line; lengths are `size_t` and wrap around. An
operation that writes outside of the memory that it has allocated is `none`. Allocations succeed,
and so do the operations on files. As in `KnownHostNode.keyType`, DSA is not left out of the build.
-/

namespace Ssh2Python

open Lib.CInt Lib.CString

/-! ## Base64 -/

def table64 : List UInt8 :=
  asciiBytes "ABCDEFGHIJKLMNOPQRSTUVWXYZabcdefghijklmnopqrstuvwxyz0123456789+/"

/-- `base64_reverse_table`; `none` for its entries of -1. -/
def base64ReverseTable (b : UInt8) : Option UInt8 :=
  if b = 43 then some 62
  else if b = 47 then some 63
  else if 48 ≤ b ∧ b ≤ 57 then some (b - 48 + 52)
  else if 65 ≤ b ∧ b ≤ 90 then some (b - 65)
  else if 97 ≤ b ∧ b ≤ 122 then some (b - 97 + 26)
  else none

set_option maxRecDepth 4000 in
theorem base64ReverseTable_table64 : ∀ n < 64,
    base64ReverseTable (table64.getD n 0) = some (UInt8.ofNat n) := by
  decide

def base64 : Lib.Base64.Alphabet where
  digit v := table64.getD v.toNat 0
  value := base64ReverseTable
  pad := 61
  value_digit v hv := by
    rw [base64ReverseTable_table64 v.toNat (UInt8.lt_iff_toNat_lt.mp hv), UInt8.ofNat_toNat]
  value_pad := rfl

/-- `_libssh2_base64_encode`; an empty result is its failure. -/
def base64Encode (inp : List UInt8) (insize : Nat) : List UInt8 :=
  Lib.Base64.encode base64 (inp.take (if insize = 0 then strlen inp else insize))

/-- An operation that may return an error code, and may corrupt memory. -/
abbrev Fallible := ExceptT Int Option

/-- The size of the buffer that the decoder allocates. -/
def base64DecodeRoom (src : List UInt8) : Nat :=
  src.length / 4 * 3 + 1

/-- `_libssh2_base64_decode` -/
def base64Decode (src : List UInt8) : Fallible (List UInt8) :=
  if base64DecodeRoom src < (Lib.Base64.run base64 src).top then .mk none
  else match Lib.Base64.decode base64 src with
    | some data => pure data
    | none => throw ErrorCode.inval.value

/-! ## Entries -/

abbrev Typemask := BitVec 32

namespace Typemask

def plain : Typemask := 1#32

def sha1 : Typemask := 2#32

def custom : Typemask := 3#32

def keyencBase64 : Typemask := 2#32 <<< 16

/-- A key type, shifted to its place. -/
def key (k : Nat) : Typemask := BitVec.ofNat 32 k <<< 18

/-- `typemask & LIBSSH2_KNOWNHOST_TYPE_MASK` -/
def hostType (t : Typemask) : Typemask := t &&& 0xffff#32

/-- `typemask & LIBSSH2_KNOWNHOST_KEY_MASK`, shifted down. -/
def keyMask (t : Typemask) : Nat := ((t &&& (15#32 <<< 18)) >>> 18).toNat

/-- `typemask & LIBSSH2_KNOWNHOST_KEYENC_BASE64` -/
def isBase64 (t : Typemask) : Bool := t &&& keyencBase64 ≠ 0#32

end Typemask

/-- `LIBSSH2_KNOWNHOST_KEY_UNKNOWN`, shifted down. -/
def keyUnknown : Nat := 15

/-- `struct known_host`, without its links and its port, which nothing sets. The strings are what
was allocated for them, without the NUL that is forced behind them. -/
structure HostEntry where
  name : List UInt8
  salt : List UInt8 := []
  typemask : Typemask
  key : List UInt8
  keyTypeName : Option (List UInt8) := none
  comment : Option (List UInt8) := none
  deriving DecidableEq, Repr

/-- What a line is made of. The buffers of the hash and the salt are followed by what the heap
holds, which is read only if they are empty. -/
def HostEntry.node (e : HostEntry) (behind : List UInt8) : KnownHostNode where
  name :=
    if e.typemask.hostType = Typemask.sha1 then
      .sha1 (base64Encode (e.name ++ behind) e.name.length)
        (base64Encode (e.salt ++ behind) e.salt.length)
    else .plain e.name
  keyMask := e.typemask.keyMask
  key := e.key
  keyTypeName := e.keyTypeName
  comment := e.comment

/-! ## Adding -/

/-- The arguments of `knownhost_add`; the strings are memory. -/
structure AddArgs where
  host : List UInt8
  salt : List UInt8 := []
  keyTypeName : Option (List UInt8) := none
  key : List UInt8
  keylen : Nat
  comment : Option (List UInt8) := none
  commentlen : Nat := 0
  typemask : Typemask
  deriving DecidableEq, Repr

/-- The name and the salt of the entry. -/
def AddArgs.names (a : AddArgs) : Fallible (List UInt8 × List UInt8) :=
  if a.typemask.hostType = Typemask.plain ∨ a.typemask.hostType = Typemask.custom then
    pure (cstring a.host, [])
  else if a.typemask.hostType = Typemask.sha1 then do
    let name ← base64Decode (cstring a.host)
    let salt ← base64Decode (cstring a.salt)
    pure (name, salt)
  else throw ErrorCode.methodNotSupported.value

/-- The key of the entry, in base64. -/
def AddArgs.storedKey (a : AddArgs) : Fallible (List UInt8) :=
  if a.typemask.isBase64 then
    pure (a.key.take (if a.keylen = 0 then strlen a.key else a.keylen))
  else if base64Encode a.key a.keylen = [] then throw ErrorCode.alloc.value
  else pure (base64Encode a.key a.keylen)

/-- The comment of the entry. The block for it has room for a NUL, which is written in front of it
if its size wraps around to zero. -/
def AddArgs.storedComment (a : AddArgs) : Fallible (Option (List UInt8)) :=
  match a.comment with
  | none => pure none
  | some comment =>
    if a.commentlen + 1 = 2 ^ 64 then .mk none else pure (some (comment.take a.commentlen))

/-- `knownhost_add`: the new entry. -/
def AddArgs.entry (a : AddArgs) : Fallible HostEntry :=
  if a.typemask.keyMask = 0 then throw ErrorCode.inval.value
  else do
    let names ← a.names
    let key ← a.storedKey
    let comment ← a.storedComment
    pure {
      name := names.1
      salt := names.2
      typemask := a.typemask
      key := key
      keyTypeName := if a.typemask.keyMask = keyUnknown then a.keyTypeName else none
      comment := comment }

/-- A collection after an operation, and what the operation returned. -/
structure HostsResult where
  rc : Int
  hosts : List HostEntry
  deriving DecidableEq, Repr

/-- `knownhost_add` on a collection; new entries stand at the end. -/
def knownhostAdd (hosts : List HostEntry) (a : AddArgs) : Option HostsResult :=
  a.entry.run.map fun r => match r with
    | .ok e => ⟨0, hosts ++ [e]⟩
    | .error rc => ⟨rc, hosts⟩

/-! ## Lines -/

def isBlank (b : UInt8) : Bool :=
  b = 32 ∨ b = 9

/-- The loop over bytes that are neither blank nor NUL. -/
def wordLen (mem : List UInt8) (len : Nat) : Nat :=
  ((mem.take len).takeWhile fun b => b ≠ 0 ∧ isBlank b = false).length

/-- The loop over blanks. -/
def blankLen (mem : List UInt8) (len : Nat) : Nat :=
  ((mem.take len).takeWhile isBlank).length

def knownKeyTypes : List (List UInt8 × Nat) :=
  [(asciiBytes "ssh-ed25519", 7), (asciiBytes "ecdsa-sha2-nistp256", 4),
    (asciiBytes "ecdsa-sha2-nistp384", 5), (asciiBytes "ecdsa-sha2-nistp521", 6),
    (asciiBytes "ssh-rsa", 2), (asciiBytes "ssh-dss", 3)]

/-- The chain of `strncmp(key_type_name, …, key_type_len)`: a name that a known one starts with
counts as that one. -/
def keyTypeOf (name : List UInt8) : Nat :=
  match knownKeyTypes.find? fun t => name.isPrefixOf t.1 with
  | some t => t.2
  | none => keyUnknown

/-- The key part of a line, as `hostline` takes it apart. -/
structure KeyPart where
  keyTypeName : Option (List UInt8)
  key : List UInt8
  keylen : Nat
  keyType : Nat
  comment : Option (List UInt8)
  commentlen : Nat
  deriving DecidableEq, Repr

def isDigit (b : UInt8) : Bool :=
  48 ≤ b ∧ b ≤ 57

/-- The part of `hostline` that looks at the key. The loop that skips the blanks behind the key type
does not look at the length. -/
def keyPart (key : List UInt8) (keylen : Nat) : KeyPart :=
  if isDigit (key.headD 0) then ⟨none, key, keylen, 1, none, 0⟩
  else
    let typeLen := wordLen key keylen
    let skipped := ((key.drop typeLen).takeWhile isBlank).length
    let rest := key.drop (typeLen + skipped)
    let restLen := toSize (keylen - typeLen - skipped)
    let keyLen := wordLen rest restLen
    let blanks := blankLen (rest.drop keyLen) (restLen - keyLen)
    { keyTypeName := some (key.take typeLen)
      key := rest
      keylen := keyLen
      keyType := keyTypeOf (key.take typeLen)
      comment := if restLen - keyLen = 0 then none else some (rest.drop (keyLen + blanks))
      commentlen := restLen - keyLen - blanks }

/-- The host names of `oldstyle_hostline`, in the order in which it adds them: from the last one on.
The first argument is what stands in front of the current name, backwards. -/
def oldstyleNames : List UInt8 → List UInt8 → List (List UInt8)
  | [], _ => []
  | [b], cur => [b :: cur]
  | b :: c :: rest, cur =>
    if c = 44 then (b :: cur) :: oldstyleNames rest [] else oldstyleNames (c :: rest) (b :: cur)

/-- The arguments for an entry of a line. -/
def KeyPart.addArgs (k : KeyPart) (host salt : List UInt8) (hostType : Typemask) : AddArgs where
  host := host
  salt := salt
  keyTypeName := k.keyTypeName
  key := k.key
  keylen := k.keylen
  comment := k.comment
  commentlen := k.commentlen
  typemask := Typemask.key k.keyType ||| hostType ||| Typemask.keyencBase64

/-- Adding the names up to the first one that is too long or cannot be added. -/
def addNames (k : KeyPart) : List HostEntry → List (List UInt8) → Option HostsResult
  | hosts, [] => some ⟨0, hosts⟩
  | hosts, name :: names =>
    if 255 ≤ name.length then some ⟨ErrorCode.methodNotSupported.value, hosts⟩
    else (knownhostAdd hosts (k.addArgs (name ++ [0]) [] Typemask.plain)).bind fun r =>
      if r.rc ≠ 0 then some r else addNames k r.hosts names

/-- `oldstyle_hostline` -/
def oldstyleHostline (hosts : List HostEntry) (host : List UInt8) (hostlen : Nat) (k : KeyPart) :
    Option HostsResult :=
  if hostlen < 1 then some ⟨ErrorCode.methodNotSupported.value, hosts⟩
  else addNames k hosts (oldstyleNames (host.take hostlen).reverse [])

/-- `hashed_hostline` -/
def hashedHostline (hosts : List HostEntry) (host : List UInt8) (hostlen : Nat) (k : KeyPart) :
    Option HostsResult :=
  let salt := host.drop 3
  let saltlen := (salt.takeWhile fun b => b ≠ 0 ∧ b ≠ 124).length
  if (salt.drop saltlen).headD 0 = 124 then
    let hashlen := toSize (toSize ((hostlen : Int) - 3) - (saltlen + 1))
    if 31 ≤ saltlen then some ⟨ErrorCode.methodNotSupported.value, hosts⟩
    else if 255 ≤ hashlen then some ⟨ErrorCode.methodNotSupported.value, hosts⟩
    else knownhostAdd hosts (k.addArgs ((salt.drop (saltlen + 1)).take hashlen ++ [0])
      (salt.take saltlen ++ [0]) Typemask.sha1)
  else some ⟨0, hosts⟩

/-- `hostline` -/
def hostline (hosts : List HostEntry) (host : List UInt8) (hostlen : Nat) (key : List UInt8)
    (keylen : Nat) : Option HostsResult :=
  if keylen < 20 then some ⟨ErrorCode.methodNotSupported.value, hosts⟩
  else if 2 < hostlen ∧ host.take 3 ≠ asciiBytes "|1|" then
    oldstyleHostline hosts host hostlen (keyPart key keylen)
  else hashedHostline hosts host hostlen (keyPart key keylen)

/-- The host part and the key part of a line, or what is returned for a line without them. -/
inductive LineParts
  | none (rc : Int)
  | parts (host : List UInt8) (hostlen : Nat) (key : List UInt8) (keylen : Nat)
  deriving DecidableEq, Repr

/-- The part of `libssh2_knownhost_readline` that splits a line, which has a NUL behind it. -/
def splitLine (line : List UInt8) (len : Nat) : LineParts :=
  let blanks := blankLen line len
  let host := line.drop blanks
  let len := len - blanks
  if len = 0 ∨ host.headD 0 = 0 ∨ host.headD 0 = 35 ∨ host.headD 0 = 10 then .none 0
  else
    let hostlen := wordLen host len
    let sepLen := blankLen (host.drop hostlen) (len - hostlen)
    let key := host.drop (hostlen + sepLen)
    let len := len - hostlen - sepLen
    if key.headD 0 = 0 ∨ len = 0 then .none ErrorCode.methodNotSupported.value
    else
      let text := ((key.take len).takeWhile fun b => b ≠ 0 ∧ b ≠ 10).length
      .parts host hostlen key (if (key.drop text).headD 0 = 10 then len - 1 else len)

/-- `libssh2_knownhost_readline` -/
def knownhostReadline (hosts : List HostEntry) (line : List UInt8) (len : Nat) (type : Int) :
    Option HostsResult :=
  if type ≠ fileOpenSSH then some ⟨ErrorCode.methodNotSupported.value, hosts⟩
  else match splitLine line len with
    | .none rc => some ⟨rc, hosts⟩
    | .parts host hostlen key keylen => hostline hosts host hostlen key keylen

/-! ## Files -/

/-- `char buf[4092]` -/
def lineBuffer : Nat := 4092

/-- What the calls of `fgets` give for the contents of a file. -/
def fgetsLines : List UInt8 → List UInt8 → List (List UInt8)
  | [], cur => if cur = [] then [] else [cur]
  | b :: bs, cur =>
    if b = 10 ∨ cur.length + 1 = lineBuffer - 1 then (cur ++ [b]) :: fgetsLines bs []
    else fgetsLines bs (cur ++ [b])

/-- The loop of `libssh2_knownhost_readfile`; the result is the number of lines, or an error. -/
def readLinesInto : List HostEntry → Int → List (List UInt8) → Option HostsResult
  | hosts, num, [] => some ⟨num, hosts⟩
  | hosts, num, line :: lines =>
    (knownhostReadline hosts (line ++ [0]) (strlen (line ++ [0])) fileOpenSSH).bind fun r =>
      if r.rc ≠ 0 then some ⟨ErrorCode.knownHosts.value, r.hosts⟩
      else readLinesInto r.hosts (num + 1) lines

/-- `libssh2_knownhost_readfile` -/
def knownhostReadfile (hosts : List HostEntry) (content : List UInt8) (type : Int) :
    Option HostsResult :=
  if type ≠ fileOpenSSH then some ⟨ErrorCode.methodNotSupported.value, hosts⟩
  else readLinesInto hosts 0 (fgetsLines content [])

/-- The loop of `libssh2_knownhost_writefile`: the code, and what was written to the file. The
buffer is that of the lines before. -/
def writeLines (behind : List UInt8) : List UInt8 → List HostEntry → Int × List UInt8
  | _, [] => (0, [])
  | buffer, e :: es =>
    let r := knownhostWriteline (e.node behind) fileOpenSSH lineBuffer
    if r.rc ≠ 0 then (r.rc, [])
    else
      let buffer := r.written ++ buffer.drop r.written.length
      let rest := writeLines behind buffer es
      (rest.1, buffer.take r.outlen ++ rest.2)

/-- `libssh2_knownhost_writefile`, with what the buffer holds before the first line. -/
def knownhostWritefile (behind buffer : List UInt8) (hosts : List HostEntry) (type : Int) :
    Int × List UInt8 :=
  if type ≠ fileOpenSSH then (ErrorCode.methodNotSupported.value, [])
  else writeLines behind buffer hosts

/-! ## Checking -/

inductive CheckVerdict
  | match
  | mismatch
  | notFound
  | failure
  deriving DecidableEq, Repr

/-- The verdict, and the entry that is stored in `ext`. -/
structure CheckResult where
  verdict : CheckVerdict
  ext : Option HostEntry := none
  deriving DecidableEq, Repr

/-- HMAC-SHA1 of the host name under the salt; `none` if one of its functions fails. -/
abbrev HostHmac := List UInt8 → List UInt8 → Option (List UInt8)

/-- `SHA_DIGEST_LENGTH` -/
def shaDigestLength : Nat := 20

/-- The switch over the type of an entry: whether it is for the host. -/
def HostEntry.isFor (hmac : HostHmac) (type : Typemask) (host : List UInt8) (e : HostEntry) :
    Bool :=
  if e.typemask.hostType = Typemask.plain then
    type = Typemask.plain ∧ host = cstring (e.name ++ [0])
  else if e.typemask.hostType = Typemask.custom then
    type = Typemask.custom ∧ host = cstring (e.name ++ [0])
  else if e.typemask.hostType = Typemask.sha1 then
    type = Typemask.plain ∧ e.name.length = shaDigestLength ∧
      (hmac e.salt host).map (·.take shaDigestLength) = some e.name
  else false

/-- The key type is one that is compared. -/
def HostEntry.sameKeyType (typemask : Typemask) (e : HostEntry) : Bool :=
  typemask.keyMask ≠ keyUnknown ∧
    (typemask.keyMask = 0 ∨ typemask.keyMask = e.typemask.keyMask)

/-- One pass over the list: the entry that matches, or the first one with another key. -/
def checkPass (isFor : HostEntry → Bool) (typemask : Typemask) (key : List UInt8) :
    Option HostEntry → List HostEntry → Option HostEntry × Option HostEntry
  | badkey, [] => (none, badkey)
  | badkey, e :: es =>
    if isFor e then
      if e.sameKeyType typemask then
        if key = cstring (e.key ++ [0]) then (some e, none)
        else checkPass isFor typemask key (badkey.or (some e)) es
      else checkPass isFor typemask key badkey es
    else checkPass isFor typemask key badkey es

/-- `"[%s]:%d"` -/
def hostWithPort (host : List UInt8) (port : Nat) : List UInt8 :=
  asciiBytes "[" ++ host ++ asciiBytes "]:" ++ asciiBytes (toString port)

/-- The passes over the list, one for each spelling of the host. -/
def checkPasses (hmac : HostHmac) (hosts : List HostEntry) (typemask : Typemask)
    (key : List UInt8) :
    Option HostEntry → List (List UInt8) → CheckResult
  | none, [] => ⟨.notFound, none⟩
  | some e, [] => ⟨.mismatch, some e⟩
  | badkey, host :: spellings =>
    match checkPass (HostEntry.isFor hmac typemask.hostType host) typemask key badkey hosts with
    | (some e, _) => ⟨.match, some e⟩
    | (none, badkey) => checkPasses hmac hosts typemask key badkey spellings

/-- The key in base64, as it is compared. -/
def checkedKey (key : List UInt8) (keylen : Nat) (typemask : Typemask) : Option (List UInt8) :=
  if typemask.isBase64 then some (cstring key)
  else if base64Encode key keylen = [] then none
  else some (base64Encode key keylen)

/-- `char hostbuff[270]` -/
def hostBuffer : Nat := 270

/-- `knownhost_check`; a negative port is none. -/
def knownhostCheck (hmac : HostHmac) (hosts : List HostEntry) (hostp : List UInt8) (port : Int)
    (key : List UInt8) (keylen : Nat) (typemask : Typemask) : CheckResult :=
  if typemask.hostType = Typemask.sha1 then ⟨.mismatch, none⟩
  else if 0 ≤ port ∧ hostBuffer ≤ (hostWithPort (cstring hostp) port.toNat).length then
    ⟨.failure, none⟩
  else match checkedKey key keylen typemask with
    | none => ⟨.failure, none⟩
    | some key => checkPasses hmac hosts typemask key none
      (if 0 ≤ port then [hostWithPort (cstring hostp) port.toNat, cstring hostp]
        else [cstring hostp])

end Ssh2Python
