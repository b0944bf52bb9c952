import Mathlib.Algebra.Group.Nat.Defs
import Ssh2Python.Errors
import Ssh2Python.Lib.CString

/-!
# Bytes and text

The Python values the bindings convert on the way to `libssh2` and back, and the conversions of
`utils.pyx`: `to_bytes` on the way in, `to_str` and `to_str_len` on the way out. The length of a
`bytes` object is a `Py_ssize_t`; a `str` is a sequence of code points, lone surrogates included,
and a surrogate has no UTF-8 encoding.
-/

namespace Ssh2Python

open Lib.CString

structure PyBytes where
  data : List UInt8
  length_lt : data.length < 2 ^ 63
  deriving DecidableEq

namespace PyBytes

def length (b : PyBytes) : Nat :=
  b.data.length

def drop (b : PyBytes) (n : Nat) : PyBytes where
  data := b.data.drop n
  length_lt := Nat.lt_of_le_of_lt (by rw [List.length_drop]; omega) b.length_lt

@[simp] theorem data_drop (b : PyBytes) (n : Nat) : (b.drop n).data = b.data.drop n := rfl

@[simp] theorem length_drop (b : PyBytes) (n : Nat) : (b.drop n).length = b.length - n := by
  simp [length]

theorem length_lt' (b : PyBytes) : b.length < 2 ^ 63 :=
  b.length_lt

end PyBytes

structure PyStr where
  points : List (Fin 0x110000)
  deriving DecidableEq

/-- An argument or result of user code, as far as the conversions tell its types apart. -/
inductive PyObj
  | bytes (b : PyBytes)
  | text (s : PyStr)
  | none
  | other
  deriving DecidableEq

def encodePoint (p : Fin 0x110000) : Except PyExc (List UInt8) :=
  if Nat.isValidChar p then .ok (String.utf8EncodeChar (Char.ofNat p))
  else .error { cls := .unicodeEncodeError }

def encodePoints : List (Fin 0x110000) → Except PyExc (List UInt8)
  | [] => .ok []
  | p :: ps => do
    let b ← encodePoint p
    let bs ← encodePoints ps
    return b ++ bs

def PyStr.encode (s : PyStr) : Except PyExc PyBytes := do
  let bs ← encodePoints s.points
  if h : bs.length < 2 ^ 63 then return ⟨bs, h⟩ else throw { cls := .memoryError }

/-- `to_bytes`. Its C return type `bytes` lets `None` through and nothing else that is not
`bytes`. -/
def toBytes : PyObj → Except PyExc (Option PyBytes)
  | .bytes b => .ok (some b)
  | .text s => s.encode.map some
  | .none => .ok .none
  | .other => .error { cls := .typeError }

def PyStr.ofChars (cs : List Char) : PyStr :=
  ⟨cs.map fun c => Fin.ofNat 0x110000 c.toNat⟩

def decode (b : List UInt8) : Except PyExc PyStr :=
  match b.toByteArray.utf8Decode? with
  | some cs => .ok (PyStr.ofChars cs.toList)
  | .none => .error { cls := .unicodeDecodeError }

def toStr (mem : List UInt8) : Except PyExc PyStr :=
  decode (mem.take (strlen mem))

def toStrLen (mem : List UInt8) (length : Nat) : Except PyExc PyStr :=
  decode (mem.take length)

/-- A native text: a UTF-8 string without NUL. -/
structure CText where
  chars : List Char
  nul_free : 0 ∉ chars.flatMap String.utf8EncodeChar

namespace CText

def bytes (t : CText) : List UInt8 :=
  t.chars.flatMap String.utf8EncodeChar

/-- The memory of the string. -/
def mem (t : CText) : List UInt8 :=
  t.bytes ++ [0]

def text (t : CText) : PyStr :=
  PyStr.ofChars t.chars

end CText

/-- A parameter declared `not None`, converted by `to_bytes`. -/
def bytesArg : PyObj → Except PyExc PyBytes
  | .none => .error { cls := .typeError }
  | x => match toBytes x with
    | .error e => .error e
    | .ok none => .error { cls := .typeError }
    | .ok (some b) => .ok b

theorem decode_utf8 (cs : List Char) :
    decode (cs.flatMap String.utf8EncodeChar) = .ok (PyStr.ofChars cs) := by
  have h : (cs.flatMap String.utf8EncodeChar).toByteArray.utf8Decode? = some cs.toArray :=
    List.utf8Decode?_utf8Encode
  rw [decode, h]

/-- `to_str` gives back a native text, whatever lies behind it in memory. -/
theorem toStr_mem (t : CText) (behind : List UInt8) :
    toStr (t.mem ++ behind) = .ok t.text := by
  have hmem : t.mem ++ behind = t.bytes ++ 0 :: behind := by simp [CText.mem]
  have h0 : 0 ∉ t.bytes := t.nul_free
  rw [toStr, hmem, strlen_terminated h0, List.take_left]
  exact decode_utf8 t.chars

end Ssh2Python
