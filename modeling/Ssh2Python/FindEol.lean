import Ssh2Python.Lib.CInt
import Ssh2Python.Lib.CString
import Ssh2Python.Lib.Lines
import Ssh2Python.Utils

/-!
# Reading lines

`find_eol` of `utils.pyx`, the C helper behind it, and the loop in which its users call it. The
helper looks for a carriage return from the byte before the line feed on. For an empty line that
byte is the one in memory before the data, which belongs to the header of the `bytes` object: it is
the parameter `before`, which may differ from call to call.
-/

namespace Ssh2Python

open Lib.CInt Lib.CString Lib.Lines

def CR : UInt8 := 13

def EOL : UInt8 := 10

/-- `find_eol.c`: the index of the end of the line as an `int`, and `*new_pos` after the call. -/
def cFindEol (before : UInt8) (data : List UInt8) (newPos : Int) : Int × Int :=
  match strchr EOL (data ++ [0]) with
  | none => (-1, newPos)
  | some found =>
    if (strchr CR ((before :: (data ++ [0])).drop found)).isSome then
      (toInt32 (toUInt32 (found - 1)), newPos + 1 + 1)
    else (toInt32 (toUInt32 found), newPos + 1)

/-- `buf[pos:buf_len]`. -/
def PyBytes.sliceFrom (buf : PyBytes) (pos : Int) : PyBytes :=
  buf.drop (if pos < 0 then pos + buf.length else pos).toNat

/-- `find_eol` of `utils.pyx`. -/
def findEol (before : UInt8) (buf : PyBytes) (pos : Int) : Int × Int :=
  if buf.length = 0 then (-1, pos) else cFindEol before (buf.sliceFrom pos).data 0

/-! ## The loop around it -/

/-- A line the loop emits: where it starts and the two numbers `find_eol` returned. -/
structure Piece where
  pos : Nat
  index : Nat
  newPos : Nat
  deriving DecidableEq, Repr

def Piece.next (p : Piece) : Nat :=
  p.pos + (p.index + p.newPos)

/-- `buf[pos:pos + index]` -/
def Piece.line (buf : PyBytes) (p : Piece) : List UInt8 :=
  (buf.data.drop p.pos).take p.index

/-- The bytes that `pos += index + new_pos` skips behind the line. -/
def Piece.dropped (buf : PyBytes) (p : Piece) : List UInt8 :=
  (buf.data.drop (p.pos + p.index)).take p.newPos

/-- The loop of the tests, from position `pos` on: what it emits, and the remainder. -/
def readLines (before : Nat → UInt8) (buf : PyBytes) : Nat → Nat → Option (List Piece × List UInt8)
  | 0, _ => none
  | fuel + 1, pos =>
    let r := findEol (before pos) buf pos
    if r.1 < 0 then some ([], buf.data.drop pos)
    else do
      let (ps, rem) ← readLines before buf fuel (pos + (r.1.toNat + r.2.toNat))
      return (⟨pos, r.1.toNat, r.2.toNat⟩ :: ps, rem)

/-- The loop ends, moves on at every line, and cuts the buffer at its line feeds: nothing but the
terminators is dropped, and with them the lines are the buffer. -/
def CutsIntoLines (before : Nat → UInt8) (buf : PyBytes) : Prop :=
  ∃ fuel pieces rem, readLines before buf fuel 0 = some (pieces, rem) ∧
    pieces.map (Piece.line buf) = lines EOL CR buf.data ∧
    rem = rest EOL buf.data ∧
    (∀ p ∈ pieces, p.pos < p.next) ∧
    (∀ p ∈ pieces, p.dropped buf = [EOL] ∨ p.dropped buf = [CR, EOL]) ∧
    pieces.flatMap (fun p => p.line buf ++ p.dropped buf) ++ rem = buf.data

/-- When the helper treats a line right: `a` is the line with its carriage return, `post` what
follows its line feed. -/
def LineOk (before : UInt8) (a post : List UInt8) : Prop :=
  (if a = [] then before ≠ CR ∧ (before = 0 ∨ CR ∉ post)
    else a.getLast? = some CR ∨ CR ∉ post) ∧
  (chomp CR a).length < 2 ^ 31

instance (before : UInt8) (a post : List UInt8) : Decidable (LineOk before a post) :=
  inferInstanceAs (Decidable (_ ∧ _))

/-! ## What the helper reads, and what its answer depends on -/

def offsets (start : Int) (n : Nat) : List Int :=
  (List.range n).map fun i : Nat => start + i

/-- The offsets into the data that the two searches of `find_eol.c` examine. -/
def cFindEolReads (before : UInt8) (data : List UInt8) : List Int :=
  offsets 0 (strchrReads EOL (data ++ [0])) ++
    match strchr EOL (data ++ [0]) with
    | none => []
    | some found => offsets (found - 1) (strchrReads CR ((before :: (data ++ [0])).drop found))

def findEolReads (before : UInt8) (buf : PyBytes) (pos : Int) : List Int :=
  if buf.length = 0 then [] else cFindEolReads before (buf.sliceFrom pos).data

/-- Two bytes that differ at most in what is no part of a terminator. -/
def SameByte (b b' : UInt8) : Prop :=
  b = b' ∨ (b ≠ EOL ∧ b ≠ CR) ∧ b' ≠ EOL ∧ b' ≠ CR

/-- The second buffer is the first one with bytes other than terminators replaced by such bytes. -/
def SameTerminators (data data' : List UInt8) : Prop :=
  List.Forall₂ SameByte data data'

/-- What the documentation of `find_eol` lets a caller expect: it reads the data and the NUL behind
it, its answer is that for any other contents between the terminators and for any memory around
the data, and it reports no line exactly when there is none. -/
structure EolLaw (buf buf' : PyBytes) (pos : Nat) : Prop where
  reads : ∀ before, ∀ o ∈ findEolReads before buf pos, 0 ≤ o ∧ o ≤ (buf.length : Int) - pos
  same : ∀ before before', findEol before buf pos = findEol before' buf' pos
  noLine : ∀ before, (findEol before buf pos).1 < 0 ↔ EOL ∉ buf.data.drop pos

/-- The data before the first line feed. -/
def firstLine (data : List UInt8) : List UInt8 :=
  data.takeWhile (· ≠ EOL)

/-- The data behind the first line feed. -/
def behindLine (data : List UInt8) : List UInt8 :=
  (data.dropWhile (· ≠ EOL)).drop 1

/-- The first line ends in a carriage return, or one follows it before the next NUL. -/
def CrFollows (data : List UInt8) : Prop :=
  (firstLine data).getLast? = some CR ∨ CR ∈ cstring (behindLine data ++ [0])

instance (data : List UInt8) : Decidable (CrFollows data) :=
  inferInstanceAs (Decidable (_ ∨ _))

/-- When the law is kept: where there is a line, it is not empty, holds no NUL in either buffer,
both buffers agree on the carriage return, and the index is in the lower half of its 32 bits. -/
structure EolOk (data data' : List UInt8) : Prop where
  nonempty : firstLine data ≠ []
  noNul : 0 ∉ firstLine data
  noNul' : 0 ∉ firstLine data'
  cr : CrFollows data ↔ CrFollows data'
  fits : ((firstLine data).length - if CrFollows data then 1 else 0) % 2 ^ 32 < 2 ^ 31

end Ssh2Python
