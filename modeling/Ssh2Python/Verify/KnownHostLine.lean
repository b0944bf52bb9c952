import Ssh2Python.KnownHostLine

/-!
# The line of a known host

The recursion of `KnownHost.writeline` is measured by what the size of the buffer lacks. Doubling is
a step towards the room that the entry needs as long as the size is not zero, which
`doublingFits_small` says of the condition and `writeline_of_fits` of the recursion;
`writeline_eq_iff` is the equivalence. That `knownhost.c` writes lines in the way the wrapper relies
on is `knownhostWriteline_writesFrom`.
-/

namespace Ssh2Python

open Lib.CInt Lib.CString

/-! ## The native writer -/

theorem length_printed (mem : List UInt8) : (printed mem).length = strlen (mem ++ [0]) := by
  rw [printed, cstring, List.length_take]
  exact Nat.min_eq_left strlen_le_length

theorem length_printed_eq {mem : List UInt8} (h : 0 ∉ mem) : (printed mem).length = mem.length := by
  rw [length_printed]
  exact strlen_terminated h

/-- Entries whose strings hold no NUL, and that fit the address space. -/
structure KnownHostNode.Printable (node : KnownHostNode) : Prop where
  keyType : ∀ keyType, node.keyType = some keyType →
    0 ∉ keyType ∧ node.requiredSize keyType ≤ 2 ^ 63
  comment : ∀ comment, node.comment = some comment → 0 ∉ comment

theorem HostName.length_printed (name : HostName) : name.printed.length + 3 = name.room := by
  cases name with
  | plain name => rw [printed, room, Ssh2Python.length_printed]
  | sha1 name64 salt64 =>
    simp only [printed, room, asciiBytes, List.length_append, List.length_map]
    have hbar : ("|1|".toList).length = 3 ∧ ("|".toList).length = 1 := by decide
    omega

/-- The bytes of the strings that `%s` does not print, as they stand behind a NUL. -/
def KnownHostNode.hidden (node : KnownHostNode) (keyType : List UInt8) : Nat :=
  (keyType.length - (printed keyType).length) +
    (node.comment.map fun comment => comment.length - (printed comment).length).getD 0

/-- **The size that is required** is that of the line, its NUL and what is not printed. -/
theorem KnownHostNode.length_line_add (node : KnownHostNode) (keyType : List UInt8) :
    (node.line keyType ++ [0]).length + node.hidden keyType = node.requiredSize keyType := by
  have hname := node.name.length_printed
  have hsep : (asciiBytes " ").length = 1 ∧ (asciiBytes "\n").length = 1 := by decide
  have hle (mem : List UInt8) : (printed mem).length ≤ mem.length := by
    rw [Ssh2Python.length_printed]
    exact strlen_terminated_le
  have hkey := hle keyType
  have htype : (if keyType = [] then [] else printed keyType ++ asciiBytes " ").length +
      (keyType.length - (printed keyType).length) =
        if keyType = [] then 0 else keyType.length + 1 := by
    split
    · next hnil => simp [hnil]
    · rw [List.length_append, hsep.1]
      omega
  rw [requiredSize, line, hidden]
  simp only [List.length_append, hsep, List.length_cons, List.length_nil]
  rw [← Ssh2Python.length_printed node.key]
  cases hc : node.comment with
  | none =>
    simp only [List.length_nil, Option.map_none, Option.getD_none]
    omega
  | some comment =>
    have hcomment := hle comment
    simp only [List.length_append, hsep, Option.map_some, Option.getD_some]
    omega

/-- Strings without a NUL are printed as they are. -/
theorem KnownHostNode.length_line (node : KnownHostNode) {keyType : List UInt8}
    (hkey : 0 ∉ keyType) (hcomment : ∀ comment, node.comment = some comment → 0 ∉ comment) :
    (node.line keyType ++ [0]).length = node.requiredSize keyType := by
  have hhidden : node.hidden keyType = 0 := by
    rw [hidden, length_printed_eq hkey, Nat.sub_self, Nat.zero_add]
    cases hc : node.comment with
    | none => rfl
    | some comment => simp [length_printed_eq (hcomment comment hc)]
  rw [← node.length_line_add keyType, hhidden, Nat.add_zero]

/-- What the entry needs, and what comes of a buffer that is large enough. -/
def KnownHostNode.written (node : KnownHostNode) : Nat × NativeLine :=
  match node.keyType with
  | none => (0, { rc := ErrorCode.methodNotSupported.value })
  | some keyType =>
    if node.name.encodingFailed then (0, { rc := ErrorCode.alloc.value })
    else (node.requiredSize keyType,
      ⟨0, node.requiredSize keyType - 1, node.line keyType ++ [0]⟩)

/-- An entry with a line needs the required size. -/
theorem writesFrom_line {node : KnownHostNode} (h : node.Printable) {keyType : List UInt8}
    (hkt : node.keyType = some keyType) (hname : node.name.encodingFailed = false) :
    WritesFrom (knownhostWriteline node fileOpenSSH) (node.requiredSize keyType)
      ⟨0, node.requiredSize keyType - 1, node.line keyType ++ [0]⟩ := by
  obtain ⟨hnul, hle⟩ := h.keyType keyType hkt
  have hlen : (node.line keyType ++ [0]).length = node.requiredSize keyType :=
    node.length_line hnul h.comment
  have hrc : (0 : Int) ≠ ErrorCode.bufferTooSmall.value := by decide
  refine ⟨hle, fun n hn => ?_, fun n hn => ?_, hrc, ?_⟩
  · simp [knownhostWriteline, hkt, hname, Nat.not_le.mpr hn]
  · simp [knownhostWriteline, hkt, hname, hn]
  · simp only [hlen]
    omega

/-- An error that does not depend on the size needs nothing. -/
theorem writesFrom_error {native : Nat → NativeLine} {rc : Int}
    (hrc : rc ≠ ErrorCode.bufferTooSmall.value) (hr : ∀ n, native n = { rc := rc }) :
    WritesFrom native 0 { rc := rc } :=
  ⟨by omega, fun n hn => absurd hn (Nat.not_lt_zero n), fun n _ => hr n, hrc, Nat.le_refl 0⟩

/-- **`knownhost.c` writes lines as the wrapper expects.** -/
theorem knownhostWriteline_writesFrom {node : KnownHostNode} (h : node.Printable) :
    WritesFrom (knownhostWriteline node fileOpenSSH) node.written.1 node.written.2 := by
  unfold KnownHostNode.written
  cases hkt : node.keyType with
  | none =>
    refine writesFrom_error (by decide) fun n => ?_
    simp [knownhostWriteline, hkt]
  | some keyType =>
    cases hname : node.name.encodingFailed with
    | true =>
      refine writesFrom_error (by decide) fun n => ?_
      simp [knownhostWriteline, hkt, hname]
    | false => exact writesFrom_line h hkt hname

/-! ## The condition -/

/-- A size that suffices only has to be there. -/
theorem doublingFits_enough {need bufLen : Nat} {alloc : Nat → Bool} (h : need ≤ bufLen) :
    DoublingFits need alloc bufLen ↔ alloc bufLen = true := by
  constructor
  · intro hfits
    simpa using hfits.memory 0 fun i hi => absurd hi (Nat.not_lt_zero i)
  · intro halloc
    refine ⟨fun h0 => by omega, fun j hj => ?_⟩
    cases j with
    | zero => simpa using halloc
    | succ j =>
      have hlt := hj 0 (Nat.succ_pos j)
      rw [Nat.pow_zero, Nat.mul_one] at hlt
      omega

/-- A size that is too small has to be there, and its double has to fit. -/
theorem doublingFits_small {need bufLen : Nat} {alloc : Nat → Bool} (h : bufLen < need) :
    DoublingFits need alloc bufLen ↔
      alloc bufLen = true ∧ DoublingFits need alloc (bufLen * 2) := by
  have hpow : ∀ j, bufLen * 2 * 2 ^ j = bufLen * 2 ^ (j + 1) := by
    intro j
    rw [Nat.pow_succ, Nat.mul_assoc, Nat.mul_comm 2]
  constructor
  · intro hfits
    refine ⟨by simpa using hfits.memory 0 fun i hi => absurd hi (Nat.not_lt_zero i),
      fun h0 => hfits.start (by omega), fun j hj => ?_⟩
    rw [hpow]
    refine hfits.memory (j + 1) fun i hi => ?_
    cases i with
    | zero => simpa using h
    | succ i =>
      rw [← hpow]
      exact hj i (by omega)
  · rintro ⟨halloc, hfits⟩
    refine ⟨fun h0 => hfits.start (by omega), fun j hj => ?_⟩
    cases j with
    | zero => simpa using halloc
    | succ j =>
      rw [← hpow]
      refine hfits.memory j fun i hi => ?_
      rw [hpow]
      exact hj (i + 1) (by omega)

/-! ## The recursion -/

section Recursion

variable {native : Int → Nat → NativeLine} {alloc : Nat → Bool} {fresh : FreshMemory} {need : Nat}
  {result : NativeLine}

theorem writeline_refused (fuel : Nat) {bufLen : Nat} (halloc : alloc bufLen = false) :
    writeline native alloc fresh (fuel + 1) fileOpenSSH bufLen = some (.error memoryError) := by
  rw [writeline, if_pos halloc]

/-- Twice zero is zero. -/
theorem writeline_zero (halloc : alloc 0 = true)
    (hsmall : (native fileOpenSSH 0).rc = ErrorCode.bufferTooSmall.value) (fuel : Nat) :
    writeline native alloc fresh fuel fileOpenSSH 0 = none := by
  have hsize : toSize (((0 : Nat) : Int) * 2) = 0 := by decide
  induction fuel with
  | zero => rw [writeline]
  | succ fuel ih => rw [writeline, if_neg (by simp [halloc]), if_pos hsmall, hsize, ih]

variable (h : WritesFrom (native fileOpenSSH) need result)
include h

theorem writeline_small (fuel : Nat) {bufLen : Nat} (halloc : alloc bufLen = true)
    (hlt : bufLen < need) :
    writeline native alloc fresh (fuel + 1) fileOpenSSH bufLen =
      writeline native alloc fresh fuel fileOpenSSH (bufLen * 2) := by
  have hle := h.need_le
  have hsize : toSize ((bufLen : Int) * 2) = bufLen * 2 := by
    rw [toSize_eq (by omega) (by omega)]
    omega
  rw [writeline, if_neg (by simp [halloc]), if_pos (h.small bufLen hlt), hsize]

theorem writeline_enough (fuel : Nat) {bufLen : Nat} (halloc : alloc bufLen = true)
    (hle : need ≤ bufLen) :
    writeline native alloc fresh (fuel + 1) fileOpenSSH bufLen = some result.outcome := by
  rw [writeline, if_neg (by simp [halloc]), h.enough bufLen hle, if_neg h.notSmall,
    NativeLine.outcome]
  by_cases hrc : result.rc ≠ 0
  · rw [if_pos hrc, if_pos hrc]
  · rw [if_neg hrc, if_neg hrc]
    have htake : (fresh.after bufLen result.written).take result.outlen =
        result.written.take result.outlen := List.take_append_of_le_length h.written
    by_cases hlen : 0 < result.outlen
    · rw [if_pos hlen, htake]
    · obtain hzero : result.outlen = 0 := by omega
      rw [if_neg hlen, hzero, List.take_zero]

/-- **Termination**: doubling reaches every need from any size but zero, by induction on what the
size lacks. -/
theorem writeline_of_fits {bufLen : Nat} (hfits : DoublingFits need alloc bufLen) :
    ∃ fuel, writeline native alloc fresh fuel fileOpenSSH bufLen = some result.outcome := by
  induction hlack : need - bufLen using Nat.strongRecOn generalizing bufLen with
  | ind lack ih =>
    rcases Nat.lt_or_ge bufLen need with hlt | hle
    · have hpos : bufLen ≠ 0 := fun h0 => by have := hfits.start h0; omega
      obtain ⟨halloc, hfits'⟩ := (doublingFits_small hlt).mp hfits
      obtain ⟨fuel, hrun⟩ := ih (need - bufLen * 2) (by omega) hfits' rfl
      exact ⟨fuel + 1, by rw [writeline_small h fuel halloc hlt, hrun]⟩
    · exact ⟨1, writeline_enough h 0 ((doublingFits_enough hle).mp hfits) hle⟩

/-- Only then: a recursion that came back with the outcome never ran out of memory, and did not
start from zero. -/
theorem fits_of_writeline {fuel bufLen : Nat}
    (hrun : writeline native alloc fresh fuel fileOpenSSH bufLen = some result.outcome) :
    DoublingFits need alloc bufLen := by
  induction fuel generalizing bufLen with
  | zero => cases hrun
  | succ fuel ih =>
    have halloc : alloc bufLen = true := by
      by_contra hno
      rw [writeline_refused fuel (by simpa using hno), NativeLine.outcome] at hrun
      split at hrun
      · simp [memoryError, writelineError] at hrun
      · cases hrun
    rcases Nat.lt_or_ge bufLen need with hlt | hle
    · rw [writeline_small h fuel halloc hlt] at hrun
      exact (doublingFits_small hlt).mpr ⟨halloc, ih hrun⟩
    · exact (doublingFits_enough hle).mpr halloc

/-- **When the line comes back**: for every entry and every initial size, the recursion ends with
the outcome of a buffer that is large enough exactly when the size is not zero, unless nothing is
needed, and there is memory for the sizes it tries. -/
theorem writeline_eq_iff (bufLen : Nat) :
    (∃ fuel, writeline native alloc fresh fuel fileOpenSSH bufLen = some result.outcome) ↔
      DoublingFits need alloc bufLen :=
  ⟨fun ⟨_, hrun⟩ => fits_of_writeline h hrun, writeline_of_fits h⟩

end Recursion

def exampleHost : KnownHostNode where
  name := .plain (asciiBytes "h")
  keyMask := 2
  key := asciiBytes "AAAA"

theorem exampleHost_printable : exampleHost.Printable where
  keyType keyType h := by
    obtain rfl : asciiBytes "ssh-rsa" = keyType := Option.some.inj h
    decide
  comment comment h := by cases h

def zeroMemory : FreshMemory := ⟨fun n => List.replicate n 0, fun _ => List.length_replicate⟩

/-- From two bytes to the sixteen that are needed. -/
theorem writeline_exampleHost :
    ∃ fuel, writeline (knownhostWriteline exampleHost) (fun _ => true) zeroMemory fuel
      fileOpenSSH 2 = some (.ok (asciiBytes "h ssh-rsa AAAA\n")) :=
  (writeline_eq_iff (knownhostWriteline_writesFrom exampleHost_printable) 2).mpr
    ⟨fun h => absurd h (by decide), fun _ _ => rfl⟩

/-- From zero bytes on the recursion never comes back, with a line or an exception. -/
theorem writeline_exampleHost_zero :
    ¬∃ fuel r, writeline (knownhostWriteline exampleHost) (fun _ => true) zeroMemory fuel
      fileOpenSSH 0 = some r := by
  rintro ⟨fuel, r, hrun⟩
  rw [writeline_zero rfl (by decide)] at hrun
  cases hrun

end Ssh2Python
