import Ssh2Python.FreshBuffers
import Ssh2Python.Verify.KnownHostLine

/-!
# What fresh buffers give away

A count is exact about the bytes it counts, so a buffer that is cut by its count gives back what was
written to it (`DataFill.bytes_fill`). A buffer that is cut at a NUL does so only if that NUL was
written. The recursion of `writeline` hands on the line of its last call (`writeline_eq_lastLine`),
and there the length and the line come apart when a string of the entry holds a NUL.
-/

namespace Ssh2Python

open Lib.CInt Lib.CString

variable {heap heap' : Leftovers} {size longSize n : Nat}

theorem FreshMemory.take_after (fresh : FreshMemory) {written : List UInt8}
    (h : n ≤ written.length) : (fresh.after size written).take n = written.take n :=
  List.take_append_of_le_length h

theorem FreshMemory.length_after (fresh : FreshMemory) {written : List UInt8}
    (h : written.length ≤ size) : (fresh.after size written).length = size := by
  rw [after, List.length_append, List.length_drop, fresh.length_bytes]
  omega

/-! ## Counted buffers -/

theorem DataFill.toNat_le (f : DataFill size) : f.rc.toNat ≤ f.written.length := by
  have h := f.counted
  omega

/-- What is taken by its count was written. -/
theorem DataFill.take_fill (f : DataFill size) (heap : Leftovers) :
    (f.fill heap).buf.take f.rc.toNat = f.written.take f.rc.toNat :=
  heap.data.take_after f.toNat_le

theorem DataFill.bytes_fill (f : DataFill size) (heap : Leftovers) :
    (f.fill heap).bytes = if 0 < f.rc then f.written.take f.rc.toNat else [] := by
  rw [← f.take_fill heap]
  rfl

/-- A copy that was written, of bytes in the buffer. -/
structure Copy.Clean (c : Copy) : Prop where
  written : c.bytes <+: c.written
  inside : c.examined ≤ c.size

theorem copyPrefix_clean {written mem : List UInt8} (htake : mem.take n = written.take n)
    (hn : n ≤ written.length) (hfits : written.length ≤ size) :
    (copyPrefix size written mem n).Clean := by
  refine ⟨?_, hn.trans hfits⟩
  rw [copyPrefix, htake]
  exact List.take_prefix n written

theorem DataFill.copy_clean (f : DataFill size) (heap : Leftovers) :
    (copyPrefix size f.written (f.fill heap).buf f.rc.toNat).Clean :=
  copyPrefix_clean (f.take_fill heap) f.toNat_le f.fits

theorem DataFill.copies_clean (f : DataFill size) (heap : Leftovers) :
    ∀ c ∈ (if 0 < f.rc then [copyPrefix size f.written (f.fill heap).buf f.rc.toNat] else []),
      c.Clean := by
  intro c hc
  obtain ⟨-, hc⟩ := List.mem_ite_nil_right.mp hc
  obtain rfl := List.mem_singleton.mp hc
  exact f.copy_clean heap

/-! ## The long entry -/

/-- A NUL that was written ends the string. -/
theorem copyString_clean {written mem : List UInt8} (h : 0 ∈ written)
    (hfits : written.length ≤ size) : (copyString size written (written ++ mem)).Clean := by
  have hlt := strlen_lt_of_mem h
  constructor
  · rw [copyString, cstring_append_of_mem h]
    exact List.take_prefix _ written
  · show strlen (written ++ mem) + 1 ≤ size
    rw [strlen_append_of_mem h]
    omega

section

variable (f : EntryFill size longSize)

theorem EntryFill.longentry_eq (heap : Leftovers) : ∃ mem,
    (f.entry heap).longentry = f.longWritten ++ mem :=
  ⟨_, List.append_assoc ..⟩

theorem EntryFill.cstring_longentry (h : 0 ∈ f.longWritten) (heap : Leftovers) :
    cstring (f.entry heap).longentry = cstring f.longWritten := by
  obtain ⟨mem, hmem⟩ := f.longentry_eq heap
  rw [hmem, cstring_append_of_mem h]

theorem EntryFill.copyString_clean (h : 0 ∈ f.longWritten) (heap : Leftovers) :
    (copyString longSize f.longWritten (f.entry heap).longentry).Clean := by
  obtain ⟨mem, hmem⟩ := f.longentry_eq heap
  rw [hmem]
  exact Ssh2Python.copyString_clean h f.longFits

end

/-! ## Lines -/

/-- The Python result of the last call. -/
def lineResult (fresh : FreshMemory) (r : NativeLine × Nat) : Except PyExc (List UInt8) :=
  if r.1.rc ≠ 0 then .error (writelineError r.1.rc)
  else .ok ((fresh.after r.2 r.1.written).take r.1.outlen)

/-- **The recursion hands on the result of its last call.** -/
theorem writeline_eq_lastLine (native : Int → Nat → NativeLine) (alloc : Nat → Bool)
    (fresh : FreshMemory) (fuel : Nat) (fType : Int) (bufLen : Nat) :
    writeline native alloc fresh fuel fType bufLen =
      (lastLine native alloc fuel fType bufLen).map fun r => r.bind (lineResult fresh) := by
  induction fuel generalizing fType bufLen with
  | zero => rfl
  | succ fuel ih =>
    rw [writeline, lastLine]
    by_cases halloc : alloc bufLen = false
    · rw [if_pos halloc, if_pos halloc]
      rfl
    · rw [if_neg halloc, if_neg halloc]
      by_cases hsmall : (native fType bufLen).rc = ErrorCode.bufferTooSmall.value
      · rw [if_pos hsmall, if_pos hsmall, ih]
      · rw [if_neg hsmall, if_neg hsmall, Option.map_some]
        unfold Except.bind lineResult
        by_cases hrc : (native fType bufLen).rc ≠ 0
        · simp only [if_pos hrc]
        · simp only [if_neg hrc]
          by_cases hlen : 0 < (native fType bufLen).outlen
          · rw [if_pos hlen]
          · have hzero : (native fType bufLen).outlen = 0 := by omega
            rw [if_neg hlen, hzero, List.take_zero]

theorem lastLine_native {native : Int → Nat → NativeLine} {alloc : Nat → Bool} {fuel : Nat}
    {fType : Int} {bufLen : Nat} {r : NativeLine}
    (h : lastLine native alloc fuel fType bufLen = some (.ok (r, n))) :
    ∃ type, r = native type n := by
  induction fuel generalizing fType bufLen with
  | zero => cases h
  | succ fuel ih =>
    rw [lastLine] at h
    split at h
    · cases h
    · split at h
      · exact ih h
      · obtain ⟨rfl, rfl⟩ := Prod.mk.inj (Except.ok.inj (Option.some.inj h))
        exact ⟨fType, rfl⟩

namespace FillOp

variable {op : FillOp}

/-! ## Results -/

/-- **The results do not tell what the heap held**, where the operation fits. -/
theorem result_same (h : op.Fits) (heap heap' : Leftovers) : op.result heap = op.result heap' := by
  cases op with
  | readEx size streamId native =>
    cases native with
    | none => rfl
    | some f => simp only [result, channelReadEx, Option.map_some, f.bytes_fill]; rfl
  | read maxlen native =>
    cases native with
    | none => rfl
    | some f => simp only [result, sftpHandleRead, Option.map_some, f.bytes_fill]; rfl
  | readdir maxlen native =>
    cases native with
    | none => rfl
    | some f =>
      have hbytes (heap : Leftovers) : (f.entry heap).bytes = _ := f.bytes_fill heap
      simp only [result, readdirOnce, Option.map_some, hbytes]
      rfl
  | readdirEx longentryMaxlen maxlen native =>
    cases native with
    | none => rfl
    | some f =>
      have hbytes (heap : Leftovers) : (f.entry heap).bytes = _ := f.bytes_fill heap
      simp only [result, readdirExOnce, Option.map_some, hbytes]
      by_cases hrc : 0 < f.rc
      · have hmem : 0 ∈ f.longWritten := f.terminated hrc (h hrc)
        have hstring := (f.cstring_longentry hmem heap).trans (f.cstring_longentry hmem heap').symm
        have hentry (heap : Leftovers) : (f.entry heap).rc = f.rc := rfl
        simp only [hentry, if_pos hrc]
        exact congrArg (fun s => some (Except.ok (PyData.longEntry f.rc _ s f.attrs))) hstring
      · have hentry (heap : Leftovers) : (f.entry heap).rc = f.rc := rfl
        simp only [hentry, if_neg hrc]
        rfl
  | realpath path maxLen native =>
    cases native with
    | none => rfl
    | some f =>
      simp only [result, sftpRealpath, Option.map_some]
      have htext (heap : Leftovers) : toStrLen (f.fill heap).buf (f.fill heap).rc.toNat =
          decode (f.written.take f.rc.toNat) := congrArg decode (f.take_fill heap)
      simp only [htext]
      rfl
  | writeline writer alloc fuel fType bufLen =>
    simp only [result, writeline_eq_lastLine]
    cases hlast : lastLine writer.native alloc fuel fType bufLen with
    | none => rfl
    | some r =>
      cases r with
      | error e => rfl
      | ok r =>
        refine congrArg (fun r : Except PyExc (List UInt8) => some (r.map PyData.line)) ?_
        unfold Except.bind lineResult
        by_cases hrc : r.1.rc = 0
        · have hlen := h r.1 r.2 hlast hrc
          simp only [heap.data.take_after hlen, heap'.data.take_after hlen]
        · simp only [ne_eq, hrc, not_false_eq_true, if_true]

/-! ## Copies -/

theorem copies_clean (h : op.Fits) (heap : Leftovers) : ∀ c ∈ op.copies heap, c.Clean := by
  intro c hc
  cases op with
  | readEx size streamId native =>
    cases native with
    | none => cases hc
    | some f => exact f.copies_clean heap c hc
  | read maxlen native =>
    cases native with
    | none => cases hc
    | some f => exact f.copies_clean heap c hc
  | readdir maxlen native =>
    cases native with
    | none => cases hc
    | some f => exact f.toDataFill.copies_clean heap c hc
  | readdirEx longentryMaxlen maxlen native =>
    cases native with
    | none => cases hc
    | some f =>
      obtain ⟨hrc, hc⟩ := List.mem_ite_nil_right.mp hc
      rcases List.mem_cons.mp hc with rfl | hc
      · exact f.copy_clean heap
      · obtain rfl := List.mem_singleton.mp hc
        exact f.copyString_clean (f.terminated hrc (h hrc)) heap
  | realpath path maxLen native =>
    cases native with
    | none => cases hc
    | some f =>
      obtain ⟨-, hc⟩ := List.mem_ite_nil_right.mp hc
      obtain rfl := List.mem_singleton.mp hc
      exact f.copy_clean heap
  | writeline writer alloc fuel fType bufLen =>
    rw [copies] at hc
    split at hc
    · next r size hlast =>
      obtain ⟨hrc, hc⟩ := List.mem_ite_nil_right.mp hc
      obtain rfl := List.mem_singleton.mp hc
      have hlen := h r size hlast hrc
      obtain ⟨type, rfl⟩ := lastLine_native hlast
      exact copyPrefix_clean (heap.data.take_after hlen) hlen (writer.fits type size)
    · cases hc

/-- A heap that is full of ones. -/
def ones : FreshMemory := ⟨fun n => List.replicate n 1, fun _ => List.length_replicate⟩

/-- Without room for the long entry the search for a NUL leaves the buffer. -/
theorem readdirEx_not_clean {longentryMaxlen maxlen : Nat} {f : EntryFill maxlen longentryMaxlen}
    (hrc : 0 < f.rc) (hroom : longentryMaxlen ≤ 1) :
    ¬(readdirEx longentryMaxlen maxlen (some f)).Clean := by
  intro h
  have hinside := h.inside ⟨ones, ones, []⟩
    (copyString longentryMaxlen f.longWritten (f.entry ⟨ones, ones, []⟩).longentry)
    (by rw [copies, if_pos hrc]; simp)
  have hentry : (f.entry ⟨ones, ones, []⟩).longentry = List.replicate longentryMaxlen 1 ++ [] := by
    show f.longWritten ++ _ ++ _ = _
    rw [f.skipped hroom]
    rfl
  have hones : (0 : UInt8) ∉ List.replicate longentryMaxlen (1 : UInt8) := by simp
  rw [copyString, hentry, strlen_append hones, List.length_replicate] at hinside
  have hle : longentryMaxlen + strlen [] + 1 ≤ longentryMaxlen := hinside
  omega

/-- A line that is shorter than the writer says is filled up. -/
theorem writeline_not_clean {writer : LineWriter} {alloc : Nat → Bool} {fuel bufLen : Nat}
    {fType : Int} {r : NativeLine}
    (hlast : lastLine writer.native alloc fuel fType bufLen = some (.ok (r, size))) (hrc : r.rc = 0)
    (hlen : r.written.length < r.outlen) :
    ¬(writeline writer alloc fuel fType bufLen).Clean := by
  intro h
  have hcopy : copyPrefix size r.written (ones.after size r.written) r.outlen ∈
      (writeline writer alloc fuel fType bufLen).copies ⟨ones, ones, []⟩ := by
    rw [copies, hlast]
    simp [hrc]
  have hpre := (h.written ⟨ones, ones, []⟩ _ hcopy).length_le
  obtain ⟨type, rfl⟩ := lastLine_native hlast
  have hbounded := writer.bounded type size hrc
  rw [copyPrefix, List.length_take, ones.length_after (writer.fits type size)] at hpre
  have hle : min (writer.native type size).outlen size ≤ (writer.native type size).written.length :=
    hpre
  omega

end FillOp

/-- **What fresh buffers give away**: nothing, unless a long entry is copied for which there was no
room, or a line that is shorter than its length. -/
theorem clean_iff (op : FillOp) : op.Clean ↔ op.Fits := by
  constructor
  · intro h
    cases op with
    | readdirEx longentryMaxlen maxlen native =>
      cases native with
      | none => trivial
      | some f =>
        intro hrc
        by_contra hroom
        exact FillOp.readdirEx_not_clean hrc (Nat.le_of_not_lt hroom) h
    | writeline writer alloc fuel fType bufLen =>
      intro r size hlast hrc
      by_contra hlen
      exact FillOp.writeline_not_clean hlast hrc (Nat.lt_of_not_le hlen) h
    | _ => trivial
  · intro h
    exact ⟨fun heap heap' _ => FillOp.result_same h heap heap',
      fun heap c hc => (FillOp.copies_clean h heap c hc).written,
      fun heap c hc => (FillOp.copies_clean h heap c hc).inside⟩

/-! ## The writer of `knownhost.c` -/

theorem knownhostWriteline_ok {node : KnownHostNode} {fType : Int}
    (h : (knownhostWriteline node fType size).rc = 0) :
    ∃ keyType, node.keyType = some keyType ∧ node.requiredSize keyType ≤ size ∧
      knownhostWriteline node fType size =
        ⟨0, node.requiredSize keyType - 1, node.line keyType ++ [0]⟩ := by
  unfold knownhostWriteline at h ⊢
  by_cases htype : fType ≠ fileOpenSSH
  · rw [if_pos htype] at h
    exact absurd h (by decide)
  · rw [if_neg htype] at h ⊢
    cases hkey : node.keyType with
    | none =>
      rw [hkey] at h
      dsimp only at h
      exact absurd h (by decide)
    | some keyType =>
      rw [hkey] at h
      dsimp only at h ⊢
      by_cases hname : node.name.encodingFailed = true
      · rw [if_pos hname] at h
        exact absurd h (by decide)
      · rw [if_neg hname] at h ⊢
        by_cases hsize : node.requiredSize keyType ≤ size
        · exact ⟨keyType, rfl, hsize, if_pos hsize⟩
        · rw [if_neg hsize] at h
          dsimp only at h
          exact absurd h (by decide)

/-- The writer of lines for an entry. -/
def KnownHostNode.writer (node : KnownHostNode) : LineWriter where
  native := knownhostWriteline node
  fits type size := by
    unfold knownhostWriteline
    split
    · exact Nat.zero_le _
    · split
      · exact Nat.zero_le _
      · next keyType _ =>
        have hline := node.length_line_add keyType
        split
        · exact Nat.zero_le _
        · split
          · next hsize =>
            dsimp only
            omega
          · exact Nat.zero_le _
  bounded type size h := by
    obtain ⟨keyType, -, hsize, hr⟩ := knownhostWriteline_ok h
    rw [hr]
    dsimp only
    omega

/-- **A line of an entry** is as long as its length says when at most one byte stands behind a NUL
in its key type and its comment. -/
theorem knownhostWriteline_counted_iff {node : KnownHostNode} {fType : Int} {keyType : List UInt8}
    (hkey : node.keyType = some keyType) (h : (knownhostWriteline node fType size).rc = 0) :
    (knownhostWriteline node fType size).outlen ≤
        (knownhostWriteline node fType size).written.length ↔ node.hidden keyType ≤ 1 := by
  obtain ⟨keyType', hkey', -, hr⟩ := knownhostWriteline_ok h
  obtain rfl := Option.some.inj (hkey.symm.trans hkey')
  have hline := node.length_line_add keyType
  have hpos : 0 < (node.line keyType ++ [0]).length := by simp
  rw [hr]
  dsimp only
  omega

/-- A host with a comment of four bytes, the first of them a NUL. -/
def commentedHost : KnownHostNode where
  name := .plain (asciiBytes "h")
  keyMask := 2
  key := asciiBytes "AAAA"
  comment := some [0, 97, 97, 97]

/-- The entry `a` of a directory, read with one byte for the long entry. -/
def shortEntry : EntryFill 2 1 where
  rc := 1
  written := [97, 0]
  longWritten := []
  attrs := ⟨0, 0, 0, 0, 0, 0, 0⟩
  fits := by decide
  counted := by decide
  longFits := by decide
  skipped _ := rfl
  terminated _ h := absurd h (by decide)

/-- The byte that stood in the buffer for the long entry is returned, and of a comment that is not
printed the bytes behind the line. -/
theorem freshBuffers_not_clean :
    (FillOp.readdirEx 1 2 (some shortEntry)).result ⟨zeroMemory, zeroMemory, [0]⟩ =
        some (.ok (.longEntry 1 [97] [] shortEntry.attrs)) ∧
      (FillOp.readdirEx 1 2 (some shortEntry)).result ⟨zeroMemory, FillOp.ones, [0]⟩ =
        some (.ok (.longEntry 1 [97] [1] shortEntry.attrs)) ∧
      ¬(FillOp.readdirEx 1 2 (some shortEntry)).Clean ∧
      ¬(FillOp.writeline commentedHost.writer (fun _ => true) 1 fileOpenSSH 32).Clean := by
  refine ⟨rfl, rfl, FillOp.readdirEx_not_clean (by decide) (by decide), ?_⟩
  have hlast : lastLine commentedHost.writer.native (fun _ => true) 1 fileOpenSSH 32 =
      some (.ok (knownhostWriteline commentedHost fileOpenSSH 32, 32)) := rfl
  exact FillOp.writeline_not_clean hlast (by decide) (by decide)

end Ssh2Python
