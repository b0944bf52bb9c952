import Ssh2Python.IntArguments
import Ssh2Python.Verify.Arguments

/-!
# Which integers reach `libssh2` as they are

A method passes what its crossings make of the integers (`IntMethod.call_ok_iff`), so it is exact
when every accepted integer is in the native type too. A crossing to a type that is at least as
large keeps all of its integers; the other three crossings are the conditions of `IntOp.Fits`.
-/

namespace Ssh2Python

open Lib.CInt

theorem pyLongAs_ok_iff {t : IntType} {x y : Int} :
    pyLongAs t x = .ok y ↔ t.Contains x ∧ y = x := by
  unfold pyLongAs
  split
  · next h => simp [h, eq_comm]
  · next h => simp [h]

theorem passInts_ok_iff {ps : List IntParam} {xs : List Int} :
    passInts ps = .ok xs ↔
      (∀ p ∈ ps, p.accepts.Contains p.value) ∧ xs = ps.map fun p => p.native.convert p.value := by
  induction ps generalizing xs with
  | nil => simp [passInts, eq_comm]
  | cons p ps ih =>
    rw [List.forall_mem_cons, List.map_cons]
    constructor
    · intro h
      obtain ⟨x, hx, h⟩ := bind_ok h
      obtain ⟨ys, hys, h⟩ := bind_ok h
      obtain ⟨hp, rfl⟩ := pyLongAs_ok_iff.mp hx
      obtain ⟨hps, rfl⟩ := ih.mp hys
      exact ⟨⟨hp, hps⟩, (Except.ok.inj h).symm⟩
    · rintro ⟨⟨hp, hps⟩, rfl⟩
      have hhead := pyLongAs_ok_iff.mpr ⟨hp, rfl⟩
      have htail := ih.mpr ⟨hps, rfl⟩
      rw [passInts, hhead]
      simp only [htail]
      rfl

namespace IntMethod

variable {m : IntMethod}

/-- **A call**: it is made when nothing raises, with the integers as the native types have them. -/
theorem call_ok_iff {fn : IntFn} {xs : List Int} :
    m.call = .ok (fn, xs) ↔ m.before = .ok () ∧ m.Accepts ∧ m.behind = .ok () ∧ fn = m.fn ∧
      xs = m.params.map fun p => p.native.convert p.value := by
  unfold call
  constructor
  · intro h
    obtain ⟨u, hbefore, h⟩ := bind_ok h
    obtain ⟨ys, hys, h⟩ := bind_ok h
    obtain ⟨v, hbehind, h⟩ := bind_ok h
    obtain ⟨haccepts, rfl⟩ := passInts_ok_iff.mp hys
    obtain ⟨rfl, rfl⟩ := Prod.mk.inj (Except.ok.inj h)
    exact ⟨hbefore, haccepts, hbehind, rfl, rfl⟩
  · rintro ⟨hbefore, haccepts, hbehind, rfl, rfl⟩
    have hints := passInts_ok_iff.mpr ⟨haccepts, rfl⟩
    rw [hbefore, hints, hbehind]
    rfl

/-- **Exactness of a method**: every accepted integer is in the native type, or there is no call. -/
theorem forwardsExactly_iff :
    m.ForwardsExactly ↔ (m.before = .ok () → m.Accepts → m.behind = .ok () →
      ∀ p ∈ m.params, p.native.Contains p.value) := by
  have hmap : (m.params.map fun p => p.native.convert p.value) = m.params.map (·.value) ↔
      ∀ p ∈ m.params, p.native.Contains p.value := by
    rw [List.map_inj_left]
    exact forall₂_congr fun p _ => IntType.convert_eq_iff
  constructor
  · intro h hbefore haccepts hbehind
    have hcall := call_ok_iff.mpr ⟨hbefore, haccepts, hbehind, rfl, rfl⟩
    exact hmap.mp (h.exact _ _ hcall)
  · intro h
    refine ⟨fun hrejected => ?_, fun haccepts hbefore hbehind => ?_, fun fn xs hcall => ?_⟩
    · cases hcall : m.call with
      | error e => exact ⟨e, rfl⟩
      | ok r => exact absurd (call_ok_iff.mp hcall).2.1 hrejected
    · exact ⟨_, call_ok_iff.mpr ⟨hbefore, haccepts, hbehind, rfl, rfl⟩⟩
    · obtain ⟨hbefore, haccepts, hbehind, rfl, rfl⟩ := call_ok_iff.mp hcall
      exact hmap.mpr (h hbefore haccepts hbehind)

end IntMethod

/-! ## The operations -/

namespace IntOp

variable {alloc : Nat → Bool} {text : PyObj} {op : IntOp}

/-- With memory and a text that can be converted, nothing else raises. -/
theorem ready (op : IntOp) : (op.method (fun _ => true) (.bytes ⟨[], by decide⟩)).before = .ok () ∧
    (op.method (fun _ => true) (.bytes ⟨[], by decide⟩)).behind = .ok () := by
  cases op <;> exact ⟨rfl, rfl⟩

theorem crossings_iff : ((op.method alloc text).Accepts →
    ∀ p ∈ (op.method alloc text).params, p.native.Contains p.value) ↔ op.Fits := by
  unfold IntMethod.Accepts
  cases op with
  | receiveWindowAdjust2 adjustment force =>
    simp only [method, IntMethod.receiveWindowAdjust2, List.forall_mem_cons, Fits]
    constructor
    · exact fun h hadjustment hforce => (h ⟨hadjustment, hforce, by simp⟩).2.1.2
    · rintro h ⟨hadjustment, hforce, -⟩
      have hbyte := hforce.contains_iff_lt (t := .uchar) (by decide)
      exact ⟨hadjustment, hbyte.mpr (h hadjustment hforce), by simp⟩
  | scpSend64 mode size mtime atime =>
    simp only [method, IntMethod.scpSend64, List.forall_mem_cons, Fits]
    constructor
    · exact fun h hmode hsize hmtime hatime =>
        (h ⟨hmode, hsize, hmtime, hatime, by simp⟩).2.1.2
    · rintro h ⟨hmode, hsize, hmtime, hatime, -⟩
      have hsigned := hsize.contains_iff_lt (t := .long) (by decide)
      exact ⟨hmode, hsigned.mpr (h hmode hsize hmtime hatime), hmtime, hatime, by simp⟩
  | realpath maxLen =>
    simp only [method, IntMethod.realpath, List.forall_mem_cons, Fits]
    constructor
    · exact fun h hmaxLen => (h ⟨hmaxLen, by simp⟩).1.2
    · rintro h ⟨hmaxLen, -⟩
      have hnarrow := hmaxLen.contains_iff_lt (t := .uint) (by decide)
      exact ⟨hnarrow.mpr (h hmaxLen), by simp⟩
  -- the types are the same on both sides
  | openEx filenameLen flags mode openType =>
    exact iff_of_true (by simp [method, IntMethod.openEx]) trivial
  | sftpOpen flags mode => exact iff_of_true (by simp [method, IntMethod.sftpOpen]) trivial
  | writeline fType bufLen => exact iff_of_true (by simp [method, IntMethod.writeline]) trivial
  | seek64 offset => exact iff_of_true (by simp [method, IntMethod.seek64]) trivial

end IntOp

/-- **Which integers reach `libssh2` as they are**, whatever is passed with them. -/
theorem forwardsExactly_iff_fits (op : IntOp) :
    (∀ alloc text, (op.method alloc text).ForwardsExactly) ↔ op.Fits := by
  constructor
  · intro h
    have hready := op.ready
    have hcrossings := IntMethod.forwardsExactly_iff.mp (h (fun _ => true) (.bytes ⟨[], by decide⟩))
    exact IntOp.crossings_iff.mp fun haccepts => hcrossings hready.1 haccepts hready.2
  · intro h alloc text
    exact IntMethod.forwardsExactly_iff.mpr fun _ haccepts _ => IntOp.crossings_iff.mpr h haccepts

/-- `receive_window_adjust2(10, 256)` asks for an adjustment that is not forced. -/
theorem receiveWindowAdjust2_not_exact :
    (IntMethod.receiveWindowAdjust2 10 256).call = .ok (.channelReceiveWindowAdjust2, [10, 0]) ∧
      ¬(IntMethod.receiveWindowAdjust2 10 256).ForwardsExactly := by
  have hcall : (IntMethod.receiveWindowAdjust2 10 256).call =
      .ok (.channelReceiveWindowAdjust2, [10, 0]) := by decide
  exact ⟨hcall, fun h => absurd (h.exact _ _ hcall) (by decide)⟩

/-- The recursive call of `writeline` leaves out the type of the file: it is made only when that is
the default. -/
theorem knownhostWriteline_tooSmall {node : KnownHostNode} {fType : Int} {bufLen : Nat}
    (h : (knownhostWriteline node fType bufLen).rc = ErrorCode.bufferTooSmall.value) :
    fType = fileOpenSSH := by
  by_contra hne
  rw [knownhostWriteline, if_pos hne] at h
  exact absurd h (by decide)

end Ssh2Python
