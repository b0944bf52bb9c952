import Ssh2Python.Lib.Run
import Ssh2Python.SftpHandle

/-!
# When `tell64` tells the offset

`tell64` hands the offset to `handle_error_codes`, whose parameter is an `int`. The conversion keeps
the offsets up to 2 GiB and no others (`tell64_exact_iff`), so a run of the handle tells its offsets
as long as they stay below that.
-/

namespace Ssh2Python

open Lib.Run Lib.CInt

/-- What comes back for an offset: its conversion to `int`, when that is not an error code. -/
theorem tell64_ok_iff {offset : Nat} {v : Int} :
    (sftpHandleTell64 offset).result = .ok v ↔
      v = toInt32 offset ∧ (0 ≤ toInt32 offset ∨ toInt32 offset = eagain) := by
  rw [sftpHandleTell64, handleErrorCodes_ok_iff]

theorem tell64_exact_iff (offset : Nat) :
    (sftpHandleTell64 offset).result = .ok offset ↔ offset < 2 ^ 31 := by
  rw [tell64_ok_iff]
  constructor
  · rintro ⟨h, -⟩
    have hfits := toInt32_eq_iff.mp h.symm
    omega
  · intro h
    have hfits : toInt32 offset = offset := toInt32_eq_iff.mpr ⟨by omega, by omega⟩
    exact ⟨hfits.symm, .inl (by omega)⟩

theorem Told.exact_iff (offset : UInt64) :
    Told.Exact ⟨offset, (sftpHandleTell64 offset.toNat).result⟩ ↔ offset.toNat < 2 ^ 31 := by
  rw [Told.Exact, tell64_exact_iff]

theorem offsetStep_exact_iff {s s' : UInt64} {op : OffsetOp} {es : List Told}
    (h : offsetStep s op = some (s', es)) : (∀ e ∈ es, e.Exact) ↔ op.Fits s := by
  cases op with
  | tell64 =>
    obtain ⟨rfl, rfl⟩ := Prod.mk.inj (Option.some.inj h)
    rw [List.forall_mem_singleton, Told.exact_iff, OffsetOp.Fits]
    exact ⟨fun hs _ => hs, fun hs => hs rfl⟩
  | _ =>
    obtain ⟨rfl, rfl⟩ := Prod.mk.inj (Option.some.inj h)
    exact iff_of_true (fun _ he => absurd he List.not_mem_nil) OffsetOp.noConfusion

/-- **When a handle tells its offset**: the results of `tell64` in a run are the offsets exactly
when none of them was called at an offset from 2 GiB on. -/
theorem tell64_run_exact_iff (ops : List OffsetOp) (start s : UInt64) (es : List Told)
    (hrun : Runs offsetStep (fun _ _ => True) start ops es s) :
    (∀ e ∈ es, e.Exact) ↔ Runs offsetStep (fun s op => op.Fits s) start ops es s :=
  Runs.guarded_iff (fun _ _ _ _ h => offsetStep_exact_iff h) hrun

/-- A file read from its beginning. -/
theorem tell64_run_exact_example :
    (∀ e ∈ [(⟨3, (sftpHandleTell64 3).result⟩ : Told)], e.Exact) ↔
      Runs offsetStep (fun s op => op.Fits s) 7 [.rewind, .read 8 (some ⟨3, [1, 2, 3]⟩) 3, .tell64]
        [⟨3, (sftpHandleTell64 3).result⟩] 3 :=
  tell64_run_exact_iff [.rewind, .read 8 (some ⟨3, [1, 2, 3]⟩) 3, .tell64] 7 3 _ (runs_of_exec rfl)

/-- `seek64(2 ** 31)` and then `tell64()`. 37 bytes below 4 GiB the answer is `EAGAIN`. -/
theorem tell64_not_exact :
    (∃ es s, Runs offsetStep (fun _ _ => True) 0 [.seek64 0x80000000, .tell64] es s ∧
      ¬∀ e ∈ es, e.Exact) ∧
    (sftpHandleTell64 (2 ^ 32 - 37)).result = .ok eagain := by
  have heagain : toInt32 ((2 ^ 32 - 37 : Nat) : Int) = eagain := by decide
  refine ⟨⟨[⟨0x80000000, (sftpHandleTell64 _).result⟩], _, runs_of_exec rfl, fun h => ?_⟩,
    tell64_ok_iff.mpr ⟨heagain.symm, .inr heagain⟩⟩
  exact absurd ((Told.exact_iff 0x80000000).mp (h _ List.mem_cons_self)) (by decide)

end Ssh2Python
