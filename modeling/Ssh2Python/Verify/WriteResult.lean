import Ssh2Python.Verify.Write

/-!
# What the write functions return

The loop reads `rc` only after it has set it, unless it makes no call at all: then `rc` is still
what the stack held, and the three channel methods return it. `writesDetermined_iff` says for which
arguments the documented law is met: for all but the empty buffer, which `SFTPHandle.write` meets as
well because it starts from `rc = 0`.
-/

namespace Ssh2Python

open Lib.CInt

/-! ## The loop -/

/-- As soon as there is something to write, the initial value of `rc` is never read. -/
theorem writeLoop_congr (fn : NativeWrite) (tot : Nat) (results : List Int) (ptr : Nat) {rem : Nat}
    (hrem : rem ≠ 0) (u v : Int) :
    writeLoop fn tot results ptr rem u = writeLoop fn tot results ptr rem v := by
  cases results with
  | nil => simp only [writeLoop_blocked fn tot ptr _ hrem]
  | cons r rs => simp only [writeLoop, if_neg hrem]

/-! ## The four functions -/

theorem channelWriteWith_error {fn : NativeWrite} {x : PyObj} {u : Int} {rs : List Int} {e : PyExc}
    (h : bytesArg x = .error e) : channelWriteWith fn x u rs = ⟨[], .raised e⟩ := by
  cases x with
  | none =>
    cases h
    rfl
  | bytes b => cases h
  | other =>
    cases h
    rfl
  | text s =>
    simp only [bytesArg, channelWriteWith, toBytes] at h ⊢
    cases hs : s.encode with
    | error e' =>
      simp only [hs, Except.map] at h ⊢
      cases h
      rfl
    | ok b => simp [hs, Except.map] at h

theorem channelWriteWith_ok {fn : NativeWrite} {x : PyObj} {u : Int} {rs : List Int} {b : PyBytes}
    (h : bytesArg x = .ok b) :
    channelWriteWith fn x u rs = writeLoop fn b.length rs 0 b.length u := by
  cases x with
  | none => cases h
  | bytes b' =>
    cases h
    rfl
  | other => cases h
  | text s =>
    simp only [bytesArg, channelWriteWith, toBytes] at h ⊢
    cases hs : s.encode with
    | error e' => simp [hs, Except.map] at h
    | ok b' =>
      simp only [hs, Except.map, Except.ok.injEq] at h ⊢
      rw [h]

theorem WriteOp.call_error {op : WriteOp} {x : PyObj} {u : Int} {rs : List Int} {e : PyExc}
    (h : op.bytesOf x = .error e) : op.call x u rs = ⟨[], .raised e⟩ := by
  cases op with
  | write => exact channelWriteWith_error h
  | writeEx sid => exact channelWriteWith_error h
  | writeStderr => exact channelWriteWith_error h
  | sftpWrite =>
    cases x with
    | bytes b => cases h
    | text s =>
      cases h
      rfl
    | none =>
      cases h
      rfl
    | other =>
      cases h
      rfl

theorem WriteOp.call_ok {op : WriteOp} {x : PyObj} {u : Int} {rs : List Int} {b : PyBytes}
    (h : op.bytesOf x = .ok b) :
    op.call x u rs = writeLoop op.nativeFn b.length rs 0 b.length (op.initialRc u) := by
  cases op with
  | write => exact channelWriteWith_ok h
  | writeEx sid => exact channelWriteWith_ok h
  | writeStderr => exact channelWriteWith_ok h
  | sftpWrite =>
    cases x with
    | bytes b' =>
      cases h
      rfl
    | text s => cases h
    | none => cases h
    | other => cases h

@[simp] theorem WriteOp.asEx_nativeFn (op : WriteOp) : op.asEx.nativeFn = op.nativeFn := by
  cases op <;> rfl

@[simp] theorem WriteOp.asEx_bytesOf (op : WriteOp) (x : PyObj) :
    op.asEx.bytesOf x = op.bytesOf x := by
  cases op <;> rfl

/-- With something to write the stack is never read, and the method is the `write_ex` it names. -/
theorem WriteOp.call_congr {op : WriteOp} {x : PyObj} {rs : List Int} {b : PyBytes}
    (h : op.bytesOf x = .ok b) (hb : b.length ≠ 0) (u v : Int) :
    op.call x u rs = op.call x v rs ∧ op.call x u rs = op.asEx.call x v rs := by
  have hex : op.asEx.bytesOf x = .ok b := by rw [op.asEx_bytesOf, h]
  rw [op.call_ok h, op.call_ok h, op.asEx.call_ok hex, op.asEx_nativeFn]
  exact ⟨writeLoop_congr _ _ _ _ hb _ _, writeLoop_congr _ _ _ _ hb _ _⟩

/-- Without anything to write, the pair is what `rc` held at the start, and zero. -/
theorem WriteOp.call_empty {op : WriteOp} {x : PyObj} {u : Int} {rs : List Int} {b : PyBytes}
    (h : op.bytesOf x = .ok b) (hb : b.length = 0) :
    op.call x u rs = ⟨[], .returned (op.initialRc u) 0⟩ := by
  have hsize : toSize (((0 : Nat) : Int) - (0 : Nat)) = 0 := by decide
  rw [op.call_ok h, hb, writeLoop_done, hsize]

theorem WriteOp.initialRc_of_ne {op : WriteOp} (h : op ≠ .sftpWrite) (u : Int) :
    op.initialRc u = u := by
  cases op with
  | sftpWrite => exact absurd rfl h
  | write | writeEx | writeStderr => rfl

theorem WriteOp.call_legalLoop {op : WriteOp} {x : PyObj} {u : Int} {rs : List Int} {b : PyBytes}
    (h : op.bytesOf x = .ok b) (hlegal : ∀ c ∈ (op.call x u rs).calls, c.Legal) :
    LegalLoop op.nativeFn b.length 0 (op.initialRc u) (op.call x u rs) := by
  rw [op.call_ok h] at hlegal ⊢
  exact writeLoop_legalLoop _ b.length_lt' rs _ (Nat.zero_add _) hlegal

/-- A call that is over without an exception returned the documented pair, if it had something to
write or started from an `rc` that is no error. -/
theorem WriteOp.call_documented {op : WriteOp} {x : PyObj} {u : Int} {rs : List Int}
    (hlegal : ∀ c ∈ (op.call x u rs).calls, c.Legal)
    (hrc : ∀ b, op.bytesOf x = .ok b → b.length = 0 → 0 ≤ op.initialRc u)
    (hover : (op.call x u rs).status ≠ .blocked) (hraise : ¬(op.call x u rs).status.Raises) :
    ∃ b rc n, op.bytesOf x = .ok b ∧ (op.call x u rs).status = .returned rc n ∧
      (op.call x u rs).Documented b.length rc n := by
  cases hx : op.bytesOf x with
  | error e =>
    rw [op.call_error hx] at hraise
    exact absurd ⟨e, rfl⟩ hraise
  | ok b =>
    have hloop := op.call_legalLoop hx hlegal
    obtain ⟨-, -, -, hcode⟩ := hloop.delivers
    have hcalls : (op.call x u rs).calls ≠ [] ∨ 0 ≤ op.initialRc u := by
      rcases Nat.eq_zero_or_pos b.length with hb | hb
      · exact .inr (hrc b hx hb)
      · exact .inl (hloop.calls_ne_nil hb hover)
    cases hs : (op.call x u rs).status with
    | returned rc n => exact ⟨b, rc, n, rfl, rfl, hloop.documented hcalls hs⟩
    | code v => exact absurd hs (hcode v)
    | raised e => exact absurd ⟨e, hs⟩ hraise
    | blocked => exact absurd hs hover

/-- **What the pair depends on**: for every argument and every sequence of legal native results,
the four functions keep the documented law unless a channel method is given an empty buffer. -/
theorem writesDetermined_iff (op : WriteOp) (x : PyObj) (results : List Int)
    (hlegal : ∀ u, ∀ c ∈ (op.call x u results).calls, c.Legal) :
    WritesDetermined op x results ↔
      ((∃ b, op.bytesOf x = .ok b ∧ b.length = 0) → op = .sftpWrite) := by
  constructor
  · rintro h ⟨b, hx, hb⟩
    by_contra hop
    have hdet := h.determined 0 1
    rw [op.call_empty hx hb, op.call_empty hx hb, op.initialRc_of_ne hop,
      op.initialRc_of_ne hop] at hdet
    simp at hdet
  · intro hempty
    refine ⟨fun u v => ?_, fun u v => ?_, fun u => op.call_documented (hlegal u) ?_⟩
    · cases hx : op.bytesOf x with
      | error e => rw [op.call_error hx, op.call_error hx]
      | ok b =>
        by_cases hb : b.length = 0
        · obtain rfl := hempty ⟨b, hx, hb⟩
          simp only [WriteOp.call]
        · exact (op.call_congr hx hb u v).1
    · cases hx : op.bytesOf x with
      | error e =>
        have hex : op.asEx.bytesOf x = .error e := by rw [op.asEx_bytesOf, hx]
        rw [op.call_error hx, op.asEx.call_error hex]
      | ok b =>
        by_cases hb : b.length = 0
        · obtain rfl := hempty ⟨b, hx, hb⟩
          simp only [WriteOp.asEx, WriteOp.call]
        · exact (op.call_congr hx hb u v).2
    · intro b hx hb
      obtain rfl := hempty ⟨b, hx, hb⟩
      simp only [WriteOp.initialRc, Int.le_refl]

theorem writesDetermined_partial :
    WritesDetermined .writeStderr (.bytes exampleBuf) [2, eagain] := by
  have hcalls : ∀ u, ∀ c ∈ (WriteOp.writeStderr.call (.bytes exampleBuf) u [2, eagain]).calls,
      c.Legal := by
    intro u
    have hx : WriteOp.writeStderr.bytesOf (.bytes exampleBuf) = .ok exampleBuf := rfl
    rw [(WriteOp.call_congr hx (by decide) u 0).1]
    decide
  refine (writesDetermined_iff .writeStderr (.bytes exampleBuf) [2, eagain] hcalls).mpr ?_
  rintro ⟨b, hb, hlen⟩
  cases hb
  exact absurd hlen (by decide)

def emptyBuf : PyBytes := ⟨[], Nat.two_pow_pos 63⟩

/-- `write(b"")` returns `EAGAIN` when that is what the stack held, and another number when it held
another. -/
theorem write_empty_undetermined :
    channelWrite (.bytes emptyBuf) eagain [] = ⟨[], .returned eagain 0⟩ ∧
      ¬WritesDetermined .write (.bytes emptyBuf) [] := by
  refine ⟨by decide, fun h => ?_⟩
  have hdet : channelWrite (.bytes emptyBuf) 0 [] = channelWrite (.bytes emptyBuf) 1 [] :=
    h.determined 0 1
  revert hdet
  decide

end Ssh2Python
