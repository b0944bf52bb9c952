import Ssh2Python.Open

/-!
# When a NULL pointer is explained

`wrapPointer_ok_iff` is the one case analysis behind the fourteen operations; `result_eq` says that
each of them is an instance of it, and `open_ok_iff` is any history of calls.
-/

namespace Ssh2Python

open Lib.Run

/-- Every operation wraps its pointer in the same way, up to the class and the tuple. -/
theorem OpenOp.result_eq (op : OpenOp) (errno : Int) (n : NativeOpen) :
    ∃ cls objBeside codeBeside, op.result errno (op.receiver.outcome n) =
      if op.receiver = .orphan then .undefined
      else wrapPointer cls objBeside codeBeside errno (op.receiver.outcome n) := by
  have hon (r : Receiver) (cls : WrapperClass) :
      wrapPointerOn r cls errno (r.outcome n) =
        if r = .orphan then .undefined
        else wrapPointer cls .nothing .nothing errno (r.outcome n) := by
    cases r <;> rfl
  cases op with
  | sftpGetChannel r => exact ⟨_, _, _, hon r .channel⟩
  | sftpOpenEx r filename => exact ⟨_, _, _, hon r .sftpHandle⟩
  | sftpOpen r filename => exact ⟨_, _, _, hon r .sftpHandle⟩
  | sftpOpendir r path => exact ⟨_, _, _, hon r .sftpHandle⟩
  | listenerForwardAccept r => exact ⟨_, _, _, hon r .channel⟩
  | _ => exact ⟨_, _, _, rfl⟩

/-- **One call**: what it gives is explained exactly when the pointer is there, this call recorded
an error, or an earlier error other than `EAGAIN` is still there. -/
theorem wrapPointer_ok_iff (cls : WrapperClass) (objBeside codeBeside : Beside) (errno : Int)
    (n : NativeOpen) :
    (OpenEvent.opened n (wrapPointer cls objBeside codeBeside errno n)).Ok ↔
      n.ptr = true ∨ (∃ c, n.recorded = some c ∧ c < 0) ∨
        (n.recorded = none ∧ errno < 0 ∧ errno ≠ eagain) := by
  obtain ⟨ptr, recorded⟩ := n
  cases ptr with
  | true => exact iff_of_true rfl (.inl rfl)
  | false =>
    rw [wrapPointer, if_neg Bool.false_ne_true]
    rcases result_cases (NativeOpen.errno ⟨false, recorded⟩ errno) with ⟨hneg, hE⟩ | hE | hpos
    · obtain ⟨e, he, hs⟩ := handleErrorCodes_raises hneg hE
      rw [he]
      refine iff_of_true hs (.inr ?_)
      cases recorded with
      | none => exact .inr ⟨rfl, hneg, hE⟩
      | some c => exact .inl ⟨c, rfl, hneg⟩
    · rw [hE, handleErrorCodes_returns (.inr rfl)]
      cases recorded with
      | none =>
        refine iff_of_false ?_ ?_
        · rintro ⟨-, -, h⟩
          cases h
        · rintro (h | ⟨c, h, -⟩ | ⟨-, -, h⟩)
          · cases h
          · cases h
          · exact h hE
      | some c =>
        obtain rfl : c = eagain := hE
        exact iff_of_true ⟨rfl, rfl, rfl⟩ (.inr (.inl ⟨_, rfl, eagain_neg⟩))
    · rw [handleErrorCodes_returns (.inl hpos)]
      refine iff_of_false ?_ ?_
      · rintro ⟨h, -⟩
        have := eagain_neg
        omega
      · rintro (h | ⟨c, rfl, hc⟩ | ⟨rfl, hneg, -⟩)
        · cases h
        · have : 0 ≤ c := hpos
          omega
        · have : 0 ≤ errno := hpos
          omega

theorem openStep_ok_iff (s : Option Int) (a : OpenAction) (s' : Option Int) (es : List OpenEvent)
    (h : openStep s a = some (s', es)) : (∀ e ∈ es, e.Ok) ↔ a.Explained s := by
  cases s with
  | none => cases h
  | some errno =>
    cases a with
    | other recorded =>
      obtain ⟨-, rfl⟩ := Prod.mk.inj (Option.some.inj h)
      exact iff_of_true (fun e he => absurd he List.not_mem_nil) trivial
    | call op n =>
      cases hargs : convertArgs op.args with
      | error e =>
        simp only [openStep, hargs] at h
        obtain ⟨-, rfl⟩ := Prod.mk.inj (Option.some.inj h)
        exact iff_of_true (fun e he => List.mem_singleton.mp he ▸ trivial) (.inl ⟨e, hargs⟩)
      | ok bs =>
        simp only [openStep, hargs] at h
        obtain ⟨-, rfl⟩ := Prod.mk.inj (Option.some.inj h)
        rw [List.forall_mem_singleton]
        have hconv : ¬∃ e, convertArgs op.args = .error e := by
          rintro ⟨e, he⟩
          rw [hargs] at he
          cases he
        refine Iff.trans ?_ (or_iff_right hconv).symm
        obtain ⟨cls, ob, cb, hres⟩ := op.result_eq errno n
        rw [hres]
        by_cases horphan : op.receiver = .orphan
        · rw [if_pos horphan]
          refine iff_of_false id ?_
          rw [horphan]
          rintro (h' | ⟨c, h', -⟩ | ⟨h', -⟩)
          · cases h'
          · cases h'
          · exact h' rfl
        · rw [if_neg horphan, wrapPointer_ok_iff]
          exact or_congr_right (or_congr_right (and_iff_right horphan).symm)

/-- **When every result is explained**: in any history of calls on a session, the operations that
wrap a pointer give an object, `EAGAIN` for this very call or an `SSH2Error` exactly when each of
them was rejected for its arguments, got its pointer, recorded a (negative) error itself, or found
one other than `EAGAIN` that an earlier call had left, on a receiver with a session. -/
theorem open_ok_iff (errno : Int) (as : List OpenAction) (es : List OpenEvent) (s : Option Int)
    (hrun : Runs openStep (fun _ _ => True) (some errno) as es s) :
    (∀ e ∈ es, e.Ok) ↔ Runs openStep (fun s a => a.Explained s) (some errno) as es s :=
  hrun.guarded_iff openStep_ok_iff

/-- A channel that would block at first. -/
theorem open_ok_example :
    (∀ e ∈ [OpenEvent.opened ⟨false, some eagain⟩ (.code eagain .nothing),
      .opened ⟨true, none⟩ (.object .channel .nothing)], e.Ok) ∧
    Runs openStep (fun s a => a.Explained s) (some 0)
      [.call .openSession ⟨false, some eagain⟩, .call .openSession ⟨true, none⟩]
      [.opened ⟨false, some eagain⟩ (.code eagain .nothing),
        .opened ⟨true, none⟩ (.object .channel .nothing)] (some eagain) := by
  have hrun : Runs openStep (fun _ _ => True) (some 0)
      [.call .openSession ⟨false, some eagain⟩, .call .openSession ⟨true, none⟩]
      ([.opened ⟨false, some eagain⟩ (.code eagain .nothing)] ++
        ([.opened ⟨true, none⟩ (.object .channel .nothing)] ++ [])) (some eagain) :=
    .cons trivial rfl (.cons trivial rfl (.nil _))
  have hexplained : Runs openStep (fun s a => a.Explained s) (some 0)
      [.call .openSession ⟨false, some eagain⟩, .call .openSession ⟨true, none⟩]
      ([.opened ⟨false, some eagain⟩ (.code eagain .nothing)] ++
        ([.opened ⟨true, none⟩ (.object .channel .nothing)] ++ [])) (some eagain) :=
    .cons (.inr (.inr (.inl ⟨eagain, rfl, eagain_neg⟩))) rfl (.cons (.inr (.inl rfl)) rfl (.nil _))
  exact ⟨(open_ok_iff 0 _ _ _ hrun).mpr hexplained, hexplained⟩

/-- `SFTP(session)` on a fresh session: a path of it cannot be opened, and the result is `0`. -/
theorem open_null_sftp : ∃ es s,
    Runs openStep (fun _ _ => True) (some 0)
      [.call (.sftpOpen .null (.bytes ⟨[97], by decide⟩)) ⟨false, none⟩] es s ∧
    ¬∀ e ∈ es, e.Ok := by
  refine ⟨_, _, runs_of_exec rfl, fun h => ?_⟩
  exact absurd (h (.opened ⟨false, none⟩ (.code 0 .nothing)) List.mem_cons_self).1 (by decide)

end Ssh2Python
