import Ssh2Python.Methods

/-!
# When `methods` is safe

A step's results are right exactly when it is safe (`methodsStep_ok_iff`), and so is a run's
(`methods_ok_iff`).
-/

namespace Ssh2Python

open Lib.Run

/-- With a socket, `methods` gives the text of the native method or crashes for want of one. -/
theorem methods_eq {s : MethodsSession} (hsock : s.sock = true) (t : Int) :
    s.methods t = match libssh2SessionMethods s.table t with
      | none => .nullDeref
      | some name => .text name.text := by
  rw [MethodsSession.methods, if_neg (by rw [hsock]; exact Bool.noConfusion)]
  cases libssh2SessionMethods s.table t with
  | none => rfl
  | some name =>
    have h : toStr name.mem = .ok name.text := by
      have := toStr_mem name []
      rwa [List.append_nil] at this
    simp only [h]

theorem methodsStep_ok_iff (s : Option MethodsSession) (op : MethodsOp)
    (s' : Option MethodsSession) (es : List MethodsEvent) (h : methodsStep s op = some (s', es)) :
    (∀ e ∈ es, e.Ok) ↔ op.Safe s := by
  cases s with
  | none => cases h
  | some s =>
    cases op with
    | handshake arg rc table =>
      obtain ⟨-, rfl⟩ := Prod.mk.inj (Option.some.inj h)
      exact iff_of_true (fun e he => List.mem_singleton.mp he ▸ trivial) trivial
    | other table =>
      obtain ⟨-, rfl⟩ := Prod.mk.inj (Option.some.inj h)
      exact iff_of_true (fun e he => absurd he List.not_mem_nil) trivial
    | methods t =>
      obtain ⟨-, rfl⟩ := Prod.mk.inj (Option.some.inj h)
      rw [List.forall_mem_singleton]
      cases hsock : s.sock with
      | false =>
        have hnone : s.methods t = .none := if_pos hsock
        rw [hnone]
        exact iff_of_true trivial (.inl hsock)
      | true =>
        rw [methods_eq hsock]
        cases hm : libssh2SessionMethods s.table t with
        | none =>
          refine iff_of_false id ?_
          rintro (h' | h')
          · rw [hsock] at h'
            cases h'
          · exact h' hm
        | some name =>
          refine iff_of_true ⟨name, rfl, rfl⟩ (.inr ?_)
          rw [hm]
          exact Option.some_ne_none name

/-- **When `methods` is safe**: in a run of a session every result of `methods` is nothing, the text
of the native method or an `SSH2Error` exactly when each call was made while the session had no
(true) socket or for a method that is negotiated. -/
theorem methods_ok_iff (ops : List MethodsOp) (es : List MethodsEvent) (s : Option MethodsSession)
    (hrun : Runs methodsStep (fun _ _ => True) (some .new) ops es s) :
    (∀ e ∈ es, e.Ok) ↔ Runs methodsStep (fun s op => op.Safe s) (some .new) ops es s :=
  hrun.guarded_iff methodsStep_ok_iff

def kexName : CText := ⟨['k', 'e', 'x'], by decide⟩

/-- A handshake that has negotiated key exchange only. -/
def kexOnly : MethodTable := { MethodTable.empty with kex := some kexName }

theorem methods_ok_example :
    (∀ e ∈ [MethodsEvent.methods none .none, .handshake (.ok eagain),
      .methods (some kexName) (.text kexName.text)], e.Ok) ∧
    Runs methodsStep (fun s op => op.Safe s) (some .new)
      [.methods 1, .handshake (.sock true) eagain kexOnly, .methods 0]
      [.methods none .none, .handshake (.ok eagain), .methods (some kexName) (.text kexName.text)]
      (some ⟨true, kexOnly⟩) := by
  have hrun : Runs methodsStep (fun _ _ => True) (some .new)
      [.methods 1, .handshake (.sock true) eagain kexOnly, .methods 0]
      ([.methods none .none] ++ ([.handshake (.ok eagain)] ++
        ([.methods (some kexName) (.text kexName.text)] ++ []))) (some ⟨true, kexOnly⟩) :=
    .cons trivial rfl (.cons trivial rfl (.cons trivial rfl (.nil _)))
  have hsafe : Runs methodsStep (fun s op => op.Safe s) (some .new)
      [.methods 1, .handshake (.sock true) eagain kexOnly, .methods 0]
      ([.methods none .none] ++ ([.handshake (.ok eagain)] ++
        ([.methods (some kexName) (.text kexName.text)] ++ []))) (some ⟨true, kexOnly⟩) :=
    .cons (.inl rfl) rfl (.cons trivial rfl
      (.cons (.inr (Option.some_ne_none kexName)) rfl (.nil _)))
  exact ⟨(methods_ok_iff _ _ _ hrun).mpr hsafe, hsafe⟩

/-- A handshake on a non-blocking socket that has not got to the host key yet. -/
theorem methods_null_deref : ∃ es s,
    Runs methodsStep (fun _ _ => True) (some .new)
      [.handshake (.sock true) eagain .empty, .methods 1] es s ∧ ¬∀ e ∈ es, e.Ok := by
  refine ⟨_, _, runs_of_exec rfl, fun h => ?_⟩
  exact h (.methods none .nullDeref) (List.mem_append_right _ List.mem_cons_self)

end Ssh2Python
