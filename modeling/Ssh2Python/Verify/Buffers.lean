import Ssh2Python.Buffers

/-!
# Which calls keep their buffers

The log of a call is read off its code (`calls_bind_of_silent` drops the parts that touch no
buffer); what remains are a few lists of events, of which `keeps_iff` decides the balance. A log
with a buffer that is never released is not balanced (`not_keeps_of_lost`).
-/

namespace Ssh2Python

open Lib.Ledger

/-! ## Reading the log -/

section

variable {α β : Type} {e : Buf α} {f : α → Buf β}

/-- What touches no buffer does not show. -/
theorem calls_bind_of_silent (h : ∀ a, (f a).calls = []) : (e >>= f).calls = e.calls := by
  obtain ⟨calls, result⟩ := e
  cases result with
  | error exc => rfl
  | ok a => rw [Effect.ok_bind, h, List.append_nil]

theorem calls_lift_bind {r : Except PyExc α} (h : ∀ a, (f a).calls = []) :
    (Effect.lift r >>= f).calls = [] :=
  calls_bind_of_silent h

@[simp] theorem calls_andFinally (last : Buf Unit) :
    (e.andFinally last).calls = e.calls ++ last.calls := rfl

@[simp] theorem calls_malloc_bind (i : Nat) (f : BufPtr → Buf β) :
    (malloc i true >>= f).calls = .acquire i :: (f (some i)).calls := rfl

@[simp] theorem malloc_false_bind (i : Nat) (f : BufPtr → Buf β) :
    (malloc i false >>= f).calls = (f none).calls := rfl

@[simp] theorem calls_mallocOrRaise_bind (i : Nat) (f : BufPtr → Buf β) :
    (mallocOrRaise i true >>= f).calls = .acquire i :: (f (some i)).calls := rfl

@[simp] theorem calls_pass_bind (i : Nat) (f : Unit → Buf β) :
    (pass (some i) >>= f).calls = .call i :: (f ()).calls := rfl

@[simp] theorem calls_pass_none_bind (f : Unit → Buf β) :
    (pass none >>= f).calls = (f ()).calls := rfl

@[simp] theorem calls_free (i : Nat) : (free (some i)).calls = [.release i] := rfl

@[simp] theorem calls_converted (a : α) (exc : Option PyExc) : (converted a exc).calls = [] := by
  cases exc <;> rfl

@[simp] theorem calls_copyBytes (native : NativeFill) (copy : Option PyExc) :
    (copyBytes native copy).calls = [] := by
  rw [copyBytes]
  split
  · exact calls_converted _ _
  · rfl

@[simp] theorem calls_copyLongentry (native : NativeEntry) (copy : Option PyExc) :
    (copyLongentry native copy).calls = [] := by
  rw [copyLongentry]
  split
  · exact calls_converted _ _
  · rfl

end

/-- An object that is acquired and never released is lost. -/
theorem not_keeps_of_lost {es : List (Event Nat)} {i : Nat} (hacq : .acquire i ∈ es)
    (hrel : .release i ∉ es) : ¬Keeps es := by
  rw [keeps_iff]
  rintro ⟨hsound, hend⟩
  have hcount := hsound.count_eq (Status.noConfusion) (hend _ hacq)
  rw [Event.about, List.count_eq_zero.mpr hrel] at hcount
  exact absurd (List.one_le_count_iff.mpr hacq) (by omega)

/-! ## The logs -/

namespace Buffers

theorem channelReadEx_log (native : NativeFill) (copy : Option PyExc) :
    (channelReadEx true native copy).calls = [.acquire 0, .call 0, .release 0] := by
  rw [channelReadEx, calls_mallocOrRaise_bind, calls_pass_bind, calls_bind_of_silent]
  · simp
  · exact fun _ => calls_lift_bind fun _ => rfl

theorem sftpHandleRead_log (native : NativeFill) (copy : Option PyExc) :
    (sftpHandleRead true native copy).calls = [.acquire 0, .call 0, .release 0] := by
  rw [sftpHandleRead, calls_mallocOrRaise_bind, calls_pass_bind, calls_bind_of_silent fun _ => rfl]
  simp

/-- The attributes go last. -/
theorem calls_withAttributes {α : Type} (body : BufPtr → Buf α) :
    (withAttributes true body).calls = .acquire 0 :: ((body (some 0)).calls ++ [.release 0]) :=
  rfl

theorem readdirOnce_log (alloc : Bool) (native : NativeEntry) (copy : Option PyExc) :
    (readdirOnce true alloc native copy).calls =
      .acquire 0 :: ((if alloc then [.acquire 1, .call 1, .call 0, .release 1] else []) ++
        [.release 0]) := by
  rw [readdirOnce, calls_withAttributes]
  cases alloc with
  | false => rfl
  | true =>
    rw [calls_mallocOrRaise_bind, calls_pass_bind, calls_pass_bind,
      calls_bind_of_silent fun _ => rfl]
    simp

theorem readdirExOnce_log (alloc allocLong : Bool) (native : NativeEntry)
    (copy copyLong : Option PyExc) :
    (readdirExOnce true alloc allocLong native copy copyLong).calls =
      .acquire 0 :: ((match alloc, allocLong with
        | true, true =>
          [.acquire 1, .acquire 2, .call 1, .call 2, .call 0, .release 1, .release 2]
        | true, false => [.acquire 1]
        | false, true => [.acquire 2]
        | false, false => []) ++ [.release 0]) := by
  rw [readdirExOnce, calls_withAttributes]
  match alloc, allocLong with
  | true, false => rfl
  | false, true => rfl
  | false, false => rfl
  | true, true =>
    rw [calls_malloc_bind, calls_malloc_bind, if_neg (by simp), calls_pass_bind, calls_pass_bind,
      calls_pass_bind, calls_bind_of_silent fun _ => rfl, calls_andFinally, calls_bind_of_silent]
    · rw [calls_copyBytes]
      rfl
    · exact fun _ => (calls_bind_of_silent fun _ => rfl).trans (calls_copyLongentry _ _)

theorem sftpRealpath_log {path : PyObj} (hpath : path ≠ .none) (native : NativeFill) :
    (sftpRealpath path true native).calls =
      .acquire 0 :: match bytesArg path with
        | .ok _ => [.call 0, .release 0]
        | .error _ => [] := by
  rw [sftpRealpath, if_neg hpath, calls_mallocOrRaise_bind]
  cases bytesArg path with
  | ok p => rfl
  | error e => rfl

/-- The buffer of the bindings is lost with its pointer. -/
theorem sessionLastError_log (alloc : Bool) (fresh : Nat → List UInt8) (native : NativeLastError) :
    (sessionLastError alloc fresh native).calls = (if alloc then [.acquire 0] else []) ++
      if native.alloc then [.acquire 1, .call 1, .release 1] else [] := by
  obtain ⟨message, nativeAlloc⟩ := native
  have hlost : (malloc 0 alloc >>= fun _ =>
      sessionLastError false fresh ⟨message, nativeAlloc⟩).calls =
        (if alloc then [.acquire 0] else []) ++
        (sessionLastError false fresh ⟨message, nativeAlloc⟩).calls := by
    cases alloc <;> rfl
  have hnative : (sessionLastError false fresh ⟨message, nativeAlloc⟩).calls =
      if nativeAlloc then [.acquire 1, .call 1, .release 1] else [] := by
    rw [sessionLastError, malloc_false_bind]
    cases nativeAlloc with
    | true => rw [calls_malloc_bind, calls_andFinally, calls_pass_bind]; rfl
    | false => rw [malloc_false_bind, calls_andFinally, calls_pass_none_bind]; rfl
  exact hlost.trans (congrArg _ hnative)

theorem sessionSupportedAlgs_log (first : CText) (rest : List CText) :
    (sessionSupportedAlgs (.names first rest)).calls = [.acquire 0, .call 0, .release 0] := by
  rw [sessionSupportedAlgs, calls_malloc_bind, calls_andFinally, calls_pass_bind]
  rw [calls_lift_bind fun _ => rfl]
  rfl

theorem channelGetExitSignal_log (native : NativeSignal) :
    (channelGetExitSignal native).calls = match native with
      | .name _ => [.acquire 0, .call 0]
      | _ => [] := by
  cases native with
  | none => rfl
  | name s => rfl
  | noMemory => rfl

/-- An entry loses its buffer whatever happens to it: no destructor frees it. -/
theorem calls_newKnownHostEntry {α : Type} {f : Store → Buf α} (alloc : Bool)
    (h : ∀ s, (f s).calls = []) :
    (newKnownHostEntry alloc >>= f).calls = if alloc then [.acquire 0] else [] := by
  cases alloc with
  | false => rfl
  | true => exact calls_bind_of_silent h

theorem calls_entryDealloc {α : Type} {e : Buf α} (h : e.calls = []) (s : Store) :
    (e.andFinally (entryDealloc s)).calls = [] := by
  rw [calls_andFinally, h]
  cases s <;> rfl

theorem calls_raise_ite {rc : Int} {exc : PyExc} :
    (if rc ≠ 0 then .raise exc else pure () : Buf Unit).calls = [] := by
  split <;> rfl

theorem knownHostAddc_log (host key salt comment : PyObj) (alloc : Bool) (rc : Int) :
    (knownHostAddc host key salt comment alloc rc).calls =
      match bytesNotNone host, bytesNotNone key, bytesOrNone salt, bytesOrNone comment with
      | .ok _, .ok _, .ok _, .ok _ => if alloc then [.acquire 0] else []
      | _, _, _, _ => [] := by
  rw [knownHostAddc]
  cases bytesNotNone host with
  | error e => rfl
  | ok host =>
    cases bytesNotNone key with
    | error e => rfl
    | ok key =>
      cases bytesOrNone salt with
      | error e => rfl
      | ok salt =>
        cases bytesOrNone comment with
        | error e => rfl
        | ok comment =>
          exact calls_newKnownHostEntry alloc fun _ => calls_entryDealloc calls_raise_ite _

theorem knownHostCheckp_log (host key : PyObj) (alloc : Bool) (rc : Int) (found : Bool) :
    (knownHostCheckp host key alloc rc found).calls =
      match bytesNotNone host, bytesNotNone key with
      | .ok _, .ok _ => if alloc then [.acquire 0] else []
      | _, _ => [] := by
  rw [knownHostCheckp]
  cases bytesNotNone host with
  | error e => rfl
  | ok host =>
    cases bytesNotNone key with
    | error e => rfl
    | ok key => exact calls_newKnownHostEntry alloc fun _ => calls_entryDealloc calls_raise_ite _

/-! `writeline` frees at every depth. -/

theorem writeline_tooSmall_log (again : Writeline) (depth : Nat) :
    (knownHostWriteline depth (.tooSmall again)).calls = .acquire depth :: .call depth ::
      ((knownHostWriteline (depth + 1) again).calls ++ [.release depth]) :=
  rfl

/-- A call of `writeline` that does not call itself. -/
theorem writeline_log {call : Writeline} (h : ∀ again, call ≠ .tooSmall again) (depth : Nat) :
    (knownHostWriteline depth call).calls = [] ∨
      (knownHostWriteline depth call).calls = [.acquire depth, .call depth, .release depth] := by
  cases call with
  | refused e => exact .inl rfl
  | noMemory => exact .inl rfl
  | tooSmall again => exact absurd rfl (h again)
  | code rc ne => exact .inr rfl
  | line output copy =>
    rw [knownHostWriteline, calls_mallocOrRaise_bind, calls_pass_bind, calls_andFinally]
    split
    · rw [calls_converted]
      exact .inr rfl
    · exact .inr rfl

/-- The inner calls use buffers of their own. -/
theorem writeline_about (call : Writeline) (depth : Nat) :
    ∀ e ∈ (knownHostWriteline depth call).calls, depth ≤ e.about := by
  have hleaf {call : Writeline} (h : ∀ again, call ≠ .tooSmall again) (depth : Nat) :
      ∀ e ∈ (knownHostWriteline depth call).calls, depth ≤ e.about := by
    obtain hlog | hlog := writeline_log h depth <;>
    · rw [hlog]
      simp [Event.about]
  induction call generalizing depth with
  | tooSmall again ih =>
    rw [writeline_tooSmall_log]
    intro e he
    rcases List.mem_cons.mp he with rfl | he
    · exact Nat.le_refl depth
    · rcases List.mem_cons.mp he with rfl | he
      · exact Nat.le_refl depth
      · rcases List.mem_append.mp he with he | he
        · exact Nat.le_of_succ_le (ih (depth + 1) e he)
        · rw [List.mem_singleton.mp he]
          exact Nat.le_refl depth
  | _ => exact hleaf (by simp) depth

theorem writeline_keeps (call : Writeline) (depth : Nat) :
    Keeps (knownHostWriteline depth call).calls := by
  have hnil : Keeps ([] : List (Event Nat)) := fun b held h _ => ⟨trivial, h⟩
  have hleaf {call : Writeline} (h : ∀ again, call ≠ .tooSmall again) (depth : Nat) :
      Keeps (knownHostWriteline depth call).calls := by
    obtain hlog | hlog := writeline_log h depth
    · rw [hlog]
      exact hnil
    · rw [hlog]
      exact hnil.bracket fun e he => absurd he List.not_mem_nil
  induction call generalizing depth with
  | tooSmall again ih =>
    rw [writeline_tooSmall_log]
    exact (ih (depth + 1)).bracket fun e he =>
      Nat.ne_of_gt (writeline_about again (depth + 1) e he)
  | _ => exact hleaf (by simp) depth

theorem publicKeySystemAdd_log (name blob : PyObj) (attrs : Option (List (Option PyExc)))
    (alloc : Bool) (rc : Int) : (publicKeySystemAdd name blob attrs alloc rc).calls =
      match bytesOrNone name, bytesOrNone blob, attrs, alloc with
      | .ok (some _), .ok blob, some (x :: xs), true =>
        .acquire 0 :: match convertAttrs (x :: xs), blob with
          | .ok _, some _ => [.call 0, .release 0]
          | _, _ => []
      | _, _, _, _ => [] := by
  rw [publicKeySystemAdd]
  cases bytesOrNone name with
  | error e => rfl
  | ok name =>
    cases bytesOrNone blob with
    | error e => cases name <;> rfl
    | ok blob =>
      cases name with
      | none => rfl
      | some name =>
        match attrs, alloc with
        | none, _ => rfl
        | some [], _ => cases blob <;> rfl
        | some (x :: xs), false => rfl
        | some (x :: xs), true =>
          have hraised (f : BufPtr → Buf Int) {e : PyExc} (hc : convertAttrs (x :: xs) = .error e) :
              (attrsPointer (x :: xs) true >>= f).calls = [.acquire 0] := by
            rw [attrsPointer, if_neg (List.cons_ne_nil _ _), toCAttr, hc]
            rfl
          have hpointer (f : BufPtr → Buf Int) {u : Unit} (hc : convertAttrs (x :: xs) = .ok u) :
              (attrsPointer (x :: xs) true >>= f).calls = .acquire 0 :: (f (some 0)).calls := by
            rw [attrsPointer, if_neg (List.cons_ne_nil _ _), toCAttr, hc]
            rfl
          cases hc : convertAttrs (x :: xs) with
          | error e =>
            refine (hraised _ hc).trans ?_
            simp only [hc]
          | ok u =>
            refine (hpointer _ hc).trans ?_
            simp only [hc]
            cases blob <;> rfl

end Buffers

/-! ## Balance -/

theorem keeps_nil : Keeps ([] : List (Event Nat)) :=
  fun _ _ h _ => ⟨trivial, h⟩

/-- A buffer that is allocated and lost, if it is allocated. -/
theorem keeps_lost_iff {alloc : Bool} :
    Keeps (if alloc then [.acquire 0] else [] : List (Event Nat)) ↔ alloc = false := by
  cases alloc <;> decide

/-- The log of a buffer that is used and freed. -/
theorem keeps_used : Keeps ([.acquire 0, .call 0, .release 0] : List (Event Nat)) := by
  decide

/-- `PublicKeySystem.add` loses the array when the conversion of an element raises, and when the
blob is `None`, which it finds out too late. -/
theorem publicKeySystemAdd_keeps_iff (name blob : PyObj) (attrs : Option (List (Option PyExc)))
    (alloc : Bool) (rc : Int) :
    Keeps (BufferOp.publicKeySystemAdd name blob attrs alloc rc).log ↔
      (BufferOp.publicKeySystemAdd name blob attrs alloc rc).Settles := by
  rw [BufferOp.log, BufferOp.Settles, Buffers.publicKeySystemAdd_log]
  cases name with
  | none => exact iff_of_true keeps_nil (.inr (.inr (.inr (.inl fun b => PyObj.noConfusion))))
  | text s => exact iff_of_true keeps_nil (.inr (.inr (.inr (.inl fun b => PyObj.noConfusion))))
  | other => exact iff_of_true keeps_nil (.inr (.inr (.inr (.inl fun b => PyObj.noConfusion))))
  | bytes b =>
    match attrs, alloc with
    | none, _ => exact iff_of_true (by cases blob <;> exact keeps_nil) (.inr (.inl rfl))
    | some [], _ => exact iff_of_true (by cases blob <;> exact keeps_nil) (.inr (.inr (.inl rfl)))
    | some (x :: xs), false => exact iff_of_true (by cases blob <;> exact keeps_nil) (.inl rfl)
    | some (x :: xs), true =>
      cases blob with
      | text s => exact iff_of_true keeps_nil (.inr (.inr (.inr (.inr (.inl ⟨_, rfl⟩)))))
      | other => exact iff_of_true keeps_nil (.inr (.inr (.inr (.inr (.inl ⟨_, rfl⟩)))))
      | none =>
        refine iff_of_false (not_keeps_of_lost List.mem_cons_self ?_) ?_
        · cases Buffers.convertAttrs (x :: xs) <;> simp [Buffers.bytesOrNone]
        · simp [Buffers.bytesOrNone]
      | bytes c =>
        dsimp only [Buffers.bytesOrNone]
        cases hc : Buffers.convertAttrs (x :: xs) with
        | error e =>
          refine iff_of_false (not_keeps_of_lost List.mem_cons_self (by simp)) ?_
          simp [hc]
        | ok u =>
          refine iff_of_true keeps_used (.inr (.inr (.inr (.inr (.inr ⟨?_, x :: xs, rfl, hc⟩)))))
          exact PyObj.noConfusion

section

open Buffers

theorem sftpRealpath_keeps_iff (path : PyObj) (alloc : Bool) (native : NativeFill) :
    Keeps (BufferOp.sftpRealpath path alloc native).log ↔
      (BufferOp.sftpRealpath path alloc native).Settles := by
  rw [BufferOp.log, BufferOp.Settles]
  by_cases hpath : path = .none
  · rw [Buffers.sftpRealpath, if_pos hpath]
    exact iff_of_true keeps_nil (.inl hpath)
  · cases alloc with
    | false =>
      rw [Buffers.sftpRealpath, if_neg hpath]
      exact iff_of_true keeps_nil (.inr (.inl rfl))
    | true =>
      rw [sftpRealpath_log hpath]
      cases bytesArg path with
      | ok p => exact iff_of_true keeps_used (.inr (.inr ⟨p, rfl⟩))
      | error e =>
        exact iff_of_false (not_keeps_of_lost List.mem_cons_self (by simp)) (by simp [hpath])

theorem sessionSupportedAlgs_keeps (native : NativeAlgs) :
    Keeps (BufferOp.sessionSupportedAlgs native).log := by
  cases native with
  | names first rest =>
    rw [BufferOp.log, sessionSupportedAlgs_log]
    exact keeps_used
  | code rc notPos =>
    rw [BufferOp.log, sessionSupportedAlgs]
    split
    · rw [calls_lift_bind fun _ => rfl]
      exact keeps_nil
    · exact keeps_nil

theorem knownHostAddc_keeps_iff (host key salt comment : PyObj) (alloc : Bool) (rc : Int) :
    Keeps (BufferOp.knownHostAddc host key salt comment alloc rc).log ↔
      (BufferOp.knownHostAddc host key salt comment alloc rc).Settles := by
  rw [BufferOp.log, BufferOp.Settles, knownHostAddc_log]
  cases bytesNotNone host with
  | error e => exact iff_of_true keeps_nil (.inr (.inl ⟨e, rfl⟩))
  | ok _ =>
    cases bytesNotNone key with
    | error e => exact iff_of_true keeps_nil (.inr (.inr (.inl ⟨e, rfl⟩)))
    | ok _ =>
      cases bytesOrNone salt with
      | error e => exact iff_of_true keeps_nil (.inr (.inr (.inr (.inl ⟨e, rfl⟩))))
      | ok _ =>
        cases bytesOrNone comment with
        | error e => exact iff_of_true keeps_nil (.inr (.inr (.inr (.inr ⟨e, rfl⟩))))
        | ok _ => simpa using keeps_lost_iff

theorem knownHostCheckp_keeps_iff (host key : PyObj) (alloc : Bool) (rc : Int) (found : Bool) :
    Keeps (BufferOp.knownHostCheckp host key alloc rc found).log ↔
      (BufferOp.knownHostCheckp host key alloc rc found).Settles := by
  rw [BufferOp.log, BufferOp.Settles, knownHostCheckp_log]
  cases bytesNotNone host with
  | error e => exact iff_of_true keeps_nil (.inr (.inl ⟨e, rfl⟩))
  | ok _ =>
    cases bytesNotNone key with
    | error e => exact iff_of_true keeps_nil (.inr (.inr ⟨e, rfl⟩))
    | ok _ => simpa using keeps_lost_iff

/-- **Which calls keep the buffers of the bindings**: all those of reading, `supported_algs` and
`writeline`, and of the others those that fail before they allocate, or allocate nothing. -/
theorem keepsBuffers_iff (op : BufferOp) : op.KeepsBuffers ↔ op.Settles := by
  rw [BufferOp.KeepsBuffers]
  cases op with
  | channelReadEx alloc native copy =>
    refine iff_of_true ?_ trivial
    cases alloc with
    | false => exact keeps_nil
    | true =>
      rw [BufferOp.log, channelReadEx_log]
      exact keeps_used
  | channelGetExitSignal native =>
    rw [BufferOp.log, channelGetExitSignal_log, BufferOp.Settles]
    cases native with
    | none => exact iff_of_true keeps_nil (by simp)
    | noMemory => exact iff_of_true keeps_nil (by simp)
    | name s => exact iff_of_false (not_keeps_of_lost List.mem_cons_self (by simp)) fun h => h s rfl
  | sftpHandleRead alloc native copy =>
    refine iff_of_true ?_ trivial
    cases alloc with
    | false => exact keeps_nil
    | true =>
      rw [BufferOp.log, sftpHandleRead_log]
      exact keeps_used
  | readdir allocAttrs alloc native copy =>
    refine iff_of_true ?_ trivial
    cases allocAttrs with
    | false => exact keeps_nil
    | true =>
      rw [BufferOp.log, readdirOnce_log]
      cases alloc <;> decide
  | readdirEx allocAttrs alloc allocLong native copy copyLong =>
    cases allocAttrs with
    | false => exact iff_of_true keeps_nil fun h => Bool.noConfusion h
    | true =>
      rw [BufferOp.log, readdirExOnce_log, BufferOp.Settles]
      cases alloc <;> cases allocLong <;> decide
  | sftpRealpath path alloc native => exact sftpRealpath_keeps_iff ..
  | sessionLastError alloc fresh native =>
    rw [BufferOp.log, BufferOp.Settles, sessionLastError_log]
    cases alloc <;> cases native.alloc <;> decide
  | sessionSupportedAlgs native => exact iff_of_true (sessionSupportedAlgs_keeps native) trivial
  | knownHostAddc host key salt comment alloc rc => exact knownHostAddc_keeps_iff ..
  | knownHostCheckp host key alloc rc found => exact knownHostCheckp_keeps_iff ..
  | knownHostWriteline call => exact iff_of_true (writeline_keeps call 0) trivial
  | publicKeySystemAdd name blob attrs alloc rc => exact publicKeySystemAdd_keeps_iff ..

end

/-- Asking for the last error loses a buffer when all goes well. -/
theorem sessionLastError_not_keeps :
    ¬(BufferOp.sessionLastError true (List.replicate · 0) ⟨[], true⟩).KeepsBuffers := by
  rw [BufferOp.KeepsBuffers, BufferOp.log, Buffers.sessionLastError_log]
  decide

/-! ## The same methods without their buffers -/

theorem copyBytes_result (native : NativeFill) :
    (copyBytes native none).result = .ok native.bytes := by
  rw [copyBytes, NativeFill.bytes]
  split <;> rfl

theorem result_bind {α β : Type} {e : Buf α} {f : α → Buf β} {a : α} (h : e.result = .ok a) :
    (e >>= f).result = (f a).result := by
  obtain ⟨calls, result⟩ := e
  obtain rfl : result = .ok a := h
  rfl

theorem result_andFinally {α : Type} (e : Buf α) (last : Buf Unit) :
    (e.andFinally last).result = e.result := rfl

theorem sftpHandleRead_result (maxlen : Nat) (alloc : Bool) (native : NativeFill) :
    (Buffers.sftpHandleRead alloc native none).result =
      (Ssh2Python.sftpHandleRead maxlen (if alloc then some native else none)).result := by
  cases alloc with
  | false => rfl
  | true =>
    have hcopy : ((copyBytes native none).andFinally (free (some 0))).result = .ok native.bytes :=
      copyBytes_result native
    exact (result_bind rfl).trans ((result_bind rfl).trans (result_bind hcopy))

theorem readdirOnce_result (maxlen : Nat) (allocAttrs alloc : Bool) (native : NativeEntry) :
    (Buffers.readdirOnce allocAttrs alloc native none).result =
      (Ssh2Python.readdirOnce maxlen
        (if allocAttrs && alloc then some native else none)).result := by
  match allocAttrs, alloc with
  | false, _ => rfl
  | true, false => rfl
  | true, true =>
    have hcopy : ((copyBytes native.toNativeFill none).andFinally (free (some 1))).result =
        .ok native.bytes := copyBytes_result native.toNativeFill
    refine (result_bind rfl).trans ((result_andFinally _ _).trans ?_)
    exact (result_bind rfl).trans ((result_bind rfl).trans ((result_bind rfl).trans
      (result_bind hcopy)))

theorem readdirExOnce_result (longentryMaxlen maxlen : Nat) (allocAttrs alloc allocLong : Bool)
    (native : NativeEntry) :
    (Buffers.readdirExOnce allocAttrs alloc allocLong native none none).result =
      (Ssh2Python.readdirExOnce longentryMaxlen maxlen
        (if allocAttrs && alloc && allocLong then some native else none)).result := by
  match allocAttrs, alloc, allocLong with
  | false, _, _ => rfl
  | true, false, false => rfl
  | true, false, true => rfl
  | true, true, false => rfl
  | true, true, true =>
    have hentry : (copyLongentry native none).result =
        .ok (if 0 < native.rc
          then native.longentry.take (Lib.CString.strlen native.longentry) else []) := by
      rw [copyLongentry]
      split <;> rfl
    refine (result_bind rfl).trans ((result_andFinally _ _).trans ?_)
    refine (result_bind rfl).trans ((result_bind rfl).trans ?_)
    rw [if_neg (by simp)]
    refine (result_bind rfl).trans ((result_bind rfl).trans ((result_bind rfl).trans ?_))
    have hbufs : (do
        let buf ← copyBytes native.toNativeFill none
        let entry ← copyLongentry native none
        return (buf, entry) : Buf (List UInt8 × List UInt8)).result = .ok (native.bytes, _) :=
      (result_bind (copyBytes_result native.toNativeFill)).trans (result_bind hentry)
    exact result_bind ((result_andFinally _ _).trans hbufs)

theorem sftpRealpath_result (path : PyObj) (maxLen : Nat) (alloc : Bool) (native : NativeFill) :
    (Buffers.sftpRealpath path alloc native).result =
      (Ssh2Python.sftpRealpath path maxLen (if alloc then some native else none)).result := by
  unfold Buffers.sftpRealpath Ssh2Python.sftpRealpath
  split
  · rfl
  · cases alloc with
    | false => rfl
    | true =>
      refine (result_bind rfl).trans ?_
      rw [if_pos rfl]
      cases bytesArg path with
      | error e => rfl
      | ok p => rfl

end Ssh2Python
