import Ssh2Python.Write

/-!
# The write loops lose and repeat nothing

`LegalLoop` says what a run of the loop can be, and `LegalLoop.delivers` is its invariant: the
native calls are attempts that resume one another, and what the call returns is the position they
reached; `LegalLoop.pair` is the law of the pair that it returns. `ClientRun.accepted` carries them
over a run of calls that a client resumes after `EAGAIN`, and `clientRun_delivers` puts the parts
together: the bytes `libssh2` accepts over the whole run are the buffer, each byte once and in
order, and each call does its share of it.
-/

namespace Ssh2Python

open Lib.CInt Lib.Transfer

/-! ## One call -/

/-- An error code leaves the function as an exception. -/
theorem returnErrorCode_raises {rc : Int} (hlow : -2 ^ 31 ≤ rc) (hneg : rc < 0)
    (hE : rc ≠ eagain) : ∃ e, returnErrorCode rc = .raised e ∧ e.IsSSH2Error := by
  have hconv : toInt32 rc = rc := toInt32_eq_iff.mpr ⟨hlow, by omega⟩
  obtain ⟨e, he, hs⟩ := handleErrorCodes_raises hneg hE
  exact ⟨e, by simp [returnErrorCode, hconv, he], hs⟩

/-- What a call promises about its native calls when it starts at `ptr` with a buffer of `tot`
bytes: they resume one another up to some position, and a returned pair names that position, which
is the end of the buffer unless the result is `EAGAIN`; no bare code is returned. -/
def Delivers (tot ptr : Nat) (r : WriteRun) : Prop :=
  ∃ b, Resumes tot ptr (r.calls.map WriteCall.attempt) b ∧
    (∀ rc n, r.status = .returned rc n → n = b ∧ (rc ≠ eagain → n = tot)) ∧
    ∀ v, r.status ≠ .code v

theorem Delivers.one {tot ptr : Nat} {c : WriteCall} {s : WriteStatus} (hoff : c.offset = ptr)
    (hlen : c.len = tot - ptr) (hneg : c.rc < 0)
    (hs : (∃ e, s = .raised e) ∨ s = .returned eagain ptr) : Delivers tot ptr ⟨[c], s⟩ := by
  have htaken : c.attempt.taken = 0 := by simp only [WriteCall.attempt]; omega
  refine ⟨ptr, .cons hoff hlen (by omega) ?_, fun rc n h => ?_, fun v h => ?_⟩
  · rw [htaken, Nat.add_zero]
    exact .nil ptr
  · rcases hs with ⟨e, rfl⟩ | rfl
    · cases h
    · cases h
      exact ⟨rfl, fun hne => absurd rfl hne⟩
  · rcases hs with ⟨e, rfl⟩ | rfl <;> cases h

theorem Delivers.cons {tot ptr : Nat} {c : WriteCall} {r : WriteRun} (hoff : c.offset = ptr)
    (hlen : c.len = tot - ptr) (hc : c.rc.toNat ≤ c.len)
    (hr : Delivers tot (ptr + c.rc.toNat) r) : Delivers tot ptr (r.cons c) := by
  obtain ⟨b, hres, hstat⟩ := hr
  exact ⟨b, .cons hoff hlen hc hres, hstat⟩

/-- What a run of the loop is when its native results are legal, from the position `ptr` with the
last result `rc`: each native call is offered the rest of the buffer, and its result ends the loop
or moves the position on. -/
inductive LegalLoop (fn : NativeWrite) (tot : Nat) : Nat → Int → WriteRun → Prop
  | done (rc : Int) : LegalLoop fn tot tot rc ⟨[], .returned rc tot⟩
  | blocked {ptr : Nat} (rc : Int) (left : ptr < tot) : LegalLoop fn tot ptr rc ⟨[], .blocked⟩
  | error {ptr : Nat} (rc : Int) {r : Int} {e : PyExc} (neg : r < 0) (ne : r ≠ eagain) :
      LegalLoop fn tot ptr rc ⟨[⟨fn, ptr, tot - ptr, r⟩], .raised e⟩
  | again {ptr : Nat} (rc : Int) (left : ptr < tot) :
      LegalLoop fn tot ptr rc ⟨[⟨fn, ptr, tot - ptr, eagain⟩], .returned eagain ptr⟩
  | count {ptr : Nat} (rc : Int) {k : Nat} {r : WriteRun} (le : k ≤ tot - ptr)
      (rest : LegalLoop fn tot (ptr + k) k r) :
      LegalLoop fn tot ptr rc (r.cons ⟨fn, ptr, tot - ptr, k⟩)

/-- As long as pointer and remaining length denote the same suffix of the buffer, one turn of the
loop advances both together. -/
theorem writeLoop_legalLoop (fn : NativeWrite) {tot : Nat} (htot : tot < 2 ^ 63)
    (results : List Int) {ptr rem : Nat} (rc : Int) (hsplit : ptr + rem = tot)
    (hlegal : ∀ c ∈ (writeLoop fn tot results ptr rem rc).calls, c.Legal) :
    LegalLoop fn tot ptr rc (writeLoop fn tot results ptr rem rc) := by
  have hdone : toSize ((tot : Int) - (0 : Nat)) = tot := toSize_sub (by omega) (by omega)
  induction results generalizing ptr rem rc with
  | nil =>
    rcases Nat.eq_zero_or_pos rem with rfl | hrem
    · obtain rfl : ptr = tot := by omega
      rw [writeLoop_done, hdone]
      exact .done rc
    · rw [writeLoop_blocked fn tot ptr rc (by omega)]
      exact .blocked rc (by omega)
  | cons r rs ih =>
    rcases Nat.eq_zero_or_pos rem with rfl | hpos
    · obtain rfl : ptr = tot := by omega
      rw [writeLoop_done, hdone]
      exact .done rc
    · have hrem : rem ≠ 0 := by omega
      obtain rfl : rem = tot - ptr := by omega
      rcases result_cases r with ⟨hneg, hE⟩ | rfl | hr
      · rw [writeLoop_error fn tot ptr rc rs hrem hneg hE] at hlegal ⊢
        have hlow := (hlegal _ List.mem_cons_self).1
        obtain ⟨e, he, -⟩ := returnErrorCode_raises hlow hneg hE
        rw [he]
        exact .error rc hneg hE
      · rw [writeLoop_eagain fn tot ptr rc rs hrem]
        have hsize : toSize ((tot : Int) - (tot - ptr : Nat)) = tot - (tot - ptr) :=
          toSize_sub (by omega) (by omega)
        have hptr : tot - (tot - ptr) = ptr := by omega
        rw [hsize, hptr]
        exact .again rc (by omega)
      · rw [writeLoop_count fn tot ptr rc rs hrem hr] at hlegal ⊢
        have hle : r ≤ (tot - ptr : Nat) := (hlegal _ List.mem_cons_self).2
        obtain ⟨k, rfl⟩ := Int.eq_ofNat_of_zero_le hr
        have hrem' : toSize (((tot - ptr : Nat) : Int) - (k : Int)) = tot - ptr - k :=
          toSize_sub (by omega) (by omega)
        rw [hrem', Int.toNat_natCast] at hlegal ⊢
        have hsplit' : ptr + k + (tot - ptr - k) = tot := by omega
        have hrest := ih k hsplit' fun c hc => hlegal c (List.mem_cons_of_mem _ hc)
        exact .count rc (by omega) hrest

/-- **The loop invariant.** The native calls resume one another, and the result names the position
they reached. -/
theorem LegalLoop.delivers {fn : NativeWrite} {tot ptr : Nat} {rc : Int} {r : WriteRun}
    (h : LegalLoop fn tot ptr rc r) : Delivers tot ptr r := by
  induction h with
  | done rc =>
    refine ⟨tot, .nil tot, fun rc' n h => ?_, fun v h => WriteStatus.noConfusion h⟩
    simp only [WriteStatus.returned.injEq] at h
    exact ⟨h.2.symm, fun _ => h.2.symm⟩
  | @blocked ptr rc left =>
    exact ⟨ptr, .nil ptr, fun _ _ h => WriteStatus.noConfusion h,
      fun _ h => WriteStatus.noConfusion h⟩
  | error rc neg ne => exact Delivers.one rfl rfl neg (.inl ⟨_, rfl⟩)
  | again rc left => exact Delivers.one rfl rfl eagain_neg (.inr rfl)
  | @count ptr rc k r le rest ih =>
    refine Delivers.cons rfl rfl ?_ ?_
    · simp only [Int.toNat_natCast]
      exact le
    · simpa only [Int.toNat_natCast] using ih

theorem WriteRun.lastResult_cons (c : WriteCall) (r : WriteRun) :
    (r.cons c).lastResult = r.lastResult.or (some c.rc) := by
  cases hr : r.calls with
  | nil => simp [lastResult, cons, hr]
  | cons d ds =>
    simp only [lastResult, cons, hr, List.getLast?_cons_cons]
    cases hl : (d :: ds).getLast? with
    | none => simp at hl
    | some e => simp

/-- **The law of the pair**: `rc` is the last native result, and what it was before when there was
no native call; with `EAGAIN` something is left to write, otherwise all of it is written. -/
theorem LegalLoop.pair {fn : NativeWrite} {tot ptr : Nat} {rc : Int} {r : WriteRun}
    (h : LegalLoop fn tot ptr rc r) {rc' : Int} {n : Nat} (hs : r.status = .returned rc' n) :
    r.lastResult.or (some rc) = some rc' ∧
      (rc' = eagain ∧ n < tot ∨ n = tot ∧ (0 ≤ rc' ∨ r.calls = [])) := by
  induction h with
  | done rc =>
    simp only [WriteStatus.returned.injEq] at hs
    obtain ⟨rfl, rfl⟩ := hs
    exact ⟨by simp [WriteRun.lastResult], .inr ⟨rfl, .inr rfl⟩⟩
  | blocked => cases hs
  | error => cases hs
  | again rc left =>
    simp only [WriteStatus.returned.injEq] at hs
    obtain ⟨rfl, rfl⟩ := hs
    exact ⟨by simp [WriteRun.lastResult], .inl ⟨rfl, left⟩⟩
  | @count ptr rc k r le rest ih =>
    obtain ⟨hlast, hcases⟩ := ih hs
    refine ⟨by rw [WriteRun.lastResult_cons, Option.or_assoc]; simp [hlast], ?_⟩
    rcases hcases with hleft | ⟨hn, hnonneg | hnil⟩
    · exact .inl hleft
    · exact .inr ⟨hn, .inl hnonneg⟩
    · -- the last native call is the one that brought the loop here
      have hk : (k : Int) = rc' := by simpa [WriteRun.lastResult, hnil] using hlast
      exact .inr ⟨hn, .inl (by omega)⟩

/-- From a position with something left, the pair is the documented one. -/
theorem LegalLoop.documented {fn : NativeWrite} {tot ptr : Nat} {rc : Int} {r : WriteRun}
    (h : LegalLoop fn tot ptr rc r) (hcalls : r.calls ≠ [] ∨ 0 ≤ rc) {rc' : Int} {n : Nat}
    (hs : r.status = .returned rc' n) : r.Documented tot rc' n := by
  have hE := eagain_neg
  obtain ⟨hlast, hcases⟩ := h.pair hs
  cases hr : r.lastResult with
  | none =>
    have hnil : r.calls = [] := by simpa [WriteRun.lastResult] using hr
    have hrc : rc = rc' := by simpa [hr] using hlast
    have hnonneg : 0 ≤ rc' := hrc ▸ hcalls.resolve_left fun hne => hne hnil
    have hne : rc' ≠ eagain := by omega
    refine ⟨by simp [hr, hne], fun he => absurd he hne, fun _ => ⟨hnonneg, ?_⟩⟩
    rcases hcases with ⟨he, -⟩ | ⟨hn, -⟩
    · exact absurd he hne
    · exact hn
  | some c =>
    obtain rfl : c = rc' := by simpa [hr] using hlast
    have hne : r.calls ≠ [] := by
      intro hnil
      simp [WriteRun.lastResult, hnil] at hr
    rcases hcases with ⟨rfl, hlt⟩ | ⟨hn, hnonneg | hnil⟩
    · exact ⟨by simp [hr], fun _ => hlt, fun h => absurd rfl h⟩
    · have hnotE : c ≠ eagain := by omega
      exact ⟨by simp [hr], fun he => absurd he hnotE, fun _ => ⟨hnonneg, hn⟩⟩
    · exact absurd hnil hne

/-- A loop that has something to write makes a call, or waits for the first one. -/
theorem LegalLoop.calls_ne_nil {fn : NativeWrite} {tot ptr : Nat} {rc : Int} {r : WriteRun}
    (h : LegalLoop fn tot ptr rc r) (hlt : ptr < tot) (hs : r.status ≠ .blocked) :
    r.calls ≠ [] := by
  cases h with
  | done => exact absurd hlt (Nat.lt_irrefl _)
  | blocked => exact absurd rfl hs
  | error => simp
  | again => simp
  | count => simp [WriteRun.cons]

/-- An exception is that of a native error, the last result. -/
theorem LegalLoop.raises {fn : NativeWrite} {tot ptr : Nat} {rc : Int} {r : WriteRun}
    (h : LegalLoop fn tot ptr rc r) (hs : r.status.Raises) :
    ∃ c, r.lastResult = some c ∧ c < 0 ∧ c ≠ eagain := by
  induction h with
  | done => exact absurd hs fun ⟨e, he⟩ => WriteStatus.noConfusion he
  | blocked => exact absurd hs fun ⟨e, he⟩ => WriteStatus.noConfusion he
  | error rc neg ne => exact ⟨_, rfl, neg, ne⟩
  | again => exact absurd hs fun ⟨e, he⟩ => WriteStatus.noConfusion he
  | count rc le rest ih =>
    obtain ⟨c, hc, hneg⟩ := ih hs
    exact ⟨c, by rw [WriteRun.lastResult_cons, hc, Option.some_or], hneg⟩

theorem LegalLoop.fn_eq {fn : NativeWrite} {tot ptr : Nat} {rc : Int} {r : WriteRun}
    (h : LegalLoop fn tot ptr rc r) : ∀ w ∈ r.calls, w.fn = fn := by
  induction h with
  | done | blocked => simp
  | error | again => simp
  | count rc le rest ih => exact List.forall_mem_cons.mpr ⟨rfl, ih⟩

theorem writeLoop_resumes (fn : NativeWrite) {tot : Nat} (htot : tot < 2 ^ 63)
    (results : List Int) {ptr rem : Nat} (rc : Int) (hsplit : ptr + rem = tot)
    (hlegal : ∀ c ∈ (writeLoop fn tot results ptr rem rc).calls, c.Legal) :
    Delivers tot ptr (writeLoop fn tot results ptr rem rc) :=
  (writeLoop_legalLoop fn htot results rc hsplit hlegal).delivers

/-- Each native call returned a count, returned zero, or ended the loop. -/
theorem writeLoop_calls_le (fn : NativeWrite) (tot : Nat) (results : List Int) (ptr rem : Nat)
    (rc : Int) :
    let calls := (writeLoop fn tot results ptr rem rc).calls
    calls.length ≤ calls.countP (fun c => 0 < c.rc) + calls.countP (fun c => c.rc = 0) + 1 := by
  induction results generalizing ptr rem rc with
  | nil =>
    rcases Nat.eq_zero_or_pos rem with rfl | hrem
    · simp [writeLoop_done]
    · simp [writeLoop_blocked fn tot ptr rc (Nat.ne_of_gt hrem)]
  | cons r rs ih =>
    rcases Nat.eq_zero_or_pos rem with rfl | hpos
    · simp [writeLoop_done]
    · have hrem : rem ≠ 0 := by omega
      rcases result_cases r with ⟨hneg, hE⟩ | rfl | hr
      · simp [writeLoop_error fn tot ptr rc rs hrem hneg hE]
      · simp [writeLoop_eagain fn tot ptr rc rs hrem]
      · rw [writeLoop_count fn tot ptr rc rs hrem hr]
        have := ih (ptr + r.toNat) (toSize ((rem : Int) - r)) r
        simp only [WriteRun.cons, List.length_cons, List.countP_cons] at this ⊢
        rcases Int.lt_or_eq_of_le hr with hr | hr
        · have hne : r ≠ 0 := by omega
          simp only [hr, hne, decide_true, decide_false, ↓reduceIte, Bool.false_eq_true]
          omega
        · simp only [← hr, decide_true, Int.lt_irrefl, decide_false, ↓reduceIte,
            Bool.false_eq_true] at this ⊢
          omega

/-- The native calls return the results of the script, in order. -/
theorem writeLoop_results (fn : NativeWrite) (tot : Nat) (results : List Int) (ptr rem : Nat)
    (rc : Int) :
    (writeLoop fn tot results ptr rem rc).calls.map WriteCall.rc <+: results := by
  induction results generalizing ptr rem rc with
  | nil =>
    rcases Nat.eq_zero_or_pos rem with rfl | hrem
    · simp [writeLoop_done]
    · simp [writeLoop_blocked fn tot ptr rc (Nat.ne_of_gt hrem)]
  | cons r rs ih =>
    rcases Nat.eq_zero_or_pos rem with rfl | hpos
    · simp [writeLoop_done]
    · have hrem : rem ≠ 0 := by omega
      rcases result_cases r with ⟨hneg, hE⟩ | rfl | hr
      · simp [writeLoop_error fn tot ptr rc rs hrem hneg hE]
      · simp [writeLoop_eagain fn tot ptr rc rs hrem]
      · rw [writeLoop_count fn tot ptr rc rs hrem hr]
        exact List.cons_prefix_cons.mpr ⟨rfl, ih _ _ r⟩

/-- **The loop returns**: with one more result than there are bytes left and zero results, the call
is over. -/
theorem writeLoop_returns (fn : NativeWrite) {tot : Nat} (results : List Int) {ptr rem : Nat}
    (rc : Int) (hrem : rem < 2 ^ 63)
    (hlegal : ∀ c ∈ (writeLoop fn tot results ptr rem rc).calls, c.Legal)
    (henough : rem + results.count 0 < results.length) :
    (writeLoop fn tot results ptr rem rc).status ≠ .blocked := by
  induction results generalizing ptr rem rc with
  | nil => simp at henough
  | cons r rs ih =>
    rcases Nat.eq_zero_or_pos rem with rfl | hpos
    · simp [writeLoop_done]
    · have hne : rem ≠ 0 := by omega
      rcases result_cases r with ⟨hneg, hE⟩ | rfl | hr
      · rw [writeLoop_error fn tot ptr rc rs hne hneg hE, returnErrorCode]
        split <;> simp
      · simp [writeLoop_eagain fn tot ptr rc rs hne]
      · rw [writeLoop_count fn tot ptr rc rs hne hr] at hlegal ⊢
        have hle : r ≤ rem := (hlegal _ List.mem_cons_self).2
        obtain ⟨k, rfl⟩ := Int.eq_ofNat_of_zero_le hr
        have hrem' : toSize ((rem : Int) - (k : Int)) = rem - k :=
          toSize_sub (by omega) (by omega)
        rw [hrem'] at hlegal ⊢
        refine ih k (by omega) (fun c hc => hlegal c (List.mem_cons_of_mem _ hc)) ?_
        simp only [List.count_cons, List.length_cons] at henough
        split at henough
        · omega
        · next hk =>
          simp only [beq_iff_eq] at hk
          omega

/-! ## A run of calls -/

/-- Each of the four functions is the loop, on bytes. -/
theorem WriteOp.apply_eq (op : WriteOp) (arg : PyBytes) (uninit : Int) (results : List Int) :
    op.apply arg uninit results =
      writeLoop op.nativeFn arg.length results 0 arg.length (op.initialRc uninit) := by
  cases op <;> rfl

/-- One call of any of the four functions delivers its argument from the start. -/
theorem WriteOp.apply_delivers (op : WriteOp) {arg : PyBytes} {uninit : Int} {results : List Int}
    (hlegal : ∀ w ∈ (op.apply arg uninit results).calls, w.Legal) :
    Delivers arg.length 0 (op.apply arg uninit results) := by
  rw [op.apply_eq] at hlegal ⊢
  exact writeLoop_resumes _ arg.length_lt' results _ (Nat.zero_add _) hlegal

/-- **One call** of any of the four functions. -/
theorem WriteOp.apply_callDelivers (op : WriteOp) {arg : PyBytes} {uninit : Int}
    {results : List Int} (hlegal : ∀ w ∈ (op.apply arg uninit results).calls, w.Legal) :
    CallDelivers op arg results (op.apply arg uninit results) := by
  obtain ⟨b, hres, hstat, hcode⟩ := op.apply_delivers hlegal
  rw [op.apply_eq] at hlegal hres hstat hcode ⊢
  have hloop := writeLoop_legalLoop op.nativeFn arg.length_lt' results (op.initialRc uninit)
    (Nat.zero_add _) hlegal
  have hcalled (hne : arg.length ≠ 0) := hloop.calls_ne_nil (Nat.pos_of_ne_zero hne)
  refine ⟨⟨hloop.fn_eq, writeLoop_results ..⟩, fun us w vs hsplit => ?_, writeLoop_calls_le ..,
    hcalled, fun rc n hs hne => ⟨?_, ?_⟩, hloop.raises, hcode, fun henough => ?_⟩
  · have hmap := congrArg (List.map WriteCall.attempt) hsplit
    rw [List.map_append, List.map_cons] at hmap
    have hstart : w.offset = 0 + total (us.map WriteCall.attempt) := hres.start_eq hmap
    rw [Nat.zero_add] at hstart
    exact ⟨hstart, (hres.offers_suffix (Nat.zero_le _) w.attempt (by rw [hmap]; simp)).1⟩
  · have hover : (writeLoop op.nativeFn arg.length results 0 arg.length
        (op.initialRc uninit)).status ≠ .blocked := by
      rw [hs]
      exact WriteStatus.noConfusion
    exact hloop.documented (.inl (hcalled hne hover)) hs
  · rw [(hstat rc n hs).1, hres.end_eq, Nat.zero_add]
  · exact writeLoop_returns _ results _ arg.length_lt' hlegal henough

theorem ClientRun.mem_apply {op : WriteOp} {buf : PyBytes} {cs : List ClientCall}
    (h : ClientRun op buf cs) :
    ∀ c ∈ cs, ∃ uninit results, c.run = op.apply c.arg uninit results := by
  induction h with
  | last arg uninit results =>
    intro c hc
    rw [List.mem_singleton.mp hc]
    exact ⟨uninit, results, rfl⟩
  | resume _ _ ih =>
    intro c hc
    rcases List.mem_cons.mp hc with rfl | hc
    · exact ⟨_, _, rfl⟩
    · exact ih c hc

theorem ClientRun.ne_nil {op : WriteOp} {buf : PyBytes} {cs : List ClientCall}
    (h : ClientRun op buf cs) : cs ≠ [] := by
  cases h <;> exact List.cons_ne_nil _ _

/-- What a client run has accepted so far is a prefix of the buffer, and the whole buffer when the
last call wrote its whole argument; the counts the calls return add up in the same way. -/
theorem ClientRun.accepted {op : WriteOp} {buf : PyBytes} {cs : List ClientCall}
    (h : ClientRun op buf cs) (hlegal : ∀ c ∈ cs, ∀ w ∈ c.run.calls, w.Legal) :
    acceptedBytes cs <+: buf.data ∧ (Finished cs →
      acceptedBytes cs = buf.data ∧ (cs.map (·.run.status.bytesWritten)).sum = buf.length) := by
  induction h with
  | last arg uninit results =>
    obtain ⟨b, hres, hstat, -⟩ := op.apply_delivers (hlegal _ List.mem_cons_self)
    have htaken : takenFrom arg.data ((op.apply arg uninit results).calls.map WriteCall.attempt) =
        arg.data.take b := hres.taken_eq_take
    simp only [acceptedBytes, List.flatMap_cons, List.flatMap_nil, List.append_nil, htaken]
    refine ⟨List.take_prefix b arg.data, ?_⟩
    rintro ⟨c, hlast, rc, hrc⟩
    obtain rfl : c = ⟨arg, op.apply arg uninit results⟩ := by simpa using hlast.symm
    have hrc' : (op.apply arg uninit results).status = .returned rc arg.length := hrc
    obtain rfl : arg.length = b := (hstat rc _ hrc').1
    exact ⟨List.take_length, by simp [hrc']⟩
  | @resume arg uninit results n cs again rest ih =>
    obtain ⟨b, hres, hstat, -⟩ := op.apply_delivers (hlegal _ List.mem_cons_self)
    obtain rfl : n = b := (hstat eagain n again).1
    have hn : n ≤ arg.length := hres.le_length (Nat.zero_le _)
    have htaken : takenFrom arg.data ((op.apply arg uninit results).calls.map WriteCall.attempt) =
        arg.data.take n := hres.taken_eq_take
    obtain ⟨hpre, hfinish⟩ := ih fun c hc => hlegal c (List.mem_cons_of_mem _ hc)
    have hsplit : acceptedBytes (⟨arg, op.apply arg uninit results⟩ :: cs) =
        arg.data.take n ++ acceptedBytes cs := by
      simp only [acceptedBytes, List.flatMap_cons, htaken]
    rw [hsplit]
    constructor
    · obtain ⟨t, ht⟩ := hpre
      refine ⟨t, ?_⟩
      rw [List.append_assoc, ht, PyBytes.data_drop, List.take_append_drop]
    · rintro ⟨c, hlast, hc⟩
      rw [List.getLast?_cons_of_ne_nil rest.ne_nil] at hlast
      obtain ⟨hall, hsum⟩ := hfinish ⟨c, hlast, hc⟩
      rw [hall, PyBytes.data_drop, List.take_append_drop]
      refine ⟨rfl, ?_⟩
      rw [PyBytes.length_drop] at hsum
      simp only [List.map_cons, List.sum_cons, again, WriteStatus.bytesWritten_returned, hsum]
      omega

/-- A run that stopped without an exception wrote everything. -/
theorem ClientRun.finished {op : WriteOp} {buf : PyBytes} {cs : List ClientCall}
    (h : ClientRun op buf cs) (hlegal : ∀ c ∈ cs, ∀ w ∈ c.run.calls, w.Legal)
    (hraise : ∀ c ∈ cs, ¬c.run.status.Raises) (hstop : Stopped cs) : Finished cs := by
  obtain ⟨c, hlast, hblocked, hagain⟩ := hstop
  have hc : c ∈ cs := List.mem_of_getLast? hlast
  obtain ⟨uninit, results, hrun⟩ := h.mem_apply c hc
  obtain ⟨b, -, hstat, hcode⟩ := op.apply_delivers (hrun ▸ hlegal c hc)
  rw [← hrun] at hstat hcode
  refine ⟨c, hlast, ?_⟩
  cases hs : c.run.status with
  | returned rc n =>
    have hrc : rc ≠ eagain := fun hE => hagain n (by rw [hs, hE])
    rw [(hstat rc n hs).2 hrc]
    exact ⟨rc, rfl⟩
  | code v => exact absurd hs (hcode v)
  | raised e => exact absurd ⟨e, hs⟩ (hraise c hc)
  | blocked => exact absurd hs hblocked

/-- **Nothing is lost or repeated.** Over every run of calls to one of the four functions in which
the client resumes after `EAGAIN`: the bytes accepted so far are a prefix of the buffer; once the
run stopped, or a call wrote its whole argument, they are all of it and the counts add up to its
length, as long as no call raised; and each call offers exactly what is left, makes no more native
calls than there were results that moved on, returns `EAGAIN` or raises only when the native side
did, and returns when that has answered often enough. -/
theorem clientRun_delivers (op : WriteOp) (buf : PyBytes) (cs : List ClientCall)
    (hrun : ClientRun op buf cs) (hlegal : ∀ c ∈ cs, ∀ w ∈ c.run.calls, w.Legal) :
    acceptedBytes cs <+: buf.data ∧
    ((∀ c ∈ cs, ¬c.run.status.Raises) → Stopped cs ∨ Finished cs →
      acceptedBytes cs = buf.data ∧ (cs.map (·.run.status.bytesWritten)).sum = buf.length) ∧
    ∀ c ∈ cs, ∀ uninit results, c.run = op.apply c.arg uninit results →
      CallDelivers op c.arg results c.run := by
  obtain ⟨hpre, hfinish⟩ := hrun.accepted hlegal
  refine ⟨hpre, fun hraise hend => hfinish (hend.elim (hrun.finished hlegal hraise) id), ?_⟩
  intro c hc uninit results hc'
  have hcall := hlegal c hc
  rw [hc'] at hcall ⊢
  exact op.apply_callDelivers hcall

/-- Three bytes written in two calls: two bytes and then `EAGAIN`, a zero result and then the last
byte. -/
def exampleBuf : PyBytes := ⟨[10, 20, 30], by decide⟩

def exampleRun (op : WriteOp) : List ClientCall :=
  [⟨exampleBuf, op.apply exampleBuf 7 [2, eagain]⟩,
   ⟨exampleBuf.drop 2, op.apply (exampleBuf.drop 2) 7 [0, 1]⟩]

theorem exampleRun_isRun (op : WriteOp) : ClientRun op exampleBuf (exampleRun op) :=
  .resume (by cases op <;> rfl) (.last (exampleBuf.drop 2) 7 [0, 1])

theorem exampleRun_runs (op : WriteOp) : (exampleRun op).map ClientCall.run =
    [⟨[⟨op.nativeFn, 0, 3, 2⟩, ⟨op.nativeFn, 2, 1, eagain⟩], .returned eagain 2⟩,
     ⟨[⟨op.nativeFn, 0, 1, 0⟩, ⟨op.nativeFn, 0, 1, 1⟩], .returned 1 1⟩] := by
  cases op <;> rfl

theorem exampleRun_mem {op : WriteOp} {c : ClientCall} (hc : c ∈ exampleRun op) :
    (∀ w ∈ c.run.calls, w.Legal) ∧ ¬c.run.status.Raises := by
  have hrun := List.mem_map_of_mem (f := ClientCall.run) hc
  rw [exampleRun_runs, List.mem_pair] at hrun
  rcases hrun with hrun | hrun <;> rw [hrun] <;> simp [WriteCall.Legal, WriteStatus.Raises, eagain]

theorem exampleRun_stopped (op : WriteOp) : Stopped (exampleRun op) := by
  have hlast : (op.apply (exampleBuf.drop 2) 7 [0, 1]).status = .returned 1 1 := by
    cases op <;> rfl
  refine ⟨⟨exampleBuf.drop 2, op.apply (exampleBuf.drop 2) 7 [0, 1]⟩, rfl, ?_, fun n => ?_⟩ <;>
    rw [hlast] <;> simp [eagain]

theorem clientRun_delivers_example :
    acceptedBytes (exampleRun .write) = [10, 20, 30] ∧
      acceptedBytes (exampleRun (.writeEx 5)) = [10, 20, 30] ∧
      acceptedBytes (exampleRun .writeStderr) = [10, 20, 30] ∧
      acceptedBytes (exampleRun .sftpWrite) = [10, 20, 30] := by
  refine ⟨?_, ?_, ?_, ?_⟩ <;>
    exact ((clientRun_delivers _ exampleBuf _ (exampleRun_isRun _) fun c hc =>
      (exampleRun_mem hc).1).2.1 (fun c hc => (exampleRun_mem hc).2)
        (.inl (exampleRun_stopped _))).1

end Ssh2Python
