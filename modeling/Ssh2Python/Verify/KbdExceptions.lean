import Ssh2Python.Verify.KeyboardInteractive

/-!
# Exceptions of a keyboard-interactive run

An exception of `kbd_callback` reaches `libssh2` as a callback that returned: the slots that were
not filled in are sent as they are, empty, and the exception stays pending. `KbdWay.sent_iff`
says when such a round sends nothing else, `resultUnderException_raises_iff` what the caller gets
while an exception is pending, and `exceptionContained_iff` puts them together.
-/

namespace Ssh2Python

/-! ## What a round sends -/

/-- Only when every slot was filled in is the array what the round put there. -/
theorem KbdRound.slots_eq_filled_iff (r : KbdRound) (n : Nat) :
    r.slots n = r.filled ↔ n ≤ r.filled.length := by
  rw [slots, List.append_right_eq_self, List.replicate_eq_nil_iff, Nat.sub_eq_zero_iff_le]

/-- The loop that raises leaves the slot at which it raised. -/
theorem fillResponses_raised_filled {xs : List PyObj} {k i : Nat} {e : PyExc}
    (h : (fillResponses xs k i).status = .raised e) :
    (fillResponses xs k i).filled.length < k := by
  induction k generalizing i with
  | zero => cases h
  | succ k ih =>
    rcases response_cases xs i with ⟨-, hx⟩ | ⟨-, x, e', hx, he⟩ | ⟨-, x, b, hx, hb⟩
    · rw [fillResponses_end hx] at h
      cases h
    · rw [fillResponses_error hx he]
      exact Nat.succ_pos k
    · rw [fillResponses_next hx hb] at h ⊢
      have hlt := ih h
      simp only [KbdRound.push, List.length_cons]
      omega

/-- Taking responses that raises fills in fewer slots than there are prompts. -/
theorem takeResponses_raised_filled {n : Nat} {res : CallbackResult} (hn : n ≠ 0)
    (h : (takeResponses n res).Raised) : (takeResponses n res).filled.length < n := by
  obtain ⟨e, he⟩ := h
  cases res with
  | list xs => exact fillResponses_raised_filled he
  | none =>
    rw [takeResponses, if_neg hn]
    exact Nat.pos_of_ne_zero hn
  | other => exact Nat.pos_of_ne_zero hn
  | raised e' => exact Nat.pos_of_ne_zero hn

section Round

variable {fate : PendingFate} {cb : UserCallback} {pending : Bool} {k : Nat} {req : InfoRequest}

/-- **What a round that raised sends**: nothing of its own making exactly when it was asked
nothing. -/
theorem KbdWay.sent_iff {r : KbdRound} (h : KbdWay fate cb pending k req r) (hraised : r.Raised) :
    r.slots req.numPrompts = r.filled ↔ req.numPrompts = 0 := by
  rw [KbdRound.slots_eq_filled_iff]
  cases h with
  | unasked hn hprompts =>
    rw [hn]
    exact iff_of_true (Nat.zero_le _) rfl
  | pending hn hset => exact Nat.le_zero
  | undecoded hn hunset hprompts => exact Nat.le_zero
  | asked hn hunset hprompts =>
    exact iff_of_false (Nat.not_le_of_lt (takeResponses_raised_filled hn hraised)) hn

/-- A round without prompts does not leave the list. -/
theorem KbdWay.unasked_in_bounds {r : KbdRound} (h : KbdWay fate cb pending k req r)
    (hn : req.numPrompts = 0) : r.status ≠ .outOfBounds := by
  cases h with
  | unasked hn hprompts => exact (takeResponses_zero _).2.2
  | pending hasks hset => exact absurd hn hasks
  | undecoded hasks hunset hprompts => exact absurd hn hasks
  | asked hasks hunset hprompts => exact absurd hn hasks

/-- **When a round with prompts completes**: no exception is pending, and the user callback
answers. -/
theorem KbdWay.completed_iff {r : KbdRound} (h : KbdWay fate cb pending k req r)
    (hn : req.numPrompts ≠ 0) :
    r.status = .completed ↔ pending = false ∧ CallAnswers cb k req := by
  cases h with
  | unasked hzero hprompts => exact absurd hzero hn
  | pending hasks hset =>
    refine iff_of_false KbdStatus.noConfusion fun h => ?_
    cases hset.symm.trans h.1
  | undecoded hasks hunset hprompts =>
    refine iff_of_false KbdStatus.noConfusion ?_
    rintro ⟨-, prompts, xs, h, -⟩
    cases hprompts.symm.trans h
  | @asked hasks hunset prompts hprompts =>
    rw [CallAnswers, and_iff_right hunset]
    constructor
    · intro hs
      cases hres : cb k req.name req.instruction prompts with
      | list xs =>
        rw [hres] at hs
        refine ⟨prompts, xs, hprompts, hres, fun i hi => ?_⟩
        obtain ⟨x, b, hx, hb, -⟩ := fillResponses_slot hs hi
        exact ⟨x, b, hx, hb⟩
      | none =>
        rw [hres, takeResponses, if_neg hn] at hs
        cases hs
      | other =>
        rw [hres] at hs
        cases hs
      | raised e =>
        rw [hres] at hs
        cases hs
    · rintro ⟨prompts', xs, h, hres, hall⟩
      obtain rfl := Except.ok.inj (hprompts.symm.trans h)
      rw [hres]
      exact fillResponses_completes fun i hi => hall i hi

end Round

/-! ## What becomes of the exception -/

theorem ssh2Error_ne_systemError {e : PyExc} (h : e.IsSSH2Error) : e.cls ≠ .systemError := by
  intro hcls
  rw [PyExc.IsSSH2Error, hcls] at h
  exact absurd h (by decide)

/-- The method raises something else than a `SystemError` exactly when the native call failed and no
exception is pending any more or the one that tells of the failure takes its place. -/
theorem resultUnderException_raises_iff (fate : PendingFate) (pending : Bool) (rc : Int) :
    (∃ e, resultUnderException fate pending rc = .error e ∧ e.cls ≠ .systemError) ↔
      (rc < 0 ∧ rc ≠ eagain) ∧ (pending = false ∨ fate.replaces rc = true) := by
  rw [resultUnderException]
  by_cases hreturns : 0 ≤ rc ∨ rc = eagain
  · rw [handleErrorCodes_returns hreturns]
    refine iff_of_false ?_ fun h => ?_
    · rintro ⟨e, he, hne⟩
      cases pending with
      | true =>
        cases he
        exact hne rfl
      | false => cases he
    · rcases hreturns with h0 | hE
      · omega
      · exact h.1.2 hE
  · rw [not_or, Int.not_le] at hreturns
    obtain ⟨e, he, hssh2⟩ := handleErrorCodes_raises hreturns.1 hreturns.2
    rw [he, and_iff_right hreturns]
    by_cases hstays : pending = true ∧ fate.replaces rc = false
    · simp only [if_pos hstays]
      refine iff_of_false ?_ fun h => by simp [hstays.1, hstays.2] at h
      rintro ⟨e', he', hne⟩
      cases he'
      exact hne rfl
    · simp only [if_neg hstays]
      refine iff_of_true ⟨e, rfl, ssh2Error_ne_systemError hssh2⟩ ?_
      rw [not_and_or, Bool.not_eq_true, Bool.not_eq_false] at hstays
      exact hstays

/-! ## A run -/

section Run

variable {fate : PendingFate} {cb : UserCallback} {reqs : List InfoRequest}

/-- What a round of the run that raised sends. -/
theorem kbdRounds_sent_iff {k : Nat} {r : KbdRound} {req : InfoRequest}
    (hr : (kbdRounds fate (some cb) false 0 reqs)[k]? = some r) (hreq : reqs[k]? = some req)
    (hraised : r.Raised) : r.slots req.numPrompts = r.filled ↔ req.numPrompts = 0 := by
  obtain ⟨req', hreq', rfl⟩ := kbdRounds_get hr
  obtain rfl := Option.some.inj (hreq.symm.trans hreq')
  exact (kbdCallback_way ..).sent_iff hraised

/-- What the rounds with prompts need: no exception is pending, and the user callback answers. -/
theorem kbdRounds_unraised_iff (fate : PendingFate) (cb : UserCallback) (reqs : List InfoRequest) :
    ((∀ r ∈ kbdRounds fate (some cb) false 0 reqs, r.status ≠ .outOfBounds) ∧
      ∀ (k : Nat) r req, (kbdRounds fate (some cb) false 0 reqs)[k]? = some r →
        reqs[k]? = some req → r.Raised → req.numPrompts = 0) ↔
    ∀ (k : Nat) req, reqs[k]? = some req → req.numPrompts ≠ 0 →
      pendingAfter fate cb false 0 (reqs.take k) = false ∧ CallAnswers cb k req := by
  constructor
  · rintro ⟨hbounds, hraised⟩ k req hreq hn
    have hround := kbdRounds_all hbounds hreq
    rw [Nat.zero_add] at hround
    refine ((kbdCallback_way fate ..).completed_iff hn).mp ?_
    cases hs : (kbdCallback fate (some cb) (pendingAfter fate cb false 0 (reqs.take k)) k
        req).status with
    | completed => rfl
    | raised e => exact absurd (hraised k _ req hround hreq ⟨e, hs⟩) hn
    | outOfBounds => exact absurd hs (hbounds _ (List.mem_of_getElem? hround))
  · intro h
    have hstatus {k : Nat} {r : KbdRound}
        (hr : (kbdRounds fate (some cb) false 0 reqs)[k]? = some r) :
        ∃ req, reqs[k]? = some req ∧ (req.numPrompts ≠ 0 → r.status = .completed) ∧
          r.status ≠ .outOfBounds := by
      obtain ⟨req, hreq, rfl⟩ := kbdRounds_get hr
      rw [Nat.zero_add]
      by_cases hn : req.numPrompts = 0
      · exact ⟨req, hreq, fun hne => absurd hn hne, (kbdCallback_way ..).unasked_in_bounds hn⟩
      · have hs := ((kbdCallback_way fate ..).completed_iff hn).mpr (h k req hreq hn)
        exact ⟨req, hreq, fun _ => hs, fun hout => KbdStatus.noConfusion (hs.symm.trans hout)⟩
    constructor
    · intro r hr
      obtain ⟨k, hk⟩ := List.mem_iff_getElem?.mp hr
      obtain ⟨-, -, -, hbounds⟩ := hstatus hk
      exact hbounds
    · rintro k r req hr hreq ⟨e, he⟩
      obtain ⟨req', hreq', hcompleted, -⟩ := hstatus hr
      obtain rfl := Option.some.inj (hreq.symm.trans hreq')
      by_contra hn
      cases he.symm.trans (hcompleted hn)

end Run

/-- **When an exception is contained**: for every user callback, every sequence of requests in which
a round raised and every outcome of the exchange, exactly when each request with prompts came with
no exception pending and was answered, the native call failed, and no exception is pending then or
the one that tells of the failure takes its place. -/
theorem exceptionContained_iff (fate : PendingFate) (username : PyObj) (cb : UserCallback)
    (before : Option UserCallback) (reqs : List InfoRequest) (rc : Int)
    (hraised : ∃ r ∈ (userauthKeyboardinteractiveCallback fate username cb before reqs rc).rounds,
      r.Raised) :
    ExceptionContained reqs
        (userauthKeyboardinteractiveCallback fate username cb before reqs rc) ↔
      (∀ (k : Nat) req, reqs[k]? = some req → req.numPrompts ≠ 0 →
        pendingAfter fate cb false 0 (reqs.take k) = false ∧ CallAnswers cb k req) ∧
      (rc < 0 ∧ rc ≠ eagain) ∧
      (pendingAfter fate cb false 0 reqs = false ∨ fate.replaces rc = true) := by
  have hrounds := kbdRounds_unraised_iff fate cb reqs
  unfold userauthKeyboardinteractiveCallback at hraised ⊢
  cases hu : bytesArg username with
  | error e =>
    -- the user name was rejected, and no round has run
    simp [hu] at hraised
  | ok b =>
    simp only
    by_cases hout : ∃ r ∈ kbdRounds fate (some cb) false 0 reqs, r.status = .outOfBounds
    · refine iff_of_false ?_ ?_
      · rintro ⟨-, ⟨e, he, -⟩, -⟩
        rw [if_pos hout] at he
        cases he
      · rintro ⟨hanswered, -⟩
        obtain ⟨r, hr, hs⟩ := hout
        exact (hrounds.mpr hanswered).1 r hr hs
    · have hbounds : ∀ r ∈ kbdRounds fate (some cb) false 0 reqs, r.status ≠ .outOfBounds :=
        fun r hr hs => hout ⟨r, hr, hs⟩
      have hresult := resultUnderException_raises_iff fate (pendingAfter fate cb false 0 reqs) rc
      rw [if_neg hout, kbdRounds_leavesPending hbounds]
      constructor
      · rintro ⟨hsent, ⟨e, he, hne⟩, -⟩
        refine ⟨hrounds.mp ⟨hbounds, fun k r req hr hreq hraised => ?_⟩,
          hresult.mp ⟨e, Option.some.inj he, hne⟩⟩
        exact (kbdRounds_sent_iff hr hreq hraised).mp (hsent k r req hr hreq hraised)
      · rintro ⟨hanswered, hrest⟩
        obtain ⟨e, he, hne⟩ := hresult.mpr hrest
        refine ⟨fun k r req hr hreq hraised => ?_, ⟨e, congrArg some he, hne⟩, rfl⟩
        have hunasked := (hrounds.mpr hanswered).2 k r req hr hreq hraised
        exact (kbdRounds_sent_iff hr hreq hraised).mpr hunasked

/-- A callback that raises in the first round. -/
def raisesFirst : UserCallback := fun k _ _ _ =>
  if k = 0 then .raised { cls := .other } else .list [.bytes ⟨[120], by decide⟩]

/-- A request without prompts, one more, and a prompt. -/
def unaskedTwice : List InfoRequest := [⟨[], [], []⟩, ⟨[], [], []⟩, ⟨[], [], [[80]]⟩]

/-- It raises when it is asked nothing, discards that when it is asked nothing again and answers the
prompt; the server does not accept what it says. -/
theorem exceptionContained_discarded :
    ExceptionContained unaskedTwice
      (userauthKeyboardinteractiveCallback ⟨fun _ => true, fun _ => false⟩
        (.bytes ⟨[117], by decide⟩) raisesFirst none unaskedTwice (-18)) := by
  refine (exceptionContained_iff _ _ raisesFirst none _ (-18)
    ⟨_, List.mem_cons_self, { cls := .other }, rfl⟩).mpr
      ⟨fun k req hreq hn => ?_, by decide, .inl (by decide)⟩
  -- only the last request has a prompt
  have hk : k = 2 := by
    match k, hreq with
    | 0, hreq => exact absurd (by rw [← Option.some.inj hreq]; rfl) hn
    | 1, hreq => exact absurd (by rw [← Option.some.inj hreq]; rfl) hn
    | 2, _ => rfl
  subst hk
  obtain rfl := Option.some.inj hreq
  refine ⟨by decide, [PyStr.ofChars "P".toList], [.bytes ⟨[120], by decide⟩], by decide, rfl,
    fun i hi => ?_⟩
  obtain rfl : i = 0 := Nat.lt_one_iff.mp hi
  exact ⟨_, ⟨[120], by decide⟩, rfl, rfl⟩

/-- Asked for one response it raises, and an empty response is sent in its place. -/
theorem exception_sends_empty :
    (kbdCallback .stays (some raisesFirst) false 0 ⟨[], [], [[80]]⟩).slots 1 = [.zero] ∧
      ¬ExceptionContained [⟨[], [], [[80]]⟩]
        (userauthKeyboardinteractiveCallback .stays (.bytes ⟨[117], by decide⟩) raisesFirst none
          [⟨[], [], [[80]]⟩] (-18)) := by
  refine ⟨by decide, fun h => ?_⟩
  have hsent := h.sent 0 _ _ rfl rfl ⟨_, rfl⟩
  revert hsent
  decide

end Ssh2Python
