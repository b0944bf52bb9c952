import Ssh2Python.KeyboardInteractive

/-!
# When a keyboard-interactive run is right

Each lemma of the first section says what one outcome of the loop over the responses means.
`kbdCallback_way` lists the ways of one round, `KbdWay.ok_iff` says which of them are right, and
`kbdCallback_leavesPending` what they leave to the next round. `kbdRounds_ok_iff` is any number of
rounds, and `userauthKeyboardinteractiveCallback_ok_iff` the method.
-/

namespace Ssh2Python

open Lib.CInt

/-! ## The loop over the responses -/

section Fill

variable {xs : List PyObj} {i k : Nat}

theorem fillResponses_end (h : xs[i]? = none) :
    fillResponses xs (k + 1) i = { taken := [i], status := .outOfBounds } := by
  rw [fillResponses, h]

theorem fillResponses_error {x : PyObj} {e : PyExc} (h : xs[i]? = some x)
    (he : responseBytes x = .error e) :
    fillResponses xs (k + 1) i = { taken := [i], status := .raised e } := by
  simp only [fillResponses, h, he]

theorem fillResponses_next {x : PyObj} {b : PyBytes} (h : xs[i]? = some x)
    (hb : responseBytes x = .ok b) :
    fillResponses xs (k + 1) i =
      (fillResponses xs k (i + 1)).push i ⟨b.data, toUInt32 b.length⟩ := by
  simp only [fillResponses, h, hb]

/-- The three things that can happen at an index. -/
theorem response_cases (xs : List PyObj) (i : Nat) :
    (xs.length ≤ i ∧ xs[i]? = none) ∨
    (i < xs.length ∧ ∃ x e, xs[i]? = some x ∧ responseBytes x = .error e) ∨
    (i < xs.length ∧ ∃ x b, xs[i]? = some x ∧ responseBytes x = .ok b) := by
  rcases Nat.lt_or_ge i xs.length with h | h
  · have hx : xs[i]? = some xs[i] := List.getElem?_eq_getElem h
    cases hr : responseBytes xs[i] with
    | error e => exact .inr (.inl ⟨h, _, e, hx, hr⟩)
    | ok b => exact .inr (.inr ⟨h, _, b, hx, hr⟩)
  · exact .inl ⟨h, List.getElem?_eq_none h⟩

/-- An index outside the list is taken exactly when the loop runs over its end. -/
theorem fillResponses_taken :
    (∀ j ∈ (fillResponses xs k i).taken, j < xs.length) ↔
      (fillResponses xs k i).status ≠ .outOfBounds := by
  induction k generalizing i with
  | zero => simp [fillResponses]
  | succ k ih =>
    rcases response_cases xs i with ⟨hi, hx⟩ | ⟨hi, x, e, hx, he⟩ | ⟨hi, x, b, hx, hb⟩
    · simp [fillResponses_end hx, hi]
    · simp [fillResponses_error hx he, hi]
    · rw [fillResponses_next hx hb]
      simp only [KbdRound.push, List.forall_mem_cons]
      exact (and_iff_right hi).trans ih

/-- Running over the end: the list is too short and everything in it could be converted. -/
theorem fillResponses_outOfBounds (hi : i ≤ xs.length)
    (h : (fillResponses xs k i).status = .outOfBounds) :
    xs.length < i + k ∧ ∀ (j : Nat) x, i ≤ j → xs[j]? = some x → ∃ b, responseBytes x = .ok b := by
  induction k generalizing i with
  | zero => cases h
  | succ k ih =>
    rcases response_cases xs i with ⟨hlen, hx⟩ | ⟨-, x, e, hx, he⟩ | ⟨hlt, x, b, hx, hb⟩
    · refine ⟨by omega, fun j x hj hxj => ?_⟩
      have := (List.getElem?_eq_some_iff.mp hxj).1
      omega
    · rw [fillResponses_error hx he] at h
      cases h
    · rw [fillResponses_next hx hb] at h
      obtain ⟨hlen, hrest⟩ := ih hlt h
      refine ⟨by omega, fun j y hj hy => ?_⟩
      rcases Nat.eq_or_lt_of_le hj with rfl | hj
      · rw [hx] at hy
        exact ⟨b, Option.some.inj hy ▸ hb⟩
      · exact hrest j y hj hy

/-- Completing: every response was there, and its slot holds it. -/
theorem fillResponses_completed (h : (fillResponses xs k i).status = .completed) :
    ∀ j < k, ∃ x b, xs[i + j]? = some x ∧ responseBytes x = .ok b ∧
      (fillResponses xs k i).filled[j]? = some ⟨b.data, toUInt32 b.length⟩ := by
  induction k generalizing i with
  | zero =>
    intro j hj
    omega
  | succ k ih =>
    rcases response_cases xs i with ⟨-, hx⟩ | ⟨-, x, e, hx, he⟩ | ⟨-, x, b, hx, hb⟩
    · rw [fillResponses_end hx] at h
      cases h
    · rw [fillResponses_error hx he] at h
      cases h
    · rw [fillResponses_next hx hb] at h ⊢
      intro j hj
      cases j with
      | zero => exact ⟨x, b, hx, hb, rfl⟩
      | succ j =>
        obtain ⟨y, c, hy, hc, hslot⟩ := ih h j (by omega)
        refine ⟨y, c, ?_, hc, hslot⟩
        rw [← hy]
        congr 1
        omega

theorem fillResponses_raised {e : PyExc} (h : (fillResponses xs k i).status = .raised e) :
    ∃ j < k, ∃ x e, xs[i + j]? = some x ∧ responseBytes x = .error e := by
  induction k generalizing i with
  | zero => cases h
  | succ k ih =>
    rcases response_cases xs i with ⟨-, hx⟩ | ⟨-, x, e', hx, he⟩ | ⟨-, x, b, hx, hb⟩
    · rw [fillResponses_end hx] at h
      cases h
    · exact ⟨0, by omega, x, e', hx, he⟩
    · rw [fillResponses_next hx hb] at h
      obtain ⟨j, hj, y, e', hy, he⟩ := ih h
      refine ⟨j + 1, by omega, y, e', ?_, he⟩
      rw [← hy]
      congr 1
      omega

/-- A loop that finds every response and can convert it completes. -/
theorem fillResponses_completes
    (h : ∀ j < k, ∃ x b, xs[j]? = some x ∧ responseBytes x = .ok b) :
    (fillResponses xs k 0).status = .completed := by
  cases hs : (fillResponses xs k 0).status with
  | completed => rfl
  | raised e =>
    obtain ⟨j, hj, x, e', hx, he⟩ := fillResponses_raised hs
    obtain ⟨y, b, hy, hb⟩ := h j hj
    rw [Nat.zero_add] at hx
    obtain rfl := Option.some.inj (hx.symm.trans hy)
    cases he.symm.trans hb
  | outOfBounds =>
    have hlt := (fillResponses_outOfBounds (Nat.zero_le _) hs).1
    obtain ⟨x, b, hx, -⟩ := h xs.length (by omega)
    exact absurd (List.getElem?_eq_some_iff.mp hx).1 (Nat.lt_irrefl _)

/-- The slot of a completed round that holds the response of its index. -/
theorem fillResponses_slot (h : (fillResponses xs k 0).status = .completed) {j : Nat} (hj : j < k) :
    ∃ x b, xs[j]? = some x ∧ responseBytes x = .ok b ∧
      ((fillResponses xs k 0).slots k)[j]? = some ⟨b.data, toUInt32 b.length⟩ := by
  obtain ⟨x, b, hx, hb, hslot⟩ := fillResponses_completed h j hj
  rw [Nat.zero_add] at hx
  refine ⟨x, b, hx, hb, ?_⟩
  rw [← hslot]
  exact List.getElem?_append_left (List.getElem?_eq_some_iff.mp hslot).1

end Fill

/-! ## One round -/

theorem responsesFit_of_ok {xs : List PyObj} {n : Nat}
    (h : RoundOk n (.list xs) (fillResponses xs n 0)) : ResponsesFit n (.list xs) := by
  obtain ⟨htaken, hslots, hshort⟩ := h
  have hin := fillResponses_taken.mp htaken
  cases hs : (fillResponses xs n 0).status with
  | outOfBounds => exact absurd hs hin
  | raised e =>
    obtain ⟨j, hj, x, e', hx, he⟩ := fillResponses_raised hs
    rw [Nat.zero_add] at hx
    exact .inl ⟨j, hj, x, e', hx, he⟩
  | completed =>
    refine .inr ⟨?_, fun k hk x b hx hb => ?_⟩
    · by_contra hlt
      obtain ⟨e, he⟩ := hshort (by omega)
      rw [hs] at he
      cases he
    · obtain ⟨x', b', hx', hb', hslot⟩ := hslots hs k hk
      obtain ⟨y, c, hy, hc, hfilled⟩ := fillResponses_slot hs hk
      -- both slots hold the bytes of the one response
      obtain rfl := Option.some.inj (hx'.symm.trans hx)
      obtain rfl := Option.some.inj (hx'.symm.trans hy)
      obtain rfl := Except.ok.inj (hb'.symm.trans hb)
      obtain rfl := Except.ok.inj (hb'.symm.trans hc)
      have hlen : b'.length = toUInt32 b'.length :=
        congrArg KbdResponse.length (Option.some.inj (hslot.symm.trans hfilled))
      have hlt := toUInt32_lt b'.length
      omega

theorem ok_of_responsesFit {xs : List PyObj} {n : Nat} (h : ResponsesFit n (.list xs)) :
    RoundOk n (.list xs) (fillResponses xs n 0) := by
  have hin : (fillResponses xs n 0).status ≠ .outOfBounds := by
    intro hout
    obtain ⟨hlen, hconv⟩ := fillResponses_outOfBounds (Nat.zero_le _) hout
    rcases h with ⟨k, -, x, e, hx, he⟩ | ⟨hle, -⟩
    · obtain ⟨b, hb⟩ := hconv k x (Nat.zero_le k) hx
      cases he.symm.trans hb
    · omega
  refine ⟨fillResponses_taken.mpr hin, fun hs k hk => ?_, fun hlt => ?_⟩
  · obtain ⟨x, b, hx, hb, hslot⟩ := fillResponses_slot hs hk
    refine ⟨x, b, hx, hb, hslot.trans ?_⟩
    rcases h with ⟨k', hk', y, e, hy, he⟩ | ⟨-, hfits⟩
    · obtain ⟨z, c, hz, hc, -⟩ := fillResponses_slot hs hk'
      obtain rfl := Option.some.inj (hy.symm.trans hz)
      cases he.symm.trans hc
    · have hlt := hfits k hk x b hx hb
      rw [toUInt32_eq (by omega) (by omega)]
  · cases hs : (fillResponses xs n 0).status with
    | outOfBounds => exact absurd hs hin
    | raised e => exact ⟨e, hs⟩
    | completed =>
      obtain ⟨x, b, hx, -, -⟩ := fillResponses_slot hs hlt
      have hlast := (List.getElem?_eq_some_iff.mp hx).1
      omega

theorem fillResponses_ok_iff (xs : List PyObj) (n : Nat) :
    RoundOk n (.list xs) (fillResponses xs n 0) ↔ ResponsesFit n (.list xs) :=
  ⟨responsesFit_of_ok, ok_of_responsesFit⟩

theorem takeResponses_ok_iff (n : Nat) (res : CallbackResult) :
    RoundOk n res (takeResponses n res) ↔ ResponsesFit n res := by
  cases res with
  | list xs => exact fillResponses_ok_iff xs n
  | none =>
    refine iff_of_true ?_ trivial
    by_cases hn : n = 0
    · rw [takeResponses, if_pos hn]
      exact ⟨rfl, fun _ => hn⟩
    · rw [takeResponses, if_neg hn]
      exact ⟨rfl, fun h => KbdStatus.noConfusion h⟩
  | other => exact iff_of_true ⟨rfl, fun h => KbdStatus.noConfusion h⟩ trivial
  | raised e => exact iff_of_true ⟨rfl, fun h => KbdStatus.noConfusion h⟩ trivial

/-- Asked for nothing, a round takes nothing and fills nothing, whatever the user callback gave. -/
theorem takeResponses_zero (res : CallbackResult) :
    (takeResponses 0 res).taken = [] ∧ (takeResponses 0 res).filled = [] ∧
      (takeResponses 0 res).status ≠ .outOfBounds := by
  cases res <;> exact ⟨rfl, rfl, KbdStatus.noConfusion⟩

theorem roundOk_zero (res : CallbackResult) {r : KbdRound} (h : r.taken = []) :
    RoundOk 0 res r := by
  cases res with
  | list xs =>
    refine ⟨fun i hi => ?_, fun _ i hi => absurd hi (Nat.not_lt_zero i),
      fun hlt => absurd hlt (Nat.not_lt_zero _)⟩
    rw [h] at hi
    cases hi
  | none => exact ⟨h, fun _ => rfl⟩
  | other => exact ⟨h, fun _ => rfl⟩
  | raised e => exact ⟨h, fun _ => rfl⟩

section Round

variable {fate : PendingFate} {cb : UserCallback} {pending : Bool} {k : Nat} {req : InfoRequest}

@[simp] theorem underException_false (res : CallbackResult) : res.underException false = res := by
  cases res <;> rfl

/-- The ways a round can go. -/
inductive KbdWay (fate : PendingFate) (cb : UserCallback) (pending : Bool) (k : Nat)
    (req : InfoRequest) : KbdRound → Prop
  /-- Asked for nothing, the round calls the user callback with what is pending. -/
  | unasked (zero : req.numPrompts = 0) (prompts : decodePrompts req.prompts = .ok []) :
      KbdWay fate cb pending k req
        { takeResponses 0 ((cb k req.name req.instruction []).underException
            (pending && !fate.discards k)) with asked := some [] }
  /-- With an exception set, the first prompt fails. -/
  | pending (asks : req.numPrompts ≠ 0) (set : pending = true) :
      KbdWay fate cb pending k req { status := .raised systemError }
  | undecoded (asks : req.numPrompts ≠ 0) (unset : pending = false) {e : PyExc}
      (prompts : decodePrompts req.prompts = .error e) :
      KbdWay fate cb pending k req { status := .raised e }
  | asked (asks : req.numPrompts ≠ 0) (unset : pending = false) {ps : List PyStr}
      (prompts : decodePrompts req.prompts = .ok ps) :
      KbdWay fate cb pending k req
        { takeResponses req.numPrompts (cb k req.name req.instruction ps) with asked := some ps }

/-- **What a round can do.** -/
theorem kbdCallback_way (fate : PendingFate) (cb : UserCallback) (pending : Bool) (k : Nat)
    (req : InfoRequest) :
    KbdWay fate cb pending k req (kbdCallback fate (some cb) pending k req) := by
  by_cases hn : req.numPrompts = 0
  · have hprompts : decodePrompts req.prompts = .ok [] := by
      rw [List.eq_nil_of_length_eq_zero hn]
      rfl
    have hcond : ¬(pending = true ∧ req.numPrompts ≠ 0) := fun h => h.2 hn
    simp only [kbdCallback, if_neg hcond, hprompts]
    rw [hn]
    exact .unasked hn hprompts
  cases pending with
  | true =>
    have hround : kbdCallback fate (some cb) true k req = { status := .raised systemError } :=
      if_pos ⟨rfl, hn⟩
    rw [hround]
    exact .pending hn rfl
  | false =>
    cases hprompts : decodePrompts req.prompts with
    | error e =>
      simp only [kbdCallback, Bool.false_eq_true, false_and, if_false, hprompts]
      exact .undecoded hn rfl hprompts
    | ok prompts =>
      simp only [kbdCallback, Bool.false_eq_true, false_and, if_false, hprompts, Bool.false_and,
        underException_false]
      exact .asked hn rfl hprompts

/-- **One round** is right exactly when an exception is pending or the responses fit the prompts. -/
theorem KbdWay.ok_iff {r : KbdRound} (h : KbdWay fate cb pending k req r) :
    CallOk cb k req r ↔ pending = true ∨ CallFits cb k req := by
  cases h with
  | unasked hn hprompts =>
    -- nothing is asked, so that both sides hold
    refine iff_of_true ?_ (.inr fun prompts _ => ?_)
    · rw [CallOk, hn]
      exact roundOk_zero _ (takeResponses_zero _).1
    · rw [hn]
      cases cb k req.name req.instruction prompts with
      | list xs => exact .inr ⟨Nat.zero_le _, fun i hi => absurd hi (Nat.not_lt_zero i)⟩
      | _ => trivial
  | pending hn hset => exact iff_of_true ⟨rfl, _, rfl⟩ (.inl hset)
  | undecoded hn hunset hprompts =>
    refine iff_of_true ⟨rfl, _, rfl⟩ (.inr fun prompts h => ?_)
    cases hprompts.symm.trans h
  | asked hn hunset hprompts =>
    simp only [hunset, Bool.false_eq_true, false_or, CallFits, hprompts, Except.ok.injEq,
      forall_eq']
    exact takeResponses_ok_iff req.numPrompts _

/-- A right round does not run out of bounds. -/
theorem KbdWay.in_bounds {r : KbdRound} (h : KbdWay fate cb pending k req r)
    (hok : CallOk cb k req r) : r.status ≠ .outOfBounds := by
  cases h with
  | unasked hn hprompts => exact (takeResponses_zero _).2.2
  | pending hn hset => exact KbdStatus.noConfusion
  | undecoded hn hunset hprompts => exact KbdStatus.noConfusion
  | @asked hn hunset prompts hprompts =>
    cases hres : cb k req.name req.instruction prompts with
    | list xs =>
      simp only [CallOk, hres] at hok
      exact fillResponses_taken.mp hok.1
    | none =>
      rw [takeResponses, if_neg hn]
      exact KbdStatus.noConfusion
    | other => exact KbdStatus.noConfusion
    | raised e => exact KbdStatus.noConfusion

/-! ## What is pending -/

/-- The loop raises exactly when one of the responses asked for cannot be converted, and runs over
the end of the list only when all in it can. -/
theorem fillResponses_raises (xs : List PyObj) (n : Nat) :
    (fillResponses xs n 0).raises = (xs.take n).any fun x => !(responseBytes x).isOk := by
  have hgood {x : PyObj} (h : ∃ b, responseBytes x = .ok b) :
      ¬(!(responseBytes x).isOk) = true := by
    obtain ⟨b, hb⟩ := h
    rw [hb]
    exact Bool.false_ne_true
  cases hs : (fillResponses xs n 0).status with
  | raised e =>
    obtain ⟨j, hj, x, e', hx, he⟩ := fillResponses_raised hs
    rw [Nat.zero_add] at hx
    rw [KbdRound.raises, hs, eq_comm, List.any_eq_true]
    refine ⟨x, List.mem_of_getElem? ((List.getElem?_take_of_lt hj).trans hx), ?_⟩
    rw [he]
    rfl
  | outOfBounds =>
    obtain ⟨-, hconv⟩ := fillResponses_outOfBounds (Nat.zero_le _) hs
    rw [KbdRound.raises, hs, eq_comm, List.any_eq_false]
    intro x hx
    obtain ⟨j, hj⟩ := List.mem_iff_getElem?.mp (List.mem_of_mem_take hx)
    exact hgood (hconv j x (Nat.zero_le j) hj)
  | completed =>
    rw [KbdRound.raises, hs, eq_comm, List.any_eq_false]
    intro x hx
    obtain ⟨j, hj⟩ := List.mem_iff_getElem?.mp hx
    have hlt : j < n := by
      have := (List.getElem?_eq_some_iff.mp hj).1
      rw [List.length_take] at this
      omega
    obtain ⟨y, b, hy, hb, -⟩ := fillResponses_slot hs hlt
    rw [List.getElem?_take_of_lt hlt, hy] at hj
    obtain rfl := Option.some.inj hj
    exact hgood ⟨b, hb⟩

theorem takeResponses_raises (n : Nat) (res : CallbackResult) :
    (takeResponses n res).raises = res.unusable n := by
  cases res with
  | list xs => exact fillResponses_raises xs n
  | none =>
    by_cases hn : n = 0 <;> simp [takeResponses, KbdRound.raises, CallbackResult.unusable, hn]
  | other => rfl
  | raised e => rfl

theorem underException_true_unusable (n : Nat) (res : CallbackResult) :
    (res.underException true).unusable n = true := by
  cases res <;> rfl

/-- What a round leaves pending depends on the request and on the user callback only. -/
theorem kbdCallback_leavesPending (fate : PendingFate) (cb : UserCallback) (pending : Bool)
    (k : Nat) (req : InfoRequest) :
    (kbdCallback fate (some cb) pending k req).leavesPending pending =
      pendingBehind fate cb pending k req := by
  have hasked (n : Nat) (res : CallbackResult) (ps : List PyStr) :
      ({ takeResponses n res with asked := some ps } : KbdRound).leavesPending pending =
        res.unusable n := by
    rw [← takeResponses_raises]
    simp [KbdRound.leavesPending, KbdRound.raises]
  have hway := kbdCallback_way fate cb pending k req
  generalize kbdCallback fate (some cb) pending k req = r at hway
  rw [pendingBehind]
  cases hway with
  | unasked hn hprompts =>
    rw [hasked, hprompts]
    cases hset : pending && !fate.discards k with
    | true => simp [underException_true_unusable, hn, hset]
    | false => simp [hn, hset]
  | pending hn hset =>
    cases decodePrompts req.prompts with
    | error e => rfl
    | ok prompts => simp [KbdRound.leavesPending, KbdRound.raises, hn, hset]
  | undecoded hn hunset hprompts =>
    rw [hprompts]
    rfl
  | asked hn hunset hprompts =>
    rw [hasked, hprompts]
    simp [hunset]

end Round

/-! ## Any number of rounds -/

section Rounds

variable {fate : PendingFate} {cb : UserCallback} {pending : Bool} {k : Nat}
  {reqs : List InfoRequest}

theorem kbdRounds_cons {req : InfoRequest}
    (h : (kbdCallback fate (some cb) pending k req).status ≠ .outOfBounds) :
    kbdRounds fate (some cb) pending k (req :: reqs) =
      kbdCallback fate (some cb) pending k req ::
        kbdRounds fate (some cb) (pendingBehind fate cb pending k req) (k + 1) reqs := by
  rw [kbdRounds, if_neg h, kbdCallback_leavesPending]

theorem kbdRounds_head (req : InfoRequest) :
    (kbdRounds fate (some cb) pending k (req :: reqs))[0]? =
      some (kbdCallback fate (some cb) pending k req) := by
  rw [kbdRounds]
  split <;> rfl

/-- The rounds of a native call are the calls of `kbd_callback`, in order, each with what the
requests before it have left pending. -/
theorem kbdRounds_get {i : Nat} {r : KbdRound}
    (h : (kbdRounds fate (some cb) pending k reqs)[i]? = some r) :
    ∃ req, reqs[i]? = some req ∧ r = kbdCallback fate (some cb)
      (pendingAfter fate cb pending k (reqs.take i)) (k + i) req := by
  induction reqs generalizing pending k i with
  | nil => cases h
  | cons req reqs ih =>
    cases i with
    | zero => exact ⟨req, rfl, Option.some.inj (h.symm.trans (kbdRounds_head req))⟩
    | succ i =>
      rw [kbdRounds, kbdCallback_leavesPending] at h
      split at h
      · cases h
      · obtain ⟨req', hreq, hr⟩ := ih h
        have hshift : k + (i + 1) = k + 1 + i := by omega
        exact ⟨req', hreq, hshift ▸ hr⟩

/-- When no round runs out of bounds, every request finds its round. -/
theorem kbdRounds_all
    (h : ∀ r ∈ kbdRounds fate (some cb) pending k reqs, r.status ≠ .outOfBounds) {i : Nat}
    {req : InfoRequest} (hreq : reqs[i]? = some req) :
    (kbdRounds fate (some cb) pending k reqs)[i]? = some (kbdCallback fate (some cb)
      (pendingAfter fate cb pending k (reqs.take i)) (k + i) req) := by
  induction reqs generalizing pending k i with
  | nil => cases hreq
  | cons req' reqs ih =>
    have hfirst := h _ (List.mem_of_getElem? (kbdRounds_head req'))
    rw [kbdRounds_cons hfirst] at h ⊢
    cases i with
    | zero =>
      obtain rfl := Option.some.inj hreq
      rfl
    | succ i =>
      have hshift : k + (i + 1) = k + 1 + i := by omega
      rw [hshift]
      exact ih (fun r hr => h r (List.mem_cons_of_mem _ hr)) hreq

/-- The exception that is pending at the end of the rounds. -/
theorem kbdRounds_leavesPending
    (h : ∀ r ∈ kbdRounds fate (some cb) pending k reqs, r.status ≠ .outOfBounds) :
    (kbdRounds fate (some cb) pending k reqs).foldl KbdRound.leavesPending pending =
      pendingAfter fate cb pending k reqs := by
  induction reqs generalizing pending k with
  | nil => rfl
  | cons req reqs ih =>
    have hfirst := h _ (List.mem_of_getElem? (kbdRounds_head req))
    rw [kbdRounds_cons hfirst] at h ⊢
    rw [List.foldl_cons, kbdCallback_leavesPending]
    exact ih fun r hr => h r (List.mem_cons_of_mem _ hr)

/-- **The rounds of a native call** are all right exactly when every request comes while an
exception is pending or finds responses that fit it. -/
theorem kbdRounds_ok_iff (fate : PendingFate) (cb : UserCallback) (reqs : List InfoRequest) :
    (∀ (i : Nat) r req, (kbdRounds fate (some cb) false 0 reqs)[i]? = some r →
      reqs[i]? = some req → CallOk cb i req r) ↔
    ∀ (i : Nat) req, reqs[i]? = some req →
      pendingAfter fate cb false 0 (reqs.take i) = true ∨ CallFits cb i req := by
  constructor
  · intro h i req hreq
    have hbounds : ∀ r ∈ kbdRounds fate (some cb) false 0 reqs, r.status ≠ .outOfBounds := by
      intro r hr
      obtain ⟨j, hj⟩ := List.mem_iff_getElem?.mp hr
      obtain ⟨req', hreq', rfl⟩ := kbdRounds_get hj
      rw [Nat.zero_add] at hj ⊢
      exact (kbdCallback_way fate cb _ j req').in_bounds (h j _ req' hj hreq')
    have hround := kbdRounds_all hbounds hreq
    rw [Nat.zero_add] at hround
    exact (kbdCallback_way fate cb _ i req).ok_iff.mp (h i _ req hround hreq)
  · intro h i r req hr hreq
    obtain ⟨req', hreq', rfl⟩ := kbdRounds_get hr
    obtain rfl := Option.some.inj (hreq.symm.trans hreq')
    rw [Nat.zero_add]
    exact (kbdCallback_way fate cb _ i req).ok_iff.mpr (h i req hreq)

end Rounds

/-- **When a run is right**: for every user callback and every sequence of requests, exactly when
the user name was rejected before the native call or in every round an exception of an earlier one
is pending or the responses fit: the prompts cannot be decoded, or the callback does not return a
list, or one of the responses asked for cannot be converted, or there are as many responses as
prompts and each is shorter than `2 ^ 32`. -/
theorem userauthKeyboardinteractiveCallback_ok_iff (fate : PendingFate) (username : PyObj)
    (cb : UserCallback) (before : Option UserCallback) (reqs : List InfoRequest) (rc : Int) :
    RunOk cb reqs (userauthKeyboardinteractiveCallback fate username cb before reqs rc) ↔
      (∃ e, bytesArg username = .error e) ∨
        ∀ (k : Nat) req, reqs[k]? = some req →
          pendingAfter fate cb false 0 (reqs.take k) = true ∨ CallFits cb k req := by
  have hrounds := kbdRounds_ok_iff fate cb reqs
  unfold RunOk userauthKeyboardinteractiveCallback
  cases hu : bytesArg username with
  | error e => simp
  | ok b => simpa using hrounds

/-- The callback of `userauth_keyboardinteractive` fits a request exactly when its prompts cannot be
decoded, there is at most one of them, or the password cannot be converted. -/
theorem passwd_fits_iff (password : PyBytes) (hlen : password.length < 2 ^ 32) (k : Nat)
    (req : InfoRequest) :
    CallFits (passwd (.bytes password)) k req ↔
      (∃ e, decodePrompts req.prompts = .error e) ∨ req.numPrompts ≤ 1 := by
  have hconv : responseBytes (.bytes password) = .ok password := rfl
  have hmem {i : Nat} {x : PyObj} (h : [PyObj.bytes password][i]? = some x) :
      x = .bytes password := by
    cases i with
    | zero => exact (Option.some.inj h).symm
    | succ i => cases h
  unfold CallFits
  cases hp : decodePrompts req.prompts with
  | error e =>
    refine iff_of_true (fun prompts h => ?_) (.inl ⟨e, rfl⟩)
    cases h
  | ok prompts =>
    simp only [Except.ok.injEq, forall_eq', reduceCtorEq, exists_false, false_or]
    constructor
    · rintro (⟨i, -, x, e, hx, he⟩ | ⟨hle, -⟩)
      · rw [hmem hx, hconv] at he
        cases he
      · exact hle
    · intro hle
      refine .inr ⟨hle, fun i _ x b hx hb => ?_⟩
      rw [hmem hx, hconv] at hb
      exact Except.ok.inj hb ▸ hlen

/-- A server that asks two questions at once. -/
def twoPrompts : InfoRequest := ⟨[], [], [[80], [67]]⟩

/-- Nothing is discarded, and nothing replaced. -/
def PendingFate.stays : PendingFate where
  discards := fun _ => false
  replaces := fun _ => false

theorem passwd_twoPrompts_out_of_bounds :
    ¬RunOk (passwd (.bytes ⟨[120], by decide⟩)) [twoPrompts]
      (userauthKeyboardinteractive .stays (.bytes ⟨[117], by decide⟩) (.bytes ⟨[120], by decide⟩)
        none [twoPrompts] 0) := by
  intro h
  have hcall := h 0 _ twoPrompts rfl rfl
  exact absurd (hcall.1 1 (by decide)) (by decide)

end Ssh2Python
