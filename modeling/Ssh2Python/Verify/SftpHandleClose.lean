import Ssh2Python.SftpHandle

/-!
# What `closed` says about the native handle

The native handle is an object of the ledger, live when `SFTP.open` returns it. `handle_refines`
is the step lemma: an orderly operation keeps the flag and the ledger in agreement, and only passes
the handle while it is live. `handle_closeTracked` reads this off for whole runs.
-/

namespace Ssh2Python

open Lib.Run Lib.Ledger

/-- The event of a call: a completed close releases the handle, any other call passes it. -/
def HandleCall.event (c : HandleCall) : Event Unit :=
  if c.Completes then .release () else .call ()

/-- An orderly operation: a closed handle is not used, and a close that would block is not made. -/
def HandleOp.Orderly (s : Option SftpHandle) (op : HandleOp) : Prop :=
  ∀ h, s = some h → (op.usesHandle = true → h.closed = false) ∧
    ∀ rc, op = .close rc ∨ op = .exit rc → h.closed = false → rc ≠ eagain

/-- The flag says what the ledger says, until the object is gone. -/
def FlagAgrees (s : Option SftpHandle) (b : Books Unit) : Prop :=
  b () ≠ .fresh ∧ ∀ h, s = some h → b () = if h.closed then .released else .live

theorem HandleCall.event_release {c : HandleCall} : c.event = .release () ↔ c.Completes := by
  unfold event
  split <;> simp_all

/-! ## One step -/

/-- No operation but the closing ones closes the handle. -/
theorem HandleOp.useCalls_pass (op : HandleOp) : ∀ c ∈ op.useCalls, ¬c.Completes := by
  have hone {fn : HandleFn} {rc : Int} (hfn : fn ≠ .closeHandle) :
      ∀ c ∈ [(⟨fn, rc⟩ : HandleCall)], ¬c.Completes := by
    intro c hc h
    rw [List.mem_singleton.mp hc] at h
    exact hfn h.1
  have hnil : ∀ c ∈ ([] : List HandleCall), ¬c.Completes := fun c hc => absurd hc List.not_mem_nil
  cases op with
  | read maxlen native => cases native <;> [exact hnil; exact hone HandleFn.noConfusion]
  | next native => cases native <;> [exact hnil; exact hone HandleFn.noConfusion]
  | readdirStep maxlen native => cases native <;> [exact hnil; exact hone HandleFn.noConfusion]
  | readdirExStep lmax maxlen native =>
    cases native <;> [exact hnil; exact hone HandleFn.noConfusion]
  | write buf results =>
    intro c hc
    obtain ⟨w, -, rfl⟩ := List.mem_map.mp hc
    exact fun h => HandleFn.noConfusion h.1
  | fstat native => cases native <;> [exact hnil; exact hone HandleFn.noConfusion]
  | fstatvfs native => cases native <;> [exact hnil; exact hone HandleFn.noConfusion]
  | close rc => exact hnil
  | exit rc => exact hnil
  | dealloc rc => exact hnil
  | fsync rc => exact hone HandleFn.noConfusion
  | seek offset => exact hone HandleFn.noConfusion
  | seek64 offset => exact hone HandleFn.noConfusion
  | rewind => exact hone HandleFn.noConfusion
  | tell rc => exact hone HandleFn.noConfusion
  | tell64 rc => exact hone HandleFn.noConfusion
  | fstatEx setstat rc => exact hone HandleFn.noConfusion
  | fsetstat rc => exact hone HandleFn.noConfusion

theorem HandleOp.useCalls_eq_nil {op : HandleOp} (h : op.usesHandle = false) :
    op.useCalls = [] := by
  cases op with
  | read maxlen native => cases native <;> [rfl; cases h]
  | next native => cases native <;> [rfl; cases h]
  | readdirStep maxlen native => cases native <;> [rfl; cases h]
  | readdirExStep lmax maxlen native => cases native <;> [rfl; cases h]
  | write buf results =>
    cases buf with
    | bytes b =>
      have hlen : b.length = 0 := by simpa [usesHandle] using h
      rw [useCalls, sftpHandleWrite, hlen, writeLoop_done]
      rfl
    | text s => rfl
    | none => rfl
    | other => rfl
  | fstat native => cases native <;> [rfl; cases h]
  | fstatvfs native => cases native <;> [rfl; cases h]
  | close rc => rfl
  | exit rc => rfl
  | dealloc rc => rfl
  | fsync rc => cases h
  | seek offset => cases h
  | seek64 offset => cases h
  | rewind => cases h
  | tell rc => cases h
  | tell64 rc => cases h
  | fstatEx setstat rc => cases h
  | fsetstat rc => cases h

/-- What a step does: it deallocates the object, closes the handle, or leaves the object alone. -/
theorem handleStep_cases {h : SftpHandle} {op : HandleOp} {s' : Option SftpHandle}
    {calls : List HandleCall} (hs : handleStep (some h) op = some (s', calls)) :
    (∃ rc, op = .dealloc rc ∧ s' = none ∧ calls = h.dealloc rc) ∨
    (∃ rc, (op = .close rc ∨ op = .exit rc) ∧ s' = some (h.close rc).1 ∧
      calls = (h.close rc).2.calls) ∨
    (s' = some h ∧ calls = op.useCalls) := by
  cases op with
  | close rc =>
    obtain ⟨rfl, rfl⟩ := Prod.mk.inj (Option.some.inj hs)
    exact .inr (.inl ⟨rc, .inl rfl, rfl, rfl⟩)
  | exit rc =>
    obtain ⟨rfl, rfl⟩ := Prod.mk.inj (Option.some.inj hs)
    exact .inr (.inl ⟨rc, .inr rfl, rfl, rfl⟩)
  | dealloc rc =>
    obtain ⟨rfl, rfl⟩ := Prod.mk.inj (Option.some.inj hs)
    exact .inl ⟨rc, rfl, rfl, rfl⟩
  | _ =>
    obtain ⟨rfl, rfl⟩ := Prod.mk.inj (Option.some.inj hs)
    exact .inr (.inr ⟨rfl, rfl⟩)

/-- Passing a live handle any number of times is sound and changes nothing. -/
theorem sound_pass {b : Books Unit} {calls : List HandleCall} (hlive : calls = [] ∨ b () = .live)
    (hpass : ∀ c ∈ calls, ¬c.Completes) :
    Sound noOwners b (calls.flatMap fun c => [c.event]) ∧
      books b (calls.flatMap fun c => [c.event]) = b := by
  have hlog : (calls.flatMap fun c => [c.event]) = List.replicate calls.length (.call ()) := by
    rw [← List.map_eq_flatMap]
    exact List.map_eq_replicate_iff.mpr fun c hc => if_neg (hpass c hc)
  rcases hlive with rfl | hb
  · exact ⟨trivial, rfl⟩
  · rw [hlog]
    exact sound_calls (usable_noOwners.mpr hb) calls.length

/-- **One step**: an orderly operation refines the ledger. -/
theorem handle_refines :
    Refines handleStep HandleOp.Orderly ((spec noOwners).comap fun c => [c.event]) FlagAgrees := by
  intro s op s' calls b ⟨hfresh, hflag⟩ horderly hs
  cases s with
  | none => cases op <;> cases hs
  | some h =>
    obtain ⟨huse, hclose⟩ := horderly h rfl
    have hb := hflag h rfl
    have hlive (hc : h.closed = false) : b () = .live := by rw [hb, hc]; rfl
    have husable (hc : h.closed = false) : Usable noOwners b () :=
      usable_noOwners.mpr (hlive hc)
    have hrelease (rc : Int) (hrc : rc ≠ eagain) :
        (⟨.closeHandle, rc⟩ : HandleCall).event = .release () := if_pos ⟨rfl, hrc⟩
    rcases handleStep_cases hs with ⟨rc, rfl, rfl, rfl⟩ | ⟨rc, hop, rfl, rfl⟩ | ⟨rfl, rfl⟩
    · -- deallocation: the object is gone, whether the close completes or not
      unfold SftpHandle.dealloc
      split
      · exact ⟨b, ⟨trivial, rfl⟩, hfresh, fun _ h => by cases h⟩
      · next hc =>
        have hc : h.closed = false := by simpa using hc
        refine ⟨_, ⟨⟨?_, trivial⟩, rfl⟩, post_ne_fresh hfresh _, fun _ h => by cases h⟩
        unfold HandleCall.event
        split <;> exact husable hc
    · unfold SftpHandle.close
      split
      · exact ⟨b, ⟨trivial, rfl⟩, hfresh, hflag⟩
      · next hc =>
        have hc : h.closed = false := by simpa using hc
        have hev := hrelease rc (hclose rc hop hc)
        refine ⟨post b (.release ()), ⟨?_, ?_⟩, Status.noConfusion, ?_⟩
        · show Legal noOwners b (HandleCall.event _) ∧ True
          rw [hev]
          exact ⟨husable hc, trivial⟩
        · show _ = post b (HandleCall.event _)
          rw [hev]
        · intro h' hh'
          rw [← Option.some.inj hh']
          rfl
    · have hnil : op.useCalls = [] ∨ b () = .live := by
        cases hu : op.usesHandle with
        | false => exact .inl (HandleOp.useCalls_eq_nil hu)
        | true => exact .inr (hlive (huse hu))
      obtain ⟨hsound, hbooks⟩ := sound_pass hnil op.useCalls_pass
      exact ⟨b, ⟨hsound, hbooks.symm⟩, hfresh, hflag⟩

/-! ## Runs -/

/-- **The flag tracks the native handle.** In every run of a handle object whose steps are orderly,
a completed close is the last native call, `closed` says whether there was one, and until then
`close` and `__dealloc__` still make the call. -/
theorem handle_closeTracked (ops : List HandleOp) (calls : List HandleCall) (s : Option SftpHandle)
    (hrun : Runs handleStep HandleOp.Orderly (some .new) ops calls s) : CloseTracked calls s := by
  have hstart : FlagAgrees (some .new) fun _ => .live := by
    refine ⟨Status.noConfusion, fun h hh => ?_⟩
    rw [← Option.some.inj hh]
    rfl
  obtain ⟨b, ⟨hsound, hb⟩, -, hflag⟩ := handle_refines.run hrun hstart
  rw [← List.map_eq_flatMap] at hb hsound
  have hreleased := hsound.released_iff (i := ()) Status.noConfusion
  have hmem : Event.release () ∈ calls.map HandleCall.event ↔ ∃ c ∈ calls, c.Completes := by
    rw [List.mem_map]
    exact exists_congr fun c => and_congr_right fun _ => HandleCall.event_release
  constructor
  · rintro pre c post rfl hc
    rw [List.map_append, List.map_cons, HandleCall.event_release.mpr hc] at hsound
    have hlast := hsound.release_last
    cases post with
    | nil => rfl
    | cons d ds => exact absurd rfl (hlast d.event (List.mem_map_of_mem List.mem_cons_self))
  · intro h hs
    have hbooks := hflag h hs
    have hclosed : h.closed = true ↔ ∃ c ∈ calls, c.Completes := by
      rw [← hmem, ← hreleased, ← hb, hbooks]
      cases h.closed <;> simp
    refine ⟨hclosed, fun hopen rc => ?_⟩
    have hfalse : h.closed = false := by
      rw [← Bool.not_eq_true, hclosed]
      exact hopen
    simp [SftpHandle.close, SftpHandle.dealloc, hfalse]

/-- A read, the close, and the deallocation. -/
theorem handle_closeTracked_example :
    CloseTracked [⟨.read 8, 3⟩, ⟨.closeHandle, 0⟩] none := by
  have hread : HandleOp.Orderly (some .new) (.read 8 (some ⟨3, [1, 2, 3]⟩)) := by
    intro h hs
    refine ⟨fun _ => by rw [← Option.some.inj hs]; rfl, ?_⟩
    rintro rc (hop | hop) <;> cases hop
  have hclose : HandleOp.Orderly (some .new) (.close 0) := by
    intro h hs
    refine ⟨fun hu => absurd hu (by decide), ?_⟩
    rintro rc (hop | hop) - <;> cases hop
    decide
  have hdealloc : HandleOp.Orderly (some ⟨true⟩) (.dealloc 0) := by
    intro h hs
    refine ⟨fun hu => absurd hu (by decide), ?_⟩
    rintro rc (hop | hop) <;> cases hop
  have hrun : Runs handleStep HandleOp.Orderly (some .new)
      [.read 8 (some ⟨3, [1, 2, 3]⟩), .close 0, .dealloc 0] ([⟨.read 8, 3⟩] ++
      ([⟨.closeHandle, 0⟩] ++ ([] ++ []))) none :=
    .cons hread rfl (.cons hclose rfl (.cons hdealloc rfl (.nil none)))
  exact handle_closeTracked _ _ _ hrun

/-- A close that would block is skipped afterwards, and a closed handle is read. -/
theorem handle_not_closeTracked :
    (∃ calls s, Runs handleStep (fun _ _ => True) (some .new) [.close eagain] calls s ∧
      ¬CloseTracked calls s) ∧
    ∃ calls s, Runs handleStep (fun _ _ => True) (some .new)
      [.close 0, .read 8 (some ⟨0, []⟩)] calls s ∧ ¬CloseTracked calls s := by
  constructor
  · refine ⟨_, _, runs_of_exec rfl, fun h => ?_⟩
    obtain ⟨c, hc, -, hrc⟩ := ((h.2 _ rfl).1).mp rfl
    rw [List.mem_singleton.mp hc] at hrc
    exact hrc rfl
  · refine ⟨_, _, runs_of_exec rfl, fun h => ?_⟩
    exact List.cons_ne_nil _ _ (h.1 [] ⟨.closeHandle, 0⟩ _ rfl ⟨rfl, by decide⟩)

end Ssh2Python
