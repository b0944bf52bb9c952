import Ssh2Python.Lib.Ledger
import Ssh2Python.TearDown

/-!
# Torn down once

An event of an object is at most one call, which passes its pointer (`event_cases`), and the pointer
stays (`handle_after`). The native object is the single object of a ledger, which a completed
tear-down releases; `tearDown_refines` is one step, `tornDownOnce` the runs.
-/

namespace Ssh2Python

open Lib.Run Lib.Ledger

/-! ## What one operation does -/

namespace TearDownObject

variable {o o' : TearDownObject} {op : TearDownOp} {e : TearDownEvent}

/-- An operation passes the pointer once or not at all, and not at all where it says so. -/
theorem event_cases (h : o.event op = some e) :
    e.calls = [] ∨ ∃ c, e.calls = [c] ∧ c.handle = o.handle ∧ ¬op.PassesNothing o := by
  cases o with
  | publicKeySystem p =>
    cases op with
    | add args rc =>
      obtain rfl := Option.some.inj h
      cases args with
      | error exc => exact .inl rfl
      | ok u => exact .inr ⟨_, rfl, rfl, by rintro ⟨_, ⟨⟩⟩⟩
    | remove args rc =>
      obtain rfl := Option.some.inj h
      cases args with
      | error exc => exact .inl rfl
      | ok u => exact .inr ⟨_, rfl, rfl, by rintro ⟨_, ⟨⟩⟩⟩
    | listFetch rc =>
      obtain rfl := Option.some.inj h
      refine .inr ⟨.use p.pkeyS, ?_, rfl, id⟩
      rw [Effect.tearDownEvent, PublicKeySystem.listFetch]
      by_cases hrc : rc = 0
      · rw [if_pos hrc]
        rfl
      · rw [if_neg hrc]
        cases handleErrorCodes rc <;> rfl
    | shutdown rc =>
      obtain rfl := Option.some.inj h
      exact .inr ⟨_, rfl, rfl, id⟩
    | destroy rc =>
      obtain rfl := Option.some.inj h
      by_cases hp : p.session = true ∧ p.pkeyS ≠ none
      · refine .inr ⟨.tearDown p.pkeyS rc, ?_, rfl, ?_⟩
        · rw [Effect.tearDownEvent, PublicKeySystem.dealloc, if_pos hp]
          rfl
        · exact fun hn => Bool.noConfusion (hn.symm.trans hp.1)
      · refine .inl ?_
        rw [Effect.tearDownEvent, PublicKeySystem.dealloc, if_neg hp]
        rfl
    | clear =>
      obtain rfl := Option.some.inj h
      exact .inl rfl
    | forwardAccept errno n => cases h
    | forwardCancel rc => cases h
  | listener l =>
    cases op with
    | forwardAccept errno n =>
      obtain rfl := Option.some.inj h
      exact .inr ⟨_, rfl, rfl, id⟩
    | forwardCancel rc =>
      obtain rfl := Option.some.inj h
      exact .inr ⟨_, rfl, rfl, id⟩
    | destroy rc =>
      obtain rfl := Option.some.inj h
      exact .inl rfl
    | clear =>
      obtain rfl := Option.some.inj h
      exact .inl rfl
    | _ => cases h

/-- No operation changes the pointer. -/
theorem handle_after (h : o.after op = some o') : o'.handle = o.handle := by
  cases op with
  | destroy rc => cases o <;> cases h
  | clear =>
    cases o with
    | publicKeySystem p =>
      obtain rfl := Option.some.inj h
      rfl
    | listener l =>
      obtain rfl := Option.some.inj h
      rfl
  | listFetch rc =>
    have h' : (if rc = 0 then none else some o) = some o' := by cases o <;> exact h
    split at h'
    · cases h'
    · rw [Option.some.inj h']
  | _ =>
    have h' : some o = some o' := by cases o <;> exact h
    rw [Option.some.inj h']

/-- A tear-down passes the pointer, whatever happened before. -/
theorem event_tearDown (o : TearDownObject) (rc : Int) :
    ∃ e, o.event (o.tearDown rc) = some e ∧ e.calls = [.tearDown o.handle rc] := by
  cases o with
  | publicKeySystem p => exact ⟨_, rfl, rfl⟩
  | listener l => exact ⟨_, rfl, rfl⟩

end TearDownObject

/-- What a step is. -/
theorem tearDownStep_cases {s s' : Option TearDownWorld} {op : TearDownOp} {es : List TearDownEvent}
    (h : tearDownStep s op = some (s', es)) : ∃ w e, s = some w ∧ w.obj.event op = some e ∧
      es = [e] ∧ s' = (w.obj.after op).map fun o =>
        ⟨o, w.freed || e.calls.any TearDownCall.completes⟩ := by
  cases s with
  | none => cases h
  | some w =>
    obtain ⟨e, he, hs, hes⟩ := map_eq_some h
    exact ⟨w, e, rfl, he, hes.symm, hs.symm⟩

/-! ## The ledger -/

/-- What a call means for the native object that it passes. -/
def TearDownCall.log : TearDownCall → List (Event Nat)
  | .use (some h) => [.call h]
  | .tearDown (some h) rc => if rc = eagain then [.call h] else [.release h]
  | _ => []

def TearDownEvent.log (e : TearDownEvent) : List (Event Nat) :=
  e.calls.flatMap TearDownCall.log

theorem TearDownCall.log_some {c : TearDownCall} {h : Nat} (hc : c.handle = some h) :
    c.log = if c.completes then [.release h] else [.call h] := by
  cases c with
  | use p =>
    obtain rfl : p = some h := hc
    rfl
  | tearDown p rc =>
    obtain rfl : p = some h := hc
    rw [log, completes]
    by_cases hrc : rc = eagain
    · rw [if_pos hrc, if_neg (by simpa using hrc)]
    · rw [if_neg hrc, if_pos (by simpa using hrc)]

theorem TearDownCall.log_none {c : TearDownCall} (hc : c.handle = none) : c.log = [] := by
  cases c with
  | use p =>
    obtain rfl : p = none := hc
    rfl
  | tearDown p rc =>
    obtain rfl : p = none := hc
    rfl

/-- The object on the books. -/
def TearDownWorld.Tracked (s : Option TearDownWorld) (b : Books Nat) : Prop :=
  ∀ w h, s = some w → w.obj.handle = some h → b h = if w.freed then .released else .live

/-- **One step**: before the native object is freed anything may happen to it, and afterwards
nothing passes it. -/
theorem tearDown_refines : Refines tearDownStep TearDownOp.BeforeFreed
    ((spec noOwners).comap TearDownEvent.log) TearDownWorld.Tracked := by
  intro s op s' es b hR hg hs
  obtain ⟨w, e, rfl, he, rfl, rfl⟩ := tearDownStep_cases hs
  -- the object of the next state has the same pointer
  have htracked (b' : Books Nat) (freed : Bool)
      (hb : ∀ h, w.obj.handle = some h → b' h = if freed then .released else .live) :
      TearDownWorld.Tracked ((w.obj.after op).map fun o => ⟨o, freed⟩) b' := by
    intro w' h hw' hh
    obtain ⟨o, ho, rfl⟩ := Option.map_eq_some_iff.mp hw'
    exact hb h ((TearDownObject.handle_after ho).symm.trans hh)
  have hlog : [e].flatMap TearDownEvent.log = e.calls.flatMap TearDownCall.log := by
    rw [List.flatMap_singleton]
    rfl
  obtain hnil | ⟨c, hc, hhandle, hpass⟩ := TearDownObject.event_cases he
  · rw [hnil] at hlog ⊢
    have hlog' : [e].flatMap TearDownEvent.log = [] := hlog
    refine ⟨b, accepts_of_log hlog' trivial, ?_⟩
    exact htracked b _ fun h hh => by rw [List.any_nil, Bool.or_false]; exact hR w h rfl hh
  · rw [hc] at hlog ⊢
    cases hw : w.obj.handle with
    | none =>
      rw [hw] at hhandle
      have hlog' : [e].flatMap TearDownEvent.log = [] := by
        rw [hlog, List.flatMap_singleton, TearDownCall.log_none hhandle]
      refine ⟨b, accepts_of_log hlog' trivial, ?_⟩
      exact htracked b _ fun h hh => by cases hw.symm.trans hh
    | some h =>
      rw [hw] at hhandle
      have hfreed : w.freed = false := by
        by_contra hne
        exact hpass (hg (by simpa using hne) (by rw [hw]; exact Option.some_ne_none h))
      have hlive : b h = .live := by rw [hR w h rfl hw, hfreed]; rfl
      have hcs : [c].flatMap TearDownCall.log =
          if c.completes then [.release h] else [.call h] := by
        rw [List.flatMap_singleton, TearDownCall.log_some hhandle]
      refine ⟨_, accepts_of_log (hlog.trans hcs) ?_, ?_⟩
      · split <;> exact ⟨usable_noOwners.mpr hlive, trivial⟩
      · refine htracked _ _ fun h' hh' => ?_
        obtain rfl : h = h' := Option.some.inj (hw.symm.trans hh')
        rw [hfreed, List.any_cons, List.any_nil, Bool.or_false, Bool.false_or]
        cases c.completes with
        | true => exact Function.update_self ..
        | false => exact hlive

/-! ## Runs -/

/-- The pointer of the object is that of all its calls. -/
theorem tearDown_handles {w : TearDownWorld} {ops : List TearDownOp} {es : List TearDownEvent}
    {s : Option TearDownWorld} {guard : Option TearDownWorld → TearDownOp → Prop}
    (hrun : Runs tearDownStep guard (some w) ops es s) :
    (∀ w', s = some w' → w'.obj.handle = w.obj.handle) ∧
      ∀ e ∈ es, ∀ c ∈ e.calls, c.handle = w.obj.handle := by
  refine hrun.induction (fun s => ∀ w', s = some w' → w'.obj.handle = w.obj.handle)
    (fun e => ∀ c ∈ e.calls, c.handle = w.obj.handle) ?_ (fun w' h => by rw [Option.some.inj h])
  intro s op s' es hinv _ hs
  obtain ⟨w₁, e, rfl, he, rfl, rfl⟩ := tearDownStep_cases hs
  have hw₁ := hinv w₁ rfl
  constructor
  · intro w' hw'
    obtain ⟨o, ho, rfl⟩ := Option.map_eq_some_iff.mp hw'
    exact (TearDownObject.handle_after ho).trans hw₁
  · intro e' he'
    obtain rfl := List.mem_singleton.mp he'
    intro c hc
    obtain hnil | ⟨c', hc', hhandle, -⟩ := TearDownObject.event_cases he
    · rw [hnil] at hc
      cases hc
    · rw [hc', List.mem_singleton] at hc
      rw [hc, hhandle, hw₁]

/-- **A run tears down once**, if nothing passes the pointer after the native object was freed; and
a tear-down that would block can be resumed. -/
theorem tornDownOnce {o : TearDownObject} {ops : List TearDownOp} {es : List TearDownEvent}
    {s : Option TearDownWorld}
    (hrun : Runs tearDownStep TearDownOp.BeforeFreed (some ⟨o, false⟩) ops es s) :
    TornDownOnce es s := by
  have hstart : TearDownWorld.Tracked (some ⟨o, false⟩) fun _ => .live := by
    rintro w h ⟨⟩ -
    rfl
  obtain ⟨b, ⟨hsound, -⟩, -⟩ := tearDown_refines.run hrun hstart
  obtain ⟨hobj, hcalls⟩ := tearDown_handles hrun
  have hflat : es.flatMap TearDownEvent.log =
      (es.flatMap TearDownEvent.calls).flatMap TearDownCall.log := by
    rw [List.flatMap_assoc]
    rfl
  constructor
  · intro before h rc after hsplit hrc c hc hhandle
    rw [hflat, hsplit, List.flatMap_append, List.flatMap_cons, TearDownCall.log,
      if_neg hrc] at hsound
    have hlast := hsound.release_last
    have hmem (f : Event Nat) (hf : f ∈ c.log) : f.about ≠ h :=
      hlast f (List.mem_flatMap.mpr ⟨c, hc, hf⟩)
    rw [TearDownCall.log_some hhandle] at hmem
    split at hmem
    · exact hmem _ List.mem_cons_self rfl
    · exact hmem _ List.mem_cons_self rfl
  · intro w h hw hmem _ rc
    obtain ⟨e, he, hc⟩ := List.mem_flatMap.mp hmem
    have hhandle : w.obj.handle = some h := (hobj w hw).trans (hcalls e he _ hc).symm
    obtain ⟨e', he', hcalls'⟩ := TearDownObject.event_tearDown w.obj rc
    rw [hhandle] at hcalls'
    have hstep : tearDownStep s (w.obj.tearDown rc) = some
        ((w.obj.after (w.obj.tearDown rc)).map fun o =>
          ⟨o, w.freed || e'.calls.any TearDownCall.completes⟩, [e']) := by
      rw [hw, tearDownStep, he']
      rfl
    exact ⟨_, e', hstep, hcalls'⟩

/-- A cancellation that would block is resumed, and the listener destroyed. -/
theorem tornDownOnce_example :
    ∃ es s, Runs tearDownStep TearDownOp.BeforeFreed (some ⟨.listener ⟨some 0, true⟩, false⟩)
      [.forwardCancel eagain, .forwardCancel 0, .destroy 0] es s ∧ TornDownOnce es s := by
  have hrun : Runs tearDownStep TearDownOp.BeforeFreed (some ⟨.listener ⟨some 0, true⟩, false⟩)
      [.forwardCancel eagain, .forwardCancel 0, .destroy 0] _ _ :=
    .cons Bool.noConfusion rfl
      (.cons Bool.noConfusion rfl (.cons (fun _ _ => trivial) rfl (.nil _)))
  exact ⟨_, _, hrun, tornDownOnce hrun⟩

/-- After `shutdown()` the destructor frees once more, after `forward_cancel()` another one does. -/
theorem not_tornDownOnce :
    (∃ es s, Runs tearDownStep (fun _ _ => True)
      (some ⟨.publicKeySystem ⟨some 0, true⟩, false⟩) [.shutdown 0, .destroy 0] es s ∧
      ¬TornDownOnce es s) ∧
    ∃ es s, Runs tearDownStep (fun _ _ => True) (some ⟨.listener ⟨some 0, true⟩, false⟩)
      [.forwardCancel 0, .forwardCancel 0] es s ∧ ¬TornDownOnce es s := by
  constructor
  · refine ⟨_, _, .cons trivial rfl (.cons trivial rfl (.nil _)), fun h => ?_⟩
    exact h.once [] 0 0 _ rfl (by decide) (.tearDown (some 0) 0) List.mem_cons_self rfl
  · refine ⟨_, _, .cons trivial rfl (.cons trivial rfl (.nil _)), fun h => ?_⟩
    exact h.once [] 0 0 _ rfl (by decide) (.tearDown (some 0) 0) List.mem_cons_self rfl

end Ssh2Python
