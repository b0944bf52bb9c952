import Mathlib.Data.List.Count
import Ssh2Python.Verify.Objects

/-!
# One owner for each channel

As long as `get_channel` returns no channel, every native channel is wrapped by one object, the
`Channel` or the `SFTP` that was made for it. `Heap.Owned` says that the channels of the wrappers
have not been handed over yet, `channels_refine` that a step keeps it so, and `channels_ownedOnce`
what this means for the runs of a heap, in whatever order the wrappers are destroyed.
-/

namespace Ssh2Python

open Lib.Run Lib.Ledger

/-- A native object is handed over at most once: whether the call completes does not matter. -/
def ObjCall.channelEvent : ObjCall → List (Event Native)
  | .acquired p => [.acquire p]
  | c => c.handedOver.map .release

theorem count_handedOver (calls : List ObjCall) (p : Native) :
    (calls.flatMap ObjCall.channelEvent).count (.release p) =
      (calls.flatMap ObjCall.handedOver).count p := by
  induction calls with
  | nil => rfl
  | cons c cs ih =>
    rw [List.flatMap_cons, List.flatMap_cons, List.count_append, List.count_append, ih]
    congr 1
    have hinj : Function.Injective (Event.release : Native → Event Native) :=
      fun _ _ h => Event.release.inj h
    cases c with
    | acquired q => rfl
    | use cls q => rfl
    | free fn q rc => exact List.count_map_of_injective _ _ hinj p

/-! ## The books of the channels -/

structure Heap.Owned (w : Heap) (b : Books Native) : Prop where
  wf : w.WF
  fresh : ∀ p : Native, w.next ≤ p.number → b p = .fresh
  live : ∀ {i o p}, w.objs i = some o → o.OwnsChannel p → b p = .live

namespace Heap.Owned

variable {w : Heap} {b : Books Native} {i : Nat} {o o' : Wrapper} {p : Native}

theorem set (h : w.Owned b) (hi : w.objs i = some o) (hadj : w.Adjusts i o o') :
    (w.set i o').Owned b where
  wf := h.wf.set hi hadj
  fresh := h.fresh
  live hk hown := by
    rcases set_cases hk with ⟨rfl, rfl⟩ | ⟨-, hk⟩
    · rw [Wrapper.OwnsChannel, hadj.native, hadj.cls] at hown
      exact h.live hi hown
    · exact h.live hk hown

theorem erase (h : w.Owned b) (hkids : ∀ {k c}, w.objs k = some c → c.link ≠ some i) :
    (w.erase i).Owned b where
  wf := h.wf.erase hkids
  fresh := h.fresh
  live hk := h.live (erase_cases hk).2

theorem construct (h : w.Owned b) (hfits : w.Fits o) (hnone : o.native = none) :
    (w.alloc o).Owned b where
  wf := h.wf.alloc hfits
  fresh q hq := h.fresh q (Nat.le_of_succ_le hq)
  live hk hown := by
    rcases alloc_cases hk with ⟨-, rfl⟩ | ⟨-, hk⟩
    · exact absurd (hnone.symm.trans hown.1) (Option.some_ne_none _).symm
    · exact h.live hk hown

theorem create (h : w.Owned b) (hfits : w.Fits o) (hnat : o.native = some p) :
    (w.alloc o).Owned (post b (.acquire p)) where
  wf := h.wf.alloc hfits
  fresh := fresh_post h.fresh (Nat.le_succ _)
    (Nat.lt_succ_of_le (Nat.le_of_eq (hfits.native hnat).1))
  live {k c q} hk hown := by
    rcases alloc_cases hk with ⟨-, rfl⟩ | ⟨hkn, hk⟩
    · obtain rfl := Option.some.inj (hnat.symm.trans hown.1)
      exact Function.update_self ..
    · rw [post_of_ne, h.live hk hown]
      intro hpq
      obtain rfl : p = q := hpq
      exact hkn ((h.wf.native hk hown.1).1.symm.trans (hfits.native hnat).1)

/-- The owner of a channel hands it over and is gone. -/
theorem destroyed (h : w.Owned b) (hi : w.objs i = some o) (hown : o.OwnsChannel p)
    (hkids : ∀ {k c}, w.objs k = some c → c.link ≠ some i) :
    (w.erase i).Owned (post b (.release p)) where
  wf := h.wf.erase hkids
  fresh := fresh_post h.fresh (Nat.le_refl _) (h.wf.number_lt hi hown.1)
  live {k c q} hk hown' := by
    obtain ⟨hki, hk⟩ := erase_cases hk
    rw [post_of_ne, h.live hk hown']
    intro hpq
    obtain rfl : p = q := hpq
    exact hki (h.wf.unique hk hi hown'.1 hown.1)

end Heap.Owned

/-! ## One step -/

section

variable {w : Heap} {b : Books Native} {i : Nat} {o : Wrapper} {rc : Int}

/-- A destructor hands over the channel that its wrapper owns, or none. -/
theorem destructor_channelEvent (w : Heap) (o : Wrapper) (rc : Int) :
    (w.destructor o rc).flatMap ObjCall.channelEvent = [] ∨
      ∃ p, o.OwnsChannel p ∧ (w.destructor o rc).flatMap ObjCall.channelEvent = [.release p] := by
  cases hcls : o.cls with
  | session =>
    rw [Heap.destructor, hcls]
    cases o.native with
    | none => exact .inl rfl
    | some p => exact .inl rfl
  | sftpHandle =>
    rw [Heap.destructor, hcls]
    show (sftpHandleDealloc rc o.closed o.native).flatMap _ = [] ∨ _
    rw [sftpHandleDealloc]
    split
    · exact .inl rfl
    · exact .inl rfl
  | child c =>
    obtain hnone | ⟨p, -, hnat, hes⟩ := destructor_child w rc hcls
    · rw [hnone]
      exact .inl rfl
    · rw [hes]
      cases c with
      | sftp => exact .inr ⟨p, ⟨hnat, .inr hcls⟩, rfl⟩
      | channel => exact .inr ⟨p, ⟨hnat, .inl hcls⟩, rfl⟩
      | agent => exact .inl rfl
      | knownHost => exact .inl rfl
      | publicKeySystem => exact .inl rfl

/-- **One step**: unless a second wrapper is made, the ledger accepts what is handed over. -/
theorem channels_refine :
    Refines heapStep HeapOp.NoTakeOver ((spec noOwners).comap ObjCall.channelEvent) Heap.Owned := by
  intro w op w' es b h hg hs
  cases heapStep_change h.wf.bound hs with
  | create hfits hnat =>
    obtain ⟨hnum, -⟩ := hfits.native hnat
    exact ⟨_, ⟨⟨h.fresh _ (Nat.le_of_eq hnum.symm), trivial⟩, rfl⟩, h.create hfits hnat⟩
  | construct hfits hnat => exact ⟨b, accepts_of_log rfl trivial, h.construct hfits hnat⟩
  | takeOver hi hnat hcls => exact absurd ((hg _ hi).symm.trans hnat) (Option.some_ne_none _).symm
  | adjust hi hadj hlink hclosed => exact ⟨b, accepts_of_log rfl trivial, h.set hi hadj⟩
  | quiet => exact ⟨b, accepts_of_log rfl trivial, h⟩
  | pass hi hnat => exact ⟨b, accepts_of_log rfl trivial, h⟩
  | close hi hcls hopen hadj => exact ⟨b, accepts_of_log rfl trivial, h.set hi hadj⟩
  | shutdown hi hcls htrash => exact ⟨b, accepts_of_log rfl trivial, h⟩
  | @destroy i o rc hi hkids =>
    rcases destructor_channelEvent w o rc with hes | ⟨p, hown, hes⟩
    · exact ⟨b, accepts_of_log hes trivial, h.erase hkids⟩
    · exact ⟨_, accepts_of_log hes ⟨usable_noOwners.mpr (h.live hi hown), trivial⟩,
        h.destroyed hi hown hkids⟩

/-! ## What is freed and what is used -/

/-- A `Channel` frees channels of its own, and SFTP operations run on SFTP instances. -/
def ObjCall.Typed (c : ObjCall) : Prop :=
  (∀ p rc, c = .free .channelFree (some p) rc → p.cls = .child .channel) ∧
    ∀ p, c.sftpUsed = some p → p.cls = .child .sftp

theorem Native.parent_handle {p q : Native} (hcls : p.cls = .sftpHandle) (h : p.parent = some q) :
    q.cls = .child .sftp := by
  cases p with
  | session k => cases hcls
  | child c s k => cases hcls
  | handle s f k =>
    rw [← Option.some.inj h]
    rfl

/-- The functions that have nothing to do with channels. -/
theorem typed_other {fn : FreeFn} {p : Option Native} {rc : Int}
    (hfn : fn = .sessionFree ∨ fn = .clearAgent ∨ fn = .knownhostFree ∨ fn = .publickeyShutdown) :
    (ObjCall.free fn p rc).Typed := by
  constructor
  · intro q rc' h
    obtain ⟨rfl, -, -⟩ := ObjCall.free.inj h
    rcases hfn with h | h | h | h <;> cases h
  · intro q h
    rcases hfn with rfl | rfl | rfl | rfl <;> cases h

/-- A call that frees the native object of a wrapper by the function of its class. -/
theorem typed_free {c : SessionClass} {p : Native} {rc : Int} (hp : p.cls = .child c) :
    (ObjCall.free c.freeFn (some p) rc).Typed := by
  cases c with
  | sftp => exact ⟨nofun, fun q hq => Option.some.inj hq ▸ hp⟩
  | channel => exact ⟨fun q rc h => Option.some.inj (ObjCall.free.inj h).2.1 ▸ hp, nofun⟩
  | agent => exact typed_other (.inr (.inl rfl))
  | knownHost => exact typed_other (.inr (.inr (.inl rfl)))
  | publicKeySystem => exact typed_other (.inr (.inr (.inr rfl)))

theorem typed_close (h : w.WF) (hi : w.objs i = some o) (hcls : o.cls = .sftpHandle) :
    (ObjCall.free .sftpCloseHandle o.native rc).Typed := by
  refine ⟨nofun, fun q hq => ?_⟩
  cases hnat : o.native with
  | none =>
    rw [hnat] at hq
    cases hq
  | some p =>
    rw [hnat] at hq
    exact Native.parent_handle ((h.native hi hnat).2.trans hcls) hq

theorem typed_destructor (h : w.WF) (hi : w.objs i = some o) :
    ∀ c ∈ w.destructor o rc, c.Typed := by
  intro e he
  cases hcls : o.cls with
  | session =>
    rw [Heap.destructor, hcls] at he
    cases hnat : o.native with
    | none =>
      rw [hnat] at he
      exact absurd he List.not_mem_nil
    | some p =>
      rw [hnat] at he
      rw [List.mem_singleton.mp he]
      exact typed_other (.inl rfl)
  | sftpHandle =>
    rw [Heap.destructor, hcls] at he
    have he : e ∈ sftpHandleDealloc rc o.closed o.native := he
    rw [sftpHandleDealloc] at he
    split at he
    · exact absurd he List.not_mem_nil
    · rw [List.mem_singleton.mp he]
      exact typed_close h hi hcls
  | child c =>
    obtain hnone | ⟨p, -, hnat, hes⟩ := destructor_child w rc hcls
    · rw [hnone] at he
      exact absurd he List.not_mem_nil
    · rw [hes] at he
      rw [List.mem_singleton.mp he]
      exact typed_free ((h.native hi hnat).2.trans hcls)

/-- What the calls of a step free and use, while the heap is well formed. -/
theorem heapStep_typed {w' : Heap} {op : HeapOp} {es : List ObjCall} (h : w.WF)
    (hg : op.NoTakeOver w) (hs : heapStep w op = some (w', es)) : w'.WF ∧ ∀ c ∈ es, c.Typed := by
  have hchange := heapStep_change h.bound hs
  refine ⟨hchange.wf h fun i hop => by subst hop; exact hg, ?_⟩
  intro e he
  cases hchange with
  | create hfits hnat =>
    rw [List.mem_singleton.mp he]
    exact ⟨nofun, nofun⟩
  | construct hfits hnat => exact absurd he List.not_mem_nil
  | takeOver hi hnat hcls => exact absurd ((hg _ hi).symm.trans hnat) (Option.some_ne_none _).symm
  | adjust hi hadj hlink hclosed => exact absurd he List.not_mem_nil
  | quiet => exact absurd he List.not_mem_nil
  | @pass _ i o p hi hnat =>
    rw [List.mem_singleton.mp he]
    refine ⟨nofun, fun q hq => ?_⟩
    have hp := (h.native hi hnat).2
    generalize o.cls = cls at hq hp
    cases cls with
    | session => cases hq
    | sftpHandle => exact Native.parent_handle hp hq
    | child c =>
      cases c with
      | sftp => exact Option.some.inj hq ▸ hp
      | channel => cases hq
      | agent => cases hq
      | knownHost => cases hq
      | publicKeySystem => cases hq
  | close hi hcls hopen hadj =>
    rw [List.mem_singleton.mp he]
    exact typed_close h hi hcls
  | shutdown hi hcls htrash =>
    rw [List.mem_singleton.mp he]
    exact typed_other (.inr (.inr (.inr rfl)))
  | destroy hi hkids => exact typed_destructor h hi e he

end

/-! ## Runs -/

/-- **One owner for each channel.** In every run of a heap in which `get_channel` returns no
channel, no two wrappers own one channel, each channel is handed over at most once, and no SFTP
operation runs on an instance whose channel a `Channel` has freed. -/
theorem channels_ownedOnce (ops : List HeapOp) (calls : List ObjCall) (w : Heap)
    (hrun : Runs heapStep HeapOp.NoTakeOver .empty ops calls w) : ChannelsOwnedOnce calls w := by
  have hempty : Heap.empty.Owned fun _ => .fresh :=
    { wf := Heap.empty_wf, fresh := fun _ _ => rfl, live := fun h => absurd h Heap.not_mem_empty }
  obtain ⟨b, ⟨hsound, -⟩, howned⟩ := channels_refine.run hrun hempty
  obtain ⟨-, htyped⟩ := Runs.induction Heap.WF ObjCall.Typed
    (fun _ _ _ _ h hg hs => heapStep_typed h hg hs) hrun Heap.empty_wf
  constructor
  · intro i j o o' p hi hj hown hown'
    exact howned.wf.unique hi hj hown.1 hown'.1
  · intro p
    rw [← count_handedOver]
    exact hsound.count_release_le p
  · intro before c after hcalls p hused rc hrc hfree
    have hchannel := (htyped _ (hcalls ▸ List.mem_append_left _ hfree)).1 p rc rfl
    have hsftp := (htyped c (hcalls ▸ List.mem_append_right _ List.mem_cons_self)).2 p hused
    exact absurd (hchannel.symm.trans hsftp) (by decide)

/-- An `SFTP` and a `Channel` of one session, used and destroyed. -/
theorem channels_ownedOnce_example :
    ∃ calls w, Runs heapStep HeapOp.NoTakeOver .empty
      [.newSession, .wrap .sftp 0, .wrap .channel 0, .use 1, .dropRef 2, .destroy 2 0, .dropRef 1,
        .destroy 1 0] calls w ∧ ChannelsOwnedOnce calls w := by
  obtain ⟨calls, w, hrun⟩ : ∃ calls w, Runs heapStep HeapOp.NoTakeOver .empty
      [.newSession, .wrap .sftp 0, .wrap .channel 0, .use 1, .dropRef 2, .destroy 2 0, .dropRef 1,
        .destroy 1 0] calls w :=
    ⟨_, _, .cons trivial rfl <| .cons trivial rfl <| .cons trivial rfl <| .cons trivial rfl <|
      .cons trivial rfl <| .cons trivial rfl <| .cons trivial rfl <| .cons trivial rfl <| .nil _⟩
  exact ⟨calls, w, hrun, channels_ownedOnce _ _ _ hrun⟩

/-- The channel of `get_channel` frees the SFTP instance, which is then used and shut down. -/
theorem channels_ownedTwice :
    ∃ calls w, Runs heapStep (fun _ _ => True) .empty
      [.newSession, .wrap .sftp 0, .getChannel 1, .dropRef 2, .destroy 2 0, .use 1, .dropRef 1,
        .destroy 1 0] calls w ∧ ¬ChannelsOwnedOnce calls w := by
  refine ⟨_, _, runs_of_exec rfl, fun h => ?_⟩
  exact absurd (h.once (.child .sftp 0 1)) (by decide)

end Ssh2Python
