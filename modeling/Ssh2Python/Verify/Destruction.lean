import Ssh2Python.Verify.Objects

/-!
# Destruction in order

The native objects are objects of the ledger, with their parents as owners. `Heap.Tracked` says that
the wrappers hold live natives, and open handles live parents; `heap_refines` that a step in order
keeps to the ledger, and `destroyed_inOrder` what this means for the runs of a heap: every order in
which the reference counts and the collector can destroy the wrappers.
-/

namespace Ssh2Python

open Lib.Run Lib.Ledger

/-- The event of a call. A call that would block passes the object, and a NULL is no object. -/
def ObjCall.event : ObjCall → List (Event Native)
  | .acquired p => [.acquire p]
  | .use _ _ => []
  | .free _ none _ => []
  | .free fn (some p) rc =>
    if (ObjCall.free fn (some p) rc).released = [] then [.call p] else [.release p]

theorem ObjCall.released_free (fn : FreeFn) (p : Native) (rc : Int) :
    (ObjCall.free fn (some p) rc).released = [] ∨ (ObjCall.free fn (some p) rc).released = [p] := by
  cases fn with
  | sessionFree => exact .inr rfl
  | _ =>
    by_cases hrc : rc = eagain
    · exact .inl (if_pos hrc)
    · exact .inr (if_neg hrc)

/-- The ledger records what the calls free. -/
theorem count_released (calls : List ObjCall) (p : Native) :
    (calls.flatMap ObjCall.event).count (.release p) =
    (calls.flatMap ObjCall.released).count p := by
  induction calls with
  | nil => rfl
  | cons c cs ih =>
    rw [List.flatMap_cons, List.flatMap_cons, List.count_append, List.count_append, ih]
    congr 1
    cases c with
    | acquired q => rfl
    | use cls q => rfl
    | free fn q rc =>
      cases q with
      | none => cases fn <;> rfl
      | some q =>
        rw [ObjCall.event]
        rcases ObjCall.released_free fn q rc with h | h
        · rw [if_pos h, h]
          rfl
        · rw [if_neg (by rw [h]; exact List.cons_ne_nil q []), h]
          by_cases hq : q = p
          · rw [hq, List.count_singleton_self, List.count_singleton_self]
          · rw [List.count_singleton, List.count_singleton, if_neg (by simpa using hq),
              if_neg (by simpa using hq)]

/-! ## The books of a heap -/

structure Heap.Tracked (w : Heap) (b : Books Native) : Prop where
  wf : w.WF
  fresh : ∀ p : Native, w.next ≤ p.number → b p = .fresh
  live : ∀ {i o p}, w.objs i = some o → o.native = some p → o.closed = false → b p = .live
  opened : ∀ {i o p}, w.objs i = some o → o.native = some p → o.cls = .sftpHandle →
    o.closed = false → ∀ q ∈ p.owners, b q = .live

namespace Heap.Tracked

variable {w : Heap} {b : Books Native} {i : Nat} {o o' : Wrapper} {p : Native}

/-- Only a handle is ever closed. -/
theorem open_of_cls (h : w.Tracked b) (hi : w.objs i = some o) (hcls : o.cls ≠ .sftpHandle) :
    o.closed = false :=
  Bool.not_eq_true _ ▸ fun hc => hcls (h.wf.closed hi hc)

/-- The native parent of a wrapper with a link is live, unless it is a closed handle. -/
theorem parent_live (h : w.Tracked b) {q : Native} {j : Nat} (hi : w.objs i = some o)
    (hnat : o.native = some p) (hl : o.link = some j) (hq : p.parent = some q) : b q = .live := by
  obtain ⟨par, hpar, hpnat⟩ := h.wf.parent hi hl
  have hqnat := (hpnat p hnat).trans hq
  refine h.live hpar hqnat (h.open_of_cls hpar ?_)
  rw [← (h.wf.native hpar hqnat).2]
  cases p with
  | session k => cases hq
  | child c s k =>
    obtain rfl := Option.some.inj hq
    exact PyClass.noConfusion
  | handle s f k =>
    obtain rfl := Option.some.inj hq
    exact PyClass.noConfusion

/-- The native object of a wrapper with a link may be passed, for all classes but the handles. -/
theorem linked_usable (h : w.Tracked b) {c : SessionClass} {j : Nat} (hi : w.objs i = some o)
    (hnat : o.native = some p) (hcls : o.cls = .child c) (hl : o.link = some j) :
    Usable Native.owners b p := by
  refine ⟨h.live hi hnat (h.open_of_cls hi (by rw [hcls]; exact PyClass.noConfusion)), ?_⟩
  intro q hq
  have hpcls := (h.wf.native hi hnat).2
  rw [hcls] at hpcls
  cases p with
  | session k => cases hpcls
  | child c s k =>
    rw [List.mem_singleton.mp hq]
    exact h.parent_live hi hnat hl rfl
  | handle s f k => cases hpcls

/-- So may the one of a reachable wrapper. -/
theorem reachable_usable (h : w.Tracked b) {c : SessionClass} (hi : w.objs i = some o)
    (hnat : o.native = some p) (hcls : o.cls = .child c) (ht : o.trash = false) :
    Usable Native.owners b p := by
  have hlink := h.wf.linked hi ht (by rw [hnat]; exact Option.some_ne_none p)
    (by rw [hcls]; exact PyClass.noConfusion)
  obtain ⟨j, hl⟩ := Option.ne_none_iff_exists'.mp hlink
  exact h.linked_usable hi hnat hcls hl

theorem handle_usable (h : w.Tracked b) (hi : w.objs i = some o) (hnat : o.native = some p)
    (hcls : o.cls = .sftpHandle) (hopen : o.closed = false) : Usable Native.owners b p :=
  ⟨h.live hi hnat hopen, h.opened hi hnat hcls hopen⟩

/-! ## Steps -/

theorem set (h : w.Tracked b) (hi : w.objs i = some o) (hadj : w.Adjusts i o o') :
    (w.set i o').Tracked b where
  wf := h.wf.set hi hadj
  fresh := h.fresh
  live hk hnat hopen := by
    rcases set_cases hk with ⟨rfl, rfl⟩ | ⟨-, hk⟩
    · exact h.live hi (hadj.native ▸ hnat) (hadj.opened hopen)
    · exact h.live hk hnat hopen
  opened hk hnat hcls hopen := by
    rcases set_cases hk with ⟨rfl, rfl⟩ | ⟨-, hk⟩
    · exact h.opened hi (hadj.native ▸ hnat) (hadj.cls ▸ hcls) (hadj.opened hopen)
    · exact h.opened hk hnat hcls hopen

theorem erase (h : w.Tracked b) (hkids : ∀ {k c}, w.objs k = some c → c.link ≠ some i) :
    (w.erase i).Tracked b where
  wf := h.wf.erase hkids
  fresh := h.fresh
  live hk hnat hopen := h.live (erase_cases hk).2 hnat hopen
  opened hk hnat hcls hopen := h.opened (erase_cases hk).2 hnat hcls hopen

/-- A native object can be released once no wrapper counts on it. -/
theorem release (h : w.Tracked b) (hlt : p.number < w.next)
    (hown : ∀ {k c}, w.objs k = some c → c.native = some p → c.closed = true)
    (hdep : w.NoOpenHandle p) : w.Tracked (post b (.release p)) where
  wf := h.wf
  fresh := fresh_post h.fresh (Nat.le_refl _) hlt
  live hk hnat hopen := by
    rw [post_of_ne, h.live hk hnat hopen]
    rintro rfl
    exact absurd (hopen.symm.trans (hown hk hnat)) Bool.false_ne_true
  opened hk hnat hcls hopen q hq := by
    rw [post_of_ne, h.opened hk hnat hcls hopen q hq]
    rintro rfl
    exact hdep _ _ _ hk hnat hcls hopen hq

theorem construct (h : w.Tracked b) (hfits : w.Fits o) (hnone : o.native = none) :
    (w.alloc o).Tracked b where
  wf := h.wf.alloc hfits
  fresh q hq := h.fresh q (Nat.le_of_succ_le hq)
  live hk hnat hopen := by
    rcases alloc_cases hk with ⟨-, rfl⟩ | ⟨-, hk⟩
    · rw [hnone] at hnat
      cases hnat
    · exact h.live hk hnat hopen
  opened hk hnat hcls hopen := by
    rcases alloc_cases hk with ⟨-, rfl⟩ | ⟨-, hk⟩
    · rw [hnone] at hnat
      cases hnat
    · exact h.opened hk hnat hcls hopen

/-- The owners of a new native object are live: its wrapper has a reachable parent. -/
theorem owners_live (h : w.Tracked b) (hfits : w.Fits o) (hnat : o.native = some p) :
    ∀ q ∈ p.owners, b q = .live := by
  have hlinked (hcls : o.cls ≠ .session) :=
    hfits.linked (by rw [hnat]; exact Option.some_ne_none p) hcls
  have hpcls := (hfits.native hnat).2
  cases p with
  | session k => exact fun q hq => absurd hq List.not_mem_nil
  | child c s k =>
    obtain ⟨j, hl⟩ := Option.ne_none_iff_exists'.mp
      (hlinked (by rw [← hpcls]; exact PyClass.noConfusion))
    obtain ⟨par, hpar, ht, hpnat⟩ := hfits.parent hl
    have hqnat : par.native = some (.session s) := hpnat _ hnat
    intro q hq
    rw [List.mem_singleton.mp hq]
    refine h.live hpar hqnat (h.open_of_cls hpar ?_)
    rw [← (h.wf.native hpar hqnat).2]
    exact PyClass.noConfusion
  | handle s f k =>
    obtain ⟨j, hl⟩ := Option.ne_none_iff_exists'.mp
      (hlinked (by rw [← hpcls]; exact PyClass.noConfusion))
    obtain ⟨par, hpar, ht, hpnat⟩ := hfits.parent hl
    have hqnat : par.native = some (.child .sftp s f) := hpnat _ hnat
    obtain ⟨hlive, howners⟩ :=
      h.reachable_usable hpar hqnat (h.wf.native hpar hqnat).2.symm ht
    intro q hq
    rcases List.mem_cons.mp hq with rfl | hq
    · exact hlive
    · exact howners q hq

theorem create (h : w.Tracked b) (hfits : w.Fits o) (hnat : o.native = some p) :
    (w.alloc o).Tracked (post b (.acquire p)) := by
  obtain ⟨hnum, -⟩ := hfits.native hnat
  have hkeep {q : Native} (hq : b q = .live) : post b (.acquire p) q = .live := by
    by_cases hqp : (Event.acquire p).about = q
    · obtain rfl : p = q := hqp
      exact Function.update_self ..
    · rwa [post_of_ne hqp]
  constructor
  · exact h.wf.alloc hfits
  · exact fresh_post h.fresh (Nat.le_succ _) (Nat.lt_succ_of_le (Nat.le_of_eq hnum))
  · intro k c q hk hq hopen
    rcases alloc_cases hk with ⟨-, rfl⟩ | ⟨-, hk⟩
    · obtain rfl := Option.some.inj (hnat.symm.trans hq)
      exact Function.update_self ..
    · exact hkeep (h.live hk hq hopen)
  · intro k c q hk hq hcls hopen r hr
    rcases alloc_cases hk with ⟨-, rfl⟩ | ⟨-, hk⟩
    · obtain rfl := Option.some.inj (hnat.symm.trans hq)
      exact hkeep (h.owners_live hfits hnat r hr)
    · exact hkeep (h.opened hk hq hcls hopen r hr)

end Heap.Tracked

/-! ## Destructors -/

section

variable {w : Heap} {b : Books Native} {i : Nat} {o : Wrapper} {p : Native} {rc : Int}

theorem Native.owners_cls {p q : Native} (h : p ∈ q.owners) :
    p.cls = .session ∨ p.cls = .child .sftp := by
  cases q with
  | session k => exact absurd h List.not_mem_nil
  | child c s k =>
    rw [List.mem_singleton.mp h]
    exact .inl rfl
  | handle s f k =>
    rcases List.mem_cons.mp h with rfl | h
    · exact .inr rfl
    · rw [List.mem_singleton.mp h]
      exact .inl rfl

theorem Heap.noOpenHandle_of_cls (h₁ : p.cls ≠ .session) (h₂ : p.cls ≠ .child .sftp) :
    w.NoOpenHandle p :=
  fun _ _ _ _ _ _ _ hq => (Native.owners_cls hq).elim h₁ h₂

/-- What a destructor does with a tracked heap: nothing that matters, or it frees an object that may
be passed. When it completes this in order, no open handle depends on the object. -/
inductive Frees (w : Heap) (b : Books Native) (o : Wrapper) (es : List ObjCall) : Prop
  | nothing (h : es.flatMap ObjCall.event = [])
  | frees (fn : FreeFn) (p : Native) (rc : Int) (hnat : o.native = some p)
      (h : es = [.free fn (some p) rc]) (husable : Usable Native.owners b p)
      (hdep : (ObjCall.free fn (some p) rc).released ≠ [] → w.NoOpenHandle p)

theorem Heap.Tracked.destructor (h : w.Tracked b) (hi : w.objs i = some o)
    (hg : HeapOp.InOrder w (.destroy i rc)) : Frees w b o (w.destructor o rc) := by
  cases hcls : o.cls with
  | session =>
    cases hnat : o.native with
    | none =>
      refine .nothing ?_
      rw [Heap.destructor, hcls, hnat]
      rfl
    | some p =>
      have hpcls := (h.wf.native hi hnat).2
      rw [hcls] at hpcls
      refine .frees .sessionFree p rc hnat ?_ ⟨h.live hi hnat (h.open_of_cls hi ?_), ?_⟩
        fun _ => hg o p hi hnat (.inl hcls)
      · rw [Heap.destructor, hcls, hnat]
        rfl
      · rw [hcls]
        exact PyClass.noConfusion
      · cases p with
        | session k => exact fun q hq => absurd hq List.not_mem_nil
        | child c s k => cases hpcls
        | handle s f k => cases hpcls
  | child c =>
    obtain hnone | ⟨p, hlink, hnat, hes⟩ := destructor_child w rc hcls
    · rw [hnone]
      exact .nothing rfl
    · obtain ⟨j, hl⟩ := Option.ne_none_iff_exists'.mp hlink
      refine .frees c.freeFn p (c.freeCode rc) hnat hes (h.linked_usable hi hnat hcls hl) ?_
      intro hrel
      by_cases hc : c = .sftp
      · subst hc
        exact hg o p hi hnat (.inr ⟨hcls, hlink, fun hrc => hrel (if_pos hrc)⟩)
      · have hpcls := (h.wf.native hi hnat).2
        rw [hcls] at hpcls
        refine Heap.noOpenHandle_of_cls ?_ ?_
        · rw [hpcls]
          exact PyClass.noConfusion
        · rw [hpcls]
          exact fun heq => hc (PyClass.child.inj heq)
  | sftpHandle =>
    rw [Heap.destructor, hcls]
    show Frees w b o (sftpHandleDealloc rc o.closed o.native)
    cases hopen : o.closed with
    | true => exact .nothing rfl
    | false =>
      cases hnat : o.native with
      | none => exact .nothing rfl
      | some p =>
        have hpcls := (h.wf.native hi hnat).2
        rw [hcls] at hpcls
        refine .frees .sftpCloseHandle p rc hnat rfl (h.handle_usable hi hnat hcls hopen) fun _ =>
          ?_
        refine Heap.noOpenHandle_of_cls ?_ ?_ <;> rw [hpcls] <;> exact PyClass.noConfusion

end

/-! ## One step -/

section

variable {w w' : Heap} {b : Books Native} {i : Nat} {o : Wrapper} {p : Native} {rc : Int}
  {es : List ObjCall}

/-- The ledger accepts a call that frees, if the heap is tracked whether it completes or not. -/
theorem accepts_free {fn : FreeFn} (husable : Usable Native.owners b p) (hblock : w'.Tracked b)
    (hdone : (ObjCall.free fn (some p) rc).released ≠ [] → w'.Tracked (post b (.release p))) :
    ∃ b', ((spec Native.owners).comap ObjCall.event).accepts b [.free fn (some p) rc] b' ∧
      w'.Tracked b' := by
  by_cases hrel : (ObjCall.free fn (some p) rc).released = []
  · have hevent : [ObjCall.free fn (some p) rc].flatMap ObjCall.event = [.call p] := by
      rw [List.flatMap_singleton, ObjCall.event, if_pos hrel]
    exact ⟨b, accepts_of_log hevent ⟨husable, trivial⟩, hblock⟩
  · have hevent : [ObjCall.free fn (some p) rc].flatMap ObjCall.event = [.release p] := by
      rw [List.flatMap_singleton, ObjCall.event, if_neg hrel]
    exact ⟨_, accepts_of_log hevent ⟨husable, trivial⟩, hdone hrel⟩

/-- The wrapper of an object has been destroyed, and no other one is left. -/
theorem Heap.Tracked.destroyed (h : w.Tracked b) (hi : w.objs i = some o) (hnat : o.native = some p)
    (hkids : ∀ {k c}, w.objs k = some c → c.link ≠ some i) (hdep : w.NoOpenHandle p) :
    (w.erase i).Tracked (post b (.release p)) := by
  refine (h.erase hkids).release (h.wf.number_lt hi hnat) ?_ ?_
  · intro k c hk hc
    obtain ⟨hki, hk⟩ := erase_cases hk
    exact absurd (h.wf.unique hk hi hc hnat) hki
  · exact fun k c q hk => hdep k c q (erase_cases hk).2

/-- The wrapper of an open handle has become a closed one. -/
theorem Heap.Tracked.closed (h : w.Tracked b) (hi : w.objs i = some o) (hnat : o.native = some p)
    (hcls : o.cls = .sftpHandle) (hadj : w.Adjusts i o { o with closed := true }) :
    (w.set i { o with closed := true }).Tracked (post b (.release p)) := by
  have hpcls := (h.wf.native hi hnat).2
  rw [hcls] at hpcls
  refine (h.set hi hadj).release (h.wf.number_lt hi hnat) ?_ ?_
  · intro k c hk hc
    rcases set_cases hk with ⟨-, rfl⟩ | ⟨hki, hk⟩
    · rfl
    · exact absurd (h.wf.unique hk hi hc hnat) hki
  · refine noOpenHandle_of_cls ?_ ?_ <;> rw [hpcls] <;> exact PyClass.noConfusion

/-- **One step**: a step in order refines the ledger. -/
theorem heap_refines :
    Refines heapStep HeapOp.InOrder ((spec Native.owners).comap ObjCall.event) Heap.Tracked := by
  intro w op w' es b h hg hs
  cases heapStep_change h.wf.bound hs with
  | create hfits hnat =>
    obtain ⟨hnum, -⟩ := hfits.native hnat
    exact ⟨_, ⟨⟨h.fresh _ (Nat.le_of_eq hnum.symm), trivial⟩, rfl⟩, h.create hfits hnat⟩
  | construct hfits hnat => exact ⟨b, accepts_of_log rfl trivial, h.construct hfits hnat⟩
  | takeOver hi hnat hcls => exact absurd ((hg _ hi).symm.trans hnat) (Option.some_ne_none _).symm
  | adjust hi hadj hlink hclosed => exact ⟨b, accepts_of_log rfl trivial, h.set hi hadj⟩
  | quiet => exact ⟨b, accepts_of_log rfl trivial, h⟩
  | pass hi hnat => exact ⟨b, accepts_of_log rfl trivial, h⟩
  | @close i o rc hi hcls hopen hadj =>
    have hclose (q : Option Native) (hnat : o.native = q) :
        ∃ b',
          ((spec Native.owners).comap ObjCall.event).accepts b [.free .sftpCloseHandle q rc] b' ∧
          (w.set i { o with closed := true }).Tracked b' := by
      cases q with
      | none => exact ⟨b, accepts_of_log rfl trivial, h.set hi hadj⟩
      | some p =>
        exact accepts_free (h.handle_usable hi hnat hcls hopen) (h.set hi hadj)
          fun _ => h.closed hi hnat hcls hadj
    exact hclose o.native rfl
  | @shutdown i o rc hi hcls htrash =>
    cases hnat : o.native with
    | none => exact ⟨b, accepts_of_log rfl trivial, h⟩
    | some p =>
      have hrc : rc = eagain := (hg o hi).resolve_left (by rw [hnat]; exact Option.some_ne_none p)
      exact accepts_free (h.reachable_usable hi hnat hcls htrash) h
        fun hrel => absurd (if_pos hrc) hrel
  | @destroy i o rc hi hkids =>
    obtain ⟨hnothing⟩ | ⟨fn, p, rc', hnat, hes, husable, hdep⟩ := h.destructor hi hg
    · exact ⟨b, accepts_of_log hnothing trivial, h.erase hkids⟩
    · rw [hes]
      exact accepts_free husable (h.erase hkids) fun hrel => h.destroyed hi hnat hkids (hdep hrel)

end

/-! ## Runs -/

theorem Heap.empty_tracked : Heap.empty.Tracked fun _ => .fresh where
  wf := empty_wf
  fresh _ _ := rfl
  live h := absurd h Heap.not_mem_empty
  opened h := absurd h Heap.not_mem_empty

/-- **Destruction in order.** In every run of a heap whose steps are in order, no native object is
freed after one of its parents, and none is freed twice. -/
theorem destroyed_inOrder (ops : List HeapOp) (calls : List ObjCall) (w : Heap)
    (hrun : Runs heapStep HeapOp.InOrder .empty ops calls w) : DestroyedInOrder calls := by
  obtain ⟨b, ⟨hsound, -⟩, -⟩ := heap_refines.run hrun Heap.empty_tracked
  constructor
  · intro before fn p rc after hcalls q hq
    rw [hcalls, List.flatMap_append, List.flatMap_cons, sound_append, sound_append] at hsound
    obtain ⟨hbefore, hfree, -⟩ := hsound
    have husable : Usable Native.owners (books (fun _ => .fresh) (before.flatMap ObjCall.event))
        p := by
      rw [ObjCall.event] at hfree
      split at hfree <;> exact hfree.1
    obtain ⟨-, hnot⟩ := hbefore.live_end rfl (husable.2 q hq)
    rw [← List.count_eq_zero, ← count_released, List.count_eq_zero]
    exact hnot
  · intro p
    rw [← count_released]
    exact hsound.count_release_le p

/-! ## Reference counting -/

/-- Every wrapper of a native object has its link. -/
def Heap.Intact (w : Heap) : Prop :=
  ∀ i o, w.objs i = some o → o.native ≠ none → o.cls ≠ .session → o.link ≠ none

theorem Heap.Change.intact {w w' : Heap} {op : HeapOp} {es : List ObjCall} (h : w.Intact)
    (hc : w.Change op w' es) (hg : op.RefCounted w) : w'.Intact := by
  have halloc {o : Wrapper} (hfits : w.Fits o) : (w.alloc o).Intact := by
    intro k c hk
    rcases alloc_cases hk with ⟨-, rfl⟩ | ⟨-, hk⟩
    · exact hfits.linked
    · exact h k c hk
  have hset {i : Nat} {o o' : Wrapper} (hi : w.objs i = some o) (hadj : w.Adjusts i o o')
      (hlink : o'.link = o.link) : (w.set i o').Intact := by
    intro k c hk
    rcases set_cases hk with ⟨-, rfl⟩ | ⟨-, hk⟩
    · rw [hadj.native, hadj.cls, hlink]
      exact h i o hi
    · exact h k c hk
  cases hc with
  | create hfits hnat => exact halloc hfits
  | construct hfits hnat => exact halloc hfits
  | takeOver hi hnat hcls => exact absurd ((hg _ hi).symm.trans hnat) (Option.some_ne_none _).symm
  | adjust hi hadj hlink hclosed =>
    rcases hlink with hlink | rfl
    · exact hset hi hadj hlink
    · exact hg.elim
  | quiet => exact h
  | pass hi hnat => exact h
  | close hi hcls hopen hadj => exact hset hi hadj rfl
  | shutdown hi hcls htrash => exact h
  | destroy hi hkids => exact fun k c hk => h k c (erase_cases hk).2

/-- An open handle has a link to its `SFTP`, and that one to its session: as long as there is a
link, the parent is not destroyed. -/
theorem Heap.Intact.noOpenHandle {w : Heap} (h : w.Intact) (hwf : w.WF) {i : Nat} {o : Wrapper}
    {p : Native} (hi : w.objs i = some o) (hnat : o.native = some p)
    (hkids : ∀ {k c}, w.objs k = some c → c.link ≠ some i) : w.NoOpenHandle p := by
  intro k c q hk hq hcls _ hown
  have hqcls := (hwf.native hk hq).2
  have hparent {k : Nat} {c : Wrapper} {q : Native} (hk : w.objs k = some c)
      (hq : c.native = some q)
      (hcls : c.cls ≠ .session) :
      ∃ j par, c.link = some j ∧ w.objs j = some par ∧ par.native = q.parent := by
    obtain ⟨j, hl⟩ :=
      Option.ne_none_iff_exists'.mp (h k c hk (by rw [hq]; exact Option.some_ne_none q) hcls)
    obtain ⟨par, hpar, hpnat⟩ := hwf.parent hk hl
    exact ⟨j, par, hl, hpar, hpnat q hq⟩
  cases q with
  | session m => exact absurd hown List.not_mem_nil
  | child c' s m => exact absurd (hqcls.trans hcls) PyClass.noConfusion
  | handle s f m =>
    obtain ⟨j, par, hl, hpar, hpnat⟩ := hparent hk hq (by rw [hcls]; exact PyClass.noConfusion)
    rcases List.mem_cons.mp hown with rfl | hown
    · rw [hwf.unique hpar hi hpnat hnat] at hl
      exact hkids hk hl
    · have hpcls := (hwf.native hpar hpnat).2
      obtain ⟨j', par', hl', hpar', hpnat'⟩ :=
        hparent hpar hpnat (by rw [← hpcls]; exact PyClass.noConfusion)
      rw [List.mem_singleton.mp hown] at hnat
      rw [hwf.unique hpar' hi hpnat' hnat] at hl'
      exact hkids hpar hl'

/-- **Reference counting alone is in order**: what can go wrong with open handles takes a link that
the collector has cleared. -/
theorem refCounted_inOrder {ops : List HeapOp} {calls : List ObjCall} {w : Heap}
    (hrun : Runs heapStep HeapOp.RefCounted .empty ops calls w) :
    Runs heapStep HeapOp.InOrder .empty ops calls w := by
  refine Runs.mono (fun w => w.WF ∧ w.Intact) ?_ hrun
    ⟨Heap.empty_wf, fun _ _ h => absurd h Heap.not_mem_empty⟩
  rintro w op w' es ⟨hwf, hintact⟩ hg hs
  have hchange := heapStep_change hwf.bound hs
  refine ⟨?_, hchange.wf hwf ?_, hchange.intact hintact hg⟩
  · cases op with
    | getChannel i => exact hg
    | shutdown i rc => exact hg
    | destroy i rc =>
      obtain ⟨o, hi, ⟨-, hkids⟩, -⟩ := Heap.on_eq_some.mp hs
      intro o' p hi' hnat _
      refine hintact.noOpenHandle hwf hi' hnat fun {k c} hk => ?_
      simpa using (Heap.all_iff hwf.bound).mp hkids k c hk
    | _ => trivial
  · intro i hop
    subst hop
    exact hg

/-- A handle, its `SFTP`, a channel and their session, destroyed one after the other. -/
theorem destroyed_inOrder_example :
    ∃ calls w, Runs heapStep HeapOp.RefCounted .empty
      [.newSession, .wrap .sftp 0, .openHandle 1, .wrap .channel 0, .dropRef 0, .dropRef 1,
        .dropRef 2, .destroy 2 0, .destroy 1 0, .dropRef 3, .destroy 3 0, .destroy 0 0] calls w ∧
      DestroyedInOrder calls := by
  obtain ⟨calls, w, hrun⟩ : ∃ calls w, Runs heapStep HeapOp.RefCounted .empty
      [.newSession, .wrap .sftp 0, .openHandle 1, .wrap .channel 0, .dropRef 0, .dropRef 1,
        .dropRef 2, .destroy 2 0, .destroy 1 0, .dropRef 3, .destroy 3 0, .destroy 0 0] calls w :=
    ⟨_, _, .cons trivial rfl <| .cons trivial rfl <| .cons trivial rfl <| .cons trivial rfl <|
      .cons trivial rfl <| .cons trivial rfl <| .cons trivial rfl <| .cons trivial rfl <|
      .cons trivial rfl <| .cons trivial rfl <| .cons trivial rfl <| .cons trivial rfl <| .nil _⟩
  exact ⟨calls, w, hrun, destroyed_inOrder _ _ _ (refCounted_inOrder hrun)⟩

/-- The collector clears the link of an open handle first, so that the handle is closed after its
`SFTP` and its session are gone; the channel of `get_channel` is freed twice, and so is a public key
subsystem that was shut down. -/
theorem destroyed_outOfOrder :
    (∃ calls w, Runs heapStep (fun _ _ => True) .empty
      [.newSession, .wrap .sftp 0, .openHandle 1, .dropRef 0, .dropRef 1, .abandon 2, .abandon 1,
        .abandon 0, .clear 2, .destroy 1 0, .destroy 0 0, .dropRef 2, .destroy 2 0] calls w ∧
      ¬DestroyedInOrder calls) ∧
    (∃ calls w, Runs heapStep (fun _ _ => True) .empty
      [.newSession, .wrap .sftp 0, .getChannel 1, .dropRef 1, .destroy 1 0, .dropRef 2,
        .destroy 2 0]
      calls w ∧ ¬DestroyedInOrder calls) ∧
    ∃ calls w, Runs heapStep (fun _ _ => True) .empty
      [.newSession, .wrap .publicKeySystem 0, .shutdown 1 0, .dropRef 1, .destroy 1 0] calls w ∧
      ¬DestroyedInOrder calls := by
  refine ⟨⟨_, _, runs_of_exec rfl, fun h => ?_⟩, ⟨_, _, runs_of_exec rfl, fun h => ?_⟩,
    ⟨_, _, runs_of_exec rfl, fun h => ?_⟩⟩
  · have hparents := h.parents
      [.acquired (.session 0), .acquired (.child .sftp 0 1), .acquired (.handle 0 1 2),
        .free .sftpShutdown (some (.child .sftp 0 1)) 0, .free .sessionFree (some (.session 0)) 0]
      .sftpCloseHandle (.handle 0 1 2) 0 [] rfl (.child .sftp 0 1) List.mem_cons_self
    exact absurd hparents (by decide)
  · exact absurd (h.once (.child .sftp 0 1)) (by decide)
  · exact absurd (h.once (.child .publicKeySystem 0 1)) (by decide)

end Ssh2Python
