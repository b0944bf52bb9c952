import Ssh2Python.Verify.Objects

/-!
# What is released in the end

Nothing but its wrapper releases a session, or a file or directory that is open, and the wrapper
tries so once. `Heap.Accounted` is the ledger of these attempts, `attempts_refine` says that each
step keeps to it, and `allReleased_iff` that everything of a session has been released, once all its
wrappers are gone, exactly if each of the attempts frees its object, and comes before what the
object belongs to has been freed.
-/

namespace Ssh2Python

open Lib.Run Lib.Ledger

/-! ## Attempts -/

/-- A session, or an open file or directory. -/
def Native.Final (p : Native) : Prop :=
  p.cls = .session ∨ p.cls = .sftpHandle

instance (p : Native) : Decidable p.Final :=
  inferInstanceAs (Decidable (_ ∨ _))

theorem Native.releasedWith_final {p : Native} (h : p.Final) : p.releasedWith = [p] := by
  cases p with
  | session k => rfl
  | handle s f k => rfl
  | child c s k => rcases h with h | h <;> cases h

theorem not_final_child {p : Native} {c : SessionClass} (h : p.cls = .child c) : ¬p.Final := by
  rw [Native.Final, h]
  exact fun h' => h'.elim PyClass.noConfusion PyClass.noConfusion

/-- A session is passed to the call that makes something of it. A call that frees a session, a file
or a directory is the last one about it, whether it completes or not. -/
def ObjCall.attempt : ObjCall → List (Event Native)
  | .acquired (.child c s k) => [.call (.session s), .acquire (.child c s k)]
  | .acquired p => [.acquire p]
  | .use _ _ => []
  | .free _ (some p) _ => if p.Final then [.release p] else []
  | .free _ none _ => []

theorem attempt_acquired {p : Native} (h : p.Final) :
    (ObjCall.acquired p).attempt = [.acquire p] := by
  cases p with
  | session k => rfl
  | handle s f k => rfl
  | child c s k => exact absurd h (not_final_child rfl)

theorem mem_attempt_acquire {c : ObjCall} {p : Native} (h : .acquire p ∈ c.attempt) :
    c = .acquired p := by
  cases c with
  | acquired q => cases q <;> simpa [ObjCall.attempt, eq_comm] using h
  | use cls q => exact absurd h List.not_mem_nil
  | free fn q rc =>
    cases q with
    | none => exact absurd h List.not_mem_nil
    | some q =>
      rw [ObjCall.attempt] at h
      split at h <;> simp at h

theorem mem_attempt_release {c : ObjCall} {p : Native} :
    .release p ∈ c.attempt ↔ p.Final ∧ ∃ fn rc, c = .free fn (some p) rc := by
  constructor
  · intro h
    cases c with
    | acquired q => cases q <;> simp [ObjCall.attempt] at h
    | use cls q => exact absurd h List.not_mem_nil
    | free fn q rc =>
      cases q with
      | none => exact absurd h List.not_mem_nil
      | some q =>
        rw [ObjCall.attempt] at h
        split at h
        · next hfinal =>
          obtain rfl := Event.release.inj (List.mem_singleton.mp h)
          exact ⟨hfinal, fn, rc, rfl⟩
        · exact absurd h List.not_mem_nil
  · rintro ⟨hfinal, fn, rc, rfl⟩
    rw [ObjCall.attempt, if_pos hfinal]
    exact List.mem_singleton_self _

/-! ## Numbers -/

section

variable {w w' : Heap} {b : Books Native} {op : HeapOp} {es : List ObjCall} {i k s : Nat}
  {o o' : Wrapper} {p q : Native} {rc : Int}

/-- A native object has the number of its wrapper, unless a `Channel` took it over from an
`SFTP`. -/
structure Heap.Numbered (w : Heap) : Prop where
  bound : ∀ {i o}, w.objs i = some o → i < w.next
  native : ∀ {i o p}, w.objs i = some o → o.native = some p →
    p.number = i ∧ p.cls = o.cls ∨ o.cls = .child .channel ∧ p.cls = .child .sftp

theorem Heap.Numbered.alloc (h : w.Numbered)
    (ho : ∀ p, o.native = some p →
      p.number = w.next ∧ p.cls = o.cls ∨ o.cls = .child .channel ∧ p.cls = .child .sftp) :
    (w.alloc o).Numbered where
  bound hk := by
    rcases alloc_cases hk with ⟨rfl, -⟩ | ⟨-, hk⟩
    · exact Nat.lt_succ_self _
    · exact Nat.lt_succ_of_lt (h.bound hk)
  native hk hp := by
    rcases alloc_cases hk with ⟨rfl, rfl⟩ | ⟨-, hk⟩
    · exact ho _ hp
    · exact h.native hk hp

theorem Heap.Numbered.set (h : w.Numbered) (hi : w.objs i = some o) (hadj : w.Adjusts i o o') :
    (w.set i o').Numbered where
  bound hk := by
    rcases set_cases hk with ⟨rfl, -⟩ | ⟨-, hk⟩
    · exact h.bound hi
    · exact h.bound hk
  native hk hp := by
    rcases set_cases hk with ⟨rfl, rfl⟩ | ⟨-, hk⟩
    · rw [hadj.native] at hp
      rw [hadj.cls]
      exact h.native hi hp
    · exact h.native hk hp

theorem Heap.Numbered.erase (h : w.Numbered) (i : Nat) : (w.erase i).Numbered where
  bound hk := h.bound (erase_cases hk).2
  native hk hp := h.native (erase_cases hk).2 hp

theorem Heap.Change.numbered (h : w.Numbered) (hc : w.Change op w' es) : w'.Numbered := by
  cases hc with
  | create hfits hnat => exact h.alloc fun _ hp => .inl (hfits.native hp)
  | construct hfits hnat => exact h.alloc fun _ hp => .inl (hfits.native hp)
  | @takeOver i o p hi hnat hcls =>
    refine h.alloc fun q hq => .inr ⟨rfl, ?_⟩
    obtain rfl : p = q := Option.some.inj hq
    rcases h.native hi hnat with ⟨-, hp⟩ | ⟨hchannel, -⟩
    · exact hp.trans hcls
    · rw [hcls] at hchannel
      cases hchannel
  | adjust hi hadj hlink hclosed => exact h.set hi hadj
  | quiet => exact h
  | pass hi hnat => exact h
  | close hi hcls hopen hadj => exact h.set hi hadj
  | shutdown hi hcls htrash => exact h
  | destroy hi hkids => exact h.erase _

theorem heapStep_numbered (h : w.Numbered) (hs : heapStep w op = some (w', es)) : w'.Numbered :=
  (heapStep_change h.bound hs).numbered h

/-- The native object of a wrapper of another class is not a session, nor an open file or
directory. -/
theorem Heap.Numbered.not_final (h : w.Numbered) (hi : w.objs i = some o) (hnat : o.native = some p)
    {c : SessionClass} (hcls : o.cls = .child c) : ¬p.Final := by
  rcases h.native hi hnat with ⟨-, hp⟩ | ⟨-, hp⟩
  · exact not_final_child (hp.trans hcls)
  · exact not_final_child hp

/-! ## Wrappers that owe a release -/

/-- The wrapper `i` owes the release of `p`. -/
def Heap.Owing (w : Heap) (i : Nat) (p : Native) : Prop :=
  ∃ o, w.objs i = some o ∧ o.native = some p ∧ o.Owes

theorem Heap.Numbered.owing (h : w.Numbered) (hp : w.Owing i p) : p.number = i ∧ p.Final := by
  obtain ⟨o, hi, hnat, howes⟩ := hp
  rcases h.native hi hnat with ⟨hnum, hcls⟩ | ⟨hcls, -⟩
  · refine ⟨hnum, ?_⟩
    rw [Native.Final, hcls]
    exact howes.imp_right And.left
  · rw [Wrapper.Owes, hcls] at howes
    rcases howes with h | ⟨h, -⟩ <;> cases h

theorem Heap.owing_alloc (h : w.Numbered) :
    (w.alloc o).Owing k q ↔ w.Owing k q ∨ k = w.next ∧ o.native = some q ∧ o.Owes := by
  constructor
  · rintro ⟨c, hk, hnat, howes⟩
    rcases alloc_cases hk with ⟨rfl, rfl⟩ | ⟨-, hk⟩
    · exact .inr ⟨rfl, hnat, howes⟩
    · exact .inl ⟨c, hk, hnat, howes⟩
  · rintro (⟨c, hk, hnat, howes⟩ | ⟨rfl, hnat, howes⟩)
    · exact ⟨c, alloc_old h.bound hk, hnat, howes⟩
    · exact ⟨o, Function.update_self .., hnat, howes⟩

theorem Heap.owing_set (hi : w.objs i = some o) (hnat : o'.native = o.native)
    (howes : o'.Owes ↔ o.Owes) : (w.set i o').Owing k q ↔ w.Owing k q := by
  constructor
  · rintro ⟨c, hk, hq, hc⟩
    rcases set_cases hk with ⟨rfl, rfl⟩ | ⟨-, hk⟩
    · exact ⟨o, hi, hnat ▸ hq, howes.mp hc⟩
    · exact ⟨c, hk, hq, hc⟩
  · rintro ⟨c, hk, hq, hc⟩
    by_cases hki : k = i
    · subst hki
      obtain rfl := Option.some.inj (hi.symm.trans hk)
      exact ⟨o', Function.update_self .., hnat ▸ hq, howes.mpr hc⟩
    · exact ⟨c, (Function.update_of_ne hki ..).trans hk, hq, hc⟩

/-- A wrapper that owes nothing any more. -/
theorem Heap.owing_settled (hnot : ¬o'.Owes) : (w.set i o').Owing k q ↔ w.Owing k q ∧ k ≠ i := by
  constructor
  · rintro ⟨c, hk, hq, hc⟩
    rcases set_cases hk with ⟨-, rfl⟩ | ⟨hki, hk⟩
    · exact absurd hc hnot
    · exact ⟨⟨c, hk, hq, hc⟩, hki⟩
  · rintro ⟨⟨c, hk, hq, hc⟩, hki⟩
    exact ⟨c, (Function.update_of_ne hki ..).trans hk, hq, hc⟩

theorem Heap.owing_erase : (w.erase i).Owing k q ↔ w.Owing k q ∧ k ≠ i := by
  constructor
  · rintro ⟨c, hk, hq, hc⟩
    obtain ⟨hki, hk⟩ := erase_cases hk
    exact ⟨⟨c, hk, hq, hc⟩, hki⟩
  · rintro ⟨⟨c, hk, hq, hc⟩, hki⟩
    exact ⟨c, (Function.update_of_ne hki ..).trans hk, hq, hc⟩

/-! ## The ledger of the attempts -/

/-- What is live is owed by a wrapper, if nothing else can release it. -/
structure Heap.Accounted (w : Heap) (b : Books Native) : Prop where
  numbered : w.Numbered
  fresh : ∀ p, w.next ≤ p.number → b p = .fresh
  live : ∀ {i p}, w.Owing i p → b p = .live
  owed : ∀ {p}, b p = .live → p.Final → ∃ i, w.Owing i p

theorem Heap.Accounted.keep (h : w.Accounted b) (hnum : w'.Numbered) (hnext : w.next ≤ w'.next)
    (hlive : ∀ {k q}, w'.Owing k q → w.Owing k q) (howed : ∀ {k q}, w.Owing k q → w'.Owing k q) :
    w'.Accounted b where
  numbered := hnum
  fresh p hp := h.fresh p (Nat.le_trans hnext hp)
  live hk := h.live (hlive hk)
  owed hp hfinal := (h.owed hp hfinal).imp fun _ hk => howed hk

theorem Heap.Accounted.create (h : w.Accounted b) (hfits : w.Fits o) (hnat : o.native = some p) :
    (w.alloc o).Accounted (post b (.acquire p)) := by
  obtain ⟨hnum, hcls⟩ := hfits.native hnat
  have hne : ∀ {k q}, w.Owing k q → p ≠ q := by
    rintro k q ⟨c, hk, hq, hc⟩ rfl
    have hlt := h.numbered.bound hk
    rw [← (h.numbered.owing ⟨c, hk, hq, hc⟩).1, hnum] at hlt
    exact Nat.lt_irrefl _ hlt
  refine ⟨h.numbered.alloc fun q hq => .inl (hfits.native hq), ?_, ?_, ?_⟩
  · exact fresh_post h.fresh (Nat.le_succ _) (Nat.lt_succ_of_le (Nat.le_of_eq hnum))
  · intro k q hk
    rcases (owing_alloc h.numbered).mp hk with hk | ⟨-, hq, -⟩
    · rw [post_of_ne (e := .acquire p) (hne hk), h.live hk]
    · obtain rfl := Option.some.inj (hnat.symm.trans hq)
      exact Function.update_self ..
  · intro q hq hfinal
    by_cases hpq : p = q
    · subst hpq
      refine ⟨w.next, (owing_alloc h.numbered).mpr (.inr ⟨rfl, hnat, ?_⟩)⟩
      rw [Native.Final, hcls] at hfinal
      exact hfinal.imp_right fun hc => ⟨hc, hfits.closed⟩
    · rw [post_of_ne (e := .acquire p) hpq] at hq
      exact (h.owed hq hfinal).imp fun k hk => (owing_alloc h.numbered).mpr (.inl hk)

/-- A wrapper makes its attempt, and owes nothing any more. -/
theorem Heap.Accounted.attempted (h : w.Accounted b) (hp : w.Owing i p) (hnum : w'.Numbered)
    (hnext : w'.next = w.next) (howing : ∀ {k q}, w'.Owing k q ↔ w.Owing k q ∧ k ≠ i) :
    w'.Accounted (post b (.release p)) := by
  have hlt : p.number < w.next := by
    rw [(h.numbered.owing hp).1]
    obtain ⟨o, hi, -⟩ := hp
    exact h.numbered.bound hi
  refine ⟨hnum, ?_, ?_, ?_⟩
  · rw [hnext]
    exact fresh_post h.fresh (Nat.le_refl _) hlt
  · intro k q hk
    obtain ⟨hk, hki⟩ := howing.mp hk
    rw [post_of_ne, h.live hk]
    intro hpq
    obtain rfl : p = q := hpq
    exact hki ((h.numbered.owing hk).1.symm.trans (h.numbered.owing hp).1)
  · intro q hq hfinal
    have hpq : p ≠ q := by
      rintro rfl
      exact Status.noConfusion ((Function.update_self ..).symm.trans hq)
    rw [post_of_ne (e := .release p) hpq] at hq
    obtain ⟨k, hk⟩ := h.owed hq hfinal
    refine ⟨k, howing.mpr ⟨hk, ?_⟩⟩
    rintro rfl
    obtain ⟨o, hi, hnat, -⟩ := hp
    obtain ⟨c, hk, hq', -⟩ := hk
    obtain rfl := Option.some.inj (hi.symm.trans hk)
    exact hpq (Option.some.inj (hnat.symm.trans hq'))

/-! ## One step -/

/-- What the wrapper `i` does with its native object when it is closed or destroyed. -/
inductive Heap.Attempts (w : Heap) (i : Nat) (o : Wrapper) (rc : Int) (es : List ObjCall) : Prop
  | attempt (fn : FreeFn) (p : Native) (howes : o.Owes) (hnat : o.native = some p)
      (hes : es = [.free fn (some p) rc])
  | null (hnat : o.native = none) (hlog : es.flatMap ObjCall.attempt = [])
  | nothing (hnot : ¬o.Owes) (hlog : es.flatMap ObjCall.attempt = [])

theorem Wrapper.not_owes {c : SessionClass} (hcls : o.cls = .child c) : ¬o.Owes := by
  rw [Wrapper.Owes, hcls]
  rintro (h | ⟨h, -⟩) <;> cases h

theorem Wrapper.not_owes_closed (hcls : o.cls = .sftpHandle) (hclosed : o.closed = true) :
    ¬o.Owes := by
  rintro (hsession | ⟨-, hopen⟩)
  · exact PyClass.noConfusion (hsession.symm.trans hcls)
  · exact Bool.false_ne_true (hopen.symm.trans hclosed)

theorem Heap.Attempts.close (fn : FreeFn) (howes : o.Owes) :
    w.Attempts i o rc [.free fn o.native rc] := by
  cases hnat : o.native with
  | none => exact .null hnat rfl
  | some p => exact .attempt fn p howes hnat rfl

theorem Heap.Numbered.destructor (h : w.Numbered) (hi : w.objs i = some o) :
    w.Attempts i o rc (w.destructor o rc) := by
  cases hcls : o.cls with
  | session =>
    rw [Heap.destructor, hcls]
    cases hnat : o.native with
    | none => exact .null hnat rfl
    | some p => exact .attempt .sessionFree p (.inl hcls) hnat rfl
  | sftpHandle =>
    rw [Heap.destructor, hcls]
    show w.Attempts i o rc (sftpHandleDealloc rc o.closed o.native)
    rw [sftpHandleDealloc]
    split
    · next hclosed =>
      exact .nothing (Wrapper.not_owes_closed hcls hclosed) rfl
    · next hopen => exact .close .sftpCloseHandle (.inr ⟨hcls, Bool.eq_false_iff.mpr hopen⟩)
  | child c =>
    refine .nothing (Wrapper.not_owes hcls) ?_
    obtain hes | ⟨p, -, hnat, hes⟩ := destructor_child w rc hcls
    · rw [hes]
      rfl
    · rw [hes, List.flatMap_singleton, ObjCall.attempt, if_neg (h.not_final hi hnat hcls)]

/-- The ledger accepts the attempt, after which the wrapper owes nothing. -/
theorem Heap.Accounted.attempts (h : w.Accounted b) (hi : w.objs i = some o)
    (hcase : w.Attempts i o rc es) (hnum : w'.Numbered) (hnext : w'.next = w.next)
    (howing : ∀ {k q}, w'.Owing k q ↔ w.Owing k q ∧ k ≠ i) :
    ∃ b', ((spec noOwners).comap ObjCall.attempt).accepts b es b' ∧ w'.Accounted b' := by
  have hquiet (hnone : ∀ q, ¬w.Owing i q) : w'.Accounted b := by
    refine h.keep hnum (Nat.le_of_eq hnext.symm) (fun hk => (howing.mp hk).1) fun hk => ?_
    refine howing.mpr ⟨hk, ?_⟩
    rintro rfl
    exact hnone _ hk
  cases hcase with
  | attempt fn p howes hnat hes =>
    have howing' : w.Owing i p := ⟨o, hi, hnat, howes⟩
    have hlog : es.flatMap ObjCall.attempt = [.release p] := by
      rw [hes, List.flatMap_singleton, ObjCall.attempt, if_pos (h.numbered.owing howing').2]
    refine ⟨_, accepts_of_log hlog ⟨usable_noOwners.mpr (h.live howing'), trivial⟩, ?_⟩
    exact h.attempted howing' hnum hnext howing
  | null hnat hlog =>
    refine ⟨b, accepts_of_log hlog trivial, hquiet ?_⟩
    rintro q ⟨c, hk, hq, -⟩
    obtain rfl := Option.some.inj (hi.symm.trans hk)
    exact Option.some_ne_none q (hq.symm.trans hnat)
  | nothing hnot hlog =>
    refine ⟨b, accepts_of_log hlog trivial, hquiet ?_⟩
    rintro q ⟨c, hk, -, hc⟩
    obtain rfl := Option.some.inj (hi.symm.trans hk)
    exact hnot hc

/-- A new native object, which is made of a live session. -/
theorem Heap.Accounted.created (h : w.Accounted b) (hfits : w.Fits o) (hnat : o.native = some p) :
    ∃ b', ((spec noOwners).comap ObjCall.attempt).accepts b [.acquired p] b' ∧
      (w.alloc o).Accounted b' := by
  obtain ⟨hnum, hcls⟩ := hfits.native hnat
  have hfresh : b p = .fresh := h.fresh p (Nat.le_of_eq hnum.symm)
  refine ⟨_, ?_, h.create hfits hnat⟩
  cases p with
  | session k => exact ⟨⟨hfresh, trivial⟩, rfl⟩
  | handle s f k => exact ⟨⟨hfresh, trivial⟩, rfl⟩
  | child c s k =>
    have hlink : o.link ≠ none := by
      refine hfits.linked (by rw [hnat]; exact Option.some_ne_none _) ?_
      rw [← hcls]
      exact PyClass.noConfusion
    obtain ⟨j, hj⟩ := Option.ne_none_iff_exists'.mp hlink
    obtain ⟨par, hpar, -, hparent⟩ := hfits.parent hj
    have hsession : par.native = some (.session s) := hparent _ hnat
    have hparcls : par.cls = .session := by
      rcases h.numbered.native hpar hsession with ⟨-, hcls⟩ | ⟨-, hcls⟩
      · exact hcls.symm
      · cases hcls
    have hlive := h.live ⟨par, hpar, hsession, .inl hparcls⟩
    exact ⟨⟨usable_noOwners.mpr hlive, hfresh, trivial⟩, rfl⟩

/-- **One step**: whatever it returns, a session, a file or a directory is handed over once. -/
theorem attempts_refine : Refines heapStep (fun _ _ => True)
    ((spec noOwners).comap ObjCall.attempt) Heap.Accounted := by
  intro w op w' es b h _ hs
  have hnum' := heapStep_numbered h.numbered hs
  cases heapStep_change h.numbered.bound hs with
  | create hfits hnat => exact h.created hfits hnat
  | @construct _ o hfits hnat =>
    refine ⟨b, accepts_of_log rfl trivial, h.keep hnum' (Nat.le_succ _) (fun hk => ?_) fun hk => ?_⟩
    · refine ((Heap.owing_alloc h.numbered).mp hk).resolve_right fun hnew => ?_
      exact Option.some_ne_none _ (hnew.2.1.symm.trans hnat)
    · exact (Heap.owing_alloc h.numbered).mpr (.inl hk)
  | @takeOver i o p hi hnat hcls =>
    refine ⟨b, accepts_of_log rfl trivial, h.keep hnum' (Nat.le_succ _) (fun hk => ?_) fun hk => ?_⟩
    · refine ((Heap.owing_alloc h.numbered).mp hk).resolve_right fun hnew => ?_
      exact Wrapper.not_owes rfl hnew.2.2
    · exact (Heap.owing_alloc h.numbered).mpr (.inl hk)
  | @adjust _ i o o' hi hadj hlink hclosed =>
    have howing {k q} : (w.set i o').Owing k q ↔ w.Owing k q := by
      refine Heap.owing_set hi hadj.native ?_
      rw [Wrapper.Owes, Wrapper.Owes, hadj.cls, hclosed]
    exact ⟨b, accepts_of_log rfl trivial, h.keep hnum' (Nat.le_refl _) howing.mp howing.mpr⟩
  | quiet => exact ⟨b, accepts_of_log rfl trivial, h⟩
  | pass hi hnat => exact ⟨b, accepts_of_log rfl trivial, h⟩
  | @close i o rc hi hcls hopen hadj =>
    have hattempt : w.Attempts i o rc [.free .sftpCloseHandle o.native rc] :=
      .close .sftpCloseHandle (.inr ⟨hcls, hopen⟩)
    exact h.attempts hi hattempt hnum' rfl (Heap.owing_settled (Wrapper.not_owes_closed hcls rfl))
  | @shutdown i o rc hi hcls htrash =>
    have hlog : (ObjCall.free .publickeyShutdown o.native rc).attempt = [] := by
      cases hnat : o.native with
      | none => rfl
      | some p => rw [ObjCall.attempt, if_neg (h.numbered.not_final hi hnat hcls)]
    exact ⟨b, accepts_of_log ((List.flatMap_singleton ..).trans hlog) trivial, h⟩
  | @destroy i o rc hi hkids =>
    exact h.attempts hi (h.numbered.destructor hi) hnum' rfl Heap.owing_erase

/-! ## Attempts that complete -/

/-- The call frees its object and finds its parents live, if it is the only one that may release
it. -/
def ObjCall.Completed (f : Freeing) (s : Nat) (calls : List ObjCall) (c : ObjCall) : Prop :=
  ∀ fn p rc, c = .free fn (some p) rc → p.Final → p.sessionNumber = s →
    f.frees p rc = true ∧ ∀ q ∈ p.owners, freedBy f calls q = false

theorem completed_of_attempt {f : Freeing} {calls : List ObjCall} {c : ObjCall}
    (h : c.attempt = []) : c.Completed f s calls := by
  rintro fn p rc rfl hfinal
  rw [ObjCall.attempt, if_pos hfinal] at h
  cases h

theorem each_completed_of_attempts {f : Freeing} {calls : List ObjCall}
    (h : es.flatMap ObjCall.attempt = []) : Each (ObjCall.Completed f s) calls es :=
  each_iff.mpr fun _ c _ hes => completed_of_attempt
    (List.flatMap_eq_nil_iff.mp h c (hes ▸ List.mem_append_right _ List.mem_cons_self))

theorem Heap.Attempts.completed_iff {f : Freeing} {calls : List ObjCall} (h : w.Numbered)
    (hi : w.objs i = some o) (hcase : w.Attempts i o rc es) :
    Each (ObjCall.Completed f s) calls es ↔ w.CompletesAt f calls s i rc := by
  have hat : w.CompletesAt f calls s i rc ↔ (o.Owes → ∀ p, o.native = some p →
      p.sessionNumber = s → f.frees p rc = true ∧ ∀ q ∈ p.owners, freedBy f calls q = false) := by
    rw [Heap.CompletesAt, hi]
    simp only [Option.mem_def, Option.some.injEq, forall_eq']
  rw [hat]
  cases hcase with
  | attempt fn p howes hnat hes =>
    rw [hes, Each, Each, and_true]
    constructor
    · intro hcompleted _ q hq
      obtain rfl := Option.some.inj (hnat.symm.trans hq)
      exact hcompleted fn p rc rfl (h.owing ⟨o, hi, hnat, howes⟩).2
    · intro hcompletes fn' q rc' heq _ hs
      obtain ⟨-, hpq, rfl⟩ := ObjCall.free.inj heq
      exact hcompletes howes q (hnat.trans hpq) hs
  | null hnat hlog =>
    refine iff_of_true (each_completed_of_attempts hlog) fun _ p hp => ?_
    exact absurd (hp.symm.trans hnat) (Option.some_ne_none p)
  | nothing hnot hlog =>
    exact iff_of_true (each_completed_of_attempts hlog) fun howes => absurd howes hnot

/-- The calls of a step complete exactly if the step does. -/
theorem heapStep_completed {f : Freeing} {calls : List ObjCall} (h : w.Numbered)
    (hs : heapStep w op = some (w', es)) :
    Each (ObjCall.Completed f s) calls es ↔ op.Completes f s (w, calls) := by
  have hother (hop : ∀ i rc, op ≠ .close i rc ∧ op ≠ .destroy i rc) :
      es.flatMap ObjCall.attempt = [] ∨ ∃ p, es = [.acquired p] := by
    cases heapStep_change h.bound hs with
    | create hfits hnat => exact .inr ⟨_, rfl⟩
    | construct hfits hnat => exact .inl rfl
    | takeOver hi hnat hcls => exact .inl rfl
    | adjust hi hadj hlink hclosed => exact .inl rfl
    | quiet => exact .inl rfl
    | pass hi hnat => exact .inl rfl
    | close hi hcls hopen hadj => exact absurd rfl (hop _ _).1
    | @shutdown i o rc hi hcls htrash =>
      refine .inl ?_
      rw [List.flatMap_singleton]
      cases hnat : o.native with
      | none => rfl
      | some p => rw [ObjCall.attempt, if_neg (h.not_final hi hnat hcls)]
    | destroy hi hkids => exact absurd rfl (hop _ _).2
  have hquiet (hop : ∀ i rc, op ≠ .close i rc ∧ op ≠ .destroy i rc) :
      Each (ObjCall.Completed f s) calls es := by
    rcases hother hop with hlog | ⟨p, rfl⟩
    · exact each_completed_of_attempts hlog
    · exact ⟨nofun, trivial⟩
  cases op with
  | close i rc =>
    obtain ⟨o, hi, ⟨hcls, -⟩, hs⟩ := Heap.on_eq_some.mp hs
    split at hs
    · next hclosed =>
      obtain ⟨rfl, rfl⟩ := Prod.mk.inj hs
      exact Heap.Attempts.completed_iff h hi (.nothing (Wrapper.not_owes_closed hcls hclosed) rfl)
    · next hopen =>
      obtain ⟨rfl, rfl⟩ := Prod.mk.inj hs
      exact Heap.Attempts.completed_iff h hi (.close .sftpCloseHandle
        (.inr ⟨hcls, Bool.eq_false_iff.mpr hopen⟩))
  | destroy i rc =>
    obtain ⟨o, hi, -, rfl, rfl⟩ := Heap.on_eq_some_pair hs
    exact Heap.Attempts.completed_iff h hi (h.destructor hi)
  | _ => exact iff_of_true (hquiet fun _ _ => ⟨nofun, nofun⟩) trivial

/-! ## Runs -/

theorem Heap.empty_accounted : Heap.empty.Accounted fun _ => .fresh where
  numbered := ⟨fun h => absurd h not_mem_empty, fun h => absurd h not_mem_empty⟩
  fresh _ _ := rfl
  live h := absurd h.choose_spec.1 not_mem_empty
  owed h := Status.noConfusion h

/-- What has to be released for `p`: the session, if `p` is a channel of it. -/
theorem Native.InTree.final_or (h : p.InTree) :
    p.Final ∨ ∃ c s k, p = .child c s k ∧ .session s ∈ p.releasedWith := by
  cases p with
  | session k => exact .inl (.inl rfl)
  | handle s f k => exact .inl (.inr rfl)
  | child c s k =>
    refine .inr ⟨c, s, k, rfl, ?_⟩
    rcases h with h | h | h | h <;> cases h <;>
      exact List.mem_cons_of_mem _ (List.mem_singleton_self _)

variable {f : Freeing} {calls before after : List ObjCall} {c : ObjCall}

theorem frees_eq_true (h : c.frees f p = true) :
    ∃ fn rc, c = .free fn (some p) rc ∧ f.frees p rc = true := by
  cases c with
  | acquired q => cases h
  | use cls q => cases h
  | free fn q rc =>
    cases q with
    | none => cases h
    | some q =>
      rw [ObjCall.frees, Bool.and_eq_true, decide_eq_true_eq] at h
      obtain ⟨rfl, hrc⟩ := h
      exact ⟨fn, rc, rfl, hrc⟩

/-- A call that is the last one about an object has seen none that freed it. -/
theorem freedBy_of_attempt (hsound : Sound noOwners (fun _ => .fresh)
      ((before ++ c :: after).flatMap ObjCall.attempt))
    (hc : .release p ∈ c.attempt) : freedBy f before p = false := by
  obtain ⟨hfinal, fn, rc, rfl⟩ := mem_attempt_release.mp hc
  rw [List.flatMap_append, List.flatMap_cons, ObjCall.attempt, if_pos hfinal,
    List.singleton_append] at hsound
  obtain ⟨-, hnot⟩ := hsound.valid (fun _ => rfl) _ _ _ rfl p (.inr rfl)
  rw [freedBy, List.any_eq_false]
  intro d hd hfrees
  obtain ⟨fn', rc', rfl, -⟩ := frees_eq_true hfrees
  exact hnot (List.mem_flatMap.mpr ⟨_, hd, mem_attempt_release.mpr ⟨hfinal, fn', rc', rfl⟩⟩)

/-- An object that was made is released later, if the attempts complete and nothing is live at the
end that nothing else can release. -/
theorem released_of_completed
    (hsound : Sound noOwners (fun _ => .fresh)
      ((before ++ .acquired p :: after).flatMap ObjCall.attempt))
    (hend : ∀ q, q.Final → q.sessionNumber = p.sessionNumber →
      books (fun _ => .fresh) ((before ++ .acquired p :: after).flatMap ObjCall.attempt) q ≠ .live)
    (hcompleted : Each (ObjCall.Completed f p.sessionNumber) [] (before ++ .acquired p :: after))
    (htree : p.InTree) :
    ∃ between c rest, after = between ++ c :: rest ∧ (∃ q ∈ p.releasedWith, c.frees f q = true) ∧
      ∀ q ∈ p.owners, freedBy f (before ++ .acquired p :: between) q = false := by
  have hall := hsound
  simp only [List.flatMap_append, List.flatMap_cons, books_append] at hend
  rw [List.flatMap_append, List.flatMap_cons, sound_append, sound_append] at hsound
  obtain ⟨-, hacquired, hafter⟩ := hsound
  have hrelease (q : Native) (hfinal : q.Final) (hs : q.sessionNumber = p.sessionNumber)
      (hlive : books (books (fun _ => .fresh) (before.flatMap ObjCall.attempt))
        (ObjCall.acquired p).attempt q = .live) :
      ∃ between c rest, after = between ++ c :: rest ∧ c.frees f q = true ∧
        freedBy f (before ++ .acquired p :: between) q = false ∧
        ∀ q' ∈ q.owners, freedBy f (before ++ .acquired p :: between) q' = false := by
    obtain ⟨c, hc, hmem⟩ := List.mem_flatMap.mp (hafter.mem_release hlive (hend q hfinal hs))
    obtain ⟨between, rest, rfl⟩ := List.append_of_mem hc
    have hsplit : before ++ .acquired p :: (between ++ c :: rest) =
        (before ++ .acquired p :: between) ++ c :: rest := by
      rw [List.append_assoc, List.cons_append]
    rw [hsplit] at hall hcompleted
    have hfresh := freedBy_of_attempt (f := f) hall hmem
    obtain ⟨-, fn, rc, rfl⟩ := mem_attempt_release.mp hmem
    obtain ⟨hfrees, howners⟩ := each_iff.mp hcompleted _ _ _ rfl fn q rc rfl hfinal hs
    rw [List.nil_append] at howners
    exact ⟨between, _, rest, rfl, by simp [ObjCall.frees, hfrees], hfresh, howners⟩
  rcases htree.final_or with hfinal | ⟨c, s, k, rfl, hmem⟩
  · have hlive : books (books (fun _ => .fresh) (before.flatMap ObjCall.attempt))
        (ObjCall.acquired p).attempt p = .live := by
      rw [attempt_acquired hfinal]
      exact Function.update_self ..
    obtain ⟨between, c, rest, hsplit, hfrees, -, howners⟩ := hrelease p hfinal rfl hlive
    refine ⟨between, c, rest, hsplit, ⟨p, ?_, hfrees⟩, howners⟩
    rw [Native.releasedWith_final hfinal]
    exact List.mem_singleton_self p
  · obtain ⟨hlive, -⟩ := hacquired
    have hne : Native.child c s k ≠ .session s := Native.noConfusion
    obtain ⟨between, c', rest, hsplit, hfrees, hfresh, -⟩ := hrelease (.session s) (.inl rfl) rfl
      ((post_of_ne (e := .acquire (Native.child c s k)) hne).trans hlive.1)
    refine ⟨between, c', rest, hsplit, ⟨_, hmem, hfrees⟩, fun q hq => ?_⟩
    obtain rfl := List.mem_singleton.mp hq
    exact hfresh

/-- An object that only its wrapper releases is released by the one attempt. -/
theorem completed_of_released
    (hsound : Sound noOwners (fun _ => .fresh) (calls.flatMap ObjCall.attempt))
    (hall : AllReleased f s calls) : Each (ObjCall.Completed f s) [] calls := by
  refine each_iff.mpr ?_
  rintro before c after rfl fn p rc rfl hfinal hs
  rw [List.nil_append]
  have hattempt : (ObjCall.free fn (some p) rc).attempt = [.release p] := if_pos hfinal
  rw [List.flatMap_append, List.flatMap_cons, hattempt, List.singleton_append] at hsound
  obtain ⟨hacq, hnot⟩ := hsound.valid (fun _ => rfl) _ _ _ rfl p (.inr rfl)
  obtain ⟨d, hd, hmem⟩ := List.mem_flatMap.mp hacq
  obtain rfl := mem_attempt_acquire hmem
  obtain ⟨before₁, before₂, rfl⟩ := List.append_of_mem hd
  have htree : p.InTree := hfinal.elim .inl fun h => .inr (.inr (.inr h))
  obtain ⟨between, c', rest, hsplit, ⟨q, hq, hfrees⟩, howners⟩ :=
    hall before₁ p (before₂ ++ .free fn (some p) rc :: after)
      (by rw [List.append_assoc, List.cons_append]) hs htree
  rw [Native.releasedWith_final hfinal] at hq
  obtain rfl := List.mem_singleton.mp hq
  obtain ⟨fn', rc', rfl, hrc⟩ := frees_eq_true hfrees
  -- the call that released the object is an attempt, and there is only one
  have hmem' : .release q ∈ (ObjCall.free fn' (some q) rc').attempt :=
    mem_attempt_release.mpr ⟨hfinal, fn', rc', rfl⟩
  have hbefore : ObjCall.free fn' (some q) rc' ∉ before₂ := fun hc' =>
    hnot (List.mem_flatMap.mpr ⟨_, List.mem_append_right _ (List.mem_cons_of_mem _ hc'), hmem'⟩)
  have hafter : ObjCall.free fn' (some q) rc' ∉ after := fun hc' =>
    hsound.release_last _ (List.mem_flatMap.mpr ⟨_, hc', hmem'⟩) rfl
  obtain ⟨rfl, heq, -⟩ := (List.append_cons_inj_of_notMem hbefore hafter).mp hsplit
  obtain ⟨-, -, rfl⟩ := ObjCall.free.inj heq
  exact ⟨hrc, howners⟩

end

/-- **What is released in the end.** In every run of a heap at the end of which no wrapper of a
session or of what was created from it is left, the native session and all its channels, SFTP
instances, files and directories have been released, exactly if each call by which a destructor of
the `Session`, or `close` or the destructor of an open `SFTPHandle` of it, releases its object frees
it, and before the `SFTP` and the session of the object have been freed. -/
theorem allReleased_iff (f : Freeing) (s : Nat) (ops : List HeapOp) (calls : List ObjCall)
    (w : Heap)
    (hrun : Runs heapStep (fun _ _ => True) .empty ops calls w) (hgone : w.Gone s) :
    AllReleased f s calls ↔
      Runs (logged heapStep) (HeapOp.Completes f s) (.empty, []) ops calls (w, calls) := by
  obtain ⟨b, ⟨hsound, rfl⟩, haccounted⟩ := attempts_refine.run hrun Heap.empty_accounted
  have hcompletes : Each (ObjCall.Completed f s) [] calls ↔
      Runs (logged heapStep) (HeapOp.Completes f s) (.empty, []) ops calls (w, [] ++ calls) :=
    hrun.logged_iff_of_inv Heap.Numbered
      (fun w op w' es log h hs => ⟨heapStep_numbered h hs, heapStep_completed h hs⟩)
      Heap.empty_accounted.numbered
  rw [List.nil_append] at hcompletes
  rw [← hcompletes]
  constructor
  · exact completed_of_released hsound
  · rintro hcompleted before p after rfl rfl htree
    refine released_of_completed hsound ?_ hcompleted htree
    intro q hfinal hs hlive
    obtain ⟨i, o, hi, hnat, -⟩ := haccounted.owed hlive hfinal
    exact hgone i o q hi hnat hs

theorem numbered_of_run {guard : Heap → HeapOp → Prop} {ops : List HeapOp} {calls : List ObjCall}
    {w : Heap} (hrun : Runs heapStep guard .empty ops calls w) : w.Numbered :=
  (Runs.induction Heap.Numbered (fun _ => True)
    (fun _ _ _ _ h _ hs => ⟨heapStep_numbered h hs, fun _ _ => trivial⟩) hrun
    Heap.empty_accounted.numbered).1

theorem gone_of_run {guard : Heap → HeapOp → Prop} {ops : List HeapOp} {calls : List ObjCall}
    {w : Heap} (hrun : Runs heapStep guard .empty ops calls w)
    (hall : w.all (fun _ => false) = true) (s : Nat) :
    w.Gone s := fun i o _ hi =>
  absurd ((Heap.all_iff (numbered_of_run hrun).bound).mp hall i o hi) Bool.false_ne_true

/-- Only a call that succeeds frees. -/
def Freeing.ifSuccess : Freeing where
  frees _ rc := rc = 0
  success _ := rfl
  again _ := rfl

/-- The session releases the `Channel` and the `SFTP` whose destructors would have blocked. -/
theorem allReleased_iff_example :
    ∃ calls w, Runs heapStep (fun _ _ => True) .empty
      [.newSession, .wrap .sftp 0, .wrap .channel 0, .openHandle 1, .dropRef 3, .destroy 3 0,
        .dropRef 2, .destroy 2 eagain, .dropRef 1, .destroy 1 eagain, .dropRef 0, .destroy 0 0]
        calls w ∧
      AllReleased .ifSuccess 0 calls := by
  obtain ⟨calls, w, hrun, hfree, hall⟩ : ∃ calls w,
      Runs (logged heapStep) (HeapOp.Completes .ifSuccess 0) (.empty, [])
        [.newSession, .wrap .sftp 0, .wrap .channel 0, .openHandle 1, .dropRef 3, .destroy 3 0,
          .dropRef 2, .destroy 2 eagain, .dropRef 1, .destroy 1 eagain, .dropRef 0, .destroy 0 0]
        calls (w, calls) ∧
      Runs heapStep (fun _ _ => True) .empty
        [.newSession, .wrap .sftp 0, .wrap .channel 0, .openHandle 1, .dropRef 3, .destroy 3 0,
          .dropRef 2, .destroy 2 eagain, .dropRef 1, .destroy 1 eagain, .dropRef 0, .destroy 0 0]
        calls w ∧ w.all (fun _ => false) = true :=
    ⟨_, _, .cons trivial rfl <| .cons trivial rfl <| .cons trivial rfl <| .cons trivial rfl <|
      .cons trivial rfl <| .cons (show Heap.CompletesAt _ _ _ _ _ _ by decide) rfl <|
      .cons trivial rfl <| .cons (show Heap.CompletesAt _ _ _ _ _ _ by decide) rfl <|
      .cons trivial rfl <| .cons (show Heap.CompletesAt _ _ _ _ _ _ by decide) rfl <|
      .cons trivial rfl <| .cons (show Heap.CompletesAt _ _ _ _ _ _ by decide) rfl <| .nil _,
      runs_of_exec rfl, by decide⟩
  exact ⟨calls, w, hfree,
    (allReleased_iff .ifSuccess 0 _ calls w hfree (gone_of_run hfree hall 0)).mpr hrun⟩

/-- A run at the end of which nothing is left, although something was not released. -/
theorem lost_of_exec {ops : List HeapOp} {calls : List ObjCall} {w : Heap}
    (hexec : exec heapStep .empty ops = some (w, calls)) (hall : w.all (fun _ => false) = true)
    (hlost : ¬AllReleased .ifSuccess 0 calls) :
    ∃ calls w, Runs heapStep (fun _ _ => True) .empty ops calls w ∧
      w.Gone 0 ∧ ¬AllReleased .ifSuccess 0 calls :=
  ⟨calls, w, runs_of_exec hexec, gone_of_run (runs_of_exec hexec) hall 0, hlost⟩

/-- An open file whose destructor would block, or times out, is lost, and so is a session. -/
theorem not_allReleased :
    (∃ calls w, Runs heapStep (fun _ _ => True) .empty
      [.newSession, .wrap .sftp 0, .openHandle 1, .dropRef 2, .destroy 2 eagain, .dropRef 1,
        .destroy 1 0, .dropRef 0, .destroy 0 0] calls w ∧ w.Gone 0 ∧
      ¬AllReleased .ifSuccess 0 calls) ∧
    (∃ calls w, Runs heapStep (fun _ _ => True) .empty
      [.newSession, .wrap .sftp 0, .openHandle 1, .dropRef 2, .destroy 2 (-9), .dropRef 1,
        .destroy 1 0, .dropRef 0, .destroy 0 0] calls w ∧ w.Gone 0 ∧
      ¬AllReleased .ifSuccess 0 calls) ∧
    ∃ calls w, Runs heapStep (fun _ _ => True) .empty
      [.newSession, .wrap .channel 0, .dropRef 1, .destroy 1 eagain, .dropRef 0, .destroy 0 eagain]
      calls w ∧ w.Gone 0 ∧ ¬AllReleased .ifSuccess 0 calls := by
  have hlost {calls after : List ObjCall} (before : List ObjCall) (p : Native)
      (hsplit : calls = before ++ .acquired p :: after) (hs : p.sessionNumber = 0)
      (htree : p.InTree)
      (hkept : ∀ c ∈ after, ∀ q ∈ p.releasedWith, c.frees .ifSuccess q = false) :
      ¬AllReleased .ifSuccess 0 calls := by
    intro h
    obtain ⟨between, c, rest, rfl, ⟨q, hq, hfrees⟩, -⟩ := h before p after hsplit hs htree
    have hc := hkept c (List.mem_append_right _ List.mem_cons_self) q hq
    exact Bool.false_ne_true (hc.symm.trans hfrees)
  refine ⟨?_, ?_, ?_⟩
  · refine lost_of_exec rfl (by decide) ?_
    exact hlost [_, _] (.handle 0 1 2) rfl rfl (.inr (.inr (.inr rfl))) (by decide)
  · refine lost_of_exec rfl (by decide) ?_
    exact hlost [_, _] (.handle 0 1 2) rfl rfl (.inr (.inr (.inr rfl))) (by decide)
  · refine lost_of_exec rfl (by decide) ?_
    exact hlost [] (.session 0) rfl rfl (.inl rfl) (by decide)

end Ssh2Python
