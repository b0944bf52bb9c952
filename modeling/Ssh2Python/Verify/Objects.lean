import Ssh2Python.Objects

/-!
# The heap of wrappers

`Heap.WF` is what the links and the native pointers keep to as long as no wrapper takes over the
native object of another one: each native object has one wrapper, the parent of a wrapper exists and
wraps the native parent, and a wrapper that is reachable has its link. `heapStep_change` says once
what a step can do, and `Heap.Change.wf` that it keeps the heap well formed.
-/

namespace Ssh2Python

open Lib.Run Lib.Ledger

structure Heap.WF (w : Heap) : Prop where
  bound : ∀ {i o}, w.objs i = some o → i < w.next
  native : ∀ {i o p}, w.objs i = some o → o.native = some p → p.number = i ∧ p.cls = o.cls
  closed : ∀ {i o}, w.objs i = some o → o.closed = true → o.cls = .sftpHandle
  parent : ∀ {i o j}, w.objs i = some o → o.link = some j →
    ∃ par, w.objs j = some par ∧ ∀ p, o.native = some p → par.native = p.parent
  linked : ∀ {i o}, w.objs i = some o → o.trash = false → o.native ≠ none → o.cls ≠ .session →
    o.link ≠ none
  reach : ∀ {i o j par}, w.objs i = some o → o.trash = false → o.link = some j →
    w.objs j = some par → par.trash = false

/-- A native object has one wrapper. -/
theorem Heap.WF.unique {w : Heap} (h : w.WF) {i j : Nat} {o o' : Wrapper} {p : Native}
    (hi : w.objs i = some o) (hj : w.objs j = some o') (hp : o.native = some p)
    (hp' : o'.native = some p) : i = j :=
  (h.native hi hp).1.symm.trans (h.native hj hp').1

theorem Heap.WF.number_lt {w : Heap} (h : w.WF) {i : Nat} {o : Wrapper} {p : Native}
    (hi : w.objs i = some o) (hp : o.native = some p) : p.number < w.next := by
  rw [(h.native hi hp).1]
  exact h.bound hi

theorem Heap.not_mem_empty {i : Nat} {o : Wrapper} : Heap.empty.objs i ≠ some o :=
  (Option.some_ne_none o).symm

theorem Heap.empty_wf : Heap.empty.WF where
  bound h := absurd h not_mem_empty
  native h := absurd h not_mem_empty
  closed h := absurd h not_mem_empty
  parent h := absurd h not_mem_empty
  linked h := absurd h not_mem_empty
  reach h := absurd h not_mem_empty

section

variable {w : Heap} {i k : Nat} {o o' c : Wrapper}

theorem Heap.all_iff (hbound : ∀ {k c}, w.objs k = some c → k < w.next) {P : Wrapper → Bool} :
    w.all P = true ↔ ∀ k c, w.objs k = some c → P c = true := by
  rw [Heap.all, List.all_eq_true]
  constructor
  · intro hall k c hk
    have := hall k (List.mem_range.mpr (hbound hk))
    rwa [hk] at this
  · intro hall k _
    cases hk : w.objs k with
    | none => rfl
    | some c => exact hall k c hk

theorem Heap.on_eq_some {P : Wrapper → Prop} [DecidablePred P] {f : Wrapper → Heap × List ObjCall}
    {r : Heap × List ObjCall} :
    w.on i P f = some r ↔ ∃ o, w.objs i = some o ∧ P o ∧ f o = r := by
  unfold Heap.on
  cases w.objs i with
  | none => simp
  | some o => simp

theorem Heap.on_eq_some_pair {P : Wrapper → Prop} [DecidablePred P] {f : Wrapper → Heap}
    {g : Wrapper → List ObjCall} {w' : Heap} {es : List ObjCall}
    (h : w.on i P (fun o => (f o, g o)) = some (w', es)) :
    ∃ o, w.objs i = some o ∧ P o ∧ f o = w' ∧ g o = es := by
  obtain ⟨o, hi, hP, h⟩ := on_eq_some.mp h
  exact ⟨o, hi, hP, Prod.mk.inj h⟩

theorem Heap.objs_alloc : (w.alloc o).objs = Function.update w.objs w.next (some o) := rfl

theorem Heap.objs_set : (w.set i o).objs = Function.update w.objs i (some o) := rfl

theorem Heap.objs_erase : (w.erase i).objs = Function.update w.objs i none := rfl

theorem Heap.alloc_cases (hk : (w.alloc o).objs k = some c) :
    (k = w.next ∧ c = o) ∨ (k ≠ w.next ∧ w.objs k = some c) := by
  by_cases hkn : k = w.next
  · subst hkn
    rw [Heap.objs_alloc, Function.update_self] at hk
    exact .inl ⟨rfl, (Option.some.inj hk).symm⟩
  · rw [Heap.objs_alloc, Function.update_of_ne hkn] at hk
    exact .inr ⟨hkn, hk⟩

theorem Heap.set_cases (hk : (w.set i o).objs k = some c) :
    (k = i ∧ c = o) ∨ (k ≠ i ∧ w.objs k = some c) := by
  by_cases hki : k = i
  · subst hki
    rw [Heap.objs_set, Function.update_self] at hk
    exact .inl ⟨rfl, (Option.some.inj hk).symm⟩
  · rw [Heap.objs_set, Function.update_of_ne hki] at hk
    exact .inr ⟨hki, hk⟩

theorem Heap.erase_cases (hk : (w.erase i).objs k = some c) : k ≠ i ∧ w.objs k = some c := by
  by_cases hki : k = i
  · subst hki
    rw [Heap.objs_erase, Function.update_self] at hk
    cases hk
  · rw [Heap.objs_erase, Function.update_of_ne hki] at hk
    exact ⟨hki, hk⟩

theorem Heap.alloc_old (hbound : ∀ {k c}, w.objs k = some c → k < w.next) (hk : w.objs k = some c) :
    (w.alloc o).objs k = some c := by
  rw [Heap.objs_alloc, Function.update_of_ne (Nat.ne_of_lt (hbound hk)), hk]

/-! ## New wrappers -/

/-- A wrapper that can be added: its parent is there and reachable, and its native object, if it has
one, is new. -/
structure Heap.Fits (w : Heap) (o : Wrapper) : Prop where
  native : ∀ {p}, o.native = some p → p.number = w.next ∧ p.cls = o.cls
  closed : o.closed = false
  parent : ∀ {j}, o.link = some j →
    ∃ par, w.objs j = some par ∧ par.trash = false ∧ ∀ p, o.native = some p → par.native = p.parent
  linked : o.native ≠ none → o.cls ≠ .session → o.link ≠ none

/-- The wrapper of a new native object fits, if its parent wraps the native parent. -/
theorem Heap.fits_child {par : Wrapper} {p : Native} {c : PyClass} (hi : w.objs i = some par)
    (ht : par.trash = false) (hnum : p.number = w.next) (hcls : p.cls = c)
    (hpar : par.native = p.parent) : w.Fits { cls := c, native := some p, link := some i } where
  native hp := by
    obtain rfl := Option.some.inj hp
    exact ⟨hnum, hcls⟩
  closed := rfl
  parent hj := by
    obtain rfl := Option.some.inj hj
    refine ⟨par, hi, ht, fun q hq => ?_⟩
    obtain rfl := Option.some.inj hq
    exact hpar
  linked _ _ := Option.some_ne_none i

theorem Heap.WF.alloc (h : w.WF) (hfits : w.Fits o) : (w.alloc o).WF where
  bound hk := by
    rcases alloc_cases hk with ⟨rfl, -⟩ | ⟨-, hk⟩
    · exact Nat.lt_succ_self _
    · exact Nat.lt_succ_of_lt (h.bound hk)
  native hk hp := by
    rcases alloc_cases hk with ⟨rfl, rfl⟩ | ⟨-, hk⟩
    · exact hfits.native hp
    · exact h.native hk hp
  closed hk hc := by
    rcases alloc_cases hk with ⟨rfl, rfl⟩ | ⟨-, hk⟩
    · exact absurd (hfits.closed.symm.trans hc) Bool.false_ne_true
    · exact h.closed hk hc
  parent hk hl := by
    rcases alloc_cases hk with ⟨rfl, rfl⟩ | ⟨-, hk⟩
    · obtain ⟨par, hpar, -, hnat⟩ := hfits.parent hl
      exact ⟨par, alloc_old h.bound hpar, hnat⟩
    · obtain ⟨par, hpar, hnat⟩ := h.parent hk hl
      exact ⟨par, alloc_old h.bound hpar, hnat⟩
  linked hk ht := by
    rcases alloc_cases hk with ⟨rfl, rfl⟩ | ⟨-, hk⟩
    · exact hfits.linked
    · exact h.linked hk ht
  reach hk ht hl hpar := by
    rcases alloc_cases hk with ⟨rfl, rfl⟩ | ⟨-, hk⟩
    · obtain ⟨par', hpar', ht', -⟩ := hfits.parent hl
      rw [alloc_old h.bound hpar'] at hpar
      rwa [← Option.some.inj hpar]
    · obtain ⟨par', hpar', -⟩ := h.parent hk hl
      rw [alloc_old h.bound hpar'] at hpar
      rw [← Option.some.inj hpar]
      exact h.reach hk ht hl hpar'

/-! ## Changes of one wrapper -/

/-- A change that leaves the native pointer alone. A link may go once the wrapper is unreachable,
and it becomes so after the wrappers that have a link to it. -/
structure Heap.Adjusts (w : Heap) (i : Nat) (o o' : Wrapper) : Prop where
  cls : o'.cls = o.cls
  native : o'.native = o.native
  closed : o'.closed = true → o.closed = true ∨ o.cls = .sftpHandle
  opened : o'.closed = false → o.closed = false
  link : ∀ {j}, o'.link = some j → o.link = some j
  reach : o'.trash = false → o.trash = false ∧ o'.link = o.link
  kids : o'.trash = true → o.trash = true ∨ ∀ {k c}, w.objs k = some c → c.link = some i →
    c.trash = true

theorem Heap.WF.set (h : w.WF) (hi : w.objs i = some o) (hadj : w.Adjusts i o o') :
    (w.set i o').WF where
  bound hk := by
    rcases set_cases hk with ⟨rfl, -⟩ | ⟨-, hk⟩
    · exact h.bound hi
    · exact h.bound hk
  native hk hp := by
    rcases set_cases hk with ⟨rfl, rfl⟩ | ⟨-, hk⟩
    · rw [hadj.native] at hp
      rw [hadj.cls]
      exact h.native hi hp
    · exact h.native hk hp
  closed hk hc := by
    rcases set_cases hk with ⟨rfl, rfl⟩ | ⟨-, hk⟩
    · rw [hadj.cls]
      exact (hadj.closed hc).elim (h.closed hi) id
    · exact h.closed hk hc
  parent {k c j} hk hl := by
    have hold : ∃ par, w.objs j = some par ∧ ∀ p, c.native = some p → par.native = p.parent := by
      rcases set_cases hk with ⟨rfl, rfl⟩ | ⟨-, hk⟩
      · rw [hadj.native]
        exact h.parent hi (hadj.link hl)
      · exact h.parent hk hl
    obtain ⟨par, hpar, hnat⟩ := hold
    by_cases hj : j = i
    · subst hj
      rw [hi] at hpar
      obtain rfl := Option.some.inj hpar
      refine ⟨o', Function.update_self .., ?_⟩
      rwa [hadj.native]
    · exact ⟨par, (Function.update_of_ne hj ..).trans hpar, hnat⟩
  linked hk ht := by
    rcases set_cases hk with ⟨rfl, rfl⟩ | ⟨-, hk⟩
    · obtain ⟨ht', hlink⟩ := hadj.reach ht
      rw [hadj.native, hadj.cls, hlink]
      exact h.linked hi ht'
    · exact h.linked hk ht
  reach {k c j par} hk ht hl hpar := by
    rcases set_cases hk with ⟨rfl, rfl⟩ | ⟨-, hold⟩
    · rcases set_cases hpar with ⟨-, rfl⟩ | ⟨-, hpar⟩
      · exact ht
      · exact h.reach hi (hadj.reach ht).1 (hadj.link hl) hpar
    · rcases set_cases hpar with ⟨rfl, rfl⟩ | ⟨-, hpar⟩
      · have hbefore := h.reach hold ht hl hi
        rw [← Bool.not_eq_true]
        intro hafter
        rcases hadj.kids hafter with htrash | hkids
        · exact absurd (hbefore.symm.trans htrash) Bool.false_ne_true
        · exact absurd (ht.symm.trans (hkids hold hl)) Bool.false_ne_true
      · exact h.reach hold ht hl hpar

theorem Heap.WF.erase (h : w.WF) (hkids : ∀ {k c}, w.objs k = some c → c.link ≠ some i) :
    (w.erase i).WF where
  bound hk := h.bound (erase_cases hk).2
  native hk hp := h.native (erase_cases hk).2 hp
  closed hk hc := h.closed (erase_cases hk).2 hc
  parent {k c j} hk hl := by
    obtain ⟨-, hk⟩ := erase_cases hk
    obtain ⟨par, hpar, hnat⟩ := h.parent hk hl
    have hj : j ≠ i := fun heq => hkids hk (heq ▸ hl)
    exact ⟨par, (Function.update_of_ne hj ..).trans hpar, hnat⟩
  linked hk ht := h.linked (erase_cases hk).2 ht
  reach hk ht hl hpar := h.reach (erase_cases hk).2 ht hl (erase_cases hpar).2

end

/-! ## What a step can do -/

inductive Heap.Change (w : Heap) : HeapOp → Heap → List ObjCall → Prop
  /-- A wrapper of a new native object. -/
  | create {op o p} (hfits : w.Fits o) (hnat : o.native = some p) :
    Change w op (w.alloc o) [.acquired p]
  /-- A wrapper of NULL. -/
  | construct {op o} (hfits : w.Fits o) (hnat : o.native = none) : Change w op (w.alloc o) []
  /-- A second wrapper of the native object of an `SFTP`. -/
  | takeOver {i o p} (hi : w.objs i = some o) (hnat : o.native = some p)
      (hcls : o.cls = .child .sftp) :
    Change w (.getChannel i) (w.alloc { cls := .child .channel, native := some p, link := o.link })
      [.use (.child .sftp) p]
  | adjust {op i o o'} (hi : w.objs i = some o) (hadj : w.Adjusts i o o')
      (hlink : o'.link = o.link ∨ op = .clear i) (hclosed : o'.closed = o.closed) :
    Change w op (w.set i o') []
  | quiet {op} : Change w op w []
  | pass {op i o p} (hi : w.objs i = some o) (hnat : o.native = some p) :
    Change w op w [.use o.cls p]
  | close {i o rc} (hi : w.objs i = some o) (hcls : o.cls = .sftpHandle) (hopen : o.closed = false)
      (hadj : w.Adjusts i o { o with closed := true }) :
    Change w (.close i rc) (w.set i { o with closed := true }) [.free .sftpCloseHandle o.native rc]
  | shutdown {i o rc} (hi : w.objs i = some o) (hcls : o.cls = .child .publicKeySystem)
      (htrash : o.trash = false) :
    Change w (.shutdown i rc) w [.free .publickeyShutdown o.native rc]
  | destroy {i o rc} (hi : w.objs i = some o)
      (hkids : ∀ {k c}, w.objs k = some c → c.link ≠ some i) :
    Change w (.destroy i rc) (w.erase i) (w.destructor o rc)

/-- **Everything a step can do.** -/
theorem heapStep_change {w w' : Heap} {op : HeapOp} {es : List ObjCall}
    (hbound : ∀ {k c}, w.objs k = some c → k < w.next) (hs : heapStep w op = some (w', es)) :
    w.Change op w' es := by
  cases op with
  | newSession =>
    obtain ⟨rfl, rfl⟩ := Prod.mk.inj (Option.some.inj hs)
    refine .create ⟨?_, rfl, nofun, fun _ hcls => absurd rfl hcls⟩ rfl
    intro p hp
    obtain rfl := Option.some.inj hp
    exact ⟨rfl, rfl⟩
  | wrap c i =>
    obtain ⟨o, hi, ⟨-, ht⟩, hs⟩ := Heap.on_eq_some.mp hs
    split at hs
    · next s hnat =>
      obtain ⟨rfl, rfl⟩ := Prod.mk.inj hs
      exact .create (Heap.fits_child hi ht rfl rfl hnat) rfl
    · obtain ⟨rfl, rfl⟩ := Prod.mk.inj hs
      exact .quiet
  | openHandle i =>
    obtain ⟨o, hi, ⟨-, ht⟩, hs⟩ := Heap.on_eq_some.mp hs
    split at hs
    · next s f hnat =>
      obtain ⟨rfl, rfl⟩ := Prod.mk.inj hs
      exact .create (Heap.fits_child hi ht rfl rfl hnat) rfl
    · obtain ⟨rfl, rfl⟩ := Prod.mk.inj hs
      exact .quiet
  | construct cls parent =>
    cases parent with
    | none =>
      obtain ⟨-, rfl, rfl⟩ := guarded_eq_some hs
      exact .construct ⟨nofun, rfl, nofun, fun hn => absurd rfl hn⟩ rfl
    | some j =>
      obtain ⟨o, hj, ⟨-, -, ht⟩, rfl, rfl⟩ := Heap.on_eq_some_pair hs
      refine .construct ⟨nofun, rfl, ?_, fun hn => absurd rfl hn⟩ rfl
      intro k hk
      obtain rfl := Option.some.inj hk
      exact ⟨o, hj, ht, nofun⟩
  | getChannel i =>
    obtain ⟨o, hi, ⟨hcls, -⟩, hs⟩ := Heap.on_eq_some.mp hs
    split at hs
    · next p hnat =>
      obtain ⟨rfl, rfl⟩ := Prod.mk.inj hs
      exact .takeOver hi hnat hcls
    · obtain ⟨rfl, rfl⟩ := Prod.mk.inj hs
      exact .quiet
  | use i =>
    obtain ⟨o, hi, -, rfl, rfl⟩ := Heap.on_eq_some_pair hs
    cases hnat : o.native with
    | none => exact .quiet
    | some p => exact .pass hi hnat
  | close i rc =>
    obtain ⟨o, hi, ⟨hcls, -⟩, hs⟩ := Heap.on_eq_some.mp hs
    split at hs
    · obtain ⟨rfl, rfl⟩ := Prod.mk.inj hs
      exact .quiet
    · next hopen =>
      obtain ⟨rfl, rfl⟩ := Prod.mk.inj hs
      refine .close hi hcls (Bool.not_eq_true _ ▸ hopen) ?_
      exact ⟨rfl, rfl, fun _ => .inr hcls, nofun, id, fun ht => ⟨ht, rfl⟩, .inl⟩
  | shutdown i rc =>
    obtain ⟨o, hi, ⟨hcls, ht⟩, rfl, rfl⟩ := Heap.on_eq_some_pair hs
    exact .shutdown hi hcls ht
  | newRef i =>
    obtain ⟨o, hi, -, rfl, rfl⟩ := Heap.on_eq_some_pair hs
    exact .adjust hi ⟨rfl, rfl, .inl, id, id, fun ht => ⟨ht, rfl⟩, .inl⟩ (.inl rfl) rfl
  | dropRef i =>
    obtain ⟨o, hi, -, rfl, rfl⟩ := Heap.on_eq_some_pair hs
    exact .adjust hi ⟨rfl, rfl, .inl, id, id, fun ht => ⟨ht, rfl⟩, .inl⟩ (.inl rfl) rfl
  | abandon i =>
    obtain ⟨o, hi, hkids, rfl, rfl⟩ := Heap.on_eq_some_pair hs
    refine .adjust hi ⟨rfl, rfl, .inl, id, id, nofun, fun _ => .inr ?_⟩ (.inl rfl) rfl
    intro k c hk hl
    have hc := (Heap.all_iff hbound).mp hkids k c hk
    simpa [hl] using hc
  | clear i =>
    obtain ⟨o, hi, ht, rfl, rfl⟩ := Heap.on_eq_some_pair hs
    refine .adjust hi ⟨rfl, rfl, .inl, id, nofun, ?_, .inl⟩ (.inr rfl) rfl
    intro hf
    exact absurd (hf.symm.trans ht) Bool.false_ne_true
  | destroy i rc =>
    obtain ⟨o, hi, ⟨-, hkids⟩, rfl, rfl⟩ := Heap.on_eq_some_pair hs
    refine .destroy hi ?_
    intro k c hk
    simpa using (Heap.all_iff hbound).mp hkids k c hk

/-- A step keeps the heap well formed, unless it makes a second wrapper. -/
theorem Heap.Change.wf {w w' : Heap} {op : HeapOp} {es : List ObjCall} (h : w.WF)
    (hc : w.Change op w' es)
    (hgc : ∀ i, op = .getChannel i → ∀ o, w.objs i = some o → o.native = none) : w'.WF := by
  cases hc with
  | create hfits hnat => exact h.alloc hfits
  | construct hfits hnat => exact h.alloc hfits
  | takeOver hi hnat hcls =>
    exact absurd ((hgc _ rfl _ hi).symm.trans hnat) (Option.some_ne_none _).symm
  | adjust hi hadj hlink hclosed => exact h.set hi hadj
  | quiet => exact h
  | pass hi hnat => exact h
  | close hi hcls hopen hadj => exact h.set hi hadj
  | shutdown hi hcls htrash => exact h
  | destroy hi hkids => exact h.erase hkids

/-- Numbers that have not been given out stay fresh. -/
theorem fresh_post {b : Books Native} {e : Event Native} {n m : Nat}
    (h : ∀ p : Native, n ≤ p.number → b p = .fresh) (hnm : n ≤ m) (he : e.about.number < m)
    (q : Native) (hq : m ≤ q.number) : post b e q = .fresh := by
  rw [post_of_ne, h q (Nat.le_trans hnm hq)]
  rintro rfl
  exact absurd he (Nat.not_lt.mpr hq)

/-! ## The guarded destructors -/

/-- The function by which the destructor of the class frees. -/
def SessionClass.freeFn : SessionClass → FreeFn
  | .sftp => .sftpShutdown
  | .channel => .channelFree
  | .agent => .clearAgent
  | .knownHost => .knownhostFree
  | .publicKeySystem => .publickeyShutdown

/-- Two of them return nothing. -/
def SessionClass.freeCode (rc : Int) : SessionClass → Int
  | .agent => 0
  | .knownHost => 0
  | _ => rc

/-- A guarded destructor calls nothing unless there is a session and a native object. -/
theorem guardedDealloc_cases (calls : Native → List ObjCall) (session : Option (Option Native))
    (ptr : Option Native) :
    guardedDealloc calls session ptr = [] ∨
      ∃ p, session ≠ none ∧ ptr = some p ∧ guardedDealloc calls session ptr = calls p := by
  rcases session with _ | _ | s
  · exact .inl rfl
  · exact .inl rfl
  · cases ptr with
    | none => exact .inl rfl
    | some p => exact .inr ⟨p, Option.some_ne_none _, rfl, rfl⟩

/-- **The five guarded destructors**: nothing, or one call that frees the native object of a wrapper
that still has its link. -/
theorem destructor_child (w : Heap) {o : Wrapper} (rc : Int) {c : SessionClass}
    (hcls : o.cls = .child c) :
    w.destructor o rc = [] ∨ ∃ p, o.link ≠ none ∧ o.native = some p ∧
      w.destructor o rc = [.free c.freeFn (some p) (c.freeCode rc)] := by
  have hdestructor : w.destructor o rc =
      guardedDealloc (fun p => [.free c.freeFn (some p) (c.freeCode rc)])
        ((o.link.bind w.objs).map (·.native)) o.native := by
    rw [Heap.destructor, hcls]
    cases c <;> rfl
  rw [hdestructor]
  obtain hnone | ⟨p, hsession, hnat, hes⟩ := guardedDealloc_cases
    (fun p => [.free c.freeFn (some p) (c.freeCode rc)]) ((o.link.bind w.objs).map (·.native))
    o.native
  · exact .inl hnone
  · refine .inr ⟨p, ?_, hnat, hes⟩
    intro hl
    rw [hl] at hsession
    exact hsession rfl

end Ssh2Python
