import Mathlib.Logic.Function.Basic
import Ssh2Python.Lib.Run

/-!
# A ledger of native objects

The books of a library that hands out objects: each object is acquired once, may be passed to the
library while it is live, and is released once. An object may have owners, which have to be live too
whenever it is passed or released. `Sound` says that a log of events keeps to this, and `spec` is
the same as a specification for machines; `Sound.release_last` and `Sound.count_release_le` say what
a sound log excludes, and `valid_iff_guarded` which runs of a machine use objects only while they
are live.
-/

namespace Lib.Ledger

open Lib.Run

inductive Status
  | fresh
  | live
  | released
  deriving DecidableEq, Repr

inductive Event (ι : Type*)
  | acquire (i : ι)
  | call (i : ι)
  | release (i : ι)
  deriving DecidableEq, Repr

abbrev Books (ι : Type*) := ι → Status

variable {ι : Type*} [DecidableEq ι] (owners : ι → List ι)

def post (b : Books ι) : Event ι → Books ι
  | .acquire i => Function.update b i .live
  | .call _ => b
  | .release i => Function.update b i .released

def books (b : Books ι) (es : List (Event ι)) : Books ι :=
  es.foldl post b

/-- The object and everything it depends on is live. -/
def Usable (b : Books ι) (i : ι) : Prop :=
  b i = .live ∧ ∀ o ∈ owners i, b o = .live

def Legal (b : Books ι) : Event ι → Prop
  | .acquire i => b i = .fresh
  | .call i => Usable owners b i
  | .release i => Usable owners b i

def Sound : Books ι → List (Event ι) → Prop
  | _, [] => True
  | b, e :: es => Legal owners b e ∧ Sound (post b e) es

instance (b : Books ι) (i : ι) : Decidable (Usable owners b i) :=
  inferInstanceAs (Decidable (_ ∧ _))

instance (b : Books ι) : (e : Event ι) → Decidable (Legal owners b e)
  | .acquire i => inferInstanceAs (Decidable (b i = .fresh))
  | .call i => inferInstanceAs (Decidable (Usable owners b i))
  | .release i => inferInstanceAs (Decidable (Usable owners b i))

instance soundDecidable : (b : Books ι) → (es : List (Event ι)) → Decidable (Sound owners b es)
  | _, [] => inferInstanceAs (Decidable True)
  | b, e :: es =>
    have := soundDecidable (post b e) es
    inferInstanceAs (Decidable (_ ∧ _))

section

variable {owners} {b : Books ι} {i : ι} {es fs : List (Event ι)}

@[simp] theorem books_nil : books b [] = b := rfl

@[simp] theorem books_cons (e : Event ι) : books b (e :: es) = books (post b e) es := rfl

theorem books_append : books b (es ++ fs) = books (books b es) fs :=
  List.foldl_append

theorem sound_append :
    Sound owners b (es ++ fs) ↔ Sound owners b es ∧ Sound owners (books b es) fs := by
  induction es generalizing b with
  | nil => simp [Sound]
  | cons e es ih =>
    rw [List.cons_append, Sound, Sound, ih, books_cons, and_assoc]

/-- The ledger as a specification. -/
def spec (owners : ι → List ι) : Spec (Books ι) (Event ι) where
  accepts b es b' := Sound owners b es ∧ b' = books b es
  nil _ := ⟨trivial, rfl⟩
  append := by
    rintro b b' b'' es fs ⟨hes, rfl⟩ ⟨hfs, rfl⟩
    exact ⟨sound_append.mpr ⟨hes, hfs⟩, books_append.symm⟩

/-- The ledger accepts events that mean a sound log. -/
theorem accepts_of_log {ε : Type*} {f : ε → List (Event ι)} {xs : List ε} (hlog : xs.flatMap f = es)
    (hsound : Sound owners b es) : ((spec owners).comap f).accepts b xs (books b es) := by
  subst hlog
  exact ⟨hsound, rfl⟩

def noOwners (_ : ι) : List ι :=
  []

omit [DecidableEq ι] in
theorem usable_noOwners : Usable noOwners b i ↔ b i = .live :=
  ⟨fun h => h.1, fun h => ⟨h, fun _ ho => absurd ho List.not_mem_nil⟩⟩

/-- Passing a usable object any number of times is sound and changes nothing. -/
theorem sound_calls (h : Usable owners b i) (n : Nat) :
    Sound owners b (List.replicate n (.call i)) ∧ books b (List.replicate n (.call i)) = b := by
  induction n with
  | zero => exact ⟨trivial, rfl⟩
  | succ n ih => exact ⟨⟨h, ih.1⟩, ih.2⟩

/-- So is passing several usable objects. -/
theorem sound_map_call {l : List ι} (h : ∀ i ∈ l, Usable owners b i) :
    Sound owners b (l.map .call) ∧ books b (l.map .call) = b := by
  induction l with
  | nil => exact ⟨trivial, rfl⟩
  | cons i l ih =>
    obtain ⟨hi, hl⟩ := List.forall_mem_cons.mp h
    exact ⟨⟨hi, (ih hl).1⟩, (ih hl).2⟩

/-- The books after events of one kind about the objects of a list. -/
theorem books_map {f : ι → Event ι} {s : Status}
    (hf : ∀ (b : Books ι) j, post b (f j) = Function.update b j s)
    (l : List ι) : books b (l.map f) i = if i ∈ l then s else b i := by
  induction l generalizing b with
  | nil => rfl
  | cons j l ih =>
    rw [List.map_cons, books_cons, ih, hf, Function.update_apply]
    by_cases hl : i ∈ l
    · rw [if_pos hl, if_pos (List.mem_cons_of_mem j hl)]
    · simp only [hl, List.mem_cons, or_false, if_false]

theorem books_map_acquire (l : List ι) :
    books b (l.map .acquire) i = if i ∈ l then .live else b i :=
  books_map (fun _ _ => rfl) l

theorem books_map_release (l : List ι) :
    books b (l.map .release) i = if i ∈ l then .released else b i :=
  books_map (fun _ _ => rfl) l

theorem sound_map_acquire {l : List ι} (hnodup : l.Nodup) (h : ∀ i ∈ l, b i = .fresh) :
    Sound owners b (l.map .acquire) := by
  induction l generalizing b with
  | nil => trivial
  | cons i l ih =>
    obtain ⟨hi, hl⟩ := List.forall_mem_cons.mp h
    obtain ⟨hnot, hnodup⟩ := List.nodup_cons.mp hnodup
    refine ⟨hi, ih hnodup fun j hj => ?_⟩
    rw [post, Function.update_of_ne (ne_of_mem_of_not_mem hj hnot), hl j hj]

/-- Objects without owners are released one after the other. -/
theorem sound_map_release {l : List ι} (hnodup : l.Nodup) (h : ∀ i ∈ l, b i = .live) :
    Sound noOwners b (l.map .release) := by
  induction l generalizing b with
  | nil => trivial
  | cons i l ih =>
    obtain ⟨hi, hl⟩ := List.forall_mem_cons.mp h
    obtain ⟨hnot, hnodup⟩ := List.nodup_cons.mp hnodup
    refine ⟨usable_noOwners.mpr hi, ih hnodup fun j hj => ?_⟩
    rw [post, Function.update_of_ne (ne_of_mem_of_not_mem hj hnot), hl j hj]

def Event.about : Event ι → ι
  | .acquire i => i
  | .call i => i
  | .release i => i

theorem post_of_ne {e : Event ι} (h : e.about ≠ i) : post b e i = b i := by
  cases e with
  | acquire j => exact Function.update_of_ne (Ne.symm h) _ _
  | call j => rfl
  | release j => exact Function.update_of_ne (Ne.symm h) _ _

theorem post_ne_fresh (h : b i ≠ .fresh) (e : Event ι) : post b e i ≠ .fresh := by
  by_cases he : e.about = i
  · subst he
    cases e with
    | acquire j => exact fun h' => Status.noConfusion ((Function.update_self ..).symm.trans h')
    | call j => exact h
    | release j => exact fun h' => Status.noConfusion ((Function.update_self ..).symm.trans h')
  · rwa [post_of_ne he]

theorem books_of_ne (h : ∀ e ∈ es, e.about ≠ i) : books b es i = b i := by
  induction es generalizing b with
  | nil => rfl
  | cons e es ih =>
    rw [books_cons, ih fun f hf => h f (List.mem_cons_of_mem e hf)]
    exact post_of_ne (h e List.mem_cons_self)

omit [DecidableEq ι] in
theorem Legal.not_released {e : Event ι} (h : Legal owners b e) : b e.about ≠ .released := by
  cases e with
  | acquire i => rw [Event.about, show b i = .fresh from h]; exact Status.noConfusion
  | call i => rw [Event.about, h.1]; exact Status.noConfusion
  | release i => rw [Event.about, h.1]; exact Status.noConfusion

/-- Whatever was released stays out of a sound log. -/
theorem Sound.about_ne (h : Sound owners b es) (hi : b i = .released) :
    ∀ e ∈ es, e.about ≠ i := by
  induction es generalizing b with
  | nil => exact fun e he => absurd he List.not_mem_nil
  | cons e es ih =>
    obtain ⟨hlegal, hes⟩ := h
    have hne : e.about ≠ i := fun heq => hlegal.not_released (heq ▸ hi)
    intro f hf
    rcases List.mem_cons.mp hf with rfl | hf
    · exact hne
    · exact ih hes ((post_of_ne hne).trans hi) f hf

theorem Sound.released_stays (h : Sound owners b es) (hi : b i = .released) :
    books b es i = .released := by
  rw [books_of_ne (h.about_ne hi), hi]

/-- **A release is the last event** of its object. -/
theorem Sound.release_last (h : Sound owners b (es ++ .release i :: fs)) :
    ∀ e ∈ fs, e.about ≠ i := by
  obtain ⟨-, -, hfs⟩ := sound_append.mp h
  exact hfs.about_ne (Function.update_self ..)

/-- The books record a release exactly when there was one. -/
theorem Sound.released_iff (h : Sound owners b es) (hi : b i ≠ .released) :
    books b es i = .released ↔ .release i ∈ es := by
  induction es generalizing b with
  | nil => exact iff_of_false hi List.not_mem_nil
  | cons e es ih =>
    obtain ⟨-, hes⟩ := h
    rw [books_cons, List.mem_cons]
    by_cases he : e = .release i
    · subst he
      have hpost : post b (.release i) i = .released := Function.update_self ..
      rw [books_of_ne (hes.about_ne hpost)]
      exact iff_of_true hpost (.inl rfl)
    · have hpost : post b e i ≠ .released := by
        by_cases hab : e.about = i
        · subst hab
          cases e with
          | acquire j =>
            exact fun h' => Status.noConfusion ((Function.update_self ..).symm.trans h')
          | call j => exact hi
          | release j => exact absurd rfl he
        · rwa [post_of_ne hab]
      rw [ih hes hpost]
      exact (or_iff_right (Ne.symm he)).symm

/-- **No object is released twice.** -/
theorem Sound.count_release_le (h : Sound owners b es) (i : ι) : es.count (.release i) ≤ 1 := by
  induction es generalizing b with
  | nil => exact Nat.zero_le _
  | cons e es ih =>
    obtain ⟨-, hes⟩ := h
    by_cases he : e = .release i
    · subst he
      have hnone : Event.release i ∉ es := fun hmem =>
        hes.about_ne (Function.update_self ..) _ hmem rfl
      have hcount := List.count_eq_zero.mpr hnone
      rw [List.count_cons_self]
      omega
    · rw [List.count_cons_of_ne he]
      exact ih hes

/-- What was live and what was acquired is what was released and what is live. -/
theorem Sound.count_add (h : Sound owners b es) (i : ι) :
    es.count (.acquire i) + (if b i = .live then 1 else 0) =
      es.count (.release i) + (if books b es i = .live then 1 else 0) := by
  induction es generalizing b with
  | nil => rw [List.count_nil, List.count_nil, books_nil]
  | cons e es ih =>
    obtain ⟨hlegal, hes⟩ := h
    have hrest := ih hes
    rw [books_cons]
    by_cases he : e.about = i
    · cases e with
      | acquire j =>
        obtain rfl : j = i := he
        have hj : b j = .fresh := hlegal
        have hj' : post b (.acquire j) j = .live := Function.update_self ..
        rw [if_pos hj'] at hrest
        rw [List.count_cons_self, List.count_cons_of_ne (by simp), ← hrest, if_neg (by simp [hj])]
      | call j => rwa [List.count_cons_of_ne (by simp), List.count_cons_of_ne (by simp)]
      | release j =>
        obtain rfl : j = i := he
        have hj' : post b (.release j) j = .released := Function.update_self ..
        rw [if_neg (by simp [hj'])] at hrest
        rw [List.count_cons_self, List.count_cons_of_ne (by simp), if_pos hlegal.1]
        omega
    · have hne (f : Event ι) (hf : f.about = i) : e ≠ f := fun h => he (h ▸ hf)
      rw [post_of_ne he] at hrest
      rwa [List.count_cons_of_ne (hne _ rfl), List.count_cons_of_ne (hne _ rfl)]

/-- What is live at the end was acquired on the way, and not released. -/
theorem Sound.live_end (h : Sound owners b es) (hi : b i = .fresh) (hend : books b es i = .live) :
    .acquire i ∈ es ∧ .release i ∉ es := by
  have hrel : .release i ∉ es := by
    rw [← h.released_iff (by rw [hi]; exact Status.noConfusion), hend]
    exact Status.noConfusion
  refine ⟨?_, hrel⟩
  have key := h.count_add i
  rw [if_neg (by rw [hi]; exact Status.noConfusion), if_pos hend,
    List.count_eq_zero.mpr hrel] at key
  exact List.one_le_count_iff.mp (by omega)

/-- What does not stay live is released. -/
theorem Sound.mem_release (h : Sound owners b es) (hi : b i = .live) (hend : books b es i ≠ .live) :
    .release i ∈ es := by
  have key := h.count_add i
  rw [if_pos hi, if_neg hend] at key
  exact List.one_le_count_iff.mp (by omega)

/-- Whatever is passed or released has been acquired before, and not released. -/
def Valid (es : List (Event ι)) : Prop :=
  ∀ before e after, es = before ++ e :: after → ∀ i, e = .call i ∨ e = .release i →
    .acquire i ∈ before ∧ .release i ∉ before

theorem Sound.valid (h : Sound owners b es) (hb : ∀ i, b i = .fresh) : Valid es := by
  rintro before e after rfl i he
  obtain ⟨hbefore, hlegal, -⟩ := sound_append.mp h
  have hlive : books b before i = .live := by
    rcases he with rfl | rfl <;> exact hlegal.1
  exact hbefore.live_end (hb i) hlive

/-- **Nothing is left over**: an object that is not live at the end has been released as often as
it was acquired. -/
theorem Sound.count_eq (h : Sound owners b es) (hi : b i ≠ .live) (hend : books b es i ≠ .live) :
    es.count (.release i) = es.count (.acquire i) := by
  have key := h.count_add i
  rw [if_neg hi, if_neg hend] at key
  exact key.symm

/-- **Released exactly once**: what was acquired on the way and is not live at the end. -/
theorem Sound.count_release (h : Sound owners b es) (hi : b i = .fresh) (hacq : .acquire i ∈ es)
    (hend : books b es i ≠ .live) : es.count (.release i) = 1 := by
  have heq := h.count_eq (by rw [hi]; exact Status.noConfusion) hend
  have hone := List.one_le_count_iff.mpr hacq
  have hle := h.count_release_le i
  omega

/-- **Exactly the guarded runs are valid**: where a step that meets the guard refines the ledger,
and one that does not passes a released object first. -/
theorem valid_iff_guarded {σ α : Type*} {step : Step σ α (Event ι)} {guard : σ → α → Prop}
    {R : σ → Books ι → Prop} (hstep : Refines step guard (spec owners) R)
    (hbad : ∀ s a s' es b, R s b → step s a = some (s', es) → ¬guard s a →
      ∃ i fs, es = .call i :: fs ∧ b i = .released)
    {s s' : σ} {as : List α} (hrun : Runs step (fun _ _ => True) s as es s') (hR : R s b)
    (hb : ∀ i, b i = .fresh) : Valid es ↔ Runs step guard s as es s' := by
  constructor
  · suffices hgen : ∀ before, Sound owners b before → R s (books b before) → Valid (before ++ es) →
        Runs step guard s as es s' from hgen [] trivial hR
    clear hR
    induction hrun with
    | nil s => exact fun _ _ _ _ => .nil s
    | @cons s s₁ s₂ a as es fs _ hs _ ih =>
      intro before hbefore hR hvalid
      by_cases hg : guard s a
      · obtain ⟨b₁, ⟨hes, rfl⟩, hR₁⟩ := hstep _ _ _ _ _ hR hg hs
        refine .cons hg hs (ih (before ++ es) (sound_append.mpr ⟨hbefore, hes⟩) ?_ ?_)
        · rwa [books_append]
        · rwa [List.append_assoc]
      · obtain ⟨i, fs', rfl, hi⟩ := hbad _ _ _ _ _ hR hs hg
        have hreleased : .release i ∈ before :=
          (hbefore.released_iff (by rw [hb]; exact Status.noConfusion)).mp hi
        exact absurd hreleased (hvalid before _ _ rfl i (.inl rfl)).2
  · intro hguarded
    obtain ⟨b', ⟨hsound, -⟩, -⟩ := hstep.run hguarded hR
    exact hsound.valid hb

/-! ## Holders -/

/-- The live objects are the ones of a list, each of which stands there once. -/
structure Holds (b : Books ι) (held : List ι) : Prop where
  nodup : held.Nodup
  live_iff : ∀ i, b i = .live ↔ i ∈ held

variable {held : List ι}

theorem Holds.acquire (h : Holds b held) (hi : b i = .fresh) :
    Holds (post b (.acquire i)) (held ++ [i]) := by
  have hnot : i ∉ held := fun hmem => by
    rw [← h.live_iff, hi] at hmem
    exact Status.noConfusion hmem
  constructor
  · exact (List.perm_append_singleton i held).nodup_iff.mpr (List.nodup_cons.mpr ⟨hnot, h.nodup⟩)
  · intro j
    rw [List.mem_append, List.mem_singleton]
    by_cases hj : j = i
    · subst hj
      exact iff_of_true (Function.update_self ..) (.inr rfl)
    · rw [post_of_ne (Ne.symm hj), h.live_iff, or_iff_left hj]

theorem Holds.release (h : Holds b (i :: held)) : Holds (post b (.release i)) held := by
  obtain ⟨hnot, hnodup⟩ := List.nodup_cons.mp h.nodup
  refine ⟨hnodup, fun j => ?_⟩
  by_cases hj : j = i
  · subst hj
    rw [show post b (.release j) j = .released from Function.update_self ..]
    exact iff_of_false Status.noConfusion hnot
  · rw [post_of_ne (Ne.symm hj), h.live_iff, List.mem_cons, or_iff_right hj]

omit [DecidableEq ι] in
theorem Holds.perm {held' : List ι} (h : Holds b held) (hp : held.Perm held') : Holds b held' :=
  ⟨hp.nodup_iff.mp h.nodup, fun i => (h.live_iff i).trans hp.mem_iff⟩

/-- An object that is acquired and released at once is not held by anyone. -/
theorem Holds.transient (h : Holds b held) (hi : b i = .fresh) :
    Holds (post (post b (.acquire i)) (.release i)) held :=
  ((h.acquire hi).perm (List.perm_append_singleton i held)).release

/-! ## Balance -/

/-- A log of new objects leaves what is held as it is. -/
def Keeps (es : List (Event ι)) : Prop :=
  ∀ (b : Books ι) (held : List ι), Holds b held → (∀ e ∈ es, b e.about = .fresh) →
    Sound noOwners b es ∧ Holds (books b es) held

/-- The books about an object depend on the books about it. -/
theorem books_congr {b' : Books ι} (h : b i = b' i) (es : List (Event ι)) :
    books b es i = books b' es i := by
  induction es generalizing b b' with
  | nil => exact h
  | cons e es ih =>
    rw [books_cons, books_cons]
    refine ih ?_
    cases e with
    | acquire j => rw [post, post, Function.update_apply, Function.update_apply, h]
    | call j => exact h
    | release j => rw [post, post, Function.update_apply, Function.update_apply, h]

theorem sound_congr {b' : Books ι} (h : ∀ e ∈ es, b e.about = b' e.about) :
    Sound noOwners b es ↔ Sound noOwners b' es := by
  induction es generalizing b b' with
  | nil => exact Iff.rfl
  | cons e es ih =>
    have hlegal : Legal noOwners b e ↔ Legal noOwners b' e := by
      have he := h e List.mem_cons_self
      cases e with
      | acquire j => exact Iff.of_eq (congrArg (· = Status.fresh) he)
      | call j =>
        exact usable_noOwners.trans ((Iff.of_eq (congrArg (· = Status.live) he)).trans
          usable_noOwners.symm)
      | release j =>
        exact usable_noOwners.trans ((Iff.of_eq (congrArg (· = Status.live) he)).trans
          usable_noOwners.symm)
    rw [Sound, Sound, hlegal]
    refine and_congr_right fun _ => ih fun f hf => ?_
    exact books_congr (h f (List.mem_cons_of_mem e hf)) [e]

/-- **Balance is a matter of the new objects**: the log is sound from the start, and none of them is
live at its end. -/
theorem keeps_iff : Keeps es ↔
    Sound noOwners (fun _ => .fresh) es ∧ ∀ e ∈ es, books (fun _ => .fresh) es e.about ≠ .live := by
  constructor
  · intro h
    have hnone : Holds (fun _ : ι => Status.fresh) [] :=
      ⟨List.nodup_nil, fun i => iff_of_false Status.noConfusion List.not_mem_nil⟩
    obtain ⟨hsound, hend⟩ := h _ [] hnone fun _ _ => rfl
    exact ⟨hsound, fun e _ hlive => absurd ((hend.live_iff _).mp hlive) List.not_mem_nil⟩
  · rintro ⟨hsound, hend⟩ b held hheld hfresh
    refine ⟨(sound_congr hfresh).mpr hsound, hheld.nodup, fun i => ?_⟩
    by_cases hi : ∃ e ∈ es, e.about = i
    · obtain ⟨e, he, rfl⟩ := hi
      have hbooks : books b es e.about = books (fun _ => .fresh) es e.about :=
        books_congr (hfresh e he) es
      rw [hbooks, ← hheld.live_iff, hfresh e he]
      exact iff_of_false (hend e he) Status.noConfusion
    · rw [books_of_ne fun e he heq => hi ⟨e, he, heq⟩]
      exact hheld.live_iff i

instance (es : List (Event ι)) : Decidable (Keeps es) :=
  decidable_of_iff _ keeps_iff.symm

/-- An object that is acquired first and released last, around a balanced log of others. -/
theorem Keeps.bracket (h : Keeps es) (hne : ∀ e ∈ es, e.about ≠ i) :
    Keeps (.acquire i :: .call i :: (es ++ [.release i])) := by
  intro b held hheld hfresh
  have hi : b i = .fresh := hfresh _ List.mem_cons_self
  have hlive : post b (.acquire i) i = .live := Function.update_self ..
  have hacq := hheld.acquire hi
  have hinner := h (post b (.acquire i)) (held ++ [i]) hacq fun e he => by
    rw [post_of_ne (Ne.symm (hne e he))]
    exact hfresh e (List.mem_cons_of_mem _ (List.mem_cons_of_mem _ (List.mem_append_left _ he)))
  have hstill : books (post b (.acquire i)) es i = .live := by rw [books_of_ne hne, hlive]
  constructor
  · refine ⟨hi, usable_noOwners.mpr hlive, sound_append.mpr ⟨hinner.1, ?_, trivial⟩⟩
    exact usable_noOwners.mpr hstill
  · rw [books_cons, books_cons, books_append]
    exact (hinner.2.perm (List.perm_append_singleton i held)).release

end

end Lib.Ledger
