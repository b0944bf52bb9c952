import Mathlib.Data.List.Basic

/-!
# Runs of a machine

A machine is a step function: an action takes a state to the next one and emits events, or is not
possible. `Runs` is a sequence of steps that all meet a guard, a condition on the action and on the
state in which it is taken. `Runs.induction` derives what holds over a run from what one step does,
and `Refines.run` is its form for a specification: a step that is matched by the specification,
under a relation between the states, makes every run a behaviour the specification accepts. A guard
that looks at the events so far is a guard of the `logged` machine.
-/

namespace Lib.Run

variable {σ τ α ε : Type*}

abbrev Step (σ α ε : Type*) := σ → α → Option (σ × List ε)

/-- A run of `step` in which every action meets `guard` in the state where it is taken. -/
inductive Runs (step : Step σ α ε) (guard : σ → α → Prop) : σ → List α → List ε → σ → Prop
  | nil (s : σ) : Runs step guard s [] [] s
  | cons {s s' s'' : σ} {a : α} {as : List α} {es fs : List ε} (hg : guard s a)
      (hs : step s a = some (s', es)) (hr : Runs step guard s' as fs s'') :
      Runs step guard s (a :: as) (es ++ fs) s''

def exec (step : Step σ α ε) (s : σ) : List α → Option (σ × List ε)
  | [] => some (s, [])
  | a :: as => do
    let (s', es) ← step s a
    let (s'', fs) ← exec step s' as
    return (s'', es ++ fs)

section

variable {step : Step σ α ε} {guard : σ → α → Prop} {s s' : σ} {as : List α} {es : List ε}

theorem Runs.cons_inv {a : α} {s'' : σ} (h : Runs step guard s (a :: as) es s'') :
    ∃ s' fs gs, guard s a ∧ step s a = some (s', fs) ∧ es = fs ++ gs ∧
      Runs step guard s' as gs s'' := by
  cases h with
  | cons hg hs hr => exact ⟨_, _, _, hg, hs, rfl, hr⟩

/-- **Induction on a run**: what one guarded step preserves and guarantees of its events holds at
the end of every guarded run and of all its events. -/
theorem Runs.induction (inv : σ → Prop) (ok : ε → Prop)
    (hstep : ∀ s a s' es, inv s → guard s a → step s a = some (s', es) →
      inv s' ∧ ∀ e ∈ es, ok e)
    (hrun : Runs step guard s as es s') (hs : inv s) : inv s' ∧ ∀ e ∈ es, ok e := by
  induction hrun with
  | nil s => exact ⟨hs, fun e he => absurd he List.not_mem_nil⟩
  | cons hg hs' _ ih =>
    obtain ⟨hinv, hok⟩ := hstep _ _ _ _ hs hg hs'
    obtain ⟨hinv', hok'⟩ := ih hinv
    refine ⟨hinv', fun e he => ?_⟩
    rcases List.mem_append.mp he with he | he
    · exact hok e he
    · exact hok' e he

/-- A run meets another guard, where an invariant of its states implies that its steps do. -/
theorem Runs.mono {guard' : σ → α → Prop} (inv : σ → Prop)
    (hstep : ∀ s a s' es, inv s → guard s a → step s a = some (s', es) → guard' s a ∧ inv s')
    (hrun : Runs step guard s as es s') (hs : inv s) : Runs step guard' s as es s' := by
  induction hrun with
  | nil s => exact .nil s
  | cons hg hs' _ ih =>
    obtain ⟨hg', hinv⟩ := hstep _ _ _ _ hs hg hs'
    exact .cons hg' hs' (ih hinv)

/-- **What a run guarantees, exactly**: where an invariant implies that a step's events are right if
and only if it meets the guard, the events of a run are right if and only if all its steps do. -/
theorem Runs.guarded_iff_of_inv (inv : σ → Prop) (ok : ε → Prop)
    (hstep : ∀ s a s' es, inv s → step s a = some (s', es) →
      inv s' ∧ ((∀ e ∈ es, ok e) ↔ guard s a))
    (hrun : Runs step (fun _ _ => True) s as es s') (hs : inv s) :
    (∀ e ∈ es, ok e) ↔ Runs step guard s as es s' := by
  constructor
  · intro hok
    induction hrun with
    | nil s => exact .nil s
    | cons _ hs' _ ih =>
      obtain ⟨hes, hfs⟩ := List.forall_mem_append.mp hok
      obtain ⟨hinv, hiff⟩ := hstep _ _ _ _ hs hs'
      exact .cons (hiff.mp hes) hs' (ih hinv hfs)
  · intro h
    refine (Runs.induction inv ok (fun s a s' es hinv hg hs' => ?_) h hs).2
    obtain ⟨hinv', hiff⟩ := hstep s a s' es hinv hs'
    exact ⟨hinv', hiff.mpr hg⟩

theorem Runs.guarded_iff {ok : ε → Prop}
    (hstep : ∀ s a s' es, step s a = some (s', es) → ((∀ e ∈ es, ok e) ↔ guard s a))
    (hrun : Runs step (fun _ _ => True) s as es s') :
    (∀ e ∈ es, ok e) ↔ Runs step guard s as es s' :=
  hrun.guarded_iff_of_inv (fun _ => True) ok
    (fun s a s' es _ hs => ⟨trivial, hstep s a s' es hs⟩) trivial

/-- A computed run is a run; the guard is checked along the way. -/
theorem runs_of_exec (h : exec step s as = some (s', es)) :
    Runs step (fun _ _ => True) s as es s' := by
  induction as generalizing s es with
  | nil =>
    obtain ⟨rfl, rfl⟩ := Prod.mk.inj (Option.some.inj h)
    exact .nil s
  | cons a as ih =>
    simp only [exec, Option.bind_eq_bind, Option.bind_eq_some_iff, Prod.exists] at h
    obtain ⟨s₁, es₁, hs, s₂, es₂, hr, heq⟩ := h
    obtain ⟨rfl, rfl⟩ := Prod.mk.inj (Option.some.inj heq)
    exact .cons trivial hs (ih hr)

end

/-! ## Histories -/

/-- The machine that keeps its events. -/
def logged (step : Step σ α ε) : Step (σ × List ε) α ε := fun (s, log) a =>
  (step s a).map fun (s', es) => ((s', log ++ es), es)

/-- Each event is right after the events before it. -/
def Each (ok : List ε → ε → Prop) : List ε → List ε → Prop
  | _, [] => True
  | log, e :: es => ok log e ∧ Each ok (log ++ [e]) es

section

variable {step : Step σ α ε} {s s' : σ} {as : List α} {ok : List ε → ε → Prop} {log es fs : List ε}

theorem logged_eq_some {a : α} (h : step s a = some (s', es)) :
    logged step (s, log) a = some ((s', log ++ es), es) := by
  rw [logged, h]
  rfl

theorem each_append : Each ok log (es ++ fs) ↔ Each ok log es ∧ Each ok (log ++ es) fs := by
  induction es generalizing log with
  | nil => rw [List.nil_append, List.append_nil, Each, true_and]
  | cons e es ih =>
    rw [List.cons_append, Each, Each, ih, and_assoc, List.append_assoc, List.singleton_append]

theorem each_iff : Each ok log es ↔
    ∀ before e after, es = before ++ e :: after → ok (log ++ before) e := by
  constructor
  · rintro h before e after rfl
    exact (each_append.mp h).2.1
  · intro h
    induction es generalizing log with
    | nil => trivial
    | cons e es ih =>
      refine ⟨?_, ih fun before f after hes => ?_⟩
      · have hfirst := h [] e es rfl
        rwa [List.append_nil] at hfirst
      · have hrest := h (e :: before) f after (congrArg (e :: ·) hes)
        rwa [List.append_assoc, List.singleton_append]

/-- **What a run guarantees after its history, exactly**: as `Runs.guarded_iff_of_inv`, where both
the events and the guard are judged after the events so far. -/
theorem Runs.logged_iff_of_inv {guard : σ × List ε → α → Prop} (inv : σ → Prop)
    (hstep : ∀ s a s' es log, inv s → step s a = some (s', es) →
      inv s' ∧ (Each ok log es ↔ guard (s, log) a))
    (hrun : Runs step (fun _ _ => True) s as es s') (hs : inv s) :
    Each ok log es ↔ Runs (logged step) guard (s, log) as es (s', log ++ es) := by
  induction hrun generalizing log with
  | nil s =>
    rw [List.append_nil]
    exact iff_of_true trivial (.nil _)
  | @cons s s' s'' a as es fs _ hs' _ ih =>
    obtain ⟨hinv, hiff⟩ := hstep s a s' es log hs hs'
    rw [each_append, hiff, ih hinv, List.append_assoc]
    constructor
    · rintro ⟨hg, hr⟩
      exact .cons hg (logged_eq_some hs') hr
    · intro h
      obtain ⟨t, es', fs', hg, ht, heq, hr⟩ := h.cons_inv
      obtain ⟨rfl, rfl⟩ := Prod.mk.inj (Option.some.inj ((logged_eq_some hs').symm.trans ht))
      obtain rfl := List.append_cancel_left heq
      exact ⟨hg, hr⟩

end

/-! ## Steps that are computed -/

section

variable {β : Type*} {s s' : σ} {es fs : List ε}

theorem guarded_eq_some {c : Prop} [Decidable c]
    (h : (if c then some (s, es) else none) = some (s', fs)) :
    c ∧ s = s' ∧ es = fs := by
  obtain ⟨hc, h⟩ := Option.ite_none_right_eq_some.mp h
  exact ⟨hc, Prod.mk.inj (Option.some.inj h)⟩

theorem map_eq_some {o : Option β} {f : β → σ} {g : β → List ε}
    (h : (o.map fun b => (f b, g b)) = some (s', fs)) : ∃ b, o = some b ∧ f b = s' ∧ g b = fs := by
  obtain ⟨b, hb, h⟩ := Option.map_eq_some_iff.mp h
  exact ⟨b, hb, Prod.mk.inj h⟩

end

/-! ## Specifications -/

/-- A specification accepts sequences of events, from a state to a state. -/
structure Spec (τ ε : Type*) where
  accepts : τ → List ε → τ → Prop
  nil : ∀ t, accepts t [] t
  append : ∀ {t t' t'' es fs}, accepts t es t' → accepts t' fs t'' → accepts t (es ++ fs) t''

/-- A specification of what events mean, where an event may mean several or none. -/
def Spec.comap {ε' : Type*} (S : Spec τ ε) (f : ε' → List ε) : Spec τ ε' where
  accepts t es t' := S.accepts t (es.flatMap f) t'
  nil t := S.nil t
  append h h' := by
    rw [List.flatMap_append]
    exact S.append h h'

/-- A guarded step is matched by the specification, and the states stay related. -/
def Refines (step : Step σ α ε) (guard : σ → α → Prop) (S : Spec τ ε) (R : σ → τ → Prop) : Prop :=
  ∀ s a s' es t, R s t → guard s a → step s a = some (s', es) →
    ∃ t', S.accepts t es t' ∧ R s' t'

/-- **A refinement holds over runs.** -/
theorem Refines.run {step : Step σ α ε} {guard : σ → α → Prop} {S : Spec τ ε} {R : σ → τ → Prop}
    (h : Refines step guard S R) {s s' : σ} {as : List α} {es : List ε} {t : τ}
    (hrun : Runs step guard s as es s') (hR : R s t) : ∃ t', S.accepts t es t' ∧ R s' t' := by
  induction hrun generalizing t with
  | nil s => exact ⟨t, S.nil t, hR⟩
  | cons hg hs _ ih =>
    obtain ⟨t₁, hacc, hR₁⟩ := h _ _ _ _ t hR hg hs
    obtain ⟨t₂, hacc', hR₂⟩ := ih hR₁
    exact ⟨t₂, S.append hacc hacc', hR₂⟩

end Lib.Run
