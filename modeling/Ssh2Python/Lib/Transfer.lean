import Mathlib.Algebra.Ring.Nat
import Mathlib.Data.List.Basic

/-!
# Transfers in pieces

A sender works through a sequence by attempts: each attempt offers the whole rest of the sequence
and is told how much of it was taken. `Resumes n a ts b` says that the attempts `ts` on a sequence
of length `n` begin at position `a`, each begins where the one before it ended, and the last one
ends at `b`. `Resumes.taken_eq` is what such attempts amount to: what was taken is the sequence
from `a` to `b`, each element once and in order.
-/

namespace Lib.Transfer

variable {α : Type*}

/-- One attempt: where the offered part begins, how long it is, how much of it was taken. -/
structure Attempt where
  start : Nat
  offered : Nat
  taken : Nat
  deriving DecidableEq, Repr

def takenFrom (xs : List α) (ts : List Attempt) : List α :=
  ts.flatMap fun t => (xs.drop t.start).take t.taken

def total (ts : List Attempt) : Nat :=
  (ts.map Attempt.taken).sum

/-- Each attempt offers exactly the rest and the next begins where it ended. -/
inductive Resumes (n : Nat) : Nat → List Attempt → Nat → Prop
  | nil (a : Nat) : Resumes n a [] a
  | cons {a b : Nat} {t : Attempt} {ts : List Attempt} (start : t.start = a)
      (offered : t.offered = n - a) (taken : t.taken ≤ t.offered)
      (rest : Resumes n (a + t.taken) ts b) : Resumes n a (t :: ts) b

namespace Resumes

variable {n a b : Nat} {ts : List Attempt}

theorem le (h : Resumes n a ts b) : a ≤ b := by
  induction h with
  | nil => exact Nat.le_refl _
  | cons _ _ _ _ ih => omega

theorem le_length (h : Resumes n a ts b) (ha : a ≤ n) : b ≤ n := by
  induction h with
  | nil => exact ha
  | cons _ offered taken _ ih => exact ih (by omega)

theorem offers_suffix (h : Resumes n a ts b) (ha : a ≤ n) :
    ∀ t ∈ ts, t.start + t.offered = n ∧ t.taken ≤ t.offered := by
  induction h with
  | nil => simp
  | cons start offered taken _ ih =>
    intro t ht
    rcases List.mem_cons.mp ht with rfl | ht
    · exact ⟨by omega, taken⟩
    · exact ih (by omega) t ht

theorem start_eq (h : Resumes n a ts b) {us vs : List Attempt} {t : Attempt}
    (hts : ts = us ++ t :: vs) : t.start = a + total us := by
  induction h generalizing us with
  | nil => simp at hts
  | cons start _ _ _ ih =>
    cases us with
    | nil =>
      obtain ⟨rfl, -⟩ := List.cons.inj hts
      simpa [total] using start
    | cons u us =>
      obtain ⟨rfl, htail⟩ := List.cons.inj hts
      rw [ih htail]
      simp only [total, List.map_cons, List.sum_cons]
      omega

theorem end_eq (h : Resumes n a ts b) : b = a + total ts := by
  induction h with
  | nil => rfl
  | cons _ _ _ _ ih =>
    rw [ih, total, total, List.map_cons, List.sum_cons, Nat.add_assoc]

/-- **No loss, no repetition**: what the attempts took is the sequence from `a` to `b`. -/
theorem taken_eq {xs : List α} (h : Resumes xs.length a ts b) :
    takenFrom xs ts = (xs.drop a).take (b - a) := by
  induction h with
  | nil => simp [takenFrom]
  | @cons a b t ts start _ _ rest ih =>
    have hb := rest.le
    have hrest : takenFrom xs ts = ((xs.drop a).drop t.taken).take (b - (a + t.taken)) := by
      rw [ih, List.drop_drop]
    calc takenFrom xs (t :: ts)
        = (xs.drop a).take t.taken ++ takenFrom xs ts := by simp [takenFrom, start]
      _ = (xs.drop a).take (t.taken + (b - (a + t.taken))) := by rw [hrest, ← List.take_add]
      _ = (xs.drop a).take (b - a) := by congr 1; omega

theorem taken_eq_take {xs : List α} (h : Resumes xs.length 0 ts b) :
    takenFrom xs ts = xs.take b := by
  simpa using h.taken_eq

end Resumes

end Lib.Transfer
