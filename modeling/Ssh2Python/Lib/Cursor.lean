import Mathlib.Data.List.Basic
import Mathlib.Data.List.Nodup
import Mathlib.Data.List.TakeWhile

/-!
# Walking a list by its elements

A list of distinct elements can be walked without indices: the first element is asked for with
nothing, and every other one with the element in front of it. `Enumerates` says what such a walk
comes across from a given place; `enumerates_all` and `enumerates_behind` say that it is the whole
list, or what stands behind the element it starts from.
-/

namespace Lib.Cursor

variable {α : Type*}

/-- Asked with `p` first, and then with what was found last, `next` finds `xs` and nothing more. -/
inductive Enumerates (next : Option α → Option α) : Option α → List α → Prop
  | nil {p : Option α} (h : next p = none) : Enumerates next p []
  | cons {p : Option α} {a : α} {xs : List α} (h : next p = some a)
      (hs : Enumerates next (some a) xs) : Enumerates next p (a :: xs)

theorem not_mem_of_nodup {pre post : List α} {a : α} (h : (pre ++ a :: post).Nodup) : a ∉ pre :=
  fun hpre => (List.nodup_append.mp h).2.2 a hpre a List.mem_cons_self rfl

variable [DecidableEq α]

/-- What stands behind `a` in the list. -/
def behind (xs : List α) (a : α) : List α :=
  (xs.dropWhile (· ≠ a)).drop 1

/-- The first element, or the one behind `a`. -/
def next (xs : List α) : Option α → Option α
  | none => xs.head?
  | some a => (behind xs a).head?

theorem behind_append {pre post : List α} {a : α} (h : a ∉ pre) :
    behind (pre ++ a :: post) a = post := by
  unfold behind
  rw [List.dropWhile_append_of_pos]
  · simp
  · intro b hb
    simpa using fun hba : b = a => h (hba ▸ hb)

theorem behind_eq_nil {xs : List α} {a : α} (h : a ∉ xs) : behind xs a = [] := by
  unfold behind
  rw [List.dropWhile_eq_nil_iff.mpr]
  · rfl
  · intro b hb
    simpa using fun hba : b = a => h (hba ▸ hb)

/-- **From an element on**: what stands behind it. -/
theorem enumerates_behind {xs pre post : List α} {a : α} (h : xs.Nodup)
    (hxs : xs = pre ++ a :: post) :
    Enumerates (next xs) (some a) post := by
  induction post generalizing pre a with
  | nil =>
    subst hxs
    refine .nil ?_
    rw [next, behind_append (not_mem_of_nodup h)]
    rfl
  | cons b post ih =>
    have hshift : xs = (pre ++ [a]) ++ b :: post := by simpa using hxs
    refine .cons ?_ (ih hshift)
    subst hxs
    rw [next, behind_append (not_mem_of_nodup h)]
    rfl

/-- **From the start**: the whole list. -/
theorem enumerates_all {xs : List α} (h : xs.Nodup) : Enumerates (next xs) none xs := by
  cases hxs : xs with
  | nil => exact .nil rfl
  | cons a post =>
    have hbehind := enumerates_behind h (show xs = [] ++ a :: post from hxs)
    exact .cons rfl (hxs ▸ hbehind)

end Lib.Cursor
