import Mathlib.Data.List.Basic

/-!
# Lines of a buffer

A buffer is cut at every line feed; each piece but the last is a line, whose carriage return, if it
ends in one, belongs to its terminator, and the last piece is the rest. `lines_rejoin` says that
lines, terminators and rest are the buffer, `lineInduction` is induction on the number of lines, and
`eachLine_cons_iff` splits a property of every line of a buffer into the first line and the others.
-/

namespace Lib.Lines

variable {α : Type*} [DecidableEq α] (lf cr : α)

/-- A line without the carriage return at its end. -/
def chomp (l : List α) : List α :=
  if l.getLast? = some cr then l.dropLast else l

def terminator (l : List α) : List α :=
  if l.getLast? = some cr then [cr, lf] else [lf]

/-- The lines of a buffer, without their terminators. -/
def lines (buf : List α) : List (List α) :=
  (buf.splitOn lf).dropLast.map (chomp cr)

/-- What follows the last line feed. -/
def rest (buf : List α) : List α :=
  (buf.splitOn lf).getLast (List.splitOn_ne_nil lf buf)

theorem chomp_append_terminator (l : List α) : chomp cr l ++ terminator lf cr l = l ++ [lf] := by
  unfold chomp terminator
  split
  · next h =>
    obtain ⟨s, rfl⟩ := List.getLast?_eq_some_iff.mp h
    simp
  · rfl

/-- The part of the terminator that stands in front of the line feed. -/
def trailing (l : List α) : Nat :=
  if l.getLast? = some cr then 1 else 0

theorem length_chomp (l : List α) : (chomp cr l).length + trailing cr l = l.length := by
  unfold chomp trailing
  split
  · next h =>
    obtain ⟨s, rfl⟩ := List.getLast?_eq_some_iff.mp h
    simp
  · rfl

theorem length_terminator (l : List α) : (terminator lf cr l).length = trailing cr l + 1 := by
  unfold terminator trailing
  split <;> rfl

section Cutting

variable {lf} {a : List α} (ha : lf ∉ a)
include ha

theorem splitOn_of_not_mem : a.splitOn lf = [a] := by
  rw [List.splitOn_eq_splitOnP, List.splitOnP_eq_singleton]
  intro x hx
  have hne : x ≠ lf := fun h => ha (h ▸ hx)
  simpa using hne

theorem splitOn_cons (post : List α) : (a ++ lf :: post).splitOn lf = a :: post.splitOn lf := by
  rw [List.splitOn_eq_splitOnP, List.splitOnP_append_cons_of_forall_mem _ lf (by simp)]
  · rfl
  · intro x hx
    have hne : x ≠ lf := fun h => ha (h ▸ hx)
    simpa using hne

theorem rest_of_not_mem : rest lf a = a := by
  simp [rest, splitOn_of_not_mem ha]

theorem lines_cons (post : List α) :
    lines lf cr (a ++ lf :: post) = chomp cr a :: lines lf cr post := by
  simp only [lines, splitOn_cons ha]
  rw [List.dropLast_cons_of_ne_nil (List.splitOn_ne_nil lf post), List.map_cons]

theorem rest_cons (post : List α) : rest lf (a ++ lf :: post) = rest lf post := by
  simp only [rest, splitOn_cons ha]
  exact List.getLast_cons (List.splitOn_ne_nil lf post)

end Cutting

/-- **Induction on lines**: a buffer is a rest, or a line, its line feed and a buffer. -/
@[elab_as_elim]
theorem lineInduction {motive : List α → Prop} (last : ∀ a, lf ∉ a → motive a)
    (line : ∀ a post, lf ∉ a → motive post → motive (a ++ lf :: post)) (buf : List α) :
    motive buf := by
  induction hn : buf.length using Nat.strongRecOn generalizing buf with
  | ind n ih =>
    by_cases h : lf ∈ buf
    · obtain ⟨a, post, rfl, ha⟩ := List.eq_append_cons_of_mem h
      refine line a post ha (ih post.length ?_ post rfl)
      rw [← hn, List.length_append, List.length_cons]
      omega
    · exact last buf h

/-- **Nothing is lost**: the lines with their terminators, and the rest, are the buffer. -/
theorem lines_rejoin (buf : List α) :
    (buf.splitOn lf).dropLast.flatMap (fun l => chomp cr l ++ terminator lf cr l) ++ rest lf buf =
      buf := by
  induction buf using lineInduction lf with
  | last a ha => rw [rest_of_not_mem ha, splitOn_of_not_mem ha]; rfl
  | line a post ha ih =>
    rw [rest_cons ha, splitOn_cons ha,
      List.dropLast_cons_of_ne_nil (List.splitOn_ne_nil lf post), List.flatMap_cons,
      List.append_assoc, ih, chomp_append_terminator, List.append_assoc]
    rfl

/-! ## A property of every line -/

/-- `Q` holds of each line of the buffer, given where the line starts, the line with its carriage
return, and what follows its line feed. -/
def EachLine (Q : Nat → List α → List α → Prop) (buf : List α) : Prop :=
  ∀ pre a post, buf = pre ++ a ++ lf :: post → (pre = [] ∨ pre.getLast? = some lf) → lf ∉ a →
    Q pre.length a post

variable {lf} {Q : Nat → List α → List α → Prop} {a : List α}

omit [DecidableEq α] in
theorem eachLine_of_not_mem (ha : lf ∉ a) : EachLine lf Q a := by
  rintro pre b post rfl - -
  simp at ha

theorem append_cons_inj {b post post' : List α} (ha : lf ∉ a) (hb : lf ∉ b)
    (h : a ++ lf :: post = b ++ lf :: post') : a = b ∧ post = post' := by
  have hsplit : a :: post.splitOn lf = b :: post'.splitOn lf := by
    rw [← splitOn_cons ha, ← splitOn_cons hb, h]
  obtain rfl : a = b := (List.cons.inj hsplit).1
  exact ⟨rfl, (List.cons.inj (List.append_cancel_left h)).2⟩

theorem eachLine_cons_iff (ha : lf ∉ a) (post : List α) :
    EachLine lf Q (a ++ lf :: post) ↔
      Q 0 a post ∧ EachLine lf (fun n => Q (a.length + 1 + n)) post := by
  constructor
  · intro h
    refine ⟨h [] a post rfl (.inl rfl) ha, fun pre b post' hsplit hpre hb => ?_⟩
    have hlen : (a ++ lf :: pre).length = a.length + 1 + pre.length := by
      simp only [List.length_append, List.length_cons]
      omega
    show Q (a.length + 1 + pre.length) b post'
    rw [← hlen]
    refine h (a ++ lf :: pre) b post' (by simp [hsplit]) (.inr ?_) hb
    rw [List.getLast?_append_of_ne_nil _ (List.cons_ne_nil _ _)]
    rcases hpre with rfl | hpre
    · rfl
    · rw [List.getLast?_cons, hpre]
      rfl
  · rintro ⟨h, hrest⟩ pre b post' hsplit hpre hb
    by_cases hmem : lf ∈ pre
    · obtain ⟨a', pre', rfl, ha'⟩ := List.eq_append_cons_of_mem hmem
      simp only [List.append_assoc, List.cons_append] at hsplit
      obtain ⟨rfl, hpost⟩ := append_cons_inj ha ha' hsplit
      have hlen : (a ++ lf :: pre').length = a.length + 1 + pre'.length := by
        simp only [List.length_append, List.length_cons]
        omega
      rw [hlen]
      refine hrest pre' b post' (by rw [hpost, List.append_assoc]) ?_ hb
      rcases hpre with hpre | hpre
      · simp at hpre
      · rw [List.getLast?_append_of_ne_nil _ (List.cons_ne_nil _ _)] at hpre
        cases pre' with
        | nil => exact .inl rfl
        | cons x xs => exact .inr (by simpa [List.getLast?_cons_cons] using hpre)
    · rcases hpre with rfl | hpre
      · obtain ⟨rfl, rfl⟩ := append_cons_inj ha hb hsplit
        exact h
      · exact absurd (List.mem_of_getLast? hpre) hmem

end Lib.Lines
