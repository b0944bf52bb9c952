import Mathlib.Data.List.Basic

/-!
# C strings

A C string is the memory from a pointer on: the bytes before the first NUL. `strlen` and `strchr`
read the memory byte by byte and stop at that NUL, so what they answer is a fact about the string
and not about what lies behind it.
-/

namespace Lib.CString

def strlen (mem : List UInt8) : Nat :=
  (mem.takeWhile (· ≠ 0)).length

/-- The string itself. -/
def cstring (mem : List UInt8) : List UInt8 :=
  mem.take (strlen mem)

/-- The offset of the first `c` in the string. The memory that ends without a NUL does not occur
with a terminated string. -/
def strchr (c : UInt8) : List UInt8 → Option Nat
  | [] => none
  | b :: bs => if b = c then some 0 else if b = 0 then none else (strchr c bs).map (· + 1)

/-- How many bytes `strchr` examines: up to the character or the NUL, whichever comes first. -/
def strchrReads (c : UInt8) : List UInt8 → Nat
  | [] => 0
  | b :: bs => if b = c ∨ b = 0 then 1 else strchrReads c bs + 1

variable {c : UInt8} {s mem : List UInt8}

theorem strlen_cons (b : UInt8) : strlen (b :: mem) = if b = 0 then 0 else strlen mem + 1 := by
  by_cases hb : b = 0
  · rw [if_pos hb, strlen, List.takeWhile_cons_of_neg (by simpa using hb)]
    rfl
  · rw [if_neg hb, strlen, List.takeWhile_cons_of_pos (by simpa using hb)]
    rfl

theorem strlen_append (h0 : 0 ∉ s) : strlen (s ++ mem) = s.length + strlen mem := by
  have hall : ∀ b ∈ s, (b ≠ 0 : Bool) = true := by
    intro b hb
    have hb0 : b ≠ 0 := fun h => h0 (h ▸ hb)
    simpa using hb0
  rw [strlen, List.takeWhile_append_of_pos hall, List.length_append, strlen]

theorem strlen_terminated (h0 : 0 ∉ s) : strlen (s ++ 0 :: mem) = s.length :=
  strlen_append h0

theorem strlen_le_length : strlen mem ≤ mem.length :=
  (List.takeWhile_prefix _).length_le

/-- What follows a NUL does not matter. -/
theorem strlen_append_of_mem (h : 0 ∈ s) : strlen (s ++ mem) = strlen s := by
  obtain ⟨pre, post, rfl, hpre⟩ := List.eq_append_cons_of_mem h
  rw [List.append_assoc, List.cons_append, strlen_terminated hpre, strlen_terminated hpre]

theorem strlen_lt_of_mem (h : 0 ∈ s) : strlen s < s.length := by
  obtain ⟨pre, post, rfl, hpre⟩ := List.eq_append_cons_of_mem h
  rw [strlen_terminated hpre, List.length_append, List.length_cons]
  omega

theorem cstring_append_of_mem (h : 0 ∈ s) : cstring (s ++ mem) = cstring s := by
  unfold cstring
  rw [strlen_append_of_mem h]
  exact List.take_append_of_le_length strlen_le_length

theorem zero_not_mem_cstring : 0 ∉ cstring mem := by
  intro h
  have htake : cstring mem = mem.takeWhile (· ≠ 0) :=
    (List.prefix_iff_eq_take.mp (List.takeWhile_prefix _)).symm
  rw [htake] at h
  simpa using List.all_eq_true.mp List.all_takeWhile 0 h

/-- **What a C string keeps of its bytes**: all of them exactly when none is NUL and the terminator
follows them at once. -/
theorem cstring_append_eq_iff : cstring (s ++ mem) = s ↔ 0 ∉ s ∧ strlen mem = 0 := by
  constructor
  · intro h
    have h0 : 0 ∉ s := h ▸ zero_not_mem_cstring
    have hle : strlen mem ≤ mem.length := strlen_le_length
    have hcount := congrArg List.length h
    rw [cstring, strlen_append h0, List.length_take, List.length_append] at hcount
    exact ⟨h0, by omega⟩
  · rintro ⟨h0, hmem⟩
    rw [cstring, strlen_append h0, hmem]
    exact List.take_left

theorem cstring_terminated_eq_iff : cstring (s ++ 0 :: mem) = s ↔ 0 ∉ s := by
  rw [cstring_append_eq_iff]
  exact and_iff_left rfl

/-- The length of a C string never passes its terminator, and reaches it when no byte is NUL. -/
theorem strlen_terminated_le : strlen (s ++ 0 :: mem) ≤ s.length := by
  induction s with
  | nil => exact Nat.le_refl 0
  | cons b s ih =>
    rw [List.cons_append, strlen_cons, List.length_cons]
    split <;> omega

theorem strlen_terminated_eq_iff : strlen (s ++ 0 :: mem) = s.length ↔ 0 ∉ s := by
  refine ⟨fun h => ?_, strlen_terminated⟩
  rw [← cstring_terminated_eq_iff, cstring, h]
  exact List.take_left

/-- What a string holds before the first `c` does not matter. -/
theorem strchr_append (h0 : 0 ∉ s) (hc : c ∉ s) :
    strchr c (s ++ mem) = (strchr c mem).map (s.length + ·) := by
  induction s with
  | nil => cases h : strchr c mem <;> simp [h]
  | cons b s ih =>
    simp only [List.mem_cons, not_or] at h0 hc
    rw [List.cons_append, strchr, if_neg (Ne.symm hc.1), if_neg (Ne.symm h0.1), ih h0.2 hc.2,
      Option.map_map]
    congr 1
    funext n
    simp only [Function.comp_apply, List.length_cons]
    omega

theorem strchr_found (h0 : 0 ∉ s) (hc : c ∉ s) : strchr c (s ++ c :: mem) = some s.length := by
  rw [strchr_append h0 hc]
  simp [strchr]

/-- **What `strchr` decides**: whether the character occurs before the terminator. -/
theorem strchr_isSome_iff (h0 : 0 ∉ s) (hc : c ≠ 0) :
    (strchr c (s ++ 0 :: mem)).isSome ↔ c ∈ s := by
  induction s with
  | nil => simp [strchr, Ne.symm hc]
  | cons b s ih =>
    simp only [List.mem_cons, not_or] at h0
    rw [List.cons_append, strchr]
    split
    · next h => simp [h]
    · next h =>
      rw [if_neg (Ne.symm h0.1), Option.isSome_map, ih h0.2]
      simp [Ne.symm h]

theorem strchr_eq_none_iff (h0 : 0 ∉ s) (hc : c ≠ 0) :
    strchr c (s ++ 0 :: mem) = none ↔ c ∉ s := by
  rw [← Option.not_isSome_iff_eq_none, strchr_isSome_iff h0 hc]

/-- A NUL in front of the first `c` hides it. -/
theorem strchr_hidden (h0 : 0 ∈ s) (hc : c ∉ s) : strchr c (s ++ mem) = none := by
  induction s with
  | nil => exact absurd h0 List.not_mem_nil
  | cons b s ih =>
    simp only [List.mem_cons, not_or] at h0 hc
    rw [List.cons_append, strchr, if_neg (Ne.symm hc.1)]
    split
    · rfl
    · next hb => rw [ih (h0.resolve_left (Ne.symm hb)) hc.2, Option.map_none]

theorem strchr_absent (hc : c ∉ s) (h : c ≠ 0) : strchr c (s ++ 0 :: mem) = none := by
  by_cases h0 : 0 ∈ s
  · exact strchr_hidden h0 hc
  · exact (strchr_eq_none_iff h0 h).mpr hc

theorem cstring_cons (b : UInt8) :
    cstring (b :: mem) = if b = 0 then [] else b :: cstring mem := by
  unfold cstring
  rw [strlen_cons]
  split <;> simp

/-- In general `strchr` decides membership in the string itself. -/
theorem strchr_isSome_iff_mem_cstring (hc : c ≠ 0) : (strchr c mem).isSome ↔ c ∈ cstring mem := by
  induction mem with
  | nil => simp [strchr, cstring]
  | cons b mem ih =>
    rw [strchr, cstring_cons]
    by_cases hb : b = c
    · simp [hb, hc]
    · by_cases h0 : b = 0
      · simp [h0, Ne.symm hc]
      · simp [hb, h0, ih, Ne.symm hb]

/-- A terminated string is not read past its terminator. -/
theorem strchrReads_terminated_le : strchrReads c (s ++ 0 :: mem) ≤ s.length + 1 := by
  induction s with
  | nil => simp [strchrReads]
  | cons b s ih =>
    rw [List.cons_append, strchrReads, List.length_cons]
    split <;> omega

theorem strchrReads_pos (b : UInt8) : 0 < strchrReads c (b :: mem) := by
  rw [strchrReads]
  split <;> omega

end Lib.CString
