import Mathlib.Data.List.Basic
import Mathlib.Tactic.Ring

/-!
# Numbers and frames on a wire

Numbers are stored with their most significant byte first, and a frame is a message behind its
length. `frames` is what a receiver makes of the bytes that it has so far: `frames_flatMap_append`
says that it is the messages that are complete, whatever there is of the next one.
-/

namespace Lib.Wire

/-! ## Numbers -/

/-- The last `k` bytes of a number. -/
def store : Nat → Nat → List UInt8
  | 0, _ => []
  | k + 1, n => UInt8.ofNat (n / 256 ^ k) :: store k n

def value (bs : List UInt8) : Nat :=
  bs.foldl (fun n b => 256 * n + b.toNat) 0

@[simp] theorem length_store (k n : Nat) : (store k n).length = k := by
  induction k with
  | zero => rfl
  | succ k ih => rw [store, List.length_cons, ih]

theorem foldl_value (bs : List UInt8) (n : Nat) :
    bs.foldl (fun n b => 256 * n + b.toNat) n = n * 256 ^ bs.length + value bs := by
  unfold value
  induction bs generalizing n with
  | nil => simp
  | cons b bs ih =>
    rw [List.foldl_cons, List.foldl_cons, ih, ih (256 * 0 + b.toNat), List.length_cons]
    ring

theorem value_cons (b : UInt8) (bs : List UInt8) :
    value (b :: bs) = b.toNat * 256 ^ bs.length + value bs := by
  have h := foldl_value bs (256 * 0 + b.toNat)
  rw [Nat.mul_zero, Nat.zero_add] at h
  rw [value, List.foldl_cons, Nat.mul_zero, Nat.zero_add, h]

/-- **What is stored is read back**, as far as the bytes go. -/
@[simp] theorem value_store (k n : Nat) : value (store k n) = n % 256 ^ k := by
  induction k with
  | zero => simp [store, value, Nat.mod_one]
  | succ k ih =>
    have hbyte : (UInt8.ofNat (n / 256 ^ k)).toNat = n / 256 ^ k % 256 := UInt8.toNat_ofNat'
    rw [store, value_cons, length_store, ih, hbyte, Nat.pow_succ, Nat.mod_mul]
    ring

/-! ## Frames -/

/-- A message behind its length. -/
def frame (m : List UInt8) : List UInt8 :=
  store 4 m.length ++ m

/-- The first message of a stream, and the rest of the stream. -/
def splitFrame (s : List UInt8) : Option (List UInt8 × List UInt8) :=
  if s.length < 4 ∨ s.length < 4 + value (s.take 4) then none
  else some ((s.drop 4).take (value (s.take 4)), (s.drop 4).drop (value (s.take 4)))

/-- At most `n` messages. -/
def framesWithin : Nat → List UInt8 → List (List UInt8)
  | 0, _ => []
  | n + 1, s =>
    match splitFrame s with
    | none => []
    | some (m, rest) => m :: framesWithin n rest

/-- The messages that a stream holds completely. -/
def frames (s : List UInt8) : List (List UInt8) :=
  framesWithin s.length s

/-- The start of a frame that is not there to its end. -/
def Torn (s : List UInt8) : Prop :=
  splitFrame s = none

theorem length_frame (m : List UInt8) : (frame m).length = m.length + 4 := by
  rw [frame, List.length_append, length_store, Nat.add_comm]

theorem splitFrame_frame {m : List UInt8} (h : m.length < 2 ^ 32) (rest : List UInt8) :
    splitFrame (frame m ++ rest) = some (m, rest) := by
  have htake : (frame m ++ rest).take 4 = store 4 m.length := by
    rw [frame, List.append_assoc]
    exact List.take_left' (length_store 4 m.length)
  have hdrop : (frame m ++ rest).drop 4 = m ++ rest := by
    rw [frame, List.append_assoc]
    exact List.drop_left' (length_store 4 m.length)
  have hvalue : value (store 4 m.length) = m.length := by
    rw [value_store]
    exact Nat.mod_eq_of_lt h
  have hlen : (frame m ++ rest).length = m.length + 4 + rest.length := by
    rw [List.length_append, length_frame]
  rw [splitFrame, htake, hvalue, hdrop, hlen, if_neg (by omega), List.take_left, List.drop_left]

/-- A frame is torn as long as a byte of it is missing. -/
theorem torn_take {m : List UInt8} (h : m.length < 2 ^ 32) {n : Nat} (hn : n < (frame m).length) :
    Torn ((frame m).take n) := by
  have hlen : ((frame m).take n).length = n := List.length_take_of_le hn.le
  unfold Torn splitFrame
  rw [if_pos]
  by_cases h4 : n < 4
  · exact .inl (by rwa [hlen])
  · refine .inr ?_
    have htake : ((frame m).take n).take 4 = store 4 m.length := by
      rw [List.take_take, Nat.min_eq_left (Nat.not_lt.mp h4), frame]
      exact List.take_left' (length_store 4 m.length)
    rw [htake, value_store, Nat.mod_eq_of_lt (by omega), hlen]
    rw [length_frame] at hn
    omega

theorem torn_nil : Torn [] := rfl

theorem framesWithin_torn (n : Nat) {s : List UInt8} (h : Torn s) : framesWithin n s = [] := by
  cases n with
  | zero => rfl
  | succ n =>
    unfold Torn at h
    simp only [framesWithin, h]

theorem framesWithin_flatMap {ms : List (List UInt8)} (h : ∀ m ∈ ms, m.length < 2 ^ 32)
    {tail : List UInt8} (htail : Torn tail) {n : Nat} (hn : ms.length ≤ n) :
    framesWithin n (ms.flatMap frame ++ tail) = ms := by
  induction ms generalizing n with
  | nil => exact framesWithin_torn n htail
  | cons m ms ih =>
    obtain ⟨n, rfl⟩ :=
      Nat.exists_eq_add_one_of_ne_zero (n := n) (by rw [List.length_cons] at hn; omega)
    have hm := h m List.mem_cons_self
    rw [List.flatMap_cons, List.append_assoc, framesWithin]
    simp only [splitFrame_frame hm]
    rw [ih (fun m' hm' => h m' (List.mem_cons_of_mem m hm')) (Nat.le_of_succ_le_succ hn)]

theorem length_le_flatMap_frame (ms : List (List UInt8)) :
    ms.length ≤ (ms.flatMap frame).length := by
  induction ms with
  | nil => exact Nat.le_refl 0
  | cons m ms ih =>
    rw [List.flatMap_cons, List.length_append, length_frame, List.length_cons]
    omega

/-- **A receiver finds the messages that were sent**, and nothing of the one that is under way. -/
theorem frames_flatMap_append {ms : List (List UInt8)} (h : ∀ m ∈ ms, m.length < 2 ^ 32)
    {tail : List UInt8} (htail : Torn tail) : frames (ms.flatMap frame ++ tail) = ms := by
  refine framesWithin_flatMap h htail ?_
  have hle := length_le_flatMap_frame ms
  rw [List.length_append]
  omega

end Lib.Wire
