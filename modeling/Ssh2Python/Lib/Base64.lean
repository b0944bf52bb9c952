import Mathlib.Data.List.Basic
import Mathlib.Data.UInt
import Mathlib.Tactic.IntervalCases

/-!
# Base64

A base64 codec for any alphabet of 64 digits. The encoder turns three bytes into four digits and
pads the rest of one or two bytes. The decoder skips what is no digit, so it needs no padding and no
line structure: `decode_encode_of_filter` is the round trip for every text that has the digits of
the encoding in it. It writes to a buffer; `State.top` is how much of that it touches.
-/

namespace Lib.Base64

/-- The digits, in order, and the values of the bytes that are digits. -/
structure Alphabet where
  digit : UInt8 → UInt8
  value : UInt8 → Option UInt8
  pad : UInt8
  value_digit : ∀ v < 64, value (digit v) = some v
  value_pad : value pad = none

/-! ## Encoding -/

/-- The four values of three bytes. -/
def sextets (a b c : UInt8) : List UInt8 :=
  [(a &&& 0xFC) >>> 2, ((a &&& 0x03) <<< 4) ||| ((b &&& 0xF0) >>> 4),
    ((b &&& 0x0F) <<< 2) ||| ((c &&& 0xC0) >>> 6), c &&& 0x3F]

/-- The values of the digits of an encoding. -/
def values : List UInt8 → List UInt8
  | [] => []
  | [a] => (sextets a 0 0).take 2
  | [a, b] => (sextets a b 0).take 3
  | a :: b :: c :: rest => sextets a b c ++ values rest

/-- How many digits are missing in the last group. -/
def padding : List UInt8 → Nat
  | [] => 0
  | [_] => 2
  | [_, _] => 1
  | _ :: _ :: _ :: rest => padding rest

def encode (A : Alphabet) (bs : List UInt8) : List UInt8 :=
  (values bs).map A.digit ++ List.replicate (padding bs) A.pad

/-! ## Decoding -/

/-- The decoder: the number of digits so far, the bytes that are complete, the byte that is begun,
and the number of bytes of the buffer that were written to. -/
structure State where
  i : Nat
  out : List UInt8
  cur : UInt8
  top : Nat
  deriving DecidableEq, Repr

def State.start : State := ⟨0, [], 0, 0⟩

/-- One digit. -/
def State.digit (s : State) (v : UInt8) : State :=
  match s.i % 4 with
  | 0 => ⟨s.i + 1, s.out, v <<< 2, s.out.length + 1⟩
  | 1 => ⟨s.i + 1, s.out ++ [s.cur ||| v >>> 4], v <<< 4, s.out.length + 2⟩
  | 2 => ⟨s.i + 1, s.out ++ [s.cur ||| v >>> 2], v <<< 6, s.out.length + 2⟩
  | _ => ⟨s.i + 1, s.out ++ [s.cur ||| v], s.cur ||| v, s.top⟩

def State.digits (s : State) (vs : List UInt8) : State :=
  vs.foldl State.digit s

/-- The bytes, unless the last digit is alone in its group. -/
def State.result (s : State) : Option (List UInt8) :=
  if s.i % 4 = 1 then none else some s.out

/-- The decoder over a text. -/
def run (A : Alphabet) (text : List UInt8) : State :=
  State.start.digits (text.filterMap A.value)

def decode (A : Alphabet) (text : List UInt8) : Option (List UInt8) :=
  (run A text).result

/-! ## Groups -/

/-- The bytes of a sequence of values, which is what the decoder completes. -/
def bytes : List UInt8 → List UInt8
  | [] | [_] => []
  | [u, v] => [u <<< 2 ||| v >>> 4]
  | [u, v, w] => [u <<< 2 ||| v >>> 4, v <<< 4 ||| w >>> 2]
  | u :: v :: w :: x :: rest =>
    [u <<< 2 ||| v >>> 4, v <<< 4 ||| w >>> 2, w <<< 6 ||| x] ++ bytes rest

theorem eq_of_bits {a b : UInt8} (h : ∀ i < 8, a.toBitVec.getLsbD i = b.toBitVec.getLsbD i) :
    a = b :=
  UInt8.eq_of_toBitVec_eq (BitVec.eq_of_getLsbD_eq h)

section Sextets

variable (a b c : UInt8)

theorem first_byte : ((a &&& 0xFC) >>> 2) <<< 2 |||
    (((a &&& 0x03) <<< 4) ||| ((b &&& 0xF0) >>> 4)) >>> 4 = a := by
  refine eq_of_bits fun i hi => ?_
  interval_cases i <;> simp

theorem second_byte : (((a &&& 0x03) <<< 4) ||| ((b &&& 0xF0) >>> 4)) <<< 4 |||
    (((b &&& 0x0F) <<< 2) ||| ((c &&& 0xC0) >>> 6)) >>> 2 = b := by
  refine eq_of_bits fun i hi => ?_
  interval_cases i <;> simp

theorem third_byte :
    (((b &&& 0x0F) <<< 2) ||| ((c &&& 0xC0) >>> 6)) <<< 6 ||| (c &&& 0x3F) = c := by
  refine eq_of_bits fun i hi => ?_
  interval_cases i <;> simp

end Sextets

/-- Three bytes at a time, with a rest of two, one or none. -/
theorem triples {P : List UInt8 → Prop} (nil : P []) (one : ∀ a, P [a]) (two : ∀ a b, P [a, b])
    (three : ∀ a b c rest, P rest → P (a :: b :: c :: rest)) : ∀ bs, P bs
  | [] => nil
  | [a] => one a
  | [a, b] => two a b
  | a :: b :: c :: rest => three a b c rest (triples nil one two three rest)

/-- **The groups come back.** -/
theorem bytes_values (bs : List UInt8) : bytes (values bs) = bs := by
  induction bs using triples with
  | nil => rfl
  | one a => exact congrArg (fun x => [x]) (first_byte a 0)
  | two a b =>
    have ha := first_byte a b
    have hb := second_byte a b 0
    exact congrArg₂ (fun x y => [x, y]) ha hb
  | three a b c rest ih =>
    simp [values, sextets, bytes, first_byte a b, second_byte a b c, third_byte b c, ih]

theorem length_values_mod (bs : List UInt8) : (values bs).length % 4 ≠ 1 := by
  induction bs using triples with
  | nil => decide
  | one a => exact of_decide_eq_true rfl
  | two a b => exact of_decide_eq_true rfl
  | three a b c rest ih =>
    rw [values, List.length_append]
    simp only [sextets, List.length_cons, List.length_nil]
    omega

/-- A group of four digits is as long as its values and its padding. -/
theorem length_values_add (bs : List UInt8) :
    (values bs).length + padding bs = 4 * ((bs.length + 2) / 3) := by
  induction bs using triples with
  | nil => rfl
  | one a => simp [values, sextets, padding]
  | two a b => simp [values, sextets, padding]
  | three a b c rest ih =>
    simp only [values, sextets, padding, List.length_append, List.length_cons, List.length_nil]
    omega

theorem lt_of_and_eq {v : UInt8} (h : v &&& 0x3F = v) : v < 64 := by
  rw [← h, UInt8.lt_iff_toNat_lt, UInt8.toNat_and]
  exact Nat.lt_succ_of_le Nat.and_le_right

theorem sextets_lt (a b c : UInt8) : ∀ v ∈ sextets a b c, v < 64 := by
  intro v hv
  refine lt_of_and_eq (eq_of_bits fun i hi => ?_)
  simp only [sextets, List.mem_cons, List.not_mem_nil, or_false] at hv
  rcases hv with rfl | rfl | rfl | rfl <;> interval_cases i <;> simp

theorem values_lt (bs : List UInt8) : ∀ v ∈ values bs, v < 64 := by
  induction bs using triples with
  | nil => exact nofun
  | one a => exact fun v hv => sextets_lt a 0 0 v (List.mem_of_mem_take hv)
  | two a b => exact fun v hv => sextets_lt a b 0 v (List.mem_of_mem_take hv)
  | three a b c rest ih =>
    intro v hv
    rcases List.mem_append.mp hv with hv | hv
    · exact sextets_lt a b c v hv
    · exact ih v hv

/-! ## The decoder -/

section

variable {s : State}

/-- One digit, by its place in the group. -/
theorem digit_first (h : s.i % 4 = 0) (v : UInt8) :
    s.digit v = ⟨s.i + 1, s.out, v <<< 2, s.out.length + 1⟩ := by
  simp only [State.digit, h]

theorem digit_second (h : s.i % 4 = 1) (v : UInt8) :
    s.digit v = ⟨s.i + 1, s.out ++ [s.cur ||| v >>> 4], v <<< 4, s.out.length + 2⟩ := by
  simp only [State.digit, h]

theorem digit_third (h : s.i % 4 = 2) (v : UInt8) :
    s.digit v = ⟨s.i + 1, s.out ++ [s.cur ||| v >>> 2], v <<< 6, s.out.length + 2⟩ := by
  simp only [State.digit, h]

theorem digit_fourth (h : s.i % 4 = 3) (v : UInt8) :
    s.digit v = ⟨s.i + 1, s.out ++ [s.cur ||| v], s.cur ||| v, s.top⟩ := by
  simp only [State.digit, h]

theorem digits_cons (v : UInt8) (vs : List UInt8) : s.digits (v :: vs) = (s.digit v).digits vs :=
  rfl

/-- **From a complete group on** the decoder completes the bytes of the values that follow, and has
written a byte more than those if the last group is not complete. -/
theorem digits_out (hs : s.i % 4 = 0) (htop : s.top = s.out.length) (vs : List UInt8) :
    (s.digits vs).out = s.out ++ bytes vs ∧ (s.digits vs).i = s.i + vs.length ∧
      (s.digits vs).top = s.out.length + 3 * (vs.length / 4) + vs.length % 4 := by
  induction vs using bytes.induct generalizing s with
  | case1 => simp [State.digits, bytes, htop]
  | case2 u =>
    rw [digits_cons, digit_first hs]
    simp [State.digits, bytes]
  | case3 u v =>
    rw [digits_cons, digit_first hs, digits_cons, digit_second (by dsimp only; omega)]
    simp [State.digits, bytes]
  | case4 u v w =>
    rw [digits_cons, digit_first hs, digits_cons, digit_second (by dsimp only; omega), digits_cons,
      digit_third (by dsimp only; omega)]
    simp [State.digits, bytes]
  | case5 u v w x rest ih =>
    rw [digits_cons, digit_first hs, digits_cons, digit_second (by dsimp only; omega), digits_cons,
      digit_third (by dsimp only; omega), digits_cons, digit_fourth (by dsimp only; omega)]
    obtain ⟨hout, hi, htop'⟩ := @ih ⟨s.i + 1 + 1 + 1 + 1,
      s.out ++ [u <<< 2 ||| v >>> 4] ++ [v <<< 4 ||| w >>> 2] ++ [w <<< 6 ||| x], w <<< 6 ||| x,
      (s.out ++ [u <<< 2 ||| v >>> 4]).length + 2⟩ (by dsimp only; omega) (by simp)
    refine ⟨hout.trans (by simp [bytes]), hi.trans ?_, htop'.trans ?_⟩
    · simp only [List.length_cons]
      omega
    · simp only [List.length_append, List.length_cons, List.length_nil]
      omega

end

/-! ## Texts -/

variable {A : Alphabet}

theorem filterMap_digits {vs : List UInt8} (h : ∀ v ∈ vs, v < 64) :
    (vs.map A.digit).filterMap A.value = vs := by
  induction vs with
  | nil => rfl
  | cons v vs ih =>
    rw [List.map_cons, List.filterMap_cons_some (A.value_digit v (h v List.mem_cons_self)),
      ih fun v' hv' => h v' (List.mem_cons_of_mem v hv')]

/-- The digits of an encoding, without its padding. -/
theorem filterMap_encode (bs : List UInt8) : (encode A bs).filterMap A.value = values bs := by
  have hpad : (List.replicate (padding bs) A.pad).filterMap A.value = [] := by
    rw [List.filterMap_eq_nil_iff]
    intro b hb
    rw [List.eq_of_mem_replicate hb, A.value_pad]
  rw [encode, List.filterMap_append, filterMap_digits (values_lt bs), hpad, List.append_nil]

/-- What the decoder gives is a function of the digits. -/
theorem decode_eq (text : List UInt8) :
    decode A text = if (text.filterMap A.value).length % 4 = 1 then none
      else some (bytes (text.filterMap A.value)) := by
  have hstart : State.start.i % 4 = 0 := rfl
  obtain ⟨hout, hi, -⟩ := digits_out hstart rfl (text.filterMap A.value)
  rw [decode, run, State.result, hi, hout]
  simp [State.start]

/-- **Round trip**: a text with the digits of an encoding decodes to what was encoded, whatever
stands between the digits. -/
theorem decode_encode_of_filter {bs text : List UInt8}
    (h : text.filterMap A.value = (encode A bs).filterMap A.value) :
    decode A text = some bs := by
  rw [decode_eq, h, filterMap_encode, if_neg (length_values_mod bs), bytes_values]

theorem decode_encode (bs : List UInt8) : decode A (encode A bs) = some bs :=
  decode_encode_of_filter rfl

theorem length_encode (bs : List UInt8) : (encode A bs).length = 4 * ((bs.length + 2) / 3) := by
  rw [encode, List.length_append, List.length_map, List.length_replicate, length_values_add]

theorem encode_eq_nil_iff {bs : List UInt8} : encode A bs = [] ↔ bs = [] := by
  rw [← List.length_eq_zero_iff, length_encode, ← List.length_eq_zero_iff]
  omega

/-- An encoding is made of digits and padding. -/
theorem mem_encode {bs : List UInt8} {c : UInt8} (h : c ∈ encode A bs) :
    (∃ v < 64, c = A.digit v) ∨ c = A.pad := by
  rcases List.mem_append.mp h with h | h
  · obtain ⟨v, hv, rfl⟩ := List.mem_map.mp h
    exact .inl ⟨v, values_lt bs v hv, rfl⟩
  · exact .inr (List.eq_of_mem_replicate h)

/-- How much of its buffer the decoder writes to. -/
theorem top_run (text : List UInt8) :
    (run A text).top = 3 * ((text.filterMap A.value).length / 4) +
      (text.filterMap A.value).length % 4 := by
  have hstart : State.start.i % 4 = 0 := rfl
  obtain ⟨-, -, htop⟩ := digits_out hstart rfl (text.filterMap A.value)
  rw [run, htop, State.start]
  simp only [List.length_nil, Nat.zero_add]

end Lib.Base64
