import Mathlib.Data.List.Basic

/-!
# Writing a text in pieces

`writeAt` puts elements into a sequence at an offset, with a filler in front of them if the sequence
is too short. `Patched` holds of what the pieces of a text make of a sequence, in whatever order
they are written; when nothing is missing, it is the text written at once (`Patched.eq_writeAt`).
-/

namespace Lib.Patch

variable {α : Type} {fill : α} {init s text bytes : List α} {offset start k n j p : Nat}

def writeAt (fill : α) (s : List α) (offset : Nat) (bytes : List α) : List α :=
  if bytes.isEmpty then s
  else s.take offset ++ List.replicate (offset - s.length) fill ++ bytes ++
    s.drop (offset + bytes.length)

theorem writeAt_nil (s : List α) (offset : Nat) : writeAt fill s offset [] = s := rfl

theorem length_writeAt (fill : α) (s : List α) (offset : Nat) (h : bytes ≠ []) :
    (writeAt fill s offset bytes).length = max s.length (offset + bytes.length) := by
  rw [writeAt, if_neg (by simpa using h)]
  simp only [List.length_append, List.length_take, List.length_replicate, List.length_drop]
  omega

/-- What stands before the bytes has length `offset`. -/
theorem length_before (s : List α) (offset : Nat) :
    (s.take offset ++ List.replicate (offset - s.length) fill).length = offset := by
  simp only [List.length_append, List.length_take, List.length_replicate]
  omega

theorem getElem?_writeAt_inside (h : offset ≤ p) (h' : p < offset + bytes.length) :
    (writeAt fill s offset bytes)[p]? = bytes[p - offset]? := by
  have hne : bytes ≠ [] := by
    rintro rfl
    simp only [List.length_nil] at h'
    omega
  rw [writeAt, if_neg (by simpa using hne), List.append_assoc _ bytes,
    List.getElem?_append_right (by rw [length_before]; exact h), length_before,
    List.getElem?_append_left (by omega)]

theorem getElem?_writeAt_behind (h : offset + bytes.length ≤ p) :
    (writeAt fill s offset bytes)[p]? = s[p]? := by
  cases bytes with
  | nil => rfl
  | cons b bytes =>
    rw [writeAt, if_neg (by simp), List.append_assoc _ (b :: bytes),
      List.getElem?_append_right (by rw [length_before]; omega), length_before,
      List.getElem?_append_right (by omega), List.getElem?_drop]
    congr 1
    omega

/-- In front of the bytes, there is what was there, or the filler. -/
theorem getElem?_writeAt_before (fill : α) (s bytes : List α) (h : p < offset) :
    (writeAt fill s offset bytes)[p]? = s[p]? ∨
      s.length ≤ p ∧ (writeAt fill s offset bytes)[p]? = some fill := by
  cases bytes with
  | nil => exact .inl rfl
  | cons b bytes =>
    rw [writeAt, if_neg (by simp), List.append_assoc _ (b :: bytes),
      List.getElem?_append_left (by rw [length_before]; exact h)]
    rcases Nat.lt_or_ge p s.length with hlt | hge
    · left
      rw [List.getElem?_append_left (by rw [List.length_take]; omega), List.getElem?_take_of_lt h]
    · right
      refine ⟨hge, ?_⟩
      rw [List.getElem?_append_right (by rw [List.length_take]; omega), List.length_take,
        List.getElem?_replicate, if_pos (by omega)]

/-! ## Pieces of a text -/

/-- The element of the text at `j` is at its place. -/
def Holds (start : Nat) (text s : List α) (j : Nat) : Prop :=
  s[start + j]? = text[j]?

/-- Every element is an old one, one of the text at its place, or the filler behind the old ones. -/
structure Patched (fill : α) (init : List α) (start : Nat) (text s : List α) : Prop where
  source : ∀ p, s[p]? = init[p]? ∨
    start ≤ p ∧ p < start + text.length ∧ s[p]? = text[p - start]? ∨
    init.length ≤ p ∧ s[p]? = some fill
  length_ge : init.length ≤ s.length
  length_le : s.length ≤ max init.length (start + text.length)

theorem Patched.refl (init text : List α) (start : Nat) : Patched fill init start text init :=
  ⟨fun _ => .inl rfl, Nat.le_refl _, Nat.le_max_left _ _⟩

theorem length_piece (h : k + n ≤ text.length) : ((text.drop k).take n).length = n := by
  rw [List.length_take, List.length_drop]
  omega

/-- A piece puts its elements in place. -/
theorem holds_piece (h : k + n ≤ text.length) (hk : k ≤ j) (hn : j < k + n) :
    Holds start text (writeAt fill s (start + k) ((text.drop k).take n)) j := by
  have hlen := length_piece h
  rw [Holds, getElem?_writeAt_inside (by omega) (by rw [hlen]; omega),
    List.getElem?_take_of_lt (by omega), List.getElem?_drop]
  congr 1
  omega

/-- What is in place stays there. -/
theorem Holds.piece (hj : Holds start text s j) (hlt : j < text.length) (h : k + n ≤ text.length) :
    Holds start text (writeAt fill s (start + k) ((text.drop k).take n)) j := by
  have hlen := length_piece h
  by_cases hin : k ≤ j ∧ j < k + n
  · exact holds_piece h hin.1 hin.2
  unfold Holds at hj ⊢
  by_cases hbefore : j < k
  · rcases getElem?_writeAt_before fill s ((text.drop k).take n)
      (Nat.add_lt_add_left hbefore start) with hsame | ⟨hlong, -⟩
    · rw [hsame, hj]
    · rw [List.getElem?_eq_none hlong, eq_comm, List.getElem?_eq_none_iff] at hj
      omega
  · rw [getElem?_writeAt_behind (by rw [hlen]; omega), hj]

/-- **One more piece**, wherever it belongs. -/
theorem Patched.piece (hs : Patched fill init start text s) (h : k + n ≤ text.length) :
    Patched fill init start text (writeAt fill s (start + k) ((text.drop k).take n)) := by
  have hlen := length_piece h
  have hge := hs.length_ge
  have hle := hs.length_le
  by_cases hne : (text.drop k).take n = []
  · rwa [hne, writeAt_nil]
  refine ⟨fun p => ?_, ?_, ?_⟩
  · by_cases hin : start + k ≤ p ∧ p < start + k + n
    · refine .inr (.inl ⟨by omega, by omega, ?_⟩)
      rw [getElem?_writeAt_inside hin.1 (by rw [hlen]; exact hin.2),
        List.getElem?_take_of_lt (by omega), List.getElem?_drop]
      congr 1
      omega
    by_cases hbefore : p < start + k
    · rcases getElem?_writeAt_before fill s ((text.drop k).take n) hbefore with
        hsame | ⟨hlong, hfill⟩
      · rw [hsame]
        exact hs.source p
      · exact .inr (.inr ⟨Nat.le_trans hge hlong, hfill⟩)
    · rw [getElem?_writeAt_behind (by rw [hlen]; omega)]
      exact hs.source p
  · rw [length_writeAt fill s _ hne]
    omega
  · rw [length_writeAt fill s _ hne, hlen]
    omega

/-- **The pieces make up the text.** -/
theorem Patched.eq_writeAt (hs : Patched fill init start text s) (hne : text ≠ [])
    (hall : ∀ j < text.length, Holds start text s j) : s = writeAt fill init start text := by
  have hpos : 0 < text.length := List.length_pos_iff.mpr hne
  have hlong : start + text.length ≤ s.length := by
    have hlast := hall (text.length - 1) (by omega)
    by_contra hshort
    rw [Holds, List.getElem?_eq_none (by omega), eq_comm, List.getElem?_eq_none_iff] at hlast
    omega
  have hge := hs.length_ge
  have hle := hs.length_le
  refine List.ext_getElem? fun p => ?_
  rcases Nat.lt_or_ge p start with hbefore | hafter
  · rcases hs.source p with hsame | ⟨hin, -⟩ | ⟨hbehind, hfill⟩
    · rcases getElem?_writeAt_before fill init text hbefore with hsame' | ⟨hbehind, -⟩
      · rw [hsame', hsame]
      · rw [List.getElem?_eq_none hbehind, List.getElem?_eq_none_iff] at hsame
        omega
    · omega
    · rcases getElem?_writeAt_before fill init text hbefore with hsame' | ⟨-, hfill'⟩
      · have hlen := length_writeAt fill init start hne
        rw [List.getElem?_eq_none hbehind, List.getElem?_eq_none_iff] at hsame'
        omega
      · rw [hfill, hfill']
  rcases Nat.lt_or_ge p (start + text.length) with hin | hbehind
  · have hthere := hall (p - start) (by omega)
    rw [Holds, Nat.add_sub_cancel' hafter] at hthere
    rw [hthere, getElem?_writeAt_inside hafter hin]
  · rw [getElem?_writeAt_behind hbehind]
    rcases hs.source p with hsame | ⟨-, hlt, -⟩ | ⟨hold, hfill⟩
    · exact hsame
    · omega
    · have hthere := (List.getElem?_eq_some_iff.mp hfill).1
      omega

end Lib.Patch
