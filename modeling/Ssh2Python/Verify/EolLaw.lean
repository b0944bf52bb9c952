import Mathlib.Data.List.Forall2
import Ssh2Python.Verify.FindEol

/-!
# What the answer of `find_eol` depends on

The searches of the helper stop at a NUL and the second one starts in front of the match, so the
answer depends on more than the terminators of the data. `crSeen_iff` says on what, for a line that
is not empty; `findEol_hidden` and `reads_line` are the two ways in which it goes wrong, and
`eolLaw_iff` puts them together.
-/

namespace Ssh2Python

open Lib.CInt Lib.CString Lib.Lines

/-! ## The first line of the data -/

section FirstLine

variable {a post : List UInt8}

theorem all_ne_eol (ha : EOL ∉ a) : ∀ b ∈ a, (decide (b ≠ EOL)) = true := by
  intro b hb
  have hne : b ≠ EOL := fun h => ha (h ▸ hb)
  simpa using hne

theorem firstLine_eq (ha : EOL ∉ a) : firstLine (a ++ EOL :: post) = a := by
  rw [firstLine, List.takeWhile_append_of_pos (all_ne_eol ha)]
  simp

theorem behindLine_eq (ha : EOL ∉ a) : behindLine (a ++ EOL :: post) = post := by
  rw [behindLine, List.dropWhile_append_of_pos (all_ne_eol ha)]
  simp

/-- The helper sees a carriage return from the last byte of the line on. -/
theorem crSeen_iff (before : UInt8) (hne : a ≠ []) (h0 : 0 ∉ a) (ha : EOL ∉ a) :
    crSeen before a post = true ↔ CrFollows (a ++ EOL :: post) := by
  obtain ⟨s, b, rfl⟩ := (List.eq_nil_or_concat' a).resolve_left hne
  have hb : b ≠ 0 := fun h => h0 (by simp [h])
  rw [crSeen_concat_iff before s hb, CrFollows, firstLine_eq ha, behindLine_eq ha]
  simp

end FirstLine

namespace SameTerminators

variable {data data' a post : List UInt8}

theorem drop (h : SameTerminators data data') (n : Nat) :
    SameTerminators (data.drop n) (data'.drop n) :=
  List.forall₂_drop n h

theorem length_eq (h : SameTerminators data data') : data.length = data'.length :=
  List.Forall₂.length_eq h

/-- Line feeds stand in the same places. -/
theorem split (h : SameTerminators (a ++ EOL :: post) data') (ha : EOL ∉ a) :
    ∃ a' post', data' = a' ++ EOL :: post' ∧ EOL ∉ a' ∧ a'.length = a.length := by
  induction a generalizing data' with
  | nil =>
    obtain ⟨b', post', hb, -, rfl⟩ := List.forall₂_cons_left_iff.mp h
    rcases hb with rfl | ⟨⟨hne, -⟩, -⟩
    · exact ⟨[], post', rfl, List.not_mem_nil, rfl⟩
    · exact absurd rfl hne
  | cons b a ih =>
    simp only [List.mem_cons, not_or] at ha
    obtain ⟨b', rest, hb, hrest, rfl⟩ := List.forall₂_cons_left_iff.mp h
    obtain ⟨a', post', rfl, ha', hlen⟩ := ih hrest ha.2
    have hb' : EOL ≠ b' := by
      rcases hb with rfl | ⟨-, hne, -⟩
      · exact ha.1
      · exact Ne.symm hne
    refine ⟨b' :: a', post', rfl, ?_, by simp [hlen]⟩
    simp only [List.mem_cons, not_or]
    exact ⟨hb', ha'⟩

theorem not_mem (h : SameTerminators data data') (ha : EOL ∉ data) : EOL ∉ data' := by
  induction h with
  | nil => exact ha
  | cons hb _ ih =>
    simp only [List.mem_cons, not_or] at ha ⊢
    refine ⟨?_, ih ha.2⟩
    rcases hb with rfl | ⟨-, hne, -⟩
    · exact ha.1
    · exact Ne.symm hne

end SameTerminators

/-! ## One call -/

section OneCall

variable {before : UInt8} {buf : PyBytes} {pos : Nat} {a post : List UInt8}

theorem data_sliceFrom (buf : PyBytes) (pos : Nat) :
    (buf.sliceFrom pos).data = buf.data.drop pos := by
  rw [PyBytes.sliceFrom, if_neg (by omega), PyBytes.data_drop, Int.toNat_natCast]

theorem length_ne_zero_of_line (hsuffix : buf.data.drop pos = a ++ EOL :: post) :
    buf.length ≠ 0 := by
  intro h
  rw [List.length_eq_zero_iff.mp h, List.drop_nil] at hsuffix
  exact absurd hsuffix.symm (by simp)

/-- A NUL in the line hides its line feed. -/
theorem findEol_hidden (hsuffix : buf.data.drop pos = a ++ EOL :: post) (h0 : 0 ∈ a)
    (ha : EOL ∉ a) : findEol before buf pos = (-1, 0) := by
  have hnone : strchr EOL (a ++ EOL :: post ++ [0]) = none := by
    rw [List.append_assoc]
    exact strchr_hidden h0 ha
  rw [findEol, if_neg (length_ne_zero_of_line hsuffix), data_sliceFrom, hsuffix, cFindEol, hnone]

/-- Without a line feed the searches find none, with or without a NUL. -/
theorem findEol_none (ha : EOL ∉ buf.data.drop pos) :
    findEol before buf pos = (-1, if buf.length = 0 then (pos : Int) else 0) := by
  unfold findEol
  split
  · rfl
  · have hnone : strchr EOL (buf.data.drop pos ++ [0]) = none := strchr_absent ha (by decide)
    rw [data_sliceFrom, cFindEol, hnone]

theorem mem_offsets {o start : Int} {n : Nat} :
    o ∈ offsets start n ↔ start ≤ o ∧ o < start + n := by
  rw [offsets, List.mem_map]
  constructor
  · rintro ⟨i, hi, rfl⟩
    rw [List.mem_range] at hi
    omega
  · rintro ⟨hle, hlt⟩
    refine ⟨(o - start).toNat, ?_, ?_⟩
    · rw [List.mem_range]
      omega
    · omega

/-- The first search stays in the data and its NUL. -/
theorem reads_first {o : Int} {data : List UInt8}
    (h : o ∈ offsets 0 (strchrReads EOL (data ++ [0]))) : 0 ≤ o ∧ o ≤ data.length := by
  have hle : strchrReads EOL (data ++ [0]) ≤ data.length + 1 := strchrReads_terminated_le
  obtain ⟨h₀, h₁⟩ := mem_offsets.mp h
  omega

/-- So do both when the search finds nothing. -/
theorem reads_none {o : Int} (hnone : strchr EOL (buf.data.drop pos ++ [0]) = none)
    (h : o ∈ findEolReads before buf pos) : 0 ≤ o ∧ o ≤ (buf.data.drop pos).length := by
  unfold findEolReads at h
  split at h
  · exact absurd h List.not_mem_nil
  · rw [data_sliceFrom, cFindEolReads, hnone, List.append_nil] at h
    exact reads_first h

/-- **The step back**: behind a match the second search stays in the data exactly when the match is
not the first byte. -/
theorem reads_line (hsuffix : buf.data.drop pos = a ++ EOL :: post) (h0 : 0 ∉ a) (ha : EOL ∉ a) :
    (∀ o ∈ findEolReads before buf pos, 0 ≤ o ∧ o ≤ (buf.data.drop pos).length) ↔ a ≠ [] := by
  have hfound : strchr EOL (a ++ EOL :: post ++ [0]) = some a.length := by
    rw [List.append_assoc, List.cons_append]
    exact strchr_found h0 ha
  rw [findEolReads, if_neg (length_ne_zero_of_line hsuffix), data_sliceFrom, hsuffix,
    cFindEolReads, hfound]
  simp only [List.mem_append]
  constructor
  · rintro h rfl
    have hpos : 0 < strchrReads CR (before :: ([] ++ EOL :: post ++ [0])) := strchrReads_pos before
    have hmem : (-1 : Int) ∈ offsets ((0 : Nat) - 1)
        (strchrReads CR (before :: ([] ++ EOL :: post ++ [0]))) := by
      rw [mem_offsets]
      omega
    have := (h (-1) (.inr hmem)).1
    omega
  · rintro hne o (ho | ho)
    · exact reads_first ho
    · obtain ⟨s, b, rfl⟩ := (List.eq_nil_or_concat' a).resolve_left hne
      rw [List.append_assoc (s ++ [b]), drop_before] at ho
      have hle : strchrReads CR (b :: EOL :: post ++ [0]) ≤ (b :: EOL :: post).length + 1 :=
        strchrReads_terminated_le
      rw [mem_offsets] at ho
      simp only [List.cons_append, List.length_append, List.length_cons,
        List.length_nil] at ho hle ⊢
      omega

/-- What a line that is not empty is answered, in terms of the condition. -/
theorem findEol_follows (hsuffix : buf.data.drop pos = a ++ EOL :: post) (hne : a ≠ [])
    (h0 : 0 ∉ a) (ha : EOL ∉ a) :
    findEol before buf pos =
      (toInt32 ((a.length - if CrFollows (a ++ EOL :: post) then 1 else 0 : Nat) : Int),
        1 + if CrFollows (a ++ EOL :: post) then 1 else 0) := by
  have hpos : 0 < a.length := List.length_pos_iff.mpr hne
  have hseen := @crSeen_iff a post before hne h0 ha
  rw [findEol_line h0 hsuffix ha]
  by_cases hcr : CrFollows (a ++ EOL :: post)
  · rw [hseen.mpr hcr, if_pos hcr, if_pos hcr]
    congr 2
    simp only [Bool.toNat_true]
    omega
  · have hfalse : crSeen before a post = false := Bool.eq_false_iff.mpr (mt hseen.mp hcr)
    rw [hfalse, if_neg hcr, if_neg hcr]
    simp

end OneCall

/-! ## Both calls -/

section BothCalls

variable {buf buf' : PyBytes} {pos : Nat} {a post a' post' : List UInt8}
  (hsuffix : buf.data.drop pos = a ++ EOL :: post)
  (hsuffix' : buf'.data.drop pos = a' ++ EOL :: post') (ha : EOL ∉ a) (ha' : EOL ∉ a')
  (hlen : a'.length = a.length)
include hsuffix hsuffix' ha ha' hlen

/-- The index of a line is no index when a NUL hides its line feed, in either buffer. -/
theorem eolOk_of_eolLaw (hpos : pos ≤ buf.length) (h : EolLaw buf buf' pos) :
    EolOk (a ++ EOL :: post) (a' ++ EOL :: post') := by
  have hmem : EOL ∈ buf.data.drop pos := by simp [hsuffix]
  have hindex : ¬(findEol 0 buf pos).1 < 0 := fun hneg => (h.noLine 0).mp hneg hmem
  have hsame := h.same 0 0
  have h0 : 0 ∉ a := by
    intro h0
    rw [findEol_hidden hsuffix h0 ha] at hindex
    exact hindex (by decide)
  have h0' : 0 ∉ a' := by
    intro h0
    rw [hsame, findEol_hidden hsuffix' h0 ha'] at hindex
    exact hindex (by decide)
  have hne : a ≠ [] := by
    refine (@reads_line 0 buf pos a post hsuffix h0 ha).mp fun o ho => ?_
    have hread := h.reads 0 o ho
    rw [PyBytes.length] at hpos hread
    rw [List.length_drop]
    omega
  have hne' : a' ≠ [] := by
    rw [← List.length_pos_iff] at hne ⊢
    omega
  rw [findEol_follows hsuffix hne h0 ha] at hsame hindex
  rw [findEol_follows hsuffix' hne' h0' ha', Prod.mk.injEq] at hsame
  simp only [Int.not_lt] at hindex
  have hfits := toInt32_nonneg_iff.mp hindex
  refine ⟨?_, ?_, ?_, ?_, ?_⟩
  · rwa [firstLine_eq ha]
  · rwa [firstLine_eq ha]
  · rwa [firstLine_eq ha']
  · have hcr := hsame.2
    by_cases h : CrFollows (a ++ EOL :: post) <;>
      by_cases h' : CrFollows (a' ++ EOL :: post') <;> simp [h, h'] at hcr ⊢
  · rwa [firstLine_eq ha]

theorem eolLaw_of_eolOk (hpos : pos ≤ buf.length)
    (h : EolOk (a ++ EOL :: post) (a' ++ EOL :: post')) :
    EolLaw buf buf' pos := by
  obtain ⟨hne, h0, h0', hcr, hfits⟩ := h
  rw [firstLine_eq ha] at hne h0 hfits
  rw [firstLine_eq ha'] at h0'
  have hne' : a' ≠ [] := by
    rw [← List.length_pos_iff] at hne ⊢
    omega
  refine ⟨fun before o ho => ?_, fun before before' => ?_, fun before => ?_⟩
  · have hread := (reads_line hsuffix h0 ha).mpr hne o ho
    rw [List.length_drop] at hread
    rw [PyBytes.length] at hpos ⊢
    omega
  · rw [findEol_follows hsuffix hne h0 ha, findEol_follows hsuffix' hne' h0' ha', hlen]
    simp only [hcr]
  · have hmem : EOL ∈ buf.data.drop pos := by simp [hsuffix]
    rw [findEol_follows hsuffix hne h0 ha, ← Int.not_le, toInt32_nonneg_iff]
    exact iff_of_false (fun hno => hno hfits) fun hno => hno hmem

end BothCalls

/-- **When the answer depends on the terminators alone**: exactly when there is no line, or the
line is not empty, holds no NUL before or after the replacement, the replacement does not change
whether a carriage return is seen, and the index is in the lower half of its 32 bits. -/
theorem eolLaw_iff (buf buf' : PyBytes) (pos : Nat) (hpos : pos ≤ buf.length)
    (hsame : SameTerminators buf.data buf'.data) :
    EolLaw buf buf' pos ↔
      (EOL ∈ buf.data.drop pos → EolOk (buf.data.drop pos) (buf'.data.drop pos)) := by
  by_cases hmem : EOL ∈ buf.data.drop pos
  · rw [imp_iff_right hmem]
    obtain ⟨a, post, hsuffix, ha⟩ := List.eq_append_cons_of_mem hmem
    have hsame' := hsame.drop pos
    rw [hsuffix] at hsame'
    obtain ⟨a', post', hsuffix', ha', hlen⟩ := hsame'.split ha
    rw [hsuffix, hsuffix']
    exact ⟨eolOk_of_eolLaw hsuffix hsuffix' ha ha' hlen hpos,
      eolLaw_of_eolOk hsuffix hsuffix' ha ha' hlen hpos⟩
  · refine iff_of_true ⟨fun before o ho => ?_, fun before before' => ?_, fun before => ?_⟩
      fun h => absurd h hmem
    · have h := reads_none (strchr_absent hmem (by decide)) ho
      rw [List.length_drop] at h
      rw [PyBytes.length] at hpos ⊢
      omega
    · have hlength : buf.length = buf'.length := hsame.length_eq
      rw [findEol_none hmem, findEol_none ((hsame.drop pos).not_mem hmem), hlength]
    · rw [findEol_none hmem]
      exact iff_of_true (Int.negSucc_lt_zero 0) hmem

/-- A line, an empty line and a rest, and the same with other bytes and a NUL in the rest. -/
theorem mixedLines_law : EolLaw mixedLines ⟨[255, CR, EOL, EOL, 0], by decide⟩ 0 := by
  refine (eolLaw_iff mixedLines ⟨[255, CR, EOL, EOL, 0], by decide⟩ 0 (by decide) ?_).mpr
    fun _ => ⟨by decide, by decide, by decide, by decide, by decide⟩
  have htext : SameByte 97 255 ∧ SameByte 98 0 := ⟨.inr (by decide), .inr (by decide)⟩
  exact .cons htext.1 (.cons (.inl rfl) (.cons (.inl rfl) (.cons (.inl rfl)
    (.cons htext.2 .nil))))

/-- A NUL in place of the letter of a line hides the line, and an empty line is searched from the
byte in front of the data on. -/
theorem eolLaw_fails :
    ¬EolLaw ⟨[97, EOL], by decide⟩ ⟨[0, EOL], by decide⟩ 0 ∧
      ¬EolLaw ⟨[EOL], by decide⟩ ⟨[EOL], by decide⟩ 0 := by
  constructor
  · intro h
    have hsame := h.same 0 0
    revert hsame
    decide
  · intro h
    have hread := h.reads 0 (-1) (by decide)
    exact absurd hread.1 (by decide)

end Ssh2Python
