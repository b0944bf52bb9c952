import Ssh2Python.FindEol

/-!
# When reading lines is right

`findEol_line` computes what `find_eol` answers at the start of a line, and `lineOk_iff` when that
answer is the end of the line. `readLines_cuts` and `lineOk_of_readLines` carry this over the loop,
in both directions, by induction on the lines; `cutsIntoLines_iff` is their conjunction.
-/

namespace Ssh2Python

open Lib.CInt Lib.CString Lib.Lines

/-! ## One line -/

/-- The helper saw a carriage return from the byte before the line feed on. -/
def crSeen (before : UInt8) (a post : List UInt8) : Bool :=
  (strchr CR ((before :: (a ++ EOL :: post ++ [0])).drop a.length)).isSome

section OneLine

variable {before : UInt8} {a post : List UInt8}

theorem crSeen_nil (before : UInt8) (h0 : 0 ∉ post) :
    crSeen before [] post = true ↔ before = CR ∨ before ≠ 0 ∧ CR ∈ post := by
  have h0' : 0 ∉ EOL :: post := by
    rw [List.mem_cons, not_or]
    exact ⟨by decide, h0⟩
  have hrest : (strchr CR (EOL :: post ++ [0])).isSome ↔ CR ∈ EOL :: post :=
    strchr_isSome_iff h0' (by decide)
  have hpost : CR ∈ EOL :: post ↔ CR ∈ post := by
    rw [List.mem_cons]
    exact or_iff_right (by decide)
  simp only [crSeen, List.nil_append, List.length_nil, List.drop_zero, strchr]
  split
  · next h => simp [h]
  · next h =>
    split
    · next h' =>
      subst h'
      simp [h]
    · next h' =>
      rw [Option.isSome_map, hrest, hpost]
      simp [h, h']

theorem drop_before (before : UInt8) (s : List UInt8) (b : UInt8) (mem : List UInt8) :
    (before :: (s ++ [b] ++ mem)).drop (s ++ [b]).length = b :: mem := by
  have hlen : (s ++ [b]).length = (before :: s).length := by simp
  have hmem : before :: (s ++ [b] ++ mem) = (before :: s) ++ (b :: mem) := by simp
  rw [hlen, hmem, List.drop_left]

/-- Behind a line that is not empty the search goes on up to the next NUL. -/
theorem crSeen_concat_iff (before : UInt8) (s : List UInt8) {b : UInt8} (hb : b ≠ 0) :
    crSeen before (s ++ [b]) post = true ↔ b = CR ∨ CR ∈ cstring (post ++ [0]) := by
  have hEOL : EOL ≠ 0 := by decide
  have hne : CR ≠ EOL := by decide
  rw [crSeen, List.append_assoc (s ++ [b]), drop_before, strchr_isSome_iff_mem_cstring (by decide),
    cstring_cons, if_neg hb, List.cons_append, cstring_cons, if_neg hEOL]
  simp only [List.mem_cons, hne, false_or, eq_comm]

theorem crSeen_concat (before : UInt8) (s : List UInt8) {b : UInt8} (hb : b ≠ 0) (h0 : 0 ∉ post) :
    crSeen before (s ++ [b]) post = true ↔ b = CR ∨ CR ∈ post := by
  rw [crSeen_concat_iff before s hb, cstring_terminated_eq_iff.mpr h0]

/-- What `find_eol` answers at the start of a line. -/
theorem findEol_line {buf : PyBytes} {pos : Nat} (h0 : 0 ∉ a)
    (hsuffix : buf.data.drop pos = a ++ EOL :: post) (ha : EOL ∉ a) :
    findEol before buf pos =
      (toInt32 (a.length - (crSeen before a post).toNat),
        1 + ((crSeen before a post).toNat : Int)) := by
  have hne : buf.length ≠ 0 := by
    intro h
    rw [List.length_eq_zero_iff.mp h, List.drop_nil] at hsuffix
    exact absurd hsuffix.symm (by simp)
  have hslice : (buf.sliceFrom pos).data = a ++ EOL :: post := by
    rw [PyBytes.sliceFrom, if_neg (by omega), PyBytes.data_drop, Int.toNat_natCast, hsuffix]
  have hfound : strchr EOL (a ++ EOL :: post ++ [0]) = some a.length := by
    rw [List.append_assoc, List.cons_append]
    exact strchr_found h0 ha
  rw [findEol, if_neg hne, hslice, cFindEol, hfound]
  simp only [toInt32_toUInt32]
  cases hcr : crSeen before a post with
  | true =>
    rw [if_pos (by exact hcr)]
    rfl
  | false =>
    rw [if_neg (by rw [crSeen] at hcr; simp only [hcr, Bool.false_eq_true, not_false_iff])]
    simp

/-- Where there is no line feed the loop stops. -/
theorem findEol_rest {buf : PyBytes} {pos : Nat} (h0 : 0 ∉ a) (hsuffix : buf.data.drop pos = a)
    (ha : EOL ∉ a) : (findEol before buf pos).1 = -1 := by
  unfold findEol
  split
  · rfl
  · have hslice : (buf.sliceFrom pos).data = a := by
      rw [PyBytes.sliceFrom, if_neg (by omega), PyBytes.data_drop, Int.toNat_natCast, hsuffix]
    have hnone : strchr EOL (a ++ [0]) = none := (strchr_eq_none_iff h0 (by decide)).mpr ha
    rw [hslice, cFindEol, hnone]

/-- The condition on a line says that the helper saw a carriage return exactly when the line has
one. -/
theorem lineOk_iff_seen (h0 : 0 ∉ a) (h0' : 0 ∉ post) :
    LineOk before a post ↔
      (crSeen before a post).toNat = trailing CR a ∧ (chomp CR a).length < 2 ^ 31 := by
  refine and_congr_left fun _ => ?_
  rcases List.eq_nil_or_concat' a with rfl | ⟨s, b, rfl⟩
  · have hseen := crSeen_nil before h0'
    cases hcr : crSeen before [] post with
    | true =>
      rw [hcr] at hseen
      rcases hseen.mp rfl with h | ⟨h, hmem⟩
      · simp [h, trailing]
      · simp [h, hmem, trailing]
    | false =>
      rw [hcr] at hseen
      have hnot := not_or.mp (mt hseen.mpr (by decide))
      have hcr' : before = 0 ∨ CR ∉ post := by
        by_cases h : before = 0
        · exact .inl h
        · exact .inr fun hmem => hnot.2 ⟨h, hmem⟩
      simp [hnot.1, hcr', trailing]
  · have hb : b ≠ 0 := fun h => h0 (by simp [h])
    have hseen := crSeen_concat before s hb h0'
    have hlast : (s ++ [b]).getLast? = some b := by simp
    rw [if_neg (by simp), hlast, trailing, hlast]
    by_cases h : b = CR
    · have : crSeen before (s ++ [b]) post = true := hseen.mpr (.inl h)
      simp [h ▸ this, h]
    · by_cases hmem : CR ∈ post
      · have : crSeen before (s ++ [b]) post = true := hseen.mpr (.inr hmem)
        simp [this, h, hmem]
      · have : crSeen before (s ++ [b]) post = false := by
          rw [← Bool.not_eq_true, hseen]
          exact not_or.mpr ⟨h, hmem⟩
        simp [this, h, hmem]

/-- **One line**: the index is the end of the line exactly under the condition. -/
theorem lineOk_iff (h0 : 0 ∉ a) (h0' : 0 ∉ post) :
    LineOk before a post ↔
      toInt32 (a.length - (crSeen before a post).toNat) = (chomp CR a).length := by
  rw [lineOk_iff_seen h0 h0']
  have hlen := length_chomp CR a
  have htrail : trailing CR a ≤ 1 := by
    unfold trailing
    split <;> omega
  have hseen : (crSeen before a post).toNat ≤ 1 := Bool.toNat_le _
  constructor
  · rintro ⟨hcr, hlt⟩
    have heq : (a.length : Int) - (crSeen before a post).toNat = (chomp CR a).length := by omega
    rw [heq]
    exact toInt32_eq_iff.mpr ⟨by omega, by omega⟩
  · intro h
    have hlt := toInt32_lt (a.length - (crSeen before a post).toNat)
    obtain ⟨k, hk⟩ := toInt32_dvd (a.length - (crSeen before a post).toNat)
    omega

end OneLine

/-! ## The loop -/

section Loop

variable {before : Nat → UInt8} {buf : PyBytes} {pos : Nat}

theorem readLines_stop (fuel : Nat) (h : (findEol (before pos) buf pos).1 < 0) :
    readLines before buf (fuel + 1) pos = some ([], buf.data.drop pos) := by
  rw [readLines]
  exact if_pos h

theorem readLines_line (fuel : Nat) {index newPos : Nat}
    (h : findEol (before pos) buf pos = ((index : Int), (newPos : Int))) :
    readLines before buf (fuel + 1) pos =
      (readLines before buf fuel (Piece.next ⟨pos, index, newPos⟩)).map
        fun r => (⟨pos, index, newPos⟩ :: r.1, r.2) := by
  rw [readLines, h]
  simp only [Int.toNat_natCast, if_neg (Int.not_lt.mpr (Int.natCast_nonneg index))]
  show (readLines before buf fuel (Piece.next ⟨pos, index, newPos⟩)).bind _ = _
  exact Option.map_eq_bind.symm

/-- Fuel only decides whether the loop is seen to end. -/
theorem readLines_unique {fuel fuel' : Nat} {r r' : List Piece × List UInt8}
    (h : readLines before buf fuel pos = some r) (h' : readLines before buf fuel' pos = some r') :
    r = r' := by
  induction fuel generalizing fuel' pos r r' with
  | zero => cases h
  | succ fuel ih =>
    cases fuel' with
    | zero => cases h'
    | succ fuel' =>
      rw [readLines] at h h'
      split at h
      · next hneg =>
        rw [if_pos hneg] at h'
        exact Option.some.inj (h.symm.trans h')
      · next hneg =>
        rw [if_neg hneg] at h'
        simp only [Option.bind_eq_bind, Option.bind_eq_some_iff] at h h'
        obtain ⟨q, hq, hr⟩ := h
        obtain ⟨q', hq', hr'⟩ := h'
        rw [ih hq hq'] at hr
        exact Option.some.inj (hr.symm.trans hr')

/-- The piece a right answer gives: the line, its terminator, and the start of the next line. -/
theorem Piece.cuts {a post : List UInt8} (hsuffix : buf.data.drop pos = a ++ EOL :: post) :
    let p : Piece := ⟨pos, (chomp CR a).length, trailing CR a + 1⟩
    p.line buf = chomp CR a ∧ p.dropped buf = terminator EOL CR a ∧
      p.next = pos + (a.length + 1) ∧ buf.data.drop p.next = post := by
  intro p
  have hlen := length_chomp CR a
  have hsplit : a ++ EOL :: post = chomp CR a ++ (terminator EOL CR a ++ post) := by
    rw [← List.append_assoc, chomp_append_terminator, List.append_assoc]
    rfl
  have hnext : p.next = pos + (a.length + 1) := by
    show pos + ((chomp CR a).length + (trailing CR a + 1)) = _
    omega
  refine ⟨?_, ?_, hnext, ?_⟩
  · rw [Piece.line, hsuffix, hsplit]
    exact List.take_left
  · rw [Piece.dropped, ← List.drop_drop, hsuffix, hsplit, List.drop_left]
    show List.take (trailing CR a + 1) (terminator EOL CR a ++ post) = _
    rw [← length_terminator EOL CR a]
    exact List.take_left
  · rw [hnext, ← List.drop_drop, hsuffix, ← List.drop_drop, List.drop_left]
    rfl

/-- **The loop is right**: when every line is, it ends and its pieces are the lines with their
terminators. -/
theorem readLines_cuts {suffix : List UInt8} (h0 : 0 ∉ suffix)
    (hsuffix : buf.data.drop pos = suffix)
    (hok : EachLine EOL (fun n => LineOk (before (pos + n))) suffix) :
    ∃ fuel pieces, readLines before buf fuel pos = some (pieces, rest EOL suffix) ∧
      pieces.map (fun p => (p.line buf, p.dropped buf)) =
        (suffix.splitOn EOL).dropLast.map (fun l => (chomp CR l, terminator EOL CR l)) ∧
      ∀ p ∈ pieces, p.pos < p.next := by
  induction suffix using lineInduction EOL generalizing pos with
  | last a ha =>
    refine ⟨1, [], ?_, ?_, fun p hp => absurd hp List.not_mem_nil⟩
    · have hstop : (findEol (before pos) buf pos).1 = -1 := findEol_rest h0 hsuffix ha
      rw [readLines_stop 0 (by rw [hstop]; decide), hsuffix, rest_of_not_mem ha]
    · rw [splitOn_of_not_mem ha]
      rfl
  | line a post ha ih =>
    simp only [List.mem_append, List.mem_cons, not_or] at h0
    obtain ⟨h0a, -, h0p⟩ := h0
    obtain ⟨hline, hrest⟩ := (eachLine_cons_iff ha post).mp hok
    have hseen := ((lineOk_iff_seen h0a h0p).mp hline).1
    have hindex := (lineOk_iff h0a h0p).mp hline
    rw [Nat.add_zero] at hseen hindex
    have hfind : findEol (before pos) buf pos =
        (((chomp CR a).length : Int), ((trailing CR a + 1 : Nat) : Int)) := by
      rw [findEol_line h0a hsuffix ha, hindex, hseen]
      congr 1
      omega
    obtain ⟨hl, hd, hnext, hpost⟩ := Piece.cuts hsuffix
    obtain ⟨fuel, pieces, hrun, hmap, hmove⟩ := ih h0p hpost (by
      intro pre b post' hsplit hpre hb
      have := hrest pre b post' hsplit hpre hb
      simp only at this
      rw [← Nat.add_assoc, ← hnext] at this
      exact this)
    refine ⟨fuel + 1, ⟨pos, (chomp CR a).length, trailing CR a + 1⟩ :: pieces, ?_, ?_, ?_⟩
    · rw [readLines_line fuel hfind, hrun, rest_cons ha]
      rfl
    · rw [splitOn_cons ha, List.dropLast_cons_of_ne_nil (List.splitOn_ne_nil EOL post),
        List.map_cons, List.map_cons, hmap, hl, hd]
    · intro p hp
      rcases List.mem_cons.mp hp with rfl | hp
      · rw [hnext]
        show pos < pos + (a.length + 1)
        omega
      · exact hmove p hp

/-- **Only then**: a loop that emits the lines of the buffer treated each of them right. -/
theorem lineOk_of_readLines {suffix : List UInt8} (h0 : 0 ∉ suffix)
    (hsuffix : buf.data.drop pos = suffix) {fuel : Nat} {pieces : List Piece} {rem : List UInt8}
    (hrun : readLines before buf fuel pos = some (pieces, rem))
    (hlines : pieces.map (Piece.line buf) = lines EOL CR suffix) :
    EachLine EOL (fun n => LineOk (before (pos + n))) suffix := by
  induction suffix using lineInduction EOL generalizing pos fuel pieces rem with
  | last a ha => exact eachLine_of_not_mem ha
  | line a post ha ih =>
    simp only [List.mem_append, List.mem_cons, not_or] at h0
    obtain ⟨h0a, -, h0p⟩ := h0
    rw [lines_cons CR ha] at hlines
    have hfind := @findEol_line (before pos) _ _ _ _ h0a hsuffix ha
    cases fuel with
    | zero => cases hrun
    | succ fuel =>
      rcases Int.lt_or_le (toInt32 (a.length - (crSeen (before pos) a post).toNat)) 0
        with hneg | hpos
      · rw [readLines_stop fuel (by rw [hfind]; exact hneg)] at hrun
        obtain rfl : [] = pieces := (Prod.mk.inj (Option.some.inj hrun)).1
        cases hlines
      · obtain ⟨i, hi⟩ := Int.eq_ofNat_of_zero_le hpos
        rw [hi] at hfind
        have hnat : findEol (before pos) buf pos =
            ((i : Int), ((1 + (crSeen (before pos) a post).toNat : Nat) : Int)) := by
          rw [hfind]
          simp
        rw [readLines_line fuel hnat, Option.map_eq_some_iff] at hrun
        obtain ⟨⟨pieces', rem'⟩, hrun', heq⟩ := hrun
        obtain ⟨rfl, rfl⟩ := Prod.mk.inj heq
        obtain ⟨hfirst, hlines'⟩ := List.cons.inj hlines
        -- the first line has the right length, so the index is the end of the line
        have hlen := congrArg List.length hfirst
        rw [Piece.line, hsuffix, List.length_take, List.length_append, List.length_cons] at hlen
        have hchomp := length_chomp CR a
        have hindex : i = (chomp CR a).length := by
          simp only at hlen
          omega
        have hok : LineOk (before pos) a post := (lineOk_iff h0a h0p).mpr (by rw [hi, hindex])
        have hseen := ((lineOk_iff_seen h0a h0p).mp hok).1
        obtain ⟨-, -, hnext, hpost⟩ := Piece.cuts hsuffix
        rw [hindex, hseen, Nat.add_comm 1] at hrun'
        refine (eachLine_cons_iff ha post).mpr ⟨hok, ?_⟩
        intro pre b post' hsplit hpre hb
        have := ih h0p hpost hrun' hlines' pre b post' hsplit hpre hb
        simp only at this
        rw [hnext, Nat.add_assoc] at this
        exact this

/-- **When reading lines is right**: exactly when every line fits an `int` and each line that is
not empty ends in a carriage return or has none behind it. An empty line has no last byte, so there
the byte in front of the data decides: it must not be a carriage return, and unless it is NUL no
carriage return may follow. -/
theorem cutsIntoLines_iff (before : Nat → UInt8) (buf : PyBytes) (hnul : 0 ∉ buf.data) :
    CutsIntoLines before buf ↔ EachLine EOL (fun n => LineOk (before n)) buf.data := by
  have hdrop : buf.data.drop 0 = buf.data := List.drop_zero
  constructor
  · rintro ⟨fuel, pieces, rem, hrun, hlines, -⟩
    have := lineOk_of_readLines hnul hdrop hrun hlines
    simpa only [Nat.zero_add] using this
  · intro hok
    obtain ⟨fuel, pieces, hrun, hmap, hmove⟩ :=
      readLines_cuts hnul hdrop (by simpa only [Nat.zero_add] using hok)
    have hline := congrArg (List.map Prod.fst) hmap
    have hboth := congrArg (List.flatMap fun p => p.1 ++ p.2) hmap
    simp only [List.map_map, List.flatMap_map, Function.comp_def] at hline hboth
    refine ⟨fuel, pieces, _, hrun, hline, rfl, hmove, fun p hp => ?_, ?_⟩
    · have hp' : (p.line buf, p.dropped buf) ∈
          (buf.data.splitOn EOL).dropLast.map (fun l => (chomp CR l, terminator EOL CR l)) :=
        hmap ▸ List.mem_map_of_mem hp
      obtain ⟨l, -, hl⟩ := List.mem_map.mp hp'
      rw [← (Prod.mk.inj hl).2, terminator]
      split
      · exact .inr rfl
      · exact .inl rfl
    · rw [hboth]
      exact lines_rejoin EOL CR buf.data

end Loop

/-- A line ended by CR LF, an empty line, and a rest. -/
def mixedLines : PyBytes := ⟨[97, CR, EOL, EOL, 98], by decide⟩

theorem mixedLines_cut : CutsIntoLines (fun _ => 255) mixedLines := by
  refine (cutsIntoLines_iff _ mixedLines (by decide)).mpr ?_
  have hlast : EachLine EOL (fun n => LineOk ((fun _ => 255) (2 + 1 + (0 + 1 + n)))) [98] :=
    eachLine_of_not_mem (by decide)
  refine (eachLine_cons_iff (a := [97, CR]) (by decide) [EOL, 98]).mpr ⟨by decide, ?_⟩
  exact (eachLine_cons_iff (a := []) (by decide) [98]).mpr ⟨by decide, hlast⟩

/-- A line, and a stray carriage return somewhere behind it. -/
def strayCR : PyBytes := ⟨[97, EOL, 98, CR], by decide⟩

/-- Whatever stands before the buffer. -/
theorem strayCR_not_cut : ¬∃ before, CutsIntoLines before strayCR := by
  intro ⟨before, fuel, pieces, rem, hrun, hlines, _⟩
  have hfind : findEol (before 0) strayCR (0 : Nat) = (((0 : Nat) : Int), ((2 : Nat) : Int)) := by
    rfl
  have hstop : readLines before strayCR 2 0 = some ([⟨0, 0, 2⟩], [98, CR]) := by
    rw [readLines_line 1 hfind]
    rfl
  obtain ⟨rfl, -⟩ := Prod.mk.inj (readLines_unique hrun hstop)
  exact absurd hlines (by decide)

end Ssh2Python
