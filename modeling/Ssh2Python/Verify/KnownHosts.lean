import Ssh2Python.KnownHosts
import Ssh2Python.Verify.KnownHostLine
import Mathlib.Tactic.IntervalCases

/-!
# Known hosts survive their file

`splitLine_words` and `keyPart_typed` say how a line is taken apart, `oldstyleHostline_single` and
`hashedHostline_encoded` what becomes of its parts. `Storable` is what an entry needs for its line
to say everything about it; then `readline_line` reads back the entry, up to the bits that a line
does not keep.
-/

namespace Ssh2Python

open Lib.CInt Lib.CString

/-! ## Scanning -/

/-- Bytes that no loop over a word stops at. -/
def IsWord (w : List UInt8) : Prop :=
  ∀ b ∈ w, b ≠ 0 ∧ b ≠ 10 ∧ isBlank b = false

/-- Bytes that stand in one line. -/
def IsText (t : List UInt8) : Prop :=
  ∀ b ∈ t, b ≠ 0 ∧ b ≠ 10

instance (w : List UInt8) : Decidable (IsWord w) :=
  List.decidableBAll (fun b => b ≠ 0 ∧ b ≠ 10 ∧ isBlank b = false) w

instance (t : List UInt8) : Decidable (IsText t) :=
  List.decidableBAll (fun b => b ≠ 0 ∧ b ≠ 10) t

section Scan

variable {p : UInt8 → Bool} {s w rest : List UInt8} {len : Nat}

/-- A loop that passes the first bytes stops behind them, where its length ends or the next byte
says so. -/
theorem length_takeWhile_take (hs : ∀ b ∈ s, p b = true) (hlen : s.length ≤ len)
    (hstop : s.length < len → ∀ b ∈ rest.head?, p b = false) :
    (((s ++ rest).take len).takeWhile p).length = s.length := by
  rw [List.take_append, List.take_of_length_le hlen, List.takeWhile_append_of_pos hs]
  have hnil : (rest.take (len - s.length)).takeWhile p = [] := by
    cases rest with
    | nil => simp
    | cons b rest =>
      by_cases h : s.length < len
      · obtain ⟨n, hn⟩ := Nat.exists_eq_add_of_lt h
        have hb : ¬ p b = true := by simp [hstop h b (by simp)]
        rw [show len - s.length = n + 1 by omega, List.take_succ_cons,
          List.takeWhile_cons_of_neg hb]
      · rw [show len - s.length = 0 by omega, List.take_zero, List.takeWhile_nil]
  rw [hnil, List.append_nil]

theorem IsWord.isText (hw : IsWord w) : IsText w :=
  fun b hb => ⟨(hw b hb).1, (hw b hb).2.1⟩

theorem IsText.zero_not_mem (h : IsText w) : 0 ∉ w :=
  fun h0 => (h 0 h0).1 rfl

theorem IsText.append {t : List UInt8} (hw : IsText w) (ht : IsText t) : IsText (w ++ t) := by
  intro b hb
  rcases List.mem_append.mp hb with hb | hb
  · exact hw b hb
  · exact ht b hb

theorem isText_blank : IsText [32] := by
  intro b hb
  rw [List.mem_singleton.mp hb]
  decide

theorem wordLen_append (hw : IsWord w) (hlen : w.length ≤ len)
    (hstop : w.length < len → ∀ b ∈ rest.head?, b = 0 ∨ isBlank b = true) :
    wordLen (w ++ rest) len = w.length := by
  refine length_takeWhile_take (fun b hb => ?_) hlen fun h b hb => ?_
  · have h := hw b hb
    simp [h.1, h.2.2]
  · rcases hstop h b hb with h | h <;> simp [h]

theorem wordLen_eq (hw : IsWord w) : wordLen (w ++ rest) w.length = w.length :=
  wordLen_append hw (Nat.le_refl _) fun h => absurd h (Nat.lt_irrefl _)

theorem blankLen_one (hlen : 0 < len) (hstop : 1 < len → ∀ b ∈ rest.head?, isBlank b = false) :
    blankLen (32 :: rest) len = 1 :=
  @length_takeWhile_take isBlank [32] rest len (by simp [isBlank]) hlen hstop

theorem blankLen_zero (hstop : 0 < len → ∀ b ∈ rest.head?, isBlank b = false) :
    blankLen rest len = 0 :=
  @length_takeWhile_take isBlank [] rest len nofun (Nat.zero_le _) hstop

end Scan

/-! ## Taking a line apart -/

/-- What a line that starts with a host and goes on with a key is split into. -/
theorem splitLine_words {w t mem : List UInt8} (hmem : w ++ 32 :: (t ++ [10, 0]) = mem)
    (hw : IsWord w) (hne : w ≠ []) (hhash : w.headD 0 ≠ 35) (ht : IsText t) (htne : t ≠ [])
    (hblank : isBlank (t.headD 0) = false) :
    splitLine mem (w.length + 1 + t.length + 1) = .parts mem w.length (t ++ [10, 0]) t.length := by
  obtain ⟨b, w', rfl⟩ := List.exists_cons_of_ne_nil hne
  obtain ⟨c, t', rfl⟩ := List.exists_cons_of_ne_nil htne
  obtain ⟨hb0, hb10, hbb⟩ := hw b List.mem_cons_self
  obtain ⟨hc0, -⟩ := ht c List.mem_cons_self
  generalize htail : (c :: t') ++ [10, 0] = tail at hmem
  have hhead : mem.headD 0 = b := hmem ▸ rfl
  have hkey : tail.headD 0 = c := htail ▸ rfl
  have hskip : blankLen mem ((b :: w').length + 1 + (c :: t').length + 1) = 0 := by
    refine blankLen_zero fun _ b' hb' => ?_
    obtain rfl : b = b' := by simpa [← hmem] using hb'
    exact hbb
  have hword : wordLen mem ((b :: w').length + 1 + (c :: t').length + 1) = (b :: w').length := by
    rw [← hmem]
    refine wordLen_append hw (by omega) fun _ b' hb' => .inr ?_
    obtain rfl : 32 = b' := by simpa using hb'
    decide
  have hlen : (b :: w').length + 1 + (c :: t').length + 1 - (b :: w').length =
      1 + (c :: t').length + 1 := by omega
  have hsep : blankLen (mem.drop (b :: w').length) (1 + (c :: t').length + 1) = 1 := by
    rw [← hmem, List.drop_left]
    refine blankLen_one (by omega) fun _ c' hc' => ?_
    obtain rfl : c = c' := by simpa [← htail] using hc'
    exact hblank
  have hdrop : mem.drop ((b :: w').length + 1) = tail := by
    rw [← hmem, ← List.drop_drop, List.drop_left, List.drop_one, List.tail_cons]
  have htext : ((tail.take ((c :: t').length + 1)).takeWhile fun b => b ≠ 0 ∧ b ≠ 10).length =
      (c :: t').length := by
    rw [← htail]
    refine length_takeWhile_take (fun b' hb' => ?_) (by omega) fun _ b' hb' => ?_
    · simp [ht b' hb']
    · obtain rfl : 10 = b' := by simpa using hb'
      decide
  have hend : tail.drop (c :: t').length = [10, 0] := by rw [← htail, List.drop_left]
  have hrest : 1 + (c :: t').length + 1 - 1 = (c :: t').length + 1 := by omega
  simp only [splitLine, hskip, List.drop_zero, Nat.sub_zero, hhead, hword, hlen, hsep, hdrop, hrest,
    hkey, htext, hend]
  simp [hb0, hb10, show b ≠ 35 from hhash, hc0]

theorem keyPart_digit {key : List UInt8} {keylen : Nat} (h : isDigit (key.headD 0) = true) :
    keyPart key keylen = ⟨none, key, keylen, 1, none, 0⟩ := by
  simp only [keyPart, h, if_true]

section KeyPart

variable {ty k rest : List UInt8} (hty : IsWord ty) (hne : ty ≠ [])
    (hdigit : isDigit (ty.headD 0) = false)
include hty hne hdigit

/-- Behind the key type, and the one blank that follows it, stands the key. -/
theorem keyPart_typed {n : Nat} (hn : n < 2 ^ 64) (hrest : ∀ b ∈ rest.head?, isBlank b = false) :
    keyPart (ty ++ 32 :: rest) (ty.length + 1 + n) =
      { keyTypeName := some ty
        key := rest
        keylen := wordLen rest n
        keyType := keyTypeOf ty
        comment :=
          if n - wordLen rest n = 0 then none
          else some (rest.drop (wordLen rest n +
            blankLen (rest.drop (wordLen rest n)) (n - wordLen rest n)))
        commentlen := n - wordLen rest n -
          blankLen (rest.drop (wordLen rest n)) (n - wordLen rest n) } := by
  have hhead : (ty ++ 32 :: rest).headD 0 = ty.headD 0 := by
    obtain ⟨b, ty', rfl⟩ := List.exists_cons_of_ne_nil hne
    rfl
  have hword : wordLen (ty ++ 32 :: rest) (ty.length + 1 + n) = ty.length := by
    refine wordLen_append hty (by omega) fun _ b hb => .inr ?_
    obtain rfl : 32 = b := by simpa using hb
    decide
  have hskip : ((32 :: rest).takeWhile isBlank).length = 1 := by
    have hnil : rest.takeWhile isBlank = [] := by
      cases rest with
      | nil => rfl
      | cons b rest => exact List.takeWhile_cons_of_neg (by simp [hrest b rfl])
    rw [List.takeWhile_cons_of_pos (by decide), hnil]
    rfl
  have hlen : toSize (((ty.length + 1 + n : Nat) : Int) - (ty.length : Nat) - (1 : Nat)) = n := by
    rw [toSize_eq (by omega) (by omega)]
    omega
  have hdrop : (ty ++ 32 :: rest).drop (ty.length + 1) = rest := by
    rw [← List.drop_drop, List.drop_left, List.drop_one, List.tail_cons]
  simp only [keyPart, hhead, hdigit, hword, List.drop_left, hskip, hlen, hdrop, List.take_left]
  rfl

variable (hk : IsWord k) (hkne : k ≠ [])
include hk hkne

theorem keyPart_plain (hlen : k.length < 2 ^ 64) :
    keyPart (ty ++ 32 :: (k ++ rest)) (ty.length + 1 + k.length) =
      ⟨some ty, k ++ rest, k.length, keyTypeOf ty, none, 0⟩ := by
  have hhead : ∀ b ∈ (k ++ rest).head?, isBlank b = false := by
    intro b hb
    obtain ⟨c, k', rfl⟩ := List.exists_cons_of_ne_nil hkne
    obtain rfl : c = b := by simpa using hb
    exact (hk c List.mem_cons_self).2.2
  rw [keyPart_typed hty hne hdigit hlen hhead, wordLen_eq hk]
  simp

theorem keyPart_comment {c : List UInt8} (hc : isBlank (c.headD 0) = false)
    (hlen : k.length + 1 + c.length < 2 ^ 64) :
    keyPart (ty ++ 32 :: (k ++ 32 :: (c ++ rest))) (ty.length + 1 + (k.length + 1 + c.length)) =
      ⟨some ty, k ++ 32 :: (c ++ rest), k.length, keyTypeOf ty, some (c ++ rest), c.length⟩ := by
  have hhead : ∀ b ∈ (k ++ 32 :: (c ++ rest)).head?, isBlank b = false := by
    intro b hb
    obtain ⟨b', k', rfl⟩ := List.exists_cons_of_ne_nil hkne
    obtain rfl : b' = b := by simpa using hb
    exact (hk b' List.mem_cons_self).2.2
  have hword : wordLen (k ++ 32 :: (c ++ rest)) (k.length + 1 + c.length) = k.length := by
    refine wordLen_append hk (by omega) fun _ b hb => .inr ?_
    obtain rfl : 32 = b := by simpa using hb
    decide
  have hn : k.length + 1 + c.length - k.length = 1 + c.length := by omega
  have hblank : blankLen (32 :: (c ++ rest)) (1 + c.length) = 1 := by
    refine blankLen_one (by omega) fun h b hb => ?_
    cases c with
    | nil => simp at h
    | cons b' c =>
      obtain rfl : b' = b := by simpa using hb
      exact hc
  have hdrop : (k ++ 32 :: (c ++ rest)).drop (k.length + 1) = c ++ rest := by
    rw [← List.drop_drop, List.drop_left, List.drop_one, List.tail_cons]
  rw [keyPart_typed hty hne hdigit hlen hhead, hword, hn, List.drop_left, hblank, hdrop]
  simp

end KeyPart

/-! ## Adding what was read -/

theorem cstring_terminated {s : List UInt8} (h : 0 ∉ s) : cstring (s ++ [0]) = s :=
  cstring_terminated_eq_iff.mpr h

/-- The masks of an entry that comes from a line. -/
theorem typemask_line {k : Nat} (hk : k < 16) {h : Typemask}
    (hh : h = Typemask.plain ∨ h = Typemask.sha1) :
    (Typemask.key k ||| h ||| Typemask.keyencBase64).keyMask = k ∧
      (Typemask.key k ||| h ||| Typemask.keyencBase64).hostType = h ∧
      (Typemask.key k ||| h ||| Typemask.keyencBase64).isBase64 = true := by
  rcases hh with rfl | rfl <;> interval_cases k <;> exact ⟨rfl, rfl, rfl⟩

/-- The entry that a key part and a name make. -/
def KeyPart.entry (k : KeyPart) (name salt : List UInt8) (hostType : Typemask) : HostEntry where
  name := name
  salt := salt
  typemask := Typemask.key k.keyType ||| hostType ||| Typemask.keyencBase64
  key := k.key.take (if k.keylen = 0 then strlen k.key else k.keylen)
  keyTypeName := if k.keyType = keyUnknown then k.keyTypeName else none
  comment := k.comment.map (·.take k.commentlen)

/-- A key part that can be added. -/
structure KeyPart.Addable (k : KeyPart) : Prop where
  keyType_ne : k.keyType ≠ 0
  keyType_lt : k.keyType < 16
  commentlen_ne : k.commentlen + 1 ≠ 2 ^ 64

section Add

variable {k : KeyPart} (hk : k.Addable) (hosts : List HostEntry)
include hk

theorem knownhostAdd_of_names {host salt : List UInt8} {hostType : Typemask}
    {names : List UInt8 × List UInt8}
    (htype : hostType = Typemask.plain ∨ hostType = Typemask.sha1)
    (hnames : (k.addArgs host salt hostType).names = pure names) :
    knownhostAdd hosts (k.addArgs host salt hostType) =
      some ⟨0, hosts ++ [k.entry names.1 names.2 hostType]⟩ := by
  obtain ⟨hmask, -, hbase64⟩ := typemask_line hk.keyType_lt htype
  have hkey : (k.addArgs host salt hostType).storedKey =
      pure (k.key.take (if k.keylen = 0 then strlen k.key else k.keylen)) := by
    have henc : (k.addArgs host salt hostType).typemask.isBase64 = true := hbase64
    rw [AddArgs.storedKey, if_pos henc]
    rfl
  have hcomment : (k.addArgs host salt hostType).storedComment =
      pure (k.comment.map (·.take k.commentlen)) := by
    cases hc : k.comment with
    | none => simp only [AddArgs.storedComment, KeyPart.addArgs, hc, Option.map_none]
    | some c =>
      simp only [AddArgs.storedComment, KeyPart.addArgs, hc, Option.map_some, hk.commentlen_ne,
        if_false]
  have hentry : (k.addArgs host salt hostType).entry =
      pure (k.entry names.1 names.2 hostType) := by
    simp only [AddArgs.entry, hnames, hkey, hcomment, pure_bind]
    simp only [KeyPart.addArgs, hmask, hk.keyType_ne, if_false, KeyPart.entry]
  rw [knownhostAdd, hentry, ExceptT.run_pure]
  rfl

theorem knownhostAdd_plain (host : List UInt8) :
    knownhostAdd hosts (k.addArgs host [] Typemask.plain) =
      some ⟨0, hosts ++ [k.entry (cstring host) [] Typemask.plain]⟩ := by
  have htype := (typemask_line hk.keyType_lt (.inl rfl)).2.1
  have hnames : (k.addArgs host [] Typemask.plain).names = pure (cstring host, []) := by
    simp only [AddArgs.names, KeyPart.addArgs, htype, true_or, if_true]
  exact knownhostAdd_of_names hk hosts (.inl rfl) hnames

/-- Every name of a list becomes an entry. -/
theorem addNames_plain {names : List (List UInt8)}
    (h : ∀ name ∈ names, 0 ∉ name ∧ name.length < 255) :
    addNames k hosts names =
      some ⟨0, hosts ++ names.map fun name => k.entry name [] Typemask.plain⟩ := by
  induction names generalizing hosts with
  | nil => simp [addNames]
  | cons name names ih =>
    obtain ⟨hnul, hlen⟩ := h name List.mem_cons_self
    rw [addNames, if_neg (Nat.not_le.mpr hlen), knownhostAdd_plain hk hosts,
      cstring_terminated hnul]
    simp [ih (hosts ++ [k.entry name [] Typemask.plain])
      fun name' hname' => h name' (List.mem_cons_of_mem name hname')]

end Add

/-! ## Names -/

section Names

variable {m rest cur : List UInt8} (hne : m ≠ []) (hcomma : 44 ∉ m)
include hne hcomma

/-- The last name of a list, read from its end. -/
theorem oldstyleNames_cons : oldstyleNames (m ++ 44 :: rest) cur =
    (m.reverse ++ cur) :: oldstyleNames rest [] := by
  induction m generalizing cur with
  | nil => exact absurd rfl hne
  | cons b m ih =>
    cases m with
    | nil => simp [oldstyleNames]
    | cons c m =>
      simp only [List.mem_cons, not_or] at hcomma
      have hc : c ≠ 44 := Ne.symm hcomma.2.1
      simp only [List.cons_append, oldstyleNames, if_neg hc]
      rw [← List.cons_append, ih (List.cons_ne_nil c m) (by simpa using hcomma.2)]
      simp

theorem oldstyleNames_single : oldstyleNames m cur = [m.reverse ++ cur] := by
  induction m generalizing cur with
  | nil => exact absurd rfl hne
  | cons b m ih =>
    cases m with
    | nil => simp [oldstyleNames]
    | cons c m =>
      simp only [List.mem_cons, not_or] at hcomma
      have hc : c ≠ 44 := Ne.symm hcomma.2.1
      simp only [oldstyleNames, if_neg hc]
      rw [ih (List.cons_ne_nil c m) (by simpa using hcomma.2)]
      simp

end Names

section Lists

variable {names : List (List UInt8)} (h : ∀ name ∈ names, name ≠ [] ∧ 44 ∉ name)
include h

theorem oldstyleNames_append {rest : List UInt8} (hne : names ≠ []) :
    oldstyleNames ((List.intercalate [44] names).reverse ++ 44 :: rest) [] =
      names.reverse ++ oldstyleNames rest [] := by
  induction names generalizing rest with
  | nil => exact absurd rfl hne
  | cons name names ih =>
    obtain ⟨hname, hcomma⟩ := h name List.mem_cons_self
    have hrev : name.reverse ≠ [] := by simpa using hname
    have hrevc : 44 ∉ name.reverse := by simpa using hcomma
    by_cases hnil : names = []
    · rw [hnil, List.intercalate_singleton, oldstyleNames_cons hrev hrevc]
      simp
    · have hsplit : (List.intercalate [44] (name :: names)).reverse ++ 44 :: rest =
          (List.intercalate [44] names).reverse ++ 44 :: (name.reverse ++ 44 :: rest) := by
        rw [List.intercalate_cons_of_ne_nil hnil]
        simp
      rw [hsplit, ih (fun name' hname' => h name' (List.mem_cons_of_mem name hname')) hnil,
        oldstyleNames_cons hrev hrevc]
      simp

/-- **A list of names is taken apart from its end**: every name comes out, the last one first. -/
theorem oldstyleNames_intercalate :
    oldstyleNames (List.intercalate [44] names).reverse [] = names.reverse := by
  cases names with
  | nil => rfl
  | cons name names =>
    obtain ⟨hname, hcomma⟩ := h name List.mem_cons_self
    have hrev : name.reverse ≠ [] := by simpa using hname
    have hrevc : 44 ∉ name.reverse := by simpa using hcomma
    by_cases hnil : names = []
    · rw [hnil, List.intercalate_singleton, oldstyleNames_single hrev hrevc]
      simp
    · have hsplit : (List.intercalate [44] (name :: names)).reverse =
          (List.intercalate [44] names).reverse ++ 44 :: name.reverse := by
        rw [List.intercalate_cons_of_ne_nil hnil]
        simp
      rw [hsplit,
        oldstyleNames_append (fun name' hname' => h name' (List.mem_cons_of_mem name hname'))
        hnil, oldstyleNames_single hrev hrevc]
      simp

end Lists

/-- A list of names adds an entry for each of them. -/
theorem oldstyleHostline_names {k : KeyPart} (hk : k.Addable) (hosts : List HostEntry)
    {names : List (List UInt8)} {rest : List UInt8} (hne : names ≠ [])
    (h : ∀ name ∈ names, name ≠ [] ∧ 44 ∉ name ∧ 0 ∉ name ∧ name.length < 255) :
    oldstyleHostline hosts (List.intercalate [44] names ++ rest)
      (List.intercalate [44] names).length k =
      some ⟨0, hosts ++ names.reverse.map fun name => k.entry name [] Typemask.plain⟩ := by
  have hpos : ¬ (List.intercalate [44] names).length < 1 := by
    obtain ⟨name, names, rfl⟩ := List.exists_cons_of_ne_nil hne
    obtain ⟨b, name', hname⟩ := List.exists_cons_of_ne_nil (h name List.mem_cons_self).1
    rw [hname, List.intercalate_cons_cons_left, List.length_cons]
    omega
  have hnames := oldstyleNames_intercalate fun name hname => ⟨(h name hname).1, (h name hname).2.1⟩
  rw [oldstyleHostline, if_neg hpos, List.take_left, hnames, addNames_plain hk hosts]
  intro name hname
  exact (h name (List.mem_reverse.mp hname)).2.2

/-! ## Hashed names -/

/-- The length of an encoding is enough for the buffer of its bytes. -/
theorem base64Decode_encode (bs : List UInt8) :
    base64Decode (Lib.Base64.encode base64 bs) = pure bs := by
  have htop := @Lib.Base64.top_run base64 (Lib.Base64.encode base64 bs)
  rw [Lib.Base64.filterMap_encode] at htop
  have hlen := @Lib.Base64.length_encode base64 bs
  have hvalues := Lib.Base64.length_values_add bs
  have hroom : ¬ base64DecodeRoom (Lib.Base64.encode base64 bs) <
      (Lib.Base64.run base64 (Lib.Base64.encode base64 bs)).top := by
    rw [htop, base64DecodeRoom, hlen]
    omega
  rw [base64Decode, if_neg hroom, Lib.Base64.decode_encode]

set_option maxRecDepth 4000 in
theorem table64_word : ∀ n < 64, table64.getD n 0 ≠ 0 ∧ table64.getD n 0 ≠ 10 ∧
    isBlank (table64.getD n 0) = false ∧ table64.getD n 0 ≠ 124 := by
  decide

/-- An encoding is a word without a separator in it. -/
theorem encode_word {bs : List UInt8} {b : UInt8} (hb : b ∈ Lib.Base64.encode base64 bs) :
    b ≠ 0 ∧ b ≠ 10 ∧ isBlank b = false ∧ b ≠ 124 := by
  rcases Lib.Base64.mem_encode hb with ⟨v, hv, rfl⟩ | rfl
  · exact table64_word v.toNat (UInt8.lt_iff_toNat_lt.mp hv)
  · decide

/-- What is left of the length of a host behind the marker, the salt and its separator. -/
theorem toSize_hash {a b : Nat} (ha : a < 31) (hb : b < 255) :
    toSize ((toSize (((3 + a + 1 + b : Nat) : Int) - 3) : Nat) - ((a : Nat) + 1)) = b := by
  have hmarker : toSize (((3 + a + 1 + b : Nat) : Int) - 3) = a + 1 + b := by
    rw [toSize_eq (by omega) (by omega)]
    omega
  rw [hmarker, toSize_eq (by omega) (by omega)]
  omega

/-- A hashed name and its salt come out of their encodings. -/
theorem hashedHostline_encoded {k : KeyPart} (hk : k.Addable) (hosts : List HostEntry)
    {name salt rest : List UInt8} (hname : name.length < 190) (hsalt : salt.length < 22) :
    hashedHostline hosts ((HostName.sha1 (Lib.Base64.encode base64 name)
        (Lib.Base64.encode base64 salt)).printed ++ rest)
      (HostName.sha1 (Lib.Base64.encode base64 name) (Lib.Base64.encode base64 salt)).printed.length
      k = some ⟨0, hosts ++ [k.entry name salt Typemask.sha1]⟩ := by
  have hname64 : (Lib.Base64.encode base64 name).length < 255 := by
    rw [Lib.Base64.length_encode]
    omega
  have hsalt64 : (Lib.Base64.encode base64 salt).length < 31 := by
    rw [Lib.Base64.length_encode]
    omega
  have hnul {bs : List UInt8} : 0 ∉ Lib.Base64.encode base64 bs := fun h => (encode_word h).1 rfl
  have hmem : ((HostName.sha1 (Lib.Base64.encode base64 name)
      (Lib.Base64.encode base64 salt)).printed ++ rest).drop 3 =
        Lib.Base64.encode base64 salt ++ 124 :: (Lib.Base64.encode base64 name ++ rest) := by
    simp [HostName.printed, asciiBytes]
  have hlen : (HostName.sha1 (Lib.Base64.encode base64 name)
      (Lib.Base64.encode base64 salt)).printed.length =
        3 + (Lib.Base64.encode base64 salt).length + 1 +
        (Lib.Base64.encode base64 name).length := by
    simp [HostName.printed, asciiBytes]
    omega
  have hscan : ((Lib.Base64.encode base64 salt ++ 124 ::
      (Lib.Base64.encode base64 name ++ rest)).takeWhile
      fun b => b ≠ 0 ∧ b ≠ 124).length = (Lib.Base64.encode base64 salt).length := by
    rw [List.takeWhile_append_of_pos, List.takeWhile_cons_of_neg (by decide), List.append_nil]
    intro b hb
    simp [encode_word hb]
  have hsize := toSize_hash hsalt64 hname64
  have hnames : (k.addArgs (Lib.Base64.encode base64 name ++ [0])
      (Lib.Base64.encode base64 salt ++ [0]) Typemask.sha1).names = pure (name, salt) := by
    have htype := (typemask_line hk.keyType_lt (.inr rfl)).2.1
    simp only [AddArgs.names, KeyPart.addArgs, htype, cstring_terminated hnul, base64Decode_encode,
      pure_bind]
    rfl
  have hdrop : (Lib.Base64.encode base64 salt ++ 124 ::
      (Lib.Base64.encode base64 name ++ rest)).drop
      ((Lib.Base64.encode base64 salt).length + 1) = Lib.Base64.encode base64 name ++ rest := by
    rw [← List.drop_drop, List.drop_left, List.drop_one, List.tail_cons]
  simp only [hashedHostline, hmem, hlen, hscan, List.drop_left, List.headD_cons, hsize, hdrop,
    List.take_left, if_neg (Nat.not_le.mpr hname64), if_neg (Nat.not_le.mpr hsalt64), if_true,
    knownhostAdd_of_names hk hosts (.inr rfl) hnames]

/-! ## Entries that a line can hold -/

/-- The name of an entry that a line can start with. -/
inductive HostEntry.StorableName (e : HostEntry) : Prop
  | plain (type : e.typemask.hostType = Typemask.plain) (salt : e.salt = []) (word : IsWord e.name)
      (long : 2 < e.name.length) (short : e.name.length < 255) (comma : 44 ∉ e.name)
      (comment : e.name.headD 0 ≠ 35) (marker : e.name.take 3 ≠ asciiBytes "|1|")
  | sha1 (type : e.typemask.hostType = Typemask.sha1) (name : e.name ≠ []) (salt : e.salt ≠ [])
      (nameShort : e.name.length < 190) (saltShort : e.salt.length < 22)

/-- The key type in the line of an entry. -/
def HostEntry.keyTypeText (e : HostEntry) : List UInt8 :=
  (e.node []).keyType.getD []

/-- A key that a line can end with: one of the old style, which is all that is left of the line, or
one behind its type, perhaps with a comment. -/
inductive HostEntry.StorableKey (e : HostEntry) : Prop
  | rsa1 (type : e.typemask.keyMask = 1) (typeName : e.keyTypeName = none)
      (digit : isDigit (e.key.headD 0) = true) (text : IsText e.key) (comment : e.comment = none)
  | typed (type : (e.node []).keyType = some e.keyTypeText)
      (same : keyTypeOf e.keyTypeText = e.typemask.keyMask) (typeWord : IsWord e.keyTypeText)
      (typeNe : e.keyTypeText ≠ []) (typeDigit : isDigit (e.keyTypeText.headD 0) = false)
      (typeName : e.typemask.keyMask ≠ keyUnknown → e.keyTypeName = none)
      (word : IsWord e.key) (ne : e.key ≠ [])
      (comment : ∀ c ∈ e.comment, IsText c ∧ isBlank (c.headD 0) = false)

/-- The part of a line behind the host. -/
def HostEntry.keyText (e : HostEntry) : List UInt8 :=
  (if e.keyTypeText = [] then [] else printed e.keyTypeText ++ [32]) ++ printed e.key ++
    (match e.comment with
      | some comment => 32 :: printed comment
      | none => [])

/-- An entry that a line of the given size can hold, with all that is in it. -/
structure HostEntry.Storable (e : HostEntry) (room : Nat) : Prop where
  name : e.StorableName
  key : e.StorableKey
  long : 20 ≤ e.keyText.length
  fits : (e.node []).requiredSize e.keyTypeText ≤ room

/-- The key of an entry under a name that was read: it is in base64, and other bits of the mask are
gone. -/
def HostEntry.readAs (e : HostEntry) (name salt : List UInt8) (hostType : Typemask) : HostEntry :=
  { e with
    name := name
    salt := salt
    typemask := Typemask.key e.typemask.keyMask ||| hostType ||| Typemask.keyencBase64 }

/-- An entry as it is read back. -/
def HostEntry.reread (e : HostEntry) : HostEntry :=
  e.readAs e.name e.salt e.typemask.hostType

variable {e : HostEntry} {room : Nat}

theorem HostEntry.line_eq (e : HostEntry) : (e.node []).line e.keyTypeText =
    (e.node []).name.printed ++ 32 :: (e.keyText ++ [10]) := by
  have hsep : asciiBytes " " = [32] ∧ asciiBytes "\n" = [10] := by decide
  rw [KnownHostNode.line, keyText, hsep.1, hsep.2]
  cases hcomment : e.comment <;>
    simp only [node, hcomment, List.append_assoc, List.cons_append, List.nil_append,
      List.append_nil]

theorem printed_eq {mem : List UInt8} (h : 0 ∉ mem) : printed mem = mem :=
  cstring_terminated h

/-! ## Reading a line back -/

/-- The bytes behind a name do not matter, as no name that is hashed is empty. -/
theorem HostEntry.StorableName.node_eq (h : e.StorableName) (behind : List UInt8) :
    e.node behind = e.node [] := by
  cases h with
  | plain type =>
    have hne : ¬ Typemask.plain = Typemask.sha1 := by decide
    simp only [node, type, if_neg hne]
  | sha1 type name salt =>
    have hname : e.name.length ≠ 0 := by simpa using name
    have hsalt : e.salt.length ≠ 0 := by simpa using salt
    simp only [node, type, if_true, base64Encode, if_neg hname, if_neg hsalt, List.take_left]

theorem HostEntry.StorableName.name_eq (h : e.StorableName) :
    (e.node []).name.printed = e.name ∧ e.typemask.hostType = Typemask.plain ∨
      (e.node []).name = .sha1 (Lib.Base64.encode base64 e.name) (Lib.Base64.encode base64 e.salt) ∧
        e.typemask.hostType = Typemask.sha1 := by
  cases h with
  | plain type salt word =>
    have hne : ¬ Typemask.plain = Typemask.sha1 := by decide
    refine .inl ⟨?_, type⟩
    simp only [node, type, if_neg hne, HostName.printed, printed_eq word.isText.zero_not_mem]
  | sha1 type name salt =>
    have hname : e.name.length ≠ 0 := by simpa using name
    have hsalt : e.salt.length ≠ 0 := by simpa using salt
    refine .inr ⟨?_, type⟩
    simp only [node, type, if_true, base64Encode, if_neg hname, if_neg hsalt, List.append_nil,
      List.take_length]

theorem isWord_sha1 (name salt : List UInt8) :
    IsWord (HostName.sha1 (Lib.Base64.encode base64 name)
      (Lib.Base64.encode base64 salt)).printed := by
  have hmarker : IsWord (asciiBytes "|1|" ++ asciiBytes "|") := by decide
  intro b hb
  simp only [HostName.printed, List.append_assoc] at hb
  rcases List.mem_append.mp hb with hb | hb
  · exact hmarker b (List.mem_append_left _ hb)
  rcases List.mem_append.mp hb with hb | hb
  · exact ⟨(encode_word hb).1, (encode_word hb).2.1, (encode_word hb).2.2.1⟩
  rcases List.mem_append.mp hb with hb | hb
  · exact hmarker b (List.mem_append_right _ hb)
  · exact ⟨(encode_word hb).1, (encode_word hb).2.1, (encode_word hb).2.2.1⟩

/-- The host of the line is a word, and no comment starts with it. -/
theorem HostEntry.StorableName.word (h : e.StorableName) : IsWord (e.node []).name.printed ∧
    (e.node []).name.printed ≠ [] ∧ (e.node []).name.printed.headD 0 ≠ 35 := by
  rcases h.name_eq with ⟨hname, htype⟩ | ⟨hname, htype⟩
  · rw [hname]
    cases h with
    | plain _ _ word long _ _ comment =>
      exact ⟨word, fun hnil => by simp [hnil] at long, comment⟩
    | sha1 type => exact absurd (htype.symm.trans type) (by decide)
  · rw [hname]
    exact ⟨isWord_sha1 e.name e.salt, List.cons_ne_nil _ _, by simp [HostName.printed, asciiBytes]⟩

/-- A line that starts with the name of an entry adds an entry of that name. -/
theorem hostline_storable (h : e.StorableName) (hosts : List HostEntry) {rest key : List UInt8}
    {keylen : Nat} (hlen : 20 ≤ keylen) (hk : (keyPart key keylen).Addable) :
    hostline hosts ((e.node []).name.printed ++ rest) (e.node []).name.printed.length key keylen =
      some ⟨0, hosts ++ [(keyPart key keylen).entry e.name e.salt e.typemask.hostType]⟩ := by
  rw [hostline, if_neg (Nat.not_lt.mpr hlen)]
  rcases h.name_eq with ⟨hname, htype⟩ | ⟨hname, htype⟩
  · rw [hname, htype]
    cases h with
    | plain _ salt word long short comma _ marker =>
      have htake : (e.name ++ rest).take 3 = e.name.take 3 := List.take_append_of_le_length long
      have hne : e.name ≠ [] := fun hnil => by simp [hnil] at long
      have hnames : ∀ name ∈ [e.name], name ≠ [] ∧ 44 ∉ name ∧ 0 ∉ name ∧ name.length < 255 := by
        simpa using ⟨hne, comma, word.isText.zero_not_mem, short⟩
      have hadd := @oldstyleHostline_names _ hk hosts _ rest (List.cons_ne_nil e.name []) hnames
      rw [List.intercalate_singleton] at hadd
      rw [if_pos ⟨long, htake ▸ marker⟩, hadd, salt]
      rfl
    | sha1 type => exact absurd (htype.symm.trans type) (by decide)
  · rw [hname, htype]
    cases h with
    | plain type => exact absurd (htype.symm.trans type) (by decide)
    | sha1 _ _ _ nameShort saltShort =>
      rw [if_neg, hashedHostline_encoded hk hosts nameShort saltShort]
      rintro ⟨-, hmarker⟩
      exact hmarker (by simp [HostName.printed, asciiBytes])

theorem keyTypeOf_bounds (name : List UInt8) : keyTypeOf name ≠ 0 ∧ keyTypeOf name < 16 := by
  have hknown : ∀ t ∈ knownKeyTypes, t.2 ≠ 0 ∧ t.2 < 16 := by decide
  cases hfind : knownKeyTypes.find? fun t => name.isPrefixOf t.1 with
  | none => simp [keyTypeOf, hfind, keyUnknown]
  | some t =>
    simp only [keyTypeOf, hfind]
    exact hknown t (List.mem_of_find?_eq_some hfind)

theorem isBlank_of_isDigit {b : UInt8} (h : isDigit b = true) : isBlank b = false := by
  simp only [isDigit, decide_eq_true_eq] at h
  have hne : b ≠ 32 ∧ b ≠ 9 := by
    rw [UInt8.le_iff_toNat_le] at h
    constructor <;> rintro rfl <;> exact absurd h.1 (by decide)
  simp [isBlank, hne]

/-- What is read from the key part of a line. -/
structure HostEntry.KeyRead (e : HostEntry) (k : KeyPart) : Prop where
  addable : k.Addable
  entry : k.entry = e.readAs
  text : IsText e.keyText
  notBlank : isBlank (e.keyText.headD 0) = false

/-- A key of the old style takes all of the line. -/
theorem HostEntry.keyRead_rsa1 (htype : e.typemask.keyMask = 1) (hname : e.keyTypeName = none)
    (hdigit : isDigit (e.key.headD 0) = true) (htext : IsText e.key) (hcomment : e.comment = none) :
    e.KeyRead (keyPart (e.keyText ++ [10, 0]) e.keyText.length) := by
  have htypeText : e.keyTypeText = [] := by
    simp only [keyTypeText, KnownHostNode.keyType, node, htype, Option.getD_some]
  have hkeyText : e.keyText = e.key := by
    simp only [keyText, htypeText, hcomment, printed_eq htext.zero_not_mem, if_true,
      List.nil_append, List.append_nil]
  have hne : e.key ≠ [] := fun hnil => by simp [hnil, isDigit] at hdigit
  have hhead : (e.key ++ [10, 0]).headD 0 = e.key.headD 0 := by
    obtain ⟨b, key, hkey⟩ := List.exists_cons_of_ne_nil hne
    rw [hkey]
    rfl
  have hunknown : (1 : Nat) ≠ keyUnknown := by decide
  rw [hkeyText, keyPart_digit (hhead ▸ hdigit)]
  refine ⟨⟨Nat.one_ne_zero, by simp, by simp⟩, ?_, hkeyText ▸ htext,
    hkeyText ▸ isBlank_of_isDigit hdigit⟩
  have hkeyLen : e.key.length ≠ 0 := by simpa using hne
  funext name salt hostType
  simp only [KeyPart.entry, readAs, htype, if_neg hunknown, if_neg hkeyLen, List.take_left,
    Option.map_none, hname, hcomment]

/-- A key behind its type leaves the comment. -/
theorem HostEntry.keyRead_typed (htype : (e.node []).keyType = some e.keyTypeText)
    (hsame : keyTypeOf e.keyTypeText = e.typemask.keyMask) (hword : IsWord e.keyTypeText)
    (hne : e.keyTypeText ≠ []) (hdigit : isDigit (e.keyTypeText.headD 0) = false)
    (hname : e.typemask.keyMask ≠ keyUnknown → e.keyTypeName = none) (hkey : IsWord e.key)
    (hkeyNe : e.key ≠ []) (hcomment : ∀ c ∈ e.comment, IsText c ∧ isBlank (c.headD 0) = false)
    (hlen : e.keyText.length < 2 ^ 64) :
    e.KeyRead (keyPart (e.keyText ++ [10, 0]) e.keyText.length) := by
  have hnames : (if e.typemask.keyMask = keyUnknown then some e.keyTypeText else none) =
      e.keyTypeName := by
    split
    · next hunknown =>
      rw [← htype]
      simp only [KnownHostNode.keyType, node, hunknown, keyUnknown]
    · next hunknown => rw [hname hunknown]
  have hstart : IsText (e.keyTypeText ++ 32 :: e.key) :=
    hword.isText.append (isText_blank.append hkey.isText)
  have hblank : ∀ tail, isBlank ((e.keyTypeText ++ tail).headD 0) = false := by
    intro tail
    obtain ⟨b, ty, hty⟩ := List.exists_cons_of_ne_nil hne
    have hb := (hword b (hty ▸ List.mem_cons_self)).2.2
    rw [hty]
    exact hb
  have hbounds := keyTypeOf_bounds e.keyTypeText
  have hkeyLen : e.key.length ≠ 0 := by simpa using hkeyNe
  cases hc : e.comment with
  | none =>
    have hkeyText : e.keyText = e.keyTypeText ++ 32 :: e.key := by
      simp [keyText, hc, hne, printed_eq hword.isText.zero_not_mem,
        printed_eq hkey.isText.zero_not_mem]
    have hmem : e.keyTypeText ++ 32 :: e.key ++ [10, 0] =
        e.keyTypeText ++ 32 :: (e.key ++ [10, 0]) := by
      simp
    have hlength : e.keyText.length = e.keyTypeText.length + 1 + e.key.length := by
      rw [hkeyText, List.length_append, List.length_cons]
      omega
    rw [hlength, hkeyText, hmem, keyPart_plain hword hne hdigit hkey hkeyNe (by omega)]
    refine ⟨⟨hbounds.1, hbounds.2, by simp⟩, ?_, hkeyText ▸ hstart,
      hkeyText ▸ hblank _⟩
    funext name salt hostType
    simp only [KeyPart.entry, readAs, if_neg hkeyLen, List.take_left, hsame, hnames,
      Option.map_none, hc]
  | some c =>
    obtain ⟨hctext, hcblank⟩ := hcomment c hc
    have hkeyText : e.keyText = e.keyTypeText ++ 32 :: (e.key ++ 32 :: c) := by
      simp [keyText, hc, hne, printed_eq hword.isText.zero_not_mem,
        printed_eq hkey.isText.zero_not_mem, printed_eq hctext.zero_not_mem]
    have hmem : e.keyTypeText ++ 32 :: (e.key ++ 32 :: c) ++ [10, 0] =
        e.keyTypeText ++ 32 :: (e.key ++ 32 :: (c ++ [10, 0])) := by
      simp
    have hlength : e.keyText.length = e.keyTypeText.length + 1 + (e.key.length + 1 + c.length) := by
      rw [hkeyText, List.length_append, List.length_cons, List.length_append, List.length_cons]
      omega
    have htext : IsText e.keyText := by
      rw [hkeyText]
      exact hword.isText.append
        (isText_blank.append (hkey.isText.append (isText_blank.append hctext)))
    rw [hlength, hkeyText, hmem, keyPart_comment hword hne hdigit hkey hkeyNe hcblank (by omega)]
    refine ⟨⟨hbounds.1, hbounds.2, ?_⟩, ?_, htext, hkeyText ▸ hblank _⟩
    · dsimp only
      omega
    · funext name salt hostType
      simp only [KeyPart.entry, readAs, if_neg hkeyLen, List.take_left, hsame, hnames,
        Option.map_some, hc]

theorem HostEntry.StorableKey.read (h : e.StorableKey) (hlen : e.keyText.length < 2 ^ 64) :
    e.KeyRead (keyPart (e.keyText ++ [10, 0]) e.keyText.length) := by
  cases h with
  | rsa1 type typeName digit text comment =>
    exact e.keyRead_rsa1 type typeName digit text comment
  | typed type same typeWord typeNe typeDigit typeName word ne comment =>
    exact e.keyRead_typed type same typeWord typeNe typeDigit typeName word ne comment hlen

/-- What a line says: the room that it takes, and the line itself. -/
theorem HostEntry.Storable.length_line (h : e.Storable room) :
    ((e.node []).line e.keyTypeText ++ [0]).length = (e.node []).requiredSize e.keyTypeText := by
  refine (e.node []).length_line ?_ ?_
  · cases h.key with
    | rsa1 type =>
      simp only [keyTypeText, KnownHostNode.keyType, node, type, Option.getD_some]
      exact List.not_mem_nil
    | typed _ _ typeWord => exact typeWord.isText.zero_not_mem
  · intro comment hcomment
    cases h.key with
    | rsa1 _ _ _ _ none => exact absurd (none.symm.trans hcomment) nofun
    | typed _ _ _ _ _ _ _ _ text => exact (text comment hcomment).1.zero_not_mem

theorem HostEntry.Storable.length_keyText (h : e.Storable room) :
    (e.node []).name.printed.length + 1 + e.keyText.length + 1 =
      ((e.node []).line e.keyTypeText).length ∧
    ((e.node []).line e.keyTypeText).length < room := by
  have hlength := h.length_line
  have hfits := h.fits
  have hline : ((e.node []).line e.keyTypeText).length =
      (e.node []).name.printed.length + 1 + e.keyText.length + 1 := by
    rw [e.line_eq]
    simp only [List.length_append, List.length_cons, List.length_nil]
    omega
  rw [List.length_append, List.length_singleton] at hlength
  omega

/-- **A line is read back.** -/
theorem HostEntry.Storable.readline_line (h : e.Storable room) (hroom : room ≤ 2 ^ 64)
    (hosts : List HostEntry) :
    knownhostReadline hosts ((e.node []).line e.keyTypeText ++ [0])
      ((e.node []).line e.keyTypeText).length fileOpenSSH = some ⟨0, hosts ++ [e.reread]⟩ := by
  obtain ⟨hlen, hlt⟩ := h.length_keyText
  have hlong := h.long
  obtain ⟨hword, hne, hhash⟩ := h.name.word
  have hmem : (e.node []).line e.keyTypeText ++ [0] =
      (e.node []).name.printed ++ 32 :: (e.keyText ++ [10, 0]) := by
    rw [e.line_eq]
    simp
  have hread := h.key.read (by omega)
  have htext : e.keyText ≠ [] := fun hnil => by simp [hnil] at hlong
  rw [hmem, ← hlen, knownhostReadline, if_neg (not_not_intro rfl),
    splitLine_words rfl hword hne hhash hread.text htext hread.notBlank]
  simp only [hostline_storable h.name hosts hlong hread.addable, hread.entry]
  rfl

/-- The native writer gives such a line as soon as there is room for it. -/
theorem HostEntry.Storable.writeline (h : e.Storable room) (behind : List UInt8) {buflen : Nat}
    (hbuf : room ≤ buflen) :
    knownhostWriteline (e.node behind) fileOpenSSH buflen =
      ⟨0, ((e.node []).line e.keyTypeText).length, (e.node []).line e.keyTypeText ++ [0]⟩ := by
  have hlength := h.length_line
  have hfits := h.fits
  have htype : (e.node []).keyType = some e.keyTypeText := by
    cases h.key with
    | rsa1 type => simp only [keyTypeText, KnownHostNode.keyType, node, type, Option.getD_some]
    | typed type => exact type
  have hencoded : (e.node []).name.encodingFailed = false := by
    cases h.name with
    | plain type =>
      have hne : ¬ Typemask.plain = Typemask.sha1 := by decide
      simp only [node, type, if_neg hne, HostName.encodingFailed]
    | sha1 type name salt =>
      have hname : e.name.length ≠ 0 := by simpa using name
      have hsalt : e.salt.length ≠ 0 := by simpa using salt
      simp only [node, type, if_true, base64Encode, if_neg hname, if_neg hsalt, List.append_nil,
        List.take_length, HostName.encodingFailed, Lib.Base64.encode_eq_nil_iff]
      simp [name, salt]
  have hsize : (e.node []).requiredSize e.keyTypeText ≤ buflen := by omega
  rw [List.length_append, List.length_singleton] at hlength
  rw [h.name.node_eq behind, knownhostWriteline, if_neg (not_not_intro rfl)]
  rw [← hlength] at hsize
  simp only [htype, hencoded, Bool.false_eq_true, if_false, ← hlength, if_pos hsize,
    Nat.add_sub_cancel]

/-- **The line round trip**: an entry that a line can hold is written, and its line is read back as
the same entry, whatever is in the collection already. -/
theorem readline_writeline (h : e.Storable room) (hroom : room ≤ 2 ^ 64) (behind : List UInt8)
    {buflen : Nat} (hbuf : room ≤ buflen) (hosts : List HostEntry) :
    (knownhostWriteline (e.node behind) fileOpenSSH buflen).rc = 0 ∧
      knownhostReadline hosts (knownhostWriteline (e.node behind) fileOpenSSH buflen).written
        (knownhostWriteline (e.node behind) fileOpenSSH buflen).outlen fileOpenSSH =
          some ⟨0, hosts ++ [e.reread]⟩ := by
  rw [h.writeline behind hbuf]
  exact ⟨rfl, h.readline_line hroom hosts⟩

/-! ## Files -/

/-- A line that is not longer than the buffer comes out of `fgets` as it is. -/
theorem fgetsLines_line {l rest cur : List UInt8} (hl : 10 ∉ l)
    (hlen : cur.length + l.length + 1 < lineBuffer) :
    fgetsLines (l ++ 10 :: rest) cur = (cur ++ l ++ [10]) :: fgetsLines rest [] := by
  induction l generalizing cur with
  | nil =>
    rw [List.nil_append, fgetsLines, if_pos (.inl rfl), List.append_nil]
  | cons b l ih =>
    simp only [List.mem_cons, not_or] at hl
    rw [List.length_cons] at hlen
    have hstay : ¬ (b = 10 ∨ cur.length + 1 = lineBuffer - 1) := by
      rintro (hb | hfull)
      · exact hl.1 hb.symm
      · omega
    rw [List.cons_append, fgetsLines, if_neg hstay,
      ih hl.2 (by rw [List.length_append, List.length_singleton]; omega)]
    simp

/-- A line without its line feed. -/
theorem HostEntry.Storable.line_text (h : e.Storable room) (hroom : room ≤ 2 ^ 64) :
    ∃ l, (e.node []).line e.keyTypeText = l ++ [10] ∧ IsText l := by
  obtain ⟨hlen, hlt⟩ := h.length_keyText
  have hread := h.key.read (by omega)
  exact ⟨(e.node []).name.printed ++ 32 :: e.keyText, by rw [e.line_eq]; simp,
    h.name.word.1.isText.append (isText_blank.append hread.text)⟩

/-- The contents of a file with the lines of the entries. -/
def fileOf (es : List HostEntry) : List UInt8 :=
  es.flatMap fun e => (e.node []).line e.keyTypeText

theorem fgetsLines_fileOf {es : List HostEntry} (h : ∀ e ∈ es, e.Storable lineBuffer) :
    fgetsLines (fileOf es) [] = es.map fun e => (e.node []).line e.keyTypeText := by
  induction es with
  | nil => rfl
  | cons e es ih =>
    have he := h e List.mem_cons_self
    obtain ⟨l, hl, htext⟩ := he.line_text (by decide)
    have hlt := he.length_keyText.2
    rw [hl, List.length_append, List.length_singleton] at hlt
    have hfeed : 10 ∉ l := fun h10 => (htext 10 h10).2 rfl
    have hfile : fileOf (e :: es) = l ++ 10 :: fileOf es := by
      rw [fileOf, List.flatMap_cons, hl]
      simp [fileOf]
    rw [hfile, fgetsLines_line hfeed (by simpa using hlt),
      ih fun e' he' => h e' (List.mem_cons_of_mem e he'), List.map_cons, hl, List.nil_append]

theorem readLinesInto_lines {es : List HostEntry} (h : ∀ e ∈ es, e.Storable lineBuffer)
    (hosts : List HostEntry) (num : Int) :
    readLinesInto hosts num (es.map fun e => (e.node []).line e.keyTypeText) =
      some ⟨num + es.length, hosts ++ es.map HostEntry.reread⟩ := by
  induction es generalizing hosts num with
  | nil => simp [readLinesInto]
  | cons e es ih =>
    have he := h e List.mem_cons_self
    obtain ⟨l, hl, htext⟩ := he.line_text (by decide)
    have hnul : 0 ∉ (e.node []).line e.keyTypeText := by
      rw [hl]
      intro h0
      rcases List.mem_append.mp h0 with h0 | h0
      · exact htext.zero_not_mem h0
      · exact absurd h0 (by decide)
    have hstep := he.readline_line (by decide) hosts
    rw [List.map_cons, readLinesInto, strlen_terminated hnul, hstep]
    simp only [Option.bind_some, ne_eq, not_true_eq_false, if_false]
    rw [ih fun e' he' => h e' (List.mem_cons_of_mem e he')]
    simp only [List.append_assoc, List.singleton_append, List.map_cons, List.length_cons]
    congr 2
    omega

theorem writeLines_eq {es : List HostEntry} (h : ∀ e ∈ es, e.Storable lineBuffer)
    (behind buffer : List UInt8) : writeLines behind buffer es = (0, fileOf es) := by
  induction es generalizing buffer with
  | nil => rfl
  | cons e es ih =>
    have hwrite := (h e List.mem_cons_self).writeline behind (Nat.le_refl lineBuffer)
    rw [writeLines, hwrite]
    simp only [ne_eq, not_true_eq_false, if_false]
    rw [ih fun e' he' => h e' (List.mem_cons_of_mem e he'), List.append_assoc, List.take_left]
    rfl

theorem knownhostWritefile_eq {hosts : List HostEntry} (h : ∀ e ∈ hosts, e.Storable lineBuffer)
    (behind buffer : List UInt8) :
    knownhostWritefile behind buffer hosts fileOpenSSH = (0, fileOf hosts) := by
  rw [knownhostWritefile, if_neg (not_not_intro rfl), writeLines_eq h]

theorem knownhostReadfile_fileOf {hosts : List HostEntry} (h : ∀ e ∈ hosts, e.Storable lineBuffer)
    (others : List HostEntry) : knownhostReadfile others (fileOf hosts) fileOpenSSH =
      some ⟨hosts.length, others ++ hosts.map HostEntry.reread⟩ := by
  rw [knownhostReadfile, if_neg (not_not_intro rfl), fgetsLines_fileOf h, readLinesInto_lines h,
    Int.zero_add]

/-- **The file round trip**: a collection whose entries all fit in a line is written, and its file
is read back as the same entries in the same order, behind those that are there already. -/
theorem readfile_writefile {hosts : List HostEntry} (h : ∀ e ∈ hosts, e.Storable lineBuffer)
    (behind buffer : List UInt8) :
    (knownhostWritefile behind buffer hosts fileOpenSSH).1 = 0 ∧
      ∀ others, knownhostReadfile others (knownhostWritefile behind buffer hosts fileOpenSSH).2
        fileOpenSSH = some ⟨hosts.length, others ++ hosts.map HostEntry.reread⟩ := by
  rw [knownhostWritefile_eq h]
  exact ⟨rfl, knownhostReadfile_fileOf h⟩

/-- An entry with a comment, and one with a hashed name. -/
def sampleHosts : List HostEntry :=
  [{ name := asciiBytes "example.org"
     typemask := Typemask.key 2 ||| Typemask.plain ||| Typemask.keyencBase64
     key := asciiBytes "AAAAB3NzaC1yc2EAAAADAQABAAAB"
     comment := some (asciiBytes "the old one") },
   { name := List.replicate 20 0xC3
     salt := List.replicate 20 0x5A
     typemask := Typemask.key 7 ||| Typemask.sha1 ||| Typemask.keyencBase64
     key := asciiBytes "AAAAC3NzaC1lZDI1NTE5AAAAIBEi" }]

theorem sampleHosts_storable : ∀ e ∈ sampleHosts, e.Storable lineBuffer := by
  intro e he
  simp only [sampleHosts, List.mem_cons, List.not_mem_nil, or_false] at he
  rcases he with rfl | rfl
  · refine ⟨.plain (by decide) rfl (by decide) (by decide) (by decide) (by decide) (by decide)
      (by decide), .typed (by decide) (by decide) (by decide) (by decide) (by decide) (fun _ => rfl)
      (by decide) (by decide) (by decide), by decide, by decide⟩
  · refine ⟨.sha1 (by decide) (by decide) (by decide) (by decide) (by decide),
      .typed (by decide) (by decide) (by decide) (by decide) (by decide) (fun _ => rfl) (by decide)
        (by decide) nofun, by decide, by decide⟩

theorem readfile_writefile_sample :
    (knownhostWritefile [] [] sampleHosts fileOpenSSH).1 = 0 ∧
      ∀ others, knownhostReadfile others (knownhostWritefile [] [] sampleHosts fileOpenSSH).2
        fileOpenSSH = some ⟨sampleHosts.length, others ++ sampleHosts.map HostEntry.reread⟩ :=
  readfile_writefile sampleHosts_storable [] []

end Ssh2Python
